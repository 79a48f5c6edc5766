import Rampipe.Lib.Search
import Mathlib.Data.List.DropRight

/-!
# Rampipe — strings and machine integers

The fragment of Rust's `str` and `i32` the modelled code uses. A `Text` is the
list of characters of a `String`. Offsets count characters: a UTF-8 pattern can
only match at a character boundary, so searching characters and searching bytes
find the same place. The bytes themselves matter in one place only, where the
source compares two renders byte by byte and slices at the offset it gets
(`getRange`).
-/

namespace Rampipe

/-- The characters of a Rust `String`. -/
abbrev Text := List Char

/-! ## Machine integers -/

def i32Max : Int := 2147483647

/-- The `i32` that the release build's wrapping arithmetic makes of an exact
result. -/
def i32 (x : Int) : Int := (x + 2147483648) % 4294967296 - 2147483648

/-- Inside the range nothing wraps. -/
theorem i32_eq_self {x : Int} (h1 : -2147483648 ≤ x) (h2 : x ≤ i32Max) : i32 x = x := by
  unfold i32Max at h2
  unfold i32
  omega

/-- A sum past `i32::MAX` wraps to a negative number. -/
theorem i32_of_overflow {x : Int} (h1 : i32Max < x) (h2 : x ≤ 2 * i32Max) :
    i32 x = x - 4294967296 := by
  unfold i32Max at h1 h2
  unfold i32
  omega

namespace Text

open ListSearch

/-! ## Whitespace -/

/-- `char::is_whitespace`: Unicode `White_Space`. -/
def isWhitespace (c : Char) : Bool :=
  let n := c.toNat
  (0x9 ≤ n && n ≤ 0xD) || n == 0x20 || n == 0x85 || n == 0xA0 || n == 0x1680 ||
    (0x2000 ≤ n && n ≤ 0x200A) || n == 0x2028 || n == 0x2029 || n == 0x202F || n == 0x205F ||
    n == 0x3000

def trimStart (s : Text) : Text := s.dropWhile isWhitespace

def trimEnd (s : Text) : Text := (s.reverse.dropWhile isWhitespace).reverse

def trim (s : Text) : Text := trimEnd (trimStart s)

/-- `slice.join(sep)`. -/
def join (sep : Text) : List Text → Text
  | [] => []
  | [s] => s
  | s :: rest => s ++ sep ++ join sep rest

/-- Some character of `s` is not whitespace. -/
def Visible (s : Text) : Prop := ∃ c ∈ s, isWhitespace c = false

instance (s : Text) : Decidable (Visible s) := List.decidableBEx (fun c => isWhitespace c = false) s

/-- What can be seen is seen behind any text. -/
theorem Visible.append_left {s : Text} (h : Visible s) (t : Text) : Visible (t ++ s) := by
  obtain ⟨c, hc, hVisible⟩ := h
  exact ⟨c, List.mem_append_right t hc, hVisible⟩

/-- And in front of any. -/
theorem Visible.append_right {s : Text} (h : Visible s) (t : Text) : Visible (s ++ t) := by
  obtain ⟨c, hc, hVisible⟩ := h
  exact ⟨c, List.mem_append_left t hc, hVisible⟩

/-- What has a visible beginning is visible. -/
theorem Visible.of_isPrefix {s t : Text} (h : Visible s) (hPrefix : s <+: t) : Visible t := by
  obtain ⟨rest, rfl⟩ := hPrefix
  exact h.append_right rest

/-- Nothing can be seen of a text of whitespace. -/
theorem not_visible_iff {s : Text} : ¬ Visible s ↔ ∀ c ∈ s, isWhitespace c = true := by
  simp [Visible]

/-- Trimming keeps a beginning of the text. -/
theorem trimEnd_isPrefix (s : Text) : trimEnd s <+: s :=
  List.rdropWhile_prefix isWhitespace s

/-- Nothing is left at its end of a text that cannot be seen. -/
theorem trimEnd_eq_nil_iff {s : Text} : trimEnd s = [] ↔ ¬ Visible s := by
  rw [not_visible_iff]
  exact List.rdropWhile_eq_nil_iff

/-- And nothing at its start. -/
theorem trimStart_eq_nil_iff {s : Text} : trimStart s = [] ↔ ¬ Visible s := by
  rw [not_visible_iff]
  exact List.dropWhile_eq_nil_iff

/-- Whitespace is dropped up to what can be seen, whatever follows. -/
theorem dropWhile_append_of_visible {s : Text} (h : Visible s) (t : Text) :
    (s ++ t).dropWhile isWhitespace = s.dropWhile isWhitespace ++ t := by
  have hNe : (s.dropWhile isWhitespace).isEmpty = false := by
    rw [Bool.eq_false_iff, ne_eq, List.isEmpty_iff]
    exact fun hNil => trimStart_eq_nil_iff.mp hNil h
  rw [List.dropWhile_append, hNe]
  rfl

/-- Trimming the end does not reach past a visible character. -/
theorem trimEnd_append {s : Text} (h : Visible s) (t : Text) :
    trimEnd (t ++ s) = t ++ trimEnd s := by
  have hReverse : Visible s.reverse := by
    obtain ⟨c, hc, hVisible⟩ := h
    exact ⟨c, List.mem_reverse.mpr hc, hVisible⟩
  rw [trimEnd, List.reverse_append, dropWhile_append_of_visible hReverse, List.reverse_append,
    List.reverse_reverse, trimEnd]

/-- It does reach past whitespace. -/
theorem trimEnd_append_blank {t : Text} (h : ¬ Visible t) (s : Text) :
    trimEnd (s ++ t) = trimEnd s := by
  have hBlank : t.reverse.dropWhile isWhitespace = [] :=
    List.dropWhile_eq_nil_iff.mpr fun c hc => not_visible_iff.mp h c (List.mem_reverse.mp hc)
  rw [trimEnd, List.reverse_append, List.dropWhile_append, hBlank]
  rfl

/-- The start of a text is trimmed whatever follows what can be seen. -/
theorem trimStart_append {s : Text} (h : Visible s) (t : Text) :
    trimStart (s ++ t) = trimStart s ++ t := dropWhile_append_of_visible h t

/-- Whitespace in front is trimmed away. -/
theorem trimStart_append_blank {s : Text} (h : ¬ Visible s) (t : Text) :
    trimStart (s ++ t) = trimStart t := by
  have hBlank : s.dropWhile isWhitespace = [] :=
    List.dropWhile_eq_nil_iff.mpr (not_visible_iff.mp h)
  rw [trimStart, List.dropWhile_append, hBlank]
  rfl

/-- There is something in a text that can be seen. -/
theorem Visible.ne_nil {s : Text} (h : Visible s) : s ≠ [] := by
  obtain ⟨c, hc, -⟩ := h
  exact List.ne_nil_of_mem hc

/-- Whitespace around a trimmed text is all that trimming takes. -/
theorem trim_append_blank {s blank : Text} (h : trim s = s) (hVisible : Visible s)
    (hBlank : ¬ Visible blank) : trim (s ++ blank) = s := by
  rw [trim, trimStart_append hVisible, trimEnd_append_blank hBlank]
  exact h

/-- Whitespace in front of a trimmed text is trimmed off. -/
theorem trim_blank_append {s blank : Text} (h : trim s = s) (hBlank : ¬ Visible blank) :
    trim (blank ++ s) = s := by
  rw [trim, trimStart_append_blank hBlank]
  exact h

/-! ## Bytes -/

/-- `str::as_bytes`. -/
def asBytes (s : Text) : List UInt8 := s.flatMap String.utf8EncodeChar

/-- Splits after the first `n` bytes, when that is a character boundary. -/
def splitAtByte : Nat → Text → Option (Text × Text)
  | 0, s => some ([], s)
  | _ + 1, [] => none
  | n + 1, c :: cs =>
    if c.utf8Size ≤ n + 1 then
      (splitAtByte (n + 1 - c.utf8Size) cs).map fun (a, b) => (c :: a, b)
    else none

/-- `str::get(start..stop)` with byte offsets: `None` past the end, for a
backwards range, and inside a multi-byte character. -/
def getRange (s : Text) (start stop : Nat) : Option Text := do
  let (_, rest) ← splitAtByte start s
  if start ≤ stop then
    let (mid, _) ← splitAtByte (stop - start) rest
    some mid
  else none

/-- Texts are encoded one behind the other. -/
@[simp] theorem asBytes_append (a b : Text) : asBytes (a ++ b) = asBytes a ++ asBytes b := by
  simp [asBytes]

@[simp] theorem asBytes_cons (c : Char) (s : Text) :
    asBytes (c :: s) = String.utf8EncodeChar c ++ asBytes s := rfl

@[simp] theorem asBytes_nil : asBytes [] = [] := rfl

/-- Cutting where one piece ends and the next begins. -/
theorem splitAtByte_append (a b : Text) :
    splitAtByte (asBytes a).length (a ++ b) = some (a, b) := by
  induction a with
  | nil => cases b <;> rfl
  | cons c a ih =>
    have hPos : 0 < c.utf8Size := c.utf8Size_pos
    have hLen : (asBytes (c :: a)).length = c.utf8Size + (asBytes a).length := by
      simp
    obtain ⟨n, hn⟩ : ∃ n, (asBytes (c :: a)).length = n + 1 := ⟨_, (Nat.succ_pred (by omega)).symm⟩
    rw [hn, List.cons_append, splitAtByte, if_pos (by omega),
      show n + 1 - c.utf8Size = (asBytes a).length by omega, ih]
    rfl

/-- The bytes of a part of a text are that part. -/
theorem getRange_append (a b c : Text) {i j : Nat} (hi : i = (asBytes a).length)
    (hj : j = (asBytes a).length + (asBytes b).length) :
    getRange (a ++ (b ++ c)) i j = some b := by
  subst hi hj
  simp [getRange, splitAtByte_append]

/-- A successful cut is at a character boundary. -/
theorem splitAtByte_eq_some {n : Nat} {s a b : Text} (h : splitAtByte n s = some (a, b)) :
    s = a ++ b ∧ n = (asBytes a).length := by
  induction s generalizing n a b with
  | nil =>
    cases n with
    | zero => simp_all [splitAtByte]
    | succ n => simp [splitAtByte] at h
  | cons c cs ih =>
    cases n with
    | zero =>
      simp only [splitAtByte, Option.some.injEq, Prod.mk.injEq] at h
      obtain ⟨rfl, rfl⟩ := h
      simp
    | succ n =>
      -- the first character fits in the bytes asked for, or the cut is inside it
      rw [splitAtByte] at h
      split at h
      · rename_i hLe
        obtain ⟨⟨a', b'⟩, hCut, hEq⟩ := Option.map_eq_some_iff.mp h
        obtain ⟨rfl, hn⟩ := ih hCut
        simp only [Prod.mk.injEq] at hEq
        obtain ⟨rfl, rfl⟩ := hEq
        refine ⟨rfl, ?_⟩
        simp only [asBytes_cons, List.length_append, String.length_utf8EncodeChar]
        omega
      · cases h

/-- A successful `get` returns the piece between two boundaries. -/
theorem getRange_eq_some {s mid : Text} {i j : Nat} (h : getRange s i j = some mid) :
    ∃ a c, s = a ++ (mid ++ c) ∧ i = (asBytes a).length ∧
      j = (asBytes a).length + (asBytes mid).length := by
  rw [getRange] at h
  simp only [Option.bind_eq_bind, Option.bind_eq_some_iff] at h
  obtain ⟨⟨a, rest⟩, hCut, h⟩ := h
  split at h
  · rename_i hLe
    obtain ⟨⟨mid', c⟩, hCut', h⟩ := Option.bind_eq_some_iff.mp h
    obtain ⟨rfl, hi⟩ := splitAtByte_eq_some hCut
    obtain ⟨hRest, hj⟩ := splitAtByte_eq_some hCut'
    simp only [Option.some.injEq] at h
    subst h
    exact ⟨a, c, congrArg (a ++ ·) hRest, hi, by omega⟩
  · cases h

/-! ## Where renders part -/

/-- No character is encoded as nothing. -/
theorem utf8EncodeChar_ne_nil (c : Char) : String.utf8EncodeChar c ≠ [] := by
  have hLen : (String.utf8EncodeChar c).length = c.utf8Size := String.length_utf8EncodeChar c
  have hPos : 0 < c.utf8Size := c.utf8Size_pos
  intro h
  rw [h, List.length_nil] at hLen
  omega

/-- UTF-8 is a prefix code. -/
theorem eq_of_isPrefix_utf8EncodeChar {c d : Char} {t : List UInt8}
    (h : String.utf8EncodeChar c <+: String.utf8EncodeChar d ++ t) : c = d := by
  obtain ⟨s, hs⟩ := h
  have hc := ByteArray.utf8DecodeChar?_utf8EncodeChar_append (b := s.toByteArray) (c := c)
  have hd := ByteArray.utf8DecodeChar?_utf8EncodeChar_append (b := t.toByteArray) (c := d)
  rw [← List.toByteArray_append, hs, List.toByteArray_append, hd] at hc
  exact (Option.some.inj hc).symm

/-- Only a character's first byte can start a character, so UTF-8 is also a suffix code. -/
theorem eq_of_isSuffix_utf8EncodeChar {c d : Char}
    (h : String.utf8EncodeChar c <:+ String.utf8EncodeChar d) : c = d := by
  obtain ⟨s, hs⟩ := h
  have hPos : 0 < (String.utf8EncodeChar c).length :=
    List.length_pos_iff.mpr (utf8EncodeChar_ne_nil c)
  have hi : s.length < (String.utf8EncodeChar d).length := by
    rw [← hs, List.length_append]
    omega
  -- the byte of `d` at which the encoding of `c` begins
  have hByte : (String.utf8EncodeChar d)[s.length] = (String.utf8EncodeChar c)[0] := by
    simp only [← hs]
    rw [List.getElem_append_right (Nat.le_refl _)]
    simp
  have hFirst : UInt8.IsUTF8FirstByte (String.utf8EncodeChar d)[s.length] := by
    rw [hByte]
    exact UInt8.isUTF8FirstByte_getElem_utf8EncodeChar.mpr rfl
  have hs0 : s = [] := List.length_eq_zero_iff.mp (UInt8.isUTF8FirstByte_getElem_utf8EncodeChar.mp hFirst)
  subst hs0
  exact eq_of_isPrefix_utf8EncodeChar (t := []) (by simp [← hs])

/-- Two texts that start with different characters agree on less than the first one's bytes. -/
theorem commonPrefix_asBytes_cons {c d : Char} (h : c ≠ d) (s t : List UInt8) :
    (commonPrefix (String.utf8EncodeChar c ++ s) (String.utf8EncodeChar d ++ t)).length <
      d.utf8Size := by
  rw [← String.length_utf8EncodeChar]
  -- otherwise all of `d` is shared, and it is a prefix of what starts with `c`
  by_contra hLe
  have hPre : String.utf8EncodeChar d <+: String.utf8EncodeChar c ++ s :=
    (List.prefix_of_prefix_length_le (List.prefix_append _ _) (commonPrefix_isPrefix_right _ _)
      (Nat.not_lt.mp hLe)).trans (commonPrefix_isPrefix_left _ _)
  exact h (eq_of_isPrefix_utf8EncodeChar hPre).symm

/-- The same from the back. -/
theorem commonPrefix_asBytes_concat {c d : Char} (h : c ≠ d) (s t : List UInt8) :
    (commonPrefix ((String.utf8EncodeChar c).reverse ++ s)
      ((String.utf8EncodeChar d).reverse ++ t)).length < d.utf8Size := by
  rw [← String.length_utf8EncodeChar]
  by_contra hLe
  have hPre : (String.utf8EncodeChar d).reverse <+: (String.utf8EncodeChar c).reverse ++ s :=
    (List.prefix_of_prefix_length_le (List.prefix_append _ _) (commonPrefix_isPrefix_right _ _)
      (by simpa using hLe)).trans (commonPrefix_isPrefix_left _ _)
  -- whichever is shorter ends the other
  rcases List.prefix_or_prefix_of_prefix hPre (List.prefix_append _ s) with hDc | hCd
  · exact h (eq_of_isSuffix_utf8EncodeChar (List.reverse_prefix.mp hDc)).symm
  · exact h (eq_of_isSuffix_utf8EncodeChar (List.reverse_prefix.mp hCd))

/-- A character boundary is not inside a character. -/
theorem boundary_eq {a w b rest : Text} {c : Char} {k : Nat} (h : a ++ w = b ++ c :: rest)
    (hk : k < c.utf8Size) (hLen : (asBytes a).length = (asBytes b).length + k) : k = 0 := by
  -- the boundary is at or before the character, or at or behind its end
  rcases List.append_eq_append_iff.mp h with ⟨t, rfl, -⟩ | ⟨t, rfl, ht⟩
  · rw [asBytes_append, List.length_append] at hLen
    omega
  · cases t with
    | nil => simpa using hLen.symm
    | cons d t =>
      rw [List.cons_append, List.cons.injEq] at ht
      obtain ⟨rfl, -⟩ := ht
      simp only [asBytes_append, asBytes_cons, List.length_append,
        String.length_utf8EncodeChar] at hLen
      omega

def IsAscii (s : Text) : Prop := ∀ c ∈ s, c.toNat ≤ 127

instance (s : Text) : Decidable (IsAscii s) :=
  List.decidableBAll (fun c : Char => c.toNat ≤ 127) s

/-- ASCII behind ASCII is ASCII. -/
theorem IsAscii.append {a b : Text} (ha : IsAscii a) (hb : IsAscii b) : IsAscii (a ++ b) := by
  intro c hc
  rcases List.mem_append.mp hc with hc | hc
  · exact ha c hc
  · exact hb c hc

/-- Each of its characters is one byte. -/
theorem IsAscii.utf8Size {s : Text} (h : IsAscii s) {c : Char} (hc : c ∈ s) : c.utf8Size = 1 :=
  Char.utf8Size_eq_one_iff.mpr (UInt32.le_iff_toNat_le.mpr (h c hc))

end Text

end Rampipe
