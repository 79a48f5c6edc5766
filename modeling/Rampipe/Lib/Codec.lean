import Mathlib.Data.List.Nodup

/-!
# Codecs of documents

A codec writes the values of a type as documents and reads them back. It carries its
two laws: a valid value is read back as it was written, and what is read is valid.

* `Codec` — whole documents: `list`, `option`.
* `Record` — the members of an object. Its law is stronger than a round trip: a value
  is read from any members that **carry** it, in whatever order they stand, with members
  nobody knows among them, and without those that may be left out. `member`, `both`,
  `iso`.
* `Tagged` — the variants of a sum, each under its tag: `unit`, `newtype`, `or`, `iso`.
-/

namespace Doc

/-- Writes values as documents and reads them back. -/
structure Codec (δ α : Type) where
  encode : α → δ
  decode : δ → Option α
  /-- The values that can be written. -/
  Valid : α → Prop
  decode_encode : ∀ {a}, Valid a → decode (encode a) = some a
  valid_of_decode : ∀ {d a}, decode d = some a → Valid a

namespace Codec

variable {δ α β : Type}

/-- Reads every document of a list, or none. -/
def decodeAll (c : Codec δ α) : List δ → Option (List α)
  | [] => some []
  | d :: ds => (c.decode d).bind fun a => (decodeAll c ds).map (a :: ·)

/-- Values written one by one are read one by one. -/
theorem decodeAll_map_encode (c : Codec δ α) :
    ∀ {as : List α}, (∀ a ∈ as, c.Valid a) → c.decodeAll (as.map c.encode) = some as
  | [], _ => rfl
  | a :: as, h => by
    rw [List.map_cons, decodeAll, c.decode_encode (h a List.mem_cons_self),
      decodeAll_map_encode c fun b hb => h b (List.mem_cons_of_mem a hb)]
    rfl

/-- All that is read is valid. -/
theorem valid_of_decodeAll (c : Codec δ α) :
    ∀ {ds : List δ} {as : List α}, c.decodeAll ds = some as → ∀ a ∈ as, c.Valid a
  | [], as, h => by
    cases h
    simp
  | d :: ds, as, h => by
    obtain ⟨a, hRead, hRest⟩ := Option.bind_eq_some_iff.mp h
    obtain ⟨rest, hAll, rfl⟩ := Option.map_eq_some_iff.mp hRest
    intro b hb
    rcases List.mem_cons.mp hb with rfl | hb
    · exact c.valid_of_decode hRead
    · exact valid_of_decodeAll c hAll b hb

/-- An array of documents. -/
def list (c : Codec δ α) (toArray : List δ → δ) (ofArray : δ → Option (List δ))
    (hArray : ∀ ds, ofArray (toArray ds) = some ds) : Codec δ (List α) where
  encode as := toArray (as.map c.encode)
  decode d := (ofArray d).bind c.decodeAll
  Valid as := ∀ a ∈ as, c.Valid a
  decode_encode := by
    intro as h
    rw [hArray, Option.bind_some, c.decodeAll_map_encode h]
  valid_of_decode := by
    intro d as h
    obtain ⟨ds, -, hAll⟩ := Option.bind_eq_some_iff.mp h
    exact c.valid_of_decodeAll hAll

/-- A value or nothing, where one document stands for nothing. -/
def option (c : Codec δ α) (null : δ) (isNull : δ → Bool) (hNull : isNull null = true)
    (hEncode : ∀ a, isNull (c.encode a) = false) : Codec δ (Option α) where
  encode o := o.elim null c.encode
  decode d := if isNull d then some none else (c.decode d).map some
  Valid o := ∀ a ∈ o, c.Valid a
  decode_encode := by
    intro o h
    cases o with
    | none => rw [Option.elim_none, if_pos hNull]
    | some a =>
      rw [Option.elim_some, if_neg (by rw [hEncode]; exact Bool.false_ne_true),
        c.decode_encode (h a rfl)]
      rfl
  valid_of_decode := by
    intro d o h a ha
    cases ha
    split at h
    · cases h
    · obtain ⟨b, hRead, hSome⟩ := Option.map_eq_some_iff.mp h
      cases hSome
      exact c.valid_of_decode hRead

end Codec

/-! ## Records -/

section Members

variable {κ δ : Type} [DecidableEq κ]

/-- What stands under a key, as often as it stands there. -/
def valuesAt (key : κ) (members : List (κ × δ)) : List δ :=
  members.filterMap fun member => if member.1 = key then some member.2 else none

/-- The values at a key, in members that come in two parts. -/
theorem valuesAt_append (key : κ) (ms ms' : List (κ × δ)) :
    valuesAt key (ms ++ ms') = valuesAt key ms ++ valuesAt key ms' :=
  List.filterMap_append

theorem valuesAt_self (key : κ) (d : δ) : valuesAt key [(key, d)] = [d] := by
  simp [valuesAt]

/-- No key is in both lists. -/
def disjoint (keys keys' : List κ) : Bool := keys.all fun key => decide (key ∉ keys')

/-- A key of one set is none of the other. -/
theorem not_mem_of_disjoint {keys keys' : List κ} (h : disjoint keys keys' = true) {key : κ}
    (hKey : key ∈ keys) : key ∉ keys' :=
  of_decide_eq_true (List.all_eq_true.mp h key hKey)

/-- Nothing stands under a key that no member has. -/
theorem valuesAt_eq_nil {key : κ} {ms : List (κ × δ)} (h : ∀ m ∈ ms, m.1 ≠ key) :
    valuesAt key ms = [] := by
  rw [valuesAt, List.filterMap_eq_nil_iff]
  intro m hm
  rw [if_neg (h m hm)]

/-- There are as many values at a key as the key occurs. -/
theorem valuesAt_length {key : κ} (ms : List (κ × δ)) :
    (valuesAt key ms).length = (ms.map Prod.fst).count key := by
  induction ms with
  | nil => rfl
  | cons m ms ih =>
    rw [List.map_cons, List.count_cons, ← ih, valuesAt, List.filterMap_cons]
    by_cases hKey : m.1 = key
    · simp [hKey, valuesAt]
    · simp [hKey, valuesAt]

/-- A key that no two members share is found once at most. -/
theorem valuesAt_once (key : κ) {ms : List (κ × δ)} (h : (ms.map Prod.fst).Nodup) :
    (valuesAt key ms).length ≤ 1 := by
  rw [valuesAt_length]
  exact List.nodup_iff_count_le_one.mp h key

/-- What is found once is found wherever it stands. -/
theorem valuesAt_perm {key : κ} {ms ms' : List (κ × δ)} (hPerm : ms.Perm ms')
    (hOnce : (valuesAt key ms').length ≤ 1) : valuesAt key ms = valuesAt key ms' := by
  have hFound : (valuesAt key ms).Perm (valuesAt key ms') :=
    hPerm.filterMap fun m : κ × δ => if m.1 = key then some m.2 else none
  -- a list of one has one order
  rcases hAt : valuesAt key ms' with _ | ⟨d, _ | ⟨d', rest⟩⟩
  · rw [hAt] at hFound
    exact hFound.eq_nil
  · rw [hAt] at hFound
    exact List.perm_singleton.mp hFound
  · rw [hAt] at hOnce
    simp at hOnce

end Members

/-- Writes values as the members of an object and reads them back. -/
structure Record (κ δ α : Type) [DecidableEq κ] where
  /-- The members it knows. -/
  keys : List κ
  encode : α → List (κ × δ)
  decode : List (κ × δ) → Option α
  Valid : α → Prop
  /-- A value's members that read the same when they are left out. -/
  Omittable : α → κ → Prop
  mem_keys : ∀ {a m}, m ∈ encode a → m.1 ∈ keys
  mem_keys_of_omittable : ∀ {a key}, Omittable a key → key ∈ keys
  nodup_encode : ∀ a, ((encode a).map Prod.fst).Nodup
  decode_of_carries : ∀ {a ms}, Valid a →
    (∀ key ∈ keys, valuesAt key ms = valuesAt key (encode a) ∨
      Omittable a key ∧ valuesAt key ms = []) → decode ms = some a
  valid_of_decode : ∀ {ms a}, decode ms = some a → Valid a

namespace Record

variable {κ δ α β : Type} [DecidableEq κ]

/-- The members carry the value: under every key the record knows stands what the value
is written with, or nothing where that may be left out. -/
def Carries (r : Record κ δ α) (ms : List (κ × δ)) (a : α) : Prop :=
  ∀ key ∈ r.keys, valuesAt key ms = valuesAt key (r.encode a) ∨
    r.Omittable a key ∧ valuesAt key ms = []

/-- A record's own members carry it. -/
theorem carries_encode (r : Record κ δ α) (a : α) : r.Carries (r.encode a) a :=
  fun _ _ => .inl rfl

/-- What carries a value: the members it is written with, without some that may be left
out and with some that the record does not know, in any order. -/
theorem carries_of_perm (r : Record κ δ α) {a : α} {kept unknown ms : List (κ × δ)}
    (hKept : kept.Sublist (r.encode a))
    (hLeftOut : ∀ m ∈ r.encode a, m ∉ kept → r.Omittable a m.1)
    (hUnknown : ∀ m ∈ unknown, m.1 ∉ r.keys) (hPerm : ms.Perm (kept ++ unknown)) :
    r.Carries ms a := by
  intro key hKey
  have hSublist : (valuesAt key kept).Sublist (valuesAt key (r.encode a)) := hKept.filterMap _
  have hOnce := valuesAt_once key (r.nodup_encode a)
  -- nothing unknown stands under a known key
  have hAll : valuesAt key (kept ++ unknown) = valuesAt key kept := by
    rw [valuesAt_append, valuesAt_eq_nil fun m hm hEq => hUnknown m hm (hEq ▸ hKey),
      List.append_nil]
  have hAt : valuesAt key ms = valuesAt key kept := by
    rw [valuesAt_perm hPerm (by rw [hAll]; exact Nat.le_trans hSublist.length_le hOnce), hAll]
  rw [hAt]
  rcases hWritten : valuesAt key (r.encode a) with _ | ⟨d, rest⟩
  · rw [hWritten] at hSublist
    exact .inl (List.sublist_nil.mp hSublist)
  · -- the member is written: it was kept, or it may be left out
    obtain ⟨m, hMem, hValue⟩ := List.mem_filterMap.mp
      (show d ∈ valuesAt key (r.encode a) by rw [hWritten]; exact List.mem_cons_self)
    have hOwn : m.1 = key := by
      by_contra hOther
      rw [if_neg hOther] at hValue
      cases hValue
    by_cases hNone : valuesAt key kept = []
    · have hOut : m ∉ kept := fun hIn => by
        have hFound : d ∈ valuesAt key kept := List.mem_filterMap.mpr ⟨m, hIn, hValue⟩
        rw [hNone] at hFound
        cases hFound
      exact .inr ⟨hOwn ▸ hLeftOut m hMem hOut, hNone⟩
    · left
      rw [← hWritten]
      exact hSublist.eq_of_length_le (Nat.le_trans hOnce (List.length_pos_iff.mpr hNone))

/-- A valid record is read back. -/
theorem decode_encode (r : Record κ δ α) {a : α} (h : r.Valid a) :
    r.decode (r.encode a) = some a :=
  r.decode_of_carries h (r.carries_encode a)

/-- A member that may be there once, with what it reads as when it is not there and with
when it is not written. -/
def member (key : κ) (c : Codec δ α) (absent : Option α) (skip : α → Bool)
    (hSkip : ∀ a, skip a = true → absent = some a) (hAbsent : ∀ a ∈ absent, c.Valid a) :
    Record κ δ α where
  keys := [key]
  encode a := if skip a then [] else [(key, c.encode a)]
  decode ms :=
    match valuesAt key ms with
    | [] => absent
    | [d] => c.decode d
    | _ => none
  Valid := c.Valid
  Omittable a key' := key' = key ∧ absent = some a
  mem_keys_of_omittable h := h.1 ▸ List.mem_cons_self
  mem_keys := by
    intro a m hm
    split at hm
    · cases hm
    · rw [List.mem_singleton.mp hm]
      exact List.mem_cons_self
  nodup_encode a := by
    split
    · exact List.nodup_nil
    · exact List.nodup_singleton key
  decode_of_carries := by
    intro a ms h hCarries
    -- what stands under the key is the value, or nothing and the value is the absent one
    have hAt := hCarries key List.mem_cons_self
    by_cases hSkipped : skip a = true
    · rw [if_pos hSkipped] at hAt
      have hNil : valuesAt key ms = [] := hAt.elim id And.right
      rw [hNil]
      exact hSkip a hSkipped
    · rw [if_neg hSkipped, valuesAt_self] at hAt
      rcases hAt with hAt | ⟨⟨-, hAbsentEq⟩, hAt⟩
      · rw [hAt]
        exact c.decode_encode h
      · rw [hAt]
        exact hAbsentEq
  valid_of_decode := by
    intro ms a h
    split at h
    · exact hAbsent a h
    · exact c.valid_of_decode h
    · cases h

/-- A member that has to be there. -/
def required (key : κ) (c : Codec δ α) : Record κ δ α :=
  member key c none (fun _ => false) (by simp) (by simp)

/-- A member that is always written and reads as a default when it is not there. -/
def defaulted (key : κ) (c : Codec δ α) (default : α) (hDefault : c.Valid default) :
    Record κ δ α :=
  member key c (some default) (fun _ => false) (by simp)
    (by rintro a ⟨⟩; exact hDefault)

/-- A member that is not written when it has its default. -/
def skipping (key : κ) (c : Codec δ α) (default : α) (skip : α → Bool)
    (hSkip : ∀ a, skip a = true → default = a) (hDefault : c.Valid default) : Record κ δ α :=
  member key c (some default) skip (fun a h => congrArg some (hSkip a h))
    (by rintro a ⟨⟩; exact hDefault)

/-- The members of two records with different keys, one after the other. -/
def both (r : Record κ δ α) (s : Record κ δ β) (hKeys : disjoint r.keys s.keys = true) :
    Record κ δ (α × β) where
  keys := r.keys ++ s.keys
  encode a := r.encode a.1 ++ s.encode a.2
  decode ms := (r.decode ms).bind fun a => (s.decode ms).map fun b => (a, b)
  Valid a := r.Valid a.1 ∧ s.Valid a.2
  Omittable a key := r.Omittable a.1 key ∨ s.Omittable a.2 key
  mem_keys_of_omittable h :=
    h.elim (fun h => List.mem_append_left _ (r.mem_keys_of_omittable h))
      fun h => List.mem_append_right _ (s.mem_keys_of_omittable h)
  mem_keys := by
    intro a m hm
    rcases List.mem_append.mp hm with hm | hm
    · exact List.mem_append_left _ (r.mem_keys hm)
    · exact List.mem_append_right _ (s.mem_keys hm)
  nodup_encode a := by
    rw [List.map_append]
    refine List.Nodup.append (r.nodup_encode a.1) (s.nodup_encode a.2) fun key hLeft hRight => ?_
    obtain ⟨m, hm, rfl⟩ := List.mem_map.mp hLeft
    obtain ⟨m', hm', hEq⟩ := List.mem_map.mp hRight
    exact not_mem_of_disjoint hKeys (r.mem_keys hm) (hEq ▸ s.mem_keys hm')
  decode_of_carries := by
    intro a ms h hCarries
    -- neither record writes under a key of the other
    have hKeys : ∀ key ∈ r.keys, key ∉ s.keys := fun _ => not_mem_of_disjoint hKeys
    have hLeft : r.decode ms = some a.1 := by
      refine r.decode_of_carries h.1 fun key hKey => ?_
      have hNone : valuesAt key (s.encode a.2) = [] :=
        valuesAt_eq_nil fun m hm hEq => hKeys key hKey (hEq ▸ s.mem_keys hm)
      have hAt := hCarries key (List.mem_append_left _ hKey)
      rw [valuesAt_append, hNone, List.append_nil] at hAt
      exact hAt.imp_right fun hOmit =>
        ⟨hOmit.1.resolve_right fun hOther => hKeys key hKey (s.mem_keys_of_omittable hOther),
          hOmit.2⟩
    have hRight : s.decode ms = some a.2 := by
      refine s.decode_of_carries h.2 fun key hKey => ?_
      have hNone : valuesAt key (r.encode a.1) = [] :=
        valuesAt_eq_nil fun m hm hEq => hKeys m.1 (r.mem_keys hm) (hEq ▸ hKey)
      have hAt := hCarries key (List.mem_append_right _ hKey)
      rw [valuesAt_append, hNone, List.nil_append] at hAt
      exact hAt.imp_right fun hOmit =>
        ⟨hOmit.1.resolve_left fun hOther => hKeys key (r.mem_keys_of_omittable hOther) hKey,
          hOmit.2⟩
    rw [hLeft, hRight]
    rfl
  valid_of_decode := by
    intro ms a h
    obtain ⟨b, hLeft, hRest⟩ := Option.bind_eq_some_iff.mp h
    obtain ⟨b', hRight, rfl⟩ := Option.map_eq_some_iff.mp hRest
    exact ⟨r.valid_of_decode hLeft, s.valid_of_decode hRight⟩

/-- The same members for another form of the values. -/
def iso (r : Record κ δ α) (pack : α → β) (unpack : β → α) (hPack : ∀ b, pack (unpack b) = b)
    (hUnpack : ∀ a, unpack (pack a) = a) : Record κ δ β where
  keys := r.keys
  encode b := r.encode (unpack b)
  decode ms := (r.decode ms).map pack
  Valid b := r.Valid (unpack b)
  Omittable b := r.Omittable (unpack b)
  mem_keys hm := r.mem_keys hm
  mem_keys_of_omittable h := r.mem_keys_of_omittable h
  nodup_encode b := r.nodup_encode (unpack b)
  decode_of_carries := by
    intro b ms h hCarries
    rw [r.decode_of_carries h hCarries, Option.map_some, hPack]
  valid_of_decode := by
    intro ms b h
    obtain ⟨a, hRead, rfl⟩ := Option.map_eq_some_iff.mp h
    rw [hUnpack]
    exact r.valid_of_decode hRead

/-- A record as a whole document. -/
def codec (r : Record κ δ α) (toObject : List (κ × δ) → δ) (ofObject : δ → Option (List (κ × δ)))
    (hObject : ∀ ms, ofObject (toObject ms) = some ms) : Codec δ α where
  encode a := toObject (r.encode a)
  decode d := (ofObject d).bind r.decode
  Valid := r.Valid
  decode_encode := by
    intro a h
    rw [hObject, Option.bind_some, r.decode_encode h]
  valid_of_decode := by
    intro d a h
    obtain ⟨ms, -, hRead⟩ := Option.bind_eq_some_iff.mp h
    exact r.valid_of_decode hRead

end Record

/-! ## Sums -/

/-- Writes each value under a tag, with a content or without one. -/
structure Tagged (κ δ α : Type) where
  tags : List κ
  encode : α → κ × Option δ
  decode : κ → Option δ → Option α
  Valid : α → Prop
  mem_tags : ∀ a, (encode a).1 ∈ tags
  mem_tags_of_decode : ∀ {tag content a}, decode tag content = some a → tag ∈ tags
  decode_encode : ∀ {a}, Valid a → decode (encode a).1 (encode a).2 = some a
  valid_of_decode : ∀ {tag content a}, decode tag content = some a → Valid a

namespace Tagged

variable {κ δ α β : Type} [DecidableEq κ]

/-- A variant without a content; a null one is as good as none. -/
def unit (tag : κ) (isNull : δ → Bool) : Tagged κ δ Unit where
  tags := [tag]
  encode _ := (tag, none)
  decode tag' content := if tag' = tag ∧ content.all isNull then some () else none
  Valid _ := True
  mem_tags _ := List.mem_cons_self
  mem_tags_of_decode := by
    intro tag' content a h
    split at h
    · rename_i hTag
      exact hTag.1 ▸ List.mem_cons_self
    · cases h
  decode_encode _ := by simp
  valid_of_decode _ := trivial

/-- A variant with a content. -/
def newtype (tag : κ) (c : Codec δ α) : Tagged κ δ α where
  tags := [tag]
  encode a := (tag, some (c.encode a))
  decode tag' content := if tag' = tag then content.bind c.decode else none
  Valid := c.Valid
  mem_tags _ := List.mem_cons_self
  mem_tags_of_decode := by
    intro tag' content a h
    split at h
    · rename_i hTag
      exact hTag ▸ List.mem_cons_self
    · cases h
  decode_encode := by
    intro a h
    rw [if_pos rfl, Option.bind_some, c.decode_encode h]
  valid_of_decode := by
    intro tag' content a h
    split at h
    · obtain ⟨d, -, hRead⟩ := Option.bind_eq_some_iff.mp h
      exact c.valid_of_decode hRead
    · cases h

/-- The variants of two sums with different tags. -/
def or (r : Tagged κ δ α) (s : Tagged κ δ β) (hTags : disjoint s.tags r.tags = true) :
    Tagged κ δ (α ⊕ β) where
  tags := r.tags ++ s.tags
  encode
    | .inl a => r.encode a
    | .inr b => s.encode b
  decode tag content :=
    if tag ∈ r.tags then (r.decode tag content).map .inl else (s.decode tag content).map .inr
  Valid
    | .inl a => r.Valid a
    | .inr b => s.Valid b
  mem_tags
    | .inl a => List.mem_append_left _ (r.mem_tags a)
    | .inr b => List.mem_append_right _ (s.mem_tags b)
  mem_tags_of_decode := by
    intro tag content a h
    split at h
    · exact List.mem_append_left _ ‹_›
    · obtain ⟨b, hRead, rfl⟩ := Option.map_eq_some_iff.mp h
      exact List.mem_append_right _ (s.mem_tags_of_decode hRead)
  decode_encode := by
    rintro (a | b) h
    · rw [if_pos (r.mem_tags a), r.decode_encode h]
      rfl
    · rw [if_neg (not_mem_of_disjoint hTags (s.mem_tags b)), s.decode_encode h]
      rfl
  valid_of_decode := by
    intro tag content a h
    split at h
    · obtain ⟨b, hRead, rfl⟩ := Option.map_eq_some_iff.mp h
      exact r.valid_of_decode hRead
    · obtain ⟨b, hRead, rfl⟩ := Option.map_eq_some_iff.mp h
      exact s.valid_of_decode hRead

/-- The same variants for another form of the values. -/
def iso (r : Tagged κ δ α) (pack : α → β) (unpack : β → α) (hPack : ∀ b, pack (unpack b) = b)
    (hUnpack : ∀ a, unpack (pack a) = a) : Tagged κ δ β where
  tags := r.tags
  encode b := r.encode (unpack b)
  decode tag content := (r.decode tag content).map pack
  Valid b := r.Valid (unpack b)
  mem_tags b := r.mem_tags (unpack b)
  mem_tags_of_decode := by
    intro tag content b h
    obtain ⟨a, hRead, rfl⟩ := Option.map_eq_some_iff.mp h
    exact r.mem_tags_of_decode hRead
  decode_encode := by
    intro b h
    rw [r.decode_encode h, Option.map_some, hPack]
  valid_of_decode := by
    intro tag content b h
    obtain ⟨a, hRead, rfl⟩ := Option.map_eq_some_iff.mp h
    rw [hUnpack]
    exact r.valid_of_decode hRead

/-- A variant reads the content that its own codec reads. -/
theorem decode_newtype {tag : κ} {c : Codec δ α} {d : δ} {a : α} (h : c.decode d = some a) :
    (newtype tag c).decode tag (some d) = some a := by
  show (if tag = tag then (some d).bind c.decode else none) = some a
  rw [if_pos rfl, Option.bind_some, h]

/-- Of two sums the first reads its own tags. -/
theorem decode_left {r : Tagged κ δ α} {s : Tagged κ δ β} {hTags : disjoint s.tags r.tags = true}
    {tag : κ} {content : Option δ} {a : α} (h : r.decode tag content = some a) :
    (r.or s hTags).decode tag content = some (.inl a) := by
  show (if tag ∈ r.tags then (r.decode tag content).map Sum.inl
    else (s.decode tag content).map Sum.inr) = some (.inl a)
  rw [if_pos (r.mem_tags_of_decode h), h]
  rfl

/-- The second reads those the first does not have. -/
theorem decode_right {r : Tagged κ δ α} {s : Tagged κ δ β} {hTags : disjoint s.tags r.tags = true}
    {tag : κ} {content : Option δ} {b : β} (h : s.decode tag content = some b) :
    (r.or s hTags).decode tag content = some (.inr b) := by
  show (if tag ∈ r.tags then (r.decode tag content).map Sum.inl
    else (s.decode tag content).map Sum.inr) = some (.inr b)
  rw [if_neg (not_mem_of_disjoint hTags (s.mem_tags_of_decode h)), h]
  rfl

/-- A sum as a whole document. -/
def codec (r : Tagged κ δ α) (toTagged : κ × Option δ → δ) (ofTagged : δ → Option (κ × Option δ))
    (hTagged : ∀ tagged, ofTagged (toTagged tagged) = some tagged) : Codec δ α where
  encode a := toTagged (r.encode a)
  decode d := (ofTagged d).bind fun tagged => r.decode tagged.1 tagged.2
  Valid := r.Valid
  decode_encode := by
    intro a h
    rw [hTagged, Option.bind_some, r.decode_encode h]
  valid_of_decode := by
    intro d a h
    obtain ⟨tagged, -, hRead⟩ := Option.bind_eq_some_iff.mp h
    exact r.valid_of_decode hRead

end Tagged

/-! ## Lines -/

section Lines

variable {τ : Type} [DecidableEq τ]

/-- Cuts a stream behind every newline. -/
def lines (newline : τ) : List τ → List (List τ)
  | [] => []
  | x :: xs =>
    if x = newline then [x] :: lines newline xs
    else
      match lines newline xs with
      | [] => [[x]]
      | line :: rest => (x :: line) :: rest

/-- A frame is cut off at its newline. -/
theorem lines_frame {newline : τ} {frame : List τ} (h : newline ∉ frame) (xs : List τ) :
    lines newline (frame ++ newline :: xs) = (frame ++ [newline]) :: lines newline xs := by
  induction frame with
  | nil => rw [List.nil_append, lines, if_pos rfl, List.nil_append]
  | cons x frame ih =>
    have hx : x ≠ newline := fun hEq => h (hEq ▸ List.mem_cons_self)
    rw [List.cons_append, lines, if_neg hx, ih fun hMem => h (List.mem_cons_of_mem x hMem)]
    rfl

/-- Frames without a newline, each behind the other with a newline at its end, are cut
into these frames. -/
theorem lines_frames {newline : τ} :
    ∀ {frames : List (List τ)}, (∀ frame ∈ frames, newline ∉ frame) →
      lines newline (frames.flatMap (· ++ [newline])) = frames.map (· ++ [newline])
  | [], _ => rfl
  | frame :: frames, h => by
    rw [List.flatMap_cons, List.append_assoc, List.singleton_append,
      lines_frame (h frame List.mem_cons_self),
      lines_frames fun other hOther => h other (List.mem_cons_of_mem frame hOther), List.map_cons]

end Lines

end Doc
