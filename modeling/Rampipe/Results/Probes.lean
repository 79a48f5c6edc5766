import Rampipe.Model.ToolFormat
import Rampipe.Model.ToolCalls

/-!
# Rampipe — what the probes recover

The derivation reads a template through three renders. This module says what it
reads. When a call and a plain reply stand in the same framing, the region in
which the two renders part is the call (`divergingRegion_of_ascii`; for text
that is not ASCII, `eq_of_divergingRegion`). The sentinels then cut that region
into the spans of `ProbeSpans`, and `deriveToolCallFormat_probed` is the
derivation as a function of those spans. The three families differ only in
which spans their templates write.
-/

namespace Rampipe.ToolFormat

open ListSearch Text

/-! ## The diverging region -/

section Region

variable (before after : Text) {plain call r : Text} {c d : Char}

/-- The two renders part inside the first character they do not share. -/
theorem commonPrefixLen_framed {plain' call' : Text} (hPlain : plain = c :: plain')
    (hCall : call = d :: call') (hCd : c ≠ d) :
    ∃ k < d.utf8Size, commonPrefixLen (asBytes (before ++ (plain ++ after)))
      (asBytes (before ++ (call ++ after))) = (asBytes before).length + k := by
  subst hPlain hCall
  refine ⟨_, commonPrefix_asBytes_cons hCd (asBytes (plain' ++ after)) (asBytes (call' ++ after)),
    ?_⟩
  rw [commonPrefixLen, asBytes_append before, asBytes_append before, commonPrefix_append_append,
    List.length_append]
  rfl

/-- And, read from the back, inside the last one. -/
theorem commonSuffixLen_framed {plain' call' : Text} (hPlain : plain = plain' ++ [c])
    (hCall : call = call' ++ [d]) (hCd : c ≠ d) :
    ∃ m < d.utf8Size, commonSuffixLen (asBytes (plain ++ after)) (asBytes (call ++ after)) =
      (asBytes after).length + m := by
  subst hPlain hCall
  refine ⟨_, commonPrefix_asBytes_concat hCd (asBytes plain').reverse (asBytes call').reverse, ?_⟩
  simp only [commonSuffixLen, commonPrefixLen, asBytes_append, asBytes_cons, asBytes_nil,
    List.append_nil, List.reverse_append, commonPrefix_append_append, List.length_append,
    List.length_reverse]

variable {plain₁ call₁ plain₂ call₂ : Text} {e f : Char}

/-- ASCII on both edges of the call: the region is the call. -/
theorem divergingRegion_of_ascii (hPlain : plain = c :: plain₁) (hCall : call = d :: call₁)
    (hCd : c ≠ d) (hPlain' : plain = plain₂ ++ [e]) (hCall' : call = call₂ ++ [f]) (hEf : e ≠ f)
    (hd : d.utf8Size = 1) (hf : f.utf8Size = 1) :
    divergingRegion (before ++ (plain ++ after)) (before ++ (call ++ after)) = some call := by
  obtain ⟨k, hk, hPre⟩ := commonPrefixLen_framed before after hPlain hCall hCd
  obtain ⟨m, hm, hSuf⟩ := commonSuffixLen_framed after hPlain' hCall' hEf
  -- a one-byte character has no inside for the common bytes to end in
  obtain rfl : k = 0 := by omega
  obtain rfl : m = 0 := by omega
  rw [Nat.add_zero] at hPre hSuf
  rw [divergingRegion]
  simp only [hPre]
  rw [asBytes_append before, asBytes_append before, List.drop_left, List.drop_left, hSuf,
    if_pos (by simp; omega)]
  exact getRange_append before call after rfl (by simp; omega)

/-- Any edges: the region is the call, or the template is not derivable. -/
theorem eq_of_divergingRegion (hPlain : plain = c :: plain₁) (hCall : call = d :: call₁)
    (hCd : c ≠ d) (hPlain' : plain = plain₂ ++ [e]) (hCall' : call = call₂ ++ [f]) (hEf : e ≠ f)
    (h : divergingRegion (before ++ (plain ++ after)) (before ++ (call ++ after)) = some r) :
    r = call := by
  obtain ⟨k, hk, hPre⟩ := commonPrefixLen_framed before after hPlain hCall hCd
  obtain ⟨m, hm, hSuf⟩ := commonSuffixLen_framed after hPlain' hCall' hEf
  rw [divergingRegion] at h
  simp only [hPre] at h
  split at h
  · obtain ⟨a, z, hCut, hStart, hStop⟩ := getRange_eq_some h
    -- a cut inside the call's first character is no boundary
    have hBegin : a ++ (r ++ z) = before ++ d :: (call₁ ++ after) := by
      rw [← hCut, hCall]
      rfl
    obtain rfl : k = 0 := boundary_eq hBegin hk hStart.symm
    rw [Nat.add_zero] at hPre hStart hStop h
    rw [asBytes_append before, asBytes_append before, List.drop_left, List.drop_left, hSuf]
      at h hStop
    have hLen : (asBytes call).length = (asBytes call₂).length + f.utf8Size := by
      simp [hCall']
    rw [List.length_append, asBytes_append, List.length_append, hLen] at hStop
    -- nor is one inside its last
    have hEnd : (a ++ r) ++ z = (before ++ call₂) ++ f :: after := by
      rw [List.append_assoc, ← hCut, hCall']
      simp
    obtain rfl : m = 0 := by
      by_contra hm0
      have hk0 := boundary_eq hEnd (k := f.utf8Size - m) (by omega) (by
        simp only [asBytes_append, List.length_append]
        omega)
      omega
    rw [getRange_append before call after rfl (by simp; omega)] at h
    exact (Option.some.inj h).symm
  · cases h

end Region
/-! ## Shared prefixes -/

/-- Two ASCII texts that share no characters share no bytes. -/
theorem commonPrefix_asBytes_eq_nil {a b : Text} (ha : IsAscii a) (h : commonPrefix a b = []) :
    commonPrefix (asBytes a) (asBytes b) = [] := by
  cases b with
  | nil => cases asBytes a <;> rfl
  | cons y b =>
    cases a with
    | nil => rfl
    | cons x a =>
      have hNe : x ≠ y := by
        rintro rfl
        simp [commonPrefix] at h
      have hx : x.utf8Size = 1 := ha.utf8Size List.mem_cons_self
      have hLt := commonPrefix_asBytes_cons (c := y) (d := x) hNe.symm (asBytes b) (asBytes a)
      rw [commonPrefix_comm, hx] at hLt
      exact List.length_eq_zero_iff.mp (by rw [asBytes_cons, asBytes_cons]; omega)

/-- Between ASCII texts the bytes shared are the characters shared. -/
theorem sharedPrefix_append {a b : Text} (ha : IsAscii a) (q : Text) :
    sharedPrefix (q ++ a) (q ++ b) = q ++ commonPrefix a b := by
  obtain ⟨s, t, hs, ht, hSt⟩ := commonPrefix_split a b
  generalize commonPrefix a b = p at hs ht ⊢
  subst hs ht
  have hAscii : IsAscii s := fun c hc => ha c (List.mem_append_right _ hc)
  have hBytes : commonPrefixLen (asBytes (q ++ (p ++ s))) (asBytes (q ++ (p ++ t))) =
      (asBytes (q ++ p)).length := by
    rw [commonPrefixLen, ← List.append_assoc, ← List.append_assoc, asBytes_append _ s,
      asBytes_append _ t, commonPrefix_append_append, commonPrefix_asBytes_eq_nil hAscii hSt,
      List.append_nil]
  have hCut := getRange_append [] (q ++ p) s (i := 0) (j := (asBytes (q ++ p)).length) rfl
    (by simp)
  rw [List.nil_append, List.append_assoc] at hCut
  rw [sharedPrefix, hBytes, hCut, Option.getD_some]

/-! ## The sentinels -/

/-- The private-use character every sentinel opens with. -/
def mark : Char := '\uE000'

/-- ... and the one it closes with. -/
def endMark : Char := '\uE001'

/-- The sentinels the call probe writes. -/
def callSentinels : List Text := [NAME, ARG1, VAL1, ARG2, VAL2]

section Sentinels

variable {S X span : Text}

/-- All of them. -/
def sentinels : List Text := callSentinels ++ [PLAIN, USER, RESULT, RESULT2, REPLY]

/-- Each sentinel is a word between two marks that are nowhere in it. -/
theorem eq_framed : ∀ S ∈ sentinels, S = framed mark endMark S.tail.dropLast ∧
    mark ∉ S.tail.dropLast ∧ endMark ∉ S.tail.dropLast := by decide

/-- A sentinel is a word between the two marks. -/
theorem exists_word (hS : S ∈ sentinels) :
    ∃ word, S = framed mark endMark word ∧ mark ∉ word ∧ endMark ∉ word :=
  ⟨_, eq_framed S hS⟩

/-- The plain probe begins with a mark. -/
theorem PLAIN_eq_cons : PLAIN = mark :: PLAIN.tail := by decide

/-- And it ends with one. -/
theorem PLAIN_eq_concat : PLAIN = PLAIN.dropLast ++ [endMark] := by decide

/-- A span without a mark is skipped. -/
theorem find_skip_span (hS : S ∈ sentinels) (h : mark ∉ span) (rest : Text) :
    find S (span ++ rest) = (find S rest).map (· + span.length) := by
  obtain ⟨word, rfl, -, -⟩ := exists_word hS
  exact find_skip h rest

/-- So is another sentinel. -/
theorem find_skip_sentinel (hS : S ∈ sentinels) (hX : X ∈ sentinels) (hNe : S ≠ X)
    (rest : Text) : find S (X ++ rest) = (find S rest).map (· + X.length) := by
  obtain ⟨word, rfl, -, hWord⟩ := exists_word hS
  obtain ⟨other, rfl, hMark, hOther⟩ := exists_word hX
  refine find_skip_framed (by decide) hWord hOther (fun hEq => hNe ?_) hMark rest
  rw [hEq]

/-- The search for one sentinel passes over a span and another sentinel. -/
theorem find_past (hS : S ∈ sentinels) (h : mark ∉ span) (hX : X ∈ sentinels)
    (hNe : S ≠ X) {rest : Text} {i : Nat} (hRest : find S rest = some i) :
    find S (span ++ (X ++ rest)) = some (span.length + X.length + i) := by
  rw [find_skip_span hS h, find_skip_sentinel hS hX hNe, hRest, Option.map_some, Option.map_some,
    Option.some.injEq]
  omega

/-- Behind such a span a sentinel is found where it stands. -/
theorem find_here (hS : S ∈ sentinels) (h : mark ∉ span) (rest : Text) :
    find S (span ++ (S ++ rest)) = some span.length := by
  rw [find_skip_span hS h, find_of_isPrefix (List.prefix_append S rest), Option.map_some,
    Nat.zero_add]

/-- A span in ASCII has no mark in it. -/
theorem mark_not_mem_of_isAscii (h : IsAscii span) : mark ∉ span := by
  intro hMem
  exact absurd (h mark hMem) (by decide)

end Sentinels

/-! ## The spans between the sentinels -/

/-- The literal text around the sentinels of the two call probes. -/
structure ProbeSpans where
  callOpen : Text
  nameToArg1 : Text
  arg1ToVal1 : Text
  val1ToArg2 : Text
  arg2ToVal2 : Text
  afterVal2 : Text
  afterName : Text

namespace ProbeSpans

def all (s : ProbeSpans) : List Text :=
  [s.callOpen, s.nameToArg1, s.arg1ToVal1, s.val1ToArg2, s.arg2ToVal2, s.afterVal2, s.afterName]

/-- The two-argument call as it is rendered. -/
def region (s : ProbeSpans) : Text :=
  s.callOpen ++ (NAME ++ (s.nameToArg1 ++ (ARG1 ++ (s.arg1ToVal1 ++ (VAL1 ++ (s.val1ToArg2 ++
    (ARG2 ++ (s.arg2ToVal2 ++ (VAL2 ++ s.afterVal2)))))))))

/-- The call without arguments. -/
def noArgsRegion (s : ProbeSpans) : Text := s.callOpen ++ (NAME ++ s.afterName)

/-- What is in no span and in no sentinel is not in the region. -/
theorem not_mem_region {c : Char} {s : ProbeSpans} (hSpans : ∀ span ∈ s.all, c ∉ span)
    (hSentinels : ∀ S ∈ callSentinels, c ∉ S) : c ∉ s.region := by
  simp only [all, callSentinels, List.forall_mem_cons] at hSpans hSentinels
  obtain ⟨h1, h2, h3, h4, h5, h6, -⟩ := hSpans
  obtain ⟨k1, k2, k3, k4, k5, -⟩ := hSentinels
  simp only [region, List.mem_append, not_or]
  exact ⟨h1, k1, h2, k2, h3, k3, h4, k4, h5, k5, h6⟩

/-- What stands behind the last value ends the region. -/
theorem afterVal2_suffix (s : ProbeSpans) : s.afterVal2 <:+ s.region :=
  ⟨s.callOpen ++ NAME ++ s.nameToArg1 ++ ARG1 ++ s.arg1ToVal1 ++ VAL1 ++ s.val1ToArg2 ++ ARG2 ++
    s.arg2ToVal2 ++ VAL2, by simp only [region, List.append_assoc]⟩

/-- And what stands behind the name ends the region of a call without arguments. -/
theorem afterName_suffix (s : ProbeSpans) : s.afterName <:+ s.noArgsRegion :=
  ⟨s.callOpen ++ NAME, by simp only [noArgsRegion, List.append_assoc]⟩

def nameAt (s : ProbeSpans) : Nat := s.callOpen.length
def arg1At (s : ProbeSpans) : Nat := s.nameAt + NAME.length + s.nameToArg1.length
def val1At (s : ProbeSpans) : Nat := s.arg1At + ARG1.length + s.arg1ToVal1.length
def arg2At (s : ProbeSpans) : Nat := s.val1At + VAL1.length + s.val1ToArg2.length
def val2At (s : ProbeSpans) : Nat := s.arg2At + ARG2.length + s.arg2ToVal2.length

/-- No span holds the character a sentinel opens with. -/
def MarkFree (s : ProbeSpans) : Prop := ∀ span ∈ s.all, mark ∉ span

section Finding

variable {s : ProbeSpans}

/-- The name is found behind the opener. -/
theorem find_name (h : s.MarkFree) : find NAME s.region = some s.nameAt :=
  find_here (by decide) (h _ (by simp [all])) _

/-- In a call without arguments too. -/
theorem find_noArgs_name (h : s.MarkFree) : find NAME s.noArgsRegion = some s.nameAt :=
  find_here (by decide) (h _ (by simp [all])) _

/-- The first key is found where it stands. -/
theorem find_arg1 (h : s.MarkFree) : find ARG1 s.region = some s.arg1At := by
  refine find_past (by decide) (h _ (by simp [all])) (by decide) (by decide) ?_
  exact find_here (by decide) (h _ (by simp [all])) _

/-- So is its value. -/
theorem find_val1 (h : s.MarkFree) : find VAL1 s.region = some s.val1At := by
  have hAt : s.val1At = s.callOpen.length + NAME.length +
      (s.nameToArg1.length + ARG1.length + s.arg1ToVal1.length) := by
    simp only [val1At, arg1At, nameAt]
    omega
  rw [hAt]
  refine find_past (by decide) (h _ (by simp [all])) (by decide) (by decide) ?_
  refine find_past (by decide) (h _ (by simp [all])) (by decide) (by decide) ?_
  exact find_here (by decide) (h _ (by simp [all])) _

/-- The second key is found behind both. -/
theorem find_arg2 (h : s.MarkFree) : find ARG2 s.region = some s.arg2At := by
  have hAt : s.arg2At = s.callOpen.length + NAME.length + (s.nameToArg1.length + ARG1.length +
      (s.arg1ToVal1.length + VAL1.length + s.val1ToArg2.length)) := by
    simp only [arg2At, val1At, arg1At, nameAt]
    omega
  rw [hAt]
  refine find_past (by decide) (h _ (by simp [all])) (by decide) (by decide) ?_
  refine find_past (by decide) (h _ (by simp [all])) (by decide) (by decide) ?_
  refine find_past (by decide) (h _ (by simp [all])) (by decide) (by decide) ?_
  exact find_here (by decide) (h _ (by simp [all])) _

/-- And the second value behind all of them. -/
theorem find_val2 (h : s.MarkFree) : find VAL2 s.region = some s.val2At := by
  have hAt : s.val2At = s.callOpen.length + NAME.length + (s.nameToArg1.length + ARG1.length +
      (s.arg1ToVal1.length + VAL1.length + (s.val1ToArg2.length + ARG2.length +
        s.arg2ToVal2.length))) := by
    simp only [val2At, arg2At, val1At, arg1At, nameAt]
    omega
  rw [hAt]
  refine find_past (by decide) (h _ (by simp [all])) (by decide) (by decide) ?_
  refine find_past (by decide) (h _ (by simp [all])) (by decide) (by decide) ?_
  refine find_past (by decide) (h _ (by simp [all])) (by decide) (by decide) ?_
  refine find_past (by decide) (h _ (by simp [all])) (by decide) (by decide) ?_
  exact find_here (by decide) (h _ (by simp [all])) _

/-- They stand in the order of the call. -/
theorem emission_order (s : ProbeSpans) :
    s.nameAt < s.arg1At ∧ s.arg1At < s.val1At ∧ s.val1At < s.arg2At ∧ s.arg2At < s.val2At := by
  simp only [val2At, arg2At, val1At, arg1At]
  have hLen : ∀ S ∈ callSentinels, 0 < S.length := by decide
  have h1 := hLen NAME (by decide)
  have h2 := hLen ARG1 (by decide)
  have h3 := hLen VAL1 (by decide)
  have h4 := hLen ARG2 (by decide)
  omega

end Finding

section Slicing

variable (s : ProbeSpans)

/-- In front of the name stands the opener. -/
theorem region_take : s.region.take s.nameAt = s.callOpen := List.take_left

/-- The span that follows a sentinel, given what precedes the sentinel. -/
theorem slice_after (front S span rest : Text) {i j : Nat} (hi : i = front.length)
    (hj : j = i + S.length + span.length) :
    slice (front ++ (S ++ (span ++ rest))) (i + S.length) j = some span := by
  rw [← List.append_assoc]
  refine slice_append (front ++ S) span rest ?_ ?_
  · rw [List.length_append, hi]
  · rw [List.length_append, hj, hi]

/-- Between the name and the first key stands what the template writes there. -/
theorem slice_nameToArg1 :
    slice s.region (s.nameAt + NAME.length) s.arg1At = some s.nameToArg1 :=
  slice_after s.callOpen NAME s.nameToArg1 _ rfl rfl

/-- So it does between that key and its value. -/
theorem slice_arg1ToVal1 :
    slice s.region (s.arg1At + ARG1.length) s.val1At = some s.arg1ToVal1 := by
  have h := slice_after (s.callOpen ++ NAME ++ s.nameToArg1) ARG1 s.arg1ToVal1
    (VAL1 ++ (s.val1ToArg2 ++ (ARG2 ++ (s.arg2ToVal2 ++ (VAL2 ++ s.afterVal2)))))
    (i := s.arg1At) (j := s.val1At) (by simp only [arg1At, nameAt, List.length_append]) rfl
  simpa only [region, List.append_assoc] using h

/-- Between the value and the second key. -/
theorem slice_val1ToArg2 :
    slice s.region (s.val1At + VAL1.length) s.arg2At = some s.val1ToArg2 := by
  have h := slice_after (s.callOpen ++ NAME ++ s.nameToArg1 ++ ARG1 ++ s.arg1ToVal1) VAL1
    s.val1ToArg2 (ARG2 ++ (s.arg2ToVal2 ++ (VAL2 ++ s.afterVal2)))
    (i := s.val1At) (j := s.arg2At) (by simp only [val1At, arg1At, nameAt, List.length_append]) rfl
  simpa only [region, List.append_assoc] using h

/-- And between that key and its value. -/
theorem slice_arg2ToVal2 :
    slice s.region (s.arg2At + ARG2.length) s.val2At = some s.arg2ToVal2 := by
  have h := slice_after (s.callOpen ++ NAME ++ s.nameToArg1 ++ ARG1 ++ s.arg1ToVal1 ++ VAL1 ++
    s.val1ToArg2) ARG2 s.arg2ToVal2 (VAL2 ++ s.afterVal2)
    (i := s.arg2At) (j := s.val2At) (by simp only [arg2At, val1At, arg1At, nameAt, List.length_append]) rfl
  simpa only [region, List.append_assoc] using h

/-- Behind the second value stands the rest of the call. -/
theorem slice_afterVal2 :
    slice s.region (s.val2At + VAL2.length) s.region.length = some s.afterVal2 := by
  have h := slice_after (s.callOpen ++ NAME ++ s.nameToArg1 ++ ARG1 ++ s.arg1ToVal1 ++ VAL1 ++
    s.val1ToArg2 ++ ARG2 ++ s.arg2ToVal2) VAL2 s.afterVal2 []
    (i := s.val2At) (j := s.region.length)
    (by simp only [val2At, arg2At, val1At, arg1At, nameAt, List.length_append])
    (by simp only [region, val2At, arg2At, val1At, arg1At, nameAt, List.length_append]; omega)
  simpa only [region, List.append_assoc, List.append_nil] using h

/-- Without arguments the rest of the call stands behind the name. -/
theorem slice_afterName :
    slice s.noArgsRegion (s.nameAt + NAME.length) s.noArgsRegion.length = some s.afterName := by
  have h := slice_after s.callOpen NAME s.afterName [] (i := s.nameAt) (j := s.noArgsRegion.length)
    rfl (by simp only [noArgsRegion, nameAt, List.length_append]; omega)
  simpa only [noArgsRegion, List.append_nil] using h

end Slicing

/-! ## The derivation as a function of the spans -/

variable {s : ProbeSpans}

/-- The four equations have a solution with every span of it non-empty. -/
theorem deriveDelimitedFormat_eq_some (h : s.MarkFree) {nameClose argOpen argClose callClose : Text}
    (hName : sharedPrefix s.nameToArg1 s.afterName = nameClose)
    (hArg : sharedPrefix s.val1ToArg2 s.afterVal2 = argClose)
    (h1 : s.nameToArg1 = nameClose ++ argOpen) (h2 : s.val1ToArg2 = argClose ++ argOpen)
    (h3 : s.afterVal2 = argClose ++ callClose) (h4 : s.afterName = nameClose ++ callClose)
    (hSame : s.arg2ToVal2 = s.arg1ToVal1) (hNameClose : nameClose ≠ []) (hArgOpen : argOpen ≠ [])
    (hArgClose : argClose ≠ []) (hArgNameClose : s.arg1ToVal1 ≠ []) :
    deriveDelimitedFormat s.region s.noArgsRegion s.nameAt s.arg1At s.val1At s.arg2At s.val2At =
      some (.delimited s.callOpen nameClose argOpen s.arg1ToVal1 argClose callClose) := by
  -- each opener is what is left of a span behind its closer
  have hStrip1 : stripPrefix nameClose s.nameToArg1 = some argOpen := by
    rw [h1]
    exact stripPrefix_append nameClose argOpen
  have hStrip2 : stripPrefix argClose s.afterVal2 = some callClose := by
    rw [h3]
    exact stripPrefix_append argClose callClose
  rw [deriveDelimitedFormat, slice_nameToArg1, slice_val1ToArg2, slice_afterVal2,
    find_noArgs_name h]
  simp only [Option.bind_eq_bind, Option.bind_some, slice_afterName, slice_arg1ToVal1,
    slice_arg2ToVal2, region_take, hName, hArg, hStrip1, hStrip2]
  -- no span is empty, and both cross-checks hold
  rw [if_neg (by simp [hNameClose, hArgOpen, hArgClose]), if_neg (not_not.mpr h2),
    if_neg (not_not.mpr h4), if_neg (by simp [hArgNameClose]), if_neg (not_not.mpr hSame)]

/-- No argument opener is left over: the shape has none. -/
theorem deriveDelimitedFormat_eq_none (h : s.MarkFree)
    (hName : sharedPrefix s.nameToArg1 s.afterName = s.nameToArg1) :
    deriveDelimitedFormat s.region s.noArgsRegion s.nameAt s.arg1At s.val1At s.arg2At s.val2At =
      none := by
  -- all of the span closes the name, so nothing is left to open an argument
  have hStrip : stripPrefix s.nameToArg1 s.nameToArg1 = some [] := by
    have hApp := stripPrefix_append s.nameToArg1 []
    rwa [List.append_nil] at hApp
  rw [deriveDelimitedFormat, slice_nameToArg1, slice_val1ToArg2, slice_afterVal2,
    find_noArgs_name h]
  simp only [Option.bind_eq_bind, Option.bind_some, slice_afterName, hName, hStrip,
    List.isEmpty_nil, Bool.or_true, Bool.true_or, if_true, Option.bind_none]
  cases stripPrefix (sharedPrefix s.val1ToArg2 s.afterVal2) s.afterVal2 <;> rfl

/-- A separator stands between arguments, and nothing before the first one. -/
theorem deriveSeparatedFormat_eq_some (h : s.MarkFree) {argNameClose wrapper argSep callClose : Text}
    (h1 : s.val1ToArg2 = wrapper ++ argSep) (h2 : s.afterVal2 = wrapper ++ callClose)
    (h3 : s.afterName = s.nameToArg1 ++ callClose) (h4 : s.arg1ToVal1 = argNameClose ++ wrapper)
    (hSame : s.arg2ToVal2 = s.arg1ToVal1) (hNameClose : s.nameToArg1 ≠ [])
    (hArgNameClose : argNameClose ≠ []) (hWrapper : wrapper ≠ []) (hArgSep : argSep ≠ [])
    (hCallClose : callClose ≠ []) (hSep : ¬ argNameClose <:+: argSep)
    (hStart : ¬ argSep <+: callClose) (hFirst : EndsFirst callClose wrapper) :
    deriveSeparatedFormat s.region s.noArgsRegion s.nameAt s.arg1At s.val1At s.arg2At s.val2At =
      some (.separated s.callOpen s.nameToArg1 argNameClose wrapper wrapper argSep callClose) := by
  -- the closer of the call is what the argument-free probe has behind the name
  have hStrip1 : stripPrefix s.nameToArg1 s.afterName = some callClose := by
    rw [h3]
    exact stripPrefix_append s.nameToArg1 callClose
  have hFind : find callClose s.afterVal2 = some wrapper.length := by
    rw [h2]
    exact hFirst
  have hTake : s.afterVal2.take wrapper.length = wrapper := by
    rw [h2]
    exact List.take_left
  have hStrip2 : stripPrefix wrapper s.val1ToArg2 = some argSep := by
    rw [h1]
    exact stripPrefix_append wrapper argSep
  -- the wrapper is split back out of the span before a value
  have hSplit : splitWrapper s.arg1ToVal1 wrapper = (argNameClose, wrapper) := by
    rw [splitWrapper, h4, stripSuffix_append]
    simp [hWrapper, hArgNameClose]
  -- and neither guard on the separator fires
  have hContains : contains argSep argNameClose = false := by
    rw [Bool.eq_false_iff, ne_eq, contains_iff]
    exact hSep
  have hPrefix : argSep.isPrefixOf callClose = false := by
    rw [Bool.eq_false_iff, ne_eq, List.isPrefixOf_iff_prefix]
    exact hStart
  rw [deriveSeparatedFormat, slice_nameToArg1, slice_arg1ToVal1, slice_val1ToArg2,
    slice_afterVal2, find_noArgs_name h]
  simp only [Option.bind_eq_bind, Option.bind_some, slice_afterName, hStrip1, hFind, hTake,
    hStrip2, slice_arg2ToVal2, hSplit, hContains, hPrefix, region_take]
  rw [if_neg (not_not.mpr hSame),
    if_neg (by simp [hNameClose, hArgNameClose, hArgSep, hCallClose]), if_neg (by simp)]

end ProbeSpans

/-! ## Framing -/

/-- A template that puts the same text around an assistant's plain content and
around the call it renders in its place. -/
structure Framing (render : RenderFn) (templateText : Text) where
  before : Text
  after : Text
  rendersPlain : ∀ content, render templateText (answeredBy (message "assistant" content)) none =
    some (before ++ (content ++ after))

namespace Framing

variable {render : RenderFn} {templateText : Text} (frame : Framing render templateText)

/-- The reply is rendered as `text`, inside the framing. -/
def Renders (reply : Json) (text : Text) : Prop :=
  render templateText (answeredBy reply) none = some (frame.before ++ (text ++ frame.after))

/-- The probe's plain content and a call with ASCII edges share neither their
first nor their last byte. -/
theorem divergingRegion_call {call front back : Text} (hFront : front <+: call)
    (hBack : back <:+ call) (hAsciiFront : IsAscii front) (hAsciiBack : IsAscii back)
    (hFront0 : front ≠ []) (hBack0 : back ≠ []) :
    divergingRegion (frame.before ++ (PLAIN ++ frame.after))
      (frame.before ++ (call ++ frame.after)) = some call := by
  obtain ⟨d, front', rfl⟩ := List.exists_cons_of_ne_nil hFront0
  obtain ⟨back', f, rfl⟩ : ∃ back' f, back = back' ++ [f] :=
    ⟨_, _, (List.dropLast_append_getLast hBack0).symm⟩
  obtain ⟨x, hx⟩ := hFront
  obtain ⟨y, hy⟩ := hBack
  have hd : d.utf8Size = 1 := hAsciiFront.utf8Size (by simp)
  have hf : f.utf8Size = 1 := hAsciiBack.utf8Size (by simp)
  -- the plain probe starts and ends in a three-byte sentinel, the call in ASCII
  have hMark : mark.utf8Size = 3 := by decide
  have hEnd : endMark.utf8Size = 3 := by decide
  refine divergingRegion_of_ascii frame.before frame.after PLAIN_eq_cons (d := d) hx.symm ?_
    PLAIN_eq_concat (f := f) (by rw [← hy, List.append_assoc]) ?_ hd hf
  · rintro rfl
    omega
  · rintro rfl
    omega

/-- The derivation, as a function of the spans a template writes. -/
theorem deriveToolCallFormat_probed {s : ProbeSpans} (fromStr : Text → Option Json)
    (hAscii : ∀ span ∈ s.all, IsAscii span) (hOpen : s.callOpen ≠ []) (hLast : s.afterVal2 ≠ [])
    (hNone : s.afterName ≠ [])
    (hCall : frame.Renders (callMessage NAME (.obj [(ARG1, .string VAL1), (ARG2, .string VAL2)]))
      s.region)
    (hNoArgs : frame.Renders (callMessage NAME (.obj [])) s.noArgsRegion) :
    deriveToolCallFormat fromStr templateText render =
      (deriveJsonFormat fromStr s.region).or
        ((deriveDelimitedFormat s.region s.noArgsRegion s.nameAt s.arg1At s.val1At s.arg2At
          s.val2At).or
        (deriveSeparatedFormat s.region s.noArgsRegion s.nameAt s.arg1At s.val1At s.arg2At
          s.val2At)) := by
  have hMark : s.MarkFree := fun span hSpan => mark_not_mem_of_isAscii (hAscii span hSpan)
  have hAsciiOpen : IsAscii s.callOpen := hAscii _ (by simp [ProbeSpans.all])
  -- the region of each probe is the call it renders
  have hRegion : divergingRegion (frame.before ++ (PLAIN ++ frame.after))
      (frame.before ++ (s.region ++ frame.after)) = some s.region := by
    refine frame.divergingRegion_call (List.prefix_append _ _) s.afterVal2_suffix hAsciiOpen
      (hAscii _ (by simp [ProbeSpans.all])) hOpen hLast
  have hNoArgsRegion : divergingRegion (frame.before ++ (PLAIN ++ frame.after))
      (frame.before ++ (s.noArgsRegion ++ frame.after)) = some s.noArgsRegion := by
    refine frame.divergingRegion_call (List.prefix_append _ _) s.afterName_suffix hAsciiOpen
      (hAscii _ (by simp [ProbeSpans.all])) hOpen hNone
  have hPlain : render templateText plainProbe none = _ := frame.rendersPlain PLAIN
  have hCall : render templateText callProbe none = _ := hCall
  have hNoArgs : render templateText noArgsProbe none = _ := hNoArgs
  rw [deriveToolCallFormat, hPlain, hCall, hNoArgs]
  simp only [Option.bind_eq_bind, Option.bind_some, hRegion, hNoArgsRegion,
    ProbeSpans.find_name hMark, ProbeSpans.find_arg1 hMark, ProbeSpans.find_val1 hMark,
    ProbeSpans.find_arg2 hMark, ProbeSpans.find_val2 hMark]
  rw [if_neg (not_not.mpr s.emission_order)]
  -- JSON is tried first, and whatever it finds stands
  cases deriveJsonFormat fromStr s.region <;> rfl

/-- When the call itself reads as JSON, nothing but that format is derived. -/
theorem eq_of_deriveJsonFormat {fromStr : Text → Option Json} {call : Text}
    {format derived : ToolFormat}
    (hCall : frame.Renders (callMessage NAME (.obj [(ARG1, .string VAL1), (ARG2, .string VAL2)]))
      call)
    (hFirst : ∃ d ds, call = d :: ds ∧ d ≠ mark)
    (hLast : ∃ fs f, call = fs ++ [f] ∧ f ≠ endMark)
    (hJson : deriveJsonFormat fromStr call = some format)
    (h : deriveToolCallFormat fromStr templateText render = some derived) : derived = format := by
  obtain ⟨d, ds, hd, hMark⟩ := hFirst
  obtain ⟨fs, f, hf, hEnd⟩ := hLast
  have hPlain : render templateText plainProbe none = _ := frame.rendersPlain PLAIN
  have hCall : render templateText callProbe none = _ := hCall
  rw [deriveToolCallFormat, hPlain, hCall] at h
  simp only [Option.bind_eq_bind, Option.bind_some, Option.bind_eq_some_iff] at h
  -- whatever region was found, it is the call
  obtain ⟨_, -, region, hRegion, _, -, _, -, _, -, _, -, _, -, _, -, hFound⟩ := h
  have hRegion : region = call :=
    eq_of_divergingRegion frame.before frame.after PLAIN_eq_cons hd hMark.symm PLAIN_eq_concat hf
      hEnd.symm hRegion
  rw [hRegion, hJson] at hFound
  exact (Option.some.inj hFound).symm

end Framing

end Rampipe.ToolFormat
