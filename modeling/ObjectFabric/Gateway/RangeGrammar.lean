import ObjectFabric.Gateway.RangeHeader

/-!
# RangeGrammar — which `Range` headers are accepted

`parseObjectRanges` of `api/s3compat/range_multipart.go` against the byte ranges of RFC 7233.  The
code reads numbers with `strconv.ParseInt`, which takes a sign and refuses what does not fit into 64
bits, and it does not trim the text of a header without a comma.
-/

namespace ObjectFabric

/-! ## 1. The ranges of RFC 7233 -/

def digits (s : List Char) : Option Int :=
  if s ≠ [] ∧ s.all Char.isDigit then
    some (s.foldl (fun n c => 10 * n + (c.toNat - '0'.toNat : Nat)) 0)
  else
    none

/-- The range of one element, when it is well formed and can be satisfied.  Digits alone are never
negative; a negative last position, which only another reading of numbers gives, leaves the end
open. -/
def elementRange (number : List Char → Option Int) (size : Int) (e : List Char) :
    Option ByteRange :=
  if '-' ∉ e then none
  else
    match Streams.cut '-' e with
    | ([], suffix) =>
      (number suffix).bind fun n =>
        if 0 < n ∧ 0 < size then some ⟨size - min n size, size - 1⟩ else none
    | (first, []) =>
      (number first).bind fun a => if 0 ≤ a ∧ a < size then some ⟨a, size - 1⟩ else none
    | (first, last) =>
      (number first).bind fun a => (number last).bind fun b =>
        if 0 ≤ a ∧ a < size ∧ (a ≤ b ∨ b < 0) then
          some ⟨a, if b < 0 then size - 1 else min b (size - 1)⟩
        else none

def rangeText (header : String) : List Char := header.toList.drop 6

/-- The elements of the list, without the empty ones and without the blanks around them. -/
def rangeElements (header : String) : List (List Char) :=
  (((rangeText header).splitOn ',').map trimUnicodeSpace).filter (· ≠ [])

def readRanges (number : List Char → Option Int) (size : Int) (header : String)
    (elements : List (List Char)) : Option (List ByteRange) :=
  if beginsWith header "bytes=" ∧ elements ≠ [] ∧
      ∀ e ∈ elements, (elementRange number size e).isSome then
    some (elements.filterMap (elementRange number size))
  else
    none

def rfcRanges (size : Int) (header : String) : Option (List ByteRange) :=
  readRanges digits size header (rangeElements header)

/-- Refused exactly where the specification has no ranges; otherwise the ranges of the
specification, or the whole object in place of too many of them. -/
def Answers (size : Int) (ranges : Option (List ByteRange)) : Except String Ranges → Prop
  | .error _ => ranges = none
  | .ok .whole =>
    ∃ rs, ranges = some rs ∧ (maxObjectRanges < rs.length ∨ size ≤ sumRangeSizes rs)
  | .ok (.single r) => ranges = some [resolveRangeEnd r size]
  | .ok (.multi r rs) => ranges = some (r :: rs)

/-! ## 2. The reading of the code -/

section

variable (lib : HeaderLibrary) (size : Nat) (header : String)

def integer (s : List Char) : Option Int := (parseInt lib s).toOption

/-- What lies between the commas; without a comma the whole text, blanks included. -/
def rangeTexts : List (List Char) :=
  if ',' ∈ header.toList then rangeElements header else [rangeText header]

def signedRanges : Option (List ByteRange) :=
  readRanges (integer lib) size header (rangeTexts header)

def numberTexts (e : List Char) : List (List Char) :=
  [(Streams.cut '-' e).1, (Streams.cut '-' e).2]

def hasSign (s : List Char) : Bool := s.head? = some '+' || s.head? = some '-'

def isWide (s : List Char) : Bool := (digits s).any (2 ^ 63 ≤ ·)

/-- A header that only its signs make acceptable, one with a number of more than 63 bits and a lone
element with blanks around it are the ones that are misread. -/
structure PlainHeader : Prop where
  unsigned : (signedRanges lib size header).isSome →
    ∀ e ∈ rangeElements header, ∀ s ∈ numberTexts e, hasSign s = false
  narrow : (rfcRanges size header).isSome →
    ∀ e ∈ rangeElements header, ∀ s ∈ numberTexts e, isWide s = false
  unpadded : (rfcRanges size header).isSome →
    ',' ∈ header.toList ∨ trimUnicodeSpace (rangeText header) = rangeText header

end

/-! ## 3. Numbers -/

section

variable {lib : HeaderLibrary} {s : List Char} {v : Int}

theorem digits_eq_some (h : digits s = some v) : s ≠ [] ∧ s.all Char.isDigit = true := by
  unfold digits at h
  by_cases hs : s ≠ [] ∧ s.all Char.isDigit = true
  · exact hs
  · rw [if_neg hs] at h
    cases h

theorem hasSign_of_digits (h : digits s = some v) : hasSign s = false := by
  have hall := (digits_eq_some h).2
  cases s with
  | nil => rfl
  | cons c s => ?_
  rw [List.all_cons, Bool.and_eq_true] at hall
  have hplus : c ≠ '+' := fun hc => absurd (hc ▸ hall.1) (by decide)
  have hminus : c ≠ '-' := fun hc => absurd (hc ▸ hall.1) (by decide)
  simp [hasSign, hplus, hminus]

theorem integer_of_hasSign (h : hasSign s = false) :
    integer lib s = if isWide s then none else digits s := by
  unfold integer parseInt isWide digits
  split
  · exact absurd h (by simp [hasSign])
  · exact absurd h (by simp [hasSign])
  · by_cases hs : s ≠ [] ∧ s.all Char.isDigit = true
    · rw [if_neg (by simpa using hs), if_pos hs]
      simp only [Bool.false_eq_true, if_false, Option.any_some, decide_eq_true_eq]
      split <;> rfl
    · rw [if_pos (by simpa [or_iff_not_imp_left] using hs), if_neg hs]
      rfl

theorem not_isSpace_of_isDigit {c : Char} (h : c.isDigit = true) : unicodeIsSpace c = false := by
  rw [Bool.eq_false_iff]
  intro hspace
  simp only [unicodeIsSpace, List.contains_cons, List.contains_nil, Bool.or_eq_true, beq_iff_eq,
    Bool.and_eq_true, decide_eq_true_eq, Bool.or_false] at hspace
  have hbound : '9' < ' ' := by decide
  have hle : c ≤ '9' := by
    simp only [Char.isDigit, Bool.and_eq_true, decide_eq_true_eq] at h
    exact h.2
  rcases hspace with hlisted | hrange
  · rcases hlisted with h' | h' | h' | h' | h' | h' | h' | h' | h' | h' | h' | h' | h' | h' <;>
      exact absurd (h' ▸ h) (by decide)
  · exact absurd (Char.le_trans hrange.1 hle) (Char.not_le.mpr hbound)

theorem not_isSpace_of_integer (h : integer lib s = some v) : ∀ c ∈ s, unicodeIsSpace c = false := by
  have hdigits : ∀ (t : List Char) (x : Except String Int) (message : String),
      (if t = [] ∨ (!t.all Char.isDigit) = true then .error message else x).toOption = some v →
        ∀ c ∈ t, unicodeIsSpace c = false := by
    intro t x message ht c hc
    split at ht
    · cases ht
    · rename_i hsyntax
      simp only [not_or, Bool.not_eq_true', Bool.not_eq_false] at hsyntax
      exact not_isSpace_of_isDigit (List.all_eq_true.mp hsyntax.2 c hc)
  unfold integer parseInt at h
  split at h
  · exact List.forall_mem_cons.mpr ⟨by decide, hdigits _ _ _ h⟩
  · exact List.forall_mem_cons.mpr ⟨by decide, hdigits _ _ _ h⟩
  · exact hdigits _ _ _ h

end

variable {number : List Char → Option Int} {r : ByteRange}

/-! ## 4. Elements -/

section

variable {lib : HeaderLibrary} {size : Nat} {e : List Char}

theorem elementRange_inside
    (h : elementRange number size e = some r) :
    0 ≤ r.first ∧ r.first ≤ r.last ∧ r.last < size := by
  unfold elementRange at h
  split at h
  · cases h
  split at h
  all_goals
    simp only [Option.bind_eq_some_iff, Option.ite_none_right_eq_some, Option.some.injEq] at h
  · rcases h with ⟨n, -, hok, rfl⟩
    simp only
    omega
  · rcases h with ⟨n, -, hok, rfl⟩
    simp only
    omega
  · rcases h with ⟨n, -, m, -, hok, rfl⟩
    simp only
    split <;> omega

/-- Every number of an element that is accepted has been read, and the range is what they are read
as. -/
theorem number_of_elementRange {f : List Char → Option Int}
    (h : elementRange f size e = some r) :
    '-' ∈ e ∧ (∀ s ∈ numberTexts e, s = [] ∨ ∃ v, f s = some v) ∧
      ∀ g : List Char → Option Int, (∀ s ∈ numberTexts e, ∀ v, f s = some v → g s = some v) →
        elementRange g size e = some r := by
  unfold elementRange at h ⊢
  by_cases hdash : '-' ∉ e
  · rw [if_pos hdash] at h
    cases h
  rw [if_neg hdash] at h
  simp only [if_neg hdash]
  refine ⟨not_not.mp hdash, ?_⟩
  unfold numberTexts
  revert h
  rcases Streams.cut '-' e with ⟨a, b⟩
  intro h
  simp only [List.forall_mem_cons, List.not_mem_nil, false_implies, implies_true, and_true]
  match a, b with
  | [], b =>
    rcases Option.bind_eq_some_iff.mp h with ⟨n, hn, hr⟩
    exact ⟨⟨Or.inl rfl, Or.inr ⟨n, hn⟩⟩,
      fun g hg => Option.bind_eq_some_iff.mpr ⟨n, hg.2 n hn, hr⟩⟩
  | c :: a, [] =>
    rcases Option.bind_eq_some_iff.mp h with ⟨n, hn, hr⟩
    exact ⟨⟨Or.inr ⟨n, hn⟩, Or.inl rfl⟩,
      fun g hg => Option.bind_eq_some_iff.mpr ⟨n, hg.1 n hn, hr⟩⟩
  | c :: a, d :: b =>
    rcases Option.bind_eq_some_iff.mp h with ⟨n, hn, h⟩
    rcases Option.bind_eq_some_iff.mp h with ⟨m, hm, hr⟩
    exact ⟨⟨Or.inr ⟨n, hn⟩, Or.inr ⟨m, hm⟩⟩, fun g hg => Option.bind_eq_some_iff.mpr
      ⟨n, hg.1 n hn, Option.bind_eq_some_iff.mpr ⟨m, hg.2 m hm, hr⟩⟩⟩

theorem trimUnicodeSpace_of_elementRange
    (h : elementRange (integer lib) size e = some r) : trimUnicodeSpace e = e ∧ e ≠ [] := by
  rcases number_of_elementRange h with ⟨hdash, hnumbers, -⟩
  have hpart : ∀ s ∈ numberTexts e, ∀ c ∈ s, unicodeIsSpace c = false := by
    intro s hs c hc
    rcases hnumbers s hs with rfl | ⟨v, hv⟩
    · exact absurd hc List.not_mem_nil
    · exact not_isSpace_of_integer hv c hc
  have hall : ∀ c ∈ e, unicodeIsSpace c = false := by
    intro c hc
    rcases Streams.cut_cases '-' e with ⟨hno, -⟩ | ⟨-, heq⟩
    · exact absurd hdash hno
    rw [heq, List.mem_append, List.mem_cons] at hc
    rcases hc with hc | rfl | hc
    · exact hpart _ List.mem_cons_self c hc
    · decide
    · exact hpart _ (List.mem_cons_of_mem _ List.mem_cons_self) c hc
  have hne : e ≠ [] := List.ne_nil_of_mem hdash
  refine ⟨?_, hne⟩
  unfold trimUnicodeSpace
  rw [List.dropWhile_eq_self_iff.mpr fun hlen => by simp [hall _ (List.getElem_mem hlen)],
    List.rdropWhile_eq_self_iff.mpr fun hne => by simp [hall _ (List.getLast_mem hne)]]

theorem parseRangeSpec_toOption (hcomma : ',' ∉ e) :
    ((parseRangeSpec lib e size).map (resolveRangeEnd · size)).toOption =
      elementRange (integer lib) size e := by
  unfold parseRangeSpec elementRange integer
  simp only [if_neg hcomma]
  by_cases hdash : '-' ∉ e
  · rw [if_pos hdash, if_pos hdash]
    rfl
  rw [if_neg hdash, if_neg hdash]
  rcases Streams.cut '-' e with ⟨a, b⟩
  match a, b with
  | [], [] => rfl
  | [], c :: b =>
    simp only
    cases parseInt lib (c :: b) with
    | error message => rfl
    | ok n => ?_
    simp only [Except.toOption, Option.bind_some]
    by_cases hok : 0 < n ∧ (0 : Int) < size
    · rw [if_pos hok, if_neg (by omega), if_neg (by omega)]
      show some (resolveRangeEnd _ _) = _
      unfold resolveRangeEnd
      rw [if_neg (by simp only; omega)]
    · rw [if_neg hok]
      by_cases hneg : n < 0
      · rw [if_pos hneg]
        rfl
      · rw [if_neg hneg, if_pos (by omega)]
        rfl
  | c :: a, [] =>
    simp only
    cases parseInt lib (c :: a) with
    | error message => rfl
    | ok n => ?_
    simp only [Except.toOption, Option.bind_some, if_true]
    by_cases hok : 0 ≤ n ∧ n < (size : Int)
    · rw [if_pos hok, if_neg (by omega)]
      rfl
    · rw [if_neg hok, if_pos (by omega)]
      rfl
  | c :: a, d :: b =>
    simp only
    cases parseInt lib (c :: a) with
    | error message => rfl
    | ok n => ?_
    cases parseInt lib (d :: b) with
    | error message => rfl
    | ok m => ?_
    simp only [Except.toOption, Option.bind_some, reduceCtorEq, if_false]
    by_cases hok : 0 ≤ n ∧ n < (size : Int) ∧ (n ≤ m ∨ m < 0)
    · rw [if_pos hok, if_neg (by split <;> omega)]
      show some (resolveRangeEnd _ _) = _
      unfold resolveRangeEnd
      simp only
      split <;> split <;> split <;> first | rfl | (congr 2; omega)
    · rw [if_neg hok, if_pos (by split <;> omega)]
      rfl

end

variable {elements : List (List Char)} {e : List Char}

/-! ## 5. Headers -/

section

variable {lib : HeaderLibrary} {size : Nat} {header : String}

theorem readRanges_isSome_iff :
    (readRanges number size header elements).isSome = true ↔
      beginsWith header "bytes=" = true ∧ elements ≠ [] ∧
        ∀ e ∈ elements, ∃ r, elementRange number size e = some r := by
  simp only [readRanges, ← Option.isSome_iff_exists]
  split
  · rename_i h
    exact ⟨fun _ => h, fun _ => rfl⟩
  · rename_i h
    exact ⟨(by cases ·), (absurd · h)⟩

theorem readRanges_inside
    {rs : List ByteRange} (h : readRanges number size header elements = some rs) :
    rs ≠ [] ∧ ∀ r ∈ rs, 0 ≤ r.first ∧ r.first ≤ r.last ∧ r.last < size := by
  unfold readRanges at h
  split at h
  · rename_i hok
    obtain rfl := Option.some.inj h
    constructor
    · rcases List.exists_mem_of_ne_nil _ hok.2.1 with ⟨e, he⟩
      intro hnil
      have hsome := hok.2.2 e he
      rw [List.filterMap_eq_nil_iff.mp hnil e he] at hsome
      cases hsome
    · intro r hr
      rcases List.mem_filterMap.mp hr with ⟨e, -, he⟩
      exact elementRange_inside he
  · cases h

theorem readRanges_congr {f g : List Char → Option Int}
    (h : ∀ e ∈ elements, elementRange f size e = elementRange g size e) :
    readRanges f size header elements = readRanges g size header elements := by
  unfold readRanges
  rw [List.filterMap_congr h]
  simp +contextual only [h]

theorem comma_not_mem_of_rangeElements (h : e ∈ rangeElements header) :
    ',' ∉ e := by
  rw [rangeElements, List.mem_filter, List.mem_map] at h
  rcases h with ⟨⟨s, hs, rfl⟩, -⟩
  exact fun hc => Streams.not_mem_of_mem_splitOn hs
    ((List.dropWhile_sublist _).subset ((List.rdropWhile_prefix _ _).subset hc))

theorem parseHTTPRangeList_toOption :
    (parseHTTPRangeList lib header size).toOption =
      readRanges (integer lib) size header (rangeElements header) := by
  have hread : ∀ e ∈ rangeElements header,
      ((parseRangeSpec lib e size).map (resolveRangeEnd · size)).toOption =
        elementRange (integer lib) size e :=
    fun e he => parseRangeSpec_toOption (comma_not_mem_of_rangeElements he)
  unfold parseHTTPRangeList readRanges
  by_cases hbytes : beginsWith header "bytes=" = true
  · rw [if_pos hbytes]
    unfold rangeElements rangeText at hread ⊢
    simp only
    generalize (((header.toList.drop 6).splitOn ',').map trimUnicodeSpace).filter (· ≠ []) = segments
      at hread ⊢
    have : Nonempty ByteRange := ⟨⟨0, 0⟩⟩
    rcases Streams.mapM_cases
      (fun seg => (parseRangeSpec lib seg size).map (resolveRangeEnd · size)) segments
      with ⟨g, hg, hmapM⟩ | ⟨e, he, message, hbad, hmapM⟩
    · have hsome : ∀ e ∈ segments, elementRange (integer lib) size e = some (g e) := by
        intro e he
        rw [← hread e he, hg e he]
        rfl
      rw [hmapM, List.filterMap_congr hsome]
      cases segments with
      | nil =>
        rw [if_neg fun h => h.2.1 rfl]
        rfl
      | cons e l =>
        rw [if_pos ⟨hbytes, List.cons_ne_nil _ _, fun e he => by rw [hsome e he]; rfl⟩,
          List.filterMap_eq_map']
        rfl
    · rw [hmapM, if_neg]
      · rfl
      · intro h
        have hnone := h.2.2 e he
        rw [← hread e he, hbad] at hnone
        cases hnone
  · rw [if_neg hbytes, if_neg fun h => hbytes h.1]
    rfl

theorem rangeElements_of_trimmed (hcomma : ',' ∉ rangeText header)
    (htrim : trimUnicodeSpace (rangeText header) = rangeText header) (hne : rangeText header ≠ []) :
    rangeElements header = [rangeText header] := by
  unfold rangeElements
  rw [List.splitOn_eq_singleton hcomma, List.map_singleton, htrim]
  simp [hne]

/-- The code answers with what it reads, and only with that. -/
theorem parseObjectRanges_answers (hne : header ≠ "") :
    Answers size (signedRanges lib size header) (parseObjectRanges lib header size) := by
  unfold parseObjectRanges signedRanges rangeTexts
  rw [if_neg hne]
  by_cases hcomma : ',' ∈ header.toList
  · rw [if_neg (not_not.mpr hcomma), if_pos hcomma]
    have hread := @parseHTTPRangeList_toOption lib size header
    cases hlist : parseHTTPRangeList lib header size with
    | error message =>
      rw [← hread, hlist]
      rfl
    | ok rs => ?_
    rw [hlist] at hread
    rw [← hread]
    have hinside := readRanges_inside hread.symm
    match rs with
    | [] => exact absurd rfl hinside.1
    | [r] =>
      have hr := hinside.2 r List.mem_cons_self
      show some [r] = some [resolveRangeEnd r size]
      rw [resolveRangeEnd, if_neg (by omega)]
    | r :: r' :: rs =>
      simp only
      split
      · rename_i hmany
        exact ⟨_, rfl, hmany⟩
      · rfl
  · rw [if_pos hcomma, if_neg hcomma]
    have hlone : ',' ∉ rangeText header := fun hc => hcomma (List.mem_of_mem_drop hc)
    have hread := @parseRangeSpec_toOption lib size _ hlone
    unfold parseHTTPRange readRanges
    simp only [List.forall_mem_singleton, List.filterMap_cons, ← hread, List.filterMap_nil]
    by_cases hbytes : beginsWith header "bytes=" = true
    · rw [if_pos hbytes]
      show Answers _ _ (Except.map _ (parseRangeSpec lib (rangeText header) size))
      cases parseRangeSpec lib (rangeText header) size with
      | error message => exact if_neg fun h => by cases h.2.2
      | ok r => exact if_pos ⟨hbytes, List.cons_ne_nil _ _, rfl⟩
    · rw [if_neg hbytes, if_neg fun h => hbytes h.1]
      rfl

/-- Both readings accept an element without signs and wide numbers alike. -/
theorem rfc_of_signed
    (hsign : ∀ s ∈ numberTexts e, hasSign s = false)
    (h : elementRange (integer lib) size e = some r) : elementRange digits size e = some r := by
  refine (number_of_elementRange h).2.2 _ fun s hs v hv => ?_
  rw [integer_of_hasSign (hsign s hs)] at hv
  split at hv
  · cases hv
  · exact hv

theorem signed_of_rfc
    (hwide : ∀ s ∈ numberTexts e, isWide s = false)
    (h : elementRange digits size e = some r) : elementRange (integer lib) size e = some r := by
  refine (number_of_elementRange h).2.2 _ fun s hs v hv => ?_
  rw [integer_of_hasSign (hasSign_of_digits hv), hwide s hs]
  exact hv

theorem rangeTexts_of_signed (h : (signedRanges lib size header).isSome = true) :
    rangeTexts header = rangeElements header := by
  rcases readRanges_isSome_iff.mp h with ⟨-, -, hall⟩
  unfold rangeTexts at hall ⊢
  by_cases hcomma : ',' ∈ header.toList
  · rw [if_pos hcomma]
  rw [if_neg hcomma] at hall ⊢
  rcases hall _ List.mem_cons_self with ⟨r, hr⟩
  have htrim := trimUnicodeSpace_of_elementRange hr
  exact (rangeElements_of_trimmed (fun hc => hcomma (List.mem_of_mem_drop hc)) htrim.1 htrim.2).symm

theorem Answers.isSome_iff {size : Int} {ranges : Option (List ByteRange)}
    {answer : Except String Ranges} (h : Answers size ranges answer) :
    ranges.isSome = true ↔ answer.toBool = true := by
  match answer, h with
  | .error _, h =>
    rw [show ranges = none from h]
    simp [Except.toBool]
  | .ok .whole, ⟨rs, h, _⟩ => simp [h, Except.toBool]
  | .ok (.single r), h => simp [show ranges = _ from h, Except.toBool]
  | .ok (.multi r rs), h => simp [show ranges = _ from h, Except.toBool]

theorem plainHeader_of_accepted
    (h : (signedRanges lib size header).isSome = true ↔ (rfcRanges size header).isSome = true) :
    PlainHeader lib size header := by
  have hread : (rfcRanges size header).isSome = true → ∀ e ∈ rangeElements header,
      ∀ s ∈ numberTexts e, hasSign s = false ∧ isWide s = false := by
    intro hrfc e he s hs
    have hsigned := h.mpr hrfc
    rcases (readRanges_isSome_iff.mp hrfc).2.2 e he with ⟨r, hr⟩
    rw [← rangeTexts_of_signed hsigned] at he
    rcases (readRanges_isSome_iff.mp hsigned).2.2 e he with ⟨r', hr'⟩
    rcases (number_of_elementRange hr).2.1 s hs with rfl | ⟨v, hv⟩
    · exact ⟨rfl, rfl⟩
    rcases (number_of_elementRange hr').2.1 s hs with rfl | ⟨v', hv'⟩
    · exact ⟨rfl, rfl⟩
    have hplain := hasSign_of_digits hv
    rw [integer_of_hasSign hplain] at hv'
    refine ⟨hplain, ?_⟩
    cases hwide : isWide s with
    | false => rfl
    | true =>
      rw [hwide] at hv'
      cases hv'
  refine ⟨fun hs e he s hm => (hread (h.mp hs) e he s hm).1,
    fun hr e he s hm => (hread hr e he s hm).2, fun hr => ?_⟩
  by_cases hcomma : ',' ∈ header.toList
  · exact Or.inl hcomma
  have hall := (readRanges_isSome_iff.mp (h.mpr hr)).2.2
  unfold rangeTexts at hall
  rw [if_neg hcomma] at hall
  rcases hall _ List.mem_cons_self with ⟨r, hr⟩
  exact Or.inr (trimUnicodeSpace_of_elementRange hr).1

theorem PlainHeader.accepted (h : PlainHeader lib size header) :
    rfcRanges size header = signedRanges lib size header := by
  unfold rfcRanges signedRanges
  by_cases hsigned : (signedRanges lib size header).isSome = true
  · rw [rangeTexts_of_signed hsigned]
    have hall := (readRanges_isSome_iff.mp hsigned).2.2
    rw [rangeTexts_of_signed hsigned] at hall
    refine readRanges_congr fun e he => ?_
    rcases hall e he with ⟨r, hr⟩
    rw [hr, rfc_of_signed (h.unsigned hsigned e he) hr]
  by_cases hrfc : (rfcRanges size header).isSome = true
  · rcases readRanges_isSome_iff.mp hrfc with ⟨-, hne, hall⟩
    have htexts : rangeTexts header = rangeElements header := by
      unfold rangeTexts
      by_cases hcomma : ',' ∈ header.toList
      · rw [if_pos hcomma]
      rw [if_neg hcomma]
      refine (rangeElements_of_trimmed (fun hc => hcomma (List.mem_of_mem_drop hc))
        ((h.unpadded hrfc).resolve_left hcomma) fun hnil => hne ?_).symm
      unfold rangeElements
      rw [hnil]
      decide
    rw [htexts]
    refine readRanges_congr fun e he => ?_
    rcases hall e he with ⟨r, hr⟩
    rw [hr, signed_of_rfc (h.narrow hrfc e he) hr]
  · exact (Option.not_isSome_iff_eq_none.mp hrfc).trans
      (Option.not_isSome_iff_eq_none.mp hsigned).symm

/-- The headers that are read as RFC 7233 reads them. -/
theorem parseObjectRanges_rfc_iff (lib : HeaderLibrary) (size : Nat) (header : String) :
    (header ≠ "" → Answers size (rfcRanges size header) (parseObjectRanges lib header size) ∧
      ∀ rs, rfcRanges size header = some rs →
        ∀ r ∈ rs, 0 ≤ r.first ∧ r.first ≤ r.last ∧ r.last < size) ↔
    (header ≠ "" → PlainHeader lib size header) := by
  constructor
  · intro h hne
    exact plainHeader_of_accepted
      ((parseObjectRanges_answers hne).isSome_iff.trans (h hne).1.isSome_iff.symm)
  intro h hne
  refine ⟨?_, fun rs hrs => (readRanges_inside hrs).2⟩
  rw [(h hne).accepted]
  exact parseObjectRanges_answers hne

/-- Signed numbers are accepted, in the second header as an open end; a suffix of more than 63 bits is
refused, and so is a lone element after a blank. -/
theorem parseObjectRanges_misread :
    let lib : HeaderLibrary := ⟨id⟩
    parseObjectRanges lib "bytes=+1-2" 5 = .ok (.single ⟨1, 2⟩) ∧
      rfcRanges 5 "bytes=+1-2" = none ∧
      parseObjectRanges lib "bytes=1--3" 5 = .ok (.single ⟨1, -3⟩) ∧
      rfcRanges 5 "bytes=1--3" = none ∧
      (parseObjectRanges lib "bytes=-9223372036854775808" 5).toBool = false ∧
      rfcRanges 5 "bytes=-9223372036854775808" = some [⟨0, 4⟩] ∧
      (parseObjectRanges lib "bytes= 1-2" 5).toBool = false ∧
      rfcRanges 5 "bytes= 1-2" = some [⟨1, 2⟩] := by
  decide +kernel

end

/-! ## 6. The amplification guard -/

section

open ErasureCoding

def rangesTotal (ranges : List ByteRange) : Int := (ranges.map fun r => r.last - r.first + 1).sum

variable (lib : HeaderLibrary) (size : Nat) (header : String)

/-- Several ranges are answered only when they have fewer bytes than the object, and the sum that
decides this is the sum of their lengths. -/
structure GuardSound : Prop where
  bounded : ∀ r rs, parseObjectRanges lib header size = .ok (.multi r rs) →
    rangesTotal (r :: rs) < size ∧ (r :: rs).length ≤ maxObjectRanges
  unwrapped : ∀ rs, parseHTTPRangeList lib header size = .ok rs → rs.length ≤ maxObjectRanges →
    sumRangeSizes rs = rangesTotal rs

/-- The ranges that the header asks for have fewer than `2 ^ 63` bytes, or they are too many to be
added up. -/
def TotalFits : Prop :=
  ∀ rs, readRanges (integer lib) size header (rangeElements header) = some rs →
    rs.length ≤ maxObjectRanges → rangesTotal rs < 2 ^ 63

variable {lib size header}

theorem wrap64_add_wrap64 (n m : Int) : wrap64 (wrap64 n + m) = wrap64 (n + m) := by
  unfold wrap64
  omega

theorem sumRangeSizes_eq (ranges : List ByteRange) :
    sumRangeSizes ranges = wrap64 (rangesTotal ranges) := by
  have hfold : ∀ (ranges : List ByteRange) (n : Int),
      ranges.foldl (fun n r => wrap64 (n + (r.last - r.first + 1))) (wrap64 n) =
        wrap64 (n + rangesTotal ranges) := by
    intro ranges
    induction ranges with
    | nil => simp [rangesTotal]
    | cons r ranges ih => ?_
    intro n
    rw [List.foldl_cons, wrap64_add_wrap64, ih]
    simp only [rangesTotal, List.map_cons, List.sum_cons]
    congr 1
    omega
  have h := hfold ranges 0
  rwa [zero_add] at h

theorem rangesTotal_bounds {rs : List ByteRange}
    (h : ∀ r ∈ rs, 0 ≤ r.first ∧ r.first ≤ r.last ∧ r.last < size) :
    0 ≤ rangesTotal rs ∧ rangesTotal rs ≤ rs.length * size := by
  induction rs with
  | nil => simp [rangesTotal]
  | cons r rs ih => ?_
  have hr := h r List.mem_cons_self
  have hrest := ih fun r hr => h r (List.mem_cons_of_mem _ hr)
  simp only [rangesTotal, List.map_cons, List.sum_cons, List.length_cons, Nat.cast_add,
    Nat.cast_one, add_mul, one_mul] at hrest ⊢
  omega

theorem guardSound_iff : GuardSound lib size header ↔ TotalFits lib size header := by
  have hread := @parseHTTPRangeList_toOption lib size header
  constructor
  · intro h rs hrs hlen
    rw [hrs] at hread
    have hsum := h.unwrapped rs (by cases hp : parseHTTPRangeList lib header size <;>
      simp_all [Except.toOption]) hlen
    rw [sumRangeSizes_eq, wrap64] at hsum
    omega
  intro h
  have hexact : ∀ rs, parseHTTPRangeList lib header size = .ok rs →
      rs.length ≤ maxObjectRanges → sumRangeSizes rs = rangesTotal rs := by
    intro rs hrs hlen
    rw [hrs] at hread
    have hnonneg := (rangesTotal_bounds (readRanges_inside hread.symm).2).1
    rw [sumRangeSizes_eq, wrap64_eq (by omega) (h rs hread.symm hlen)]
  refine ⟨fun r rs hmulti => ?_, hexact⟩
  unfold parseObjectRanges at hmulti
  split at hmulti
  · cases hmulti
  split at hmulti
  · cases hp : parseHTTPRange lib header size <;> rw [hp] at hmulti <;> cases hmulti
  split at hmulti
  any_goals cases hmulti
  rename_i hlist
  split at hmulti
  · cases hmulti
  · rename_i hguard
    cases hmulti
    rw [hexact _ hlist (by omega)] at hguard
    omega

/-- The header that asks a hundred times for everything. -/
def hundredTimes : String :=
  String.ofList ("bytes=".toList ++ [','].intercalate (List.replicate 100 "0-".toList))

theorem rangeElements_hundredTimes :
    beginsWith hundredTimes "bytes=" = true ∧
      rangeElements hundredTimes = List.replicate 100 "0-".toList := by
  decide +kernel

/-- The headers for which the guard is sound at a size, and the sizes at which it is sound for every
header. -/
theorem amplification_guard_iff (lib : HeaderLibrary) (size : Nat) (hsize : size < 2 ^ 63) :
    (∀ header, GuardSound lib size header ↔ TotalFits lib size header) ∧
      ((∀ header, GuardSound lib size header) ↔ maxObjectRanges * size < 2 ^ 63) := by
  refine ⟨fun header => guardSound_iff, fun h => ?_, fun h header => ?_⟩
  · by_contra hbig
    have hpos : (0 : Int) < size := by
      unfold maxObjectRanges at hbig
      omega
    have hzero : elementRange (integer lib) size "0-".toList = some ⟨0, size - 1⟩ := by
      show (if (0 : Int) ≤ 0 ∧ (0 : Int) < size then some (⟨0, size - 1⟩ : ByteRange) else none) = _
      rw [if_pos ⟨le_rfl, hpos⟩]
    have hfits := guardSound_iff.mp (h hundredTimes) (List.replicate 100 ⟨0, size - 1⟩) (by
      rw [readRanges, rangeElements_hundredTimes.2, if_pos]
      · rw [List.filterMap_replicate_of_some hzero]
      · refine ⟨rangeElements_hundredTimes.1, by decide, fun e he => ?_⟩
        rw [List.eq_of_mem_replicate he, hzero]
        rfl) (by simp [maxObjectRanges])
    simp only [rangesTotal, List.map_replicate, List.sum_replicate] at hfits
    unfold maxObjectRanges at hbig
    simp at hfits
    omega
  · rw [guardSound_iff]
    intro rs hrs hlen
    have hbound := (rangesTotal_bounds (readRanges_inside hrs).2).2
    calc rangesTotal rs ≤ rs.length * size := hbound
      _ ≤ maxObjectRanges * size := by gcongr
      _ < 2 ^ 63 := by exact_mod_cast h

/-- At the largest size two copies of the object are answered: their sum is `-2`. -/
theorem amplification_guard_wraps :
    let lib : HeaderLibrary := ⟨id⟩
    let whole : ByteRange := ⟨0, 2 ^ 63 - 2⟩
    parseObjectRanges lib "bytes=0-,0-" (2 ^ 63 - 1) = .ok (.multi whole [whole]) ∧
      sumRangeSizes [whole, whole] = -2 ∧ 2 ^ 63 - 1 < rangesTotal [whole, whole] := by
  decide +kernel

theorem amplification_guard_small : GuardSound ⟨id⟩ 1000 "bytes=0-,0-" :=
  (amplification_guard_iff _ 1000 (by decide)).2.mpr (by decide) _

end

end ObjectFabric
