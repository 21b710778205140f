import ObjectFabric.Gateway.Config
import ObjectFabric.Streams.Separators

/-!
# Query — the two readings of a query string

`canonicalQuery` and `stripQueryParam` of `internal/auth/authenticator.go` against `URL.Query()`.
The signer splits the raw query leniently, decodes what it can, keeps what it cannot decode as it
stands, and sorts.  `net/url` drops a segment with a semicolon or with a malformed escape, drops everything when there are
more than 10000 segments, and keeps the order.  Both work on bytes: a decoded value need not be UTF-8.
-/

namespace ObjectFabric

open Streams

/-! ## 1. Escapes -/

abbrev percentSign : UInt8 := 37
abbrev ampersand : UInt8 := 38
abbrev plusSign : UInt8 := 43
abbrev semicolon : UInt8 := 59
abbrev equalsSign : UInt8 := 61

def sigV4UnreservedChar (c : UInt8) : Bool :=
  (65 ≤ c && c ≤ 90) || (97 ≤ c && c ≤ 122) || (48 ≤ c && c ≤ 57) ||
    c == 45 || c == 46 || c == 95 || c == 126

/-- `"0123456789ABCDEF"[n]` -/
def upperHex (n : Nat) : UInt8 := if n < 10 then UInt8.ofNat (48 + n) else UInt8.ofNat (55 + n)

/-- `%` and the two hex digits of a byte. -/
def percentByte (c : UInt8) : Bytes :=
  [percentSign, upperHex (c.toNat / 16), upperHex (c.toNat % 16)]

def percentEncode (keep : UInt8 → Bool) (s : Bytes) : Bytes :=
  s.flatMap fun c => if keep c then [c] else percentByte c

def sigV4PercentEncode : Bytes → Bytes := percentEncode sigV4UnreservedChar

def unhex (c : UInt8) : Option Nat :=
  if 48 ≤ c ∧ c ≤ 57 then some (c.toNat - 48)
  else if 97 ≤ c ∧ c ≤ 102 then some (c.toNat - 87)
  else if 65 ≤ c ∧ c ≤ 70 then some (c.toNat - 55)
  else none

/-- `url.QueryUnescape` -/
def queryUnescape : Bytes → Option Bytes
  | [] => some []
  | c :: rest =>
    if c = percentSign then
      match rest with
      | hi :: lo :: rest =>
        match unhex hi, unhex lo with
        | some a, some b => (queryUnescape rest).map (UInt8.ofNat (16 * a + b) :: ·)
        | _, _ => none
      | _ => none
    else (queryUnescape rest).map ((if c = plusSign then 32 else c) :: ·)

theorem unhex_upperHex : ∀ n < 16, unhex (upperHex n) = some n := by decide

theorem queryUnescape_percentByte (c : UInt8) (s : Bytes) :
    queryUnescape (percentByte c ++ s) = (queryUnescape s).map (c :: ·) := by
  have hc : c.toNat < 256 := UInt8.toNat_lt c
  have hbyte : UInt8.ofNat (16 * (c.toNat / 16) + c.toNat % 16) = c := by
    rw [Nat.div_add_mod, UInt8.ofNat_toNat]
  simp only [percentByte, List.cons_append, List.nil_append]
  rw [queryUnescape, if_pos rfl]
  simp only [unhex_upperHex _ (show c.toNat / 16 < 16 by omega),
    unhex_upperHex _ (show c.toNat % 16 < 16 by omega), hbyte]

variable {c : UInt8}

theorem queryUnescape_cons (hpercent : c ≠ percentSign) (hplus : c ≠ plusSign)
    (s : Bytes) : queryUnescape (c :: s) = (queryUnescape s).map (c :: ·) := by
  rw [queryUnescape.eq_def]
  simp only [if_neg hpercent, if_neg hplus]

section

variable {keep : UInt8 → Bool}

theorem queryUnescape_percentEncode (hpercent : keep percentSign = false)
    (hplus : keep plusSign = false) (s : Bytes) :
    queryUnescape (percentEncode keep s) = some s := by
  induction s with
  | nil => rfl
  | cons c s ih => ?_
  have hstep : queryUnescape (percentEncode keep (c :: s)) =
      (queryUnescape (percentEncode keep s)).map (c :: ·) := by
    rw [percentEncode, List.flatMap_cons]
    split
    · rename_i hkeep
      refine queryUnescape_cons (fun h => ?_) (fun h => ?_) _
      · rw [h, hpercent] at hkeep
        cases hkeep
      · rw [h, hplus] at hkeep
        cases hkeep
    · exact queryUnescape_percentByte c _
  rw [hstep, ih]
  rfl

theorem upperHex_ne (hc : sigV4UnreservedChar c = false) :
    ∀ n < 16, upperHex n ≠ c := by
  have hdigits : ∀ n < 16, sigV4UnreservedChar (upperHex n) = true := by decide
  intro n hn h
  rw [← h, hdigits n hn] at hc
  cases hc

theorem not_mem_percentEncode (hkeep : keep c = false)
    (hunreserved : sigV4UnreservedChar c = false) (hpercent : c ≠ percentSign) (s : Bytes) :
    c ∉ percentEncode keep s := by
  intro hmem
  rcases List.mem_flatMap.mp hmem with ⟨d, -, hd⟩
  have hbound : d.toNat < 256 := UInt8.toNat_lt d
  split at hd
  · rename_i hkept
    rw [List.mem_singleton] at hd
    rw [← hd, hkeep] at hkept
    cases hkept
  · simp only [percentByte, List.mem_cons, List.not_mem_nil, or_false] at hd
    rcases hd with h | h | h
    · exact hpercent h
    · exact upperHex_ne hunreserved _ (by omega) h.symm
    · exact upperHex_ne hunreserved _ (by omega) h.symm

end

theorem sigV4PercentEncode_injective : Function.Injective sigV4PercentEncode := by
  intro s t h
  have hdecode : ∀ u, queryUnescape (sigV4PercentEncode u) = some u :=
    queryUnescape_percentEncode rfl rfl
  have hs := hdecode s
  rw [h, hdecode t] at hs
  exact (Option.some.inj hs).symm

variable {s : Bytes}

theorem queryUnescape_of_unreserved (h : ∀ c ∈ s, sigV4UnreservedChar c = true) :
    queryUnescape s = some s := by
  induction s with
  | nil => rfl
  | cons c s ih => ?_
  have hc := h c List.mem_cons_self
  rw [queryUnescape_cons, ih fun d hd => h d (List.mem_cons_of_mem _ hd)]
  · rfl
  · rintro rfl
    cases hc
  · rintro rfl
    cases hc

theorem mem_of_queryUnescape (hpercent : c ≠ percentSign) (hplus : c ≠ plusSign)
    (hhex : unhex c = none) {s t : Bytes} (h : queryUnescape s = some t) (hc : c ∈ s) : c ∈ t := by
  fun_induction queryUnescape s generalizing t with
  | case1 => cases hc
  | case2 hi lo rest a b hb ha ih =>
    rcases Option.map_eq_some_iff.mp h with ⟨u, hu, rfl⟩
    -- the two digits of an escape are not the byte
    have hne : ∀ {d e}, unhex d = some e → c ≠ d := fun hd hcd => by
      rw [← hcd, hhex] at hd
      cases hd
    simp only [List.mem_cons] at hc
    rcases hc with hc | hc | hc | hc
    · exact absurd hc hpercent
    · exact absurd hc (hne ha)
    · exact absurd hc (hne hb)
    · exact List.mem_cons_of_mem _ (ih hu hc)
  | case3 | case4 => cases h
  | case5 d rest hd ih =>
    rcases Option.map_eq_some_iff.mp h with ⟨u, hu, rfl⟩
    rcases List.mem_cons.mp hc with rfl | hc
    · rw [if_neg hplus]
      exact List.mem_cons_self
    · exact List.mem_cons_of_mem _ (ih hu hc)

/-! ## 2. The signer's reading -/

def segments (raw : Bytes) : List Bytes := (raw.splitOn ampersand).filter (· ≠ [])

/-- A side of a pair as the signer decodes it: a malformed one is taken as it stands. -/
def decodeOrRaw (s : Bytes) : Bytes := (queryUnescape s).getD s

def signerPair (segment : Bytes) : Bytes × Bytes :=
  (decodeOrRaw (cut equalsSign segment).1, decodeOrRaw (cut equalsSign segment).2)

def signerPairs (raw : Bytes) : List (Bytes × Bytes) := (segments raw).map signerPair

def encodedBefore (a b : Bytes × Bytes) : Prop := a.1 < b.1 ∨ a.1 = b.1 ∧ a.2 ≤ b.2

instance : DecidableRel encodedBefore := fun a b =>
  inferInstanceAs (Decidable (a.1 < b.1 ∨ a.1 = b.1 ∧ a.2 ≤ b.2))

def encodePair (p : Bytes × Bytes) : Bytes × Bytes :=
  (sigV4PercentEncode p.1, sigV4PercentEncode p.2)

/-- `k=v` -/
def joinPair (p : Bytes × Bytes) : Bytes := p.1 ++ equalsSign :: p.2

def canonicalQuery (raw : Bytes) : Bytes :=
  if raw = [] then []
  else [ampersand].intercalate
    ((((signerPairs raw).map encodePair).insertionSort encodedBefore).map joinPair)

/-- `stripQueryParam` -/
def stripQueryParam (raw name : Bytes) : Bytes :=
  if raw = [] then []
  else [ampersand].intercalate ((raw.splitOn ampersand).filter fun segment =>
    !((name ++ [equalsSign]).isPrefixOf segment || segment == name))

/-! ## 3. The gateway's reading -/

/-- One segment as `url.ParseQuery` takes it, or none where it is dropped. -/
def queryPair (segment : Bytes) : Option (Bytes × Bytes) :=
  if semicolon ∈ segment then none
  else do
    let name ← queryUnescape (cut equalsSign segment).1
    let value ← queryUnescape (cut equalsSign segment).2
    return (name, value)

/-- `strings.Count(query, "&") + 1`; empty segments are counted. -/
def parameterCount (raw : Bytes) : Nat := (raw.splitOn ampersand).length

/-- The limit of `url.ParseQuery`, from Go 1.25.6 on. -/
def maxQueryParams : Nat := 10000

def WithinLimit (raw : Bytes) : Prop := parameterCount raw ≤ maxQueryParams

instance : DecidablePred WithinLimit := fun raw =>
  inferInstanceAs (Decidable (parameterCount raw ≤ maxQueryParams))

/-- `URL.Query()`: the values in the order they stand in, or nothing at all beyond the limit. -/
def urlQuery (raw : Bytes) : List (Bytes × Bytes) :=
  if WithinLimit raw then (segments raw).filterMap queryPair else []

def queryFirst (raw name : Bytes) : Option Bytes :=
  ((urlQuery raw).find? (·.1 = name)).map Prod.snd

/-- `URL.Query().Get(name)` -/
def queryGet (raw name : Bytes) : Bytes := (queryFirst raw name).getD []

def signatureParameter : Bytes := utf8 "X-Amz-Signature"

/-- `PresignedV4Strategy.Matches` -/
def presigned (raw : Bytes) : Bool := queryGet raw signatureParameter ≠ []

def signedQuery (raw : Bytes) : Bytes :=
  if presigned raw then stripQueryParam raw signatureParameter else raw

/-- The parameters that the dispatcher and the handlers read through `URL.Query()`. -/
inductive Parameter
  | acl | policy | logging | replication | accelerate | requestPayment | website | inventory
  | metrics | analytics | publicAccessBlock | ownershipControls | intelligentTiering
  | uploadId | partNumber | tagging | versioning | objectLock | cors | lifecycle | notification
  | encryption | retention | legalHold | uploads | versions | listType | versionId
  | keyPrefix | continuationToken | maxKeys
  | responseContentType | responseContentLanguage | responseExpires | responseCacheControl
  | responseContentDisposition | responseContentEncoding
  deriving DecidableEq

def Parameter.text : Parameter → String
  | .acl => "acl"
  | .policy => "policy"
  | .logging => "logging"
  | .replication => "replication"
  | .accelerate => "accelerate"
  | .requestPayment => "requestPayment"
  | .website => "website"
  | .inventory => "inventory"
  | .metrics => "metrics"
  | .analytics => "analytics"
  | .publicAccessBlock => "publicAccessBlock"
  | .ownershipControls => "ownershipControls"
  | .intelligentTiering => "intelligent-tiering"
  | .uploadId => "uploadId"
  | .partNumber => "partNumber"
  | .tagging => "tagging"
  | .versioning => "versioning"
  | .objectLock => "object-lock"
  | .cors => "cors"
  | .lifecycle => "lifecycle"
  | .notification => "notification"
  | .encryption => "encryption"
  | .retention => "retention"
  | .legalHold => "legal-hold"
  | .uploads => "uploads"
  | .versions => "versions"
  | .listType => "list-type"
  | .versionId => "versionId"
  | .keyPrefix => "prefix"
  | .continuationToken => "continuation-token"
  | .maxKeys => "max-keys"
  | .responseContentType => "response-content-type"
  | .responseContentLanguage => "response-content-language"
  | .responseExpires => "response-expires"
  | .responseCacheControl => "response-cache-control"
  | .responseContentDisposition => "response-content-disposition"
  | .responseContentEncoding => "response-content-encoding"

inductive SigningParameter
  | algorithm | credential | date | expires | signedHeaders
  deriving DecidableEq

def SigningParameter.text : SigningParameter → String
  | .algorithm => "X-Amz-Algorithm"
  | .credential => "X-Amz-Credential"
  | .date => "X-Amz-Date"
  | .expires => "X-Amz-Expires"
  | .signedHeaders => "X-Amz-SignedHeaders"

def Parameter.name (p : Parameter) : Bytes := utf8 p.text

def SigningParameter.name (p : SigningParameter) : Bytes := utf8 p.text

inductive ReadParameter : Bytes → Prop
  | operation (p : Parameter) : ReadParameter p.name
  | signing (p : SigningParameter) : ReadParameter p.name

structure PlainName (name : Bytes) : Prop where
  unreserved : ∀ c ∈ name, sigV4UnreservedChar c = true
  ne_signature : name ≠ signatureParameter

theorem ReadParameter.plain {name : Bytes} (h : ReadParameter name) : PlainName name := by
  cases h with
  | operation p => cases p <;> exact ⟨by decide +kernel, by decide +kernel⟩
  | signing p => cases p <;> exact ⟨by decide +kernel, by decide +kernel⟩

/-! ## 4. Segments -/

theorem segments_intercalate {segs : List Bytes} (h : ∀ s ∈ segs, ampersand ∉ s) :
    segments ([ampersand].intercalate segs) = segs.filter (· ≠ []) := by
  cases segs with
  | nil => rfl
  | cons s segs => rw [segments, List.splitOn_intercalate ampersand h (List.cons_ne_nil s segs)]

theorem mem_segments {raw s : Bytes} (h : s ∈ segments raw) : ampersand ∉ s ∧ s ≠ [] := by
  rcases List.mem_filter.mp h with ⟨hmem, hne⟩
  exact ⟨not_mem_of_mem_splitOn hmem, of_decide_eq_true hne⟩

@[simp] theorem segments_nil : segments [] = [] := rfl

structure Segments (segs : List Bytes) : Prop where
  separate : ∀ s ∈ segs, ampersand ∉ s
  filled : ∀ s ∈ segs, s ≠ []

theorem Segments.segments_eq {segs : List Bytes} (h : Segments segs) :
    segments ([ampersand].intercalate segs) = segs := by
  rw [segments_intercalate h.separate, List.filter_eq_self]
  exact fun s hs => decide_eq_true (h.filled s hs)

theorem length_segments_le (raw : Bytes) : (segments raw).length ≤ parameterCount raw :=
  List.length_filter_le _ _

theorem parameterCount_intercalate_le {segs : List Bytes} (h : ∀ s ∈ segs, ampersand ∉ s) :
    parameterCount ([ampersand].intercalate segs) ≤ max 1 segs.length := by
  unfold parameterCount
  cases segs with
  | nil => exact le_max_left _ _
  | cons s segs =>
    rw [List.splitOn_intercalate ampersand h (List.cons_ne_nil s segs)]
    exact le_max_right _ _

theorem withinLimit_intercalate {segs : List Bytes} (h : ∀ s ∈ segs, ampersand ∉ s)
    (hlength : segs.length ≤ maxQueryParams) : WithinLimit ([ampersand].intercalate segs) :=
  (parameterCount_intercalate_le h).trans (max_le (by decide) hlength)

theorem withinLimit_of_presigned {raw : Bytes} (h : presigned raw = true) : WithinLimit raw := by
  by_contra hover
  simp [presigned, queryGet, queryFirst, urlQuery, hover] at h

/-- The signed part of a query within the limit is within it, and no other. -/
theorem withinLimit_signedQuery (raw : Bytes) : WithinLimit (signedQuery raw) ↔ WithinLimit raw := by
  unfold signedQuery
  split
  · rename_i hpresigned
    have hraw := withinLimit_of_presigned hpresigned
    refine iff_of_true ?_ hraw
    unfold stripQueryParam
    split
    · decide
    · refine withinLimit_intercalate (fun s hs => ?_) ((List.length_filter_le _ _).trans hraw)
      exact not_mem_of_mem_splitOn (List.mem_filter.mp hs).1
  · rfl

/-! ## 5. What the canonical query determines -/

theorem encodedBefore_total (a b : Bytes × Bytes) : encodedBefore a b ∨ encodedBefore b a := by
  by_cases hname : a.1 = b.1
  · rcases List.le_total a.2 b.2 with hvalue | hvalue
    · exact Or.inl (Or.inr ⟨hname, hvalue⟩)
    · exact Or.inr (Or.inr ⟨hname.symm, hvalue⟩)
  · rcases List.le_total a.1 b.1 with hle | hle
    · exact Or.inl (Or.inl ((List.le_iff_lt_or_eq.mp hle).resolve_right hname))
    · exact Or.inr (Or.inl ((List.le_iff_lt_or_eq.mp hle).resolve_right (Ne.symm hname)))

theorem encodedBefore_trans {a b c : Bytes × Bytes} (hab : encodedBefore a b)
    (hbc : encodedBefore b c) : encodedBefore a c := by
  rcases hab with hab | ⟨hab, hab'⟩
  · rcases hbc with hbc | ⟨hbc, -⟩
    · exact Or.inl (List.lt_trans hab hbc)
    · exact Or.inl (hbc ▸ hab)
  · rcases hbc with hbc | ⟨hbc, hbc'⟩
    · exact Or.inl (hab ▸ hbc)
    · exact Or.inr ⟨hab.trans hbc, List.le_trans hab' hbc'⟩

theorem encodedBefore_antisymm {a b : Bytes × Bytes} (hab : encodedBefore a b)
    (hba : encodedBefore b a) : a = b := by
  rcases hab with hab | ⟨hab, hab'⟩
  · rcases hba with hba | ⟨hba, -⟩
    · exact absurd hba (List.lt_asymm hab)
    · exact absurd (hba ▸ hab) (List.lt_irrefl _)
  · rcases hba with hba | ⟨-, hba'⟩
    · exact absurd (hab ▸ hba) (List.lt_irrefl _)
    · exact Prod.ext hab (List.le_antisymm hab' hba')

instance : Std.Total encodedBefore := ⟨encodedBefore_total⟩

instance : IsTrans (Bytes × Bytes) encodedBefore := ⟨fun _ _ _ => encodedBefore_trans⟩

theorem encodePair_injective : Function.Injective encodePair := by
  intro p q h
  exact Prod.ext (sigV4PercentEncode_injective (Prod.ext_iff.mp h).1)
    (sigV4PercentEncode_injective (Prod.ext_iff.mp h).2)

theorem not_mem_sigV4PercentEncode (h : sigV4UnreservedChar c = false)
    (hpercent : c ≠ percentSign) (s : Bytes) : c ∉ sigV4PercentEncode s :=
  not_mem_percentEncode h h hpercent s

theorem cut_joinPair_encodePair (p : Bytes × Bytes) :
    cut equalsSign (joinPair (encodePair p)) = encodePair p :=
  cut_append (not_mem_sigV4PercentEncode rfl (by decide) p.1) _

theorem segments_encoded {l : List (Bytes × Bytes)} (h : ∀ q ∈ l, ∃ p, encodePair p = q) :
    Segments (l.map joinPair) := by
  refine ⟨fun s hs => ?_, fun s hs => ?_⟩
  · rcases List.mem_map.mp hs with ⟨q, hq, rfl⟩
    rcases h q hq with ⟨p, rfl⟩
    simp only [joinPair, encodePair, List.mem_append, List.mem_cons, not_or]
    exact ⟨not_mem_sigV4PercentEncode rfl (by decide) p.1, by decide,
      not_mem_sigV4PercentEncode rfl (by decide) p.2⟩
  · rcases List.mem_map.mp hs with ⟨q, -, rfl⟩
    simp [joinPair]

theorem canonicalQuery_eq (raw : Bytes) : canonicalQuery raw = [ampersand].intercalate
    ((((signerPairs raw).map encodePair).insertionSort encodedBefore).map joinPair) := by
  unfold canonicalQuery
  split
  · rename_i hempty
    rw [hempty]
    rfl
  · rfl

theorem map_cut_segments_canonicalQuery (raw : Bytes) :
    (segments (canonicalQuery raw)).map (cut equalsSign) =
      ((signerPairs raw).map encodePair).insertionSort encodedBefore := by
  have hencoded : ∀ q ∈ ((signerPairs raw).map encodePair).insertionSort encodedBefore,
      ∃ p, encodePair p = q := by
    intro q hq
    rcases List.mem_map.mp ((List.perm_insertionSort _ _).subset hq) with ⟨p, -, hp⟩
    exact ⟨p, hp⟩
  rw [canonicalQuery_eq, (segments_encoded hencoded).segments_eq, List.map_map]
  conv_rhs => rw [← List.map_id (((signerPairs raw).map encodePair).insertionSort encodedBefore)]
  apply List.map_congr_left
  intro q hq
  rcases hencoded q hq with ⟨p, rfl⟩
  exact cut_joinPair_encodePair p

theorem canonicalQuery_eq_iff (raw raw' : Bytes) :
    canonicalQuery raw' = canonicalQuery raw ↔ (signerPairs raw').Perm (signerPairs raw) := by
  constructor
  · intro h
    have hsorted := (map_cut_segments_canonicalQuery raw').symm
    rw [h, map_cut_segments_canonicalQuery] at hsorted
    have hencoded : ((signerPairs raw').map encodePair).Perm ((signerPairs raw).map encodePair) :=
      calc ((signerPairs raw').map encodePair).Perm
            (((signerPairs raw').map encodePair).insertionSort encodedBefore) :=
              (List.perm_insertionSort _ _).symm
        _ = ((signerPairs raw).map encodePair).insertionSort encodedBefore := hsorted
        _ |>.Perm ((signerPairs raw).map encodePair) := List.perm_insertionSort _ _
    exact (List.map_perm_map_iff encodePair_injective).mp hencoded
  · intro h
    have hsorted : ((signerPairs raw').map encodePair).insertionSort encodedBefore =
        ((signerPairs raw).map encodePair).insertionSort encodedBefore := by
      apply List.Perm.eq_of_pairwise (fun a b _ _ hab hba => encodedBefore_antisymm hab hba)
        (List.pairwise_insertionSort _ _) (List.pairwise_insertionSort _ _)
      exact ((List.perm_insertionSort _ _).trans (h.map _)).trans
        (List.perm_insertionSort _ _).symm
    rw [canonicalQuery_eq, canonicalQuery_eq, hsorted]

/-! ## 6. Where the two readings part -/

/-- A decoded value that some way of writing it hides from `url.ParseQuery`: a raw semicolon, or
the value itself written out where it is no escape sequence. -/
def Droppable (value : Bytes) : Prop :=
  semicolon ∈ value ∨ (queryUnescape value = none ∧ ampersand ∉ value)

instance : DecidablePred Droppable := fun value =>
  inferInstanceAs (Decidable (semicolon ∈ value ∨ (queryUnescape value = none ∧ ampersand ∉ value)))

/-- All values given for a parameter are the same one, and it cannot be dropped. -/
def Unambiguous (raw name : Bytes) : Prop :=
  ∀ v v', (name, v) ∈ signerPairs raw → (name, v') ∈ signerPairs raw → v = v' ∧ ¬ Droppable v

instance (raw name : Bytes) : Decidable (Unambiguous raw name) :=
  decidable_of_iff
    (∀ p ∈ signerPairs raw, ∀ q ∈ signerPairs raw, p.1 = name → q.1 = name →
      p.2 = q.2 ∧ ¬ Droppable p.2)
    ⟨fun h v v' hv hv' => h _ hv _ hv' rfl rfl, fun h p hp q hq hpn hqn => by
      apply h p.2 q.2
      · rw [← hpn]
        exact hp
      · rw [← hqn]
        exact hq⟩

theorem signerPair_of_queryPair {segment : Bytes} {p : Bytes × Bytes}
    (h : queryPair segment = some p) : signerPair segment = p := by
  unfold queryPair at h
  split at h
  · cases h
  rcases Option.bind_eq_some_iff.mp h with ⟨name, hname, h⟩
  rcases Option.bind_eq_some_iff.mp h with ⟨value, hvalue, h⟩
  rw [← Option.some.inj h, signerPair, decodeOrRaw, decodeOrRaw, hname, hvalue]
  rfl

theorem semicolon_mem_decodeOrRaw (h : semicolon ∈ s) : semicolon ∈ decodeOrRaw s := by
  unfold decodeOrRaw
  cases hs : queryUnescape s with
  | none => exact h
  | some t => exact mem_of_queryUnescape (by decide) (by decide) (by decide) hs h

theorem queryUnescape_of_decodeOrRaw (h : queryUnescape (decodeOrRaw s) ≠ none) :
    queryUnescape s = some (decodeOrRaw s) := by
  unfold decodeOrRaw at *
  cases hs : queryUnescape s with
  | none =>
    rw [hs] at h
    exact absurd hs h
  | some t => rfl

theorem mem_of_mem_cut {x c : UInt8} (h : c ∈ s) (hc : c ≠ x) :
    c ∈ (cut x s).1 ∨ c ∈ (cut x s).2 := by
  rcases cut_cases x s with ⟨-, hcut⟩ | ⟨-, hs⟩
  · rw [hcut]
    exact Or.inl h
  rw [hs, List.mem_append, List.mem_cons] at h
  rcases h with h | h | h
  · exact Or.inl h
  · exact absurd h hc
  · exact Or.inr h

theorem queryPair_of_signerPair {segment name value : Bytes} (hsep : ampersand ∉ segment)
    (hname : ∀ c ∈ name, sigV4UnreservedChar c = true) (hpair : signerPair segment = (name, value))
    (hvalue : ¬ Droppable value) : queryPair segment = some (name, value) := by
  rcases Prod.mk.inj hpair with ⟨hn, hv⟩
  have hcolon : semicolon ∉ segment := by
    intro hmem
    rcases mem_of_mem_cut hmem (by decide : semicolon ≠ equalsSign) with h | h
    · have hsemi := hname _ (hn ▸ semicolon_mem_decodeOrRaw h)
      cases hsemi
    · exact hvalue (Or.inl (hv ▸ semicolon_mem_decodeOrRaw h))
  have hleft : queryUnescape (cut equalsSign segment).1 = some name := by
    rw [← hn]
    apply queryUnescape_of_decodeOrRaw
    rw [hn, queryUnescape_of_unreserved hname]
    simp
  have hright : queryUnescape (cut equalsSign segment).2 = some value := by
    -- a malformed value is taken as it stands, and so it would be droppable
    cases hraw : queryUnescape (cut equalsSign segment).2 with
    | some t => rw [← hv, decodeOrRaw, hraw, Option.getD_some]
    | none => ?_
    rw [decodeOrRaw, hraw, Option.getD_none] at hv
    have hamp : ampersand ∉ (cut equalsSign segment).2 := by
      intro hmem
      rcases cut_cases equalsSign segment with ⟨-, hcut⟩ | ⟨-, hs⟩
      · rw [hcut] at hmem
        cases hmem
      · apply hsep
        rw [hs]
        exact List.mem_append_right _ (List.mem_cons_of_mem _ hmem)
    rw [← hv] at hvalue
    exact absurd (Or.inr ⟨hraw, hamp⟩) hvalue
  rw [queryPair, if_neg hcolon, hleft, hright]
  rfl

theorem mem_urlQuery {raw : Bytes} {p : Bytes × Bytes} (h : p ∈ urlQuery raw) :
    ∃ segment ∈ segments raw, queryPair segment = some p := by
  unfold urlQuery at h
  split at h
  · exact List.mem_filterMap.mp h
  · cases h

theorem mem_signerPairs_of_mem_urlQuery {raw : Bytes} {p : Bytes × Bytes} (h : p ∈ urlQuery raw) :
    p ∈ signerPairs raw := by
  rcases mem_urlQuery h with ⟨segment, hmem, hp⟩
  exact List.mem_map.mpr ⟨segment, hmem, signerPair_of_queryPair hp⟩

theorem queryFirst_eq_some {raw name v : Bytes} (h : queryFirst raw name = some v) :
    (name, v) ∈ urlQuery raw := by
  rcases Option.map_eq_some_iff.mp h with ⟨p, hp, rfl⟩
  have hname := List.find?_some hp
  rw [← of_decide_eq_true hname]
  exact List.mem_of_find?_eq_some hp

theorem mem_signerPairs_of_queryFirst {raw name v : Bytes} (h : queryFirst raw name = some v) :
    (name, v) ∈ signerPairs raw :=
  mem_signerPairs_of_mem_urlQuery (queryFirst_eq_some h)

theorem queryFirst_iff {raw name : Bytes} (hname : ∀ c ∈ name, sigV4UnreservedChar c = true)
    (hlimit : WithinLimit raw) (h : Unambiguous raw name) (v : Bytes) :
    queryFirst raw name = some v ↔ (name, v) ∈ signerPairs raw := by
  constructor
  · exact mem_signerPairs_of_queryFirst
  intro hmem
  rcases List.mem_map.mp hmem with ⟨segment, hsegment, hpair⟩
  have hkept : (name, v) ∈ urlQuery raw := by
    rw [urlQuery, if_pos hlimit]
    exact List.mem_filterMap.mpr ⟨segment, hsegment,
      queryPair_of_signerPair (mem_segments hsegment).1 hname hpair (h v v hmem hmem).2⟩
  cases hfirst : queryFirst raw name with
  | none =>
    have hnone := List.find?_eq_none.mp (Option.map_eq_none_iff.mp hfirst) _ hkept
    simp at hnone
  | some w =>
    rw [(h w v (mem_signerPairs_of_queryFirst hfirst) hmem).1]

theorem Unambiguous.of_perm {raw raw' name : Bytes}
    (hperm : (signerPairs raw').Perm (signerPairs raw)) (h : Unambiguous raw name) :
    Unambiguous raw' name :=
  fun v v' hv hv' => h v v' (hperm.subset hv) (hperm.subset hv')

theorem queryFirst_of_perm {raw raw' name : Bytes}
    (hname : ∀ c ∈ name, sigV4UnreservedChar c = true)
    (hperm : (signerPairs raw').Perm (signerPairs raw)) (hlimit : WithinLimit raw)
    (hlimit' : WithinLimit raw') (h : Unambiguous raw name) :
    queryFirst raw' name = queryFirst raw name := by
  apply Option.ext
  intro v
  rw [queryFirst_iff hname hlimit h, queryFirst_iff hname hlimit' (h.of_perm hperm)]
  exact ⟨fun hmem => hperm.subset hmem, fun hmem => hperm.symm.subset hmem⟩

/-! ## 7. The signature parameter -/

section

variable {name : Bytes}

theorem queryUnescape_signatureParameter :
    queryUnescape signatureParameter = some signatureParameter := by decide +kernel

theorem queryPair_of_stripped {segment : Bytes}
    (h : ((signatureParameter ++ [equalsSign]).isPrefixOf segment ||
      segment == signatureParameter) = true) :
    queryPair segment = none ∨ ∃ v, queryPair segment = some (signatureParameter, v) := by
  have hplain : equalsSign ∉ signatureParameter := by decide +kernel
  have hcut : (cut equalsSign segment).1 = signatureParameter := by
    rcases Bool.or_eq_true_iff.mp h with h | h
    · rcases List.isPrefixOf_iff_prefix.mp h with ⟨rest, rfl⟩
      rw [List.append_assoc]
      exact congrArg Prod.fst (cut_append hplain rest)
    · rw [eq_of_beq h, cut_of_not_mem hplain]
  cases hpair : queryPair segment with
  | none => exact Or.inl rfl
  | some p =>
    have hname := congrArg Prod.fst (signerPair_of_queryPair hpair)
    rw [signerPair, hcut, decodeOrRaw, queryUnescape_signatureParameter] at hname
    exact Or.inr ⟨p.2, congrArg some (Prod.ext hname.symm rfl)⟩

theorem find?_filterMap_stripped (hname : name ≠ signatureParameter) (segs : List Bytes) :
    ((segs.filter fun segment => !((signatureParameter ++ [equalsSign]).isPrefixOf segment ||
        segment == signatureParameter)).filterMap queryPair).find? (·.1 = name) =
      (segs.filterMap queryPair).find? (·.1 = name) := by
  induction segs with
  | nil => rfl
  | cons segment segs ih => ?_
  rw [List.filter_cons]
  cases hstrip : ((signatureParameter ++ [equalsSign]).isPrefixOf segment ||
      segment == signatureParameter) with
  | true =>
    rw [Bool.not_true, if_neg (by simp), ih]
    rcases queryPair_of_stripped hstrip with hnone | ⟨v, hsome⟩
    · rw [List.filterMap_cons_none hnone]
    · rw [List.filterMap_cons_some hsome, List.find?_cons_of_neg]
      simpa using Ne.symm hname
  | false =>
    rw [Bool.not_false, if_pos rfl]
    cases hpair : queryPair segment with
    | none => rw [List.filterMap_cons_none hpair, List.filterMap_cons_none hpair, ih]
    | some p =>
      rw [List.filterMap_cons_some hpair, List.filterMap_cons_some hpair, List.find?_cons,
        List.find?_cons, ih]

theorem queryFirst_signedQuery (hname : name ≠ signatureParameter) (raw : Bytes) :
    queryFirst (signedQuery raw) name = queryFirst raw name := by
  by_cases hpresigned : presigned raw = true
  · have hlimit := withinLimit_of_presigned hpresigned
    have hlimit' := (withinLimit_signedQuery raw).mpr hlimit
    unfold queryFirst urlQuery
    rw [if_pos hlimit, if_pos hlimit', signedQuery, if_pos hpresigned]
    unfold stripQueryParam
    split
    · rename_i hempty
      rw [hempty]
    rw [segments_intercalate]
    · rw [List.filter_comm, find?_filterMap_stripped hname]
      rfl
    · intro s hs
      exact not_mem_of_mem_splitOn (List.mem_filter.mp hs).1
  · rw [signedQuery, if_neg hpresigned]

end

/-! ## 8. Rewritten queries -/

def escapeAll : Bytes → Bytes := percentEncode fun _ => false

theorem queryUnescape_escapeAll (s : Bytes) : queryUnescape (escapeAll s) = some s :=
  queryUnescape_percentEncode rfl rfl s

theorem not_mem_escapeAll (h : sigV4UnreservedChar c = false)
    (hpercent : c ≠ percentSign) (s : Bytes) : c ∉ escapeAll s :=
  not_mem_percentEncode rfl h hpercent s

def escapedSegment (name value : Bytes) : Bytes := escapeAll name ++ equalsSign :: value

theorem cut_escapedSegment (name value : Bytes) :
    cut equalsSign (escapedSegment name value) = (escapeAll name, value) :=
  cut_append (not_mem_escapeAll rfl (by decide) name) value

theorem signerPair_escapedSegment (name value : Bytes) :
    signerPair (escapedSegment name value) = (name, decodeOrRaw value) := by
  rw [signerPair, cut_escapedSegment, decodeOrRaw, queryUnescape_escapeAll]
  rfl

theorem ampersand_not_mem_escapedSegment {value : Bytes} (h : ampersand ∉ value) (name : Bytes) :
    ampersand ∉ escapedSegment name value := by
  rw [escapedSegment, List.mem_append, List.mem_cons, not_or, not_or]
  exact ⟨not_mem_escapeAll rfl (by decide) name, by decide, h⟩

theorem escapedSegment_not_stripped (name value : Bytes) :
    ((signatureParameter ++ [equalsSign]).isPrefixOf (escapedSegment name value) ||
      escapedSegment name value == signatureParameter) = false := by
  have hX : signatureParameter = 88 :: utf8 "-Amz-Signature" := by decide +kernel
  have hhead : ∀ {d : UInt8} {rest : Bytes}, d ≠ 88 →
      ((signatureParameter ++ [equalsSign]).isPrefixOf (d :: rest) ||
        d :: rest == signatureParameter) = false := by
    intro d rest hd
    rw [hX]
    simp [List.isPrefixOf, hd, Ne.symm hd]
  cases name <;> exact hhead (by decide)

def plainSegment (p : Bytes × Bytes) : Bytes := escapedSegment p.1 (escapeAll p.2)

theorem queryPair_plainSegment (p : Bytes × Bytes) : queryPair (plainSegment p) = some p := by
  have hcolon : semicolon ∉ plainSegment p := by
    rw [plainSegment, escapedSegment, List.mem_append, List.mem_cons, not_or, not_or]
    exact ⟨not_mem_escapeAll rfl (by decide) p.1, by decide,
      not_mem_escapeAll rfl (by decide) p.2⟩
  rw [queryPair, if_neg hcolon, plainSegment, cut_escapedSegment]
  simp only [queryUnescape_escapeAll]
  rfl

def hiddenSegment (name value : Bytes) : Bytes :=
  escapedSegment name
    (if semicolon ∈ value then percentEncode (· == semicolon) value else value)

theorem hiddenSegment_spec {value : Bytes} (h : Droppable value) (name : Bytes) :
    signerPair (hiddenSegment name value) = (name, value) ∧
      queryPair (hiddenSegment name value) = none ∧
      ampersand ∉ hiddenSegment name value := by
  unfold hiddenSegment
  rw [signerPair_escapedSegment]
  split
  · rename_i hsemi
    have hmem : semicolon ∈ percentEncode (· == semicolon) value :=
      List.mem_flatMap.mpr ⟨semicolon, hsemi, by simp⟩
    refine ⟨?_, ?_, ?_⟩
    · rw [decodeOrRaw, queryUnescape_percentEncode (by decide) (by decide), Option.getD_some]
    · rw [queryPair, if_pos]
      exact List.mem_append_right _ (List.mem_cons_of_mem _ hmem)
    · apply ampersand_not_mem_escapedSegment
      exact not_mem_percentEncode (by decide) rfl (by decide) value
  · rename_i hsemi
    rcases h.resolve_left hsemi with ⟨hmalformed, hamp⟩
    refine ⟨?_, ?_, ampersand_not_mem_escapedSegment hamp name⟩
    · rw [decodeOrRaw, hmalformed, Option.getD_none]
    rw [queryPair, cut_escapedSegment]
    simp only [hmalformed]
    split
    · rfl
    · simp

structure Rewriting (segs : List Bytes) : Prop where
  separate : ∀ s ∈ segs, ampersand ∉ s
  escaped : ∀ s ∈ segs, ∃ name value, s = escapedSegment name value

namespace Rewriting

variable {segs : List Bytes}

theorem segments_eq (h : Rewriting segs) : segments ([ampersand].intercalate segs) = segs := by
  apply Segments.segments_eq
  refine ⟨h.separate, fun s hs => ?_⟩
  rcases h.escaped s hs with ⟨name, value, rfl⟩
  simp [escapedSegment]

theorem signedQuery_eq (h : Rewriting segs) :
    signedQuery ([ampersand].intercalate segs) = [ampersand].intercalate segs := by
  unfold signedQuery
  split
  · unfold stripQueryParam
    split
    · rename_i hempty
      rw [hempty]
    rename_i hne
    have hsegs : segs ≠ [] := by
      rintro rfl
      exact hne rfl
    rw [List.splitOn_intercalate ampersand h.separate hsegs, List.filter_eq_self.mpr]
    intro s hs
    rcases h.escaped s hs with ⟨name, value, rfl⟩
    rw [escapedSegment_not_stripped]
    rfl
  · rfl

theorem canonicalQuery_eq (h : Rewriting segs) {raw : Bytes}
    (hperm : (segs.map signerPair).Perm (signerPairs (signedQuery raw))) :
    canonicalQuery (signedQuery ([ampersand].intercalate segs)) =
      canonicalQuery (signedQuery raw) := by
  rw [canonicalQuery_eq_iff, h.signedQuery_eq, signerPairs, h.segments_eq]
  exact hperm

end Rewriting

theorem rewriting_plain (ps : List (Bytes × Bytes)) : Rewriting (ps.map plainSegment) := by
  refine ⟨fun s hs => ?_, fun s hs => ?_⟩
  · rcases List.mem_map.mp hs with ⟨p, -, rfl⟩
    exact ampersand_not_mem_escapedSegment (not_mem_escapeAll rfl (by decide) p.2) p.1
  · rcases List.mem_map.mp hs with ⟨p, -, rfl⟩
    exact ⟨p.1, _, rfl⟩

theorem map_signerPair_plainSegment (ps : List (Bytes × Bytes)) :
    (ps.map plainSegment).map signerPair = ps := by
  rw [List.map_map]
  conv_rhs => rw [← List.map_id ps]
  apply List.map_congr_left
  intro p _
  exact signerPair_of_queryPair (queryPair_plainSegment p)

theorem urlQuery_plain {ps : List (Bytes × Bytes)} (hlength : ps.length ≤ maxQueryParams) :
    urlQuery ([ampersand].intercalate (ps.map plainSegment)) = ps := by
  rw [urlQuery, if_pos (withinLimit_intercalate (rewriting_plain ps).separate
    (by rwa [List.length_map])), (rewriting_plain ps).segments_eq, List.filterMap_map]
  conv_rhs => rw [← List.filterMap_some (l := ps)]
  apply List.filterMap_congr
  intro p _
  exact queryPair_plainSegment p

/-- A pair as it is written where every occurrence of one droppable pair is hidden. -/
def segmentHiding (name value : Bytes) (p : Bytes × Bytes) : Bytes :=
  if p = (name, value) then hiddenSegment name value else plainSegment p

section

variable {name value : Bytes}

theorem signerPair_segmentHiding (h : Droppable value) (p : Bytes × Bytes) :
    signerPair (segmentHiding name value p) = p := by
  unfold segmentHiding
  split
  · rename_i hp
    rw [hp]
    exact (hiddenSegment_spec h name).1
  · exact signerPair_of_queryPair (queryPair_plainSegment p)

theorem rewriting_hiding (name : Bytes) (h : Droppable value) (ps : List (Bytes × Bytes)) :
    Rewriting (ps.map (segmentHiding name value)) := by
  refine ⟨fun s hs => ?_, fun s hs => ?_⟩
  · rcases List.mem_map.mp hs with ⟨p, -, rfl⟩
    unfold segmentHiding
    split
    · exact (hiddenSegment_spec h name).2.2
    · exact (rewriting_plain [p]).separate _ List.mem_cons_self
  · rcases List.mem_map.mp hs with ⟨p, -, rfl⟩
    unfold segmentHiding
    split
    · exact ⟨name, _, rfl⟩
    · exact ⟨p.1, _, rfl⟩

theorem map_signerPair_segmentHiding (h : Droppable value) (ps : List (Bytes × Bytes)) :
    (ps.map (segmentHiding name value)).map signerPair = ps := by
  rw [List.map_map]
  conv_rhs => rw [← List.map_id ps]
  apply List.map_congr_left
  intro p _
  exact signerPair_segmentHiding h p

theorem queryFirst_hiding (h : Droppable value) {ps : List (Bytes × Bytes)}
    (hall : ∀ v, (name, v) ∈ ps → v = value) :
    queryFirst ([ampersand].intercalate (ps.map (segmentHiding name value))) name = none := by
  cases hfirst : queryFirst ([ampersand].intercalate (ps.map (segmentHiding name value))) name with
  | none => rfl
  | some v => ?_
  rcases mem_urlQuery (queryFirst_eq_some hfirst) with ⟨s, hs, hpair⟩
  rw [(rewriting_hiding name h ps).segments_eq] at hs
  rcases List.mem_map.mp hs with ⟨p, hp, rfl⟩
  have hread := signerPair_of_queryPair hpair
  rw [signerPair_segmentHiding h] at hread
  rw [hread] at hp
  rw [hread, hall v hp, segmentHiding, if_pos rfl, (hiddenSegment_spec h name).2.1] at hpair
  cases hpair

end

/-- Two requests under the same signature, of which the second is within the limit. -/
structure Rewrites (raw raw' : Bytes) : Prop where
  canonical : canonicalQuery (signedQuery raw') = canonicalQuery (signedQuery raw)
  within : WithinLimit raw'

section

variable {raw name : Bytes} (hlength : (signerPairs (signedQuery raw)).length ≤ maxQueryParams)
include hlength

/-- The query written plainly with a given value of the parameter in front. -/
theorem exists_rewriting_front {v : Bytes} (hv : (name, v) ∈ signerPairs (signedQuery raw)) :
    ∃ raw', Rewrites raw raw' ∧ queryFirst raw' name = some v := by
  have hperm := (List.perm_cons_erase hv).symm
  have hplain := rewriting_plain ((name, v) :: (signerPairs (signedQuery raw)).erase (name, v))
  rw [← hperm.length_eq] at hlength
  refine ⟨_, ⟨hplain.canonicalQuery_eq ?_, withinLimit_intercalate hplain.separate ?_⟩, ?_⟩
  · rw [map_signerPair_plainSegment]
    exact hperm
  · rwa [List.length_map]
  · rw [queryFirst, urlQuery_plain hlength, List.find?_cons_of_pos]
    · rfl
    · exact decide_eq_true rfl

theorem exists_rewritings (h : ¬ Unambiguous (signedQuery raw) name) :
    ∃ raw₁ raw₂, Rewrites raw raw₁ ∧ Rewrites raw raw₂ ∧ queryFirst raw₁ name ≠ queryFirst raw₂ name := by
  unfold Unambiguous at h
  push Not at h
  rcases h with ⟨v, v', hv, hv', hbad⟩
  rcases exists_rewriting_front hlength hv with ⟨raw₁, hraw₁, hfirst₁⟩
  by_cases hall : ∀ u, (name, u) ∈ signerPairs (signedQuery raw) → u = v
  · have hdrop : Droppable v := hbad (hall v' hv').symm
    have hhiding := rewriting_hiding name hdrop (signerPairs (signedQuery raw))
    refine ⟨raw₁, _, hraw₁, ⟨hhiding.canonicalQuery_eq ?_,
      withinLimit_intercalate hhiding.separate (by rwa [List.length_map])⟩, ?_⟩
    · rw [map_signerPair_segmentHiding hdrop]
    · rw [hfirst₁, queryFirst_hiding hdrop hall]
      exact Option.some_ne_none v
  · push Not at hall
    rcases hall with ⟨u, hu, hne⟩
    rcases exists_rewriting_front hlength hu with ⟨raw₂, hraw₂, hfirst₂⟩
    refine ⟨raw₁, raw₂, hraw₁, hraw₂, ?_⟩
    rw [hfirst₁, hfirst₂]
    exact fun heq => hne (Option.some.inj heq).symm

end

theorem queryFirst_of_not_withinLimit {raw : Bytes} (h : ¬ WithinLimit raw) (name : Bytes) :
    queryFirst raw name = none := by
  rw [queryFirst, urlQuery, if_neg h]
  rfl

/-- Padded with empty segments, every query has the same canonical query and no parameter. -/
theorem exists_padding (raw : Bytes) :
    ∃ raw', canonicalQuery (signedQuery raw') = canonicalQuery (signedQuery raw) ∧
      ¬ WithinLimit raw' := by
  let segs := (signerPairs (signedQuery raw)).map plainSegment ++ List.replicate (maxQueryParams + 1) []
  have hplain := rewriting_plain (signerPairs (signedQuery raw))
  have hsep : ∀ s ∈ segs, ampersand ∉ s := by
    intro s hs
    rcases List.mem_append.mp hs with hs | hs
    · exact hplain.separate s hs
    · rw [(List.mem_replicate.mp hs).2]
      exact List.not_mem_nil
  have hlong : maxQueryParams + 1 ≤ segs.length := by
    rw [List.length_append, List.length_replicate]
    exact Nat.le_add_left _ _
  have hover : ¬ WithinLimit ([ampersand].intercalate segs) := by
    unfold WithinLimit parameterCount
    rw [List.splitOn_intercalate ampersand hsep (List.ne_nil_of_length_pos (by omega))]
    omega
  refine ⟨_, ?_, hover⟩
  have hsigned : signedQuery ([ampersand].intercalate segs) = [ampersand].intercalate segs := by
    rw [signedQuery, if_neg fun hpresigned => hover (withinLimit_of_presigned hpresigned)]
  have hsegments : segments ([ampersand].intercalate segs) =
      (signerPairs (signedQuery raw)).map plainSegment := by
    rw [segments_intercalate hsep, List.filter_append, List.filter_replicate_of_neg (by simp),
      List.append_nil, ← segments_intercalate hplain.separate, hplain.segments_eq]
  rw [canonicalQuery_eq_iff, hsigned, signerPairs, hsegments, map_signerPair_plainSegment]

/-! ## 9. Requests under one signature -/

theorem queryFirst_of_canonicalQuery {raw raw' name : Bytes} (hname : PlainName name)
    (hcanonical : canonicalQuery (signedQuery raw') = canonicalQuery (signedQuery raw))
    (hlimit : WithinLimit raw) (hlimit' : WithinLimit raw')
    (h : Unambiguous (signedQuery raw) name) : queryFirst raw' name = queryFirst raw name := by
  rw [← queryFirst_signedQuery hname.ne_signature raw,
    ← queryFirst_signedQuery hname.ne_signature raw']
  exact queryFirst_of_perm hname.unreserved ((canonicalQuery_eq_iff _ _).mp hcanonical)
    ((withinLimit_signedQuery raw).mpr hlimit) ((withinLimit_signedQuery raw').mpr hlimit') h

/-- The gateway reads the same parameters from both. -/
def SameParameters (raw raw' : Bytes) : Prop :=
  ∀ name, ReadParameter name → queryFirst raw' name = queryFirst raw name

/-- No request under the signature has a parameter for the gateway to read. -/
def Parameterless (raw : Bytes) : Prop :=
  (∀ name, ReadParameter name → ∀ v, (name, v) ∉ signerPairs (signedQuery raw)) ∨
    maxQueryParams < (signerPairs (signedQuery raw)).length

theorem Parameterless.queryFirst_eq {raw raw' name : Bytes} (h : Parameterless raw)
    (hcanonical : canonicalQuery (signedQuery raw') = canonicalQuery (signedQuery raw))
    (hname : ReadParameter name) : queryFirst raw' name = none := by
  have hperm := (canonicalQuery_eq_iff _ _).mp hcanonical
  rw [← queryFirst_signedQuery hname.plain.ne_signature raw']
  rcases h with habsent | hlong
  · cases hfirst : queryFirst (signedQuery raw') name with
    | none => rfl
    | some v =>
      exact absurd (hperm.subset (mem_signerPairs_of_queryFirst hfirst)) (habsent name hname v)
  · apply queryFirst_of_not_withinLimit
    have hsegments := length_segments_le (signedQuery raw')
    have hpairs := hperm.length_eq
    unfold signerPairs at hpairs hlong
    rw [List.length_map, List.length_map] at hpairs
    rw [List.length_map] at hlong
    unfold WithinLimit
    omega

/-- All requests under one signature give the gateway the same parameters exactly when they have none;
those within the limit do so exactly when every parameter it reads is unambiguous. -/
theorem parameters_fixed_iff (raw : Bytes) :
    ((∀ raw', canonicalQuery (signedQuery raw') = canonicalQuery (signedQuery raw) →
        SameParameters raw raw') ↔ Parameterless raw) ∧
    (WithinLimit raw →
      ((∀ raw', Rewrites raw raw' → SameParameters raw raw') ↔
        ∀ name, ReadParameter name → Unambiguous (signedQuery raw) name)) := by
  refine ⟨⟨fun h => ?_, fun h raw' hcanonical name hname => ?_⟩, fun hlimit =>
    ⟨fun h name hname => ?_, fun h raw' hraw' name hname => ?_⟩⟩
  · by_contra hparams
    simp only [Parameterless, not_or, not_forall, not_not, not_lt] at hparams
    rcases hparams with ⟨⟨name, hname, v, hv⟩, hlength⟩
    rcases exists_rewriting_front hlength hv with ⟨raw₁, hraw₁, hfirst⟩
    rcases exists_padding raw with ⟨raw₂, hcanonical₂, hover⟩
    have hsame := (h raw₁ hraw₁.canonical name hname).trans (h raw₂ hcanonical₂ name hname).symm
    rw [hfirst, queryFirst_of_not_withinLimit hover] at hsame
    cases hsame
  · rw [h.queryFirst_eq hcanonical hname, h.queryFirst_eq rfl hname]
  · by_contra hambiguous
    have hlength : (signerPairs (signedQuery raw)).length ≤ maxQueryParams := by
      rw [signerPairs, List.length_map]
      exact (length_segments_le _).trans ((withinLimit_signedQuery raw).mpr hlimit)
    rcases exists_rewritings hlength hambiguous with ⟨raw₁, raw₂, hraw₁, hraw₂, hne⟩
    exact hne ((h raw₁ hraw₁ name hname).trans (h raw₂ hraw₂ name hname).symm)
  · exact queryFirst_of_canonicalQuery hname.plain hraw'.canonical hlimit hraw'.within (h name hname)

/-- A request to delete one version, rewritten into one to delete the latest. -/
theorem version_parameter_dropped :
    canonicalQuery (signedQuery (utf8 "versionId=a;b")) =
        canonicalQuery (signedQuery (utf8 "versionId=a%3Bb")) ∧
      queryFirst (utf8 "versionId=a%3Bb") Parameter.versionId.name = some (utf8 "a;b") ∧
      queryFirst (utf8 "versionId=a;b") Parameter.versionId.name = none := by
  decide +kernel

end ObjectFabric
