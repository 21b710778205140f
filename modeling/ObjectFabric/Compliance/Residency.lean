import Mathlib

/-!
# Residency — the data-residency check

`internal/compliance/residency_enforcer.go`.  A tenant's allowlist and the residency hint of a
placement policy are merged into one list, and the backend's country is looked up in it.  In both
lists, and in the merged one, emptiness means that nothing is restricted.
-/

namespace ObjectFabric

/-! ## 1. Country codes -/

/-- `unicode.IsSpace` -/
def unicodeIsSpace (c : Char) : Bool :=
  ['\t', '\n', '\x0b', '\x0c', '\r', ' ', '\u0085', '\u00a0', '\u1680',
    '\u2028', '\u2029', '\u202f', '\u205f', '\u3000'].contains c ||
    ('\u2000' ≤ c && c ≤ '\u200a')

/-- `strings.TrimSpace` -/
def trimUnicodeSpace (s : List Char) : List Char :=
  (s.dropWhile unicodeIsSpace).rdropWhile unicodeIsSpace

/-- `unicode.ToUpper`: an upper-case letter is its own upper case, and no letter becomes or stops
being a space. -/
structure UpperCase where
  toUpper : Char → Char
  toUpper_toUpper : ∀ c, toUpper (toUpper c) = toUpper c
  isSpace_toUpper : ∀ c, unicodeIsSpace (toUpper c) = unicodeIsSpace c

section

variable (upper : UpperCase)

/-- `strings.ToUpper(strings.TrimSpace(s))` -/
def normalizeCountry (s : String) : String :=
  String.ofList ((trimUnicodeSpace s.toList).map upper.toUpper)

/-! ## 2. The check -/

structure ResidencyEnforcer where
  /-- `AllowlistLookup`; a lookup that is not wired restricts nothing. -/
  allowlist : Option (String → Except String (List String)) := none

def ResidencyEnforcer.allowed (e : ResidencyEnforcer) (tenantID : String) :
    Except String (List String) :=
  match e.allowlist with
  | none => .ok []
  | some lookup => lookup tenantID

/-- The normalised countries of `b` that `a` lists too. -/
def intersect (a b : List String) : List String :=
  (b.map (normalizeCountry upper)).filter fun k => (a.map (normalizeCountry upper)).contains k

def mergedResidency (allowed policyResidency : List String) : List String :=
  if policyResidency = [] then allowed
  else if allowed = [] then policyResidency
  else intersect upper allowed policyResidency

def errResidencyViolation : String := "compliance: data residency violation"

/-- `Check` of an enforcer; a nil enforcer permits everything. -/
def ResidencyEnforcer.check (e : Option ResidencyEnforcer) (tenantID backendCountry : String)
    (policyResidency : List String) : Except String Unit :=
  match e with
  | none => .ok ()
  | some e =>
    let bc := normalizeCountry upper backendCountry
    -- a provider that advertises no country is not residency-aware
    if bc = "" then
      .ok ()
    else
      match e.allowed tenantID with
      | .error err => .error err
      | .ok raw =>
        let allowed := mergedResidency upper raw policyResidency
        if allowed = [] ∨ allowed.any (fun c => normalizeCountry upper c = bc) then .ok ()
        else .error errResidencyViolation

/-! ## 3. What it accepts -/

def Listed (list : List String) (country : String) : Prop :=
  list = [] ∨ ∃ c ∈ list, normalizeCountry upper c = normalizeCountry upper country

instance (list : List String) (country : String) : Decidable (Listed upper list country) :=
  inferInstanceAs (Decidable (_ ∨ _))

def Overlap (a b : List String) : Prop :=
  ∃ x ∈ a, ∃ y ∈ b, normalizeCountry upper x = normalizeCountry upper y

variable {upper}

theorem trimUnicodeSpace_map (s : List Char) :
    trimUnicodeSpace (s.map upper.toUpper) = (trimUnicodeSpace s).map upper.toUpper := by
  have hspace : unicodeIsSpace ∘ upper.toUpper = unicodeIsSpace := funext upper.isSpace_toUpper
  simp only [trimUnicodeSpace, List.rdropWhile, List.dropWhile_map, ← List.map_reverse, hspace]

theorem trimUnicodeSpace_trimUnicodeSpace (s : List Char) :
    trimUnicodeSpace (trimUnicodeSpace s) = trimUnicodeSpace s := by
  have hfront : (trimUnicodeSpace s).dropWhile unicodeIsSpace = trimUnicodeSpace s := by
    rw [List.dropWhile_eq_self_iff]
    intro hlen
    -- what is left begins as the list did once its front was trimmed
    have hhead : ∀ h : 0 < (s.dropWhile unicodeIsSpace).length,
        (trimUnicodeSpace s)[0] = (s.dropWhile unicodeIsSpace)[0] := by
      intro h
      exact (List.rdropWhile_prefix _ _).getElem hlen
    have hle : 0 < (s.dropWhile unicodeIsSpace).length :=
      lt_of_lt_of_le hlen (List.rdropWhile_prefix _ _).length_le
    rw [hhead hle]
    exact List.dropWhile_get_zero_not unicodeIsSpace s hle
  unfold trimUnicodeSpace at hfront ⊢
  rw [hfront, List.rdropWhile_idempotent]

theorem normalizeCountry_normalizeCountry (s : String) :
    normalizeCountry upper (normalizeCountry upper s) = normalizeCountry upper s := by
  have hidem : upper.toUpper ∘ upper.toUpper = upper.toUpper := funext upper.toUpper_toUpper
  unfold normalizeCountry
  rw [String.toList_ofList, trimUnicodeSpace_map, trimUnicodeSpace_trimUnicodeSpace, List.map_map,
    hidem]

theorem normalizeCountry_ne_empty {country : String}
    (hblank : ∃ c ∈ country.toList, unicodeIsSpace c = false) :
    normalizeCountry upper country ≠ "" := by
  rcases hblank with ⟨c, hc, hspace⟩
  intro hempty
  have hnil : trimUnicodeSpace country.toList = [] := by
    have := congrArg String.toList hempty
    simpa [normalizeCountry] using this
  unfold trimUnicodeSpace at hnil
  rw [List.rdropWhile_eq_nil_iff] at hnil
  have hall : ∀ x ∈ country.toList, unicodeIsSpace x = true := by
    intro x hx
    rw [← List.takeWhile_append_dropWhile (p := unicodeIsSpace) (l := country.toList)] at hx
    rcases List.mem_append.mp hx with hfront | hrest
    · exact List.mem_takeWhile_imp hfront
    · exact hnil x hrest
  rw [hall c hc] at hspace
  simp at hspace

theorem mem_intersect {a b : List String} {k : String} :
    k ∈ intersect upper a b ↔ ∃ x ∈ a, ∃ y ∈ b, normalizeCountry upper x = k ∧
      normalizeCountry upper y = k := by
  simp only [intersect, List.mem_filter, List.mem_map, List.contains_eq_mem, decide_eq_true_eq]
  constructor
  · rintro ⟨⟨y, hy, rfl⟩, x, hx, hxy⟩
    exact ⟨x, hx, y, hy, hxy, rfl⟩
  · rintro ⟨x, hx, y, hy, hxk, rfl⟩
    exact ⟨⟨y, hy, rfl⟩, x, hx, hxk⟩

theorem intersect_eq_nil {a b : List String} : intersect upper a b = [] ↔ ¬ Overlap upper a b := by
  rw [List.eq_nil_iff_forall_not_mem]
  constructor
  · rintro hnone ⟨x, hx, y, hy, hxy⟩
    exact hnone _ (mem_intersect.mpr ⟨x, hx, y, hy, hxy, rfl⟩)
  · intro hdisjoint k hk
    rcases mem_intersect.mp hk with ⟨x, hx, y, hy, hxk, hyk⟩
    exact hdisjoint ⟨x, hx, y, hy, hxk.trans hyk.symm⟩

theorem check_ok_iff {e : ResidencyEnforcer} {tenantID country : String} {allow policy : List String}
    (hallow : e.allowed tenantID = .ok allow)
    (hblank : ∃ c ∈ country.toList, unicodeIsSpace c = false) :
    ResidencyEnforcer.check upper (some e) tenantID country policy = .ok () ↔
      Listed upper (mergedResidency upper allow policy) country := by
  have hbc : normalizeCountry upper country ≠ "" := normalizeCountry_ne_empty hblank
  unfold ResidencyEnforcer.check Listed
  simp only [hallow, if_neg hbc, List.any_eq_true, decide_eq_true_eq]
  split
  · rename_i hlisted
    exact iff_of_true rfl hlisted
  · rename_i hlisted
    exact iff_of_false (by simp) hlisted

theorem listed_intersect {a b : List String} {country : String} (ha : a ≠ []) (hb : b ≠ []) :
    (∃ k ∈ intersect upper a b, normalizeCountry upper k = normalizeCountry upper country) ↔
      Listed upper a country ∧ Listed upper b country := by
  constructor
  · rintro ⟨k, hk, hcountry⟩
    rcases mem_intersect.mp hk with ⟨x, hx, y, hy, hxk, hyk⟩
    -- the entries of the intersection are normalised already
    have hkk : k = normalizeCountry upper country := by
      rw [← hxk, normalizeCountry_normalizeCountry] at hcountry
      rw [← hxk, hcountry]
    exact ⟨Or.inr ⟨x, hx, hxk.trans hkk⟩, Or.inr ⟨y, hy, hyk.trans hkk⟩⟩
  · rintro ⟨hla, hlb⟩
    rcases hla.resolve_left ha with ⟨x, hx, hxc⟩
    rcases hlb.resolve_left hb with ⟨y, hy, hyc⟩
    refine ⟨_, mem_intersect.mpr ⟨x, hx, y, hy, hxc, hyc⟩, ?_⟩
    exact normalizeCountry_normalizeCountry country

theorem listed_mergedResidency {allow policy : List String} {country : String}
    (hshared : allow = [] ∨ policy = [] ∨ Overlap upper allow policy) :
    Listed upper (mergedResidency upper allow policy) country ↔
      Listed upper allow country ∧ Listed upper policy country := by
  have hfree : Listed upper [] country := Or.inl rfl
  unfold mergedResidency
  split
  · rename_i hpolicy
    rw [hpolicy]
    exact (and_iff_left hfree).symm
  rename_i hpolicy
  split
  · rename_i hallow
    rw [hallow]
    exact (and_iff_right hfree).symm
  rename_i hallow
  have hoverlap : Overlap upper allow policy := (hshared.resolve_left hallow).resolve_left hpolicy
  have hnonempty : intersect upper allow policy ≠ [] :=
    fun hnil => intersect_eq_nil.mp hnil hoverlap
  exact (or_iff_right hnonempty).trans (listed_intersect hallow hpolicy)

/-- A backend that advertises a country is accepted exactly when each list that restricts contains
it, and a list never admits a country that the other alone would refuse, exactly when the two
lists do not contradict each other: the intersection of lists without a common country is
empty, which reads as no restriction at all. -/
theorem check_exact_iff {e : ResidencyEnforcer} {tenantID country : String}
    {allow policy : List String} (hallow : e.allowed tenantID = .ok allow)
    (hblank : ∃ c ∈ country.toList, unicodeIsSpace c = false) :
    ((ResidencyEnforcer.check upper (some e) tenantID country policy = .ok () ↔
        Listed upper allow country ∧ Listed upper policy country) ∧
      (ResidencyEnforcer.check upper (some e) tenantID country policy = .ok () →
        ResidencyEnforcer.check upper (some e) tenantID country [] = .ok () ∧
        ResidencyEnforcer.check upper (some ⟨none⟩) tenantID country policy = .ok ())) ↔
      (allow = [] ∨ policy = [] ∨ Overlap upper allow policy) := by
  have hunlisted : (⟨none⟩ : ResidencyEnforcer).allowed tenantID = .ok [] := rfl
  rw [check_ok_iff hallow hblank, check_ok_iff hallow hblank, check_ok_iff hunlisted hblank]
  constructor
  · rintro ⟨hexact, -⟩
    by_contra hcontra
    push Not at hcontra
    rcases hcontra with ⟨ha, hp, hdisjoint⟩
    have hmerged : mergedResidency upper allow policy = [] := by
      unfold mergedResidency
      rw [if_neg hp, if_neg ha, intersect_eq_nil.mpr hdisjoint]
    rcases hexact.mp (Or.inl hmerged) with ⟨hla, hlp⟩
    rcases hla.resolve_left ha with ⟨x, hx, hxc⟩
    rcases hlp.resolve_left hp with ⟨y, hy, hyc⟩
    exact hdisjoint ⟨x, hx, y, hy, hxc.trans hyc.symm⟩
  · intro hshared
    rw [listed_mergedResidency hshared, listed_mergedResidency (Or.inr (Or.inl rfl)),
      listed_mergedResidency (Or.inl rfl)]
    exact ⟨Iff.rfl, fun hboth => ⟨⟨hboth.1, Or.inl rfl⟩, Or.inl rfl, hboth.2⟩⟩

end

def asciiToUpper (c : Char) : Char :=
  if 97 ≤ c.toNat ∧ c.toNat < 97 + 26 then Char.ofNat (c.toNat - 32) else c

theorem asciiToUpper_cases (c : Char) :
    asciiToUpper c = c ∨ ∃ n < 26, c = Char.ofNat (97 + n) ∧ asciiToUpper c = Char.ofNat (65 + n) := by
  unfold asciiToUpper
  split
  · rename_i hlower
    right
    refine ⟨c.toNat - 97, by omega, ?_, ?_⟩
    · rw [show 97 + (c.toNat - 97) = c.toNat by omega, Char.ofNat_toNat]
    · rw [show 65 + (c.toNat - 97) = c.toNat - 32 by omega]
  · exact Or.inl rfl

def asciiUpper : UpperCase where
  toUpper := asciiToUpper
  toUpper_toUpper c := by
    rcases asciiToUpper_cases c with hself | ⟨n, hn, -, hupper⟩
    · rw [hself, hself]
    · have hletters : ∀ n < 26, asciiToUpper (Char.ofNat (65 + n)) = Char.ofNat (65 + n) := by
        decide
      rw [hupper, hletters n hn]
  isSpace_toUpper c := by
    rcases asciiToUpper_cases c with hself | ⟨n, hn, hlower, hupper⟩
    · rw [hself]
    have hletters : ∀ n < 26, unicodeIsSpace (Char.ofNat (65 + n)) =
        unicodeIsSpace (Char.ofNat (97 + n)) := by
      decide
    rw [hupper, hlower, hletters n hn]

/-- A tenant restricted to Germany, and a policy that asks for Singapore: a backend in neither
country is accepted, though the tenant's list alone refuses it. -/
theorem check_accepts_disjoint_lists :
    ResidencyEnforcer.check asciiUpper (some ⟨some fun _ => .ok ["DE"]⟩) "acme" "US" ["SG"] =
        .ok () ∧
      ¬ (Listed asciiUpper ["DE"] "US" ∧ Listed asciiUpper ["SG"] "US") ∧
      ResidencyEnforcer.check asciiUpper (some ⟨some fun _ => .ok ["DE"]⟩) "acme" "US" [] =
        .error errResidencyViolation := by
  decide +kernel

theorem check_exact_germany :
    ((ResidencyEnforcer.check asciiUpper (some ⟨some fun _ => .ok ["DE", "FR"]⟩) "acme" "de" ["de "] =
          .ok () ↔ Listed asciiUpper ["DE", "FR"] "de" ∧ Listed asciiUpper ["de "] "de") ∧
      (ResidencyEnforcer.check asciiUpper (some ⟨some fun _ => .ok ["DE", "FR"]⟩) "acme" "de" ["de "] =
          .ok () →
        ResidencyEnforcer.check asciiUpper (some ⟨some fun _ => .ok ["DE", "FR"]⟩) "acme" "de" [] =
          .ok () ∧
        ResidencyEnforcer.check asciiUpper (some ⟨none⟩) "acme" "de" ["de "] = .ok ())) := by
  refine (check_exact_iff rfl ⟨'d', by simp, by decide⟩).mpr (Or.inr (Or.inr ?_))
  exact ⟨"DE", by simp, "de ", by simp, by decide +kernel⟩

end ObjectFabric
