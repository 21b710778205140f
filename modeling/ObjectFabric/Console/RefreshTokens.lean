import ObjectFabric.FiniteMap
import ObjectFabric.Metadata.ObjectLock

/-!
# RefreshTokens — rotating refresh tokens

`api/console/refresh_token_store.go`, the store in memory.  A token is exchanged once for its
successor and stays in the store as consumed; presenting it again is taken for a theft and removes
its whole family.  The evidence is the consumed row, and `Revoke` deletes it like any other.
-/

namespace ObjectFabric

structure RefreshRow where
  tenantID : String
  familyID : String
  expiresAt : Time
  consumed : Bool := false
  deriving DecidableEq, Repr

structure RefreshToken where
  raw : String
  tenantID : String
  expiresAt : Time
  deriving DecidableEq, Repr

inductive RefreshError where
  | tenantRequired
  | randFailed
  | invalid
  | reuse
  deriving DecidableEq, Repr

/-- The lifetime, SHA-256 in hex, and what the random source returns at each draw of a
token and of a family ID. -/
structure RefreshConfig where
  lifetime : Time := 0
  hashRefreshToken : String → String
  rawRefreshToken : Nat → String
  refreshFamilyID : Nat → String

def RefreshConfig.ttl (cfg : RefreshConfig) : Time :=
  if cfg.lifetime ≤ 0 then 30 * nanosPerDay else cfg.lifetime

/-- A draw is never repeated, in tokens (up to their hashes) or in family IDs. -/
structure RefreshConfig.Random (cfg : RefreshConfig) : Prop where
  tokens : Function.Injective fun n => cfg.hashRefreshToken (cfg.rawRefreshToken n)
  families : Function.Injective cfg.refreshFamilyID

structure RefreshStore where
  rows : FMap String RefreshRow := ∅
  drawn : Nat := 0

structure RefreshChoice where
  now : Time := 0
  randFails : Bool := false

namespace RefreshStore

variable (cfg : RefreshConfig)

def mint (s : RefreshStore) (tenantID familyID : String) (x : RefreshChoice) :
    Except RefreshError RefreshToken × RefreshStore :=
  if x.randFails then
    (.error .randFailed, s)
  else
    let raw := cfg.rawRefreshToken s.drawn
    let expiresAt := x.now + cfg.ttl
    (.ok ⟨raw, tenantID, expiresAt⟩,
      ⟨s.rows.insert (cfg.hashRefreshToken raw) { tenantID, familyID, expiresAt }, s.drawn + 1⟩)

def issue (s : RefreshStore) (tenantID : String) (x : RefreshChoice) :
    Except RefreshError RefreshToken × RefreshStore :=
  if tenantID = "" then
    (.error .tenantRequired, s)
  else
    let family := cfg.refreshFamilyID s.drawn
    mint cfg { s with drawn := s.drawn + 1 } tenantID family x

def revokeFamily (s : RefreshStore) (familyID : String) : RefreshStore :=
  { s with rows := s.rows.filter fun _ row => row.familyID ≠ familyID }

def rotate (s : RefreshStore) (rawToken : String) (x : RefreshChoice) :
    Except RefreshError RefreshToken × RefreshStore :=
  if rawToken = "" then
    (.error .invalid, s)
  else
    let hash := cfg.hashRefreshToken rawToken
    match s.rows.lookup hash with
    | none => (.error .invalid, s)
    | some row =>
      if row.expiresAt ≤ x.now then
        (.error .invalid, { s with rows := s.rows.erase hash })
      else if row.consumed then
        (.error .reuse, s.revokeFamily row.familyID)
      -- the successor is drawn first, so that a failure leaves the token as it is
      else if x.randFails then
        (.error .randFailed, s)
      else
        let raw := cfg.rawRefreshToken s.drawn
        let expiresAt := x.now + cfg.ttl
        (.ok ⟨raw, row.tenantID, expiresAt⟩,
          ⟨(s.rows.insert hash { row with consumed := true }).insert (cfg.hashRefreshToken raw)
            { tenantID := row.tenantID, familyID := row.familyID, expiresAt }, s.drawn + 1⟩)

def revoke (s : RefreshStore) (rawToken : String) : RefreshStore :=
  if rawToken = "" then s
  else { s with rows := s.rows.erase (cfg.hashRefreshToken rawToken) }

def revokeAllForTenant (s : RefreshStore) (tenantID : String) : RefreshStore :=
  if tenantID = "" then s
  else { s with rows := s.rows.filter fun _ row => row.tenantID ≠ tenantID }

end RefreshStore

inductive RefreshOp where
  | issue (tenantID : String)
  | rotate (rawToken : String)
  | revoke (rawToken : String)
  | revokeAllForTenant (tenantID : String)
  deriving DecidableEq, Repr

variable {s' : RefreshStore} {k : String} {now : Time} {row : RefreshRow} {k₀ : String}
  {row₀ : RefreshRow} {rawToken : String} {x : RefreshChoice}

namespace RefreshStore

variable (cfg : RefreshConfig)

def step (s : RefreshStore) : RefreshOp × RefreshChoice → RefreshStore
  | (.issue tenantID, x) => (s.issue cfg tenantID x).2
  | (.rotate rawToken, x) => (s.rotate cfg rawToken x).2
  | (.revoke rawToken, _) => s.revoke cfg rawToken
  | (.revokeAllForTenant tenantID, _) => s.revokeAllForTenant tenantID

def run (s : RefreshStore) (ops : List (RefreshOp × RefreshChoice)) : RefreshStore :=
  ops.foldl (step cfg) s

/-! ## 1. What an operation changes -/

variable (s : RefreshStore)

def Drawn (k : String) : Prop :=
  ∃ n < s.drawn, k = cfg.hashRefreshToken (cfg.rawRefreshToken n)

def issued (tenantID : String) (now : Time) : RefreshStore where
  rows := s.rows.insert (cfg.hashRefreshToken (cfg.rawRefreshToken (s.drawn + 1)))
    ⟨tenantID, cfg.refreshFamilyID s.drawn, now + cfg.ttl, false⟩
  drawn := s.drawn + 2

/-- The store after the token with hash `k` and row `row` has been exchanged. -/
def exchanged (k : String) (row : RefreshRow) (now : Time) : RefreshStore where
  rows := (s.rows.insert k { row with consumed := true }).insert
    (cfg.hashRefreshToken (cfg.rawRefreshToken s.drawn))
    ⟨row.tenantID, row.familyID, now + cfg.ttl, false⟩
  drawn := s.drawn + 1

theorem issue_cases (tenantID : String) (x : RefreshChoice) :
    (s.issue cfg tenantID x).2 = s.issued cfg tenantID x.now ∨
    (s.issue cfg tenantID x).2.rows = s.rows ∧ s.drawn ≤ (s.issue cfg tenantID x).2.drawn := by
  unfold issue
  split
  · exact Or.inr ⟨rfl, le_rfl⟩
  unfold mint
  split
  · exact Or.inr ⟨rfl, Nat.le_succ _⟩
  · exact Or.inl rfl

theorem rotate_cases (rawToken : String) (x : RefreshChoice) :
    (∃ err, s.rotate cfg rawToken x = (.error err, s) ∧
      ∀ row, s.rows.lookup (cfg.hashRefreshToken rawToken) = some row → rawToken ≠ "" →
        x.now < row.expiresAt → row.consumed = false) ∨
    ∃ row, s.rows.lookup (cfg.hashRefreshToken rawToken) = some row ∧ rawToken ≠ "" ∧
      ((row.expiresAt ≤ x.now ∧ s.rotate cfg rawToken x =
          (.error .invalid, { s with rows := s.rows.erase (cfg.hashRefreshToken rawToken) })) ∨
        (row.consumed = true ∧ s.rotate cfg rawToken x =
          (.error .reuse, s.revokeFamily row.familyID)) ∨
        (row.consumed = false ∧ s.rotate cfg rawToken x =
          (.ok ⟨cfg.rawRefreshToken s.drawn, row.tenantID, x.now + cfg.ttl⟩,
            s.exchanged cfg (cfg.hashRefreshToken rawToken) row x.now))) := by
  by_cases hempty : rawToken = ""
  · exact Or.inl ⟨.invalid, by rw [rotate, if_pos hempty], fun _ _ hne => absurd hempty hne⟩
  rcases hrow : s.rows.lookup (cfg.hashRefreshToken rawToken) with _ | row
  · refine Or.inl ⟨.invalid, ?_, fun row hsome => absurd hsome (by simp)⟩
    simp only [rotate, if_neg hempty, hrow]
  by_cases hexpired : row.expiresAt ≤ x.now
  · refine Or.inr ⟨row, rfl, hempty, Or.inl ⟨hexpired, ?_⟩⟩
    simp only [rotate, if_neg hempty, hrow, if_pos hexpired]
  by_cases hconsumed : row.consumed = true
  · refine Or.inr ⟨row, rfl, hempty, Or.inr (Or.inl ⟨hconsumed, ?_⟩)⟩
    simp only [rotate, if_neg hempty, hrow, if_neg hexpired, if_pos hconsumed]
  have hfresh : row.consumed = false := Bool.not_eq_true _ ▸ hconsumed
  by_cases hrand : x.randFails = true
  · refine Or.inl ⟨.randFailed, ?_, ?_⟩
    · simp only [rotate, if_neg hempty, hrow, if_neg hexpired, if_neg hconsumed, if_pos hrand]
    · intro row' hrow' _ _
      rw [← Option.some.inj hrow', hfresh]
  · refine Or.inr ⟨row, rfl, hempty, Or.inr (Or.inr ⟨hfresh, ?_⟩)⟩
    simp only [rotate, if_neg hempty, hrow, if_neg hexpired, if_neg hconsumed, if_neg hrand]
    rfl

theorem step_cases (op : RefreshOp) (x : RefreshChoice) :
    (∃ tenantID, s.step cfg (op, x) = s.issued cfg tenantID x.now) ∨
    (∃ rawToken row, op = .rotate rawToken ∧ row.consumed = false ∧
      s.rows.lookup (cfg.hashRefreshToken rawToken) = some row ∧
      s.step cfg (op, x) = s.exchanged cfg (cfg.hashRefreshToken rawToken) row x.now) ∨
    s.drawn ≤ (s.step cfg (op, x)).drawn ∧ ∀ k row,
      (s.step cfg (op, x)).rows.lookup k = some row → s.rows.lookup k = some row := by
  cases op with
  | issue tenantID =>
    rcases s.issue_cases cfg tenantID x with hissued | ⟨hrows, hdrawn⟩
    · exact Or.inl ⟨tenantID, hissued⟩
    · refine Or.inr (Or.inr ⟨hdrawn, fun k row hrow => ?_⟩)
      rwa [step, hrows] at hrow
  | rotate rawToken =>
    rw [step]
    rcases s.rotate_cases cfg rawToken x with ⟨err, hsame, -⟩ | ⟨row, hrow, -, hcases⟩
    · rw [hsame]
      exact Or.inr (Or.inr ⟨le_rfl, fun _ _ h => h⟩)
    rcases hcases with ⟨-, hgone⟩ | ⟨-, hreuse⟩ | ⟨hfresh, hok⟩
    · rw [hgone]
      refine Or.inr (Or.inr ⟨le_rfl, fun k row' hrow' => ?_⟩)
      simp only [FMap.lookup_erase_ite] at hrow'
      split at hrow'
      · exact absurd hrow' (by simp)
      · exact hrow'
    · rw [hreuse]
      refine Or.inr (Or.inr ⟨le_rfl, fun k row' hrow' => ?_⟩)
      rw [revokeFamily, FMap.lookup_filter, Option.filter_eq_some_iff] at hrow'
      exact hrow'.1
    · exact Or.inr (Or.inl ⟨rawToken, row, rfl, hfresh, hrow, by rw [hok]⟩)
  | revoke rawToken =>
    refine Or.inr (Or.inr ?_)
    rw [step, revoke]
    split
    · exact ⟨le_rfl, fun _ _ h => h⟩
    refine ⟨le_rfl, fun k row' hrow' => ?_⟩
    simp only [FMap.lookup_erase_ite] at hrow'
    split at hrow'
    · exact absurd hrow' (by simp)
    · exact hrow'
  | revokeAllForTenant tenantID => ?_
  refine Or.inr (Or.inr ?_)
  rw [step, revokeAllForTenant]
  split
  · exact ⟨le_rfl, fun _ _ h => h⟩
  · refine ⟨le_rfl, fun k row' hrow' => ?_⟩
    rw [FMap.lookup_filter, Option.filter_eq_some_iff] at hrow'
    exact hrow'.1

theorem drawn_le_step (op : RefreshOp × RefreshChoice) : s.drawn ≤ (s.step cfg op).drawn := by
  rcases s.step_cases cfg op.1 op.2 with ⟨_, hissued⟩ | ⟨_, _, -, -, -, hex⟩ | ⟨hle, -⟩
  · rw [hissued]
    exact Nat.le_add_right _ 2
  · rw [hex]
    exact Nat.le_succ _
  · exact hle

/-! ## 2. A token is exchanged once -/

/-- The rows come from draws; a family has one tenant and at most one token left to exchange. -/
structure Lineage : Prop where
  token : ∀ k row, s.rows.lookup k = some row → s.Drawn cfg k
  family : ∀ k row, s.rows.lookup k = some row →
    ∃ n < s.drawn, row.familyID = cfg.refreshFamilyID n
  tenant : ∀ k k' row row', s.rows.lookup k = some row → s.rows.lookup k' = some row' →
    row.familyID = row'.familyID → row.tenantID = row'.tenantID
  single : ∀ k k' row row', s.rows.lookup k = some row → s.rows.lookup k' = some row' →
    row.familyID = row'.familyID → row.consumed = false → row'.consumed = false → k = k'

variable {cfg s}

theorem Drawn.mono (h : s.Drawn cfg k) (hle : s.drawn ≤ s'.drawn) :
    s'.Drawn cfg k := by
  obtain ⟨n, hn, hk⟩ := h
  exact ⟨n, lt_of_lt_of_le hn hle, hk⟩

theorem Drawn.ne_next (hcfg : cfg.Random) (h : s.Drawn cfg k) {n : Nat}
    (hn : s.drawn ≤ n) : k ≠ cfg.hashRefreshToken (cfg.rawRefreshToken n) := by
  rintro rfl
  obtain ⟨m, hm, hk⟩ := h
  have hsame : n = m := hcfg.tokens hk
  omega

theorem lookup_issued {tenantID : String}
    (h : (s.issued cfg tenantID now).rows.lookup k = some row) :
    (k = cfg.hashRefreshToken (cfg.rawRefreshToken (s.drawn + 1)) ∧
      row = ⟨tenantID, cfg.refreshFamilyID s.drawn, now + cfg.ttl, false⟩) ∨
    s.rows.lookup k = some row := by
  rw [issued, FMap.lookup_insert_ite] at h
  split at h
  · exact Or.inl ⟨‹_›, (Option.some.inj h).symm⟩
  · exact Or.inr h

theorem lookup_exchanged
    (h : (s.exchanged cfg k₀ row₀ now).rows.lookup k = some row) :
    (k = cfg.hashRefreshToken (cfg.rawRefreshToken s.drawn) ∧
      row = ⟨row₀.tenantID, row₀.familyID, now + cfg.ttl, false⟩) ∨
    (k = k₀ ∧ row = { row₀ with consumed := true }) ∨
    k ≠ k₀ ∧ s.rows.lookup k = some row := by
  rw [exchanged, FMap.lookup_insert_ite] at h
  split at h
  · exact Or.inl ⟨‹_›, (Option.some.inj h).symm⟩
  rw [FMap.lookup_insert_ite] at h
  split at h
  · exact Or.inr (Or.inl ⟨‹_›, (Option.some.inj h).symm⟩)
  · exact Or.inr (Or.inr ⟨‹_›, h⟩)

theorem Lineage.issued (hcfg : cfg.Random) (hs : s.Lineage cfg) (tenantID : String) (now : Time) :
    (s.issued cfg tenantID now).Lineage cfg := by
  -- the new family has no row yet
  have hnew : ∀ k row, s.rows.lookup k = some row → row.familyID ≠ cfg.refreshFamilyID s.drawn := by
    intro k row hrow hsame
    obtain ⟨n, hn, hfamily⟩ := hs.family k row hrow
    have heq : n = s.drawn := hcfg.families (hfamily.symm.trans hsame)
    omega
  refine ⟨fun k row hrow => ?_, fun k row hrow => ?_, fun k k' row row' hrow hrow' hsame => ?_,
    fun k k' row row' hrow hrow' hsame hfresh hfresh' => ?_⟩
  · rcases lookup_issued hrow with ⟨rfl, -⟩ | hold
    · exact ⟨s.drawn + 1, by show s.drawn + 1 < s.drawn + 2; omega, rfl⟩
    · exact (hs.token k row hold).mono (by show s.drawn ≤ s.drawn + 2; omega)
  · rcases lookup_issued hrow with ⟨-, rfl⟩ | hold
    · exact ⟨s.drawn, by show s.drawn < s.drawn + 2; omega, rfl⟩
    · obtain ⟨n, hn, hfamily⟩ := hs.family k row hold
      exact ⟨n, by show n < s.drawn + 2; omega, hfamily⟩
  · rcases lookup_issued hrow with ⟨-, rfl⟩ | hold <;>
      rcases lookup_issued hrow' with ⟨-, rfl⟩ | hold'
    · rfl
    · exact absurd hsame.symm (hnew k' row' hold')
    · exact absurd hsame (hnew k row hold)
    · exact hs.tenant k k' row row' hold hold' hsame
  · rcases lookup_issued hrow with ⟨rfl, rfl⟩ | hold <;>
      rcases lookup_issued hrow' with ⟨rfl, rfl⟩ | hold'
    · rfl
    · exact absurd hsame.symm (hnew k' row' hold')
    · exact absurd hsame (hnew k row hold)
    · exact hs.single k k' row row' hold hold' hsame hfresh hfresh'

theorem origin_of_exchanged
    (hrow₀ : s.rows.lookup k₀ = some row₀)
    (h : (s.exchanged cfg k₀ row₀ now).rows.lookup k = some row) :
    ∃ k' row', s.rows.lookup k' = some row' ∧ row.familyID = row'.familyID ∧
      row.tenantID = row'.tenantID := by
  rcases lookup_exchanged h with ⟨-, rfl⟩ | ⟨-, rfl⟩ | ⟨-, hold⟩
  · exact ⟨k₀, row₀, hrow₀, rfl, rfl⟩
  · exact ⟨k₀, row₀, hrow₀, rfl, rfl⟩
  · exact ⟨k, row, hold, rfl, rfl⟩

theorem Lineage.exchanged (hs : s.Lineage cfg)
    (hrow₀ : s.rows.lookup k₀ = some row₀) (hfresh₀ : row₀.consumed = false) (now : Time) :
    (s.exchanged cfg k₀ row₀ now).Lineage cfg := by
  refine ⟨fun k row hrow => ?_, fun k row hrow => ?_, fun k k' row row' hrow hrow' hsame => ?_,
    fun k k' row row' hrow hrow' hsame hfresh hfresh' => ?_⟩
  · rcases lookup_exchanged hrow with ⟨rfl, -⟩ | ⟨rfl, -⟩ | ⟨-, hold⟩
    · exact ⟨s.drawn, Nat.lt_succ_self _, rfl⟩
    · exact (hs.token k row₀ hrow₀).mono (Nat.le_succ _)
    · exact (hs.token k row hold).mono (Nat.le_succ _)
  · obtain ⟨k', row', hrow', hfamily, -⟩ := origin_of_exchanged hrow₀ hrow
    obtain ⟨n, hn, hdrawn⟩ := hs.family k' row' hrow'
    exact ⟨n, Nat.lt_succ_of_lt hn, hfamily.trans hdrawn⟩
  · obtain ⟨k₁, row₁, hrow₁, hfamily, htenant⟩ := origin_of_exchanged hrow₀ hrow
    obtain ⟨k₂, row₂, hrow₂, hfamily', htenant'⟩ := origin_of_exchanged hrow₀ hrow'
    rw [htenant, htenant']
    exact hs.tenant k₁ k₂ row₁ row₂ hrow₁ hrow₂ (hfamily.symm.trans (hsame.trans hfamily'))
  -- the exchanged token was the only one left of its family, and its successor takes its place
  · have hother : ∀ k row, k ≠ k₀ → s.rows.lookup k = some row → row.consumed = false →
        row.familyID ≠ row₀.familyID := by
      intro k row hne hrow hfresh hsame
      exact hne (hs.single k k₀ row row₀ hrow hrow₀ hsame hfresh hfresh₀)
    rcases lookup_exchanged hrow with ⟨rfl, rfl⟩ | ⟨-, rfl⟩ | ⟨hne, hold⟩
    · rcases lookup_exchanged hrow' with ⟨rfl, -⟩ | ⟨-, rfl⟩ | ⟨hne', hold'⟩
      · rfl
      · exact absurd hfresh' (by simp)
      · exact absurd hsame.symm (hother k' row' hne' hold' hfresh')
    · exact absurd hfresh (by simp)
    · rcases lookup_exchanged hrow' with ⟨-, rfl⟩ | ⟨-, rfl⟩ | ⟨-, hold'⟩
      · exact absurd hsame (hother k row hne hold hfresh)
      · exact absurd hfresh' (by simp)
      · exact hs.single k k' row row' hold hold' hsame hfresh hfresh'

theorem Lineage.removed (hs : s.Lineage cfg) (hdrawn : s.drawn ≤ s'.drawn)
    (hrows : ∀ k row, s'.rows.lookup k = some row → s.rows.lookup k = some row) :
    s'.Lineage cfg where
  token k row hrow := (hs.token k row (hrows k row hrow)).mono hdrawn
  family k row hrow := by
    obtain ⟨n, hn, hfamily⟩ := hs.family k row (hrows k row hrow)
    exact ⟨n, lt_of_lt_of_le hn hdrawn, hfamily⟩
  tenant k k' row row' hrow hrow' :=
    hs.tenant k k' row row' (hrows k row hrow) (hrows k' row' hrow')
  single k k' row row' hrow hrow' :=
    hs.single k k' row row' (hrows k row hrow) (hrows k' row' hrow')

theorem Lineage.step (hcfg : cfg.Random) (hs : s.Lineage cfg) (op : RefreshOp × RefreshChoice) :
    (s.step cfg op).Lineage cfg := by
  rcases s.step_cases cfg op.1 op.2 with ⟨tenantID, hissued⟩ | ⟨raw, row, -, hfresh, hrow, hex⟩ |
    ⟨hdrawn, hrows⟩
  · rw [hissued]
    exact hs.issued hcfg tenantID op.2.now
  · rw [hex]
    exact hs.exchanged hrow hfresh op.2.now
  · exact hs.removed hdrawn hrows

theorem Lineage.run (hcfg : cfg.Random) (hs : s.Lineage cfg)
    (ops : List (RefreshOp × RefreshChoice)) : (s.run cfg ops).Lineage cfg := by
  induction ops generalizing s with
  | nil => exact hs
  | cons op ops ih => exact ih (hs.step hcfg op)

theorem lineage_empty : ({} : RefreshStore).Lineage cfg := by
  refine ⟨fun k row h => ?_, fun k row h => ?_, fun k k' row row' h => ?_, fun k k' row row' h => ?_⟩
  all_goals exact absurd h (by rw [Finmap.lookup_empty]; simp)

/-- The token with this hash has been drawn and is not to be exchanged any more. -/
structure Spent (cfg : RefreshConfig) (s : RefreshStore) (k : String) : Prop where
  drawn : s.Drawn cfg k
  consumed : ∀ row, s.rows.lookup k = some row → row.consumed = true

theorem Spent.step (hcfg : cfg.Random) (hk : Spent cfg s k)
    (op : RefreshOp × RefreshChoice) : Spent cfg (s.step cfg op) k := by
  rcases s.step_cases cfg op.1 op.2 with ⟨tenantID, hissued⟩ | ⟨raw, row, -, hfresh, hrow, hex⟩ |
    ⟨hdrawn, hrows⟩
  · rw [hissued]
    refine ⟨hk.drawn.mono (by show s.drawn ≤ s.drawn + 2; omega), fun row hrow => ?_⟩
    rcases lookup_issued hrow with ⟨hnext, -⟩ | hold
    · exact absurd hnext (hk.drawn.ne_next hcfg (Nat.le_succ _))
    · exact hk.consumed row hold
  · rw [hex]
    refine ⟨hk.drawn.mono (Nat.le_succ _), fun row' hrow' => ?_⟩
    rcases lookup_exchanged hrow' with ⟨hnext, -⟩ | ⟨-, rfl⟩ | ⟨-, hold⟩
    · exact absurd hnext (hk.drawn.ne_next hcfg le_rfl)
    · rfl
    · exact hk.consumed row' hold
  · exact ⟨hk.drawn.mono hdrawn, fun row hrow => hk.consumed row (hrows k row hrow)⟩

theorem Spent.run (hcfg : cfg.Random) (hk : Spent cfg s k)
    (ops : List (RefreshOp × RefreshChoice)) : Spent cfg (s.run cfg ops) k := by
  induction ops generalizing s with
  | nil => exact hk
  | cons op ops ih => exact ih (hk.step hcfg op)

theorem exchanged_of_ok {tok : RefreshToken}
    (h : (s.rotate cfg rawToken x).1 = .ok tok) :
    ∃ row, s.rows.lookup (cfg.hashRefreshToken rawToken) = some row ∧ rawToken ≠ "" ∧
      row.consumed = false ∧
      (s.rotate cfg rawToken x).2 = s.exchanged cfg (cfg.hashRefreshToken rawToken) row x.now := by
  rcases s.rotate_cases cfg rawToken x with ⟨err, hsame, -⟩ | ⟨row, hrow, hne, hcases⟩
  · rw [hsame] at h
    exact absurd h (by simp)
  rcases hcases with ⟨-, hgone⟩ | ⟨-, hreuse⟩ | ⟨hfresh, hok⟩
  · rw [hgone] at h
    exact absurd h (by simp)
  · rw [hreuse] at h
    exact absurd h (by simp)
  · exact ⟨row, hrow, hne, hfresh, by rw [hok]⟩

theorem exchanged_fresh {tok : RefreshToken}
    (h : (s.rotate cfg rawToken x).1 = .ok tok)
    (hrow : s.rows.lookup (cfg.hashRefreshToken rawToken) = some row) : row.consumed = false := by
  obtain ⟨row', hrow', -, hfresh, -⟩ := exchanged_of_ok h
  rwa [← Option.some.inj (hrow'.symm.trans hrow)]

theorem Spent.not_ok (hk : Spent cfg s (cfg.hashRefreshToken rawToken))
    (x : RefreshChoice) (tok : RefreshToken) : (s.rotate cfg rawToken x).1 ≠ .ok tok := by
  intro hok
  obtain ⟨row, hrow, -, hfresh, -⟩ := exchanged_of_ok hok
  rw [hk.consumed row hrow] at hfresh
  exact absurd hfresh (by simp)

theorem spent_of_exchanged (hs : s.Lineage cfg) (hcfg : cfg.Random)
    (hrow : s.rows.lookup k = some row) (now : Time) : Spent cfg (s.exchanged cfg k row now) k := by
  have hdrawn := hs.token k row hrow
  refine ⟨hdrawn.mono (Nat.le_succ _), fun row' hrow' => ?_⟩
  rcases lookup_exchanged hrow' with ⟨hnext, -⟩ | ⟨-, rfl⟩ | ⟨hne, -⟩
  · exact absurd hnext (hdrawn.ne_next hcfg le_rfl)
  · rfl
  · exact absurd rfl hne

/-! ## 3. Reuse is noticed while the consumed row is there -/

def FamilyGone (s : RefreshStore) (familyID : String) : Prop :=
  ∀ k row, s.rows.lookup k = some row → row.familyID ≠ familyID

/-- A consumed row still speaks for the family of `row`, or the family is gone. -/
def Watched (s : RefreshStore) (k : String) (row : RefreshRow) : Prop :=
  s.rows.lookup k = some { row with consumed := true } ∨ s.FamilyGone row.familyID

/-- `Revoke` is not called with a token that has been exchanged. -/
def RevokesUnused (cfg : RefreshConfig) : RefreshStore → List (RefreshOp × RefreshChoice) → Prop
  | _, [] => True
  | s, op :: ops =>
    (∀ rawToken row, op.1 = .revoke rawToken →
      s.rows.lookup (cfg.hashRefreshToken rawToken) = some row → row.consumed = false) ∧
    RevokesUnused cfg (s.step cfg op) ops

theorem familyGone_revokeFamily (familyID : String) :
    (s.revokeFamily familyID).FamilyGone familyID := by
  intro k row hrow
  rw [revokeFamily, FMap.lookup_filter, Option.filter_eq_some_iff] at hrow
  exact of_decide_eq_true hrow.2

theorem FamilyGone.removed {familyID : String} (h : s.FamilyGone familyID)
    (hrows : ∀ k row, s'.rows.lookup k = some row → s.rows.lookup k = some row) :
    s'.FamilyGone familyID :=
  fun k row hrow => h k row (hrows k row hrow)

theorem FamilyGone.step (hcfg : cfg.Random) {familyID : String} (h : s.FamilyGone familyID)
    (hdrawn : ∃ n < s.drawn, familyID = cfg.refreshFamilyID n) (op : RefreshOp × RefreshChoice) :
    (s.step cfg op).FamilyGone familyID := by
  rcases s.step_cases cfg op.1 op.2 with ⟨tenantID, hissued⟩ | ⟨raw, row, -, -, hrow, hex⟩ |
    ⟨-, hrows⟩
  · rw [hissued]
    intro k row hrow hsame
    rcases lookup_issued hrow with ⟨-, rfl⟩ | hold
    · obtain ⟨n, hn, hfamily⟩ := hdrawn
      have heq : s.drawn = n := hcfg.families (hsame.trans hfamily)
      omega
    · exact h k row hold hsame
  · rw [hex]
    intro k row' hrow' hsame
    obtain ⟨k₀, row₀, hrow₀, hfamily, -⟩ := origin_of_exchanged hrow hrow'
    exact h k₀ row₀ hrow₀ (hfamily.symm.trans hsame)
  · exact h.removed hrows

theorem Watched.step (hcfg : cfg.Random) (hs : s.Lineage cfg)
    (hk : s.Drawn cfg k) (hdrawn : ∃ n < s.drawn, row.familyID = cfg.refreshFamilyID n)
    (h : s.Watched k row) {op : RefreshOp × RefreshChoice} (hnow : op.2.now < row.expiresAt)
    (hunused : ∀ rawToken row, op.1 = .revoke rawToken →
      s.rows.lookup (cfg.hashRefreshToken rawToken) = some row → row.consumed = false) :
    (s.step cfg op).Watched k row := by
  rcases h with hrow | hgone
  swap
  · exact Or.inr (hgone.step hcfg hdrawn op)
  obtain ⟨op, x⟩ := op
  cases op with
  | issue tenantID =>
    left
    rw [RefreshStore.step]
    rcases s.issue_cases cfg tenantID x with hissued | ⟨hrows, -⟩
    · rw [hissued, RefreshStore.issued, FMap.lookup_insert_ite,
        if_neg (hk.ne_next hcfg (Nat.le_succ _)), hrow]
    · rw [hrows, hrow]
  | rotate rawToken =>
    rw [RefreshStore.step]
    rcases s.rotate_cases cfg rawToken x with ⟨err, hsame, -⟩ | ⟨row', hrow', -, hcases⟩
    · rw [hsame]
      exact Or.inl hrow
    rcases hcases with ⟨hexpired, hgone⟩ | ⟨-, hreuse⟩ | ⟨hfresh, hok⟩
    · -- an expired row is another one
      have hne : k ≠ cfg.hashRefreshToken rawToken := by
        rintro rfl
        rw [hrow] at hrow'
        obtain rfl := Option.some.inj hrow'
        exact absurd hnow (not_lt.mpr hexpired)
      rw [hgone]
      left
      rw [FMap.lookup_erase_ite, if_neg hne, hrow]
    · rw [hreuse]
      by_cases hfamily : row.familyID = row'.familyID
      · right
        rw [hfamily]
        exact familyGone_revokeFamily row'.familyID
      · left
        rw [revokeFamily, FMap.lookup_filter, hrow, Option.filter_some,
          if_pos (decide_eq_true hfamily)]
    · have hne : k ≠ cfg.hashRefreshToken rawToken := by
        rintro rfl
        rw [hrow] at hrow'
        obtain rfl := Option.some.inj hrow'
        exact absurd hfresh (by simp)
      rw [hok]
      left
      rw [RefreshStore.exchanged, FMap.lookup_insert_ite, if_neg (hk.ne_next hcfg le_rfl),
        FMap.lookup_insert_ite, if_neg hne, hrow]
  | revoke rawToken =>
    left
    rw [RefreshStore.step, revoke]
    split
    · exact hrow
    have hne : k ≠ cfg.hashRefreshToken rawToken := by
      rintro rfl
      exact absurd (hunused rawToken _ rfl hrow) (by simp)
    rw [FMap.lookup_erase_ite, if_neg hne, hrow]
  | revokeAllForTenant tenantID => ?_
  rw [RefreshStore.step, revokeAllForTenant]
  split
  · exact Or.inl hrow
  by_cases htenant : row.tenantID = tenantID
  · -- the whole family is the tenant's
    right
    intro k' row' hrow' hsame
    rw [FMap.lookup_filter, Option.filter_eq_some_iff] at hrow'
    have hother : row'.tenantID ≠ tenantID := of_decide_eq_true hrow'.2
    exact hother ((hs.tenant k' k row' _ hrow'.1 hrow hsame).trans htenant)
  · left
    rw [FMap.lookup_filter, hrow, Option.filter_some, if_pos (decide_eq_true htenant)]

theorem Watched.run (hcfg : cfg.Random) (hs : s.Lineage cfg)
    (hk : s.Drawn cfg k) (hdrawn : ∃ n < s.drawn, row.familyID = cfg.refreshFamilyID n)
    (h : s.Watched k row) (ops : List (RefreshOp × RefreshChoice))
    (hnow : ∀ op ∈ ops, op.2.now < row.expiresAt) (hunused : RevokesUnused cfg s ops) :
    (s.run cfg ops).Watched k row := by
  induction ops generalizing s with
  | nil => exact h
  | cons op ops ih => ?_
  have hle := s.drawn_le_step cfg op
  obtain ⟨n, hn, hfamily⟩ := hdrawn
  exact ih (hs.step hcfg op) (hk.mono hle) ⟨n, lt_of_lt_of_le hn hle, hfamily⟩
    (h.step hcfg hs hk ⟨n, hn, hfamily⟩ (hnow op (List.mem_cons_self ..)) hunused.1)
    (fun op' hop' => hnow op' (List.mem_cons_of_mem _ hop')) hunused.2

theorem Watched.familyGone (hcfg : cfg.Random)
    (hdrawn : ∃ n < s.drawn, row.familyID = cfg.refreshFamilyID n)
    (h : s.Watched (cfg.hashRefreshToken rawToken) row) (hne : rawToken ≠ "")
    (hnow : x.now < row.expiresAt) : (s.rotate cfg rawToken x).2.FamilyGone row.familyID := by
  rcases h with hrow | hgone
  swap
  · exact hgone.step hcfg hdrawn (.rotate rawToken, x)
  rcases s.rotate_cases cfg rawToken x with ⟨err, -, hfresh⟩ | ⟨row', hrow', -, hcases⟩
  · exact absurd (hfresh _ hrow hne hnow) (by simp)
  obtain rfl := Option.some.inj (hrow.symm.trans hrow')
  rcases hcases with ⟨hexpired, -⟩ | ⟨-, hreuse⟩ | ⟨hfresh, -⟩
  · exact absurd hnow (not_lt.mpr hexpired)
  · rw [hreuse]
    exact familyGone_revokeFamily row.familyID
  · exact absurd hfresh (by simp)

def OneLeft (s : RefreshStore) : Prop :=
  ∀ k k' row row', s.rows.lookup k = some row → s.rows.lookup k' = some row' →
    row.familyID = row'.familyID → row.consumed = false → row'.consumed = false → k = k'

theorem run_append (ops ops' : List (RefreshOp × RefreshChoice)) :
    s.run cfg (ops ++ ops') = (s.run cfg ops).run cfg ops' := List.foldl_append

theorem drawn_le_run (ops : List (RefreshOp × RefreshChoice)) :
    s.drawn ≤ (s.run cfg ops).drawn := by
  induction ops generalizing s with
  | nil => exact le_rfl
  | cons op ops ih => exact le_trans (s.drawn_le_step cfg op) ih

theorem revokesUnused_append {ops ops' : List (RefreshOp × RefreshChoice)}
    (h : RevokesUnused cfg s (ops ++ ops')) : RevokesUnused cfg (s.run cfg ops) ops' := by
  induction ops generalizing s with
  | nil => exact h
  | cons op ops ih => exact ih h.2

def Refused (cfg : RefreshConfig) (s : RefreshStore) (rawToken : String) : Prop :=
  ∀ x tok, (s.rotate cfg rawToken x).1 ≠ .ok tok

variable (cfg) in
/-- Over every sequence of operations on a new store: a family has at most one token to exchange; a
token that has been exchanged is not exchanged again; and presented again before its time is up
it takes its family with it, as long as no exchanged token has been revoked. -/
theorem refresh_tokens_used_once (hcfg : cfg.Random) (ops : List (RefreshOp × RefreshChoice)) :
    (({} : RefreshStore).run cfg ops).OneLeft ∧
    ∀ before rawToken x tok after, ops = before ++ (.rotate rawToken, x) :: after →
      ((({} : RefreshStore).run cfg before).rotate cfg rawToken x).1 = .ok tok →
      (({} : RefreshStore).run cfg ops).Refused cfg rawToken ∧
      (RevokesUnused cfg {} ops → ∀ row y,
        (({} : RefreshStore).run cfg before).rows.lookup (cfg.hashRefreshToken rawToken) =
          some row →
        (ops.map (fun op => op.2.now) ++ [y.now]).Pairwise (· ≤ ·) → y.now < row.expiresAt →
        ((({} : RefreshStore).run cfg ops).rotate cfg rawToken y).2.FamilyGone row.familyID) := by
  refine ⟨(lineage_empty.run hcfg ops).single, fun before rawToken x tok after hops hok => ?_⟩
  obtain ⟨row, hrow, hne, -, hex⟩ := exchanged_of_ok hok
  have hlineage : (({} : RefreshStore).run cfg before).Lineage cfg := lineage_empty.run hcfg before
  have hrun : ({} : RefreshStore).run cfg ops =
      ((({} : RefreshStore).run cfg before).exchanged cfg (cfg.hashRefreshToken rawToken) row
        x.now).run cfg after := by
    rw [hops, run_append, ← hex]
    rfl
  have hspent := spent_of_exchanged hlineage hcfg hrow x.now
  refine ⟨fun y tok' => ?_, fun hunused row' y hrow' hclock hnow => ?_⟩
  · rw [hrun]
    exact (hspent.run hcfg after).not_ok y tok'
  obtain rfl := Option.some.inj (hrow.symm.trans hrow')
  have hlineage' := hlineage.exchanged hrow (exchanged_fresh hok hrow) x.now
  -- the consumed row is there right after the exchange
  have hkept : ((({} : RefreshStore).run cfg before).exchanged cfg (cfg.hashRefreshToken rawToken)
      row x.now).rows.lookup (cfg.hashRefreshToken rawToken) =
        some { row with consumed := true } := by
    rw [exchanged, FMap.lookup_insert_ite,
      if_neg ((hlineage.token _ row hrow).ne_next hcfg le_rfl), FMap.lookup_insert_ite, if_pos rfl]
  have hfamily := hlineage'.family _ _ hkept
  have hafter : ∀ op ∈ after, op.2.now < row.expiresAt := by
    intro op hop
    have hmem : op.2.now ∈ ops.map fun op => op.2.now := by
      rw [hops]
      exact List.mem_map.mpr ⟨op, by simp [hop], rfl⟩
    exact lt_of_le_of_lt ((List.pairwise_append.mp hclock).2.2 _ hmem _ (by simp)) hnow
  have hwatched := Watched.run hcfg hlineage' hspent.drawn hfamily (Or.inl hkept) after hafter
    (by
      rw [hops] at hunused
      have hrest := (revokesUnused_append hunused).2
      rwa [step, hex] at hrest)
  rw [hrun]
  apply hwatched.familyGone hcfg _ hne hnow
  obtain ⟨n, hn, hdrawn⟩ := hfamily
  exact ⟨n, lt_of_lt_of_le hn (drawn_le_run after), hdrawn⟩

/-! ## 4. A stolen token -/

/-- Tokens `t`, `tt`, … in the order of the draws, with the SHA-256 of those that are used. -/
def sampleRefresh : RefreshConfig where
  hashRefreshToken s :=
    Equiv.swap "tt" "0e07cf830957701d43c183f1515f63e6b68027e528f43ef52b1527a520ddec82"
      (Equiv.swap "ttt" "3f7c54571faee024e3fd68603c5c95f6a4c8ef73a398840b974f3f57737a116f"
        (Equiv.swap "tttt" "b23fcb8820e567d1143f4a15cfeaf04ba660bafd89eeb496e99ffd8bd1079f71" s))
  rawRefreshToken n := String.ofList (List.replicate (n + 1) 't')
  refreshFamilyID n := String.ofList (List.replicate (n + 1) 'f')

theorem sampleRefresh_random : sampleRefresh.Random where
  tokens n m h := by
    have hraw := (Equiv.swap _ _).injective ((Equiv.swap _ _).injective
      ((Equiv.swap _ _).injective h))
    simpa using congrArg List.length (String.ofList_injective hraw)
  families n m h := by
    simpa using congrArg List.length (String.ofList_injective h)

/-- A login, an exchange of its token, and a logout with the token that was exchanged. -/
def staleLogout : List (RefreshOp × RefreshChoice) :=
  [(.issue "tenant", {}), (.rotate "tt", {}), (.revoke "tt", {})]

/-- The exchanged token is presented again and nothing is noticed: its successor is exchanged. -/
theorem reuse_unnoticed_after_revoke :
    ((({} : RefreshStore).run sampleRefresh [(.issue "tenant", {})]).rotate sampleRefresh
      "tt" {}).1 = .ok ⟨"ttt", "tenant", 30 * nanosPerDay⟩ ∧
    ((({} : RefreshStore).run sampleRefresh staleLogout).rotate sampleRefresh "tt" {}).1 =
      .error .invalid ∧
    (((({} : RefreshStore).run sampleRefresh staleLogout).rotate sampleRefresh "tt" {}).2.rotate
      sampleRefresh "ttt" {}).1 = .ok ⟨"tttt", "tenant", 30 * nanosPerDay⟩ := by
  decide +kernel

def exchangeOps : List (RefreshOp × RefreshChoice) := [(.issue "tenant", {}), (.rotate "tt", {})]

/-- Without the logout the second use of the token ends the session. -/
theorem reuse_noticed :
    (({} : RefreshStore).run sampleRefresh exchangeOps).OneLeft ∧
    (({} : RefreshStore).run sampleRefresh exchangeOps).Refused sampleRefresh "tt" ∧
    ((({} : RefreshStore).run sampleRefresh exchangeOps).rotate sampleRefresh "tt"
      {}).2.FamilyGone "f" := by
  obtain ⟨hone, hused⟩ :=
    refresh_tokens_used_once sampleRefresh sampleRefresh_random exchangeOps
  obtain ⟨hrefused, hgone⟩ := hused [(.issue "tenant", {})] "tt" {}
    ⟨"ttt", "tenant", 30 * nanosPerDay⟩ [] rfl (by decide +kernel)
  refine ⟨hone, hrefused, hgone ?_ ⟨"tenant", "f", 30 * nanosPerDay, false⟩ {} ?_ ?_ ?_⟩
  · refine ⟨fun _ _ h => ?_, fun _ _ h => ?_, trivial⟩ <;> exact absurd h (by simp)
  · decide +kernel
  · decide
  · decide

end RefreshStore

end ObjectFabric
