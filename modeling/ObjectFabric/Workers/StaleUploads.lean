import ObjectFabric.FirstMatch
import ObjectFabric.Gateway.Multipart
import ObjectFabric.Gateway.Sample
import ObjectFabric.Workers.Evaluator

/-!
# StaleUploads — the multipart half of the lifecycle pass

`abortStaleUploads` and `matchingAbortRule` of `lifecycle/evaluator/evaluator.go`.  The age of an
upload is compared with the one rule that the search by prefix found first.
-/

namespace ObjectFabric

open Interleaving

section

variable (cfg : Config) (rules : List LifecycleRule) (now : Time)

def prefixMatches (keyPrefix key : String) : Bool := keyPrefix.toList.isPrefixOf key.toList

def LifecycleRule.abortApplies (r : LifecycleRule) (u : Upload) : Bool :=
  r.enabled && (r.abortStaleBefore now).isSome && prefixMatches r.filter.keyPrefix u.objectKey

def matchingAbortRule (u : Upload) : Option LifecycleRule := rules.find? (·.abortApplies now u)

/-- Whether the upload has reached the abort age of the rule; an upload without a time has no age. -/
def LifecycleRule.abortReached (r : LifecycleRule) (u : Upload) : Bool :=
  u.createdAt ≠ 0 && (r.abortStaleBefore now).any (u.createdAt ≤ ·)

def abortStaleUpload (u : Upload) (stats : LifecycleStats) : Proc Call LifecycleStats :=
  match matchingAbortRule rules now u with
  | none => return stats
  | some rule =>
    if rule.abortReached now u then do
      match ← ask (.uploadTakeForAbort u.id u.tenantID) with
      | .error .uploadNotFound => return stats
      | .error _ => return { stats with errors := stats.errors + 1 }
      | .ok _ =>
        let parts ← ask (.uploadParts u.id)
        deleteUploadedParts cfg (parts.filter fun p => p.pieceID ≠ "")
        return { stats with uploadsAborted := stats.uploadsAborted + 1 }
    else
      return stats

def abortStaleUploads : List Upload → LifecycleStats → Proc Call LifecycleStats
  | [], stats => return stats
  | u :: us, stats => do
    let stats ← abortStaleUpload cfg rules now u stats
    abortStaleUploads us stats

/-! ## Rules behind the first match -/

/-- Some enabled rule for the upload's key has an age that the upload has reached. -/
def AbortDue (u : Upload) : Prop := ∃ r ∈ rules, r.abortApplies now u ∧ r.abortReached now u

/-- The first rule for the upload's key is not reached and one behind it is. -/
def AbortShadowed (u : Upload) : Prop :=
  FirstMatch.Shadowed (·.abortApplies now u) (·.abortReached now u) rules

def takesForAbort (uploadID : String) {β : Type} : Call β → Prop
  | .uploadTakeForAbort id _ => id = uploadID
  | _ => False

variable {cfg rules now} {σ χ : Type} {m : Machine Call σ χ} {x : Nat → χ} {s : σ} {h : History Call}

theorem abortStaleUpload_made_iff (u : Upload) (stats : LifecycleStats) (uploadID : String) :
    (∃ e ∈ ((abortStaleUpload cfg rules now u stats).run m x h s).2.1,
        takesForAbort uploadID e.call) ↔
      (∃ e ∈ h, takesForAbort uploadID e.call) ∨
        (matchingAbortRule rules now u).any (·.abortReached now u) = true ∧ u.id = uploadID := by
  unfold abortStaleUpload
  rcases matchingAbortRule rules now u with _ | rule
  · simp [Proc.run]
  by_cases hreached : rule.abortReached now u = true
  · simp only [hreached, if_true, Option.any_some, true_and, Proc.bind_eq, ask, Proc.call_bind,
      Proc.ret_bind, Proc.run]
    -- what follows the abort makes no other abort
    refine (Proc.Only.made_iff ?_).trans (by simp [takesForAbort, or_comm])
    split
    · trivial
    · trivial
    · exact ⟨id, fun parts => (deleteUploadedParts_only cfg (fun _ => id) _).bind fun _ => trivial⟩
  · simp [hreached, Proc.run]

theorem abortStaleUploads_made_iff (us : List Upload) (stats : LifecycleStats) (uploadID : String) :
    (∃ e ∈ ((abortStaleUploads cfg rules now us stats).run m x h s).2.1,
        takesForAbort uploadID e.call) ↔
      (∃ e ∈ h, takesForAbort uploadID e.call) ∨ ∃ u ∈ us,
        (matchingAbortRule rules now u).any (·.abortReached now u) = true ∧ u.id = uploadID := by
  induction us generalizing x h s stats with
  | nil => simp [abortStaleUploads, Proc.run]
  | cons u us ih => ?_
  rcases Proc.run_bind m x (abortStaleUpload cfg rules now u stats)
    (fun stats => abortStaleUploads cfg rules now us stats) h s with ⟨y, hrun⟩
  show (∃ e ∈ ((Proc.bind _ _).run m x h s).2.1, _) ↔ _
  rw [hrun, ih, abortStaleUpload_made_iff, or_assoc]
  simp only [List.mem_cons, exists_eq_or_imp]

/-- Whatever the calls answer, the pass takes a listed upload for abortion when a rule makes that
due, and only then, exactly if no rule that makes it due is shadowed. -/
theorem stale_upload_aborted_iff {us : List Upload} {u : Upload} (hu : u ∈ us)
    (hids : ∀ u' ∈ us, u'.id = u.id → u' = u) (stats : LifecycleStats) :
    ((∃ e ∈ ((abortStaleUploads cfg rules now us stats).run m x [] s).2.1, takesForAbort u.id e.call) ↔
        AbortDue rules now u) ↔
      ¬ AbortShadowed rules now u := by
  refine Iff.trans (iff_congr ?_ Iff.rfl) FirstMatch.find?_any_iff
  rw [abortStaleUploads_made_iff]
  refine ⟨?_, fun hany => Or.inr ⟨u, hu, hany, rfl⟩⟩
  rintro (⟨e, he, -⟩ | ⟨u', hu', hany, hid⟩)
  · cases he
  · rwa [← hids u' hu' hid]

end

def abortAfter (days : Int) : LifecycleRule := { status := "Enabled", abortDays := some days }

def tenDaysOld : Upload :=
  { id := "u", tenantID := "t", bucket := "b", objectKey := "k", backend := "",
    createdAt := daysFromCivil 2024 1 1 * nanosPerDay }

def elevenJanuary : Time := daysFromCivil 2024 1 11 * nanosPerDay

/-- An upload of ten days is kept when the rule for thirty days stands before the one for seven. -/
theorem stale_upload_kept_by_order :
    abortStaleUploads sampleGateway [abortAfter 30, abortAfter 7] elevenJanuary [tenDaysOld] {} =
        .ret {} ∧
      (abortAfter 7).abortApplies elevenJanuary tenDaysOld = true ∧
      (abortAfter 7).abortReached elevenJanuary tenDaysOld = true :=
  ⟨rfl, by decide⟩

theorem stale_upload_one_rule :
    ((∃ e ∈ ((abortStaleUploads sampleGateway [abortAfter 7] elevenJanuary [tenDaysOld] {}).run
          (machine fun _ => none) (fun _ => {}) [] {}).2.1, takesForAbort "u" e.call) ↔
        AbortDue [abortAfter 7] elevenJanuary tenDaysOld) ↔
      ¬ AbortShadowed [abortAfter 7] elevenJanuary tenDaysOld :=
  stale_upload_aborted_iff List.mem_cons_self (by simp) {}

end ObjectFabric
