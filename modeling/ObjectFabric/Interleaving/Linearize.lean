import ObjectFabric.Interleaving.Pool

/-!
# Linearize — runs whose effects fall on single steps

`abs` is the part of the shared state the threads' operations are about, and `op i h` is what the
operation of thread `i` does to it in one go, where `h` are the calls it made (for the values it
drew, such as a clock reading).  When a step either changes nothing and does not make its thread
answer with success, or performs the whole operation and is the thread's last one, then the run is
linearizable: the final value is that of the successful operations applied one after another, in an
order that respects the order of those that do not overlap.
-/

namespace Interleaving

variable {E : Type → Type} {α σ χ A : Type}

variable {i : Nat} {β : Type}

namespace Pool

/-- Thread `i` has finished with an answer that `ack` accepts. -/
def Acked (ack : α → Bool) (P : Pool E α σ) (i : Nat) : Prop :=
  ∃ t a, P.threads[i]? = some t ∧ t.rest = .ret a ∧ ack a = true

/-- Thread `i` has made no call yet. -/
def Unstarted (P : Pool E α σ) (i : Nat) : Prop := ∀ t, P.threads[i]? = some t → t.past = []

/-- At some point of the run thread `i` had finished and thread `j` had not started. -/
def Precedes (m : Machine E σ χ) (P : Pool E α σ) (mvs : List (Nat × χ)) (i j : Nat) : Prop :=
  ∃ l l', mvs = l ++ l' ∧
    (∃ t a, (P.run m l).threads[i]? = some t ∧ t.rest = .ret a) ∧ (P.run m l).Unstarted j

/-- The calls thread `i` has made. -/
def pastOf (P : Pool E α σ) (i : Nat) : History E := (P.threads[i]?.map Thread.past).getD []

/-- Apply the operations of the threads in `order`, each with the calls it made in `P`. -/
def applyInOrder (op : Nat → History E → A → Option A) (P : Pool E α σ) (order : List Nat)
    (a : A) : Option A :=
  order.foldlM (fun a i => op i (P.pastOf i) a) a

def EffectOrSilent (m : Machine E σ χ) (abs : σ → A) (op : Nat → History E → A → Option A)
    (ack : α → Bool) (P : Pool E α σ) (mv : Nat × χ) : Prop :=
  ∀ (past : History E) (β : Type) (c : E β) (k : β → Proc E α),
    P.threads[mv.1]? = some ⟨past, .call c k⟩ →
      let r := m.exec mv.2 c P.shared
      ((∃ a, k r.1 = .ret a ∧ ack a = true) ∧
        op mv.1 (⟨c, r.1⟩ :: past) (abs P.shared) = some (abs r.2)) ∨
      (¬ (∃ a, k r.1 = .ret a ∧ ack a = true) ∧ abs r.2 = abs P.shared)

structure Linearized (m : Machine E σ χ) (abs : σ → A) (op : Nat → History E → A → Option A)
    (ack : α → Bool) (P : Pool E α σ) (mvs : List (Nat × χ)) (order : List Nat) : Prop where
  nodup : order.Nodup
  complete : ∀ i, i ∈ order ↔ (P.run m mvs).Acked ack i
  real_time : order.Pairwise fun i j => ¬ P.Precedes m mvs j i
  result : (P.run m mvs).applyInOrder op order (abs P.shared) = some (abs (P.run m mvs).shared)

/-! ## 1. How one step changes what threads have done -/

theorem threads_step_of_ne (m : Machine E σ χ) (P : Pool E α σ) (mv : Nat × χ)
    (hi : i ≠ mv.1) : (P.step m mv).threads[i]? = P.threads[i]? := by
  rcases P.step_cases m mv with hstep | ⟨past, β, c, k, hmv, hstep⟩
  · rw [hstep]
  · rw [hstep]
    exact List.getElem?_set_ne (Ne.symm hi)

theorem threads_step_of_ret (m : Machine E σ χ) (P : Pool E α σ) (mv : Nat × χ)
    {t : Thread E α} {a : α} (ht : P.threads[i]? = some t) (ha : t.rest = .ret a) :
    (P.step m mv).threads[i]? = some t := by
  by_cases hi : i = mv.1
  · rcases P.step_cases m mv with hstep | ⟨past, β, c, k, hmv, -⟩
    · rw [hstep, ht]
    · rw [hi, hmv] at ht
      obtain rfl := Option.some.inj ht
      cases ha
  · rw [threads_step_of_ne m P mv hi, ht]

theorem precedes_snoc {m : Machine E σ χ} {P : Pool E α σ} {mvs : List (Nat × χ)} {mv : Nat × χ}
    {i j : Nat} (h : P.Precedes m (mvs ++ [mv]) i j) :
    P.Precedes m mvs i j ∨
      (∃ t a, (P.run m (mvs ++ [mv])).threads[i]? = some t ∧ t.rest = .ret a) ∧
        (P.run m (mvs ++ [mv])).Unstarted j := by
  obtain ⟨l, l', hl, hfin, hun⟩ := h
  rcases List.eq_nil_or_concat l' with hnil | ⟨l'', mv', hconcat⟩
  · rw [hnil, List.append_nil] at hl
    rw [hl]
    exact Or.inr ⟨hfin, hun⟩
  · rw [hconcat, List.concat_eq_append, ← List.append_assoc] at hl
    exact Or.inl ⟨l, l'', (List.append_inj' hl rfl).1, hfin, hun⟩

theorem pastOf_eq {P P' : Pool E α σ} (h : P.threads[i]? = P'.threads[i]?) :
    P.pastOf i = P'.pastOf i := by
  unfold pastOf
  rw [h]

theorem pastOf_start {s : σ} {ps : List (Proc E α)} (i : Nat) : (start s ps).pastOf i = [] := by
  unfold pastOf
  cases ht : (start s ps).threads[i]? with
  | none => rfl
  | some t => exact past_start ht

theorem pastOf_step {m : Machine E σ χ} {P : Pool E α σ} {mv : Nat × χ} {past : History E}
    {c : E β} {k : β → Proc E α} (hmv : P.threads[mv.1]? = some ⟨past, .call c k⟩)
    (i : Nat) :
    (P.step m mv).pastOf i =
      if i = mv.1 then ⟨c, (m.exec mv.2 c P.shared).1⟩ :: past else P.pastOf i := by
  by_cases hi : i = mv.1
  · have hlt : mv.1 < P.threads.length := (List.getElem?_eq_some_iff.mp hmv).1
    unfold pastOf step
    rw [if_pos hi, hmv, hi]
    simp [List.getElem?_set_self hlt]
  · rw [if_neg hi]
    exact pastOf_eq (threads_step_of_ne m P mv hi)

theorem applyInOrder_congr {op : Nat → History E → A → Option A} {P P' : Pool E α σ}
    {order : List Nat} (h : ∀ i ∈ order, P.pastOf i = P'.pastOf i) (a : A) :
    P.applyInOrder op order a = P'.applyInOrder op order a := by
  unfold applyInOrder
  induction order generalizing a with
  | nil => rfl
  | cons i is ih => ?_
  rw [List.foldlM_cons, List.foldlM_cons, h i List.mem_cons_self]
  congr 1
  funext b
  exact ih (fun j hj => h j (List.mem_cons_of_mem i hj)) b

theorem threads_run_of_ret (m : Machine E σ χ) (P : Pool E α σ) (mvs : List (Nat × χ))
    {t : Thread E α} {a : α} (ht : P.threads[i]? = some t) (ha : t.rest = .ret a) :
    (P.run m mvs).threads[i]? = some t := by
  induction mvs generalizing P with
  | nil => exact ht
  | cons mv mvs ih => exact ih (P.step m mv) (threads_step_of_ret m P mv ht ha)

theorem not_acked_of_call {ack : α → Bool} {P : Pool E α σ} {past : History E}
    {c : E β} {k : β → Proc E α} (hi : P.threads[i]? = some ⟨past, .call c k⟩) :
    ¬ P.Acked ack i := by
  rintro ⟨t, a, ht, ha, -⟩
  rw [hi] at ht
  obtain rfl := Option.some.inj ht
  cases ha

theorem not_unstarted_of_acked {m : Machine E σ χ} {ack : α → Bool} {P : Pool E α σ}
    (h0 : ∀ i, ¬ P.Acked ack i) (mvs : List (Nat × χ))
    (h : (P.run m mvs).Acked ack i) : ¬ (P.run m mvs).Unstarted i := by
  induction mvs using List.reverseRecOn with
  | nil => exact absurd h (h0 i)
  | append_singleton mvs mv ih => ?_
  rw [run_append] at h ⊢
  change ((P.run m mvs).step m mv).Acked ack i at h
  change ¬ ((P.run m mvs).step m mv).Unstarted i
  rcases (P.run m mvs).step_cases m mv with hstep | ⟨past, β, c, k, hmv, hstep⟩
  · rw [hstep] at h ⊢
    exact ih h
  by_cases hi : i = mv.1
  · intro hun
    have hlt : mv.1 < (P.run m mvs).threads.length := (List.getElem?_eq_some_iff.mp hmv).1
    have hget := List.getElem?_set_self hlt
      (a := (⟨⟨c, (m.exec mv.2 c (P.run m mvs).shared).1⟩ :: past,
        k (m.exec mv.2 c (P.run m mvs).shared).1⟩ : Thread E α))
    rw [hstep, hi] at hun
    exact List.cons_ne_nil _ _ (hun _ hget)
  · have hsame := threads_step_of_ne m (P.run m mvs) mv hi
    obtain ⟨t, a, ht, ha⟩ := h
    rw [hsame] at ht
    intro hun
    apply ih ⟨t, a, ht, ha⟩
    intro t' ht'
    rw [← hsame] at ht'
    exact hun t' ht'

/-! ## 2. The order of the effects -/

section

variable {m : Machine E σ χ} {abs : σ → A} {op : Nat → History E → A → Option A} {ack : α → Bool}
  {P : Pool E α σ} {mvs : List (Nat × χ)} {mv : Nat × χ} {order : List Nat}

section

variable (h0 : ∀ i, ¬ P.Acked ack i)
include h0

section

variable (h : P.Linearized m abs op ack mvs order)
include h

theorem Linearized.real_time_snoc (hacked : ∀ i ∈ order, (P.run m (mvs ++ [mv])).Acked ack i) :
    order.Pairwise fun i j => ¬ P.Precedes m (mvs ++ [mv]) j i := by
  refine h.real_time.imp_of_mem fun {i j} hi _ hold hnew => ?_
  rcases precedes_snoc hnew with hp | ⟨-, hun⟩
  · exact hold hp
  · exact not_unstarted_of_acked h0 (mvs ++ [mv]) (hacked i hi) hun

theorem Linearized.silent
    (hacked : ∀ i, (P.run m (mvs ++ [mv])).Acked ack i ↔ (P.run m mvs).Acked ack i)
    (hpast : ∀ i ∈ order, (P.run m (mvs ++ [mv])).pastOf i = (P.run m mvs).pastOf i)
    (habs : abs (P.run m (mvs ++ [mv])).shared = abs (P.run m mvs).shared) :
    P.Linearized m abs op ack (mvs ++ [mv]) order where
  nodup := h.nodup
  complete i := (h.complete i).trans (hacked i).symm
  real_time := h.real_time_snoc h0 fun i hi => (hacked i).mpr ((h.complete i).mp hi)
  result := by
    rw [applyInOrder_congr hpast, h.result, habs]

theorem Linearized.effect {past : History E} {c : E β} {k : β → Proc E α}
    (hmv : (P.run m mvs).threads[mv.1]? = some ⟨past, .call c k⟩)
    (hacked : ∀ i, (P.run m (mvs ++ [mv])).Acked ack i ↔
      i = mv.1 ∨ (P.run m mvs).Acked ack i)
    (hpast : ∀ i ∈ order, (P.run m (mvs ++ [mv])).pastOf i = (P.run m mvs).pastOf i)
    (hop : op mv.1 ((P.run m (mvs ++ [mv])).pastOf mv.1) (abs (P.run m mvs).shared) =
      some (abs (P.run m (mvs ++ [mv])).shared)) :
    P.Linearized m abs op ack (mvs ++ [mv]) (order ++ [mv.1]) where
  nodup := by
    have hnew : mv.1 ∉ order := fun hmem => not_acked_of_call hmv ((h.complete mv.1).mp hmem)
    rw [List.nodup_append']
    refine ⟨h.nodup, List.nodup_singleton _, ?_⟩
    rw [List.disjoint_singleton]
    exact hnew
  complete i := by
    rw [List.mem_append, List.mem_singleton, h.complete i, hacked i]
    exact or_comm
  real_time := by
    have hold : ∀ i ∈ order, (P.run m (mvs ++ [mv])).Acked ack i := fun i hi =>
      (hacked i).mpr (Or.inr ((h.complete i).mp hi))
    rw [List.pairwise_append]
    refine ⟨h.real_time_snoc h0 hold, List.pairwise_singleton _ _, fun i hi j hj hprec => ?_⟩
    obtain rfl := List.mem_singleton.mp hj
    rcases precedes_snoc hprec with ⟨l, l', rfl, ⟨t, a, ht, ha⟩, -⟩ | ⟨-, hun⟩
    · -- a thread that had finished earlier could not make this call
      have hstill := threads_run_of_ret m (P.run m l) l' ht ha
      rw [← run_append, hmv] at hstill
      obtain rfl := Option.some.inj hstill
      cases ha
    · exact not_unstarted_of_acked h0 (mvs ++ [mv]) (hold i hi) hun
  result := by
    have hhead : (P.run m (mvs ++ [mv])).applyInOrder op order (abs P.shared) =
        some (abs (P.run m mvs).shared) := by
      rw [applyInOrder_congr hpast, h.result]
    unfold applyInOrder at hhead ⊢
    rw [List.foldlM_append, hhead]
    simpa using hop

theorem Linearized.step (heff : (P.run m mvs).EffectOrSilent m abs op ack mv) :
    ∃ order', P.Linearized m abs op ack (mvs ++ [mv]) order' := by
  have hrun : P.run m (mvs ++ [mv]) = (P.run m mvs).step m mv := run_append m P mvs [mv]
  rcases (P.run m mvs).step_cases m mv with hstep | ⟨past, β, c, k, hmv, hstep⟩
  · rw [hstep] at hrun
    refine ⟨order, h.silent h0 ?_ ?_ ?_⟩ <;> rw [hrun] <;> intros <;> rfl
  have hlt : mv.1 < (P.run m mvs).threads.length := (List.getElem?_eq_some_iff.mp hmv).1
  have hshared : (P.run m (mvs ++ [mv])).shared = (m.exec mv.2 c (P.run m mvs).shared).2 := by
    rw [hrun, hstep]
  have hself : (P.run m (mvs ++ [mv])).threads[mv.1]? =
      some ⟨⟨c, (m.exec mv.2 c (P.run m mvs).shared).1⟩ :: past,
        k (m.exec mv.2 c (P.run m mvs).shared).1⟩ := by
    rw [hrun, hstep]
    exact List.getElem?_set_self hlt
  have hother : ∀ i, i ≠ mv.1 →
      (P.run m (mvs ++ [mv])).threads[i]? = (P.run m mvs).threads[i]? := by
    intro i hi
    rw [hrun]
    exact threads_step_of_ne m (P.run m mvs) mv hi
  have hackother : ∀ i, i ≠ mv.1 →
      ((P.run m (mvs ++ [mv])).Acked ack i ↔ (P.run m mvs).Acked ack i) := by
    intro i hi
    unfold Acked
    rw [hother i hi]
  have hpast : ∀ i ∈ order, (P.run m (mvs ++ [mv])).pastOf i = (P.run m mvs).pastOf i := by
    intro i hi
    apply pastOf_eq (hother i _)
    rintro rfl
    exact not_acked_of_call hmv ((h.complete mv.1).mp hi)
  rcases heff past β c k hmv with ⟨⟨a, ha, hok⟩, hop⟩ | ⟨hno, habs⟩
  · have hdone : (P.run m (mvs ++ [mv])).Acked ack mv.1 := ⟨_, a, hself, ha, hok⟩
    refine ⟨order ++ [mv.1], h.effect h0 hmv ?_ hpast ?_⟩
    · intro i
      by_cases hi : i = mv.1
      · subst hi
        exact ⟨fun _ => Or.inl rfl, fun _ => hdone⟩
      · rw [hackother i hi]
        exact ⟨Or.inr, fun h => h.resolve_left hi⟩
    · have hp : (P.run m (mvs ++ [mv])).pastOf mv.1 =
          ⟨c, (m.exec mv.2 c (P.run m mvs).shared).1⟩ :: past := by
        unfold pastOf
        rw [hself]
        rfl
      rw [hp, hshared]
      exact hop
  · refine ⟨order, h.silent h0 ?_ hpast (by rw [hshared, habs])⟩
    intro i
    by_cases hi : i = mv.1
    · subst hi
      refine iff_of_false ?_ (not_acked_of_call hmv)
      rintro ⟨t, a, ht, ha, hok⟩
      rw [hself] at ht
      obtain rfl := Option.some.inj ht
      exact hno ⟨a, ha, hok⟩
    · exact hackother i hi

end

end

end

end Pool

/-- When every permitted step is the whole effect of its thread's operation or silent, every run
that meets the condition is linearizable. -/
theorem Protocol.Sound.linearized {M : Type} [AddCommMonoid M] {D : Protocol E σ χ M}
    {m : Machine E σ χ} {Q : Nat → History E → α → Prop} {abs : σ → A}
    {op : Nat → History E → A → Option A} {ack : α → Bool} {P : Pool E α σ}
    {mvs : List (Nat × χ)} (hD : D.Sound m) (h0 : ∀ i, ¬ P.Acked ack i) (hP : D.Good Q P)
    (heff : ∀ P' mv, D.Good Q P' → P'.MoveMeets D.held D.cond mv →
      P'.EffectOrSilent m abs op ack mv)
    (hmvs : P.Meets D.held m D.cond mvs) : ∃ order, P.Linearized m abs op ack mvs order := by
  induction mvs using List.reverseRecOn with
  | nil =>
    refine ⟨[], List.nodup_nil, fun i => ?_, List.Pairwise.nil, rfl⟩
    exact iff_of_false List.not_mem_nil (h0 i)
  | append_singleton mvs mv ih =>
    obtain ⟨hinit, hlast⟩ := (Pool.meets_append D.held m D.cond P mvs [mv]).mp hmvs
    obtain ⟨order, horder⟩ := ih hinit
    exact horder.step h0 (heff _ mv (hD.run hP hinit) hlast.1)

end Interleaving
