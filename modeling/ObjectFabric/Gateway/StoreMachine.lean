import ObjectFabric.Gateway.Config
import ObjectFabric.Interleaving.Sequential
import ObjectFabric.Store.Implementation

/-!
# StoreMachine — the gateway over any manifest store

The handlers run over an implementation of the manifest store; everything else stays in the world.
-/

namespace ObjectFabric

open Interleaving

section

variable {σ : Type}

/-- The effect of a call that does not fail.  The calls of the background workers that are not in
the interface go to the world's own store; request handlers do not make them. -/
def StoreImpl.exec (impl : StoreImpl σ) (providers : String → Option Provider) {β : Type}
    (x : Choice) (c : Call β) (s : World × σ) : β × (World × σ) :=
  match c with
  | .manifestPut k m => ((impl.put s.2 k m).1, s.1, (impl.put s.2 k m).2)
  | .manifestUpdate k m => ((impl.updateManifest s.2 k m).1, s.1, (impl.updateManifest s.2 k m).2)
  | .manifestGet k => (impl.get s.2 k, s)
  | .manifestDelete k => ((impl.delete s.2 k).1, s.1, (impl.delete s.2 k).2)
  | .manifestList t b cursor limit => (impl.list s.2 t b cursor limit, s)
  | .manifestListVersions t b hash => (impl.listVersions s.2 t b hash, s)
  | c => ((World.exec providers x c s.1).1, (World.exec providers x c s.1).2, s.2)

def storeMachine (impl : StoreImpl σ) (providers : String → Option Provider) :
    Machine Call (World × σ) Choice where
  exec x c s :=
    match x.fault, World.failure c with
    | true, some e => (e, s)
    | _, _ => impl.exec providers x c s

theorem storeMachine_exec {impl : StoreImpl σ} {providers : String → Option Provider} {x : Choice}
    (hx : x.fault = false) {β : Type} (c : Call β) (s : World × σ) :
    (storeMachine impl providers).exec x c s = impl.exec providers x c s := by
  simp only [storeMachine, hx]

theorem storeMachine_of_consults (impl : StoreImpl σ) (providers : String → Option Provider)
    {β : Type} {c : Call β} (hc : consults c) (x : Choice) (s : World × σ) :
    ((storeMachine impl providers).exec x c s).2 = s := by
  have hexec : (impl.exec providers x c s).2 = s := by
    cases c with
    | now | getVersioning | getObjectLock | getEncryption | legalHoldActive | getPiece
    | manifestGet => rfl
    | _ => exact absurd hc id
  rcases hx : x.fault with _ | _
  · rw [storeMachine_exec hx, hexec]
  cases hf : World.failure c with
  | none =>
    simp only [storeMachine, hx, hf]
    exact hexec
  | some e => simp only [storeMachine, hx, hf]

theorem ensures_consult {impl : StoreImpl σ} {providers : String → Option Provider}
    {ok : Choice → Prop} {s : World × σ} {α β : Type} {c : Call β} (hc : consults c)
    {k : β → Proc Call α} {Q : α → World × σ → Prop}
    (h : ∀ b, (k b).Ensures (storeMachine impl providers) ok s Q) :
    ((ask c).bind k).Ensures (storeMachine impl providers) ok s Q :=
  Proc.ensures_quiet (fun x => storeMachine_of_consults impl providers hc x s) h

end

/-! ## Calls on the world -/

section

variable {providers : String → Option Provider} {ok : Choice → Prop} {w : World} {α β : Type}
  {Q : α → World → Prop}

theorem ensures_total {c : Call β} (hc : World.failure c = none) {k : β → Proc Call α}
    (h : ∀ x, ok x → (k (World.exec providers x c w).1).Ensures (machine providers) ok
      (World.exec providers x c w).2 Q) :
    ((ask c).bind k).Ensures (machine providers) ok w Q := by
  intro x hx
  rcases machine_exec providers x c w with hok | ⟨e, he, -⟩
  · rw [hok]
    exact h x hx
  · rw [hc] at he
    exact absurd he (by simp)

theorem ensures_fallible {c : Call (Except StoreError β)}
    (hc : World.failure c = some (.error (.other "unavailable")))
    {k : Except StoreError β → Proc Call α}
    (hfault : (k (.error (.other "unavailable"))).Ensures (machine providers) ok w Q)
    (h : ∀ x, ok x → (k (World.exec providers x c w).1).Ensures (machine providers) ok
      (World.exec providers x c w).2 Q) :
    ((ask c).bind k).Ensures (machine providers) ok w Q := by
  intro x hx
  rcases machine_exec providers x c w with hok | ⟨e, he, hfail⟩
  · rw [hok]
    exact h x hx
  · rw [hc] at he
    rw [hfail, ← Option.some.inj he]
    exact hfault

theorem ensures_deletePiece (a : PieceAddr) {k : Except StoreError Unit → Proc Call α}
    (h : ∀ b pieces, (∀ a', a' ≠ a → pieces.lookup a' = w.pieces.lookup a') →
      (k b).Ensures (machine providers) ok { w with pieces } Q) :
    ((ask (.deletePiece a)).bind k).Ensures (machine providers) ok w Q := by
  refine ensures_fallible rfl (h _ w.pieces fun _ _ => rfl) fun x _ => ?_
  refine h (.ok ()) (w.pieces.erase a) fun a' ha' => ?_
  rw [FMap.lookup_erase_ite, if_neg ha']

theorem ensures_putPiece {a : PieceAddr} {provider : Provider}
    (hprovider : providers a.backend = some provider) (body : Bytes)
    {k : Except StoreError PutResult → Proc Call α}
    (hfault : (k (.error (.other "unavailable"))).Ensures (machine providers) ok w Q)
    (h : (k (.ok ⟨a.pieceID, provider.etagOf a.pieceID body, body.length,
      provider.locatorOf a.pieceID⟩)).Ensures (machine providers) ok
        { w with pieces := w.pieces.insert a body } Q) :
    ((ask (.putPiece a body)).bind k).Ensures (machine providers) ok w Q := by
  refine ensures_fallible rfl hfault fun x _ => ?_
  have hput : World.exec providers x (.putPiece a body) w = (.ok ⟨a.pieceID,
      provider.etagOf a.pieceID body, body.length, provider.locatorOf a.pieceID⟩,
      { w with pieces := w.pieces.insert a body }) := by
    show World.putPiece _ _ _ _ = _
    unfold World.putPiece
    rw [hprovider]
  rw [hput]
  exact h

theorem ensures_getPiece (a : PieceAddr) {k : Except StoreError Bytes → Proc Call α}
    (herror : ∀ e, (k (.error e)).Ensures (machine providers) ok w Q)
    (h : ∀ body, w.pieces.lookup a = some body →
      (k (.ok body)).Ensures (machine providers) ok w Q) :
    ((ask (.getPiece a)).bind k).Ensures (machine providers) ok w Q := by
  intro x _
  rcases getPiece_exec providers x a w with ⟨r, hr, hfound⟩
  rw [hr]
  cases r with
  | error e => exact herror e
  | ok body => exact h body (hfound body rfl)

theorem ensures_copyPiece {src dst : PieceAddr} {provider : Provider}
    (hprovider : providers dst.backend = some provider)
    {k : Except StoreError PutResult → Proc Call α}
    (herror : ∀ e, (k (.error e)).Ensures (machine providers) ok w Q)
    (h : ∀ body res, w.pieces.lookup src = some body → (k (.ok res)).Ensures (machine providers) ok
      { w with pieces := w.pieces.insert dst body } Q) :
    ((ask (.copyPiece src dst)).bind k).Ensures (machine providers) ok w Q := by
  refine ensures_fallible rfl (herror _) fun x _ => ?_
  rcases copyPiece_exec providers x src dst w with ⟨e, -, hcopy⟩ | ⟨body, hget, hcopy⟩
  · rw [hcopy]
    exact herror e
  rw [hcopy]
  unfold World.getPiece at hget
  unfold World.putPiece
  rw [hprovider]
  cases hfound : w.pieces.lookup src with
  | none =>
    rw [hfound] at hget
    cases hget
  | some body' =>
    rw [hfound] at hget
    obtain rfl := Except.ok.inj hget
    exact h _ _ hfound

theorem ensures_indexLookup (key : IndexKey) {k : Except StoreError ContentIndexEntry → Proc Call α}
    (hfault : (k (.error (.other "unavailable"))).Ensures (machine providers) ok w Q)
    (hmiss : w.index.rows.lookup key = none →
      (k (.error .contentNotFound)).Ensures (machine providers) ok w Q)
    (hhit : ∀ e, w.index.rows.lookup key = some e →
      (k (.ok e)).Ensures (machine providers) ok w Q) :
    ((ask (.indexLookup key)).bind k).Ensures (machine providers) ok w Q := by
  refine ensures_fallible rfl hfault fun x _ => ?_
  show (k (w.index.lookup key)).Ensures _ _ w Q
  unfold ContentIndex.lookup
  cases hrow : w.index.rows.lookup key with
  | none => exact hmiss hrow
  | some e => exact hhit e hrow

theorem ensures_incrementRef (key : IndexKey) {k : Except StoreError Unit → Proc Call α}
    (herror : ∀ e, (e = .contentNotFound → w.index.rows.lookup key = none) →
      (k (.error e)).Ensures (machine providers) ok w Q)
    (h : ∀ e, w.index.rows.lookup key = some e → (k (.ok ())).Ensures (machine providers) ok
      { w with index := w.index.set { e with refCount := e.refCount + 1 } } Q) :
    ((ask (.indexIncrementRef key)).bind k).Ensures (machine providers) ok w Q := by
  refine ensures_fallible rfl (herror _ (by simp)) fun x _ => ?_
  show (k (w.index.incrementRef key).1).Ensures _ _ { w with index := (w.index.incrementRef key).2 } Q
  rcases w.index.incrementRef_cases key with ⟨hnone, hmiss⟩ | ⟨e, hrow, hhit⟩
  · rw [hmiss]
    exact herror _ fun _ => hnone
  · rw [hhit]
    exact h e hrow

theorem ensures_register (entry : ContentIndexEntry) {k : Except StoreError Unit → Proc Call α}
    (hfault : (k (.error (.other "unavailable"))).Ensures (machine providers) ok w Q)
    (hexists : ∀ e, w.index.rows.lookup entry.key = some e →
      (k (.error .alreadyExists)).Ensures (machine providers) ok w Q)
    (hnew : w.index.rows.lookup entry.key = none → (k (.ok ())).Ensures (machine providers) ok
      { w with
        index := w.index.set
          { entry with refCount := if entry.refCount ≤ 0 then 1 else entry.refCount } } Q) :
    ((ask (.indexRegister entry)).bind k).Ensures (machine providers) ok w Q := by
  refine ensures_fallible rfl hfault fun x _ => ?_
  show (k (w.index.register entry).1).Ensures _ _ { w with index := (w.index.register entry).2 } Q
  rcases w.index.register_cases entry with ⟨hsome, hreg⟩ | ⟨hnone, hreg⟩
  · rcases Option.isSome_iff_exists.mp hsome with ⟨e, he⟩
    rw [hreg]
    exact hexists e he
  · rw [hreg]
    exact hnew hnone

end

end ObjectFabric
