import ObjectFabric.Safety.ObjectState

/-!
# Register — an object of an unversioned bucket as a register

PUT and DELETE requests without a version ID on one object, one after the other.  The object is a
register over every manifest store as long as a DELETE finds at most one stored version: the SQL
stores fall back to the version before.
-/

namespace ObjectFabric

open Interleaving

/-! ## 1. Sequences of requests -/

inductive KeyRequest where
  | put (r : PutRequest)
  | delete (bypassGovernance : Bool)

namespace KeyRequest

def handle (cfg : Config) (o : ObjectRef) : KeyRequest → Handler
  | .put r => putObject cfg { r with tenantID := o.tenantID, bucket := o.bucket, key := o.key }
  | .delete bypass => deleteObject cfg o bypass

def content : KeyRequest → Option Bytes
  | .put r => some r.body
  | .delete _ => none

/-- The condition on a request in the state it finds, with the choices of its run. -/
def InOrder (cfg : Config) (b : StoreKind) (o : ObjectRef) (st : World × b.State)
    (x : Nat → Choice) : KeyRequest → Prop
  | .put r => b.PutInOrder st.2 (o.latestKey cfg) ∧ r.RefusesBadHeaders ∧
      ∀ n, Mints cfg b o st (x n)
  | .delete _ => b.DeletesLast st.2 (o.latestKey cfg) ∧ ∀ n, Faultless (x n)

end KeyRequest

section

variable (cfg : Config) (b : StoreKind) (o : ObjectRef)

/-- One request: the state it leaves, and the content if it is the register's. -/
def serve (s : (World × b.State) × Option Bytes) (q : KeyRequest × (Nat → Choice)) :
    (World × b.State) × Option Bytes :=
  let out := (q.1.handle cfg o).run (storeMachine b.impl cfg.providers) q.2 [] s.1
  (out.2.2, if out.1.success then q.1.content else s.2)

def serveAll (s : (World × b.State) × Option Bytes) (qs : List (KeyRequest × (Nat → Choice))) :
    (World × b.State) × Option Bytes :=
  qs.foldl (serve cfg b o) s

def AllInOrder : (World × b.State) × Option Bytes → List (KeyRequest × (Nat → Choice)) → Prop
  | _, [] => True
  | s, q :: qs => q.1.InOrder cfg b o s.1 q.2 ∧ AllInOrder (serve cfg b o s q) qs

def readAfter (s : (World × b.State) × Option Bytes) (qs : List (KeyRequest × (Nat → Choice)))
    (req : GetRequest) (x : Nat → Choice) : Response :=
  ((getObject cfg req).run (storeMachine b.impl cfg.providers) x [] (serveAll cfg b o s qs).1).1

end

section

variable {cfg : Config} {b : StoreKind} {o : ObjectRef}

theorem serve_keyState (hset : RegisterSetting cfg o) {s : (World × b.State) × Option Bytes}
    (h : KeyState cfg b o s.2 s.1) {q : KeyRequest × (Nat → Choice)}
    (hq : q.1.InOrder cfg b o s.1 q.2) :
    KeyState cfg b o (serve cfg b o s q).2 (serve cfg b o s q).1 := by
  rcases q with ⟨request, x⟩
  cases request with
  | put r =>
    have hobject : ({ r with tenantID := o.tenantID, bucket := o.bucket, key := o.key } :
        PutRequest).object = o := by
      unfold PutRequest.object
      rw [← hset.versionID]
    have hput := putObject_responds
      (r := { r with tenantID := o.tenantID, bucket := o.bucket, key := o.key })
      (by rw [hobject]; exact hset) (by rw [hobject]; exact h) (by rw [hobject]; exact hq.1)
      ⟨hq.2.1.tagging, hq.2.1.metadata⟩
    unfold Sets at hput
    rw [hobject] at hput
    exact hput.run hq.2.2 []
  | delete bypass =>
    exact (deleteObject_responds (fun x hx => hx) hset h hq.1 bypass).run hq.2 []

theorem serveAll_keyState (hset : RegisterSetting cfg o) {qs : List (KeyRequest × (Nat → Choice))}
    {s : (World × b.State) × Option Bytes} (h : KeyState cfg b o s.2 s.1)
    (hqs : AllInOrder cfg b o s qs) :
    KeyState cfg b o (serveAll cfg b o s qs).2 (serveAll cfg b o s qs).1 := by
  induction qs generalizing s with
  | nil => exact h
  | cons q qs ih => exact ih (serve_keyState hset h hqs.1) hqs.2

/-- A GET after any sequence of such requests answers with the content. -/
theorem get_reads_register (hset : RegisterSetting cfg o)
    {s : (World × b.State) × Option Bytes} (h : KeyState cfg b o s.2 s.1)
    {qs : List (KeyRequest × (Nat → Choice))} (hqs : AllInOrder cfg b o s qs) {req : GetRequest}
    (hreq : PlainGet req) (hobject : req.object = o) {x : Nat → Choice}
    (hx : ∀ n, Faultless (x n)) :
    Reads (serveAll cfg b o s qs).2 (readAfter cfg b o s qs req x) := by
  have hstate := serveAll_keyState hset h hqs
  exact (getObject_reads hset hstate hreq hobject).run hx []

end

/-! ## 2. Runs -/

/-- The sample gateway with hash functions that have no collisions; on the inputs of the runs they
give the digests of SHA-256 and BLAKE3. -/
def registerGateway : Config :=
  { sampleGateway with
    sha256Hex := fun s =>
      if s = "" then "e3b0c44298fc1c149afbf4c8996fb92427ae41e4649b934ca495991b7852b855"
      else sampleSha256Hex s
    blake3 := Equiv.swap [97] (sampleBlake3 [97]) }

def registerObject : ObjectRef := ⟨"tenant", "bucket", "key", ""⟩

def registerPut (n : Int) : KeyRequest × (Nat → Choice) := (.put samplePut, fun _ => sampleClock n)

def registerDelete (n : Int) : KeyRequest × (Nat → Choice) :=
  (.delete false, fun _ => sampleClock n)

def registerGet : GetRequest := { object := registerObject }

def registerStart : (World × StoreKind.sqlite.State) × Option Bytes :=
  (({}, ({} : SqliteStore)), none)

theorem registerSetting : RegisterSetting registerGateway registerObject := by
  refine ⟨⟨?_, ?_, ?_, ?_⟩, (Equiv.swap _ _).injective, ?_, by decide, by decide, by decide, rfl⟩
  · intro _ _ _ _ _ _ _ hct _
    rw [← Except.ok.inj hct]
    rfl
  · intro _ _ _ _ _ hct _
    rw [← Except.ok.inj hct]
    rfl
  · intro _ _ _ _ _ henc
    exact absurd henc (by simp [registerGateway, sampleGateway])
  · intro _ _ _ _ _ hregistry
    exact absurd hregistry (by simp [registerGateway, sampleGateway])
  · intro s
    show (if s = "" then _ else sampleSha256Hex s) ≠ ""
    split
    · decide
    rename_i hs
    unfold sampleSha256Hex
    split
    all_goals first | decide | exact hs

theorem registerPut_inOrder {st : World × StoreKind.sqlite.State} (hindex : st.1.index.rows = ∅)
    (hcurrent : StoreKind.sqlite.current st.2 (registerObject.latestKey registerGateway) = none)
    (n : Int) : KeyRequest.InOrder registerGateway .sqlite registerObject st (registerPut n).2
      (registerPut n).1 := by
  refine ⟨trivial, ⟨by simp [samplePut], by simp [samplePut]⟩, fun _ => ⟨rfl, ?_⟩⟩
  rintro a (⟨k, e, he, -⟩ | ⟨m, hm, -⟩)
  · rw [hindex] at he
    exact absurd he (by simp)
  · rw [hcurrent] at hm
    exact absurd hm (by simp)

theorem deletesLast_of_card {s : SqliteStore} (h : s.rows.keys.card ≤ 1) (lk : LatestKey) :
    StoreKind.sqlite.DeletesLast s lk := by
  intro k k' hk hk' _ _
  exact Finset.card_le_one.mp h k (Finmap.mem_keys.mpr (Finmap.lookup_isSome.mp hk)) k'
    (Finmap.mem_keys.mpr (Finmap.lookup_isSome.mp hk'))

theorem registerStart_keyState :
    KeyState registerGateway .sqlite registerObject registerStart.2 registerStart.1 := by
  refine ⟨⟨rfl, ⟨?_, ?_⟩, ?_⟩, fun _ => by decide +kernel, fun body hbody => ?_⟩
  · intro k e he
    exact absurd he (by simp [registerStart])
  · intro k _ e _ he
    exact absurd he (by simp [registerStart])
  · intro k m hk
    exact absurd hk (by simp [registerStart, StoreKind.stored])
  · exact absurd hbody (by simp [registerStart])

def registerAfterPut : (World × StoreKind.sqlite.State) × Option Bytes :=
  serve registerGateway .sqlite registerObject registerStart (registerPut 0)

def registerAfterDelete : (World × StoreKind.sqlite.State) × Option Bytes :=
  serve registerGateway .sqlite registerObject registerAfterPut (registerDelete 1)

theorem registerRewrite_inOrder : AllInOrder registerGateway .sqlite registerObject registerStart
    [registerPut 0, registerDelete 1, registerPut 2] := by
  have hput : (registerPut 0).1.InOrder registerGateway .sqlite registerObject registerStart.1
      (registerPut 0).2 := registerPut_inOrder rfl (by decide +kernel) 0
  have hdelete : (registerDelete 1).1.InOrder registerGateway .sqlite registerObject
      registerAfterPut.1 (registerDelete 1).2 :=
    ⟨deletesLast_of_card (by decide +kernel) _, fun _ => rfl⟩
  have hagain : (registerPut 2).1.InOrder registerGateway .sqlite registerObject
      registerAfterDelete.1 (registerPut 2).2 :=
    registerPut_inOrder (by decide +kernel) (by decide +kernel) 2
  exact ⟨hput, hdelete, hagain, trivial⟩

theorem get_reads_register_sqlite :
    (serveAll registerGateway .sqlite registerObject registerStart
      [registerPut 0, registerDelete 1, registerPut 2]).2 = some [97] ∧
    Reads (serveAll registerGateway .sqlite registerObject registerStart
        [registerPut 0, registerDelete 1, registerPut 2]).2
      (readAfter registerGateway .sqlite registerObject registerStart
        [registerPut 0, registerDelete 1, registerPut 2] registerGet fun _ => sampleClock 3) :=
  ⟨by decide +kernel, get_reads_register registerSetting registerStart_keyState
    registerRewrite_inOrder ⟨by decide, by decide, rfl, rfl⟩ rfl fun _ => rfl⟩

/-- Over SQLite the DELETE takes the second version away and the first one is read again. -/
theorem sqlite_get_reads_overwritten_version :
    (serveAll registerGateway .sqlite registerObject registerStart
      [registerPut 0, registerPut 1, registerDelete 2]).2 = none ∧
    (readAfter registerGateway .sqlite registerObject registerStart
      [registerPut 0, registerPut 1, registerDelete 2] registerGet fun _ => sampleClock 3).status =
      200 ∧
    (readAfter registerGateway .sqlite registerObject registerStart
      [registerPut 0, registerPut 1, registerDelete 2] registerGet fun _ => sampleClock 3).body =
      [[97]] := by
  decide +kernel

end ObjectFabric
