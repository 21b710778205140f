import ObjectFabric.Gateway.PutContent
import ObjectFabric.Gateway.Sample
import ObjectFabric.Metadata.ErasureTolerance

/-!
# ShardFaults — reading the shards of an object from backends that fail

A shard can fail to arrive in several ways, and `reconstructErasureCoded` meets them at different
points of its loop: the backend is not registered, `GetPiece` fails, the body breaks off while it is
read, or the bytes do not match the recorded hash.  All but one count as the loss of the shard.
-/

namespace ObjectFabric

open Interleaving

variable {shards : List ObjectFabric.Shard} {orig : List Shard}

/-! ## 1. The encoder of a profile -/

namespace ErasureCoding

def Shard.gateway (sh : Shard) : ObjectFabric.Shard :=
  ⟨sh.stripeIndex.toNat, sh.shardIndex.toNat, sh.kind, sh.bytes⟩

def Shard.ofGateway (s : ObjectFabric.Shard) : Shard :=
  ⟨s.stripeIndex, s.shardIndex, s.kind, s.bytes⟩

/-- A panic ends the request without a response; to the gateway's model it is an error. -/
def Halt.text : Halt → String
  | .error message => message
  | .panic message => message

def Encoder.gateway {rs : ReedSolomon} (e : Encoder rs) : ErasureEncoder where
  shardSize := e.shardSize
  parityShards := e.parityShards
  encode body := ((e.encode body).map (List.map Shard.gateway)).mapError Halt.text
  decode shards := (e.decode (shards.map Shard.ofGateway)).mapError Halt.text

namespace Encoder

variable {rs : ReedSolomon} {e : Encoder rs} {body : Bytes}

theorem gateway_encode_eq_ok
    (h : e.gateway.encode body = .ok shards) :
    ∃ orig, e.encode body = .ok orig ∧ shards = orig.map Shard.gateway := by
  unfold gateway at h
  cases hencode : e.encode body with
  | error err => simp [hencode, Except.map, Except.mapError] at h
  | ok orig =>
    simp only [hencode, Except.map, Except.mapError, Except.ok.injEq] at h
    exact ⟨orig, rfl, h.symm⟩

theorem gateway_decode_eq_ok :
    e.gateway.decode shards = .ok body ↔ e.decode (shards.map Shard.ofGateway) = .ok body := by
  show (e.decode (shards.map Shard.ofGateway)).mapError Halt.text = .ok body ↔ _
  cases e.decode (shards.map Shard.ofGateway) <;> simp [Except.mapError]

theorem ofGateway_gateway (h : e.encode body = .ok orig) {sh : Shard}
    (hmem : sh ∈ orig) : Shard.ofGateway sh.gateway = sh := by
  rcases e.exists_coding h with ⟨c⟩
  rcases c.mem_orig hmem with ⟨s, -, i, hstripe, hindex, -⟩
  rcases sh with ⟨stripeIndex, shardIndex, kind, bytes⟩
  simp only at hstripe hindex
  rw [hstripe, hindex]
  rfl

theorem pairwise_before (h : e.encode body = .ok orig) :
    (orig.map Shard.gateway).Pairwise ObjectFabric.Shard.before := by
  rcases e.exists_coding h with ⟨c⟩
  rw [c.orig_eq, List.map_flatMap, List.pairwise_flatMap]
  have hget : ∀ s, ∀ sh ∈ (e.numbered s (c.coded s)).map Shard.gateway, sh.stripeIndex = s := by
    intro s sh hsh
    rcases List.mem_map.mp hsh with ⟨o, ho, rfl⟩
    rcases List.mem_mapIdx.mp ho with ⟨i, hi, rfl⟩
    exact Int.toNat_natCast s
  constructor
  · intro s _
    rw [List.pairwise_map]
    unfold numbered
    rw [List.pairwise_iff_getElem]
    intro i j hi hj hij
    rw [List.getElem_mapIdx, List.getElem_mapIdx]
    right
    exact ⟨rfl, by simpa [Shard.gateway] using hij⟩
  · refine List.pairwise_lt_range.imp ?_
    intro s t hst a ha b hb
    left
    rw [hget s a ha, hget t b hb]
    exact hst

theorem encode_ne_nil (hmds : e.codec.Mds e.dataShards e.parityShards)
    (h : e.encode body = .ok orig) : orig ≠ [] := by
  intro hnil
  have hdecode := e.decode_blanked hmds h (fun _ => false) (by simp)
  rw [hnil] at hdecode
  exact absurd hdecode (by simp [decode, bind, Except.bind])

theorem gateway_reads_back (hmds : e.codec.Mds e.dataShards e.parityShards)
    (h : e.gateway.encode body = .ok shards) :
    shards ≠ [] ∧ shards.Pairwise ObjectFabric.Shard.before ∧ e.gateway.decode shards = .ok body := by
  rcases gateway_encode_eq_ok h with ⟨orig, horig, rfl⟩
  refine ⟨?_, pairwise_before horig, gateway_decode_eq_ok.mpr ?_⟩
  · intro hnil
    exact encode_ne_nil hmds horig (List.map_eq_nil_iff.mp hnil)
  have hdecode := e.decode_blanked hmds horig (fun _ => false) (by simp)
  have hback : (orig.map Shard.gateway).map Shard.ofGateway = orig.map fun o => o := by
    rw [List.map_map]
    exact List.map_congr_left fun sh hmem => ofGateway_gateway horig hmem
  rw [hback]
  simpa using hdecode

end Encoder

end ErasureCoding

/-! ## 2. Reads -/

inductive ShardRead where
  | unregistered
  | getError (message : String)
  /-- The body broke off. -/
  | readError (message : String)
  | body (bytes : Bytes)
  deriving DecidableEq, Repr

def ShardRead.bytes? : ShardRead → Option Bytes
  | .body bytes => some bytes
  | _ => none

/-- What the loop makes of it: a loss has the response that is sent when it is one too many. -/
inductive ShardOutcome where
  | got (bytes : Bytes)
  | lost (refusal : Response)
  | stop (refusal : Response)

def ShardOutcome.isLost : ShardOutcome → Bool
  | .lost _ => true
  | _ => false

section

variable (cfg : Config)

def Piece.outcome (p : Piece) (read : ShardRead) : ShardOutcome :=
  let exceeded := "stripe " ++ toString p.stripeIndex ++ " exceeded parity tolerance"
  let lost (code message : String) : ShardOutcome := .lost { status := 502, code, message }
  match read with
  | .unregistered => lost "DataLoss" (exceeded ++ ": backend \"" ++ p.backend ++ "\" not registered")
  | .getError message => lost "DataLoss" (exceeded ++ ": " ++ message)
  | .readError message => .stop { status := 502, code := "BackendGetFailed", message }
  | .body bytes =>
    match verifyPiece cfg bytes p with
    | .failed message => lost "IntegrityCheckFailed"
        (exceeded ++ " after shard integrity failure: " ++ message)
    | _ => .got bytes

def collectShards (tolerance : Nat) (read : Piece → ShardRead) :
    List Piece → (Int → Nat) → List Shard → Except Response (List Shard)
  | [], _, shards => .ok shards
  | p :: ps, losses, shards =>
    match p.outcome cfg (read p) with
    | .got bytes => collectShards tolerance read ps losses (shards ++ [p.shard bytes])
    | .stop refusal => .error refusal
    | .lost refusal =>
      let lost := losses p.stripeIndex + 1
      if tolerance < lost then
        .error refusal
      else
        collectShards tolerance read ps (Function.update losses p.stripeIndex lost)
          (shards ++ [p.shard []])

/-- `reconstructErasureCoded` in terms of what the backends answer. -/
def reconstructFromReads (m : ObjectManifest) (read : Piece → ShardRead) : Except Response Bytes :=
  let fail (status : Nat) (code message : String) : Except Response Bytes :=
    .error { status, code, message }
  match cfg.erasureCoding with
  | none => fail 500 "ErasureCodingNotConfigured"
      "object is erasure-coded but no registry is configured"
  | some lookup =>
    if m.placementPolicy.erasureProfile = "" then
      fail 500 "ErasureProfileMissing" "erasure-coded manifest is missing ErasureProfile"
    else
      match lookup m.placementPolicy.erasureProfile with
      | .error message => fail 500 "ErasureProfileNotRegistered" message
      | .ok encoder =>
        if m.pieces.all fun p => p.stripeIndex + 1 ≤ 0 then
          fail 500 "EmptyManifest" "erasure-coded manifest has no stripes"
        else
          match collectShards cfg encoder.parityShards read (m.pieces.insertionSort shardBefore)
            (fun _ => 0) [] with
          | .error response => .error response
          | .ok shards =>
            match encoder.decode shards with
            | .error message => fail 502 "ErasureDecodeFailed" message
            | .ok decoded => unsealShards cfg m decoded

/-! ## 3. The handler's program -/

def Piece.readFrom (answer : PieceAddr → Except StoreError Bytes) (p : Piece) : ShardRead :=
  if (cfg.providers p.backend).isNone then .unregistered
  else
    match answer p.addr with
    | .error e => .getError e.text
    | .ok bytes => .body bytes

def answering (answer : PieceAddr → Except StoreError Bytes) (other : ∀ {β : Type}, Call β → β) :
    Machine Call Unit Unit where
  exec _ c _ :=
    match c with
    | .getPiece a => (answer a, ())
    | c => (other c, ())

section

variable (answer : PieceAddr → Except StoreError Bytes)
include answer

section

variable (other : ∀ {β : Type}, Call β → β)
include other

theorem fetchShard_answering (p : Piece) :
    (fetchShard cfg p).Ensures (answering answer other) (fun _ => True) () fun r _ =>
      match p.outcome cfg (p.readFrom cfg answer) with
      | .got bytes => r = .ok bytes
      | .lost refusal => r = .error refusal
      | .stop _ => False := by
  unfold fetchShard Piece.readFrom
  cases hprovider : (cfg.providers p.backend).isNone with
  | true => exact rfl
  | false => ?_
  intro x _
  have hexec : (answering answer other).exec x (.getPiece p.addr) () = (answer p.addr, ()) := rfl
  rw [hexec]
  cases answer p.addr with
  | error e => exact rfl
  | ok body =>
    simp only [Proc.ret_bind, Bool.false_eq_true, if_false, Piece.outcome]
    cases verifyPiece cfg body p <;> exact rfl

theorem fetchShards_answering (tolerance : Nat) (ps : List Piece) (losses : Int → Nat)
    (shards : List Shard) :
    (fetchShards cfg tolerance ps losses shards).Ensures (answering answer other) (fun _ => True) ()
      fun r _ => r = collectShards cfg tolerance (Piece.readFrom cfg answer) ps losses shards := by
  induction ps generalizing losses shards with
  | nil => exact rfl
  | cons p ps ih => ?_
  apply (fetchShard_answering cfg answer other p).seq
  intro r _ hr
  unfold collectShards
  cases hout : p.outcome cfg (p.readFrom cfg answer) with
  | got bytes =>
    simp only [hout] at hr ⊢
    rw [hr]
    exact ih _ _
  | lost refusal =>
    simp only [hout] at hr ⊢
    rw [hr]
    simp only
    split
    · exact rfl
    · exact ih _ _
  | stop refusal =>
    simp only [hout] at hr

theorem reconstructErasureCoded_answering (m : ObjectManifest) :
    (reconstructErasureCoded cfg m).Ensures (answering answer other) (fun _ => True) ()
      fun r _ => r = reconstructFromReads cfg m (Piece.readFrom cfg answer) := by
  unfold reconstructErasureCoded reconstructFromReads
  rcases cfg.erasureCoding with _ | lookup
  · exact rfl
  by_cases hprofile : m.placementPolicy.erasureProfile = ""
  · simp only [hprofile, if_true]
    exact rfl
  simp only [hprofile, if_false]
  rcases lookup m.placementPolicy.erasureProfile with message | encoder
  · exact rfl
  simp only
  split
  · exact rfl
  apply (fetchShards_answering cfg answer other _ _ _ _).seq
  intro r _ hr
  rw [← hr]
  cases r with
  | error response => exact rfl
  | ok shards =>
    simp only
    cases encoder.decode shards <;> exact rfl

end

end

end

/-! ## 4. What a PUT leaves behind -/

section

variable {cfg : Config} {ok : Choice → Prop} {w : World}

theorem applyDefaultObjectLockRetention_ensures (tenantID bucket : String) (m : ObjectManifest) :
    (applyDefaultObjectLockRetention cfg tenantID bucket m).Ensures (machine cfg.providers) ok w
      fun r w' => w' = w ∧ ∀ m', r = .ok m' → Stamped m m' := by
  have hsame : ∀ m', (.ok m : Except StoreError ObjectManifest) = .ok m' → Stamped m m' :=
    fun m' hm' => ⟨m.retention, (Except.ok.inj hm').symm⟩
  unfold applyDefaultObjectLockRetention
  split
  · exact ⟨rfl, hsame⟩
  intro x _
  rw [exec_of_consults (c := .getObjectLock tenantID bucket) trivial]
  rcases ((machine cfg.providers).exec x (.getObjectLock tenantID bucket) w).1 with e | lockCfg
  · exact ⟨rfl, fun m' hm' => by simp at hm'⟩
  simp only [Proc.ret_bind]
  split
  · exact ⟨rfl, hsame⟩
  intro y _
  rw [now_exec]
  exact ⟨rfl, fun m' hm' => ⟨⟨lockCfg.defaultMode, lockCfg.defaultRetainUntil y.now⟩,
    (Except.ok.inj hm').symm⟩⟩

theorem persistManifest_ensures {m : ObjectManifest} {rollback : Proc Call Unit}
    {stored : ObjectManifest → Handler} {Q : Response → World → Prop}
    (hfail : ∀ response w', response.status ≠ 200 → Q response w')
    (hstored : ∀ m', Stamped m m' → (stored m').Ensures (machine cfg.providers) ok
      { w with manifests := w.manifests.put m'.key m' } Q) :
    (persistManifest cfg m rollback stored).Ensures (machine cfg.providers) ok w Q := by
  have hrollback : ∀ code message w', (rollback.bind fun _ =>
      writeError 500 code message).Ensures (machine cfg.providers) ok w' Q := by
    intro code message w'
    apply Proc.Ensures.bind
    apply Proc.Ensures.of_forall
    exact fun _ w'' => hfail _ w'' (by simp)
  apply (applyDefaultObjectLockRetention_ensures m.tenantID m.bucket m).seq
  rintro r w' ⟨rfl, hr⟩
  rcases r with e | m'
  · exact hrollback _ _ _
  intro x _
  rcases manifestPut_exec cfg.providers x m'.key m' w' with ⟨e, he⟩ | hput
  · rw [he]
    exact hrollback _ _ _
  · rw [hput]
    exact hstored m' (hr m' rfl)

variable {backend versionID : String} {provider : Provider}

theorem putShards_written (hprovider : cfg.providers backend = some provider) (shards : List Shard)
    (written : List Piece) :
    (putShards cfg backend versionID shards written).Ensures (machine cfg.providers) ok w
      fun r w' => ∀ pieces, r = .ok pieces →
        pieces = written ++ shards.map (storedShard cfg provider backend versionID) ∧
        w' = { w with pieces := withShards backend versionID shards w.pieces } := by
  induction shards generalizing written w with
  | nil =>
    intro pieces hpieces
    rw [List.map_nil, List.append_nil]
    exact ⟨(Except.ok.inj hpieces).symm, rfl⟩
  | cons shard shards ih => ?_
  intro x _
  have hworld := World.putPiece_of_provider (a := ⟨backend, shardPieceID versionID shard⟩)
    hprovider w shard.bytes
  rcases machine_exec cfg.providers x
    (.putPiece ⟨backend, shardPieceID versionID shard⟩ shard.bytes) w with hexec | ⟨e, he, hexec⟩
  · rw [hexec]
    simp only [World.exec, hworld, Proc.ret_bind]
    apply (ih (written ++ [storedShard cfg provider backend versionID shard])).mono
    intro r w' hr pieces hpieces
    rw [(hr pieces hpieces).1, (hr pieces hpieces).2, List.append_assoc]
    exact ⟨rfl, rfl⟩
  · rw [hexec]
    have he' : Except.error (.other "unavailable") = e := Option.some.inj he
    rw [← he']
    simp only [Proc.ret_bind, Proc.bind_eq]
    apply Proc.Ensures.bind
    apply Proc.Ensures.of_forall
    intro _ _ pieces hpieces
    exact absurd hpieces (by simp)

/-- What a successful PUT of the body stores: the manifest lists the shards of the sealed body, and
the backend has them. -/
structure StoredShards (cfg : Config) (r : PutRequest) (encoder : ErasureEncoder) (provider : Provider)
    (backend : String) (policy : PlacementPolicy) (versionID : String) (w : World) where
  m : ObjectManifest
  encCfg : EncryptionConfig
  bytes : Bytes
  shards : List Shard
  createdAt : Time
  found : w.manifests.byKey.lookup (cfg.manifestKey r.tenantID r.bucket r.key versionID) = some m
  stamped : Stamped (erasureCodedManifest cfg r backend policy encCfg encoder versionID
    (shards.map (storedShard cfg provider backend versionID)) createdAt) m
  sealed : prepareErasureCodedEncryption cfg r policy.encryptionMode (r.aadIdentity cfg versionID) =
    .ok (encCfg, bytes)
  encoded : encoder.encode bytes = .ok shards
  written : shards.Pairwise Shard.before → ∀ sh ∈ shards,
    w.pieces.lookup ⟨backend, shardPieceID versionID sh⟩ = some sh.bytes

theorem putErasureCoded_stores {r : PutRequest} {policy : PlacementPolicy} {encoder : ErasureEncoder}
    {lookup : String → Except String ErasureEncoder} (hregistry : cfg.erasureCoding = some lookup)
    (hencoder : lookup policy.erasureProfile = .ok encoder)
    (hprovider : cfg.providers backend = some provider) :
    (putErasureCoded cfg r backend policy).Ensures (machine cfg.providers) ok w
      fun response w' => response.status = 200 →
        Nonempty (StoredShards cfg r encoder provider backend policy response.versionID w') := by
  unfold putErasureCoded
  rw [hregistry]
  simp only [hencoder]
  have hrefused : ∀ (response : Response) (w' : World), response.status ≠ 200 →
      response.status = 200 →
        Nonempty (StoredShards cfg r encoder provider backend policy response.versionID w') :=
    fun _ _ hne heq => absurd heq hne
  split
  · exact hrefused _ _ (by simp)
  split
  · exact hrefused _ _ (by simp)
  intro x _
  rw [now_exec]
  simp only [Proc.ret_bind]
  generalize cfg.newPieceID r.tenantID r.bucket r.key x.now = versionID
  cases hsealed : prepareErasureCodedEncryption cfg r policy.encryptionMode
      (r.aadIdentity cfg versionID) with
  | error response =>
    have := prepareErasureCodedEncryption_refused hsealed
    exact hrefused _ _ (by simp at this; omega)
  | ok sealed =>
    simp only
    rcases hencode : encoder.encode sealed.2 with message | shards
    · exact hrefused _ _ (by simp)
    apply (putShards_written hprovider shards []).seq
    intro result w' hresult
    rcases result with e | pieces
    · exact hrefused _ _ (by simp)
    rcases hresult pieces rfl with ⟨rfl, rfl⟩
    rw [List.nil_append]
    intro y _
    rw [now_exec]
    apply persistManifest_ensures hrefused
    rintro m' ⟨ret, rfl⟩ _
    exact ⟨{ m := _, encCfg := sealed.1, bytes := sealed.2, shards, createdAt := y.now
             found := FMap.lookup_insert_ite _ _ _ _ |>.trans (if_pos rfl)
             stamped := ⟨ret, rfl⟩
             sealed := hsealed
             encoded := hencode
             written := fun hsorted sh hsh => lookup_withShards hsorted hsh }⟩

end

/-! ## 5. Faults -/

def ShardOutcome.bytes : ShardOutcome → Bytes
  | .got bytes => bytes
  | _ => []

section

variable {cfg : Config} {tolerance : Nat} {read : Piece → ShardRead}

theorem collectShards_eq {ps : List Piece} (losses : Int → Nat) (shards : List Shard)
    (hstop : ∀ p ∈ ps, ∀ refusal, p.outcome cfg (read p) ≠ .stop refusal)
    (hbudget : ∀ stripe : Int, losses stripe + ps.countP (fun p => p.stripeIndex = stripe ∧
      (p.outcome cfg (read p)).isLost = true) ≤ tolerance) :
    collectShards cfg tolerance read ps losses shards =
      .ok (shards ++ ps.map fun p => p.shard (p.outcome cfg (read p)).bytes) := by
  induction ps generalizing losses shards with
  | nil =>
    rw [List.map_nil, List.append_nil]
    rfl
  | cons p ps ih => ?_
  have hrest : ∀ q ∈ ps, ∀ refusal, q.outcome cfg (read q) ≠ .stop refusal :=
    fun q hq => hstop q (List.mem_cons_of_mem p hq)
  unfold collectShards
  cases hout : p.outcome cfg (read p) with
  | got bytes =>
    have hnext := ih losses (shards ++ [p.shard bytes]) hrest (by
      intro stripe
      have hstripe := hbudget stripe
      rw [List.countP_cons] at hstripe
      omega)
    simp only
    rw [hnext, List.map_cons, hout, List.append_assoc]
    rfl
  | stop refusal => exact absurd hout (hstop p List.mem_cons_self refusal)
  | lost refusal => ?_
  have hmine := hbudget p.stripeIndex
  rw [List.countP_cons_of_pos (by simp [hout, ShardOutcome.isLost])] at hmine
  have hnot : ¬ tolerance < losses p.stripeIndex + 1 := by omega
  have hnext := ih (Function.update losses p.stripeIndex (losses p.stripeIndex + 1))
    (shards ++ [p.shard []]) hrest (by
      intro stripe
      by_cases hsame : stripe = p.stripeIndex
      · rw [hsame, Function.update_self]
        omega
      have hstripe := hbudget stripe
      rw [List.countP_cons] at hstripe
      rw [Function.update_of_ne hsame]
      omega)
  simp only [hnot, if_false]
  rw [hnext, List.map_cons, hout, List.append_assoc]
  rfl

theorem collectShards_of_stop {ps : List Piece} {p : Piece} (hp : p ∈ ps) {refusal : Response} (hstop : p.outcome cfg (read p) = .stop refusal)
    (losses : Int → Nat) (shards : List Shard) :
    ∃ response, collectShards cfg tolerance read ps losses shards = .error response := by
  induction ps generalizing losses shards with
  | nil => exact absurd hp List.not_mem_nil
  | cons q ps ih => ?_
  unfold collectShards
  cases hout : q.outcome cfg (read q) with
  | stop refusal => exact ⟨refusal, rfl⟩
  | got bytes =>
    rcases List.mem_cons.mp hp with rfl | hmem
    · rw [hstop] at hout
      exact absurd hout (by simp)
    · exact ih hmem _ _
  | lost refusal => ?_
  rcases List.mem_cons.mp hp with rfl | hmem
  · rw [hstop] at hout
    exact absurd hout (by simp)
  simp only
  split
  · exact ⟨refusal, rfl⟩
  · exact ih hmem _ _

/-- At most `parity` pieces of each stripe are not read as they are stored. -/
def Tolerable (parity : Nat) (ps : List Piece) (stored : FMap PieceAddr Bytes)
    (read : Piece → ShardRead) : Prop :=
  ∀ stripe : Int, ps.countP (fun p => p.stripeIndex = stripe ∧
    (read p).bytes? ≠ stored.lookup p.addr) ≤ parity

theorem outcome_storedShard (hblake : Function.Injective cfg.blake3) (provider : Provider)
    (backend versionID : String) (sh : Shard) {got : ShardRead}
    (hread : ∀ message, got ≠ .readError message) :
    if got.bytes? = some sh.bytes then
      (storedShard cfg provider backend versionID sh).outcome cfg got = .got sh.bytes
    else ∃ refusal,
      (storedShard cfg provider backend versionID sh).outcome cfg got = .lost refusal := by
  have hverify := @verifyPiece_blake3 cfg (storedShard cfg provider backend versionID sh)
    (cfg.blake3Hex sh.bytes) rfl
  cases got with
  | unregistered | getError => exact ⟨_, rfl⟩
  | readError message => exact absurd rfl (hread message)
  | body bytes => ?_
  have hhash : cfg.blake3Hex bytes = cfg.blake3Hex sh.bytes ↔ bytes = sh.bytes :=
    ⟨fun h => hblake (hexEncode_injective h), fun h => by rw [h]⟩
  unfold Piece.outcome
  simp only [ShardRead.bytes?, Option.some.injEq, hverify, hhash]
  by_cases hsame : bytes = sh.bytes
  · simp only [hsame, if_true]
  · simp only [hsame, if_false]
    exact ⟨_, rfl⟩

variable {rs : ErasureCoding.ReedSolomon} {e : ErasureCoding.Encoder rs} {r : PutRequest}
  {provider : Provider} {backend versionID : String} {policy : PlacementPolicy} {w : World}
  {lookup : String → Except String ErasureEncoder}

section

variable (st : StoredShards cfg r e.gateway provider backend policy versionID w)
include st

theorem StoredShards.pieces_eq :
    st.m.pieces = st.shards.map (storedShard cfg provider backend versionID) := by
  rcases st.stamped with ⟨ret, hm⟩
  rw [hm]
  rfl

def readShards (cfg : Config) (provider : Provider) (backend versionID : String)
    (read : Piece → ShardRead) (shards : List Shard) : List Shard :=
  shards.map fun sh =>
    if (read (storedShard cfg provider backend versionID sh)).bytes? = some sh.bytes then sh
    else { sh with bytes := [] }

theorem StoredShards.collectShards_eq
    (hblake : Function.Injective cfg.blake3) (hsorted : st.shards.Pairwise Shard.before)
    (hread : ∀ p ∈ st.m.pieces, ∀ message, read p ≠ .readError message)
    (hfaults : Tolerable tolerance st.m.pieces w.pieces read) :
    collectShards cfg tolerance read (st.m.pieces.insertionSort shardBefore) (fun _ => 0) [] =
      .ok (readShards cfg provider backend versionID read st.shards) := by
  have hmem : ∀ sh ∈ st.shards, storedShard cfg provider backend versionID sh ∈ st.m.pieces := by
    intro sh hsh
    rw [st.pieces_eq]
    exact List.mem_map_of_mem hsh
  have hstop : ∀ p ∈ st.m.pieces, ∀ refusal, p.outcome cfg (read p) ≠ .stop refusal := by
    intro p hp refusal hstop
    rw [st.pieces_eq] at hp
    rcases List.mem_map.mp hp with ⟨sh, hsh, rfl⟩
    have hout := outcome_storedShard hblake provider backend versionID sh (hread _ (hmem sh hsh))
    split at hout
    · rw [hout] at hstop
      exact absurd hstop (by simp)
    · rcases hout with ⟨refusal', hlost⟩
      rw [hlost] at hstop
      exact absurd hstop (by simp)
  have hlost : ∀ p ∈ st.m.pieces, (p.outcome cfg (read p)).isLost = true →
      (read p).bytes? ≠ w.pieces.lookup p.addr := by
    intro p hp hlost
    rw [st.pieces_eq] at hp
    rcases List.mem_map.mp hp with ⟨sh, hsh, rfl⟩
    have hfound : w.pieces.lookup (storedShard cfg provider backend versionID sh).addr =
        some sh.bytes := st.written hsorted sh hsh
    have hout := outcome_storedShard hblake provider backend versionID sh (hread _ (hmem sh hsh))
    rw [hfound]
    split at hout
    · rw [hout] at hlost
      exact absurd hlost (by simp [ShardOutcome.isLost])
    · assumption
  have hinorder : st.m.pieces.Pairwise shardBefore := by
    rw [st.pieces_eq]
    exact pairwise_storedShard hsorted
  rw [hinorder.insertionSort_eq]
  rw [ObjectFabric.collectShards_eq (fun _ => 0) [] hstop (by
    intro stripe
    rw [Nat.zero_add]
    refine (List.countP_mono_left ?_).trans (hfaults stripe)
    intro p hp hcount
    simp only [decide_eq_true_eq] at hcount ⊢
    exact ⟨hcount.1, hlost p hp hcount.2⟩)]
  rw [List.nil_append, st.pieces_eq, List.map_map]
  refine congrArg Except.ok (List.map_congr_left fun sh hsh => ?_)
  have hout := outcome_storedShard hblake provider backend versionID sh (hread _ (hmem sh hsh))
  rw [Function.comp_apply, storedShard_shard]
  split at hout
  · rename_i hgot
    rw [hout, if_pos hgot]
    rfl
  rename_i hgot
  rcases hout with ⟨refusal, hlost⟩
  rw [hlost, if_neg hgot]
  rfl

theorem StoredShards.decode_readShards (hmds : e.codec.Mds e.dataShards e.parityShards)
    (hfaults : Tolerable e.parityShards st.m.pieces w.pieces read) :
    e.gateway.decode (readShards cfg provider backend versionID read st.shards) = .ok st.bytes := by
  rcases ErasureCoding.Encoder.gateway_encode_eq_ok st.encoded with ⟨orig, horig, hshards⟩
  have hsorted := ErasureCoding.Encoder.pairwise_before horig
  rw [← hshards] at hsorted
  let piece (o : ErasureCoding.Shard) : Piece :=
    storedShard cfg provider backend versionID o.gateway
  let lost (o : ErasureCoding.Shard) : Bool := (read (piece o)).bytes? ≠ some o.bytes
  have hdecode := e.decode_blanked hmds horig lost (by
    intro stripe
    refine le_trans (le_of_eq ?_) (hfaults stripe)
    rw [st.pieces_eq, hshards, List.map_map, List.countP_map]
    refine List.countP_congr fun o ho => ?_
    have hback := congrArg ErasureCoding.Shard.stripeIndex
      (ErasureCoding.Encoder.ofGateway_gateway horig ho)
    have hstripe : (piece o).stripeIndex = o.stripeIndex := hback
    have hfound : w.pieces.lookup (piece o).addr = some o.bytes :=
      st.written hsorted o.gateway (by rw [hshards]; exact List.mem_map_of_mem ho)
    simp only [Function.comp_apply, decide_eq_true_eq, lost]
    rw [show storedShard cfg provider backend versionID o.gateway = piece o from rfl, hstripe, hfound])
  apply ErasureCoding.Encoder.gateway_decode_eq_ok.mpr
  rw [← hdecode, hshards]
  unfold readShards
  rw [List.map_map, List.map_map]
  refine congrArg e.decode (List.map_congr_left fun o ho => ?_)
  have hback := ErasureCoding.Encoder.ofGateway_gateway horig ho
  show ErasureCoding.Shard.ofGateway (if (read (piece o)).bytes? = some o.bytes then o.gateway
    else { o.gateway with bytes := [] }) = if lost o then { o with bytes := [] } else o
  by_cases hgot : (read (piece o)).bytes? = some o.bytes
  · have hkept : lost o = false := by simp [lost, hgot]
    rw [if_pos hgot, hback, hkept]
    rfl
  · have hlost : lost o = true := by simp [lost, hgot]
    rw [if_neg hgot, hlost, if_pos rfl]
    exact congrArg (fun o' : ErasureCoding.Shard => { o' with bytes := [] }) hback

theorem StoredShards.reconstruct_eq (hopens : OpensBack cfg)
    (hblake : Function.Injective cfg.blake3) (hmds : e.codec.Mds e.dataShards e.parityShards)
    (hregistry : cfg.erasureCoding = some lookup)
    (hencoder : lookup policy.erasureProfile = .ok e.gateway) (hprofile : policy.erasureProfile ≠ "")
    (hread : ∀ p ∈ st.m.pieces, ∀ message, read p ≠ .readError message)
    (hfaults : Tolerable e.parityShards st.m.pieces w.pieces read) :
    reconstructFromReads cfg st.m read = .ok r.body := by
  rcases ErasureCoding.Encoder.gateway_reads_back hmds st.encoded with ⟨hne, hsorted, -⟩
  have hcollect := st.collectShards_eq hblake hsorted hread hfaults
  have hdecode := st.decode_readShards hmds hfaults
  have hunseal : unsealShards cfg st.m st.bytes = .ok r.body := by
    apply unsealShards_of_opens
    rcases st.stamped with ⟨ret, hm⟩
    rw [hm]
    exact prepareErasureCodedEncryption_opens hopens st.sealed
  have hpolicy : st.m.placementPolicy = policy := by
    rcases st.stamped with ⟨ret, hm⟩
    rw [hm]
    rfl
  -- the first shard has a stripe number
  have hstripes : ¬ (st.m.pieces.all fun p => p.stripeIndex + 1 ≤ 0) = true := by
    intro hall
    rcases List.exists_mem_of_ne_nil _ hne with ⟨sh, hsh⟩
    rw [st.pieces_eq, List.all_map, List.all_eq_true] at hall
    have hbad : (sh.stripeIndex : Int) + 1 ≤ 0 := of_decide_eq_true (hall sh hsh)
    omega
  unfold reconstructFromReads
  rw [hregistry, hpolicy]
  simp only [hprofile, hencoder, if_false]
  have hparity : e.gateway.parityShards = e.parityShards := rfl
  rw [if_neg hstripes, hparity, hcollect]
  simp only [hdecode, hunseal]

end

theorem reconstructFromReads_error {m : ObjectManifest} {p : Piece} (hp : p ∈ m.pieces)
    {message : String} (hread : read p = .readError message) :
    ∃ response, reconstructFromReads cfg m read = .error response := by
  have hstop : p.outcome cfg (read p) =
      .stop { status := 502, code := "BackendGetFailed", message } := by
    rw [hread]
    rfl
  unfold reconstructFromReads
  split
  · exact ⟨_, rfl⟩
  split
  · exact ⟨_, rfl⟩
  split
  · exact ⟨_, rfl⟩
  rename_i encoder hlookup
  split
  · exact ⟨_, rfl⟩
  have hcollect := @collectShards_of_stop cfg encoder.parityShards read
    _ p ((List.mem_insertionSort shardBefore).mpr hp) _ hstop (fun _ => 0) []
  rcases hcollect with ⟨response, hresponse⟩
  rw [hresponse]
  exact ⟨response, rfl⟩

theorem reconstruct_putErasureCoded_iff (hopens : OpensBack cfg)
    (hblake : Function.Injective cfg.blake3) (hmds : e.codec.Mds e.dataShards e.parityShards)
    (hregistry : cfg.erasureCoding = some lookup)
    (hencoder : lookup policy.erasureProfile = .ok e.gateway) (hprofile : policy.erasureProfile ≠ "")
    (hprovider : cfg.providers backend = some provider) {x : Nat → Choice} {response : Response}
    {h : History Call} {w w' : World}
    (hrun : (putErasureCoded cfg r backend policy).run (machine cfg.providers) x [] w =
      (response, h, w'))
    (hstatus : response.status = 200) :
    ∃ m, w'.manifests.byKey.lookup (cfg.manifestKey r.tenantID r.bucket r.key response.versionID) =
        some m ∧
      ∀ read, Tolerable e.parityShards m.pieces w'.pieces read →
        (reconstructFromReads cfg m read = .ok r.body ↔
          ∀ p ∈ m.pieces, ∀ message, read p ≠ .readError message) := by
  have hensures : (putErasureCoded cfg r backend policy).Ensures (machine cfg.providers)
      (fun _ => True) w _ := putErasureCoded_stores hregistry hencoder hprovider
  have hstores := hensures.run (x := x) (fun n => trivial) []
  rw [hrun] at hstores
  rcases hstores hstatus with ⟨st⟩
  refine ⟨st.m, st.found, fun read hfaults => ⟨fun heq p hp message hread => ?_, fun hread => ?_⟩⟩
  · rcases reconstructFromReads_error hp hread with ⟨refusal, herror⟩
    rw [heq] at herror
    exact absurd herror (by simp)
  · exact st.reconstruct_eq hopens hblake hmds hregistry hencoder hprofile hread hfaults

end

/-! ## 6. A run -/

/-- The two data shards of the one-byte object, which their parity shards repeat. -/
def mirrorShards : List Bytes := [[0, 0, 0, 0, 0, 0, 0, 1], [97, 0, 0, 0, 0, 0, 0, 0]]

def mirrorDigests : List Bytes :=
  [[0x68, 0xea, 0xe1, 0x06, 0x6f, 0xca, 0x29, 0xe3, 0x23, 0x6b, 0x08, 0xeb, 0x29, 0xb3, 0x63, 0xfb,
    0xe2, 0x04, 0xec, 0x65, 0xe3, 0xdc, 0xca, 0x8a, 0xa4, 0x04, 0xc3, 0x2e, 0x80, 0x80, 0xad, 0x15],
   [0x81, 0xe5, 0x7b, 0x58, 0x3d, 0xdc, 0x5f, 0xef, 0x06, 0x8a, 0x0f, 0x5c, 0xb6, 0xef, 0xa4, 0xab,
    0xc2, 0xde, 0x4d, 0x56, 0x9d, 0x10, 0x4f, 0x36, 0x7d, 0xaf, 0xdb, 0x08, 0xbd, 0x0e, 0xf1, 0xf1]]

def mirrorLookup (profile : String) : Except String ErasureEncoder :=
  if profile = "1+1" then .ok ErasureCoding.mirrorEncoder.gateway
  else .error ("erasure_coding: profile \"" ++ profile ++ "\" not registered")

/-- The sample gateway with the profile `1+1`; its hash has no collisions and agrees with BLAKE3 on
the shards. -/
def mirrorGateway : Config :=
  { sampleGateway with
    blake3 := (Equiv.swap (mirrorShards.getD 0 []) (mirrorDigests.getD 0 [])).trans
      (Equiv.swap (mirrorShards.getD 1 []) (mirrorDigests.getD 1 []))
    erasureCoding := some mirrorLookup }

def mirrorPolicy : PlacementPolicy := { erasureProfile := "1+1" }

def mirrorRun : Response × History Call × World :=
  (putErasureCoded mirrorGateway samplePut "backend" mirrorPolicy).run
    (machine mirrorGateway.providers) (fun _ => sampleClock 0) [] {}

def mirrorStored : Option ObjectManifest :=
  mirrorRun.2.2.manifests.byKey.lookup
    (mirrorGateway.manifestKey "tenant" "bucket" "key" mirrorRun.1.versionID)

theorem mirrorStored_isSome : mirrorStored.isSome = true := by
  decide +kernel

/-- The object that was stored under the profile `1+1`. -/
def mirrorManifest : ObjectManifest := mirrorStored.get mirrorStored_isSome

def brokenRead (p : Piece) : ShardRead :=
  if p.stripeIndex = 0 ∧ p.shardIndex = 0 then .readError "unexpected EOF"
  else
    match mirrorRun.2.2.pieces.lookup p.addr with
    | some bytes => .body bytes
    | none => .getError "not found"

/-- One shard of the stripe is missing, its copy is there, and the object is refused. -/
theorem broken_read_refused :
    ∃ m, mirrorStored = some m ∧
      Tolerable ErasureCoding.mirrorEncoder.parityShards m.pieces mirrorRun.2.2.pieces brokenRead ∧
      reconstructFromReads mirrorGateway m brokenRead =
        .error { status := 502, code := "BackendGetFailed", message := "unexpected EOF" } := by
  refine ⟨mirrorManifest, (Option.some_get _).symm, fun stripe => ?_, by decide +kernel⟩
  have hone : mirrorManifest.pieces.countP
      (fun p => (brokenRead p).bytes? ≠ mirrorRun.2.2.pieces.lookup p.addr) ≤ 1 := by
    decide +kernel
  refine le_trans (List.countP_mono_left fun p _ hp => ?_) hone
  simp only [decide_eq_true_eq] at hp ⊢
  exact hp.2

theorem mirrorGateway_injective : Function.Injective mirrorGateway.blake3 :=
  ((Equiv.swap _ _).trans (Equiv.swap _ _)).injective

theorem mirrorGateway_opensBack : OpensBack mirrorGateway := by
  refine ⟨?_, ?_, ?_, ?_⟩
  · intro _ _ _ _ _ _ _ hct _
    rw [← Except.ok.inj hct]
    rfl
  · intro _ _ _ _ _ hct _
    rw [← Except.ok.inj hct]
    rfl
  · intro _ _ _ _ _ henc
    exact absurd henc (by simp [mirrorGateway, sampleGateway])
  · intro lookup profile encoder body shards hregistry hencoder hencode
    rw [← Option.some.inj hregistry] at hencoder
    unfold mirrorLookup at hencoder
    split at hencoder
    · rw [← Except.ok.inj hencoder] at hencode ⊢
      exact ErasureCoding.Encoder.gateway_reads_back ErasureCoding.mirrorCodec_mds hencode
    · exact absurd hencoder (by simp)

theorem reconstruct_putErasureCoded_mirror :
    ∃ m, mirrorStored = some m ∧ ∀ read,
      Tolerable ErasureCoding.mirrorEncoder.parityShards m.pieces mirrorRun.2.2.pieces read →
        (reconstructFromReads mirrorGateway m read = .ok [97] ↔
          ∀ p ∈ m.pieces, ∀ message, read p ≠ .readError message) :=
  @reconstruct_putErasureCoded_iff mirrorGateway ErasureCoding.mirrorRS ErasureCoding.mirrorEncoder
    samplePut {} "backend" mirrorPolicy mirrorLookup mirrorGateway_opensBack
    mirrorGateway_injective ErasureCoding.mirrorCodec_mds rfl rfl (by decide) rfl (fun _ => sampleClock 0) mirrorRun.1 mirrorRun.2.1 {} mirrorRun.2.2 rfl
    (by decide +kernel)

end ObjectFabric
