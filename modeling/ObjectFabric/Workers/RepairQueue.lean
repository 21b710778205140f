import ObjectFabric.Gateway.ShardFaults

/-!
# RepairQueue — writing the degraded shards of an object again

`internal/repair/repair_queue.go`.  The shards that survive are read and decoded, the object is
encoded again, and the shards that the health source reported as degraded are overwritten.  What a
survivor returns is not compared with the hash that the manifest records for it.
-/

namespace ObjectFabric

open Interleaving

namespace RepairQueue

variable (cfg : Config)

def encoderFor (m : ObjectManifest) : Except String ErasureEncoder :=
  match cfg.erasureCoding with
  | none => .error "no erasure-coding registry"
  | some lookup =>
    if m.placementPolicy.erasureProfile = "" then .error "manifest has no erasure profile"
    else lookup m.placementPolicy.erasureProfile

def fetchPiece (p : Piece) : Proc Call (Except String Bytes) :=
  if (cfg.providers p.backend).isNone then
    return .error ("provider not registered: " ++ p.backend)
  else do
    match ← ask (.getPiece p.addr) with
    | .error e => return .error e.text
    | .ok body => return .ok body

def writePiece (p : Piece) (body : Bytes) : Proc Call (Except String Unit) :=
  if (cfg.providers p.backend).isNone then
    return .error ("provider not registered: " ++ p.backend)
  else do
    match ← ask (.putPiece p.addr body) with
    | .error e => return .error e.text
    | .ok _ => return .ok ()

/-- The shards in the order of the manifest; one that is degraded or cannot be read is empty. -/
def readSurvivors (degraded : List String) : List Piece → List Shard → Proc Call (List Shard)
  | [], input => return input
  | p :: ps, input =>
    if p.pieceID ∈ degraded then
      readSurvivors degraded ps (input ++ [p.shard []])
    else do
      match ← fetchPiece cfg p with
      | .error _ => readSurvivors degraded ps (input ++ [p.shard []])
      | .ok body => readSurvivors degraded ps (input ++ [p.shard body])

/-- `freshIdx`: a later shard of the same position would replace an earlier one. -/
def freshAt (fresh : List Shard) (p : Piece) : Option Shard :=
  fresh.reverse.find? fun sh => sh.stripeIndex = p.stripeIndex ∧ sh.shardIndex = p.shardIndex

def rewriteDegraded (degraded : List String) (fresh : List Shard) :
    List Piece → Proc Call (Except String Unit)
  | [] => return .ok ()
  | p :: ps =>
    if p.pieceID ∈ degraded then
      match freshAt fresh p with
      | none => return .error "encoder did not produce shard for degraded piece"
      | some sh => do
        match ← writePiece cfg p sh.bytes with
        | .error message => return .error message
        | .ok () => rewriteDegraded degraded fresh ps
    else
      rewriteDegraded degraded fresh ps

def repairManifest (m : ObjectManifest) (degraded : List String) : Proc Call (Except String Unit) :=
  if m.pieces = [] then
    return .error "manifest has no pieces"
  else
    match encoderFor cfg m with
    | .error message => return .error message
    | .ok encoder => do
      let input ← readSurvivors cfg degraded m.pieces []
      match encoder.decode input with
      | .error message => return .error message
      | .ok plain =>
        match encoder.encode plain with
        | .error message => return .error message
        | .ok fresh => rewriteDegraded cfg degraded fresh m.pieces

/-! ## 1. The reads and the writes of a run -/

def readOf : Event Call → Option (PieceAddr × Bytes)
  | ⟨.getPiece a, .ok body⟩ => some (a, body)
  | _ => none

def writeOf : Event Call → Option (PieceAddr × Bytes)
  | ⟨.putPiece a body, _⟩ => some (a, body)
  | _ => none

def reads (h : History Call) : List (PieceAddr × Bytes) := h.filterMap readOf

def writes (h : History Call) : List (PieceAddr × Bytes) := h.filterMap writeOf

def FromReads (h : History Call) (ps : List Piece) (sh : Shard) : Prop :=
  ∃ p ∈ ps, sh = p.shard [] ∨ ∃ body, (p.addr, body) ∈ reads h ∧ sh = p.shard body

variable {cfg} {h : History Call}

theorem fetchPiece_conforms (p : Piece) :
    (fetchPiece cfg p).Conforms Proc.anyCalls (fun h' r => writes h' = writes h ∧
      (∀ ab ∈ reads h, ab ∈ reads h') ∧ ∀ body, r = .ok body → (p.addr, body) ∈ reads h') h := by
  unfold fetchPiece
  split
  · exact ⟨rfl, fun _ hab => hab, fun body hbody => by simp at hbody⟩
  refine ⟨trivial, fun b _ => ?_⟩
  cases b with
  | error e => exact ⟨rfl, fun _ hab => hab, fun body hbody => by simp at hbody⟩
  | ok body =>
    refine ⟨rfl, fun _ hab => List.mem_cons_of_mem _ hab, fun body' hbody => ?_⟩
    rw [← Except.ok.inj hbody]
    exact List.mem_cons_self

theorem readSurvivors_conforms (degraded : List String) (ps : List Piece) (input : List Shard) :
    (readSurvivors cfg degraded ps input).Conforms Proc.anyCalls (fun h' r => writes h' = writes h ∧
      (∀ ab ∈ reads h, ab ∈ reads h') ∧ ∀ sh ∈ r, sh ∈ input ∨ FromReads h' ps sh) h := by
  induction ps generalizing input h with
  | nil => exact ⟨rfl, fun _ hab => hab, fun sh hsh => Or.inl hsh⟩
  | cons p ps ih => ?_
  -- one more shard, then the rest
  have hstep : ∀ (h' : History Call) (bytes : Bytes), writes h' = writes h →
      (∀ ab ∈ reads h, ab ∈ reads h') → (bytes = [] ∨ (p.addr, bytes) ∈ reads h') →
      (readSurvivors cfg degraded ps (input ++ [p.shard bytes])).Conforms Proc.anyCalls
        (fun h'' r => writes h'' = writes h ∧ (∀ ab ∈ reads h, ab ∈ reads h'') ∧
          ∀ sh ∈ r, sh ∈ input ∨ FromReads h'' (p :: ps) sh) h' := by
    intro h' bytes hwrites hreads hbytes
    apply (ih (input ++ [p.shard bytes])).mono
    rintro h'' r ⟨hwrites', hreads', hr⟩
    refine ⟨hwrites'.trans hwrites, fun ab hab => hreads' ab (hreads ab hab), fun sh hsh => ?_⟩
    rcases hr sh hsh with hin | ⟨q, hq, hfrom⟩
    · rcases List.mem_append.mp hin with hold | hnew
      · exact Or.inl hold
      · right
        refine ⟨p, List.mem_cons_self, ?_⟩
        rw [List.mem_singleton.mp hnew]
        rcases hbytes with rfl | hbytes
        · exact Or.inl rfl
        · exact Or.inr ⟨bytes, hreads' _ hbytes, rfl⟩
    · exact Or.inr ⟨q, List.mem_cons_of_mem p hq, hfrom⟩
  unfold readSurvivors
  split
  · exact hstep h [] rfl (fun _ hab => hab) (Or.inl rfl)
  apply (fetchPiece_conforms p).seq
  rintro h' r ⟨hwrites, hreads, hr⟩
  cases r with
  | error message => exact hstep h' [] hwrites hreads (Or.inl rfl)
  | ok body => exact hstep h' body hwrites hreads (Or.inr (hr body rfl))

theorem writePiece_conforms (p : Piece) (body : Bytes) :
    (writePiece cfg p body).Conforms Proc.anyCalls (fun h' r => reads h' = reads h ∧
      (∀ ab ∈ writes h, ab ∈ writes h') ∧ (∀ ab ∈ writes h', ab ∈ writes h ∨ ab = (p.addr, body)) ∧
      (r = .ok () → (p.addr, body) ∈ writes h')) h := by
  unfold writePiece
  split
  · exact ⟨rfl, fun _ hab => hab, fun _ hab => Or.inl hab, fun hr => by simp at hr⟩
  refine ⟨trivial, fun b _ => ?_⟩
  have hdone : (p.addr, body) ∈ writes (⟨.putPiece p.addr body, b⟩ :: h) := List.mem_cons_self
  have hnew : ∀ ab ∈ writes (⟨.putPiece p.addr body, b⟩ :: h),
      ab ∈ writes h ∨ ab = (p.addr, body) := by
    intro ab hab
    rcases List.mem_cons.mp hab with heq | hold
    · exact Or.inr heq
    · exact Or.inl hold
  cases b <;> exact ⟨rfl, fun _ hab => List.mem_cons_of_mem _ hab, hnew, fun _ => hdone⟩

theorem rewriteDegraded_conforms (degraded : List String) (fresh : List Shard) (ps : List Piece) :
    (rewriteDegraded cfg degraded fresh ps).Conforms Proc.anyCalls (fun h' r =>
      reads h' = reads h ∧ (∀ ab ∈ writes h, ab ∈ writes h') ∧
      (∀ ab ∈ writes h', ab ∈ writes h ∨
        ∃ p ∈ ps, ∃ sh, freshAt fresh p = some sh ∧ ab = (p.addr, sh.bytes)) ∧
      (r = .ok () → ∀ p ∈ ps, p.pieceID ∈ degraded → ∃ body, (p.addr, body) ∈ writes h')) h := by
  induction ps generalizing h with
  | nil =>
    exact ⟨rfl, fun _ hab => hab, fun _ hab => Or.inl hab, fun _ p hp => absurd hp List.not_mem_nil⟩
  | cons p ps ih => ?_
  unfold rewriteDegraded
  split
  · rcases hfresh : freshAt fresh p with _ | sh
    · exact ⟨rfl, fun _ hab => hab, fun _ hab => Or.inl hab, fun hr => by simp at hr⟩
    apply (writePiece_conforms p sh.bytes).seq
    rintro h' r ⟨hreads, hkept, hnew, hdone⟩
    have hmine : ∀ ab ∈ writes h', ab ∈ writes h ∨
        ∃ q ∈ p :: ps, ∃ sh, freshAt fresh q = some sh ∧ ab = (q.addr, sh.bytes) := by
      intro ab hab
      rcases hnew ab hab with hold | heq
      · exact Or.inl hold
      · exact Or.inr ⟨p, List.mem_cons_self, sh, hfresh, heq⟩
    rcases r with message | u
    · exact ⟨hreads, hkept, hmine, fun hr => by simp at hr⟩
    apply ih.mono
    rintro h'' r ⟨hreads', hkept', hnew', hdone'⟩
    refine ⟨hreads'.trans hreads, fun ab hab => hkept' ab (hkept ab hab), fun ab hab => ?_,
      fun hr q hq hdegraded => ?_⟩
    · rcases hnew' ab hab with hold | ⟨q, hq, hwrite⟩
      · exact hmine ab hold
      · exact Or.inr ⟨q, List.mem_cons_of_mem p hq, hwrite⟩
    · rcases List.mem_cons.mp hq with rfl | hq
      · exact ⟨sh.bytes, hkept' _ (hdone rfl)⟩
      · exact hdone' hr q hq hdegraded
  · rename_i hhealthy
    apply ih.mono
    rintro h' r ⟨hreads, hkept, hnew, hdone⟩
    refine ⟨hreads, hkept, fun ab hab => ?_, fun hr q hq hdegraded => ?_⟩
    · rcases hnew ab hab with hold | ⟨q, hq, hwrite⟩
      · exact Or.inl hold
      · exact Or.inr ⟨q, List.mem_cons_of_mem p hq, hwrite⟩
    · rcases List.mem_cons.mp hq with rfl | hq
      · exact absurd hdegraded hhealthy
      · exact hdone hr q hq hdegraded

structure Repaired (cfg : Config) (m : ObjectManifest) (degraded : List String)
    (encoder : ErasureEncoder) (h : History Call) where
  input : List Shard
  plain : Bytes
  fresh : List Shard
  fromReads : ∀ sh ∈ input, FromReads h m.pieces sh
  decoded : encoder.decode input = .ok plain
  encoded : encoder.encode plain = .ok fresh
  written : ∀ ab ∈ writes h, ∃ p ∈ m.pieces, ∃ sh, freshAt fresh p = some sh ∧ ab = (p.addr, sh.bytes)
  rewritten : ∀ p ∈ m.pieces, p.pieceID ∈ degraded → ∃ body, (p.addr, body) ∈ writes h

theorem repairManifest_conforms {m : ObjectManifest} {degraded : List String}
    {lookup : String → Except String ErasureEncoder} {encoder : ErasureEncoder}
    (hregistry : cfg.erasureCoding = some lookup)
    (hencoder : lookup m.placementPolicy.erasureProfile = .ok encoder) :
    (repairManifest cfg m degraded).Conforms Proc.anyCalls
      (fun h r => r = .ok () → Nonempty (Repaired cfg m degraded encoder h)) [] := by
  unfold repairManifest encoderFor
  rw [hregistry]
  split
  · exact fun hr => by simp at hr
  by_cases hprofile : m.placementPolicy.erasureProfile = ""
  · simp only [hprofile, if_true]
    exact fun hr => by simp at hr
  simp only [hprofile, if_false, hencoder]
  apply (readSurvivors_conforms degraded m.pieces []).seq
  rintro h input ⟨hwrites, -, hinput⟩
  rcases hdecode : encoder.decode input with message | plain
  · exact fun hr => by simp at hr
  simp only
  rcases hencode : encoder.encode plain with message | fresh
  · exact fun hr => by simp at hr
  apply (rewriteDegraded_conforms degraded fresh m.pieces).mono
  rintro h' r ⟨hreads, -, hnew, hdone⟩ hr
  refine ⟨⟨input, plain, fresh, fun sh hsh => ?_, hdecode, hencode, fun ab hab => ?_,
    hdone hr⟩⟩
  · rcases (hinput sh hsh).resolve_left List.not_mem_nil with ⟨p, hp, hfrom⟩
    unfold FromReads
    rw [hreads]
    exact ⟨p, hp, hfrom⟩
  · refine (hnew ab hab).resolve_left fun hold => ?_
    rw [hwrites] at hold
    exact List.not_mem_nil hold

/-! ## 2. Survivors that are intact -/

structure Records (cfg : Config) (p : Piece) (sh : Shard) : Prop where
  hash : p.hash = "blake3:" ++ cfg.blake3Hex sh.bytes
  stripe : p.stripeIndex = sh.stripeIndex
  index : p.shardIndex = sh.shardIndex
  kind : p.shardKind.ofManifest = sh.kind

theorem Records.shard_eq {p : Piece} {sh : Shard} (hp : Records cfg p sh) (bytes : Bytes) :
    p.shard bytes = { sh with bytes } := by
  unfold Piece.shard
  rw [hp.stripe, hp.index, hp.kind]
  rfl

theorem records_storedShard (cfg : Config) (provider : Provider) (backend versionID : String)
    (sh : Shard) : Records cfg (storedShard cfg provider backend versionID sh) sh :=
  ⟨rfl, rfl, rfl, by cases hkind : sh.kind <;> simp [storedShard, shardPiece, hkind,
    ErasureShardKind.ofShard, ShardKind.ofManifest]⟩

/-- Every survivor that was read has the bytes its recorded hash was taken of. -/
def Intact (cfg : Config) (m : ObjectManifest) (h : History Call) : Prop :=
  ∀ p ∈ m.pieces, ∀ body, (p.addr, body) ∈ reads h → verifyPiece cfg body p = .verified

variable {rs : ErasureCoding.ReedSolomon} {e : ErasureCoding.Encoder rs} {m : ObjectManifest}
  {degraded : List String} {payload : Bytes} {shards : List Shard}

theorem eq_of_position (hsorted : shards.Pairwise Shard.before) {sh sh' : Shard} (hsh : sh ∈ shards)
    (hsh' : sh' ∈ shards) (hstripe : sh.stripeIndex = sh'.stripeIndex)
    (hindex : sh.shardIndex = sh'.shardIndex) : sh = sh' := by
  have hnodup : (shards.map fun s => (s.stripeIndex, s.shardIndex)).Nodup := by
    refine List.pairwise_map.mpr (hsorted.imp ?_)
    intro s t hst heq
    unfold Shard.before at hst
    have := Prod.mk.inj heq
    omega
  exact List.inj_on_of_nodup_map hnodup hsh hsh' (Prod.ext hstripe hindex)

theorem exists_recorded {ps : List Piece} (hrecords : List.Forall₂ (Records cfg) ps shards) {p : Piece}
    (hp : p ∈ ps) : ∃ sh, (p, sh) ∈ ps.zip shards ∧ Records cfg p sh := by
  induction hrecords with
  | nil => exact absurd hp List.not_mem_nil
  | cons hhead _ ih => ?_
  rcases List.mem_cons.mp hp with rfl | hp
  · exact ⟨_, List.mem_cons_self, hhead⟩
  · rcases ih hp with ⟨sh, hzip, hsh⟩
    exact ⟨sh, List.mem_cons_of_mem _ hzip, hsh⟩

theorem bytes_of_verified (hblake : Function.Injective cfg.blake3) {p : Piece} {sh : Shard}
    (hp : Records cfg p sh) {body : Bytes} (hverified : verifyPiece cfg body p = .verified) :
    body = sh.bytes := by
  rw [verifyPiece_blake3 hp.hash] at hverified
  split at hverified
  · rename_i hhash
    exact hblake (hexEncode_injective hhash)
  · exact absurd hverified (by simp)

theorem Repaired.fresh_eq (hblake : Function.Injective cfg.blake3)
    (hmds : e.codec.Mds e.dataShards e.parityShards)
    (hencoded : e.gateway.encode payload = .ok shards)
    (hrecords : List.Forall₂ (Records cfg) m.pieces shards)
    (r : Repaired cfg m degraded e.gateway h) (hintact : Intact cfg m h) : r.fresh = shards := by
  rcases ErasureCoding.Encoder.gateway_encode_eq_ok hencoded with ⟨orig, horig, hshards⟩
  -- a survivor that was read is the shard of its position
  have hderived : ErasureCoding.Encoder.Derived orig
      (r.input.map ErasureCoding.Shard.ofGateway) := by
    intro sh hsh
    rcases List.mem_map.mp hsh with ⟨got, hgot, rfl⟩
    rcases r.fromReads got hgot with ⟨p, hp, hfrom⟩
    rcases exists_recorded hrecords hp with ⟨sh, hzip, hp'⟩
    have hmem : sh ∈ orig.map ErasureCoding.Shard.gateway := by
      rw [← hshards]
      exact (List.of_mem_zip hzip).2
    rcases List.mem_map.mp hmem with ⟨o, ho, rfl⟩
    have hback := ErasureCoding.Encoder.ofGateway_gateway horig ho
    refine ⟨o, ho, ?_⟩
    rcases hfrom with rfl | ⟨body, hread, rfl⟩
    · right
      rw [hp'.shard_eq]
      exact congrArg (fun o' : ErasureCoding.Shard => { o' with bytes := [] }) hback
    · left
      rw [hp'.shard_eq, bytes_of_verified hblake hp' (hintact p hp body hread)]
      exact hback
  have hplain : r.plain = payload :=
    e.eq_of_decode hmds horig hderived (ErasureCoding.Encoder.gateway_decode_eq_ok.mp r.decoded)
  have hfresh := r.encoded
  rw [hplain, hencoded] at hfresh
  exact (Except.ok.inj hfresh).symm

theorem repairManifest_sound_iff (hblake : Function.Injective cfg.blake3)
    (hmds : e.codec.Mds e.dataShards e.parityShards)
    {lookup : String → Except String ErasureEncoder} (hregistry : cfg.erasureCoding = some lookup)
    (hencoder : lookup m.placementPolicy.erasureProfile = .ok e.gateway)
    (hencoded : e.gateway.encode payload = .ok shards)
    (hrecords : List.Forall₂ (Records cfg) m.pieces shards)
    (hdegraded : ∃ p ∈ m.pieces, p.pieceID ∈ degraded) {σ χ : Type} {M : Machine Call σ χ}
    {x : Nat → χ} {s s' : σ}
    (hrun : (repairManifest cfg m degraded).run M x [] s = (.ok (), h, s')) :
    ((∀ a body, (a, body) ∈ writes h → ∃ ps ∈ m.pieces.zip shards, a = ps.1.addr ∧
        body = ps.2.bytes ∧ verifyPiece cfg body ps.1 = .verified) ∧
      (¬ Intact cfg m h → writes h = [])) ↔ Intact cfg m h := by
  have hconforms : (repairManifest cfg m degraded).Conforms Proc.anyCalls
      (fun h r => r = .ok () → Nonempty (Repaired cfg m degraded e.gateway h)) [] :=
    repairManifest_conforms hregistry hencoder
  have hrepaired := hconforms.run (m := M) x s
  rw [hrun] at hrepaired
  rcases hrepaired rfl with ⟨r⟩
  constructor
  · -- success means that a shard was written
    rintro ⟨-, hnothing⟩
    by_contra hcorrupt
    rcases hdegraded with ⟨p, hp, hid⟩
    rcases r.rewritten p hp hid with ⟨body, hwrite⟩
    rw [hnothing hcorrupt] at hwrite
    exact absurd hwrite List.not_mem_nil
  · intro hintact
    refine ⟨fun a body hwrite => ?_, fun hnot => absurd hintact hnot⟩
    have hfresh := r.fresh_eq hblake hmds hencoded hrecords hintact
    have hsorted := (ErasureCoding.Encoder.gateway_reads_back hmds hencoded).2.1
    rcases r.written _ hwrite with ⟨p, hp, sh, hsh, heq⟩
    rcases exists_recorded hrecords hp with ⟨sh', hzip, hp'⟩
    rw [hfresh] at hsh
    have hposition := List.find?_some hsh
    simp only [decide_eq_true_eq] at hposition
    have hsame : sh = sh' := by
      apply eq_of_position hsorted (List.mem_reverse.mp (List.mem_of_find?_eq_some hsh))
        (List.of_mem_zip hzip).2
      · have := hp'.stripe
        omega
      · have := hp'.index
        omega
    rcases Prod.mk.inj heq with ⟨rfl, rfl⟩
    rw [hsame]
    exact ⟨(p, sh'), hzip, rfl, rfl, verifyPiece_of_hash hp'.hash⟩

/-! ## 3. A run -/

def degradedCopy : List String :=
  [mirrorRun.1.versionID ++ "-s0001-p001"]

def alteredWorld : World :=
  { mirrorRun.2.2 with
    pieces := mirrorRun.2.2.pieces.insert ⟨"backend", mirrorRun.1.versionID ++ "-s0001-p000"⟩
      [98, 0, 0, 0, 0, 0, 0, 0] }

def repairRun (w : World) : Except String Unit × History Call × World :=
  (repairManifest mirrorGateway mirrorManifest degradedCopy).run (machine mirrorGateway.providers)
    (fun _ => sampleClock 1) [] w

/-- The altered bytes are copied over the degraded piece, and their hash is not the recorded one. -/
theorem altered_survivor_copied :
    (repairRun alteredWorld).1 = .ok () ∧
    writes (repairRun alteredWorld).2.1 =
      [(⟨"backend", mirrorRun.1.versionID ++ "-s0001-p001"⟩, [98, 0, 0, 0, 0, 0, 0, 0])] ∧
    ∀ p ∈ mirrorManifest.pieces, p.pieceID ∈ degradedCopy →
      verifyPiece mirrorGateway [98, 0, 0, 0, 0, 0, 0, 0] p ≠ .verified := by
  decide +kernel

def mirrorEncoded : List Shard :=
  [⟨0, 0, .data, [0, 0, 0, 0, 0, 0, 0, 1]⟩, ⟨0, 1, .parity, [0, 0, 0, 0, 0, 0, 0, 1]⟩,
   ⟨1, 0, .data, [97, 0, 0, 0, 0, 0, 0, 0]⟩, ⟨1, 1, .parity, [97, 0, 0, 0, 0, 0, 0, 0]⟩]

theorem records_mirrorManifest :
    List.Forall₂ (Records mirrorGateway) mirrorManifest.pieces mirrorEncoded := by
  have hpieces : mirrorManifest.pieces =
      mirrorEncoded.map (storedShard mirrorGateway {} "backend" mirrorRun.1.versionID) := by
    decide +kernel
  rw [hpieces]
  exact List.forall₂_map_left_iff.mpr
    (List.forall₂_same.mpr fun sh _ => records_storedShard _ _ _ _ sh)

theorem repairManifest_sound_mirror :
    ((∀ a body, (a, body) ∈ writes (repairRun mirrorRun.2.2).2.1 →
        ∃ ps ∈ mirrorManifest.pieces.zip mirrorEncoded, a = ps.1.addr ∧
          body = ps.2.bytes ∧ verifyPiece mirrorGateway body ps.1 = .verified) ∧
      (¬ Intact mirrorGateway mirrorManifest (repairRun mirrorRun.2.2).2.1 →
        writes (repairRun mirrorRun.2.2).2.1 = [])) ↔
      Intact mirrorGateway mirrorManifest (repairRun mirrorRun.2.2).2.1 :=
  repairManifest_sound_iff (m := mirrorManifest) mirrorGateway_injective
    ErasureCoding.mirrorCodec_mds rfl (if_pos (by decide +kernel))
    (show ErasureCoding.mirrorEncoder.gateway.encode [97] = .ok mirrorEncoded by decide +kernel)
    records_mirrorManifest (by decide +kernel)
    (Prod.ext (show (repairRun mirrorRun.2.2).1 = .ok () by decide +kernel) rfl)

end RepairQueue

end ObjectFabric
