import ObjectFabric.Gateway.ShardFaults

/-!
# Head — HEAD of an object

`Handler.Head` of `api/s3compat/handler.go`.  It resolves the object as GET does and then answers
from the manifest alone, with the refusals that the matching GET would give.
-/

namespace ObjectFabric

open Interleaving

/-- An answer without a body.  The length of an answer of several ranges depends on how the parts
are framed, which is not modelled. -/
structure HeadResponse extends Response where
  contentLength : Option Int := none
  contentRange : String := ""
  deriving DecidableEq, Repr

def ObjectManifest.described (m : ObjectManifest) (etag : String) (ranges : Ranges) : HeadResponse :=
  match ranges with
  | .whole => { status := 200, versionID := m.versionID, etag, contentLength := some m.objectSize }
  | .single r =>
    let last := if r.last < 0 then m.objectSize - 1 else r.last
    { status := 206, versionID := m.versionID, etag, contentLength := some (last - r.first + 1)
      contentRange := "bytes " ++ toString r.first ++ "-" ++ toString last ++ "/" ++
        toString m.objectSize }
  | .multi _ _ => { status := 206, versionID := m.versionID, etag }

def headError (status : Nat) (code message : String) : HeadResponse := { status, code, message }

section

variable (cfg : Config)

def headErasureCoded (req : GetRequest) (m : ObjectManifest) : HeadResponse :=
  match cfg.erasureCoding with
  | none => headError 500 "ErasureCodingNotConfigured"
      "object is erasure-coded but no registry is configured"
  | some lookup =>
    if m.placementPolicy.erasureProfile = "" then
      headError 500 "ErasureProfileMissing" "erasure-coded manifest is missing ErasureProfile"
    else
      match lookup m.placementPolicy.erasureProfile with
      | .error message => headError 500 "ErasureProfileNotRegistered" message
      | .ok _ =>
        match req.ranges m.objectSize with
        | .error message => headError 416 "InvalidRange" message
        | .ok ranges => m.described "" ranges

def headMultipart (req : GetRequest) (m : ObjectManifest) : HeadResponse :=
  match req.ranges m.objectSize with
  | .error message => headError 416 "InvalidRange" message
  | .ok ranges =>
    if maxMultipartInMemoryBytes < m.objectSize then
      headError 507 "MultipartTooLarge"
        ("multipart object of " ++ toString m.objectSize ++
          " bytes exceeds in-memory pre-fetch ceiling of " ++
          toString maxMultipartInMemoryBytes ++ " bytes")
    else
      match m.pieces.find? fun p => (cfg.providers p.backend).isNone with
      | some p => headError 502 "BackendNotRegistered"
          ("part " ++ toString p.partNumber ++ " references unregistered backend \"" ++
            p.backend ++ "\"")
      | none => m.described "" ranges

def headSinglePiece (req : GetRequest) (m : ObjectManifest) (p : Piece) : HeadResponse :=
  match req.ranges m.objectSize with
  | .error message => headError 416 "InvalidRange" message
  | .ok ranges =>
    if m.encryption.mode.isGatewayEncrypted ∧ ranges ≠ .whole ∧
        maxInMemoryObjectBytes < m.objectSize then
      headError 507 "RangeRequestTooLargeForBufferedDecrypt"
        ("range GET on gateway-encrypted object of " ++ toString m.objectSize ++
          " bytes exceeds in-memory decrypt ceiling of " ++ toString maxInMemoryObjectBytes ++
          " bytes; full-object GETs stream without this ceiling")
    else
      m.described (quote p.etag) ranges

def headObject (req : GetRequest) : Proc Call HeadResponse := do
  match ← resolve cfg req.object with
  | .error response => return { toResponse := response }
  | .ok (m, p) =>
    match req.diverted m with
    | some response => return { toResponse := response }
    | none =>
      if m.isErasureCoded then
        return headErasureCoded cfg req m
      else if m.isMultipart then
        return headMultipart cfg req m
      else
        return headSinglePiece req m p

end

/-! ## 1. Erasure-coded objects -/

section

variable {cfg : Config} {req : GetRequest} {m : ObjectManifest} {w : World} {x : Nat → Choice}

theorem resolve_run (hreq : PlainGet req) (hx : (x 0).fault = false)
    (hget : w.manifests.get (req.object.manifestKey cfg) = .ok m) (hmarker : m.deleteMarker = false)
    {p : Piece} {ps : List Piece} (hpieces : m.pieces = p :: ps) {α : Type}
    (k : Except Response (ObjectManifest × Piece) → Proc Call α) (h : History Call) :
    (((resolve cfg req.object).bind k).run (machine cfg.providers) x h w).1 =
      ((k (if (cfg.providers p.backend).isNone then
          .error { status := 500, code := "BackendNotRegistered",
                   message := "backend " ++ p.backend ++ " is not in the provider registry" }
        else .ok (m, p))).run (machine cfg.providers) (fun n => x (n + 1)) h w).1 := by
  have hpath : ¬ (req.object.bucket = "" ∨ req.object.key = "") := by
    rintro (h | h)
    · exact hreq.bucket h
    · exact hreq.key h
  have hexec : (machine cfg.providers).exec (x 0) (.manifestGet (req.object.manifestKey cfg)) w =
      (.ok m, w) := by
    rw [machine_exec_of_no_fault hx]
    show (w.manifests.get (req.object.manifestKey cfg), w) = _
    rw [hget]
  unfold resolve
  simp only [if_neg hpath, Proc.bind_eq, Proc.ask_bind, Proc.call_bind]
  conv_lhs => unfold Proc.run
  simp only [hexec, hmarker, hpieces, Bool.false_eq_true, if_false]
  rw [Proc.run_history _ h]
  cases (cfg.providers p.backend).isNone <;> rfl

theorem getReconstructed_run (hreq : PlainGet req) {reconstruct : Proc Call (Except Response Bytes)}
    {h : History Call} :
    ((getReconstructed req m reconstruct).run (machine cfg.providers) x h w).1 =
      match (reconstruct.run (machine cfg.providers) x h w).1 with
      | .error response => response
      | .ok body => m.served 200 [body] := by
  unfold getReconstructed
  rw [hreq.ranges]
  simp only [Proc.bind_eq]
  let answer (r : Except Response Bytes) : Response :=
    match r with
    | .error response => response
    | .ok body => m.served 200 [body]
  exact Proc.run_bind_ret (f := answer) fun r => by cases r <;> rfl

theorem headErasureCoded_of_reconstructed (hreq : PlainGet req) {payload : Bytes} {h : History Call}
    (hpayload : ((reconstructErasureCoded cfg m).run (machine cfg.providers) x h w).1 = .ok payload) :
    headErasureCoded cfg req m = m.described "" .whole := by
  unfold reconstructErasureCoded at hpayload
  unfold headErasureCoded
  rcases hregistry : cfg.erasureCoding with _ | lookup
  · simp only [hregistry] at hpayload
    exact absurd hpayload (by simp [reconstructError, Proc.run])
  simp only [hregistry] at hpayload
  by_cases hprofile : m.placementPolicy.erasureProfile = ""
  · simp only [hprofile, if_true] at hpayload
    exact absurd hpayload (by simp [reconstructError, Proc.run])
  simp only [hprofile, if_false] at hpayload ⊢
  cases hlookup : lookup m.placementPolicy.erasureProfile with
  | error message =>
    simp only [hlookup] at hpayload
    exact absurd hpayload (by simp [reconstructError, Proc.run])
  | ok encoder =>
    simp only [hreq.ranges]

/-- GET and HEAD of an object that can be reconstructed succeed when the backend of its first shard
is registered, and only then. -/
theorem readable_iff_first_registered (hreq : PlainGet req) (hx : (x 0).fault = false)
    (hget : w.manifests.get (req.object.manifestKey cfg) = .ok m) (hmarker : m.deleteMarker = false)
    (hcoded : m.isErasureCoded = true) {payload : Bytes} {h : History Call}
    (hpayload : ((reconstructErasureCoded cfg m).run (machine cfg.providers) (fun n => x (n + 1))
      h w).1 = .ok payload) :
    (((getObject cfg req).run (machine cfg.providers) x [] w).1 = m.served 200 [payload] ∧
      ((headObject cfg req).run (machine cfg.providers) x [] w).1.status = 200) ↔
      ∀ p, m.pieces.head? = some p → (cfg.providers p.backend).isSome = true := by
  rcases hpieces : m.pieces with _ | ⟨p, ps⟩
  · exact absurd hcoded (by simp [ObjectManifest.isErasureCoded, hpieces])
  have hhead : (∀ q, (p :: ps).head? = some q → (cfg.providers q.backend).isSome = true) ↔
      (cfg.providers p.backend).isSome = true :=
    ⟨fun hall => hall p rfl, fun hsome q hq => Option.some.inj hq ▸ hsome⟩
  rw [hhead]
  unfold getObject getObjectWith headObject
  rw [directReads_onStores, Proc.bind_eq, Proc.bind_eq, resolve_run hreq hx hget hmarker hpieces,
    resolve_run hreq hx hget hmarker hpieces]
  rcases hprovider : cfg.providers p.backend with _ | provider
  · exact ⟨fun hboth => absurd hboth.2 (by simp [Proc.run]), fun hsome => absurd hsome (by simp)⟩
  refine ⟨fun _ => rfl, fun _ => ⟨?_, ?_⟩⟩
  · simp only [Option.isNone_some, Bool.false_eq_true, if_false, hreq.diverted, hcoded, if_true,
      directReads_onStores, getReconstructed_run hreq]
    rw [Proc.run_history h, hpayload]
  · simp only [Option.isNone_some, Bool.false_eq_true, if_false, hreq.diverted, hcoded, if_true,
      headErasureCoded_of_reconstructed hreq hpayload]
    rfl

end

/-! ## 2. A run -/

/-- The first shard of the stored object has moved to a backend that is no longer registered. -/
def scatteredManifest : ObjectManifest :=
  { mirrorManifest with pieces := mirrorManifest.pieces.modifyHead ({ · with backend := "retired" }) }

def scatteredGateway : Config :=
  { mirrorGateway with
    providers := fun backend => if backend = "retired" then none else some {} }

def scatteredWorld : World :=
  { mirrorRun.2.2 with
    manifests := mirrorRun.2.2.manifests.put scatteredManifest.key scatteredManifest }

def scatteredGet : GetRequest := { object := ⟨"tenant", "bucket", "key", ""⟩ }

/-- The stripe has its other copy, but the object cannot be read. -/
theorem scattered_get_refused :
    ((reconstructErasureCoded scatteredGateway scatteredManifest).run
        (machine scatteredGateway.providers) (fun _ => sampleClock 1) [] scatteredWorld).1 =
      .ok [97] ∧
    ((getObject scatteredGateway scatteredGet).run (machine scatteredGateway.providers)
        (fun _ => sampleClock 1) [] scatteredWorld).1 =
      { status := 500, code := "BackendNotRegistered",
        message := "backend retired is not in the provider registry" } ∧
    ((headObject scatteredGateway scatteredGet).run (machine scatteredGateway.providers)
        (fun _ => sampleClock 1) [] scatteredWorld).1.status = 500 := by
  decide +kernel

theorem readable_iff_first_registered_mirror :
    (((getObject mirrorGateway scatteredGet).run (machine mirrorGateway.providers)
        (fun _ => sampleClock 1) [] mirrorRun.2.2).1 = mirrorManifest.served 200 [[97]] ∧
      ((headObject mirrorGateway scatteredGet).run (machine mirrorGateway.providers)
        (fun _ => sampleClock 1) [] mirrorRun.2.2).1.status = 200) ↔
      ∀ p, mirrorManifest.pieces.head? = some p → (mirrorGateway.providers p.backend).isSome = true :=
  readable_iff_first_registered ⟨by decide, by decide, rfl, rfl⟩ rfl (by decide +kernel)
    (by decide +kernel) (by decide +kernel)
    (show ((reconstructErasureCoded mirrorGateway mirrorManifest).run
        (machine mirrorGateway.providers) (fun _ => sampleClock 1) [] mirrorRun.2.2).1 =
      .ok [97] by decide +kernel)

end ObjectFabric
