import ObjectFabric.ClientSdk.Splicing
import ObjectFabric.Gateway.Sample
import ObjectFabric.Gateway.Reconstruct
import ObjectFabric.Metadata.Tenant
import ObjectFabric.Streams.Separators

/-!
# Identity — the additional data that binds a ciphertext to its object

The chunks of an object are sealed with `tenant|bucket|key hash|version` and the rows of the
manifest store with `tenant|bucket|key hash`.  The hash and the version are hexadecimal; tenant IDs
and buckets may contain the separator.
-/

namespace ObjectFabric

open Streams

/-! ## 1. Names -/

/-- `/bucket/key...`; one leading slash is dropped. -/
def parseBucketKey (path : String) : String × String :=
  let p := if path.toList.head? = some '/' then path.toList.tail else path.toList
  match p.dropWhile (· ≠ '/') with
  | [] => (String.ofList p, "")
  | _ :: key => (String.ofList (p.takeWhile (· ≠ '/')), String.ofList key)

theorem exists_bucket_iff (bucket : String) :
    (∃ path, (parseBucketKey path).1 = bucket) ↔ '/' ∉ bucket.toList := by
  constructor
  · rintro ⟨path, rfl⟩
    unfold parseBucketKey
    simp only
    generalize (if path.toList.head? = some '/' then path.toList.tail else path.toList) = p
    have htake : '/' ∉ p.takeWhile (· ≠ '/') := by
      intro hmem
      exact absurd (List.mem_takeWhile_imp hmem) (by simp)
    split
    · rename_i hdrop
      have hall : p.takeWhile (· ≠ '/') = p := by
        have happend := List.takeWhile_append_dropWhile (p := (· ≠ '/')) (l := p)
        rw [hdrop, List.append_nil] at happend
        exact happend
      rw [String.toList_ofList, ← hall]
      exact htake
    · rw [String.toList_ofList]
      exact htake
  · intro hslash
    refine ⟨"/" ++ bucket, ?_⟩
    have hlist : ("/" ++ bucket).toList = '/' :: bucket.toList := String.toList_append
    have hdrop : bucket.toList.dropWhile (· ≠ '/') = [] := by
      rw [List.dropWhile_eq_nil_iff]
      intro c hc
      exact decide_eq_true fun heq => hslash (heq ▸ hc)
    unfold parseBucketKey
    simp only [hlist, List.head?_cons, if_true, List.tail_cons]
    rw [hdrop]
    exact String.ofList_toList

theorem utf8_injective : Function.Injective utf8 := by
  intro s t h
  exact String.toByteArray_inj.mp (ByteArray.ext (Array.toList_inj.mp h))

/-! ## 2. Chunks -/

def AadIdentity.chunkAAD (id : AadIdentity) : Bytes :=
  utf8 (id.tenantID ++ "|" ++ id.bucket ++ "|" ++ id.objectKeyHash ++ "|" ++ id.versionID)

/-! ## 3. Rows -/

structure BodyContext where
  tenantID : String
  bucket : String
  objectKeyHash : String
  deriving DecidableEq, Repr

def bodyContextAAD (c : BodyContext) : Bytes :=
  if c.tenantID = "" ∧ c.bucket = "" ∧ c.objectKeyHash = "" then []
  else utf8 (c.tenantID ++ "|" ++ c.bucket ++ "|" ++ c.objectKeyHash)

def AadIdentity.row (id : AadIdentity) : BodyContext := ⟨id.tenantID, id.bucket, id.objectKeyHash⟩

structure AEADBodyEncryptor where
  aead : Aead
  key : Bytes

namespace AEADBodyEncryptor

def encrypt (e : AEADBodyEncryptor) (nonce : Nonce) (plaintext : Bytes) (ctx : BodyContext) : Bytes :=
  nonce.bytes ++ e.aead.sealWith e.key nonce.bytes plaintext (bodyContextAAD ctx)

def decrypt (e : AEADBodyEncryptor) (ciphertext : Bytes) (ctx : BodyContext) : Except String Bytes :=
  if ciphertext.length < nonceSizeX + chunkTrailerSize then
    .error "manifest_store: ciphertext shorter than nonce + tag"
  else
    let nonce := ciphertext.take nonceSizeX
    let body := ciphertext.drop nonceSizeX
    let aad := bodyContextAAD ctx
    match e.aead.openWith e.key nonce body aad with
    | some plaintext => .ok plaintext
    | none =>
      if aad = [] then
        .error "manifest_store: open body: aead.Open failed"
      else
        match e.aead.openWith e.key nonce body [] with
        | some plaintext => .ok plaintext
        | none => .error "manifest_store: open body: chacha20poly1305: message authentication failed"

end AEADBodyEncryptor

/-! ## 4. Identities -/

/-- The identities of objects: a valid tenant, a segment of a path, the digest of a key, and a
version ID, all of which are made from digests. -/
structure AadIdentity.Occurs (cfg : Config) (id : AadIdentity) : Prop where
  tenant : ∃ t : Tenant, t.validate = .ok () ∧ t.id = id.tenantID
  bucket : id.bucket ≠ "" ∧ ∃ path, (parseBucketKey path).1 = id.bucket
  keyHash : ∃ key, id.objectKeyHash = cfg.hashObjectKey key
  version : '|' ∉ id.versionID.toList

theorem bar_not_mem_of_hex {s : String} (h : isSHA256Hex s = true) : '|' ∉ s.toList := by
  unfold isSHA256Hex at h
  rw [Bool.and_eq_true, List.all_eq_true] at h
  intro hbar
  exact absurd (h.2 '|' hbar) (by decide)

def AadIdentity.Confused (id id' : AadIdentity) : Prop :=
  Regroups '|' id.tenantID.toList id.bucket.toList id'.tenantID.toList id'.bucket.toList

section

variable {id id' : AadIdentity}

theorem AadIdentity.eq_of_fields (htenant : id.tenantID = id'.tenantID)
    (hbucket : id.bucket = id'.bucket) (hhash : id.objectKeyHash = id'.objectKeyHash)
    (hversion : id.versionID = id'.versionID) : id = id' := by
  rcases id with ⟨tenantID, bucket, objectKeyHash, versionID⟩
  simp only at htenant hbucket hhash hversion
  rw [htenant, hbucket, hhash, hversion]

theorem toList_join (s t : String) : (s ++ "|" ++ t).toList = s.toList ++ '|' :: t.toList := by
  rw [String.toList_append, String.toList_append, List.append_assoc]
  rfl

theorem utf8_join_ne_nil (s t : String) : utf8 (s ++ "|" ++ t) ≠ [] := by
  intro hnil
  have hempty : s ++ "|" ++ t = "" := utf8_injective hnil
  have hlist := congrArg String.toList hempty
  rw [toList_join] at hlist
  exact absurd hlist (by simp)

theorem AadIdentity.chunkAAD_ne_nil (id : AadIdentity) : id.chunkAAD ≠ [] :=
  utf8_join_ne_nil _ _

theorem tenant_bucket_eq_iff : id.tenantID.toList ++ '|' :: id.bucket.toList =
      id'.tenantID.toList ++ '|' :: id'.bucket.toList ↔
    id.tenantID = id'.tenantID ∧ id.bucket = id'.bucket ∨ id.Confused id' := by
  rw [append_cons_eq_iff, String.toList_inj, String.toList_inj]
  rfl

theorem bodyContextAAD_row (htenant : id.tenantID ≠ "") :
    bodyContextAAD id.row = utf8 (id.tenantID ++ "|" ++ id.bucket ++ "|" ++ id.objectKeyHash) :=
  if_neg fun hempty => htenant hempty.1

theorem bodyContextAAD_eq_iff (hhash : '|' ∉ id.objectKeyHash.toList)
    (hhash' : '|' ∉ id'.objectKeyHash.toList) (htenant : id.tenantID ≠ "")
    (htenant' : id'.tenantID ≠ "") :
    bodyContextAAD id.row = bodyContextAAD id'.row ↔ id.objectKeyHash = id'.objectKeyHash ∧
      (id.tenantID = id'.tenantID ∧ id.bucket = id'.bucket ∨ id.Confused id') := by
  rw [bodyContextAAD_row htenant, bodyContextAAD_row htenant', utf8_injective.eq_iff,
    ← String.toList_inj]
  simp only [toList_join]
  rw [append_cons_inj hhash hhash', tenant_bucket_eq_iff, String.toList_inj, and_comm]

theorem AadIdentity.chunkAAD_eq_iff (hhash : '|' ∉ id.objectKeyHash.toList)
    (hhash' : '|' ∉ id'.objectKeyHash.toList) (hversion : '|' ∉ id.versionID.toList)
    (hversion' : '|' ∉ id'.versionID.toList) :
    id.chunkAAD = id'.chunkAAD ↔ id.versionID = id'.versionID ∧
      id.objectKeyHash = id'.objectKeyHash ∧
      (id.tenantID = id'.tenantID ∧ id.bucket = id'.bucket ∨ id.Confused id') := by
  unfold chunkAAD
  rw [utf8_injective.eq_iff, ← String.toList_inj]
  simp only [toList_join]
  rw [append_cons_inj hversion hversion', append_cons_inj hhash hhash', tenant_bucket_eq_iff,
    String.toList_inj, String.toList_inj, and_comm, and_comm (b := id.objectKeyHash = _)]

end

/-! ## 5. Ciphertexts -/

structure SealCall where
  nonce : Bytes
  plaintext : Bytes
  aad : Bytes

/-- Under the key nothing opens but what one of the calls has sealed, with the same nonce and
additional data. -/
def Aead.IdealFor (aead : Aead) (key : Bytes) (calls : List SealCall) : Prop :=
  ∀ nonce ct aad pt, aead.openWith key nonce ct aad = some pt →
    ∃ c ∈ calls, c.nonce = nonce ∧ c.aad = aad ∧ aead.sealWith key nonce c.plaintext aad = ct ∧
      c.plaintext = pt

/-- The additional data differ, and a key that has sealed chunks of the one identity opens no chunk
under the other. -/
def ChunksSeparated (id id' : AadIdentity) : Prop :=
  id.chunkAAD ≠ id'.chunkAAD ∧
  ∀ (aead : Aead) (key : Bytes) (calls : List SealCall),
    (∀ c ∈ calls, ∃ i, c.aad = chunkAADBytes id.chunkAAD i) → aead.IdealFor key calls →
    ∀ nonce ct j, aead.openWith key nonce ct (chunkAADBytes id'.chunkAAD j) = none

def RowsSeparated (c c' : BodyContext) : Prop :=
  bodyContextAAD c ≠ bodyContextAAD c' ∧
  ∀ (e : AEADBodyEncryptor) (calls : List SealCall), (∀ s ∈ calls, s.aad = bodyContextAAD c) →
    e.aead.IdealFor e.key calls → ∀ ct pt, e.decrypt ct c' ≠ .ok pt

theorem chunksSeparated_iff {id id' : AadIdentity} :
    ChunksSeparated id id' ↔ id.chunkAAD ≠ id'.chunkAAD := by
  refine ⟨And.left, fun hne => ⟨hne, fun aead key calls hcalls hideal nonce ct j => ?_⟩⟩
  cases hopen : aead.openWith key nonce ct (chunkAADBytes id'.chunkAAD j) with
  | none => rfl
  | some pt =>
    rcases hideal nonce ct _ pt hopen with ⟨c, hc, -, haad, -, -⟩
    rcases hcalls c hc with ⟨i, hi⟩
    exact absurd (chunkAADBytes_inj id.chunkAAD_ne_nil id'.chunkAAD_ne_nil (hi.symm.trans haad)).1 hne

theorem rowsSeparated_iff {c c' : BodyContext} (hbound : bodyContextAAD c ≠ []) :
    RowsSeparated c c' ↔ bodyContextAAD c ≠ bodyContextAAD c' := by
  refine ⟨And.left, fun hne => ⟨hne, fun e calls hcalls hideal ct pt hopen => ?_⟩⟩
  -- neither the row's own additional data nor the empty one was ever used
  have hnone : ∀ nonce body aad, aad ≠ bodyContextAAD c →
      e.aead.openWith e.key nonce body aad = none := by
    intro nonce body aad haad
    cases h : e.aead.openWith e.key nonce body aad with
    | none => rfl
    | some pt =>
      rcases hideal nonce body aad pt h with ⟨s, hs, -, hs', -, -⟩
      exact absurd (hs'.symm.trans (hcalls s hs)) haad
  unfold AEADBodyEncryptor.decrypt at hopen
  simp only [hnone _ _ _ hne.symm, hnone _ _ _ hbound.symm] at hopen
  split at hopen
  · exact absurd hopen (by simp)
  · split at hopen <;> exact absurd hopen (by simp)

/-- Two objects are told apart unless their tenants and buckets can be regrouped. -/
theorem identities_separated_iff {cfg : Config} (hsha : ∀ s, isSHA256Hex (cfg.sha256Hex s) = true)
    {id id' : AadIdentity} (h : id.Occurs cfg) (h' : id'.Occurs cfg) :
    (id ≠ id' → (ChunksSeparated id id' ↔
      ¬ (id.versionID = id'.versionID ∧ id.objectKeyHash = id'.objectKeyHash ∧ id.Confused id'))) ∧
    (id.row ≠ id'.row → (RowsSeparated id.row id'.row ↔
      ¬ (id.objectKeyHash = id'.objectKeyHash ∧ id.Confused id'))) := by
  have hbar : ∀ {id : AadIdentity}, id.Occurs cfg → '|' ∉ id.objectKeyHash.toList := by
    intro id h
    rcases h.keyHash with ⟨key, hkey⟩
    rw [hkey]
    exact bar_not_mem_of_hex (hsha key)
  have hnamed : ∀ {id : AadIdentity}, id.Occurs cfg → id.tenantID ≠ "" :=
    fun h => (Tenant.exists_validate_iff _).mp h.tenant
  constructor
  · intro hne
    rw [chunksSeparated_iff, ne_eq, AadIdentity.chunkAAD_eq_iff (hbar h) (hbar h') h.version h'.version]
    refine not_congr (and_congr_right fun hversion => and_congr_right fun hhash => ?_)
    refine or_iff_right fun hsame => hne ?_
    exact AadIdentity.eq_of_fields hsame.1 hsame.2 hhash hversion
  · intro hne
    have hbound : bodyContextAAD id.row ≠ [] := by
      rw [bodyContextAAD_row (hnamed h)]
      exact utf8_join_ne_nil _ _
    rw [rowsSeparated_iff hbound, ne_eq, bodyContextAAD_eq_iff (hbar h) (hbar h') (hnamed h) (hnamed h')]
    refine not_congr (and_congr_right fun hhash => or_iff_right fun hsame => hne ?_)
    unfold AadIdentity.row
    rw [hsame.1, hsame.2, hhash]

/-! ## 6. Two objects -/

def sampleKeyHash : String := sampleSha256Hex "key"

def acmeEu (versionID : String) : AadIdentity := ⟨"acme|eu", "logs", sampleKeyHash, versionID⟩

def acme (versionID : String) : AadIdentity := ⟨"acme", "eu|logs", sampleKeyHash, versionID⟩

def digestGateway : Config :=
  { sampleGateway with
    sha256Hex := fun s => if isSHA256Hex (sampleSha256Hex s) then sampleSha256Hex s else sampleKeyHash }

theorem digestGateway_hex (s : String) : isSHA256Hex (digestGateway.sha256Hex s) = true := by
  show isSHA256Hex (if isSHA256Hex (sampleSha256Hex s) = true then _ else sampleKeyHash) = true
  split
  · assumption
  · decide +kernel

theorem acmeEu_occurs : (acmeEu sampleKeyHash).Occurs digestGateway where
  tenant := (Tenant.exists_validate_iff _).mpr (by decide)
  bucket := ⟨by decide, (exists_bucket_iff _).mpr (by decide)⟩
  keyHash := ⟨"key", by decide +kernel⟩
  version := by decide +kernel

theorem acme_occurs : (acme sampleKeyHash).Occurs digestGateway where
  tenant := (Tenant.exists_validate_iff _).mpr (by decide)
  bucket := ⟨by decide, (exists_bucket_iff _).mpr (by decide)⟩
  keyHash := ⟨"key", by decide +kernel⟩
  version := by decide +kernel

/-- Two tenants with a bucket each, the same key and the same version. -/
theorem tenants_confused :
    acmeEu sampleKeyHash ≠ acme sampleKeyHash ∧
    (acmeEu sampleKeyHash).chunkAAD = (acme sampleKeyHash).chunkAAD ∧
    (acmeEu sampleKeyHash).row ≠ (acme sampleKeyHash).row ∧
    bodyContextAAD (acmeEu sampleKeyHash).row = bodyContextAAD (acme sampleKeyHash).row := by
  decide +kernel

theorem identities_separated_sample :
    ((acmeEu sampleKeyHash ≠ acme sampleKeyHash →
      (ChunksSeparated (acmeEu sampleKeyHash) (acme sampleKeyHash) ↔
        ¬ (sampleKeyHash = sampleKeyHash ∧ sampleKeyHash = sampleKeyHash ∧
          (acmeEu sampleKeyHash).Confused (acme sampleKeyHash)))) ∧
    ((acmeEu sampleKeyHash).row ≠ (acme sampleKeyHash).row →
      (RowsSeparated (acmeEu sampleKeyHash).row (acme sampleKeyHash).row ↔
        ¬ (sampleKeyHash = sampleKeyHash ∧
          (acmeEu sampleKeyHash).Confused (acme sampleKeyHash))))) :=
  identities_separated_iff digestGateway_hex acmeEu_occurs acme_occurs

end ObjectFabric
