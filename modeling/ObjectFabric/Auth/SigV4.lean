import ObjectFabric.Auth.Query

/-!
# SigV4 — the authenticator

`internal/auth/authenticator.go`: the canonical request, the two strategies that verify a signature
over it, and the signatures of `aws-chunked` chunks.  Hashes, clocks and the parts of the standard
library that read Unicode enter through `SigV4Library`.
-/

namespace ObjectFabric

open Streams

/-! ## 1. Requests -/

abbrev newline : UInt8 := 10
abbrev comma : UInt8 := 44
abbrev slash : UInt8 := 47
abbrev colon : UInt8 := 58

/-- What `net/http` hands on.  Header names are case-insensitive, so the values of a header stand
under its lower-case name. -/
structure HttpRequest where
  method : Bytes
  /-- A method is a token. -/
  method_token : newline ∉ method
  host : Bytes
  urlHost : Bytes := []
  path : Bytes
  rawQuery : Bytes
  header : Bytes → List Bytes
  body : Bytes := []

theorem put_token : newline ∉ utf8 "PUT" := by decide +kernel

def lowerByte (c : UInt8) : UInt8 := if 65 ≤ c ∧ c ≤ 90 then c + 32 else c

def lowerName (name : Bytes) : Bytes := name.map lowerByte

namespace HttpRequest

variable (r : HttpRequest)

/-- `Header.Get` -/
def get (name : Bytes) : Bytes := (r.header (lowerName name)).headD []

/-- `Header.Set` -/
def set (name value : Bytes) : HttpRequest :=
  { r with header := fun n => if n = lowerName name then [value] else r.header n }

/-- `Header.Del` -/
def del (name : Bytes) : HttpRequest :=
  { r with header := fun n => if n = lowerName name then [] else r.header n }

end HttpRequest

/-! ## 2. White space -/

def isSpaceByte (a : UInt8) : Bool := a == 32 || (9 ≤ a && a ≤ 13)

def isSpacePair (a b : UInt8) : Bool := a == 0xc2 && (b == 0x85 || b == 0xa0)

def isSpaceTriple (a b c : UInt8) : Bool :=
  (a == 0xe1 && b == 0x9a && c == 0x80) ||
    (a == 0xe2 && b == 0x80 && ((0x80 ≤ c && c ≤ 0x8a) || c == 0xa8 || c == 0xa9 || c == 0xaf)) ||
    (a == 0xe2 && b == 0x81 && c == 0x9f) || (a == 0xe3 && b == 0x80 && c == 0x80)

def dropSpaces (pair : UInt8 → UInt8 → Bool) (triple : UInt8 → UInt8 → UInt8 → Bool) :
    Bytes → Bytes
  | [] => []
  | a :: s =>
    if isSpaceByte a then dropSpaces pair triple s
    else match s with
      | [] => [a]
      | b :: s =>
        if pair a b then dropSpaces pair triple s
        else match s with
          | [] => [a, b]
          | c :: s => if triple a b c then dropSpaces pair triple s else a :: b :: c :: s

/-- `strings.TrimSpace`; at the end the encodings are met backwards. -/
def trimSpaceBytes (s : Bytes) : Bytes :=
  (dropSpaces (fun b a => isSpacePair a b) (fun c b a => isSpaceTriple a b c)
    (dropSpaces isSpacePair isSpaceTriple s).reverse).reverse

def noBreakSpace : Bytes := [0xc2, 0xa0]

theorem trimSpaceBytes_noBreakSpace (s : Bytes) : trimSpaceBytes (noBreakSpace ++ s) = trimSpaceBytes s := by
  have hdrop : dropSpaces isSpacePair isSpaceTriple (noBreakSpace ++ s) =
      dropSpaces isSpacePair isSpaceTriple s := by
    change dropSpaces isSpacePair isSpaceTriple (0xc2 :: 0xa0 :: s) = _
    rw [dropSpaces.eq_def]
    have hbyte : isSpaceByte 0xc2 = false := by decide
    have hpair : isSpacePair 0xc2 0xa0 = true := by decide
    simp only [hbyte, hpair, if_true, Bool.false_eq_true, if_false]
  rw [trimSpaceBytes, hdrop, trimSpaceBytes]

/-! ## 3. The canonical request -/

structure SigV4Library where
  sha256Hex : Bytes → Bytes
  /-- A hex digest is one line. -/
  sha256Hex_line : ∀ m, newline ∉ sha256Hex m
  hmacSHA256 : Bytes → Bytes → Bytes
  /-- `strings.ToLower` -/
  toLower : Bytes → Bytes
  /-- `strings.EqualFold` -/
  equalFold : Bytes → Bytes → Bool
  /-- `time.Parse("20060102T150405Z", ·)` -/
  parseISO8601 : Bytes → Except String Time
  /-- `time.Parse(time.RFC1123, ·)` -/
  parseRFC1123 : Bytes → Option Time
  formatISO8601 : Time → Bytes
  /-- `%q` -/
  quoted : Bytes → String
  /-- `Duration.String` -/
  durationText : Time → String

structure ParsedAuthHeader where
  accessKey : Bytes := []
  date : Bytes := []
  region : Bytes := []
  service : Bytes := []
  signedHeaders : List Bytes := []
  signature : Bytes := []

def lowerHex (n : Nat) : UInt8 := if n < 10 then UInt8.ofNat (48 + n) else UInt8.ofNat (87 + n)

/-- `hex.EncodeToString` -/
def hexString (b : Bytes) : Bytes :=
  b.flatMap fun c => [lowerHex (c.toNat / 16), lowerHex (c.toNat % 16)]

def canonicalURI (path : Bytes) : Bytes :=
  if path = [] then [slash]
  else [slash].intercalate ((path.splitOn slash).map sigV4PercentEncode)

def awsAlgorithm : Bytes := utf8 "AWS4-HMAC-SHA256"

def awsRequest : Bytes := utf8 "aws4_request"

def dateHeader : Bytes := utf8 "x-amz-date"

def payloadHeader : Bytes := utf8 "x-amz-content-sha256"

def credentialScope (p : ParsedAuthHeader) : Bytes :=
  [slash].intercalate [p.date, p.region, p.service, awsRequest]

namespace SigV4Library

variable (lib : SigV4Library)

def buildCanonicalHeaders (r : HttpRequest) (signedHeaders : List Bytes) (host : Bytes) : Bytes :=
  signedHeaders.flatMap fun name =>
    let value := if lib.toLower name = utf8 "host" then host else r.get name
    lib.toLower name ++ colon :: (trimSpaceBytes value ++ [newline])

def payloadHash (r : HttpRequest) : Bytes :=
  if r.get payloadHeader = [] then utf8 "UNSIGNED-PAYLOAD" else r.get payloadHeader

def canonicalRequest (r : HttpRequest) (p : ParsedAuthHeader) (host : Bytes) : Bytes :=
  [newline].intercalate
    [r.method, canonicalURI r.path, canonicalQuery r.rawQuery,
      lib.buildCanonicalHeaders r p.signedHeaders host, [semicolon].intercalate p.signedHeaders,
      payloadHash r]

def stringToSign (r : HttpRequest) (p : ParsedAuthHeader) (host : Bytes) : Bytes :=
  [newline].intercalate
    [awsAlgorithm, r.get dateHeader, credentialScope p, lib.sha256Hex (lib.canonicalRequest r p host)]

def deriveSigningKey (secretKey date region service : Bytes) : Bytes :=
  let kDate := lib.hmacSHA256 (utf8 "AWS4" ++ secretKey) date
  let kRegion := lib.hmacSHA256 kDate region
  let kService := lib.hmacSHA256 kRegion service
  lib.hmacSHA256 kService awsRequest

def signRequest (r : HttpRequest) (p : ParsedAuthHeader) (secretKey : Bytes) :
    Except String Bytes :=
  let host := if r.host = [] then r.urlHost else r.host
  if host = [] then .error "auth: request is missing host"
  else .ok (hexString (lib.hmacSHA256 (lib.deriveSigningKey secretKey p.date p.region p.service)
    (lib.stringToSign r p host)))

end SigV4Library

/-! ## 4. The strategies -/

structure TenantBinding where
  tenantID : String
  secretKey : Bytes

structure AuthResult where
  tenantID : String
  isChunked : Bool := false
  seedSig : Bytes := []
  signingKey : Bytes := []
  timestamp : Bytes
  scope : Bytes
  deriving DecidableEq

/-- `HMACAuthenticator`, with the clock read by each request. -/
structure Authenticator where
  lib : SigV4Library
  lookupByAccessKey : Bytes → Option TenantBinding
  maxClockSkew : Time

def maxExpiresSeconds : Int := 604800

def nanosPerSecond : Int := 1000000000

/-- `strconv.ParseInt(s, 10, 64)` -/
def parseInt64 (s : Bytes) : Option Int :=
  match s with
  | 43 :: digits => (magnitude digits).filter (· < 2 ^ 63)
  | 45 :: digits => ((magnitude digits).filter (· ≤ 2 ^ 63)).map (- ·)
  | digits => (magnitude digits).filter (· < 2 ^ 63)
where
  magnitude (digits : Bytes) : Option Int :=
    if digits ≠ [] ∧ ∀ c ∈ digits, 48 ≤ c ∧ c ≤ 57 then
      some (digits.foldl (fun n c => 10 * n + (c.toNat - 48 : Nat)) 0)
    else none

structure PresignedParameters where
  auth : ParsedAuthHeader
  dateStr : Bytes
  reqTime : Time
  expiresSec : Int

namespace Authenticator

variable (a : Authenticator)

def presignedParameters (raw : Bytes) : Except String PresignedParameters :=
  let q := fun p : SigningParameter => queryGet raw p.name
  if q .algorithm ≠ awsAlgorithm then
    .error ("auth: unsupported presigned algorithm " ++ a.lib.quoted (q .algorithm))
  else if q .credential = [] then
    .error "auth: missing X-Amz-Credential"
  else
    match (q .credential).splitOn slash with
    | [accessKey, date, region, service, terminator] =>
      if terminator ≠ awsRequest then
        .error ("auth: malformed X-Amz-Credential " ++ a.lib.quoted (q .credential))
      else if q .signedHeaders = [] then
        .error "auth: missing X-Amz-SignedHeaders"
      else if q .date = [] then
        .error "auth: missing X-Amz-Date"
      else
        match a.lib.parseISO8601 (q .date) with
        | .error e => .error ("auth: invalid X-Amz-Date: " ++ e)
        | .ok reqTime =>
          if q .expires = [] then
            .error "auth: missing X-Amz-Expires"
          else
            match (parseInt64 (q .expires)).filter (fun n => 0 < n ∧ n ≤ maxExpiresSeconds) with
            | none => .error ("auth: invalid X-Amz-Expires " ++ a.lib.quoted (q .expires))
            | some expiresSec => .ok
              { auth :=
                  { accessKey, date, region, service,
                    signedHeaders := ((q .signedHeaders).splitOn semicolon).insertionSort (· ≤ ·),
                    signature := queryGet raw signatureParameter }
                dateStr := q .date
                reqTime
                expiresSec }
    | _ => .error ("auth: malformed X-Amz-Credential " ++ a.lib.quoted (q .credential))

/-- The request as the owner of a presigned URL signed it: without the signature, dated by the
query, and with no digest of the payload. -/
def presignedSigningRequest (r : HttpRequest) (dateStr : Bytes) : HttpRequest :=
  (HttpRequest.set { r with rawQuery := stripQueryParam r.rawQuery signatureParameter }
    dateHeader dateStr).del payloadHeader

/-- `PresignedV4Strategy.Authenticate` -/
def authenticatePresigned (now : Time) (r : HttpRequest) : Except String AuthResult :=
  match a.presignedParameters r.rawQuery with
  | .error e => .error e
  | .ok p =>
    match a.lookupByAccessKey p.auth.accessKey with
    | none => .error "auth: unknown access key"
    | some binding =>
      if now < p.reqTime - a.maxClockSkew then
        .error "auth: presigned request dated in the future"
      else if p.reqTime + (p.expiresSec * nanosPerSecond + a.maxClockSkew) < now then
        .error "auth: presigned URL has expired"
      else
        match a.lib.signRequest (presignedSigningRequest r p.dateStr) p.auth binding.secretKey with
        | .error e => .error e
        | .ok expected =>
          if expected ≠ p.auth.signature then .error "auth: signature mismatch"
          else .ok { tenantID := binding.tenantID, timestamp := p.dateStr,
                     scope := credentialScope p.auth }

def headerScheme : Bytes := utf8 "AWS4-HMAC-SHA256 "

def parseAuthSegment (p : ParsedAuthHeader) (raw : Bytes) : Except String ParsedAuthHeader :=
  let segment := trimSpaceBytes raw
  if equalsSign ∉ segment then
    .error ("auth: malformed auth header segment " ++ a.lib.quoted raw)
  else
    let key := (cut equalsSign segment).1
    let val := (cut equalsSign segment).2
    if key = utf8 "Credential" then
      match val.splitOn slash with
      | [accessKey, date, region, service, _] => .ok { p with accessKey, date, region, service }
      | _ => .error ("auth: malformed credential " ++ a.lib.quoted val)
    else if key = utf8 "SignedHeaders" then
      .ok { p with signedHeaders := (val.splitOn semicolon).insertionSort (· ≤ ·) }
    else if key = utf8 "Signature" then
      .ok { p with signature := val }
    else
      .ok p

def parseAuthHeader (authz : Bytes) : Except String ParsedAuthHeader :=
  if ¬ headerScheme.isPrefixOf authz then
    .error ("auth: unsupported auth scheme in " ++ a.lib.quoted authz)
  else
    match ((authz.drop headerScheme.length).splitOn comma).foldlM a.parseAuthSegment {} with
    | .error e => .error e
    | .ok p =>
      if p.accessKey = [] ∨ p.signature = [] ∨ p.signedHeaders = [] then
        .error "auth: authorization header is missing required fields"
      else .ok p

/-- The timestamp in ISO 8601 form, from `x-amz-date` or else from `Date`. -/
def parseSigningTimestamp (r : HttpRequest) : Except String (Bytes × Time) :=
  let stamp := if r.get dateHeader = [] then r.get (utf8 "Date") else r.get dateHeader
  if stamp = [] then
    .error "auth: missing x-amz-date or Date header"
  else
    match a.lib.parseISO8601 stamp with
    | .ok reqTime => .ok (stamp, reqTime)
    | .error e =>
      match a.lib.parseRFC1123 stamp with
      | none => .error ("auth: invalid date header: " ++ e)
      | some reqTime => .ok (a.lib.formatISO8601 reqTime, reqTime)

/-- The first value of `Content-Encoding` lists `aws-chunked`. -/
def isChunkedRequest (r : HttpRequest) : Bool :=
  let enc := r.get (utf8 "Content-Encoding")
  enc ≠ [] && (enc.splitOn comma).any fun p => a.lib.equalFold (trimSpaceBytes p) (utf8 "aws-chunked")

/-- `HeaderV4Strategy.Authenticate` -/
def authenticateHeader (now : Time) (r : HttpRequest) : Except String AuthResult :=
  let authz := r.get (utf8 "Authorization")
  if authz = [] then
    .error "auth: missing Authorization header"
  else
    match a.parseAuthHeader authz with
    | .error e => .error e
    | .ok p =>
      match a.lookupByAccessKey p.accessKey with
      | none => .error "auth: unknown access key"
      | some binding =>
        match a.parseSigningTimestamp r with
        | .error e => .error e
        | .ok (stamp, reqTime) =>
          if a.maxClockSkew < now - reqTime ∨ now - reqTime < -a.maxClockSkew then
            .error ("auth: request clock skew " ++ a.lib.durationText (now - reqTime) ++
              " exceeds limit")
          else
            match a.lib.signRequest (r.set dateHeader stamp) p binding.secretKey with
            | .error e => .error e
            | .ok expected =>
              if expected ≠ p.signature then .error "auth: signature mismatch"
              else if a.isChunkedRequest r then
                .ok { tenantID := binding.tenantID, timestamp := stamp, scope := credentialScope p,
                      isChunked := true, seedSig := p.signature,
                      signingKey :=
                        a.lib.deriveSigningKey binding.secretKey p.date p.region p.service }
              else
                .ok { tenantID := binding.tenantID, timestamp := stamp, scope := credentialScope p }

end Authenticator

/-! ## 5. Chunks -/

namespace SigV4Library

variable (lib : SigV4Library)

def computeChunkSignature (prevSig chunkData signingKey timestamp scope : Bytes) :
    Except String Bytes :=
  if signingKey = [] then
    .error "auth: chunk signature computation requires a signing key"
  else if timestamp = [] ∨ scope = [] then
    .error "auth: chunk signature computation requires timestamp and scope"
  else
    .ok (hexString (lib.hmacSHA256 signingKey ([newline].intercalate
      [utf8 "AWS4-HMAC-SHA256-PAYLOAD", timestamp, scope, prevSig, lib.sha256Hex [],
        lib.sha256Hex chunkData])))

def verifyChunkSignature (prevSig chunkData signingKey timestamp scope receivedSig : Bytes) :
    Except String Bytes :=
  match lib.computeChunkSignature prevSig chunkData signingKey timestamp scope with
  | .error e => .error e
  | .ok expected =>
    if receivedSig ≠ expected then .error "auth: chunk signature mismatch" else .ok expected

end SigV4Library

end ObjectFabric
