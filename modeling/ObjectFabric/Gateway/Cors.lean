import ObjectFabric.Compliance.Residency
import ObjectFabric.FirstMatch
import ObjectFabric.Gateway.Config
import ObjectFabric.Streams.Separators

/-!
# Cors — cross-origin requests

`metadata/cors/cors.go` and `api/s3compat/cors_handler.go`.  A rule is searched by origin and method;
the requested headers of a preflight are then tested on that rule only.
-/

namespace ObjectFabric

structure CorsRule where
  allowedOrigins : List String
  allowedMethods : List String
  allowedHeaders : List String := []
  exposeHeaders : List String := []
  maxAgeSeconds : Int := 0

/-- The headers a cross-origin request carries, empty when absent, and what its path and its
credential resolve to. -/
structure CorsRequest where
  method : String := "OPTIONS"
  origin : String := ""
  requestMethod : String := ""
  requestHeaders : String := ""
  bucket : String := ""
  /-- The tenant of a verified signature. -/
  authenticated : Option String := none
  /-- The tenant of the credential in the URL. -/
  unverified : Option String := none

/-- `strings.ToLower` and the stored configurations; `none` when the lookup fails. -/
structure CorsLibrary where
  toLower : List Char → List Char
  getCORS : Option (String → String → Option (List CorsRule))

structure CorsHeaders where
  allowOrigin : String
  allowCredentials : String := "true"
  allowMethods : String
  exposeHeaders : String := ""
  allowHeaders : String := ""
  maxAge : Int := 0
  deriving DecidableEq, Repr

/-- At most one wildcard counts. -/
def wildcardMatch (pattern s : List Char) : Bool :=
  if '*' ∉ pattern then pattern = s
  else
    let (before, after) := Streams.cut '*' pattern
    before.length + after.length ≤ s.length && before.isPrefixOf s && after.isSuffixOf s

namespace CorsRule

variable (r : CorsRule)

def matchesOrigin (origin : String) : Bool :=
  origin ≠ "" && r.allowedOrigins.any fun pattern => wildcardMatch pattern.toList origin.toList

def allowsMethod (method : String) : Bool := r.allowedMethods.contains method

def allowsHeader (lib : CorsLibrary) (header : List Char) : Bool :=
  r.allowedHeaders.any fun pattern =>
    wildcardMatch (lib.toLower pattern.toList) (lib.toLower header)

def allowsHeaders (lib : CorsLibrary) (requested : List (List Char)) : Bool :=
  requested.all fun h => trimUnicodeSpace h = [] || r.allowsHeader lib (trimUnicodeSpace h)

end CorsRule

section

variable (lib : CorsLibrary) (r : CorsRequest)

def matchRule (rules : List CorsRule) (origin method : String) : Option CorsRule :=
  rules.find? fun rule => rule.matchesOrigin origin && rule.allowsMethod method

def splitRequestHeaders (v : String) : List (List Char) :=
  ((v.toList.splitOn ',').map trimUnicodeSpace).filter (· ≠ [])

def bucketCORSRules (tenantID bucket : String) : Option (List CorsRule) :=
  if bucket = "" then none else lib.getCORS.bind fun get => get tenantID bucket

def setCORSResponseHeaders (origin : String) (rule : CorsRule) (includeExpose : Bool) : CorsHeaders :=
  { allowOrigin := origin, allowMethods := String.intercalate ", " rule.allowedMethods,
    exposeHeaders := if includeExpose then String.intercalate ", " rule.exposeHeaders else "" }

/-- The rules that apply to the request under the tenant it is made for. -/
def CorsRequest.rules (tenant : Option String) : List CorsRule :=
  (tenant.bind fun t => bucketCORSRules lib t r.bucket).getD []

def applyCORS : Option CorsHeaders :=
  if r.origin = "" then none
  else
    (matchRule (r.rules lib (r.authenticated.or r.unverified)) r.origin r.method).map
      (setCORSResponseHeaders r.origin · true)

def corsForbidden : Response where
  status := 403
  code := "AccessForbidden"
  message := "CORSResponse: This CORS request is not allowed. This is usually because the evaluation " ++
    "of Origin, request method / Access-Control-Request-Method or Access-Control-Request-Headers are " ++
    "not whitelisted by the resource's CORS spec."

/-- The headers of an accepted preflight, or the refusal. -/
def handleCORSPreflight : Except Response CorsHeaders :=
  if r.origin = "" ∨ r.requestMethod = "" then
    .error { status := 400, code := "InvalidCORSRequest", message :=
      "OPTIONS preflight requires Origin and Access-Control-Request-Method headers" }
  else
    match matchRule (r.rules lib r.unverified) r.origin r.requestMethod with
    | none => .error corsForbidden
    | some rule =>
      if rule.allowsHeaders lib (splitRequestHeaders r.requestHeaders) then
        .ok { setCORSResponseHeaders r.origin rule false with
              allowHeaders := r.requestHeaders, maxAge := max rule.maxAgeSeconds 0 }
      else .error corsForbidden

/-! ## Rules behind the first match -/

/-- Some rule allows the origin, the method and all headers together. -/
def PreflightAllowed : Prop :=
  r.requestMethod ≠ "" ∧ ∃ rule ∈ r.rules lib r.unverified, rule.matchesOrigin r.origin = true ∧
    rule.allowsMethod r.requestMethod = true ∧
    rule.allowsHeaders lib (splitRequestHeaders r.requestHeaders) = true

/-- The first rule for the origin and the method refuses the headers and one behind it does not. -/
def HeadersShadowed : Prop :=
  r.requestMethod ≠ "" ∧
    FirstMatch.Shadowed
      (fun rule => rule.matchesOrigin r.origin && rule.allowsMethod r.requestMethod)
      (·.allowsHeaders lib (splitRequestHeaders r.requestHeaders)) (r.rules lib r.unverified)

/-- No response names an origin that no rule with the method of the request allows. -/
def OriginsAllowed : Prop :=
  ∀ headers, applyCORS lib r = some headers →
    ∃ rule ∈ r.rules lib (r.authenticated.or r.unverified),
      rule.matchesOrigin headers.allowOrigin = true ∧ rule.allowsMethod r.method = true

variable {lib r}

theorem applyCORS_allowed : OriginsAllowed lib r := by
  intro headers h
  unfold applyCORS at h
  split at h
  · cases h
  rcases Option.map_eq_some_iff.mp h with ⟨rule, hrule, rfl⟩
  have hmatch := List.find?_some hrule
  rw [Bool.and_eq_true] at hmatch
  exact ⟨rule, List.mem_of_find?_eq_some hrule, hmatch⟩

theorem handleCORSPreflight_toBool (horigin : r.origin ≠ "") (hmethod : r.requestMethod ≠ "") :
    (handleCORSPreflight lib r).toBool =
      (matchRule (r.rules lib r.unverified) r.origin r.requestMethod).any
        (·.allowsHeaders lib (splitRequestHeaders r.requestHeaders)) := by
  unfold handleCORSPreflight
  rw [if_neg (by simp [horigin, hmethod])]
  cases matchRule (r.rules lib r.unverified) r.origin r.requestMethod with
  | none => rfl
  | some rule =>
    cases hheaders : rule.allowsHeaders lib (splitRequestHeaders r.requestHeaders) <;>
      simp [hheaders, Except.toBool]

theorem matchesOrigin_ne {rule : CorsRule} {origin : String} (h : rule.matchesOrigin origin = true) :
    origin ≠ "" := by
  unfold CorsRule.matchesOrigin at h
  simp only [Bool.and_eq_true, decide_eq_true_eq] at h
  exact h.1

/-- Which preflights are answered as the configuration says; the answers to other requests are. -/
theorem cors_iff (lib : CorsLibrary) (r : CorsRequest) :
    (((handleCORSPreflight lib r).toBool = true ↔ PreflightAllowed lib r) ∧ OriginsAllowed lib r) ↔
      ¬ HeadersShadowed lib r := by
  rw [and_iff_left applyCORS_allowed]
  by_cases hmethod : r.requestMethod = ""
  · simp [handleCORSPreflight, PreflightAllowed, HeadersShadowed, hmethod, Except.toBool]
  by_cases horigin : r.origin = ""
  · refine iff_of_true ?_ fun ⟨_, _, rule, _, _, _, hrule, _⟩ => ?_
    · simp [handleCORSPreflight, PreflightAllowed, horigin, Except.toBool, CorsRule.matchesOrigin]
    · exact matchesOrigin_ne ((Bool.and_eq_true_iff.mp hrule).1) horigin
  have hsearch := @FirstMatch.find?_any_iff _
    (fun rule : CorsRule => rule.matchesOrigin r.origin && rule.allowsMethod r.requestMethod)
    (·.allowsHeaders lib (splitRequestHeaders r.requestHeaders)) (r.rules lib r.unverified)
  simp only [Bool.and_eq_true, and_assoc] at hsearch
  unfold PreflightAllowed HeadersShadowed
  rw [handleCORSPreflight_toBool horigin hmethod, and_iff_right hmethod, and_iff_right hmethod]
  exact hsearch

end

/-- The second rule alone would accept the preflight. -/
theorem cors_preflight_refused_by_order :
    let named : CorsRule := { allowedOrigins := ["https://a"], allowedMethods := ["PUT"] }
    let lib : CorsLibrary := ⟨id, some fun _ _ =>
      some [named, { named with allowedHeaders := ["*"] }]⟩
    let r : CorsRequest := { origin := "https://a", requestMethod := "PUT", requestHeaders := "x-amz-acl",
                             bucket := "b", unverified := some "t" }
    (handleCORSPreflight lib r).toBool = false ∧
      (r.rules lib r.unverified).any (fun rule => rule.matchesOrigin r.origin &&
        rule.allowsMethod r.requestMethod &&
        rule.allowsHeaders lib (splitRequestHeaders r.requestHeaders)) = true := by
  decide +kernel

end ObjectFabric
