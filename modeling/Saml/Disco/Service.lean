import Saml.Disco.Form
import Mathlib.Logic.Function.Basic

/-!
# The discovery service protocol

`disco::service`: the redirect that asks which provider a user belongs to, the
checks on the URL the service may answer to, and the redirect with the answer.
-/

namespace Saml.Disco

/-- `IDPDISC_NS`. -/
def IDPDISC_NS : Str := "urn:oasis:names:tc:SAML:profiles:SSO:idp-discovery-protocol"

/-- `DISCOVERY_POLICY_SINGLE`. -/
def DISCOVERY_POLICY_SINGLE : Str :=
  "urn:oasis:names:tc:SAML:profiles:SSO:idp-discovery-protocol:single"

/-- `DEFAULT_RETURN_ID_PARAM`. -/
def DEFAULT_RETURN_ID_PARAM : Str := "entityID"

/-- `DiscoveryResponseEndpoint`. -/
structure DiscoveryResponseEndpoint where
  url : Str
  index : UInt16
  isDefault : Bool

/-- What the protocol uses of `url::Url` and of `url::form_urlencoded`. -/
structure UrlPackage where
  parse : Str → Option Url
  fragment : Url → Option Str
  username : Url → Str
  password : Url → Option Str
  scheme : Url → Str
  hostStr : Url → Option Str
  portOrKnownDefault : Url → Option UInt16
  path : Url → Str
  dropFragment : Url → Url
  dropQuery : Url → Url
  appendPairs : Url → List (Str × Str) → Url
  formParse : Str → List (Str × Str)

/-- What the package documents about queries. -/
structure UrlPackage.Lawful (pkg : UrlPackage) : Prop where
  query_dropFragment : ∀ url, (pkg.dropFragment url).query = url.query
  query_dropQuery : ∀ url, (pkg.dropQuery url).query = none
  query_appendPairs : ∀ url pairs,
    (pkg.appendPairs url pairs).query = some (pairs.foldl appendPair (url.query.getD []))
  formParse : ∃ fromUtf8Lossy, KeepsText fromUtf8Lossy ∧
    ∀ query, pkg.formParse query = Disco.formParse fromUtf8Lossy query

variable (pkg : UrlPackage)

/-! ## Requests -/

/-- `DiscoveryRequest`. -/
structure DiscoveryRequest where
  spEntityId : Str
  returnUrl : Option Str
  returnIdParam : Option Str
  isPassive : Bool

/-- A character of a safe parameter name. -/
def isSafeParamChar (c : Char) : Bool := c.isAlphanum || c ∈ ['_', '.', '-']

/-- A parameter name without separators or escapes. -/
def SafeParamName (name : Str) : Prop := name ≠ [] ∧ name.all isSafeParamChar = true

instance (name : Str) : Decidable (SafeParamName name) := instDecidableAnd

/-- `ensure_safe_param_name`. -/
def ensureSafeParamName (name : Str) : Result Unit :=
  if SafeParamName name then .ok ()
  else .error (.discoveryRequestMalformed "returnIDParam is not a safe URL parameter name")

/-- Drop the fragment, and a query that is empty. -/
def withoutEmptyQuery (url : Url) : Url :=
  let url := pkg.dropFragment url
  if url.query = some [] then pkg.dropQuery url else url

/-- A pair for a value that is there. -/
def optionalPair (name : Str) (value : Option Str) : List (Str × Str) :=
  value.toList.map fun v => (name, v)

/-- The parameters of a request. -/
def DiscoveryRequest.pairs (request : DiscoveryRequest) : List (Str × Str) :=
  optionalPair "entityID" (some request.spEntityId) ++ optionalPair "return" request.returnUrl ++
    optionalPair "returnIDParam" request.returnIdParam ++
    optionalPair "isPassive" (if request.isPassive then some ("true" : Str) else none)

/-- `build_discovery_request_url`. -/
def buildDiscoveryRequestUrl (discoveryService : Url) (request : DiscoveryRequest) :
    Result Url := do
  if request.spEntityId = [] then
    .error (.invalidConfiguration "discovery request sp_entity_id must be non-empty")
  else do
    request.returnIdParam.elim (.ok ()) ensureSafeParamName
    .ok (pkg.appendPairs (withoutEmptyQuery pkg discoveryService) request.pairs)

/-- The parameters of the protocol. -/
inductive Parameter where
  | entityId
  | returnUrl
  | returnIdParam
  | policy
  | isPassive
deriving DecidableEq

namespace Parameter

/-- The name of a parameter. -/
def name : Parameter → Str
  | entityId => "entityID"
  | returnUrl => "return"
  | returnIdParam => "returnIDParam"
  | policy => "policy"
  | isPassive => "isPassive"

/-- The parameter of a name. -/
def ofName (name : Str) : Option Parameter :=
  [entityId, returnUrl, returnIdParam, policy, isPassive].find? fun p => p.name = name

/-- What a second value of a parameter is refused with. -/
def duplicateReason : Parameter → Str
  | entityId => "duplicate entityID parameter"
  | returnUrl => "duplicate return parameter"
  | returnIdParam => "duplicate returnIDParam parameter"
  | policy => "duplicate policy parameter"
  | isPassive => "duplicate isPassive parameter"

end Parameter

/-- The values read so far. -/
abbrev Slots := Parameter → Option Str

/-- One pair of the query: the slot of its parameter is filled, once. -/
def fillSlot (slots : Slots) (pair : Str × Str) : Result Slots :=
  match Parameter.ofName pair.1 with
  | none => .ok slots
  | some parameter =>
      if (slots parameter).isSome then
        .error (.discoveryRequestMalformed parameter.duplicateReason)
      else .ok (Function.update slots parameter (some pair.2))

/-- `ParsedDiscoveryRequest`. -/
structure ParsedDiscoveryRequest where
  spEntityId : Str
  returnUrl : Option Str
  returnIdParam : Str
  isPassive : Bool
deriving DecidableEq

/-- The name of the parameter to answer in. -/
def parseReturnIdParam : Option Str → Result Str
  | none => .ok DEFAULT_RETURN_ID_PARAM
  | some param => do
      ensureSafeParamName param
      .ok param

/-- An `xs:boolean`, false when it is absent. -/
def parsePassive : Option Str → Result Bool
  | none => .ok false
  | some value =>
      if value = ("true" : Str) ∨ value = ("1" : Str) then .ok true
      else if value = ("false" : Str) ∨ value = ("0" : Str) then .ok false
      else .error (.discoveryRequestMalformed "isPassive is not a boolean")

/-- The checks on the collected values, and their defaults. -/
def readSlots (slots : Slots) : Result ParsedDiscoveryRequest := do
  let spEntityId ← okOr ((slots .entityId).filter (· ≠ []))
    (.discoveryRequestMalformed "missing or empty entityID parameter")
  if (slots .policy).any (· ≠ DISCOVERY_POLICY_SINGLE) then
    .error (.discoveryRequestMalformed "unsupported policy")
  else do
    let returnIdParam ← parseReturnIdParam (slots .returnIdParam)
    let isPassive ← parsePassive (slots .isPassive)
    .ok ⟨spEntityId, slots .returnUrl, returnIdParam, isPassive⟩

/-- `parse_discovery_request_query`. -/
def parseDiscoveryRequestQuery (query : Str) : Result ParsedDiscoveryRequest := do
  let slots ← (pkg.formParse query).foldlM fillSlot fun _ => none
  readSlots slots

/-! ## The URL of the answer -/

/-- `same_endpoint`. -/
def sameEndpoint (registered candidate : Url) : Bool :=
  (pkg.hostStr candidate).isSome &&
    pkg.scheme registered = pkg.scheme candidate &&
    pkg.hostStr registered = pkg.hostStr candidate &&
    pkg.portOrKnownDefault registered = pkg.portOrKnownDefault candidate &&
    pkg.path registered = pkg.path candidate

/-- `default_discovery_response`. -/
def defaultDiscoveryResponse (discoveryResponseEndpoints : List DiscoveryResponseEndpoint) :
    Option DiscoveryResponseEndpoint :=
  (discoveryResponseEndpoints.find? (·.isDefault)).or discoveryResponseEndpoints.head?

/-- `validate_discovery_return_url`, against the endpoints of a descriptor. -/
def validateDiscoveryReturnUrl (discoveryResponseEndpoints : List DiscoveryResponseEndpoint)
    (request : ParsedDiscoveryRequest) : Result Url :=
  match request.returnUrl with
  | none => do
      let endpoint ← okOr (defaultDiscoveryResponse discoveryResponseEndpoints)
        (.invalidConfiguration "SP metadata advertises no DiscoveryResponse endpoint")
      okOr (pkg.parse endpoint.url)
        (.invalidConfiguration "registered DiscoveryResponse Location is not a valid URL")
  | some requested => do
      let candidate ← okOr (pkg.parse requested)
        (.discoveryRequestMalformed "return is not a valid absolute URL")
      if (pkg.fragment candidate).isSome then
        .error (.discoveryRequestMalformed "return must not carry a fragment")
      else if pkg.username candidate ≠ [] ∨ (pkg.password candidate).isSome then
        .error (.discoveryRequestMalformed "return must not carry userinfo")
      else if discoveryResponseEndpoints.any (fun endpoint =>
          (pkg.parse endpoint.url).any fun registered => sameEndpoint pkg registered candidate)
      then .ok candidate
      else .error (.discoveryReturnUrlNotRegistered requested)

/-! ## Answers -/

/-- `build_discovery_response_url`. -/
def buildDiscoveryResponseUrl (returnUrl : Url) (returnIdParam : Str)
    (chosenIdpEntityId : Option Str) : Result Url := do
  ensureSafeParamName returnIdParam
  let url := withoutEmptyQuery pkg returnUrl
  match chosenIdpEntityId with
  | none => .ok url
  | some entityId =>
      if entityId = [] then
        .error (.invalidConfiguration "chosen IdP entityID must be non-empty")
      else .ok (pkg.appendPairs url [(returnIdParam, entityId)])

/-- One pair of the query an answer arrives with. -/
def fillChoice (returnIdParam : Str) (chosen : Option Str) (pair : Str × Str) :
    Result (Option Str) :=
  if pair.1 = returnIdParam then
    if chosen.isSome then
      .error (.discoveryResponseMalformed "duplicate IdP entityID parameter")
    else .ok (some pair.2)
  else .ok chosen

/-- `parse_discovery_response_query`. -/
def parseDiscoveryResponseQuery (query returnIdParam : Str) : Result (Option Str) := do
  ensureSafeParamName returnIdParam
  let chosen ← (pkg.formParse query).foldlM (fillChoice returnIdParam) none
  .ok (chosen.filter (· ≠ []))

end Saml.Disco
