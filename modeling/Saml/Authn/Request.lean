import Saml.Descriptor
import Saml.Response.Parse

/-!
# Authentication requests

`authn::request_parse` and `authn::request_validate`: the parsed request, its
checks against the metadata of its service provider, and the record of what was
validated that later issuance goes by.
-/

namespace Saml.Authn

open Xml Crypto Time Response

/-- A parsed `samlp:AuthnRequest`, not checked against any descriptor. -/
structure RawParsedAuthnRequest where
  id : Str
  issueInstant : SystemTime
  destination : Option Str
  forceAuthn : Bool
  isPassive : Bool
  issuer : Str
  assertionConsumerServiceUrl : Option Str
  assertionConsumerServiceIndex : Option UInt16
  protocolBinding : Option SsoResponseBinding
  requestedNameIdFormat : Option NameIdFormat
  requestedAuthnContext : Option RequestedAuthnContext

/-- How a request selects its assertion consumer service. -/
inductive AcsSelection where
  | index (index : UInt16)
  | url (url : Str)
  | default
deriving DecidableEq

/-- What validation saw, out of reach of the caller. -/
structure ValidatedBinding where
  spEntityId : Str
  acs : SsoResponseEndpoint
  forceAuthn : Bool
  isPassive : Bool
  encryptionCertFingerprints : List Octets
  relayState : Option Str
  requestId : Str
  requestedAuthnContext : Option RequestedAuthnContext
  requestedNameIdFormat : Option NameIdFormat

/-- A validated `samlp:AuthnRequest`. -/
structure ParsedAuthnRequest where
  id : Str
  issuer : Str
  issueInstant : SystemTime
  destination : Option Str
  assertionConsumerService : SsoResponseEndpoint
  protocolBinding : Option SsoResponseBinding
  assertionConsumerServiceSelection : AcsSelection
  validated : ValidatedBinding
  forceAuthn : Bool
  isPassive : Bool
  requestedNameIdFormat : Option NameIdFormat
  requestedAuthnContext : Option RequestedAuthnContext
  relayState : Option Str

/-! ## Parsing -/

/-- `required_attr`. -/
def requiredAttr (element : Element) (loc : Str) : Result Str :=
  okOr (element.attr none loc) (.xmlParse ("AuthnRequest missing required attribute: " ++ loc))

/-- `parse_optional_xs_bool`. -/
def parseOptionalXsBool : Option Str → Result (Option Bool)
  | none => .ok none
  | some value =>
      if value = "true" ∨ value = "1" then .ok (some true)
      else if value = "false" ∨ value = "0" then .ok (some false)
      else .error (.xmlParse ("invalid xs:boolean attribute value: " ++ value))

/-- The `ProtocolBinding` of a request. -/
def parseProtocolBinding (uri : Str) : Result SsoResponseBinding :=
  match Binding.fromUri uri with
  | .error _ => .error (.xmlParse ("unknown ProtocolBinding URI: " ++ uri))
  | .ok binding =>
      okOr (SsoResponseBinding.fromBinding binding) (.illegalResponseBinding binding)

/-- The `AssertionConsumerServiceIndex` of a request. -/
def parseAcsIndex (text : Str) : Result UInt16 :=
  match Number.parseU16 text with
  | .ok n => .ok (UInt16.ofNat n.toNat)
  | .error source => .error (.xmlParse ("AssertionConsumerServiceIndex not u16: " ++ source))

/-- The `Comparison` of a requested context. -/
def parseComparison : Option Str → Result AuthnContextComparison
  | none => .ok .exact
  | some value =>
      if value = "exact" then .ok .exact
      else if value = "minimum" then .ok .minimum
      else if value = "maximum" then .ok .maximum
      else if value = "better" then .ok .better
      else .error (.xmlParse ("unknown RequestedAuthnContext Comparison: " ++ value))

/-- `parse_requested_authn_context`. -/
def parseRequestedAuthnContext (root : Element) : Result (Option RequestedAuthnContext) :=
  match root.childElement (some SAMLP_NS) "RequestedAuthnContext" with
  | none => .ok none
  | some rac => do
      let comparison ← parseComparison (rac.attr none "Comparison")
      .ok (some {
        classRefs := (rac.allChildElements (some SAML_NS) "AuthnContextClassRef").map fun e =>
          AuthnContextClassRef.fromUri (trimmedText e)
        comparison := comparison })

/-- The trimmed `saml:Issuer` of a request. -/
def parseIssuer (root : Element) : Result Str := do
  let issuerElem ← okOr (root.childElement (some SAML_NS) "Issuer")
    (.xmlParse "AuthnRequest missing saml:Issuer")
  if trimmedText issuerElem = [] then .error (.xmlParse "AuthnRequest saml:Issuer is empty")
  else .ok (trimmedText issuerElem)

/-- `parse_authn_request`; the root is the document's. -/
def parseAuthnRequest (document : Document) : Result RawParsedAuthnRequest :=
  let root := document.root
  if !root.hasName (some SAMLP_NS) "AuthnRequest" then
    .error (.xmlParse "expected samlp:AuthnRequest root")
  else do
    Schema.validateAuthnRequest root
    let version ← requiredAttr root "Version"
    if version ≠ "2.0" then .error (.xmlParse "unsupported SAML version")
    else do
      let id ← requiredAttr root "ID"
      let issueInstantStr ← requiredAttr root "IssueInstant"
      let issueInstant ← parseXsDatetime issueInstantStr
      let forceAuthn ← parseOptionalXsBool (root.attr none "ForceAuthn")
      let isPassive ← parseOptionalXsBool (root.attr none "IsPassive")
      let protocolBinding ← mapTranspose parseProtocolBinding (root.attr none "ProtocolBinding")
      let acsIndex ← mapTranspose parseAcsIndex (root.attr none "AssertionConsumerServiceIndex")
      let issuer ← parseIssuer root
      let requestedAuthnContext ← parseRequestedAuthnContext root
      .ok {
        id := id
        issueInstant := issueInstant
        destination := root.attr none "Destination"
        forceAuthn := forceAuthn.getD false
        isPassive := isPassive.getD false
        issuer := issuer
        assertionConsumerServiceUrl := root.attr none "AssertionConsumerServiceURL"
        assertionConsumerServiceIndex := acsIndex
        protocolBinding := protocolBinding
        requestedNameIdFormat := ((root.childElement (some SAMLP_NS) "NameIDPolicy").bind
          (·.attr none "Format")).map NameIdFormat.fromUri
        requestedAuthnContext := requestedAuthnContext }

/-! ## Validation -/

variable (crypto : Primitives)

/-- The endpoint a request selects from the metadata of its service provider. -/
def resolveAcs (raw : RawParsedAuthnRequest) (sp : SpDescriptor) :
    Result (SsoResponseEndpoint × AcsSelection) :=
  let unregistered : Error := .unregisteredAcs sp.entityId
  match raw.assertionConsumerServiceIndex, raw.assertionConsumerServiceUrl with
  | some index, _ => do
      let endpoint ← okOr (sp.acsEndpointByIndex index) unregistered
      .ok (endpoint, .index index)
  | none, some url => do
      let endpoint ← okOr (sp.acsEndpointByUrl url) unregistered
      .ok (endpoint, .url url)
  | none, none => do
      let endpoint ← okOr sp.defaultAcs unregistered
      .ok (endpoint, .default)

/-- `validate_authn_request`. -/
def validateAuthnRequest (raw : RawParsedAuthnRequest) (sp : SpDescriptor)
    (expectedDestination : Str) (ssoEndpointUrls : List Str) : Result ParsedAuthnRequest :=
  if raw.issuer ≠ sp.entityId then .error (.issuerMismatch sp.entityId (some raw.issuer))
  else if expectedDestination ∉ ssoEndpointUrls then
    .error (.invalidConfiguration "expected_destination is not a registered SSO endpoint")
  else if raw.destination.any (· ≠ expectedDestination) then .error .destinationMismatch
  else do
    let (resolved, selection) ← resolveAcs raw sp
    if raw.protocolBinding.any (· ≠ resolved.binding) then
      .error (.illegalResponseBinding ((raw.protocolBinding.getD resolved.binding).asBinding))
    else
      .ok {
        id := raw.id
        issuer := raw.issuer
        issueInstant := raw.issueInstant
        destination := raw.destination
        assertionConsumerService := resolved
        protocolBinding := raw.protocolBinding
        assertionConsumerServiceSelection := selection
        validated := {
          spEntityId := sp.entityId
          acs := resolved
          forceAuthn := raw.forceAuthn
          isPassive := raw.isPassive
          encryptionCertFingerprints := sp.encryptionCerts.map (·.fingerprintSha256 crypto)
          relayState := none
          requestId := raw.id
          requestedAuthnContext := raw.requestedAuthnContext
          requestedNameIdFormat := raw.requestedNameIdFormat }
        forceAuthn := raw.forceAuthn
        isPassive := raw.isPassive
        requestedNameIdFormat := raw.requestedNameIdFormat
        requestedAuthnContext := raw.requestedAuthnContext
        relayState := none }

namespace ParsedAuthnRequest

/-- `seal_relay_state`. -/
def sealRelayState (request : ParsedAuthnRequest) (relayState : Option Str) :
    ParsedAuthnRequest :=
  { request with
    relayState := relayState
    validated := { request.validated with relayState := relayState } }

/-- `for_proxy_reissue`: a request put together from a sealed proxy flow. -/
def forProxyReissue (sp : SpDescriptor) (id : Str) (issueInstant : SystemTime)
    (acs : SsoResponseEndpoint) (requestedNameIdFormat : Option NameIdFormat)
    (requestedAuthnContext : Option RequestedAuthnContext) (relayState : Option Str) :
    Result ParsedAuthnRequest := do
  let canonical ← okOr (sp.assertionConsumerServices.find? fun e =>
      e.url = acs.url ∧ e.binding = acs.binding ∧ e.index = acs.index)
    (.unregisteredAcs sp.entityId)
  .ok {
    id := id
    issuer := sp.entityId
    issueInstant := issueInstant
    destination := none
    assertionConsumerService := canonical
    protocolBinding := some canonical.binding
    assertionConsumerServiceSelection := .default
    validated := {
      spEntityId := sp.entityId
      acs := canonical
      forceAuthn := false
      isPassive := false
      encryptionCertFingerprints := sp.encryptionCerts.map (·.fingerprintSha256 crypto)
      relayState := relayState
      requestId := id
      requestedAuthnContext := requestedAuthnContext
      requestedNameIdFormat := requestedNameIdFormat }
    forceAuthn := false
    isPassive := false
    requestedNameIdFormat := requestedNameIdFormat
    requestedAuthnContext := requestedAuthnContext
    relayState := relayState }

end ParsedAuthnRequest

end Saml.Authn
