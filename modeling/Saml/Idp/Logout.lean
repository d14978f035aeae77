import Saml.Idp
import Saml.Logout.Response
import Saml.Soap

/-!
# Logout at the identity provider

`idp`: the requests it starts, the responses it builds, and the consumption of
its peers' messages, decoded by the caller or by the wire entry points.
-/

namespace Saml

open Xml Crypto Dsig Response Redirect Logout Soap

/-- The inputs of `consume_logout_request_wire`. -/
structure ConsumeLogoutRequestWire where
  sp : SpDescriptor
  peerCryptoPolicy : Option PeerCryptoPolicy
  wireBody : Octets
  binding : Binding
  expectedDestination : Str
  now : SystemTime
  clockSkew : Duration

/-- The inputs of `consume_logout_response_wire`. -/
structure ConsumeLogoutResponseWire where
  sp : SpDescriptor
  peerCryptoPolicy : Option PeerCryptoPolicy
  wireBody : Octets
  binding : Binding
  tracker : LogoutTracker
  expectedDestination : Str
  now : SystemTime
  clockSkew : Duration

/-- The inputs of `consume_logout_request` for a decoded message. -/
def ConsumeLogoutRequestWire.decodedAs (input : ConsumeLogoutRequestWire)
    (decoded : DecodedWire) : ConsumeLogoutRequest where
  peerCryptoPolicy := input.peerCryptoPolicy
  body := decoded.xml
  binding := input.binding
  detachedSignature := decoded.asDetachedSignature
  expectedDestination := input.expectedDestination
  now := input.now
  clockSkew := input.clockSkew

/-- The inputs of `consume_logout_response` for a decoded message. -/
def ConsumeLogoutResponseWire.decodedAs (input : ConsumeLogoutResponseWire)
    (decoded : DecodedWire) : ConsumeLogoutResponse where
  peerCryptoPolicy := input.peerCryptoPolicy
  body := decoded.xml
  binding := input.binding
  detachedSignature := decoded.asDetachedSignature
  tracker := input.tracker
  expectedDestination := input.expectedDestination
  now := input.now
  clockSkew := input.clockSkew

variable (crypto : Primitives) (qx : QuickXml) (web : Web)

namespace IdentityProvider

/-- `parse_url`. -/
def parseUrl (url : Str) : Result Url :=
  okOr (web.parseUrl url) (.invalidConfiguration "endpoint URL is not a valid URL")

variable (idp : IdentityProvider)

/-! ## Outbound messages -/

/-- `encode_logout_redirect_request`. -/
def encodeLogoutRedirectRequest (destinationUrl : Str) (xml : Octets) (relayState : Option Str)
    (sign : Bool) : Result Dispatch := do
  let dest ← parseUrl web destinationUrl
  let sigAlg := idp.config.outboundSignatureAlgorithm
  let url ←
    if sign then
      encodeSigned web dest .request xml relayState sigAlg.uri fun toSign =>
        signDetachedQuery crypto toSign idp.config.signingKey sigAlg
    else encodeUnsigned web dest .request xml relayState
  .ok (.redirect url)

/-- The dispatch of a logout request over its binding. -/
def dispatchLogoutRequest (url : Str) (element : Element) (opts : StartLogout) :
    Result Dispatch :=
  match opts.binding with
  | .httpRedirect => do
      let xml ← serializeElement element
      idp.encodeLogoutRedirectRequest crypto web url xml opts.relayState
        idp.config.logoutSigning.signRequests
  | .httpPost => do
      let element ← idp.maybeSignOutbound crypto element idp.config.logoutSigning.signRequests
      let xml ← serializeElement element
      let dest ← parseUrl web url
      .ok (Post.encodeRequest dest xml opts.relayState)
  | .soap =>
      .error (.invalidConfiguration
        "Soap SLO must go through send_soap_logout_request, not start_logout")
  | .httpArtifact => .error (.unsupportedByPeer .httpArtifact)

/-- The logout request that `start_logout` builds. -/
def logoutRequest (url id : Str) (opts : StartLogout) (now : SystemTime) : BuildLogoutRequest where
  id := id
  issueInstant := now
  issuerEntityId := idp.config.entityId
  destination := some url
  notOnOrAfter := none
  reason := opts.reason
  nameId := opts.nameId
  sessionIndex := opts.sessionIndex

/-- `start_logout`. -/
def startLogout (sp : SpDescriptor) (opts : StartLogout) (ambient : Ambient) :
    Result LogoutDispatch := do
  let endpoint ← okOr (sp.sloEndpoint opts.binding) (.unsupportedByPeer opts.binding)
  let id ← randomXmlId ambient.draw
  let element ← buildLogoutRequestElement (idp.logoutRequest endpoint.url id opts ambient.now)
  let dispatch ← idp.dispatchLogoutRequest crypto web endpoint.url element opts
  .ok ⟨⟨id, ambient.now, sp.entityId⟩, dispatch⟩

/-- The tracker of a started logout holds the identifier drawn for the request
and names the peer it went to. -/
theorem startLogout_tracker {sp : SpDescriptor} {opts : StartLogout} {ambient : Ambient}
    {started : LogoutDispatch} (h : idp.startLogout crypto web sp opts ambient = .ok started) :
    randomXmlId ambient.draw = .ok started.tracker.requestId ∧
      started.tracker.peerEntityId = sp.entityId := by
  obtain ⟨endpoint, _, h⟩ := bind_eq_ok_iff.mp h
  obtain ⟨id, hid, h⟩ := bind_eq_ok_iff.mp h
  obtain ⟨element, _, h⟩ := bind_eq_ok_iff.mp h
  obtain ⟨dispatch, _, h⟩ := bind_eq_ok_iff.mp h
  obtain rfl := Except.ok.inj h
  exact ⟨hid, rfl⟩

/-- `encode_logout_dispatch_response`: over HTTP-Redirect the query is never
signed. -/
def encodeLogoutDispatchResponse (binding : Binding) (destinationUrl : Str) (xml : Octets)
    (relayState : Option Str) : Result Dispatch := do
  let dest ← parseUrl web destinationUrl
  match binding with
  | .httpPost => .ok (Post.encodeResponse dest xml relayState)
  | .httpRedirect => do
      let url ← encodeUnsigned web dest .response xml relayState
      .ok (.redirect url)
  | .soap => do
      let envelope ← Soap.wrap qx xml
      .ok (.post ⟨dest, none, some (base64Encode (Text.asBytes envelope)), relayState⟩)
  | .httpArtifact => .error (.unsupportedByPeer .httpArtifact)

/-- The logout response the identity provider builds. -/
def logoutResponse (url id : Str) (inResponseTo : ParsedLogoutRequest) (status : LogoutStatus)
    (now : SystemTime) : BuildLogoutResponse where
  id := id
  issueInstant := now
  issuerEntityId := idp.config.entityId
  destination := some url
  inResponseTo := inResponseTo.id
  status := status
  statusMessage := none

/-- `build_logout_response`. -/
def buildLogoutResponse (sp : SpDescriptor) (inResponseTo : ParsedLogoutRequest)
    (status : LogoutStatus) (relayState : Option Str) (binding : Binding) (ambient : Ambient) :
    Result Dispatch := do
  let endpoint ← okOr (sp.sloEndpoint binding) (.unsupportedByPeer binding)
  let id ← randomXmlId ambient.draw
  let element ← buildLogoutResponseElement
    (idp.logoutResponse endpoint.url id inResponseTo status ambient.now)
  let element ← idp.maybeSignOutbound crypto element idp.config.logoutSigning.signResponses
  let xml ← serializeElement element
  encodeLogoutDispatchResponse qx web binding endpoint.url xml relayState

/-! ## Inbound messages -/

/-- `verify_logout_signature`. -/
def verifyLogoutSignature (required : Bool) (binding : Binding) (doc : Document)
    (rootId : ElementId) (detached : Option DetachedSignature)
    (candidateCerts : List X509Certificate) (policy : PeerCryptoPolicy) : Result Unit :=
  match binding with
  | .httpRedirect =>
      verifyRedirectRequestSignature crypto required detached candidateCerts
        policy.allowedSignatureAlgorithms
  | .httpPost | .soap => do
      let root ← okOr (doc.element rootId)
        (.signatureVerification "could not locate root element for signature check")
      verifyEnvelopeSignature crypto required doc root rootId candidateCerts policy
  | .httpArtifact => .error (.unsupportedByPeer .httpArtifact)

/-- The text for a destination that is not an endpoint of the identity provider. -/
def UNREGISTERED_SLO : Str := "expected_destination is not a registered SLO endpoint"

/-- `consume_logout_request`. -/
def consumeLogoutRequest (sp : SpDescriptor) (input : ConsumeLogoutRequest) :
    Result ParsedLogoutRequest := do
  let doc ← Document.parse qx input.body
  let (parsed, rootId) ← parseLogoutRequest doc
  checkIssuer sp.entityId parsed.issuer
  checkDestination idp.config.slo UNREGISTERED_SLO input.expectedDestination parsed.destination
  let policy := idp.policyFor input.peerCryptoPolicy
  verifyLogoutSignature crypto idp.config.logoutWantSigned.requests input.binding doc rootId
    input.detachedSignature sp.signingCerts policy
  let nameId ← decryptedNameId crypto qx doc idp.config.decryptionKey policy parsed.nameId
  if expired parsed.notOnOrAfter input.now input.clockSkew then .error .expired
  else .ok { parsed with nameId := nameId, relayState := none }

/-- `consume_logout_response`. -/
def consumeLogoutResponse (sp : SpDescriptor) (input : ConsumeLogoutResponse) :
    Result LogoutOutcome := do
  let doc ← Document.parse qx input.body
  let (parsed, rootId) ← parseLogoutResponse doc
  checkIssuer sp.entityId parsed.issuer
  checkDestination idp.config.slo UNREGISTERED_SLO input.expectedDestination parsed.destination
  verifyLogoutSignature crypto idp.config.logoutWantSigned.responses input.binding doc rootId
    input.detachedSignature sp.signingCerts (idp.policyFor input.peerCryptoPolicy)
  if parsed.inResponseTo ≠ input.tracker.requestId then .error .inResponseToMismatch
  else .ok parsed.toOutcome

/-- `consume_logout_request_wire`. -/
def consumeLogoutRequestWire (input : ConsumeLogoutRequestWire) : Result ParsedLogoutRequest := do
  let decoded ← decodeWire web input.wireBody input.binding .request
  idp.consumeLogoutRequest crypto qx input.sp (input.decodedAs decoded)

/-- `consume_logout_response_wire`. -/
def consumeLogoutResponseWire (input : ConsumeLogoutResponseWire) : Result LogoutOutcome := do
  let decoded ← decodeWire web input.wireBody input.binding .response
  idp.consumeLogoutResponse crypto qx input.sp (input.decodedAs decoded)

/-- The back-channel request of `send_soap_logout_request`. -/
def soapLogoutRequest (url id : Str) (opts : StartLogout) (now : SystemTime) :
    Result HttpRequest := do
  let element ← buildLogoutRequestElement (idp.logoutRequest url id opts now)
  let element ← idp.maybeSignOutbound crypto element idp.config.logoutSigning.signRequests
  let xml ← serializeElement element
  let envelope ← Soap.wrap qx xml
  .ok ⟨url, Soap.requestHeaders, Text.asBytes envelope⟩

/-- The reply to `send_soap_logout_request` as `consume_logout_response` gets
it, as if it had come to the first logout endpoint; `replied` is the clock at
that time. -/
def soapReply (sp : SpDescriptor) (peerCryptoPolicy : Option PeerCryptoPolicy)
    (id : Str) (responseXml : Octets) (started replied : SystemTime) : ConsumeLogoutResponse where
  peerCryptoPolicy := peerCryptoPolicy
  body := responseXml
  binding := .soap
  detachedSignature := none
  tracker := ⟨id, started, sp.entityId⟩
  expectedDestination := (idp.config.slo.head?.map Endpoint.url).getD []
  now := replied
  clockSkew := .ofSecs 0 (by decide)

/-- `send_soap_logout_request`. -/
def sendSoapLogoutRequest (http : HttpClient) (sp : SpDescriptor)
    (peerCryptoPolicy : Option PeerCryptoPolicy) (opts : StartLogout) (ambient : Ambient)
    (replied : SystemTime) : Result LogoutOutcome :=
  if opts.binding ≠ .soap then
    .error (.invalidConfiguration "send_soap_logout_request requires StartLogout.binding = Soap")
  else do
    let endpoint ← okOr (sp.sloEndpoint .soap) (.unsupportedByPeer .soap)
    let id ← randomXmlId ambient.draw
    let request ← idp.soapLogoutRequest crypto qx endpoint.url id opts ambient.now
    let reply ← Soap.send http request
    let responseXml ← payloadXml qx reply
    idp.consumeLogoutResponse crypto qx sp
      (idp.soapReply sp peerCryptoPolicy id responseXml ambient.now replied)

variable {crypto qx idp}

/-- The legs of an accepted logout response. -/
theorem consumeLogoutResponse_ok_iff {sp : SpDescriptor} {input : ConsumeLogoutResponse}
    {outcome : LogoutOutcome} :
    idp.consumeLogoutResponse crypto qx sp input = .ok outcome ↔
      ∃ doc parsed rootId, Document.parse qx input.body = .ok doc ∧
        parseLogoutResponse doc = .ok (parsed, rootId) ∧
        checkIssuer sp.entityId parsed.issuer = .ok () ∧
        checkDestination idp.config.slo UNREGISTERED_SLO input.expectedDestination
          parsed.destination = .ok () ∧
        verifyLogoutSignature crypto idp.config.logoutWantSigned.responses input.binding doc
          rootId input.detachedSignature sp.signingCerts
          (idp.policyFor input.peerCryptoPolicy) = .ok () ∧
        parsed.inResponseTo = input.tracker.requestId ∧ parsed.toOutcome = outcome := by
  constructor
  · intro h
    obtain ⟨doc, hdoc, h⟩ := bind_eq_ok_iff.mp h
    obtain ⟨⟨parsed, rootId⟩, hparsed, h⟩ := bind_eq_ok_iff.mp h
    obtain ⟨_, hissuer, h⟩ := bind_eq_ok_iff.mp h
    obtain ⟨_, hdestination, h⟩ := bind_eq_ok_iff.mp h
    obtain ⟨_, hsignature, h⟩ := bind_eq_ok_iff.mp h
    obtain ⟨hrequest, h⟩ := ite_error_eq_ok_iff.mp h
    exact ⟨doc, parsed, rootId, hdoc, hparsed, hissuer, hdestination, hsignature,
      not_not.mp hrequest, Except.ok.inj h⟩
  · rintro ⟨doc, parsed, rootId, hdoc, hparsed, hissuer, hdestination, hsignature, hrequest, rfl⟩
    refine bind_eq_ok_iff.mpr ⟨doc, hdoc, bind_eq_ok_iff.mpr ⟨(parsed, rootId), hparsed, ?_⟩⟩
    refine bind_eq_ok_iff.mpr ⟨(), hissuer, bind_eq_ok_iff.mpr ⟨(), hdestination, ?_⟩⟩
    exact bind_eq_ok_iff.mpr ⟨(), hsignature, ite_error_eq_ok_iff.mpr ⟨not_not.mpr hrequest, rfl⟩⟩

/-- The wire entry point consumes the decoded message. -/
theorem consumeLogoutResponseWire_of_decoded {input : ConsumeLogoutResponseWire}
    {decoded : DecodedWire}
    (h : decodeWire web input.wireBody input.binding .response = .ok decoded) :
    idp.consumeLogoutResponseWire crypto qx web input =
      idp.consumeLogoutResponse crypto qx input.sp (input.decodedAs decoded) := by
  unfold consumeLogoutResponseWire
  rw [h]
  rfl

end IdentityProvider

end Saml
