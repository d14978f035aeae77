import Saml.Logout.Response
import Saml.Soap
import Saml.Sp.Outbound

/-!
# Logout at the service provider

`sp`: the requests it starts, the responses it builds, and the consumption of
the identity provider's messages over the front channel and over SOAP.
-/

namespace Saml

open Xml Crypto Dsig Response Redirect Logout Soap

variable (crypto : Primitives) (qx : QuickXml) (web : Web)

namespace ServiceProvider

variable (sp : ServiceProvider)

/-- The policy in force: the peer's own, or the default one. -/
def policyFor (peerCryptoPolicy : Option PeerCryptoPolicy) : PeerCryptoPolicy :=
  peerCryptoPolicy.getD sp.config.defaultPeerCryptoPolicy

/-! ## Outbound messages -/

/-- `url::Url::parse` of an endpoint of the identity provider. -/
def parseIdpSloUrl (url : Str) : Result Url :=
  okOr (web.parseUrl url) (.invalidConfiguration "IdP SLO endpoint URL is not a valid URL")

/-- The dispatch of a logout request over its binding. -/
def dispatchLogoutRequest (destination : Url) (xml : Octets) (opts : StartLogout) :
    Result Dispatch :=
  match opts.binding with
  | .httpRedirect =>
      sp.redirectDispatch crypto web .request destination xml opts.relayState
        sp.config.logoutSigning.signRequests
  | .httpPost => do
      let xmlToPost ← sp.postXml crypto qx xml sp.config.logoutSigning.signRequests
      .ok (Post.encodeRequest destination xmlToPost opts.relayState)
  | .soap =>
      .error (.invalidConfiguration "SOAP logout uses send_soap_logout_request, not start_logout")
  | .httpArtifact => .error (.unsupportedByPeer .httpArtifact)

/-- The logout request the service provider builds. -/
def logoutRequest (url id : Str) (opts : StartLogout) (now : SystemTime) : BuildLogoutRequest where
  id := id
  issueInstant := now
  issuerEntityId := sp.config.entityId
  destination := some url
  notOnOrAfter := none
  reason := opts.reason
  nameId := opts.nameId
  sessionIndex := opts.sessionIndex

/-- `start_logout`. -/
def startLogout (idp : IdpDescriptor) (opts : StartLogout) (ambient : Ambient) :
    Result LogoutDispatch := do
  let endpoint ← okOr (idp.sloEndpoint opts.binding) (.unsupportedByPeer opts.binding)
  let destination ← parseIdpSloUrl web endpoint.url
  let requestId ← randomXmlId ambient.draw
  let xml ← buildLogoutRequestXml (sp.logoutRequest endpoint.url requestId opts ambient.now)
  let dispatch ← sp.dispatchLogoutRequest crypto qx web destination xml opts
  .ok ⟨⟨requestId, ambient.now, idp.entityId⟩, dispatch⟩

/-- The dispatch of a logout response over its binding. -/
def dispatchLogoutResponse (destination : Url) (xml : Octets) (relayState : Option Str)
    (binding : Binding) : Result Dispatch :=
  match binding with
  | .httpRedirect =>
      sp.redirectDispatch crypto web .response destination xml relayState
        sp.config.logoutSigning.signResponses
  | .httpPost => do
      let xmlToPost ← sp.postXml crypto qx xml sp.config.logoutSigning.signResponses
      .ok (Post.encodeResponse destination xmlToPost relayState)
  | .soap => .error (.unsupportedByPeer .soap)
  | .httpArtifact => .error (.unsupportedByPeer .httpArtifact)

/-- The logout response the service provider builds. -/
def logoutResponse (url id : Str) (inResponseTo : ParsedLogoutRequest) (status : LogoutStatus)
    (now : SystemTime) : BuildLogoutResponse where
  id := id
  issueInstant := now
  issuerEntityId := sp.config.entityId
  destination := some url
  inResponseTo := inResponseTo.id
  status := status
  statusMessage := none

/-- `build_logout_response`. -/
def buildLogoutResponse (idp : IdpDescriptor) (inResponseTo : ParsedLogoutRequest)
    (status : LogoutStatus) (relayState : Option Str) (binding : Binding) (ambient : Ambient) :
    Result Dispatch := do
  let endpoint ← okOr (idp.sloEndpoint binding) (.unsupportedByPeer binding)
  let destination ← parseIdpSloUrl web endpoint.url
  let responseId ← randomXmlId ambient.draw
  let xml ← buildLogoutResponseXml
    (sp.logoutResponse endpoint.url responseId inResponseTo status ambient.now)
  sp.dispatchLogoutResponse crypto qx web destination xml relayState binding

/-! ## Inbound messages -/

/-- `decode_logout_wire`. -/
def decodeLogoutWire (body : Octets) (binding : Binding) (direction : RedirectDirection) :
    Result DecodedWire :=
  match binding with
  | .httpRedirect => decodeRedirect web body direction
  | .httpPost => decodePost body
  | .soap => do
      let xml ← payloadXml qx body
      .ok (.plain xml)
  | .httpArtifact => .error (.unsupportedByPeer .httpArtifact)

/-- `verify_inbound_signature`. -/
def verifyInboundSignature (document : Document) (decoded : DecodedWire) (binding : Binding)
    (signingCerts : List X509Certificate) (policy : PeerCryptoPolicy) (requireSignature : Bool) :
    Result Unit :=
  match binding with
  | .httpRedirect =>
      verifyRedirectSignature crypto requireSignature decoded.asDetachedSignature signingCerts
        policy.allowedSignatureAlgorithms
  | .httpPost | .soap =>
      verifyEnveloped crypto requireSignature "signature does not cover message root" document
        document.root document.root.id signingCerts policy
  | .httpArtifact => .error (.unsupportedByPeer .httpArtifact)

/-- The text for a destination that is not an endpoint of the service provider. -/
def UNREGISTERED_SLO : Str := "expected_destination is not a registered SLO URL"

/-- `consume_logout_response`. -/
def consumeLogoutResponse (idp : IdpDescriptor) (input : ConsumeLogoutResponse) :
    Result LogoutOutcome := do
  let decoded ← decodeLogoutWire qx web input.body input.binding .response
  let document ← Document.parse qx decoded.xml
  let (parsed, _) ← parseLogoutResponse document
  checkDestination sp.config.slo UNREGISTERED_SLO input.expectedDestination parsed.destination
  checkIssuer idp.entityId parsed.issuer
  verifyInboundSignature crypto document decoded input.binding idp.signingCerts
    (sp.policyFor input.peerCryptoPolicy) sp.config.logoutWantSigned.responses
  if parsed.inResponseTo ≠ input.tracker.requestId then .error .inResponseToMismatch
  else .ok parsed.toOutcome

/-- `consume_logout_request`. -/
def consumeLogoutRequest (idp : IdpDescriptor) (input : ConsumeLogoutRequest) :
    Result ParsedLogoutRequest := do
  let policy := sp.policyFor input.peerCryptoPolicy
  let decoded ← decodeLogoutWire qx web input.body input.binding .request
  let document ← Document.parse qx decoded.xml
  let (parsed, _) ← parseLogoutRequest document
  checkDestination sp.config.slo UNREGISTERED_SLO input.expectedDestination parsed.destination
  checkIssuer idp.entityId parsed.issuer
  verifyInboundSignature crypto document decoded input.binding idp.signingCerts policy
    sp.config.logoutWantSigned.requests
  let nameId ← decryptedNameId crypto qx document sp.config.decryptionKey policy parsed.nameId
  if expired parsed.notOnOrAfter input.now input.clockSkew then .error .expired
  else .ok { parsed with nameId := nameId, relayState := decoded.relayState }

/-- The signature gate of `send_soap_logout_request`: a signature that is not
required is verified without a look at what it covers. -/
def verifySoapResponse (innerDoc : Document) (signingCerts : List X509Certificate)
    (policy : PeerCryptoPolicy) (requireSignature : Bool) : Result Unit :=
  if requireSignature then do
    let sig ← okOr (innerDoc.root.childElement (some DS_NS) "Signature") .signatureMissing
    let verified ← verifySignature crypto innerDoc sig signingCerts policy
    if verified.signedElement ≠ innerDoc.root.id then
      .error (.signatureVerification "signature does not cover LogoutResponse root")
    else .ok ()
  else
    match innerDoc.root.childElement (some DS_NS) "Signature" with
    | some sig => do
        let _ ← verifySignature crypto innerDoc sig signingCerts policy
        .ok ()
    | none => .ok ()

/-- The consumption of the reply in `send_soap_logout_request`. -/
def consumeSoapReply (idp : IdpDescriptor) (policy : PeerCryptoPolicy) (requestId : Str)
    (reply : Octets) : Result LogoutOutcome := do
  let innerXml ← payloadXml qx reply
  let innerDoc ← Document.parse qx innerXml
  let (parsed, _) ← parseLogoutResponse innerDoc
  checkIssuer idp.entityId parsed.issuer
  if parsed.inResponseTo ≠ requestId then .error .inResponseToMismatch
  else do
    verifySoapResponse crypto innerDoc idp.signingCerts policy
      sp.config.logoutWantSigned.responses
    .ok parsed.toOutcome

/-- The back-channel request of `send_soap_logout_request`. -/
def soapLogoutRequest (url requestId : Str) (opts : StartLogout) (now : SystemTime) :
    Result HttpRequest := do
  let unsignedXml ← buildLogoutRequestXml (sp.logoutRequest url requestId opts now)
  let logoutRequestXml ← sp.postXml crypto qx unsignedXml sp.config.logoutSigning.signRequests
  let soapEnvelope ← Soap.wrap qx logoutRequestXml
  .ok ⟨url, Soap.requestHeaders, Text.asBytes soapEnvelope⟩

/-- `send_soap_logout_request`. -/
def sendSoapLogoutRequest (http : HttpClient) (idp : IdpDescriptor)
    (peerCryptoPolicy : Option PeerCryptoPolicy) (opts : StartLogout) (ambient : Ambient) :
    Result LogoutOutcome := do
  let endpoint ← okOr (idp.sloEndpoint .soap) (.unsupportedByPeer .soap)
  let requestId ← randomXmlId ambient.draw
  let request ← sp.soapLogoutRequest crypto qx endpoint.url requestId opts ambient.now
  let reply ← Soap.send http request
  sp.consumeSoapReply crypto qx idp (sp.policyFor peerCryptoPolicy) requestId reply

end ServiceProvider

end Saml
