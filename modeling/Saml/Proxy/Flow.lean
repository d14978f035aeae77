import Saml.Idp.Issue
import Saml.Response.Soundness

/-!
# Identity proxy

`proxy`: a login started at the downstream identity provider's role is bounced
to an upstream identity provider, and the identity that comes back is relayed.
What the relay has to know of the downstream request travels in a context that
a codec seals and vouches for.
-/

namespace Saml

open Xml Crypto Dsig Response Authn Replay Redirect Logout

/-- The identity of one proxy in the process. -/
abbrev ProxyInstance := Fin (2 ^ 128)

/-- A proxy; its codec is passed beside it. -/
structure Proxy where
  sp : ServiceProvider
  idp : IdentityProvider
  proxyInstance : ProxyInstance

namespace Proxy

/-! ## Contexts -/

/-- The lifetime of a proxy context. -/
def PROXY_CONTEXT_LIFETIME : Duration := .ofSecs 600 Duration.tenMinutes_lt

/-- The body of a relay token. -/
structure ProxyContextPayload where
  downstreamRequestId : Str
  downstreamSpEntityId : Str
  downstreamAcs : Endpoint
  downstreamRelayState : Option Str
  requestedAuthnContext : Option RequestedAuthnContext
  requestedNameIdFormat : Option NameIdFormat
  upstreamTracker : LoginTracker
  issuedAt : SystemTime
  expiresAt : SystemTime
  transactionId : { octets : Octets // octets.length = 16 }
  downstreamEncryptionCertFingerprints : List Octets
  upstreamSigningCertFingerprints : List Octets

/-- The lifetime of a payload is one that `decode_context` lets pass. -/
def ProxyContextPayload.Bounded (payload : ProxyContextPayload) : Prop :=
  payload.issuedAt ≤ payload.expiresAt ∧
    payload.expiresAt.since payload.issuedAt ≤ PROXY_CONTEXT_LIFETIME

instance (payload : ProxyContextPayload) : Decidable payload.Bounded :=
  inferInstanceAs (Decidable (_ ∧ _))

/-- A payload the codec has vouched for. -/
structure ProxyContext where
  payload : ProxyContextPayload
  bounded : payload.Bounded

/-- A codec as it stands when it is called, with its key or its store, its
clock and its randomness. -/
structure ProxyContextCodec where
  encode : ProxyContextPayload → Result Str
  decode : Str → Result ProxyContextPayload

/-- What a codec is trusted with: the blob that a payload was sealed into opens
as that payload, or not at all. The codec may have moved on in between. -/
def ProxyContextCodec.Opens (sealing opening : ProxyContextCodec) (payload : ProxyContextPayload) :
    Prop :=
  ∀ blob opened, sealing.encode payload = .ok blob → opening.decode blob = .ok opened →
    opened = payload

/-- An upstream identity with the context it was validated under. -/
structure UpstreamFlow where
  context : ProxyContext
  identity : Identity
  proxyInstance : ProxyInstance

/-- `decode_context`. -/
def decodeContext (codec : ProxyContextCodec) (blob : Str) : Result ProxyContext := do
  let payload ← codec.decode blob
  if h : payload.Bounded then .ok ⟨payload, h⟩
  else .error (.invalidConfiguration "proxy context lifetime exceeds the allowed maximum")

theorem decodeContext_ok {codec : ProxyContextCodec} {blob : Str} {context : ProxyContext}
    (h : decodeContext codec blob = .ok context) : codec.decode blob = .ok context.payload := by
  obtain ⟨payload, hpayload, h⟩ := bind_eq_ok_iff.mp h
  split at h
  · obtain rfl := Except.ok.inj h
    exact hpayload
  · cases h

/-- `URL_SAFE_NO_PAD`: the URL alphabet without padding. -/
def base64UrlNoPad (bytes : Octets) : Str :=
  ((base64Encode bytes).filter (· ≠ '=')).map fun c =>
    if c = '+' then '-' else if c = '/' then '_' else c

variable (crypto : Primitives) (qx : QuickXml) (web : Web)

/-! ## Bounce -/

/-- The input of `bounce_to_upstream`. -/
structure BounceToUpstream where
  upstreamIdp : IdpDescriptor
  downstreamRequest : ParsedAuthnRequest
  propagateRequestFlags : Bool
  propagateAuthnContext : Bool
  propagateNameIdPolicy : Bool
  upstreamBinding : Binding
  now : SystemTime

/-- The result of `bounce_to_upstream`. -/
structure BounceResult where
  dispatch : Dispatch
  upstreamRelayState : Str

/-- `inject_relay_state`: a form field, or a pair behind the query. -/
def injectRelayState (dispatch : Dispatch) (relayState : Str) : Dispatch :=
  match dispatch with
  | .post form => .post { form with relayState := some relayState }
  | .redirect url => .redirect (web.appendPairs url [(RELAY_STATE, relayState)])

/-- The login started upstream. -/
def BounceToUpstream.startLogin (input : BounceToUpstream) : StartLogin :=
  let downstream := input.downstreamRequest.validated
  { relayState := none
    binding := input.upstreamBinding
    forceAuthn := input.propagateRequestFlags && downstream.forceAuthn
    isPassive := input.propagateRequestFlags && downstream.isPassive
    requestedNameIdFormat :=
      if input.propagateNameIdPolicy then downstream.requestedNameIdFormat else none
    requestedAuthnContext :=
      if input.propagateAuthnContext then downstream.requestedAuthnContext else none
    acsIndex := none
    acsUrl := none
    responseBinding := none }

/-- The payload sealed with a bounce: what the validated request says, whatever
is propagated. -/
def BounceToUpstream.payload (input : BounceToUpstream) (tracker : LoginTracker)
    (expiresAt : SystemTime) (transactionId : { octets : Octets // octets.length = 16 }) :
    ProxyContextPayload :=
  let downstream := input.downstreamRequest.validated
  { downstreamRequestId := downstream.requestId
    downstreamSpEntityId := downstream.spEntityId
    downstreamAcs := downstream.acs.asEndpoint
    downstreamRelayState := downstream.relayState
    requestedAuthnContext := downstream.requestedAuthnContext
    requestedNameIdFormat := downstream.requestedNameIdFormat
    upstreamTracker := tracker
    issuedAt := input.now
    expiresAt := expiresAt
    transactionId := transactionId
    downstreamEncryptionCertFingerprints := downstream.encryptionCertFingerprints
    upstreamSigningCertFingerprints :=
      certificateFingerprintSet crypto input.upstreamIdp.signingCerts }

/-- `bounce_to_upstream`. -/
def bounceToUpstream (proxy : Proxy) (codec : ProxyContextCodec) (input : BounceToUpstream)
    (ambient : Ambient) (transactionId : { octets : Octets // octets.length = 16 }) :
    Result BounceResult :=
  if input.upstreamBinding = .httpRedirect ∧ proxy.sp.config.signAuthnRequests = true then
    .error (.invalidConfiguration ("signed Redirect upstream cannot carry the proxy context " ++
      "RelayState; use POST upstream or disable AuthnRequest signing"))
  else do
    let result ← proxy.sp.startLogin crypto qx web input.upstreamIdp input.startLogin ambient
    let expiresAt ← okOr (input.now.checkedAdd PROXY_CONTEXT_LIFETIME)
      (.invalidConfiguration "proxy context expiry overflow")
    let relayState ← codec.encode (input.payload crypto result.tracker expiresAt transactionId)
    .ok ⟨injectRelayState web result.dispatch relayState, relayState⟩

/-! ## The upstream response -/

/-- The input of `consume_upstream_response`; the replay cache is passed beside
it. -/
structure ConsumeUpstreamResponse where
  relayState : Str
  upstreamIdp : IdpDescriptor
  peerCryptoPolicy : Option PeerCryptoPolicy
  samlResponse : Octets
  binding : SsoResponseBinding
  expectedDestination : Str
  now : SystemTime
  clockSkew : Duration
  holderOfKeyCert : Option X509Certificate

/-- The response as the service provider consumes it: its tracker is the
context's. -/
def ConsumeUpstreamResponse.consumeResponse (input : ConsumeUpstreamResponse)
    (payload : ProxyContextPayload) : ConsumeResponse where
  idp := input.upstreamIdp
  peerCryptoPolicy := input.peerCryptoPolicy
  samlResponse := input.samlResponse
  binding := input.binding
  tracker := some payload.upstreamTracker
  expectedDestination := input.expectedDestination
  now := input.now
  clockSkew := input.clockSkew
  replayMode := .all
  holderOfKeyCert := input.holderOfKeyCert

/-- The context of a relay token that is still good for an upstream. -/
def upstreamContext (codec : ProxyContextCodec) (input : ConsumeUpstreamResponse) :
    Result ProxyContext := do
  let context ← decodeContext codec input.relayState
  if context.payload.expiresAt ≤ input.now then .error .expired
  else if !input.upstreamIdp.signingCerts.any (fun cert =>
      context.payload.upstreamSigningCertFingerprints.contains
        (cert.fingerprintSha256 crypto)) then
    .error .upstreamTrustRootMismatch
  else .ok context

/-- `consume_upstream_response`: the cache after the call, and its result. -/
def consumeUpstreamResponse (proxy : Proxy) (codec : ProxyContextCodec)
    (input : ConsumeUpstreamResponse) (cache : InMemoryReplayCache) :
    Option InMemoryReplayCache × Result UpstreamFlow :=
  match upstreamContext crypto codec input with
  | .error err => (some cache, .error err)
  | .ok context =>
      let entry := ReplayEntry.proxyTransaction
        (base64UrlNoPad context.payload.transactionId.val) context.payload.expiresAt
      let (next, identity) := proxy.sp.consumeResponseWithReplay crypto qx
        (input.consumeResponse context.payload) (some entry) .proxyTransactionReplay (some cache)
      (next, identity.map fun identity => ⟨context, identity, proxy.proxyInstance⟩)

/-! ## Relay -/

/-- `AttributeReleasePolicy`. -/
abbrev AttributeReleasePolicy := List SamlAttribute → SpDescriptor → List SamlAttribute

/-- `NameIdTransform`. -/
abbrev NameIdTransform := Str → NameId → List SamlAttribute → SpDescriptor → Result NameId

/-- The input of `relay_to_downstream`. -/
structure RelayToDownstream where
  flow : UpstreamFlow
  downstreamSp : SpDescriptor
  attributeRelease : AttributeReleasePolicy
  nameIdTransform : NameIdTransform
  passthroughAuthnContext : Bool
  now : SystemTime
  sessionLifetime : Duration
  subjectConfirmationLifetime : Duration

/-- The checks of the pairing: the flow is this proxy's, the key material and
the peer are those of the sealed request, and the endpoint is registered. -/
def downstreamAcs (proxy : Proxy) (input : RelayToDownstream) :
    Result SsoResponseEndpoint :=
  let payload := input.flow.context.payload
  if input.flow.proxyInstance ≠ proxy.proxyInstance then .error .foreignProxyFlow
  else do
    if proxy.idp.config.encryptAssertionsWhenPossible then
      matchKeyMaterial crypto payload.downstreamEncryptionCertFingerprints input.downstreamSp
    else .ok ()
    if payload.downstreamSpEntityId ≠ input.downstreamSp.entityId then
      .error (.issuerMismatch payload.downstreamSpEntityId (some input.downstreamSp.entityId))
    else do
      let acs ← SsoResponseEndpoint.tryFromEndpoint payload.downstreamAcs
      if acs.binding = .httpArtifact then .error .artifactTransactionRequired
      else if !input.downstreamSp.assertionConsumerServices.any (fun e =>
          e.url = acs.url ∧ e.binding = acs.binding ∧ e.index = acs.index) then
        .error (.unregisteredAcs input.downstreamSp.entityId)
      else .ok acs

/-- The class a relayed response advertises. -/
def RelayToDownstream.classRef (input : RelayToDownstream) : AuthnContextClassRef :=
  if input.passthroughAuthnContext then
    (input.flow.identity.authnContextClassRef.map AuthnContextClassRef.fromUri).getD .unspecified
  else .unspecified

/-- The advertised class is no downgrade of what the sealed request asks for. -/
def checkDowngrade (requested : Option RequestedAuthnContext)
    (classRef : AuthnContextClassRef) : Result Unit :=
  match requested with
  | some requested => checkAuthnContext requested classRef.asUri
  | none => .ok ()

/-- The earliest of the upstream deadlines. -/
def upstreamExpiry (identity : Identity) : SystemTime :=
  min (match identity.sessionNotOnOrAfter with
    | some sessionEnd => min identity.notOnOrAfter sessionEnd
    | none => identity.notOnOrAfter) identity.subjectConfirmationNotOnOrAfter

/-- The deadlines of a relayed assertion. -/
structure RelayDeadlines where
  sessionNotOnOrAfter : SystemTime
  sessionLifetime : Duration
  subjectConfirmationLifetime : Duration

/-- The clamp of the downstream deadlines. -/
def clampDeadlines (input : RelayToDownstream) : Result RelayDeadlines :=
  let upstreamExpiry := upstreamExpiry input.flow.identity
  if upstreamExpiry ≤ input.now then .error .expired
  else do
    let requested ← okOr (input.now.checkedAdd input.sessionLifetime)
      (.invalidConfiguration "session_not_on_or_after overflow")
    let sessionNotOnOrAfter := min requested upstreamExpiry
    let sessionLifetime := sessionNotOnOrAfter.since input.now
    .ok ⟨sessionNotOnOrAfter, sessionLifetime,
      min input.subjectConfirmationLifetime sessionLifetime⟩

/-- The transformed name identifier, in the format negotiated before. -/
def downstreamNameId (proxy : Proxy) (input : RelayToDownstream) : Result NameId := do
  let payload := input.flow.context.payload
  let identity := input.flow.identity
  let chosenFormat ← proxy.idp.resolveNameIdFormat payload.requestedNameIdFormat
  let nameId ← input.nameIdTransform payload.upstreamTracker.idpEntityId identity.nameId
    identity.attributes input.downstreamSp
  ensureNameIdFormat nameId chosenFormat
  ensureNameIdSpQualifier nameId input.downstreamSp.entityId
  .ok nameId

/-- `make_session_index`. -/
def makeSessionIndex (bytes : { octets : Octets // octets.length = 16 }) : Str :=
  '_' :: bytes.val.flatMap hexOctet

/-- What the identity provider's role is asked to issue. -/
def RelayToDownstream.issueResponse (input : RelayToDownstream) (synthetic : ParsedAuthnRequest)
    (nameId : NameId) (deadlines : RelayDeadlines)
    (sessionIndex : { octets : Octets // octets.length = 16 }) : IssueResponse where
  sp := input.downstreamSp
  inResponseTo := synthetic
  nameId := nameId
  attributes := input.attributeRelease input.flow.identity.attributes input.downstreamSp
  authnInstant := input.flow.identity.authnInstant
  sessionIndex := makeSessionIndex sessionIndex
  sessionNotOnOrAfter := some deadlines.sessionNotOnOrAfter
  authnContextClassRef := input.classRef
  forceEncryptAssertion := none
  now := input.now
  assertionLifetime := deadlines.sessionLifetime
  subjectConfirmationLifetime := deadlines.subjectConfirmationLifetime
  holderOfKeyCert := none

/-- `relay_to_downstream`. -/
def relayToDownstream (proxy : Proxy) (input : RelayToDownstream)
    (sessionIndex : { octets : Octets // octets.length = 16 }) (draws : IssueDraws) :
    Result SsoResponseDispatch := do
  let payload := input.flow.context.payload
  let acs ← proxy.downstreamAcs crypto input
  checkDowngrade payload.requestedAuthnContext input.classRef
  let deadlines ← clampDeadlines input
  let _ ← issuanceInstants input.now deadlines.sessionLifetime
    deadlines.subjectConfirmationLifetime input.flow.identity.authnInstant
    (some deadlines.sessionNotOnOrAfter)
  let nameId ← proxy.downstreamNameId input
  let synthetic ← ParsedAuthnRequest.forProxyReissue crypto input.downstreamSp
    payload.downstreamRequestId payload.issuedAt acs payload.requestedNameIdFormat
    payload.requestedAuthnContext payload.downstreamRelayState
  proxy.idp.issueResponse crypto web
    (input.issueResponse synthetic nameId deadlines sessionIndex) draws

end Proxy

end Saml
