import Saml.Authn.Message
import Saml.FrontChannel
import Saml.Sp.Login

/-!
# A started login reaches the identity provider

`start_login` against `consume_authn_request_wire`: over a redirect or a form,
signed or not, the identity provider accepts the request that was started and
takes it for what was asked.
-/

namespace Saml

open Xml Crypto Dsig Response Redirect Logout Authn Time

variable {crypto : Primitives} {qx : QuickXml} {web : Web}

/-- How a login nominates its endpoint, as it is read. -/
def StartLogin.selection (opts : StartLogin) : AcsSelection :=
  match opts.acsIndex, opts.acsUrl with
  | some index, _ => .index index
  | none, some url => .url url
  | none, none => .default

namespace ServiceProvider

variable {sp : ServiceProvider} {idp : IdpDescriptor} {opts : StartLogin} {ambient : Ambient}
  {started : StartLoginResult}

/-- The steps of a started login. -/
theorem startLogin_ok (h : sp.startLogin crypto qx web idp opts ambient = .ok started) :
    ∃ endpoint destination xml,
      idp.ssoEndpoint opts.binding = some endpoint ∧
      web.parseUrl endpoint.url = some destination ∧
      randomXmlId ambient.draw = .ok started.tracker.requestId ∧
      sp.resolveAcsEndpoint opts = .ok started.tracker.acsEndpoint ∧
      buildAuthnRequestXml (sp.authnRequest endpoint.url started.tracker.requestId
        started.tracker.acsEndpoint.binding opts ambient.now) = .ok xml ∧
      sp.dispatchAuthnRequest crypto qx web destination xml opts = .ok started.dispatch ∧
      started.tracker = {
        requestId := started.tracker.requestId
        issuedAt := ambient.now
        idpEntityId := idp.entityId
        acsEndpoint := started.tracker.acsEndpoint
        requestedAuthnContext := opts.requestedAuthnContext
        requestedNameIdFormat := opts.requestedNameIdFormat
        idpSigningCertFingerprints := certificateFingerprintSet crypto idp.signingCerts
        idpArtifactResolutionServices := started.tracker.idpArtifactResolutionServices } := by
  obtain ⟨_, h⟩ := ite_error_eq_ok_iff.mp h
  obtain ⟨endpoint, hendpoint, h⟩ := bind_eq_ok_iff.mp h
  obtain ⟨destination, hdestination, h⟩ := bind_eq_ok_iff.mp h
  obtain ⟨requestId, hrequestId, h⟩ := bind_eq_ok_iff.mp h
  obtain ⟨acsEndpoint, hacsEndpoint, h⟩ := bind_eq_ok_iff.mp h
  obtain ⟨hbinding, h⟩ := ite_error_eq_ok_iff.mp h
  obtain ⟨services, hservices, h⟩ := bind_eq_ok_iff.mp h
  obtain ⟨xml, hxml, h⟩ := bind_eq_ok_iff.mp h
  obtain ⟨dispatch, hdispatch, h⟩ := bind_eq_ok_iff.mp h
  obtain rfl := Except.ok.inj h
  rw [not_not.mp hbinding] at hxml
  exact ⟨endpoint, destination, xml, okOr_eq_ok_iff.mp hendpoint, okOr_eq_ok_iff.mp hdestination,
    hrequestId, hacsEndpoint, hxml, hdispatch, rfl⟩

theorem issuedAt_startLogin (h : sp.startLogin crypto qx web idp opts ambient = .ok started) :
    started.tracker.issuedAt = ambient.now := by
  obtain ⟨_, _, _, _, _, _, _, _, _, htracker⟩ := startLogin_ok h
  exact congrArg LoginTracker.issuedAt htracker

/-- The request of a started login is on its way as a message. -/
theorem outbound_startLogin (correct : SignsCorrectly crypto) (lawful : qx.Lawful)
    (h : sp.startLogin crypto qx web idp opts ambient = .ok started) {endpoint : Endpoint}
    (hendpoint : idp.ssoEndpoint opts.binding = some endpoint)
    (quiet : ∀ destination, web.parseUrl endpoint.url = some destination → Quiet destination) :
    ∃ issueInstant referable,
      formatXsDatetime ambient.now = .ok issueInstant ∧
      sp.resolveAcsEndpoint opts = .ok started.tracker.acsEndpoint ∧
      Outbound crypto qx web
        ((sp.authnRequest endpoint.url started.tracker.requestId
          started.tracker.acsEndpoint.binding opts ambient.now).message issueInstant referable)
        (sp.signing sp.config.signAuthnRequests) .request opts.relayState opts.binding
        started.dispatch := by
  obtain ⟨found, destination, xml, hfound, hdestination, hid, hacs, hxml, hdispatch, -⟩ :=
    startLogin_ok h
  obtain rfl := Option.some.inj (hendpoint.symm.trans hfound)
  have referable := referable_randomXmlId hid
  obtain ⟨element, helement, hxml⟩ := bind_eq_ok_iff.mp hxml
  obtain ⟨issueInstant, hinstant, rfl⟩ := buildAuthnRequestElement_ok helement referable
  refine ⟨issueInstant, referable, hinstant, hacs, ?_⟩
  unfold dispatchAuthnRequest at hdispatch
  cases hbinding : opts.binding with
  | httpRedirect =>
      rw [hbinding] at hdispatch
      exact outbound_redirect lawful hdestination (quiet _ hdestination) hxml hdispatch
  | httpPost =>
      rw [hbinding] at hdispatch
      obtain ⟨posted, hposted, hdispatch⟩ := bind_eq_ok_iff.mp hdispatch
      rw [← Except.ok.inj hdispatch]
      exact outbound_post correct lawful hxml hposted destination
  | httpArtifact =>
      rw [hbinding] at hdispatch
      cases hdispatch
  | soap =>
      rw [hbinding] at hdispatch
      cases hdispatch

/-- The request that a started login stands for, as an identity provider that
knows the service provider by a descriptor takes it. -/
def requested (sp : ServiceProvider) (crypto : Primitives) (descriptor : SpDescriptor)
    (opts : StartLogin) (tracker : LoginTracker) (destination : Str) : ParsedAuthnRequest where
  id := tracker.requestId
  issuer := sp.config.entityId
  issueInstant := tracker.issuedAt.millis
  destination := some destination
  assertionConsumerService := tracker.acsEndpoint
  protocolBinding := some tracker.acsEndpoint.binding
  assertionConsumerServiceSelection := opts.selection
  validated := {
    spEntityId := sp.config.entityId
    acs := tracker.acsEndpoint
    forceAuthn := opts.forceAuthn
    isPassive := opts.isPassive
    encryptionCertFingerprints := descriptor.encryptionCerts.map (·.fingerprintSha256 crypto)
    relayState := opts.relayState
    requestId := tracker.requestId
    requestedAuthnContext := opts.requestedAuthnContext.map readContext
    requestedNameIdFormat :=
      opts.requestedNameIdFormat.map fun f => NameIdFormat.fromUri f.asUri }
  forceAuthn := opts.forceAuthn
  isPassive := opts.isPassive
  requestedNameIdFormat := opts.requestedNameIdFormat.map fun f => NameIdFormat.fromUri f.asUri
  requestedAuthnContext := opts.requestedAuthnContext.map readContext
  relayState := opts.relayState

/-- A descriptor says of a service provider what is true of it. -/
structure Describes (sp : ServiceProvider) (descriptor : SpDescriptor) : Prop where
  entityId : descriptor.entityId = sp.config.entityId
  acs : descriptor.assertionConsumerServices = sp.config.acs

/-- A descriptor selects the endpoint that the service provider nominated. -/
theorem Describes.resolveAcs {descriptor : SpDescriptor} (h : sp.Describes descriptor)
    {acs : SsoResponseEndpoint} (hacs : sp.resolveAcsEndpoint opts = .ok acs)
    {raw : RawParsedAuthnRequest}
    (index : raw.assertionConsumerServiceIndex = (acsSelection opts).index?)
    (url : raw.assertionConsumerServiceUrl = (acsSelection opts).url?) :
    Authn.resolveAcs raw descriptor = .ok (acs, opts.selection) := by
  obtain ⟨-, hacs⟩ := ite_error_eq_ok_iff.mp hacs
  unfold acsSelection at index url
  unfold Authn.resolveAcs StartLogin.selection
  cases hindex : opts.acsIndex with
  | some n =>
      rw [hindex] at hacs index
      have hfound : descriptor.acsEndpointByIndex n = some acs := by
        rw [SpDescriptor.acsEndpointByIndex, h.acs]
        exact okOr_eq_ok_iff.mp hacs
      rw [index]
      dsimp only [AcsRequest.index?]
      rw [hfound]
      rfl
  | none =>
      cases hurl : opts.acsUrl with
      | some u =>
          rw [hindex, hurl] at hacs index url
          have hfound : descriptor.acsEndpointByUrl u = some acs := by
            rw [SpDescriptor.acsEndpointByUrl, h.acs]
            exact okOr_eq_ok_iff.mp hacs
          rw [index, url]
          dsimp only [AcsRequest.index?, AcsRequest.url?]
          rw [hfound]
          rfl
      | none =>
          rw [hindex, hurl] at hacs index url
          have hfound : descriptor.defaultAcs = some acs := by
            rw [SpDescriptor.defaultAcs, h.acs]
            exact okOr_eq_ok_iff.mp hacs
          rw [index, url]
          dsimp only [AcsRequest.index?, AcsRequest.url?]
          rw [hfound]
          rfl

end ServiceProvider

namespace IdentityProvider

/-- The identity provider waits for the requests of a service provider at an
endpoint of its own, and trusts what that one signs. -/
structure Awaits (idp : IdentityProvider) (crypto : Primitives) (sp : ServiceProvider)
    (input : ConsumeAuthnRequestWire) (endpoint : Endpoint) : Prop where
  describes : sp.Describes input.sp
  destination : input.expectedDestination = endpoint.url
  registered : endpoint.url ∈ idp.config.sso.map Endpoint.url
  required : (idp.config.wantAuthnRequestsSigned || input.sp.authnRequestsSigned) = true →
    sp.config.signAuthnRequests = true
  trusts : ∀ o ∈ sp.signing sp.config.signAuthnRequests,
    Trusts crypto input.sp.signingCerts (idp.policyFor input.peerCryptoPolicy) o

/-- The identity provider reads a request in time. -/
structure Prompt (idp : IdentityProvider) (input : ConsumeAuthnRequestWire)
    (issued : SystemTime) : Prop where
  begun : issued.millis.nanos ≤ input.now.nanos + input.clockSkew.nanos
  fresh : input.now.nanos - issued.millis.nanos ≤
    min ((input.maxAuthnRequestAge.getD idp.config.maxAuthnRequestAge).nanos +
      input.clockSkew.nanos) (2 ^ 64 * NANOS - 1)

variable {idp : IdentityProvider}

theorem checkFreshness_of_prompt {input : ConsumeAuthnRequestWire} {issued : SystemTime}
    (h : idp.Prompt input issued) :
    checkFreshness issued.millis input.now
      (input.maxAuthnRequestAge.getD idp.config.maxAuthnRequestAge) input.clockSkew = .ok () := by
  obtain ⟨begun, fresh⟩ := h
  unfold checkFreshness
  dsimp only
  rw [if_neg (by omega), if_neg (by omega)]

/-- The signature of a request passes. -/
theorem verifyAuthnRequestSignature_of_received {m : Message} {signing : Option SignOptions}
    {relayState : Option Str} {input : ConsumeAuthnRequest} {body : Octets}
    {decoded : DecodedWire}
    (received : Received crypto qx m signing input.binding relayState decoded)
    (hdecoded : decodeWire web body input.binding .request = .ok decoded)
    (hxml : input.samlRequest = decoded.xml)
    (hdetached : input.detachedSignature = decoded.asDetachedSignature)
    (hrelay : input.binding = .httpRedirect → input.relayState = decoded.relayState)
    {doc : Document} (hdoc : Document.parse qx decoded.xml = .ok doc)
    (required : (idp.config.wantAuthnRequestsSigned || input.sp.authnRequestsSigned) = true →
      signing.isSome = true)
    (trusts : ∀ o ∈ signing,
      Trusts crypto input.sp.signingCerts (idp.policyFor input.peerCryptoPolicy) o) :
    idp.verifyAuthnRequestSignature crypto web doc input = .ok () := by
  have hpasses := received.passes doc hdoc _ _ _ required trusts
  unfold verifyAuthnRequestSignature
  dsimp only
  rcases received.front with hbinding | hbinding
  · rw [hbinding] at hpasses hdecoded ⊢
    dsimp only
    have hverified : verifyRedirectRequestSignature crypto
        (idp.config.wantAuthnRequestsSigned || input.sp.authnRequestsSigned)
        input.detachedSignature input.sp.signingCerts
        (idp.policyFor input.peerCryptoPolicy).allowedSignatureAlgorithms = .ok () := by
      rw [hdetached]
      exact hpasses
    rw [hverified, ok_bind, hdetached]
    cases hd : decoded.asDetachedSignature with
    | none => rfl
    | some d =>
        dsimp only
        rw [hxml, hrelay hbinding]
        exact ensureSignedQueryMatches_decoded hdecoded hd rfl
  · rw [hbinding] at hpasses ⊢
    exact verifyEnveloped_reason hpasses

end IdentityProvider

/-- The caller hands on the relay state that the user agent brought; over a
redirect it may leave it to the query. -/
def HandsOn (input : ConsumeAuthnRequestWire) (relayState : Option Str) : Prop :=
  input.relayState = relayState ∨ input.binding = .httpRedirect ∧ input.relayState = none

theorem resolveRelayState_of_handsOn {m : Message} {signing : Option SignOptions}
    {relayState : Option Str} {input : ConsumeAuthnRequestWire} {decoded : DecodedWire}
    (received : Received crypto qx m signing input.binding relayState decoded)
    (handsOn : HandsOn input relayState) :
    IdentityProvider.resolveRelayState input.binding input.relayState decoded.relayState =
      .ok relayState := by
  have hrelay := received.relayState
  unfold IdentityProvider.resolveRelayState
  rcases received.front with hbinding | hbinding
  · rw [if_pos hbinding] at hrelay
    have hagrees : ¬ (input.relayState.isSome = true ∧ input.relayState ≠ decoded.relayState) := by
      rintro ⟨hsome, hother⟩
      rcases handsOn with hsame | ⟨-, hnone⟩
      · exact hother (hsame.trans hrelay.symm)
      · rw [hnone] at hsome
        cases hsome
    rw [if_pos hbinding, if_neg hagrees, hrelay]
  · have hother : ¬ input.binding = .httpRedirect := by
      rw [hbinding]
      decide
    rw [if_neg hother] at hrelay ⊢
    rcases handsOn with hsame | ⟨hredirect, -⟩
    · rw [hrelay, hsame, Option.or_none]
    · exact absurd hredirect hother

namespace ServiceProvider

/-- Validation of a request that a service provider built for an endpoint of its
own: nothing but what the caller hands on is missing. -/
theorem validateAuthnRequest_read (crypto : Primitives) {sp : ServiceProvider}
    {descriptor : SpDescriptor}
    (describes : sp.Describes descriptor) {opts : StartLogin} {tracker : LoginTracker}
    (hacs : sp.resolveAcsEndpoint opts = .ok tracker.acsEndpoint) {destination : Str}
    {ssoEndpointUrls : List Str} (registered : destination ∈ ssoEndpointUrls) {now : SystemTime}
    (hissued : tracker.issuedAt = now) :
    ∃ parsed, validateAuthnRequest crypto
        (sp.authnRequest destination tracker.requestId tracker.acsEndpoint.binding opts now).read
        descriptor destination ssoEndpointUrls = .ok parsed ∧
      parsed.issueInstant = now.millis ∧
      parsed.sealRelayState opts.relayState =
        sp.requested crypto descriptor opts tracker destination := by
  have hentity : Text.trim sp.config.entityId = sp.config.entityId :=
    trim_of_validEntityId sp.valid.entityId
  let asked := sp.authnRequest destination tracker.requestId tracker.acsEndpoint.binding opts now
  have hissuer : ¬ asked.read.issuer ≠ descriptor.entityId := by
    rw [describes.entityId]
    exact not_not_intro hentity
  have hdestination : ¬ asked.read.destination.any (· ≠ destination) = true := by
    simp [asked, BuildAuthnRequest.read, authnRequest]
  have hselected : resolveAcs asked.read descriptor = .ok (tracker.acsEndpoint, opts.selection) :=
    describes.resolveAcs hacs rfl rfl
  have hbinding : ¬ asked.read.protocolBinding.any (· ≠ tracker.acsEndpoint.binding) = true := by
    simp [asked, BuildAuthnRequest.read, authnRequest]
  unfold validateAuthnRequest
  rw [if_neg hissuer, if_neg (not_not_intro registered), if_neg hdestination, hselected, ok_bind]
  dsimp only
  rw [if_neg hbinding]
  refine ⟨_, rfl, rfl, ?_⟩
  have hnamed : asked.read.issuer = sp.config.entityId := hentity
  unfold ParsedAuthnRequest.sealRelayState requested
  dsimp only
  rw [hnamed, describes.entityId, hissued]
  rfl

end ServiceProvider

/-- A request as it was received is taken for what was asked. -/
theorem consumeAuthnRequestWire_of_received {sp : ServiceProvider} {opts : StartLogin}
    {tracker : LoginTracker} {issuedAt : SystemTime} (hissued : tracker.issuedAt = issuedAt)
    (dated : issuedAt.Dated) (hacs : sp.resolveAcsEndpoint opts = .ok tracker.acsEndpoint)
    {endpoint : Endpoint} {issueInstant : Str}
    (hinstant : formatXsDatetime issuedAt = .ok issueInstant)
    {referable : Referable tracker.requestId} {idp : IdentityProvider}
    {input : ConsumeAuthnRequestWire} {decoded : DecodedWire}
    (received : Received crypto qx
      ((sp.authnRequest endpoint.url tracker.requestId tracker.acsEndpoint.binding opts
        issuedAt).message issueInstant referable)
      (sp.signing sp.config.signAuthnRequests) input.binding opts.relayState decoded)
    (handsOn : HandsOn input opts.relayState)
    (hdecoded : decodeWire web input.wireBody input.binding .request = .ok decoded)
    {doc : Document} (hdoc : Document.parse qx decoded.xml = .ok doc)
    (awaits : idp.Awaits crypto sp input endpoint) (prompt : idp.Prompt input issuedAt) :
    idp.consumeAuthnRequestWire crypto qx web input =
      .ok (sp.requested crypto input.sp opts tracker endpoint.url) := by
  have hentity : Text.trim sp.config.entityId ≠ [] := by
    rw [trim_of_validEntityId sp.valid.entityId]
    exact sp.valid.entityId.1
  have hread := parseAuthnRequest_message dated hentity hinstant (received.readIn doc hdoc)
  obtain ⟨parsed, hparsed, hparsedAt, hsealed⟩ := ServiceProvider.validateAuthnRequest_read crypto
    awaits.describes hacs awaits.registered hissued
  let inner : ConsumeAuthnRequest := {
    sp := input.sp
    peerCryptoPolicy := input.peerCryptoPolicy
    maxAuthnRequestAge := input.maxAuthnRequestAge
    samlRequest := decoded.xml
    binding := input.binding
    relayState := opts.relayState
    detachedSignature := decoded.asDetachedSignature
    expectedDestination := input.expectedDestination
    now := input.now
    clockSkew := input.clockSkew }
  have hsignature : idp.verifyAuthnRequestSignature crypto web doc inner = .ok () :=
    IdentityProvider.verifyAuthnRequestSignature_of_received received hdecoded rfl rfl
      (fun h => (received.relayState.trans (if_pos h)).symm) hdoc
      (fun h => ServiceProvider.isSome_signing (awaits.required h)
        (sp.valid.signingKey (by rw [awaits.required h]; rfl))) awaits.trusts
  have hfresh := IdentityProvider.checkFreshness_of_prompt prompt
  rw [← hparsedAt] at hfresh
  rw [IdentityProvider.consumeAuthnRequestWire, hdecoded, ok_bind,
    resolveRelayState_of_handsOn received handsOn, ok_bind]
  change idp.consumeAuthnRequest crypto qx web inner = _
  rw [IdentityProvider.consumeAuthnRequest, hdoc, ok_bind, hread, ok_bind, ← hsealed]
  dsimp only [inner] at hsignature ⊢
  rw [awaits.destination] at hsignature ⊢
  rw [hparsed, ok_bind, hsignature, ok_bind, hfresh, ok_bind]

/-- A request that a service provider started is accepted at the endpoint it went
to, and it is taken for what was asked. -/
theorem started_login_accepted (correct : SignsCorrectly crypto) (lawful : qx.Lawful)
    (inflates : Inflates web) (keeps : KeepsQuery web) {sp : ServiceProvider}
    {descriptor : IdpDescriptor} {opts : StartLogin} {ambient : Ambient}
    {started : StartLoginResult}
    (start : sp.startLogin crypto qx web descriptor opts ambient = .ok started)
    (dated : ambient.now.Dated) {endpoint : Endpoint}
    (hendpoint : descriptor.ssoEndpoint opts.binding = some endpoint)
    (quiet : ∀ destination, web.parseUrl endpoint.url = some destination → Quiet destination)
    {idp : IdentityProvider} {input : ConsumeAuthnRequestWire}
    (brought : started.dispatch.body .request = some input.wireBody)
    (sameBinding : input.binding = opts.binding) (handsOn : HandsOn input opts.relayState)
    {decoded : DecodedWire}
    (hdecoded : decodeWire web input.wireBody input.binding .request = .ok decoded)
    {doc : Document} (hdoc : Document.parse qx decoded.xml = .ok doc)
    (awaits : idp.Awaits crypto sp input endpoint) (prompt : idp.Prompt input ambient.now) :
    idp.consumeAuthnRequestWire crypto qx web input =
      .ok (sp.requested crypto input.sp opts started.tracker endpoint.url) := by
  obtain ⟨issueInstant, referable, hinstant, hacs, outbound⟩ :=
    ServiceProvider.outbound_startLogin correct lawful start hendpoint quiet
  rw [← sameBinding] at outbound
  have received := outbound.received correct inflates keeps brought hdecoded
  exact consumeAuthnRequestWire_of_received (ServiceProvider.issuedAt_startLogin start) dated hacs
    hinstant received handsOn hdecoded hdoc awaits prompt

/-! ## A sample login -/

namespace SampleLogin

def acs : SsoResponseEndpoint := ⟨"https://sp.example/acs", .httpPost, some 0, true⟩

/-- A service provider that signs its requests. -/
def sp : ServiceProvider where
  config := {
    entityId := "sp"
    acs := [acs]
    slo := []
    nameIdFormats := []
    signingKey := some Response.Sample.key
    decryptionKey := none
    signAuthnRequests := true
    wantSigned := ⟨false, true⟩
    allowUnsolicited := false
    logoutSigning := ⟨false, false⟩
    logoutWantSigned := ⟨false, false⟩
    defaultPeerCryptoPolicy := .strongDefaults
    outboundSignatureAlgorithm := .rsaSha256
    outboundDigestAlgorithm := .sha256 }
  valid := ⟨validEntityId_of_all (by decide) (by decide), by decide, fun _ => rfl⟩

/-- The identity provider of the login, which can name a subject for one session. -/
def idp : IdentityProvider where
  config := { Saml.Sample.idpConfig ⟨true, true⟩ with supportedNameIdFormats := [.transient] }
  valid :=
    have h := (Saml.Sample.idp ⟨true, true⟩).valid
    ⟨h.entityId, h.sso, h.artifactResolution, h.certificate, h.indices⟩

/-- The service provider, as the identity provider knows it. -/
def peer : SpDescriptor :=
  { Response.Sample.sp with assertionConsumerServices := [acs], authnRequestsSigned := true }

def endpoint : Endpoint := Saml.Sample.endpoint "https://idp.example/sso" .httpRedirect

def destination : Url := ⟨"https://idp.example/sso"⟩

/-- The identity provider, as the service provider knows it. -/
def descriptor : IdpDescriptor := { Response.Sample.idp with ssoEndpoints := [endpoint] }

def opts : StartLogin where
  relayState := some "token"
  binding := .httpRedirect
  forceAuthn := false
  isPassive := true
  requestedNameIdFormat := some .transient
  requestedAuthnContext := some ⟨[.previousSession], .minimum⟩
  acsIndex := none
  acsUrl := none
  responseBinding := none

def ambient : Ambient := ⟨some ⟨List.replicate 16 9, by decide⟩, Response.Sample.now⟩

/-- Start the login and read the request before it is on its way. -/
def exchange : Result (StartLoginResult × Str × Document) := do
  let started ← sp.startLogin Transparent.primitives Scanning.reader Redirect.Transparent.storedWeb
    descriptor opts ambient
  let element ← buildAuthnRequestElement (sp.authnRequest endpoint.url started.tracker.requestId
    started.tracker.acsEndpoint.binding opts ambient.now)
  let doc ← Document.new element
  let text ← emitDocument doc
  let document ← Scanning.parseText text
  if '\r' ∈ text ∨ MAX_INFLATED_BYTES < (Text.asBytes text).length ∨
      (started.dispatch.body .request).isNone = true then .error .inflate
  else .ok (started, text, document)

set_option maxRecDepth 20000 in
theorem exchange_isOk : exchange.isOk = true := by decide +kernel

theorem quiet_destination : Quiet destination := by
  constructor <;> decide

/-- What an identity provider is called with. -/
def input (body : Octets) : ConsumeAuthnRequestWire where
  sp := peer
  peerCryptoPolicy := none
  maxAuthnRequestAge := none
  wireBody := body
  binding := .httpRedirect
  relayState := none
  expectedDestination := endpoint.url
  now := Response.Sample.now
  clockSkew := .ofSecs 60 Duration.minute_lt

/-- The identity provider is called with a query that can be read. -/
theorem exchange_decodes : ∃ started body decoded doc,
    sp.startLogin Transparent.primitives Scanning.reader Redirect.Transparent.storedWeb
      descriptor opts ambient = .ok started ∧
    started.dispatch.body .request = some body ∧
    decodeWire Redirect.Transparent.storedWeb body .httpRedirect .request = .ok decoded ∧
    Document.parse Scanning.reader decoded.xml = .ok doc := by
  obtain ⟨⟨started, text, document⟩, h⟩ := exists_of_isOk exchange_isOk
  obtain ⟨result, hstart, h⟩ := bind_eq_ok_iff.mp h
  obtain ⟨element, helement, h⟩ := bind_eq_ok_iff.mp h
  obtain ⟨doc, hdoc, h⟩ := bind_eq_ok_iff.mp h
  obtain ⟨emitted, hemitted, h⟩ := bind_eq_ok_iff.mp h
  obtain ⟨read, hread, h⟩ := bind_eq_ok_iff.mp h
  obtain ⟨hlegs, h⟩ := ite_error_eq_ok_iff.mp h
  obtain rfl := (Prod.mk.inj (Except.ok.inj h)).1
  simp only [not_or, not_lt] at hlegs
  obtain ⟨hreturn, fits, hbrought⟩ := hlegs
  obtain ⟨body, hbody⟩ := Option.ne_none_iff_exists'.mp (mt Option.isNone_iff_eq_none.mpr hbrought)
  obtain ⟨found, url, xml, hfound, hurl, -, -, hxml, hdispatch, -⟩ :=
    ServiceProvider.startLogin_ok hstart
  obtain rfl := Option.some.inj hfound
  obtain rfl : destination = url := Option.some.inj hurl
  obtain ⟨same, hsame, hxml⟩ := bind_eq_ok_iff.mp hxml
  obtain rfl := Except.ok.inj (helement.symm.trans hsame)
  have hwritten : serializeElement element = .ok (Text.asBytes emitted) :=
    bind_eq_ok_iff.mpr ⟨doc, hdoc, bind_eq_ok_iff.mpr ⟨emitted, hemitted, rfl⟩⟩
  obtain rfl := Except.ok.inj (hwritten.symm.trans hxml)
  obtain ⟨sent, hto, hencoded⟩ := ServiceProvider.redirectDispatch_ok hdispatch
  rw [hto] at hbody
  obtain ⟨query, hquery, rfl⟩ := Option.map_eq_some_iff.mp hbody
  obtain ⟨decoded, hdecoded, hsame⟩ := decodes_of_encode Redirect.Transparent.inflates
    Redirect.Transparent.keepsQuery hurl quiet_destination hencoded hquery fits
  refine ⟨result, _, _, read, hstart, hto ▸ hbody, decodeWire_asBytes hdecoded, ?_⟩
  have hparsed := (Scanning.parse_asBytes hreturn).trans hread
  rw [← hsame] at hparsed
  exact hparsed

theorem allowed_signOptions : PolicyAllows .strongDefaults (sp.signOptions Response.Sample.key) :=
  ⟨by decide, by decide, by decide⟩

theorem awaits_input (body : Octets) :
    idp.Awaits Transparent.primitives sp (input body) endpoint where
  describes := ⟨rfl, rfl⟩
  destination := rfl
  registered := List.mem_singleton.mpr rfl
  required _ := rfl
  trusts o ho := by
    obtain rfl := Option.some.inj ho
    exact ⟨⟨Response.Sample.cert, List.mem_singleton.mpr rfl, rfl⟩, allowed_signOptions⟩

theorem dated_now : ambient.now.Dated := by
  unfold SystemTime.Dated
  decide

theorem prompt_input (body : Octets) : idp.Prompt (input body) ambient.now := by
  have hbegun : ambient.now.millis.nanos ≤ ambient.now.nanos + MINUTE.nanos := by decide
  have hfresh : ambient.now.nanos - ambient.now.millis.nanos ≤
      min (idp.config.maxAuthnRequestAge.nanos + MINUTE.nanos) (2 ^ 64 * NANOS - 1) := by decide
  exact ⟨hbegun, hfresh⟩

end SampleLogin

/-- A login is started with a signed redirect and its request accepted. -/
theorem started_login_accepted_sample : ∃ started body parsed,
    SampleLogin.sp.startLogin Transparent.primitives Scanning.reader Redirect.Transparent.storedWeb
      SampleLogin.descriptor SampleLogin.opts SampleLogin.ambient = .ok started ∧
    started.dispatch.body .request = some body ∧
    SampleLogin.idp.consumeAuthnRequestWire Transparent.primitives Scanning.reader
      Redirect.Transparent.storedWeb (SampleLogin.input body) = .ok parsed ∧
    parsed.id = started.tracker.requestId ∧ parsed.isPassive = true ∧
    parsed.relayState = some ("token" : Str) := by
  obtain ⟨started, body, decoded, doc, hstart, hbody, hdecoded, hdoc⟩ :=
    SampleLogin.exchange_decodes
  have hendpoint : SampleLogin.descriptor.ssoEndpoint SampleLogin.opts.binding =
      some SampleLogin.endpoint := rfl
  have haccepted := started_login_accepted Transparent.signsCorrectly Scanning.lawful
    Redirect.Transparent.inflates Redirect.Transparent.keepsQuery hstart
    SampleLogin.dated_now hendpoint
    (fun url hurl => Option.some.inj hurl ▸ SampleLogin.quiet_destination) hbody rfl
    (.inr ⟨rfl, rfl⟩) hdecoded hdoc (SampleLogin.awaits_input body) (SampleLogin.prompt_input body)
  exact ⟨started, body, _, hstart, hbody, haccepted, rfl, rfl, rfl⟩

end Saml
