import Saml.Response.Issue
import Saml.Replay.Cache

/-!
# Service provider

The consumption of a response in `sp`: correlation with the tracked login,
validation against the pinned roots, the name identifier policy, and the offer
of the assertion to the replay cache.
-/

namespace Saml

open Xml Crypto Dsig Response Replay

/-- `replay::ReplayMode`: the assertions submitted to the cache. -/
inductive ReplayMode where
  | all
  | oneTimeUseOnly
  | off
deriving DecidableEq, Repr

/-- Signatures a service provider insists on. -/
structure SpWantSigned where
  response : Bool
  assertions : Bool

/-- Outbound logout messages a service provider signs. -/
structure SpLogoutSigning where
  signRequests : Bool
  signResponses : Bool

/-- Inbound logout messages that have to be signed. -/
structure SpLogoutWantSigned where
  requests : Bool
  responses : Bool

/-- The configuration of a service provider. -/
structure ServiceProviderConfig where
  entityId : Str
  acs : List SsoResponseEndpoint
  slo : List Endpoint
  nameIdFormats : List NameIdFormat
  signingKey : Option KeyPair
  decryptionKey : Option KeyPair
  signAuthnRequests : Bool
  wantSigned : SpWantSigned
  allowUnsolicited : Bool
  logoutSigning : SpLogoutSigning
  logoutWantSigned : SpLogoutWantSigned
  defaultPeerCryptoPolicy : PeerCryptoPolicy
  outboundSignatureAlgorithm : SignatureAlgorithm
  outboundDigestAlgorithm : DigestAlgorithm

/-- What `ServiceProvider::new` checks. -/
structure ServiceProviderConfig.Valid (config : ServiceProviderConfig) : Prop where
  entityId : ValidEntityId config.entityId
  acs : config.acs ≠ []
  signingKey : (config.signAuthnRequests || config.logoutSigning.signRequests ||
    config.logoutSigning.signResponses) = true → config.signingKey.isSome = true

/-- A service provider: a configuration that `new` accepted. -/
structure ServiceProvider where
  config : ServiceProviderConfig
  valid : config.Valid

/-- What a started login expects of its response. -/
structure LoginTracker where
  requestId : Str
  issuedAt : SystemTime
  idpEntityId : Str
  acsEndpoint : SsoResponseEndpoint
  requestedAuthnContext : Option RequestedAuthnContext
  requestedNameIdFormat : Option NameIdFormat
  idpSigningCertFingerprints : List Octets
  idpArtifactResolutionServices : List Endpoint

/-- The input of `consume_response`; the shared cache is passed beside it. -/
structure ConsumeResponse where
  idp : IdpDescriptor
  peerCryptoPolicy : Option PeerCryptoPolicy
  samlResponse : Octets
  binding : SsoResponseBinding
  tracker : Option LoginTracker
  expectedDestination : Str
  now : SystemTime
  clockSkew : Duration
  replayMode : ReplayMode
  holderOfKeyCert : Option X509Certificate

/-- `replay_expires_at`: the last moment the assertion could still validate. -/
def replayExpiresAt (notOnOrAfter : SystemTime) (clockSkew : Duration) : Result SystemTime :=
  okOr (notOnOrAfter.checkedAdd clockSkew)
    (.xmlParse "Conditions NotOnOrAfter + clock_skew overflows SystemTime")

/-- `replay_check_needed`. -/
def replayCheckNeeded (mode : ReplayMode) (isOneTimeUse : Bool) : Bool :=
  match mode with
  | .all => true
  | .oneTimeUseOnly => isOneTimeUse
  | .off => false

variable (crypto : Primitives) (qx : QuickXml)

namespace ServiceProvider

variable (sp : ServiceProvider)

/-- The tracker legs of `validate_tracker_context`. -/
def validateTracker (tracker : LoginTracker) (input : ConsumeResponse) : Result Unit :=
  if tracker.idpEntityId ≠ input.idp.entityId then
    .error (.issuerMismatch tracker.idpEntityId (some input.idp.entityId))
  else if tracker.acsEndpoint.url ≠ input.expectedDestination then .error .destinationMismatch
  else if tracker.acsEndpoint.binding ≠ input.binding then
    .error (.responseBindingMismatch tracker.acsEndpoint.binding.asBinding
      input.binding.asBinding)
  else if !input.idp.signingCerts.any (fun cert =>
      tracker.idpSigningCertFingerprints.contains (cert.fingerprintSha256 crypto)) then
    .error .idpTrustRootMismatch
  else .ok ()

/-- `validate_tracker_context`. -/
def validateTrackerContext (input : ConsumeResponse) : Result Unit :=
  if !sp.config.acs.any (·.url = input.expectedDestination) then
    .error (.invalidConfiguration "expected_destination is not a registered ACS URL")
  else
    match input.tracker with
    | none => .ok ()
    | some tracker => validateTracker crypto tracker input

/-- The descriptor a response is validated against: for a solicited response,
only the roots pinned when the login began are left. -/
def validationIdp (input : ConsumeResponse) : IdpDescriptor :=
  match input.tracker with
  | none => input.idp
  | some tracker =>
      { input.idp with
        signingCerts := input.idp.signingCerts.filter fun cert =>
          tracker.idpSigningCertFingerprints.contains (cert.fingerprintSha256 crypto) }

/-- What `validate_response` is handed. -/
def validationInput (input : ConsumeResponse) (document : Document) (parsed : ParsedResponse) :
    ValidateResponse where
  document := document
  parsed := parsed
  idp := validationIdp crypto input
  peerCryptoPolicy := input.peerCryptoPolicy.getD sp.config.defaultPeerCryptoPolicy
  decryptionKeys := sp.config.decryptionKey.toList
  spEntityId := sp.config.entityId
  expectedDestination := input.expectedDestination
  trackerRequestId := input.tracker.map LoginTracker.requestId
  allowUnsolicited := sp.config.allowUnsolicited
  wantResponseSigned := sp.config.wantSigned.response
  wantAssertionsSigned := sp.config.wantSigned.assertions
  now := input.now
  clockSkew := input.clockSkew
  requestedAuthnContext := input.tracker.bind LoginTracker.requestedAuthnContext
  holderOfKeyCert := input.holderOfKeyCert

/-- The format asked for is the format returned. -/
def checkNameIdFormat (requested : Option NameIdFormat) (nameId : NameId) : Result Unit :=
  match requested with
  | none => .ok ()
  | some requested =>
      if nameId.format ≠ requested then .error (.unsupportedNameIdPolicy requested.asUri)
      else .ok ()

/-- A persistent identifier qualified for another provider is refused. -/
def checkSpNameQualifier (nameId : NameId) : Result Unit :=
  match nameId.format, nameId.spNameQualifier with
  | .persistent, some qualifier =>
      if qualifier ≠ sp.config.entityId then
        .error (.nameIdSpQualifierMismatch sp.config.entityId qualifier)
      else .ok ()
  | _, _ => .ok ()

/-- The identity of a parsed document. -/
def identityFrom (input : ConsumeResponse) (document : Document) : Result Identity := do
  let (parsed, _) ← parseResponse document
  let identity ← validateResponse crypto qx (sp.validationInput crypto input document parsed)
  checkNameIdFormat (input.tracker.bind LoginTracker.requestedNameIdFormat) identity.nameId
  sp.checkSpNameQualifier identity.nameId
  .ok identity

/-- The part of a consumption that comes before the cache: a function of the
input alone. -/
def validatedIdentity (input : ConsumeResponse) : Result Identity := do
  sp.validateTrackerContext crypto input
  let document ← Document.parse qx input.samlResponse
  sp.identityFrom crypto qx input document

/-- Reserve the tombstone of an identity, or a transaction's in its place. -/
def reserve (cache : InMemoryReplayCache) (input : ConsumeResponse) (identity : Identity)
    (transactionReplayEntry : Option ReplayEntry) (replayError : Error) :
    InMemoryReplayCache × Result Identity :=
  match replayExpiresAt identity.notOnOrAfter input.clockSkew with
  | .error err => (cache, .error err)
  | .ok expiresAt =>
      let entry := transactionReplayEntry.getD (.assertion identity.assertionId expiresAt)
      match cache.checkAndInsert [entry] input.now with
      | (next, .ok true) => (next, .ok identity)
      | (next, .ok false) => (next, .error replayError)
      | (next, .error err) => (next, .error err)

/-- The replay stage: an identity passes the one-time-use rule and the cache. -/
def enforceReplay (input : ConsumeResponse) (identity : Identity)
    (transactionReplayEntry : Option ReplayEntry) (replayError : Error) :
    Option InMemoryReplayCache → Option InMemoryReplayCache × Result Identity
  | none =>
      if identity.isOneTimeUse then (none, .error .oneTimeUseUnenforceable)
      else (none, .ok identity)
  | some cache =>
      if identity.isOneTimeUse && input.replayMode = .off then
        (some cache, .error .oneTimeUseUnenforceable)
      else if replayCheckNeeded input.replayMode identity.isOneTimeUse ||
          transactionReplayEntry.isSome then
        let (next, result) := reserve cache input identity transactionReplayEntry replayError
        (some next, result)
      else (some cache, .ok identity)

/-- `consume_response_with_replay`: the cache after the call, and its result. -/
def consumeResponseWithReplay (input : ConsumeResponse)
    (transactionReplayEntry : Option ReplayEntry) (replayError : Error)
    (cache : Option InMemoryReplayCache) : Option InMemoryReplayCache × Result Identity :=
  match sp.validatedIdentity crypto qx input with
  | .error err => (cache, .error err)
  | .ok identity => enforceReplay input identity transactionReplayEntry replayError cache

/-- `consume_response`. -/
def consumeResponse (input : ConsumeResponse) (cache : Option InMemoryReplayCache) :
    Option InMemoryReplayCache × Result Identity :=
  sp.consumeResponseWithReplay crypto qx input none .assertionReplay cache

/-- A consumption over a cache in which every assertion is submitted: it fails
before the cache, or it reserves the tombstone of the assertion. -/
theorem consumeResponse_cases {input : ConsumeResponse} (all : input.replayMode = .all)
    (cache : InMemoryReplayCache) :
    (∃ err, sp.validatedIdentity crypto qx input = .error err ∧
      sp.consumeResponse crypto qx input (some cache) = (some cache, .error err)) ∨
    ∃ identity, sp.validatedIdentity crypto qx input = .ok identity ∧
      sp.consumeResponse crypto qx input (some cache) =
        (some (reserve cache input identity none .assertionReplay).1,
          (reserve cache input identity none .assertionReplay).2) := by
  unfold consumeResponse consumeResponseWithReplay
  cases h : sp.validatedIdentity crypto qx input with
  | error err => exact .inl ⟨err, rfl, rfl⟩
  | ok identity =>
      refine .inr ⟨identity, rfl, ?_⟩
      simp [enforceReplay, all, replayCheckNeeded]

variable {crypto qx sp}

theorem reserve_ok {cache next : InMemoryReplayCache} {input : ConsumeResponse}
    {identity result : Identity} {entry : Option ReplayEntry} {replayError : Error}
    (h : reserve cache input identity entry replayError = (next, .ok result)) :
    result = identity := by
  unfold reserve at h
  split at h
  · cases (Prod.mk.inj h).2
  · dsimp only at h
    split at h
    · exact (Except.ok.inj (Prod.mk.inj h).2).symm
    · cases (Prod.mk.inj h).2
    · cases (Prod.mk.inj h).2

theorem enforceReplay_ok {input : ConsumeResponse} {identity result : Identity}
    {entry : Option ReplayEntry} {replayError : Error}
    {cache next : Option InMemoryReplayCache}
    (h : enforceReplay input identity entry replayError cache = (next, .ok result)) :
    result = identity := by
  unfold enforceReplay at h
  split at h
  · split at h
    · cases (Prod.mk.inj h).2
    · exact (Except.ok.inj (Prod.mk.inj h).2).symm
  · split at h
    · cases (Prod.mk.inj h).2
    · split at h
      · obtain ⟨rfl, hresult⟩ := Prod.mk.inj h
        exact reserve_ok (Prod.ext rfl hresult)
      · exact (Except.ok.inj (Prod.mk.inj h).2).symm

/-- An identity that passes the replay stage is the validated one. -/
theorem consumeResponseWithReplay_ok {input : ConsumeResponse} {identity : Identity}
    {entry : Option ReplayEntry} {replayError : Error}
    {cache next : Option InMemoryReplayCache}
    (h : sp.consumeResponseWithReplay crypto qx input entry replayError cache =
      (next, .ok identity)) : sp.validatedIdentity crypto qx input = .ok identity := by
  unfold consumeResponseWithReplay at h
  split at h
  · cases (Prod.mk.inj h).2
  next validated hvalidated =>
    rw [enforceReplay_ok h]
    exact hvalidated

end ServiceProvider

end Saml
