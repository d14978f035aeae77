import Saml.Authn.Request
import Saml.Idp
import Saml.Sp.Login

/-!
# Issuing a response at the identity provider

`idp::issue_response`: the checks against the validated request and the peer,
the name identifier negotiation, and the hand-over to issuance.
-/

namespace Saml

open Xml Crypto Dsig Response Authn

/-- The input of `issue_response` in the identity provider's role. -/
structure IssueResponse where
  sp : SpDescriptor
  inResponseTo : ParsedAuthnRequest
  nameId : NameId
  attributes : List SamlAttribute
  authnInstant : SystemTime
  sessionIndex : Str
  sessionNotOnOrAfter : Option SystemTime
  authnContextClassRef : AuthnContextClassRef
  forceEncryptAssertion : Option Bool
  now : SystemTime
  assertionLifetime : Duration
  subjectConfirmationLifetime : Duration
  holderOfKeyCert : Option X509Certificate

/-- `ensure_request_belongs_to_sp`. -/
def ensureRequestBelongsToSp (request : ParsedAuthnRequest) (sp : SpDescriptor) : Result Unit :=
  if request.validated.spEntityId ≠ sp.entityId then
    .error (.issuerMismatch request.validated.spEntityId (some sp.entityId))
  else .ok ()

/-- `ensure_authn_context_satisfies_request`. -/
def ensureAuthnContextSatisfiesRequest (request : ParsedAuthnRequest)
    (emitted : AuthnContextClassRef) : Result Unit :=
  match request.validated.requestedAuthnContext with
  | none => .ok ()
  | some requested => checkAuthnContext requested emitted.asUri

/-- `pick_name_id_format`. -/
def pickNameIdFormat (requested : Option NameIdFormat) (supported : List NameIdFormat)
    (default : NameIdFormat) : Result NameIdFormat :=
  match requested with
  | some fmt => if fmt ∈ supported then .ok fmt else .error (.unsupportedNameIdPolicy fmt.asUri)
  | none => .ok default

/-- `ensure_name_id_format`. -/
def ensureNameIdFormat (nameId : NameId) (expected : NameIdFormat) : Result Unit :=
  if nameId.format = expected then .ok ()
  else .error (.nameIdFormatMismatch expected.asUri nameId.format.asUri)

variable (crypto : Primitives) (web : Web)

/-- The fingerprints of the peer's encryption keys are those seen with the
request. -/
def matchKeyMaterial (sealed : List Octets) (sp : SpDescriptor) : Result Unit :=
  if certificateFingerprintSet crypto sp.encryptionCerts = fingerprintSet sealed then .ok ()
  else .error .spKeyMaterialMismatch

/-- `ensure_sp_key_material_matches`. -/
def ensureSpKeyMaterialMatches (request : ParsedAuthnRequest) (sp : SpDescriptor) : Result Unit :=
  matchKeyMaterial crypto request.validated.encryptionCertFingerprints sp

namespace IdentityProvider

variable (idp : IdentityProvider)

/-- `resolve_name_id_format`. -/
def resolveNameIdFormat (requested : Option NameIdFormat) : Result NameIdFormat :=
  pickNameIdFormat requested idp.config.supportedNameIdFormats idp.config.defaultNameIdFormat

/-- `artifact_resolution_service_for`. -/
def artifactResolutionServiceFor (responseBinding : SsoResponseBinding) :
    Result (Option Endpoint) :=
  if responseBinding ≠ .httpArtifact then .ok none
  else do
    let services := idp.config.artifactResolution
    let endpoint ← okOr ((services.find? (·.isDefault)).or services.head?)
      (.unsupportedByPeer .httpArtifact)
    if endpoint.binding ≠ .soap then
      .error (.invalidConfiguration "ArtifactResolutionService endpoint must use SOAP binding")
    else if endpoint.index.isNone then
      .error (.invalidConfiguration
        "ArtifactResolutionService endpoint is missing its required index")
    else .ok (some endpoint)

/-- The key material check of an issuance that may encrypt. -/
def checkKeyMaterial (input : IssueResponse) : Result Unit :=
  match input.forceEncryptAssertion with
  | some true => ensureSpKeyMaterialMatches crypto input.inResponseTo input.sp
  | some false => .ok ()
  | none =>
      if idp.config.encryptAssertionsWhenPossible then
        ensureSpKeyMaterialMatches crypto input.inResponseTo input.sp
      else .ok ()

/-- What `response::issue` is handed. -/
def issueInputs (input : IssueResponse) (artifactResolutionService : Option Endpoint) :
    IssueResponseInputs where
  sp := input.sp
  idpEntityId := idp.config.entityId
  inResponseTo := some input.inResponseTo.validated.requestId
  nameId := input.nameId
  attributes := input.attributes
  authnInstant := input.authnInstant
  sessionIndex := input.sessionIndex
  sessionNotOnOrAfter := input.sessionNotOnOrAfter
  authnContextClassRef := input.authnContextClassRef
  forceEncryptAssertion := input.forceEncryptAssertion
  encryptAssertionsWhenPossible := idp.config.encryptAssertionsWhenPossible
  now := input.now
  assertionLifetime := input.assertionLifetime
  subjectConfirmationLifetime := input.subjectConfirmationLifetime
  signingKey := idp.config.signingKey
  signResponses := idp.config.assertionSigning.signResponses
  signAssertions := idp.config.assertionSigning.signAssertions
  outboundSignatureAlgorithm := idp.config.outboundSignatureAlgorithm
  outboundDigestAlgorithm := idp.config.outboundDigestAlgorithm
  outboundC14n := idp.config.outboundC14n
  outboundDataEncryptionAlgorithm := idp.config.outboundDataEncryptionAlgorithm
  outboundKeyTransportAlgorithm := idp.config.outboundKeyTransportAlgorithm
  acsEndpoint := input.inResponseTo.validated.acs
  artifactResolutionService := artifactResolutionService
  relayState := input.inResponseTo.validated.relayState
  holderOfKeyCert := input.holderOfKeyCert

/-- `issue_response_dispatch`. -/
def issueResponseDispatch (input : IssueResponse) (draws : IssueDraws) :
    Result SsoResponseDispatch := do
  ensureRequestBelongsToSp input.inResponseTo input.sp
  idp.checkKeyMaterial crypto input
  ensureAuthnContextSatisfiesRequest input.inResponseTo input.authnContextClassRef
  let service ← idp.artifactResolutionServiceFor input.inResponseTo.validated.acs.binding
  let chosenFormat ← idp.resolveNameIdFormat input.inResponseTo.validated.requestedNameIdFormat
  ensureNameIdFormat input.nameId chosenFormat
  Response.issueResponse crypto web (idp.issueInputs input service) draws

/-- `issue_response`. -/
def issueResponse (input : IssueResponse) (draws : IssueDraws) : Result SsoResponseDispatch :=
  if input.inResponseTo.validated.acs.binding = .httpArtifact then
    .error .artifactTransactionRequired
  else idp.issueResponseDispatch crypto web input draws

variable {crypto web idp}

/-- An issued response comes out of issuance, and its class satisfies what the
request asks for. -/
theorem issueResponse_ok {input : IssueResponse} {draws : IssueDraws}
    {dispatch : SsoResponseDispatch}
    (h : idp.issueResponse crypto web input draws = .ok dispatch) :
    (∃ service, Response.issueResponse crypto web (idp.issueInputs input service) draws =
      .ok dispatch) ∧
      ensureAuthnContextSatisfiesRequest input.inResponseTo input.authnContextClassRef =
        .ok () := by
  obtain ⟨_, h⟩ := ite_error_eq_ok_iff.mp h
  obtain ⟨_, _, h⟩ := bind_eq_ok_iff.mp h
  obtain ⟨_, _, h⟩ := bind_eq_ok_iff.mp h
  obtain ⟨_, hcontext, h⟩ := bind_eq_ok_iff.mp h
  obtain ⟨service, _, h⟩ := bind_eq_ok_iff.mp h
  obtain ⟨_, _, h⟩ := bind_eq_ok_iff.mp h
  obtain ⟨_, _, h⟩ := bind_eq_ok_iff.mp h
  exact ⟨⟨service, h⟩, hcontext⟩

end IdentityProvider

end Saml
