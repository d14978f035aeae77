import Saml.Dsig.Sign
import Saml.Response.Validate
import Saml.Xml.Reader
import Saml.Xmlenc.Encrypt

/-!
# Issuing responses

`response::issue`: the identity provider builds an assertion, signs it,
encrypts it, wraps it in a response, signs that, and hands it to a binding.
-/

namespace Saml.Response

open Xml Crypto Dsig Xmlenc Time

/-- An unqualified attribute name. -/
def plain (loc : Str) : QName := ⟨none, loc⟩

/-- An element of the assertion namespace. -/
def saml (loc : Str) : Element := ElementOf.build (Schema.saml loc)

/-- An element of the protocol namespace. -/
def samlp (loc : Str) : Element := ElementOf.build (Schema.samlp loc)

/-- Add an attribute when it has a value. -/
def withOptionalAttribute (e : Element) (loc : Str) (value : Option Str) : Element :=
  match value with
  | some v => e.withAttribute (plain loc) v
  | none => e

/-- Add child elements in order. -/
def withElements (e : Element) (children : List Element) : Element :=
  { e with children := e.children ++ children.map .element }

/-- The input of `issue_response`. -/
structure IssueResponseInputs where
  sp : SpDescriptor
  idpEntityId : Str
  inResponseTo : Option Str
  nameId : NameId
  attributes : List SamlAttribute
  authnInstant : SystemTime
  sessionIndex : Str
  sessionNotOnOrAfter : Option SystemTime
  authnContextClassRef : AuthnContextClassRef
  forceEncryptAssertion : Option Bool
  encryptAssertionsWhenPossible : Bool
  now : SystemTime
  assertionLifetime : Duration
  subjectConfirmationLifetime : Duration
  signingKey : KeyPair
  signResponses : Bool
  signAssertions : Bool
  outboundSignatureAlgorithm : SignatureAlgorithm
  outboundDigestAlgorithm : DigestAlgorithm
  outboundC14n : C14nAlgorithm
  outboundDataEncryptionAlgorithm : DataEncryptionAlgorithm
  outboundKeyTransportAlgorithm : KeyTransportAlgorithm
  acsEndpoint : SsoResponseEndpoint
  artifactResolutionService : Option Endpoint
  relayState : Option Str
  holderOfKeyCert : Option X509Certificate

/-- The random draws of one issuance. -/
structure IssueDraws where
  responseId : Draw 16
  assertionId : Draw 16
  encryption : EncryptionDraws
  artifactHandle : Draw 20

/-- The formatted instants of an assertion. -/
structure IssuanceInstants where
  now : Str
  conditionsNotBefore : Str
  conditionsNotOnOrAfter : Str
  subjectConfirmationNotOnOrAfter : Str
  authnInstant : Str
  sessionNotOnOrAfter : Option Str

/-- One minute. -/
def MINUTE : Duration := .ofSecs 60 Duration.minute_lt

/-- `issuance_instants`. -/
def issuanceInstants (now : SystemTime) (assertionLifetime subjectConfirmationLifetime : Duration)
    (authnInstant : SystemTime) (sessionNotOnOrAfter : Option SystemTime) :
    Result IssuanceInstants := do
  let notBefore ← okOr (now.checkedSub MINUTE)
    (.invalidConfiguration "now - 1min underflows SystemTime")
  let conditionsNoa ← okOr (now.checkedAdd assertionLifetime)
    (.invalidConfiguration "now + assertion_lifetime overflows SystemTime")
  let scdNoa ← okOr (now.checkedAdd subjectConfirmationLifetime)
    (.invalidConfiguration "now + subject_confirmation_lifetime overflows SystemTime")
  let now ← formatXsDatetime now
  let conditionsNotBefore ← formatXsDatetime notBefore
  let conditionsNotOnOrAfter ← formatXsDatetime conditionsNoa
  let subjectConfirmationNotOnOrAfter ← formatXsDatetime scdNoa
  let authnInstant ← formatXsDatetime authnInstant
  let sessionNotOnOrAfter ← mapTranspose formatXsDatetime sessionNotOnOrAfter
  .ok {
    now := now
    conditionsNotBefore := conditionsNotBefore
    conditionsNotOnOrAfter := conditionsNotOnOrAfter
    subjectConfirmationNotOnOrAfter := subjectConfirmationNotOnOrAfter
    authnInstant := authnInstant
    sessionNotOnOrAfter := sessionNotOnOrAfter }

/-- `ensure_name_id_sp_qualifier`. -/
def ensureNameIdSpQualifier (nameId : NameId) (spEntityId : Str) : Result Unit :=
  match nameId.format, nameId.spNameQualifier with
  | .persistent, some qualifier =>
      if qualifier ≠ spEntityId then .error (.nameIdSpQualifierMismatch spEntityId qualifier)
      else .ok ()
  | _, _ => .ok ()

/-- The qualifier written for a name identifier: a persistent one always has
one. -/
def issuedSpNameQualifier (nameId : NameId) (spEntityId : Str) : Option Str :=
  match nameId.spNameQualifier with
  | some qualifier => some qualifier
  | none => if nameId.format = .persistent then some spEntityId else none

/-! ## Element builders -/

/-- The `saml:Issuer` of a message. -/
def issuerElement (idpEntityId : Str) : Element := (saml "Issuer").withText idpEntityId

/-- The `saml:NameID` of an assertion. -/
def nameIdElement (nameId : NameId) (spEntityId : Str) : Element :=
  let e := ((saml "NameID").withAttribute (plain "Format") nameId.format.asUri).withText
    nameId.value
  let e := withOptionalAttribute e "NameQualifier" nameId.nameQualifier
  let e := withOptionalAttribute e "SPNameQualifier" (issuedSpNameQualifier nameId spEntityId)
  withOptionalAttribute e "SPProvidedID" nameId.spProvidedId

/-- `build_hok_key_info`: the declaration travels with the subtree. -/
def buildHokKeyInfo (cert : X509Certificate) : Element := buildX509KeyInfo cert true

/-- The `saml:SubjectConfirmation`: Holder-of-Key around a certificate, bearer
without one. -/
def subjectConfirmationElement (acsUrl : Str) (inResponseTo : Option Str)
    (holderOfKeyCert : Option X509Certificate) (instants : IssuanceInstants) : Element :=
  let data := ((saml "SubjectConfirmationData").withAttribute (plain "Recipient")
    acsUrl).withAttribute (plain "NotOnOrAfter") instants.subjectConfirmationNotOnOrAfter
  let data := withOptionalAttribute data "InResponseTo" inResponseTo
  let data := withElements data (holderOfKeyCert.map buildHokKeyInfo).toList
  let method :=
    if holderOfKeyCert.isSome then SUBJECT_CONFIRMATION_HOLDER_OF_KEY
    else SUBJECT_CONFIRMATION_BEARER
  withElements ((saml "SubjectConfirmation").withAttribute (plain "Method") method) [data]

/-- The `saml:Conditions` with the single audience. -/
def conditionsElement (spEntityId : Str) (instants : IssuanceInstants) : Element :=
  let restriction := withElements (saml "AudienceRestriction")
    [(saml "Audience").withText spEntityId]
  withElements (((saml "Conditions").withAttribute (plain "NotBefore")
    instants.conditionsNotBefore).withAttribute (plain "NotOnOrAfter")
    instants.conditionsNotOnOrAfter) [restriction]

/-- The `saml:AuthnStatement`. -/
def authnStatementElement (sessionIndex : Str) (classRef : AuthnContextClassRef)
    (instants : IssuanceInstants) : Element :=
  let context := withElements (saml "AuthnContext")
    [(saml "AuthnContextClassRef").withText classRef.asUri]
  let statement := ((saml "AuthnStatement").withAttribute (plain "AuthnInstant")
    instants.authnInstant).withAttribute (plain "SessionIndex") sessionIndex
  withElements (withOptionalAttribute statement "SessionNotOnOrAfter"
    instants.sessionNotOnOrAfter) [context]

/-- `build_attribute`. -/
def buildAttribute (attr : SamlAttribute) : Element :=
  let e := (saml "Attribute").withAttribute (plain "Name") attr.name
  let e := withOptionalAttribute e "NameFormat" attr.nameFormat
  let e := withOptionalAttribute e "FriendlyName" attr.friendlyName
  withElements e (attr.values.map fun value => (saml "AttributeValue").withText value)

/-- The `saml:AttributeStatement`, absent without attributes. -/
def attributeStatementElements (attributes : List SamlAttribute) : List Element :=
  if attributes.isEmpty then []
  else [withElements (saml "AttributeStatement") (attributes.map buildAttribute)]

/-- `build_assertion`. -/
def buildAssertion (assertionId : Str) (input : IssueResponseInputs)
    (instants : IssuanceInstants) : Element :=
  let spEntityId := input.sp.entityId
  let subject := withElements (saml "Subject")
    [nameIdElement input.nameId spEntityId,
      subjectConfirmationElement input.acsEndpoint.url input.inResponseTo input.holderOfKeyCert
        instants]
  let e := ((((saml "Assertion").withNamespace (some "saml") SAML_NS).withAttribute (plain "ID")
    assertionId).withAttribute (plain "Version") "2.0").withAttribute (plain "IssueInstant")
    instants.now
  withElements e
    ([issuerElement input.idpEntityId, subject, conditionsElement spEntityId instants,
      authnStatementElement input.sessionIndex input.authnContextClassRef instants] ++
      attributeStatementElements input.attributes)

/-- The status of a response. -/
structure Status where
  codeUri : Str
  secondLevel : Option Str
  message : Option Str

/-- `Status::success`. -/
def Status.success : Status := ⟨STATUS_SUCCESS, none, none⟩

/-- The `samlp:Status`. -/
def statusElement (status : Status) : Element :=
  let code (value : Str) := (samlp "StatusCode").withAttribute (plain "Value") value
  let statusCode := withElements (code status.codeUri) (status.secondLevel.map code).toList
  withElements (samlp "Status")
    (statusCode :: (status.message.map fun m => (samlp "StatusMessage").withText m).toList)

/-- `build_response`. -/
def buildResponse (responseId idpEntityId destination : Str) (inResponseTo : Option Str)
    (issueInstant : Str) (status : Status) (assertionOrEncrypted : Option Element) : Element :=
  let e := ((samlp "Response").withNamespace (some "samlp") SAMLP_NS).withNamespace (some "saml")
    SAML_NS
  let e := (((e.withAttribute (plain "ID") responseId).withAttribute (plain "Version")
    "2.0").withAttribute (plain "IssueInstant") issueInstant).withAttribute (plain "Destination")
    destination
  withElements (withOptionalAttribute e "InResponseTo" inResponseTo)
    ([issuerElement idpEntityId, statusElement status] ++ assertionOrEncrypted.toList)

/-! ## Issuance -/

variable (crypto : Primitives)

/-- The signing options of a message. -/
def IssueResponseInputs.signOptions (input : IssueResponseInputs) : SignOptions where
  signingKey := input.signingKey
  sigAlg := input.outboundSignatureAlgorithm
  digestAlg := input.outboundDigestAlgorithm
  c14nAlg := input.outboundC14n
  inclusiveNamespaces := []
  includeX509Cert := true

/-- `maybe_sign`. -/
def maybeSign (element : Element) (shouldSign : Bool) (opts : SignOptions) : Result Element :=
  if !shouldSign then .ok element
  else do
    let stash ← Document.new element
    signElement crypto stash.root opts

/-- Whether the assertion is encrypted. -/
def IssueResponseInputs.shouldEncrypt (input : IssueResponseInputs) : Bool :=
  input.forceEncryptAssertion.getD
    (input.encryptAssertionsWhenPossible && (input.sp.encryptionCert crypto).isSome)

/-- Encrypt the assertion when it has to be. -/
def maybeEncrypt (input : IssueResponseInputs) (draws : EncryptionDraws) (assertion : Element) :
    Result Element :=
  if !input.shouldEncrypt crypto then .ok assertion
  else do
    let cert ← okOr (input.sp.encryptionCert crypto) (.invalidConfiguration
      "encryption requested but SP has no encryption_cert in metadata")
    encryptAssertion crypto assertion cert input.outboundDataEncryptionAlgorithm
      input.outboundKeyTransportAlgorithm draws

/-- `issue_response` up to the binding: the text of the response. -/
def issuedXml (input : IssueResponseInputs) (draws : IssueDraws) : Result Str := do
  ensureNameIdSpQualifier input.nameId input.sp.entityId
  let responseId ← randomXmlId draws.responseId
  let assertionId ← randomXmlId draws.assertionId
  let instants ← issuanceInstants input.now input.assertionLifetime
    input.subjectConfirmationLifetime input.authnInstant input.sessionNotOnOrAfter
  let assertion ← maybeSign crypto (buildAssertion assertionId input instants)
    input.signAssertions input.signOptions
  let wrapped ← maybeEncrypt crypto input draws.encryption assertion
  let response ← maybeSign crypto (buildResponse responseId input.idpEntityId
    input.acsEndpoint.url input.inResponseTo instants.now .success (some wrapped))
    input.signResponses input.signOptions
  let doc ← Document.new response
  emitDocument doc

/-- `dispatch_binding`. -/
def dispatchBinding (web : Web) (input : IssueResponseInputs) (xml : Str) (handle : Draw 20) :
    Result SsoResponseDispatch :=
  let parseUrl := okOr (web.parseUrl input.acsEndpoint.url)
    (.invalidConfiguration "ACS endpoint URL is not a valid URL")
  match input.acsEndpoint.binding with
  | .httpPost => do
      let url ← parseUrl
      .ok (encodeSsoResponse url xml input.relayState)
  | .httpArtifact => do
      let ars ← okOr input.artifactResolutionService (.unsupportedByPeer .httpArtifact)
      let url ← parseUrl
      let index ← okOr ars.index (.invalidConfiguration
        "ArtifactResolutionService endpoint is missing its required index")
      buildArtifactRedirect web url input.idpEntityId index xml input.relayState handle

/-- `issue_response`. -/
def issueResponse (web : Web) (input : IssueResponseInputs) (draws : IssueDraws) :
    Result SsoResponseDispatch := do
  let xml ← issuedXml crypto input draws
  dispatchBinding web input xml draws.artifactHandle

/-- The peer ends up with the octets of the issued text. -/
theorem issueResponse_responseXml {web : Web} {input : IssueResponseInputs} {draws : IssueDraws}
    {dispatch : SsoResponseDispatch} (h : issueResponse crypto web input draws = .ok dispatch) :
    ∃ xml, issuedXml crypto input draws = .ok xml ∧
      dispatch.responseXml = some (Text.asBytes xml) := by
  obtain ⟨xml, hxml, h⟩ := bind_eq_ok_iff.mp h
  refine ⟨xml, hxml, ?_⟩
  unfold dispatchBinding at h
  split at h
  · obtain ⟨url, _, h⟩ := bind_eq_ok_iff.mp h
    obtain rfl := Except.ok.inj h
    simp [encodeSsoResponse, SsoResponseDispatch.responseXml, base64Decode, base64Encode,
      Library.Base64.decode_encode, Except.toOption]
  · obtain ⟨ars, _, h⟩ := bind_eq_ok_iff.mp h
    obtain ⟨url, _, h⟩ := bind_eq_ok_iff.mp h
    obtain ⟨index, _, h⟩ := bind_eq_ok_iff.mp h
    obtain ⟨artifact, _, h⟩ := bind_eq_ok_iff.mp h
    obtain rfl := Except.ok.inj h
    rfl

/-! ## A sample exchange -/

namespace Sample

/-- The certificate of both parties. -/
def cert : X509Certificate := ⟨[7], [7], ⟨.rsa, [7]⟩⟩

/-- The key of both parties. -/
def key : KeyPair := ⟨.rsa, [7], some cert⟩

/-- An instant. -/
def now : SystemTime := ⟨1700000000 * NANOS, by decide⟩

/-- The identity provider, as its peer knows it. -/
def idp : IdpDescriptor where
  entityId := "idp"
  ssoEndpoints := []
  sloEndpoints := []
  artifactResolutionEndpoints := []
  signingCerts := [cert]
  encryptionCerts := []
  supportedNameIdFormats := []
  wantAuthnRequestsSigned := false
  validUntil := none
  cacheDuration := none

/-- The service provider, as its peer knows it. -/
def sp : SpDescriptor where
  entityId := "sp"
  assertionConsumerServices := [⟨"acs", .httpPost, some 0, true⟩]
  singleLogoutServices := []
  signingCerts := [cert]
  encryptionCerts := [cert]
  supportedNameIdFormats := []
  wantAssertionsSigned := true
  authnRequestsSigned := false
  validUntil := none
  cacheDuration := none

theorem length_ones : (List.replicate 16 (1 : UInt8)).length = 16 := by decide

/-- The draws behind an assertion whose identifier repeats one octet. -/
def draws (octet : UInt8) : IssueDraws where
  responseId := some ⟨List.replicate 16 1, length_ones⟩
  assertionId := some ⟨List.replicate 16 octet, by simp⟩
  encryption := ⟨fun n => some ⟨List.replicate n 2, by simp⟩,
    fun n => some ⟨List.replicate n 3, by simp⟩, []⟩
  artifactHandle := none

/-- What the identity provider issues: a signed assertion for one subject. -/
def issuance : IssueResponseInputs where
  sp := sp
  idpEntityId := "idp"
  inResponseTo := some "request"
  nameId := ⟨"alice", .transient, none, none, none⟩
  attributes := []
  authnInstant := now
  sessionIndex := "session"
  sessionNotOnOrAfter := none
  authnContextClassRef := .password
  forceEncryptAssertion := some false
  encryptAssertionsWhenPossible := false
  now := now
  assertionLifetime := .ofSecs 300 Duration.fiveMinutes_lt
  subjectConfirmationLifetime := .ofSecs 300 Duration.fiveMinutes_lt
  signingKey := key
  signResponses := false
  signAssertions := true
  outboundSignatureAlgorithm := .rsaSha256
  outboundDigestAlgorithm := .sha256
  outboundC14n := .exclusiveCanonical
  outboundDataEncryptionAlgorithm := .aes256Gcm
  outboundKeyTransportAlgorithm := .rsaOaep
  acsEndpoint := ⟨"acs", .httpPost, some 0, true⟩
  artifactResolutionService := none
  relayState := none
  holderOfKeyCert := none

/-- What the service provider validates. -/
def request (document : Document) (parsed : ParsedResponse) : ValidateResponse where
  document := document
  parsed := parsed
  idp := idp
  peerCryptoPolicy := .strongDefaults
  decryptionKeys := []
  spEntityId := "sp"
  expectedDestination := "acs"
  trackerRequestId := some "request"
  allowUnsolicited := false
  wantResponseSigned := false
  wantAssertionsSigned := true
  now := now
  clockSkew := .ofSecs 60 Duration.minute_lt
  requestedAuthnContext := none
  holderOfKeyCert := none

/-- Issue, parse and validate; the issued text, the input and the identity. -/
def exchange : Result (Str × ValidateResponse × Identity) := do
  let text ← issuedXml Transparent.primitives issuance (draws 4)
  let document ← Scanning.parseText text
  let (parsed, _) ← parseResponse document
  let identity ← validateResponse Transparent.primitives Scanning.reader (request document parsed)
  if '\r' ∈ text then .error .inflate else .ok (text, request document parsed, identity)

set_option maxRecDepth 20000 in
theorem exchange_isOk : exchange.isOk = true := by decide +kernel

/-- The steps of a successful exchange. -/
theorem exchange_ok {text : Str} {input : ValidateResponse} {identity : Identity}
    (h : exchange = .ok (text, input, identity)) :
    Document.parse Scanning.reader (Text.asBytes text) = .ok input.document ∧
      (∃ rootId, parseResponse input.document = .ok (input.parsed, rootId)) ∧
      validateResponse Transparent.primitives Scanning.reader input = .ok identity := by
  obtain ⟨text, _, h⟩ := bind_eq_ok_iff.mp h
  obtain ⟨document, hdocument, h⟩ := bind_eq_ok_iff.mp h
  obtain ⟨⟨parsed, rootId⟩, hparsed, h⟩ := bind_eq_ok_iff.mp h
  obtain ⟨extracted, hextracted, h⟩ := bind_eq_ok_iff.mp h
  obtain ⟨hreturn, h⟩ := ite_error_eq_ok_iff.mp h
  obtain ⟨rfl, rest⟩ := Prod.mk.inj (Except.ok.inj h)
  obtain ⟨rfl, rfl⟩ := Prod.mk.inj rest
  rw [Scanning.parse_asBytes hreturn]
  exact ⟨hdocument, ⟨rootId, hparsed⟩, hextracted⟩

end Sample

end Saml.Response
