import Saml.Descriptor
import Saml.Response.Parse
import Saml.Xml.Emit

/-!
# Response validation

`response::validate`: from a parsed response to an `Identity`, through the
envelope checks, the signatures, the optional decryption, the time windows, the
audience, the subject confirmation and the authentication context.
-/

namespace Saml.Response

open Xml Crypto Dsig

/-- The identity extracted from a verified assertion. -/
structure Identity where
  nameId : NameId
  sessionIndex : Option Str
  authnInstant : SystemTime
  sessionNotOnOrAfter : Option SystemTime
  subjectConfirmationNotOnOrAfter : SystemTime
  authnContextClassRef : Option Str
  attributes : List SamlAttribute
  assertionId : Str
  notOnOrAfter : SystemTime
  verifyingCertFingerprint : Octets
  isOneTimeUse : Bool
deriving DecidableEq

/-- The input of `validate_response`. -/
structure ValidateResponse where
  document : Document
  parsed : ParsedResponse
  idp : IdpDescriptor
  peerCryptoPolicy : PeerCryptoPolicy
  decryptionKeys : List KeyPair
  spEntityId : Str
  expectedDestination : Str
  trackerRequestId : Option Str
  allowUnsolicited : Bool
  wantResponseSigned : Bool
  wantAssertionsSigned : Bool
  now : SystemTime
  clockSkew : Duration
  requestedAuthnContext : Option RequestedAuthnContext
  holderOfKeyCert : Option X509Certificate

/-! ## Envelope -/

/-- Step 6: the response answers the tracked request, or it is unsolicited and
that is allowed. -/
def checkInResponseTo (tracker inResponseTo : Option Str) (allowUnsolicited : Bool) :
    Result Unit :=
  match tracker, inResponseTo with
  | some tracker, some inResp =>
      if tracker = inResp then .ok () else .error .inResponseToMismatch
  | some _, none => .error .inResponseToMismatch
  | none, none => if allowUnsolicited then .ok () else .error .unsolicitedNotAllowed
  | none, some _ => .error .unsolicitedNotAllowed

/-- Steps 3 to 6: destination, issuer, status and `InResponseTo`. -/
def checkEnvelope (input : ValidateResponse) : Result Unit :=
  if input.parsed.destination.any (· ≠ input.expectedDestination) then
    .error .destinationMismatch
  else if input.parsed.issuer ≠ some input.idp.entityId then
    .error (.issuerMismatch input.idp.entityId input.parsed.issuer)
  else if input.parsed.statusCode ≠ STATUS_SUCCESS then
    .error (.statusNotSuccess input.parsed.statusCode input.parsed.statusMessage)
  else checkInResponseTo input.trackerRequestId input.parsed.inResponseTo input.allowUnsolicited

/-! ## Signature positions -/

/-- The elements a `ds:Signature` may be a direct child of. -/
def signatureAllowedUnder : Option QName → Bool
  | some qname =>
      qname = ⟨some SAMLP_NS, "Response"⟩ || qname = ⟨some SAML_NS, "Assertion"⟩ ||
        qname = ⟨some SAML_NS, "EncryptedAssertion"⟩
  | none => false

mutual

/-- The recursion of `enforce_signature_positions`; it does not descend into a
signature. -/
def walkSignatures (parent : Option QName) : Element → Result Unit
  | ⟨qname, _, _, _, children, _⟩ =>
      if qname = ⟨some DS_NS, "Signature"⟩ then
        if signatureAllowedUnder parent then .ok ()
        else .error (.signatureVerification "ds:Signature in disallowed position")
      else walkSignaturesBelow qname children

/-- The recursion at one child node. -/
def walkSignaturesNode (parent : QName) : Node → Result Unit
  | .element e => walkSignatures (some parent) e
  | .text _ => .ok ()
  | .comment _ => .ok ()

/-- The recursion over the children. -/
def walkSignaturesBelow (parent : QName) : List Node → Result Unit
  | [] => .ok ()
  | child :: rest => do
      walkSignaturesNode parent child
      walkSignaturesBelow parent rest

end

/-- `enforce_signature_positions`. -/
def enforceSignaturePositions (document : Document) : Result Unit :=
  walkSignatures none document.root

/-! ## Signatures -/

variable (crypto : Primitives)

/-- Verify a signature and require that it covers a given element. -/
def verifyCovering (document : Document) (idp : IdpDescriptor) (policy : PeerCryptoPolicy)
    (covered : ElementId) (mismatch : Str) (signature : Element) : Result VerifiedSignature := do
  let verified ← verifySignature crypto document signature idp.signingCerts policy
  if verified.signedElement ≠ covered then .error (.signatureVerification mismatch)
  else .ok verified

/-- The signature of an element, when it has one. -/
def signatureOf (e : Element) : Option Element := e.childElement (some DS_NS) "Signature"

/-- `verify_response_and_or_assertion`: the signature that vouches for the
assertion. -/
def verifyResponseAndOrAssertion (document : Document) (responseRootId assertionId : ElementId)
    (idp : IdpDescriptor) (policy : PeerCryptoPolicy)
    (wantResponseSigned wantAssertionsSigned : Bool) : Result (VerifiedSignature × ElementId) := do
  let responseSignature := signatureOf document.root
  let assertionElem ← okOr (document.element assertionId)
    (.signatureVerification "assertion element id not resolvable")
  let assertionSignature := signatureOf assertionElem
  let verifyResponse := verifyCovering crypto document idp policy responseRootId
    "signature does not cover Response root"
  let verifyAssertion := verifyCovering crypto document idp policy assertionId
    "signature does not cover Assertion"
  if wantResponseSigned then do
    let signature ← okOr responseSignature .signatureMissing
    let verified ← verifyResponse signature
    if wantAssertionsSigned then do
      let signature ← okOr assertionSignature .signatureMissing
      let averified ← verifyAssertion signature
      .ok (averified, assertionId)
    else .ok (verified, assertionId)
  else if wantAssertionsSigned then do
    let signature ← okOr assertionSignature .signatureMissing
    let verified ← verifyAssertion signature
    .ok (verified, assertionId)
  else
    match responseSignature, assertionSignature with
    | some signature, _ => do
        let verified ← verifyResponse signature
        .ok (verified, assertionId)
    | none, some signature => do
        let verified ← verifyAssertion signature
        .ok (verified, assertionId)
    | none, none => .error .signatureMissing

/-- The assertion to extract, the certificate that vouches for it, and the
document it was decrypted into, if any. -/
structure LocatedAssertion where
  certFingerprint : Octets
  element : Element
  decryptedDoc : Option Document

/-- The response signature around an encrypted assertion. -/
def verifyOuterSignature (document : Document) (responseRootId : ElementId) (idp : IdpDescriptor)
    (policy : PeerCryptoPolicy) (wantResponseSigned : Bool) : Result (Option Octets) :=
  match signatureOf document.root with
  | some signature => do
      let verified ← verifyCovering crypto document idp policy responseRootId
        "signature does not cover Response root" signature
      .ok (some verified.verifyingCertFingerprint)
  | none => if wantResponseSigned then .error .signatureMissing else .ok none

/-- `verify_inner`: the signature inside a decrypted assertion. -/
def verifyInner (decryptedDoc : Document) (idp : IdpDescriptor) (policy : PeerCryptoPolicy)
    (signature : Element) : Result LocatedAssertion := do
  let verified ← verifyCovering crypto decryptedDoc idp policy decryptedDoc.root.id
    "signature does not cover Assertion" signature
  let resolved ← okOr (decryptedDoc.element verified.signedElement)
    (.signatureVerification "verified assertion element id not resolvable")
  .ok ⟨verified.verifyingCertFingerprint, resolved, some decryptedDoc⟩

/-- `handle_encrypted`. -/
def handleEncrypted (qx : QuickXml) (document : Document)
    (responseRootId encryptedAssertionId : ElementId) (idp : IdpDescriptor)
    (policy : PeerCryptoPolicy) (decryptionKeys : List KeyPair)
    (wantResponseSigned wantAssertionsSigned : Bool) : Result LocatedAssertion := do
  let responseVerifiedFingerprint ←
    verifyOuterSignature crypto document responseRootId idp policy wantResponseSigned
  let encElem ← okOr (document.element encryptedAssertionId)
    (.decryptFailed "EncryptedAssertion element id not resolvable")
  let cleartextAssertion ←
    Xmlenc.decryptEncryptedAssertion crypto qx encElem decryptionKeys policy
  let decryptedDoc ← Document.new cleartextAssertion
  let innerSignature := signatureOf decryptedDoc.root
  if wantAssertionsSigned then do
    let signature ← okOr innerSignature .signatureMissing
    verifyInner crypto decryptedDoc idp policy signature
  else
    match innerSignature, responseVerifiedFingerprint with
    | some signature, _ => verifyInner crypto decryptedDoc idp policy signature
    | none, some fingerprint => .ok ⟨fingerprint, decryptedDoc.root, some decryptedDoc⟩
    | none, none => .error .signatureMissing

/-- Steps 7, 9 and 10: locate the assertion and verify what vouches for it. -/
def locateAssertion (qx : QuickXml) (input : ValidateResponse) : Result LocatedAssertion := do
  let wrapper ← okOr input.parsed.assertion (.xmlParse "Response contains no Assertion")
  match wrapper with
  | .cleartext assertionId => do
      let (verified, assertionId) ← verifyResponseAndOrAssertion crypto input.document
        input.document.root.id assertionId input.idp input.peerCryptoPolicy
        input.wantResponseSigned input.wantAssertionsSigned
      let assertionElem ← okOr (input.document.element assertionId)
        (.signatureVerification "verified assertion element id not resolvable")
      .ok ⟨verified.verifyingCertFingerprint, assertionElem, none⟩
  | .encrypted encId =>
      handleEncrypted crypto qx input.document input.document.root.id encId input.idp
        input.peerCryptoPolicy input.decryptionKeys input.wantResponseSigned
        input.wantAssertionsSigned

/-! ## Assertion content -/

/-- Step 11: the content of the verified assertion, with an encrypted subject
identifier decrypted. -/
def readAssertion (qx : QuickXml) (input : ValidateResponse) (element : Element) :
    Result ParsedAssertion := do
  let assertion ← parseAssertion crypto element
  let nameId ← decryptSubjectEncryptedId crypto qx element input.decryptionKeys
    input.peerCryptoPolicy
  .ok { assertion with subjectNameId := nameId.getD assertion.subjectNameId }

/-- The far end of the clock tolerance. -/
def nowPlusSkew (input : ValidateResponse) : Result SystemTime :=
  okOr (input.now.checkedAdd input.clockSkew)
    (.xmlParse "now + clock_skew overflows SystemTime")

/-- The near end of the clock tolerance. -/
def nowMinusSkew (input : ValidateResponse) : Result SystemTime :=
  okOr (input.now.checkedSub input.clockSkew)
    (.xmlParse "now - clock_skew underflows SystemTime")

/-- Step 12: the start of the validity window. -/
def checkNotBefore (input : ValidateResponse) (conditions : Conditions) : Result Unit :=
  match conditions.notBefore with
  | none => .ok ()
  | some nb => do
      let nowPlusSkew ← nowPlusSkew input
      if nb > nowPlusSkew then .error .notYetValid else .ok ()

/-- Step 13: the end of the validity window, which has to be there. -/
def checkNotOnOrAfter (input : ValidateResponse) (conditions : Conditions) :
    Result SystemTime := do
  let notOnOrAfter ← okOr conditions.notOnOrAfter (.xmlParse "Conditions missing NotOnOrAfter")
  let nowMinusSkew ← nowMinusSkew input
  if notOnOrAfter ≤ nowMinusSkew then .error .expired else .ok notOnOrAfter

/-- Step 14: there is a restriction and every one admits the service provider. -/
def checkAudience (input : ValidateResponse) (conditions : Conditions) : Result Unit :=
  if conditions.audienceRestrictions.isEmpty ||
      conditions.audienceRestrictions.any (fun restriction =>
        !restriction.any (· = input.spEntityId)) then
    .error .audienceMismatch
  else .ok ()

/-! ## Subject confirmation -/

/-- The key match of a Holder-of-Key confirmation. -/
def checkHolderOfKey (presenter : Option X509Certificate) (sc : SubjectConfirmation) :
    Result Unit :=
  if sc.method ≠ SUBJECT_CONFIRMATION_HOLDER_OF_KEY then .ok ()
  else
    match presenter with
    | none =>
        .error (.holderOfKeyConfirmation
          "Holder-of-Key confirmation requires a presenter certificate")
    | some presenter =>
        if sc.keyInfoCerts.isEmpty then
          .error (.holderOfKeyConfirmation
            "Holder-of-Key SubjectConfirmationData has no usable <ds:KeyInfo> key material")
        else if !sc.keyInfoCerts.any presenter.samePublicKeyAs then
          .error (.holderOfKeyConfirmation
            "presenter certificate key does not match the Holder-of-Key <ds:KeyInfo>")
        else .ok ()

/-- The `InResponseTo` rule of one confirmation. -/
def checkConfirmationInResponseTo (tracker inResponseTo : Option Str) : Result Unit :=
  match tracker, inResponseTo with
  | some tracker, some inResp =>
      if tracker = inResp then .ok () else .error .inResponseToMismatch
  | some _, none => .error .inResponseToMismatch
  | none, none => .ok ()
  | none, some _ => .error .unsolicitedNotAllowed

/-- The loop body: every constraint of one confirmation. -/
def checkConfirmation (input : ValidateResponse) (nowMinusSkew nowPlusSkew : SystemTime)
    (sc : SubjectConfirmation) : Result Unit :=
  if sc.recipient ≠ some input.expectedDestination then .error .recipientMismatch
  else if !sc.notOnOrAfter.any (· > nowMinusSkew) then .error .expired
  else if sc.notBefore.any (· > nowPlusSkew) then .error .notYetValid
  else do
    checkConfirmationInResponseTo input.trackerRequestId sc.inResponseTo
    checkHolderOfKey input.holderOfKeyCert sc

/-- The loop: the first confirmation that passes, or the last error. -/
def firstConfirmed (check : SubjectConfirmation → Result Unit) :
    Option Error → List SubjectConfirmation → Result SubjectConfirmation
  | lastErr, [] => .error (lastErr.getD .recipientMismatch)
  | _, sc :: rest =>
      match check sc with
      | .ok () => .ok sc
      | .error err => firstConfirmed check (some err) rest

/-- Whether a confirmation is a bearer one. -/
def isBearer (sc : SubjectConfirmation) : Bool := sc.method = SUBJECT_CONFIRMATION_BEARER

/-- The confirmations in the order they are tried: the bearer ones, then the
Holder-of-Key ones when a presenter certificate is there (a stable sort). -/
def confirmationCandidates (input : ValidateResponse) (assertion : ParsedAssertion) :
    List SubjectConfirmation :=
  let usable := assertion.subjectConfirmations.filter fun sc =>
    isBearer sc || (input.holderOfKeyCert.isSome && sc.method = SUBJECT_CONFIRMATION_HOLDER_OF_KEY)
  usable.filter isBearer ++ usable.filter fun sc => !isBearer sc

/-- `find_valid_subject_confirmation`. -/
def findValidSubjectConfirmation (input : ValidateResponse) (assertion : ParsedAssertion) :
    Result SubjectConfirmation :=
  let candidates := confirmationCandidates input assertion
  if candidates.isEmpty then
    if assertion.subjectConfirmations.any (fun sc =>
          sc.method = SUBJECT_CONFIRMATION_HOLDER_OF_KEY) && input.holderOfKeyCert.isNone then
      .error (.holderOfKeyConfirmation
        "assertion offers only Holder-of-Key but no presenter certificate was configured")
    else .error (.signatureVerification "no bearer SubjectConfirmation")
  else do
    let nowMinusSkew ← nowMinusSkew input
    let nowPlusSkew ← nowPlusSkew input
    firstConfirmed (checkConfirmation input nowMinusSkew nowPlusSkew) none candidates

/-! ## Authentication context and identity -/

/-- `check_authn_context`. -/
def checkAuthnContext (requested : RequestedAuthnContext) (actualUri : Str) : Result Unit :=
  match StandardComparator.evaluate requested actualUri with
  | .satisfied => .ok ()
  | .notSatisfied | .notComparable => .error .authnContextDowngrade

/-- Step 17: the first statement satisfies the requested context, if any. -/
def checkRequestedContext (input : ValidateResponse) (assertion : ParsedAssertion) :
    Result Unit :=
  match input.requestedAuthnContext with
  | none => .ok ()
  | some requested => do
      let first ← okOr assertion.authnStatements.head? .authnContextDowngrade
      let actualUri ← okOr first.authnContextClassRef .authnContextDowngrade
      checkAuthnContext requested actualUri

/-- The session end of the statement the identity is taken from. -/
def checkSessionEnd (input : ValidateResponse) (sessionNotOnOrAfter : Option SystemTime) :
    Result Unit :=
  if sessionNotOnOrAfter.any
      (· ≤ (input.now.checkedSub input.clockSkew).getD input.now) then .error .expired
  else .ok ()

/-- Steps 11 to 18: from the located assertion to the identity. -/
def extractIdentity (qx : QuickXml) (input : ValidateResponse) (located : LocatedAssertion) :
    Result Identity := do
  let assertion ← readAssertion crypto qx input located.element
  if assertion.issuer ≠ input.idp.entityId then
    .error (.issuerMismatch input.idp.entityId (some assertion.issuer))
  else do
    checkNotBefore input assertion.conditions
    let notOnOrAfter ← checkNotOnOrAfter input assertion.conditions
    checkAudience input assertion.conditions
    let confirmation ← findValidSubjectConfirmation input assertion
    let confirmationNotOnOrAfter ← okOr confirmation.notOnOrAfter .expired
    checkRequestedContext input assertion
    let statement := assertion.authnStatements.head?
    let sessionNotOnOrAfter := statement.bind ParsedAuthnStatement.sessionNotOnOrAfter
    checkSessionEnd input sessionNotOnOrAfter
    .ok {
      nameId := assertion.subjectNameId
      sessionIndex := statement.bind ParsedAuthnStatement.sessionIndex
      authnInstant := (statement.map ParsedAuthnStatement.authnInstant).getD assertion.issueInstant
      sessionNotOnOrAfter := sessionNotOnOrAfter
      subjectConfirmationNotOnOrAfter := confirmationNotOnOrAfter
      authnContextClassRef := statement.bind ParsedAuthnStatement.authnContextClassRef
      attributes := assertion.attributes
      assertionId := assertion.id
      notOnOrAfter := notOnOrAfter
      verifyingCertFingerprint := located.certFingerprint
      isOneTimeUse := assertion.conditions.oneTimeUse }

/-- `validate_response`. -/
def validateResponse (qx : QuickXml) (input : ValidateResponse) : Result Identity := do
  checkEnvelope input
  enforceSignaturePositions input.document
  let located ← locateAssertion crypto qx input
  extractIdentity crypto qx input located

end Saml.Response
