import Saml.AuthnContext
import Saml.Schema
import Saml.Time
import Saml.Dsig.Verify
import Saml.Xmlenc.Decrypt

/-!
# Response and assertion parsing

`response::parse`: typed views of a `samlp:Response` and of a
`saml:Assertion`. Nothing here is verified yet.
-/

namespace Saml.Response

open Xml Crypto Time

/-- The success status. -/
def STATUS_SUCCESS : Str := "urn:oasis:names:tc:SAML:2.0:status:Success"

/-- The bearer confirmation method. -/
def SUBJECT_CONFIRMATION_BEARER : Str := "urn:oasis:names:tc:SAML:2.0:cm:bearer"

/-- The Holder-of-Key confirmation method. -/
def SUBJECT_CONFIRMATION_HOLDER_OF_KEY : Str := "urn:oasis:names:tc:SAML:2.0:cm:holder-of-key"

/-- A `saml:Assertion` or a `saml:EncryptedAssertion`, by its handle. -/
inductive AssertionWrapper where
  | cleartext (id : ElementId)
  | encrypted (id : ElementId)
deriving DecidableEq, Repr

/-- A parsed `samlp:Response`. -/
structure ParsedResponse where
  destination : Option Str
  inResponseTo : Option Str
  issuer : Option Str
  statusCode : Str
  statusMessage : Option Str
  assertion : Option AssertionWrapper

/-- A parsed `saml:SubjectConfirmation`. -/
structure SubjectConfirmation where
  method : Str
  recipient : Option Str
  notOnOrAfter : Option SystemTime
  notBefore : Option SystemTime
  inResponseTo : Option Str
  keyInfoCerts : List X509Certificate

/-- A parsed `saml:Conditions`. The audiences inside one restriction are
alternatives; the restrictions are conjunctive. -/
structure Conditions where
  notBefore : Option SystemTime
  notOnOrAfter : Option SystemTime
  audienceRestrictions : List (List Str)
  oneTimeUse : Bool
  proxyRestrictionCount : Option Int
  proxyRestrictionAudiences : List Str

/-- The view of an absent `saml:Conditions`. -/
def Conditions.empty : Conditions := ⟨none, none, [], false, none, []⟩

/-- A parsed `saml:AuthnStatement`. -/
structure ParsedAuthnStatement where
  authnInstant : SystemTime
  sessionIndex : Option Str
  sessionNotOnOrAfter : Option SystemTime
  authnContextClassRef : Option Str

/-- A parsed `saml:Assertion`. -/
structure ParsedAssertion where
  id : Str
  issueInstant : SystemTime
  issuer : Str
  subjectNameId : NameId
  subjectConfirmations : List SubjectConfirmation
  conditions : Conditions
  authnStatements : List ParsedAuthnStatement
  attributes : List SamlAttribute

/-- The trimmed text of an element. -/
def trimmedText (e : Element) : Str := Text.trim e.textContent

/-- A text attribute without a namespace, read as an instant. -/
def instantAttr (e : Element) (loc : Str) : Result (Option SystemTime) :=
  mapTranspose parseXsDatetime (e.attr none loc)

/-! ## Response -/

/-- The wrapper a child of the response stands for, if any. -/
def assertionWrapper (child : Element) : Option AssertionWrapper :=
  if child.hasName (some SAML_NS) "Assertion" then some (.cleartext child.id)
  else if child.hasName (some SAML_NS) "EncryptedAssertion" then some (.encrypted child.id)
  else none

/-- `parse_response`. -/
def parseResponse (document : Document) : Result (ParsedResponse × ElementId) :=
  let root := document.root
  if !root.hasName (some SAMLP_NS) "Response" then
    .error (.xmlParse ("expected <samlp:Response> root, got \x7b" ++
      root.qname.namespaceUri.getD [] ++ "\x7d" ++ root.qname.localName))
  else do
    Schema.validateResponse root
    let _ ← okOr (root.attr none "ID") (.xmlParse "Response missing ID")
    let version ← okOr (root.attr none "Version") (.xmlParse "Response missing Version")
    if version ≠ "2.0" then .error (.xmlParse ("unsupported SAML version: " ++ version))
    else do
      let issueInstantStr ← okOr (root.attr none "IssueInstant")
        (.xmlParse "Response missing IssueInstant")
      let _ ← parseXsDatetime issueInstantStr
      let status ← okOr (root.childElement (some SAMLP_NS) "Status")
        (.xmlParse "Response missing samlp:Status")
      let statusCodeElem ← okOr (status.childElement (some SAMLP_NS) "StatusCode")
        (.xmlParse "Status missing StatusCode")
      let statusCode ← okOr (statusCodeElem.attr none "Value")
        (.xmlParse "StatusCode missing @Value")
      let wrappers := root.childElements.filterMap assertionWrapper
      if wrappers.length > 1 then
        .error (.xmlParse "multiple assertions in response — XSW vector")
      else
        .ok ({
          destination := root.attr none "Destination"
          inResponseTo := root.attr none "InResponseTo"
          issuer := (root.childElement (some SAML_NS) "Issuer").map trimmedText
          statusCode := statusCode
          statusMessage := (status.childElement (some SAMLP_NS) "StatusMessage").map trimmedText
          assertion := wrappers.getLast? }, root.id)

/-! ## Assertion -/

/-- `parse_name_id`. -/
def parseNameId (elem : Element) : NameId where
  value := trimmedText elem
  format := ((elem.attr none "Format").map NameIdFormat.fromUri).getD .unspecified
  nameQualifier := elem.attr none "NameQualifier"
  spNameQualifier := elem.attr none "SPNameQualifier"
  spProvidedId := elem.attr none "SPProvidedID"

/-- The subject identifier: a `saml:NameID`, or a placeholder that stands for a
`saml:EncryptedID`. -/
def parseSubjectNameId (subject : Element) : Result NameId :=
  match subject.childElement (some SAML_NS) "NameID" with
  | some nameIdElem => .ok (parseNameId nameIdElem)
  | none =>
      if (subject.childElement (some SAML_NS) "EncryptedID").isSome then
        .ok ⟨[], .unspecified, none, none, none⟩
      else .error (.xmlParse "Subject missing NameID")

/-- `parse_conditions`: the count of a proxy restriction. -/
def parseProxyCount (c : Str) : Result Int :=
  match Number.parseU32 c with
  | .ok n => .ok n
  | .error _ => .error (.xmlParse ("ProxyRestriction/@Count not an integer: " ++ c))

/-- The trimmed audiences below an element. -/
def audiences (elem : Element) : List Str :=
  (elem.allChildElements (some SAML_NS) "Audience").map trimmedText

/-- `parse_conditions`. -/
def parseConditions (elem : Element) : Result Conditions := do
  let notBefore ← instantAttr elem "NotBefore"
  let notOnOrAfter ← instantAttr elem "NotOnOrAfter"
  let restriction := elem.childElement (some SAML_NS) "ProxyRestriction"
  let count ← mapTranspose parseProxyCount (restriction.bind (·.attr none "Count"))
  .ok {
    notBefore := notBefore
    notOnOrAfter := notOnOrAfter
    audienceRestrictions :=
      (elem.allChildElements (some SAML_NS) "AudienceRestriction").map audiences
    oneTimeUse := (elem.childElement (some SAML_NS) "OneTimeUse").isSome
    proxyRestrictionCount := count
    proxyRestrictionAudiences := (restriction.map audiences).getD [] }

/-- The conditions of an assertion, empty when it has none. -/
def parseConditionsOf (assertion : Element) : Result Conditions :=
  match assertion.childElement (some SAML_NS) "Conditions" with
  | some c => parseConditions c
  | none => .ok Conditions.empty

/-- `parse_authn_statement`. -/
def parseAuthnStatement (elem : Element) : Result ParsedAuthnStatement := do
  let authnInstantStr ← okOr (elem.attr none "AuthnInstant")
    (.xmlParse "AuthnStatement missing AuthnInstant")
  let authnInstant ← parseXsDatetime authnInstantStr
  let sessionNotOnOrAfter ← instantAttr elem "SessionNotOnOrAfter"
  .ok {
    authnInstant := authnInstant
    sessionIndex := elem.attr none "SessionIndex"
    sessionNotOnOrAfter := sessionNotOnOrAfter
    authnContextClassRef := ((elem.childElement (some SAML_NS) "AuthnContext").bind
      (·.childElement (some SAML_NS) "AuthnContextClassRef")).map trimmedText }

/-- `parse_attribute`: the values keep their blanks. -/
def parseAttribute (elem : Element) : SamlAttribute where
  name := (elem.attr none "Name").getD []
  nameFormat := elem.attr none "NameFormat"
  friendlyName := elem.attr none "FriendlyName"
  values := (elem.allChildElements (some SAML_NS) "AttributeValue").map ElementOf.textContent

variable (crypto : Primitives)

/-- `extract_subject_confirmation_certs`: the certificates that decode. -/
def extractSubjectConfirmationCerts (data : Element) : List X509Certificate :=
  match data.childElement (some DS_NS) "KeyInfo" with
  | none => []
  | some keyInfo => (Dsig.parseKeyInfoElement keyInfo).x509CertificatesBase64.filterMap fun b64 =>
      (X509Certificate.fromBase64X509 crypto b64).toOption

/-- `parse_subject_confirmation`: key material is read for Holder-of-Key only. -/
def parseSubjectConfirmation (elem : Element) : Result SubjectConfirmation := do
  let method ← okOr (elem.attr none "Method") (.xmlParse "SubjectConfirmation missing Method")
  match elem.childElement (some SAML_NS) "SubjectConfirmationData" with
  | none => .ok ⟨method, none, none, none, none, []⟩
  | some data => do
      let notOnOrAfter ← instantAttr data "NotOnOrAfter"
      let notBefore ← instantAttr data "NotBefore"
      .ok {
        method := method
        recipient := data.attr none "Recipient"
        notOnOrAfter := notOnOrAfter
        notBefore := notBefore
        inResponseTo := data.attr none "InResponseTo"
        keyInfoCerts :=
          if method = SUBJECT_CONFIRMATION_HOLDER_OF_KEY then
            extractSubjectConfirmationCerts crypto data
          else [] }

/-- `parse_assertion`. -/
def parseAssertion (assertion : Element) : Result ParsedAssertion :=
  if !assertion.hasName (some SAML_NS) "Assertion" then
    .error (.xmlParse ("expected <saml:Assertion>, got \x7b" ++
      assertion.qname.namespaceUri.getD [] ++ "\x7d" ++ assertion.qname.localName))
  else do
    Schema.validateAssertion assertion
    let id ← okOr (assertion.attr none "ID") (.xmlParse "Assertion missing ID")
    let issueInstantStr ← okOr (assertion.attr none "IssueInstant")
      (.xmlParse "Assertion missing IssueInstant")
    let issueInstant ← parseXsDatetime issueInstantStr
    let issuer ← okOr (assertion.childElement (some SAML_NS) "Issuer")
      (.xmlParse "Assertion missing Issuer")
    let subject ← okOr (assertion.childElement (some SAML_NS) "Subject")
      (.xmlParse "Assertion missing Subject")
    let subjectNameId ← parseSubjectNameId subject
    let subjectConfirmations ←
      (subject.allChildElements (some SAML_NS) "SubjectConfirmation").mapM
        (parseSubjectConfirmation crypto)
    let conditions ← parseConditionsOf assertion
    let authnStatements ←
      (assertion.allChildElements (some SAML_NS) "AuthnStatement").mapM parseAuthnStatement
    .ok {
      id := id
      issueInstant := issueInstant
      issuer := trimmedText issuer
      subjectNameId := subjectNameId
      subjectConfirmations := subjectConfirmations
      conditions := conditions
      authnStatements := authnStatements
      attributes := (assertion.allChildElements (some SAML_NS) "AttributeStatement").flatMap
        fun statement =>
          (statement.allChildElements (some SAML_NS) "Attribute").map parseAttribute }

/-- `decrypt_subject_encrypted_id`: the identifier of a subject that carries a
`saml:EncryptedID`. -/
def decryptSubjectEncryptedId (qx : QuickXml) (assertion : Element)
    (decryptionKeys : List KeyPair) (policy : PeerCryptoPolicy) : Result (Option NameId) :=
  match (assertion.childElement (some SAML_NS) "Subject").bind
      (·.childElement (some SAML_NS) "EncryptedID") with
  | none => .ok none
  | some encryptedId =>
      if decryptionKeys.isEmpty then
        .error (.decryptFailed
          "assertion Subject carries <saml:EncryptedID> but no decryption key is configured")
      else do
        let decrypted ← Xmlenc.decryptEncryptedAssertion crypto qx encryptedId decryptionKeys policy
        if !decrypted.hasName (some SAML_NS) "NameID" then
          .error (.xmlParse "decrypted <saml:EncryptedID> did not contain a <saml:NameID>")
        else .ok (some (parseNameId decrypted))

end Saml.Response
