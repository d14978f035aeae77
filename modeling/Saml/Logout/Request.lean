import Saml.Inbound
import Saml.Response.Issue

/-!
# Logout requests

`logout`: the inputs and trackers of single logout, and the `LogoutRequest`,
built and parsed. Nothing parsed here is verified yet.
-/

namespace Saml.Logout

open Xml Crypto Dsig Time Response

/-- The inputs of `start_logout`. -/
structure StartLogout where
  nameId : NameId
  sessionIndex : Option Str
  relayState : Option Str
  reason : Option Str
  binding : Binding

/-- The state kept between a logout request and its response. -/
structure LogoutTracker where
  requestId : Str
  issuedAt : SystemTime
  peerEntityId : Str

/-- The outcome of `start_logout`. -/
structure LogoutDispatch where
  tracker : LogoutTracker
  dispatch : Dispatch

/-- What a call reads of its surroundings: random octets and the clock. -/
structure Ambient where
  draw : Draw 16
  now : SystemTime

/-- The inputs of `consume_logout_request`. -/
structure ConsumeLogoutRequest where
  peerCryptoPolicy : Option PeerCryptoPolicy
  body : Octets
  binding : Binding
  detachedSignature : Option DetachedSignature
  expectedDestination : Str
  now : SystemTime
  clockSkew : Duration

/-- The inputs of `consume_logout_response`. -/
structure ConsumeLogoutResponse where
  peerCryptoPolicy : Option PeerCryptoPolicy
  body : Octets
  binding : Binding
  detachedSignature : Option DetachedSignature
  tracker : LogoutTracker
  expectedDestination : Str
  now : SystemTime
  clockSkew : Duration

/-- A parsed `samlp:LogoutRequest`. -/
structure ParsedLogoutRequest where
  id : Str
  issuer : Str
  issueInstant : SystemTime
  destination : Option Str
  notOnOrAfter : Option SystemTime
  reason : Option Str
  nameId : NameId
  sessionIndex : List Str
  relayState : Option Str

/-! ## Building -/

/-- The input of `build_logout_request_element`. -/
structure BuildLogoutRequest where
  id : Str
  issueInstant : SystemTime
  issuerEntityId : Str
  destination : Option Str
  notOnOrAfter : Option SystemTime
  reason : Option Str
  nameId : NameId
  sessionIndex : Option Str

/-- The root of a logout message with the attributes every one has. -/
def messageElement (loc id issueInstant : Str) : Element :=
  let e := ((samlp loc).withNamespace (some "samlp") SAMLP_NS).withNamespace (some "saml") SAML_NS
  ((e.withAttribute (plain "ID") id).withAttribute (plain "Version") "2.0").withAttribute
    (plain "IssueInstant") issueInstant

/-- The `saml:NameID` of a logout request. -/
def requestNameIdElement (nameId : NameId) : Element :=
  let e := (saml "NameID").withAttribute (plain "Format") nameId.format.asUri
  let e := withOptionalAttribute e "NameQualifier" nameId.nameQualifier
  let e := withOptionalAttribute e "SPNameQualifier" nameId.spNameQualifier
  let e := withOptionalAttribute e "SPProvidedID" nameId.spProvidedId
  e.withText nameId.value

/-- The `samlp:SessionIndex` of a logout request, if it has one. -/
def sessionIndexElements (sessionIndex : Option Str) : List Element :=
  (sessionIndex.map fun s => (samlp "SessionIndex").withText s).toList

/-- `build_logout_request_element`. -/
def buildLogoutRequestElement (input : BuildLogoutRequest) : Result Element := do
  let issueInstant ← formatXsDatetime input.issueInstant
  let notOnOrAfter ← mapTranspose formatXsDatetime input.notOnOrAfter
  let e := messageElement "LogoutRequest" input.id issueInstant
  let e := withOptionalAttribute e "Destination" input.destination
  let e := withOptionalAttribute e "NotOnOrAfter" notOnOrAfter
  let e := withOptionalAttribute e "Reason" input.reason
  .ok (withElements e
    ([issuerElement input.issuerEntityId, requestNameIdElement input.nameId] ++
      sessionIndexElements input.sessionIndex))

/-- `serialize_element`: wrap an element in a document and write it. -/
def serializeElement (element : Element) : Result Octets := do
  let doc ← Document.new element
  let text ← emitDocument doc
  .ok (Text.asBytes text)

/-- `build_logout_request_xml`. -/
def buildLogoutRequestXml (input : BuildLogoutRequest) : Result Octets := do
  let element ← buildLogoutRequestElement input
  serializeElement element

/-! ## Parsing -/

/-- The checks common to the roots of the two logout messages: name, shape,
version, identifier and issue instant. -/
def parseMessageRoot (loc : Str) (validate : Element → Result Unit) (root : Element) :
    Result (Str × SystemTime) :=
  if !root.hasName (some SAMLP_NS) loc then
    .error (.xmlParse ("expected <samlp:" ++ loc ++ ">, got <" ++ root.qname.display ++ ">"))
  else do
    validate root
    let version ← okOr (root.attr none "Version") (.xmlParse (loc ++ " missing Version"))
    if version ≠ "2.0" then
      .error (.xmlParse ("unsupported " ++ loc ++ " Version: " ++ version))
    else do
      let id ← okOr (root.attr none "ID") (.xmlParse (loc ++ " missing ID"))
      let issueInstantStr ← okOr (root.attr none "IssueInstant")
        (.xmlParse (loc ++ " missing IssueInstant"))
      let issueInstant ← parseXsDatetime issueInstantStr
      .ok (id, issueInstant)

/-- The `saml:Issuer` of a logout message, with its blanks. -/
def parseIssuer (loc : Str) (root : Element) : Result Str := do
  let issuerEl ← okOr (root.childElement (some SAML_NS) "Issuer")
    (.xmlParse (loc ++ " missing <saml:Issuer>"))
  let issuer := issuerEl.textContent
  if Text.trim issuer = [] then .error (.xmlParse (loc ++ " <saml:Issuer> is empty"))
  else .ok issuer

/-- `parse_name_id` of a logout request: the value keeps its blanks. -/
def parseNameId (elem : Element) : NameId where
  value := elem.textContent
  format := ((elem.attr none "Format").map NameIdFormat.fromUri).getD .unspecified
  nameQualifier := elem.attr none "NameQualifier"
  spNameQualifier := elem.attr none "SPNameQualifier"
  spProvidedId := elem.attr none "SPProvidedID"

/-- The identifier of a request: a `saml:NameID`, or a placeholder that stands
for a `saml:EncryptedID`. -/
def parseRequestNameId (root : Element) : Result NameId :=
  match root.childElement (some SAML_NS) "NameID" with
  | some nameIdEl => .ok (parseNameId nameIdEl)
  | none =>
      if (root.childElement (some SAML_NS) "EncryptedID").isSome then
        .ok ⟨[], .unspecified, none, none, none⟩
      else .error (.xmlParse "LogoutRequest missing <saml:NameID>")

/-- `parse_logout_request`. -/
def parseLogoutRequest (document : Document) : Result (ParsedLogoutRequest × ElementId) := do
  let root := document.root
  let (id, issueInstant) ← parseMessageRoot "LogoutRequest" Schema.validateLogoutRequest root
  let notOnOrAfter ← instantAttr root "NotOnOrAfter"
  let issuer ← parseIssuer "LogoutRequest" root
  let nameId ← parseRequestNameId root
  .ok ({
    id := id
    issuer := issuer
    issueInstant := issueInstant
    destination := root.attr none "Destination"
    notOnOrAfter := notOnOrAfter
    reason := root.attr none "Reason"
    nameId := nameId
    sessionIndex := (root.allChildElements (some SAMLP_NS) "SessionIndex").map ElementOf.textContent
    relayState := none }, root.id)

/-- `decrypt_encrypted_name_id`: the identifier of a request that carries a
`saml:EncryptedID`. -/
def decryptEncryptedNameId (crypto : Primitives) (qx : QuickXml) (document : Document)
    (decryptionKeys : List KeyPair) (policy : PeerCryptoPolicy) : Result (Option NameId) :=
  match document.root.childElement (some SAML_NS) "EncryptedID" with
  | none => .ok none
  | some encryptedId =>
      if decryptionKeys.isEmpty then
        .error (.decryptFailed
          "LogoutRequest carries <saml:EncryptedID> but no decryption key is configured")
      else do
        let decrypted ← Xmlenc.decryptEncryptedAssertion crypto qx encryptedId decryptionKeys policy
        if !decrypted.hasName (some SAML_NS) "NameID" then
          .error (.xmlParse "decrypted <saml:EncryptedID> did not contain a <saml:NameID>")
        else .ok (some (parseNameId decrypted))

/-- The identifier after decryption: a cleartext one is left as it was. -/
def decryptedNameId (crypto : Primitives) (qx : QuickXml) (document : Document)
    (decryptionKey : Option KeyPair) (policy : PeerCryptoPolicy) (nameId : NameId) :
    Result NameId := do
  let decrypted ← decryptEncryptedNameId crypto qx document decryptionKey.toList policy
  .ok (decrypted.getD nameId)

/-- Whether a request has expired; a skew that underflows counts as none. -/
def expired (notOnOrAfter : Option SystemTime) (now : SystemTime) (clockSkew : Duration) : Bool :=
  notOnOrAfter.any fun noa => noa ≤ (now.checkedSub clockSkew).getD now

/-- The parsed root is the document's. -/
theorem parseLogoutRequest_root {document : Document} {parsed : ParsedLogoutRequest}
    {rootId : ElementId} (h : parseLogoutRequest document = .ok (parsed, rootId)) :
    rootId = document.root.id := by
  obtain ⟨⟨id, issueInstant⟩, _, h⟩ := bind_eq_ok_iff.mp h
  obtain ⟨notOnOrAfter, _, h⟩ := bind_eq_ok_iff.mp h
  obtain ⟨issuer, _, h⟩ := bind_eq_ok_iff.mp h
  obtain ⟨nameId, _, h⟩ := bind_eq_ok_iff.mp h
  exact (Prod.mk.inj (Except.ok.inj h)).2.symm

end Saml.Logout
