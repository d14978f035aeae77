import Saml.Logout.Request

/-!
# Logout responses

`logout::response_build` and `logout::response_parse`: the `LogoutResponse`,
its two-level status, and the outcome the status stands for.
-/

namespace Saml.Logout

open Xml Crypto Time Response

/-- `LogoutStatus`: the status of an outbound response. -/
inductive LogoutStatus where
  | success
  | partialLogout
  | requestDenied
  | requester
  | responder
deriving DecidableEq, Repr

/-- The status of a partial logout. -/
def STATUS_PARTIAL_LOGOUT : Str := "urn:oasis:names:tc:SAML:2.0:status:PartialLogout"

namespace LogoutStatus

/-- `top_level_uri`. -/
def topLevelUri : LogoutStatus → Str
  | .success => STATUS_SUCCESS
  | .partialLogout | .responder => "urn:oasis:names:tc:SAML:2.0:status:Responder"
  | .requestDenied | .requester => "urn:oasis:names:tc:SAML:2.0:status:Requester"

/-- `second_level_uri`. -/
def secondLevelUri : LogoutStatus → Option Str
  | .partialLogout => some STATUS_PARTIAL_LOGOUT
  | .requestDenied => some "urn:oasis:names:tc:SAML:2.0:status:RequestDenied"
  | .success | .requester | .responder => none

end LogoutStatus

/-- What an inbound response says about the session. -/
inductive LogoutOutcome where
  | success
  | partialLogout (message : Option Str)
  | failure (status : Str) (message : Option Str)
deriving DecidableEq, Repr

/-! ## Building -/

/-- The input of `build_logout_response_element`. -/
structure BuildLogoutResponse where
  id : Str
  issueInstant : SystemTime
  issuerEntityId : Str
  destination : Option Str
  inResponseTo : Str
  status : LogoutStatus
  statusMessage : Option Str

/-- `build_status`. -/
def buildStatus (status : LogoutStatus) (message : Option Str) : Element :=
  statusElement ⟨status.topLevelUri, status.secondLevelUri, message⟩

/-- `build_logout_response_element`. -/
def buildLogoutResponseElement (input : BuildLogoutResponse) : Result Element := do
  let issueInstant ← formatXsDatetime input.issueInstant
  let e := (messageElement "LogoutResponse" input.id issueInstant).withAttribute
    (plain "InResponseTo") input.inResponseTo
  let e := withOptionalAttribute e "Destination" input.destination
  .ok (withElements e
    [issuerElement input.issuerEntityId, buildStatus input.status input.statusMessage])

/-- `build_logout_response_xml`. -/
def buildLogoutResponseXml (input : BuildLogoutResponse) : Result Octets := do
  let element ← buildLogoutResponseElement input
  serializeElement element

/-! ## Parsing -/

/-- A parsed `samlp:LogoutResponse`. -/
structure ParsedLogoutResponse where
  issuer : Str
  destination : Option Str
  inResponseTo : Str
  statusCode : Str
  secondLevelStatusCode : Option Str
  statusMessage : Option Str

/-- `to_outcome`: a failure names its most specific status. -/
def ParsedLogoutResponse.toOutcome (parsed : ParsedLogoutResponse) : LogoutOutcome :=
  if parsed.statusCode = STATUS_SUCCESS then .success
  else if parsed.statusCode = STATUS_PARTIAL_LOGOUT ∨
      parsed.secondLevelStatusCode = some STATUS_PARTIAL_LOGOUT then
    .partialLogout parsed.statusMessage
  else .failure (parsed.secondLevelStatusCode.getD parsed.statusCode) parsed.statusMessage

/-- `parse_logout_response`. -/
def parseLogoutResponse (document : Document) : Result (ParsedLogoutResponse × ElementId) := do
  let root := document.root
  let _ ← parseMessageRoot "LogoutResponse" Schema.validateLogoutResponse root
  let inResponseTo ← okOr (root.attr none "InResponseTo")
    (.xmlParse "LogoutResponse missing InResponseTo")
  let issuer ← parseIssuer "LogoutResponse" root
  let statusEl ← okOr (root.childElement (some SAMLP_NS) "Status")
    (.xmlParse "LogoutResponse missing <samlp:Status>")
  let topCodeEl ← okOr (statusEl.childElement (some SAMLP_NS) "StatusCode")
    (.xmlParse "LogoutResponse Status missing <samlp:StatusCode>")
  let statusCode ← okOr (topCodeEl.attr none "Value")
    (.xmlParse "StatusCode missing Value attribute")
  .ok ({
    issuer := issuer
    destination := root.attr none "Destination"
    inResponseTo := inResponseTo
    statusCode := statusCode
    secondLevelStatusCode :=
      (topCodeEl.childElement (some SAMLP_NS) "StatusCode").bind (·.attr none "Value")
    statusMessage :=
      (statusEl.childElement (some SAMLP_NS) "StatusMessage").map ElementOf.textContent }, root.id)

/-- The parsed root is the document's. -/
theorem parseLogoutResponse_root {document : Document} {parsed : ParsedLogoutResponse}
    {rootId : ElementId} (h : parseLogoutResponse document = .ok (parsed, rootId)) :
    rootId = document.root.id := by
  obtain ⟨_, _, h⟩ := bind_eq_ok_iff.mp h
  obtain ⟨inResponseTo, _, h⟩ := bind_eq_ok_iff.mp h
  obtain ⟨issuer, _, h⟩ := bind_eq_ok_iff.mp h
  obtain ⟨statusEl, _, h⟩ := bind_eq_ok_iff.mp h
  obtain ⟨topCodeEl, _, h⟩ := bind_eq_ok_iff.mp h
  obtain ⟨statusCode, _, h⟩ := bind_eq_ok_iff.mp h
  exact (Prod.mk.inj (Except.ok.inj h)).2.symm

end Saml.Logout
