import Saml.Wire
import Saml.Xml.Emit

/-!
# SOAP envelopes

`binding::soap`: a protocol message in the body of a SOAP 1.1 envelope, and the
HTTP exchange that carries it.
-/

namespace Saml.Soap

open Xml

/-- The SOAP 1.1 envelope namespace. -/
def SOAP_NS : Str := "http://schemas.xmlsoap.org/soap/envelope/"

/-- A name in the envelope namespace. -/
def soap (loc : Str) : QName := ⟨some SOAP_NS, loc⟩

/-- A back-channel POST request. -/
structure HttpRequest where
  url : Str
  headers : List (Str × Str)
  body : Octets

/-- The caller's HTTP client: the octets of the reply, or why there is none. -/
abbrev HttpClient := HttpRequest → Except Str Octets

/-- `request_headers`. -/
def requestHeaders : List (Str × Str) :=
  [("Content-Type", "text/xml; charset=utf-8"), ("SOAPAction", "\"\"")]

/-- Send a request with the transport's error. -/
def send (http : HttpClient) (request : HttpRequest) : Result Octets :=
  match http request with
  | .ok body => .ok body
  | .error reason => .error (.http reason)

/-- `wrap_element`. -/
def wrapElement (payload : Element) : Result Str := do
  let body := (ElementOf.build (soap "Body")).withChild (.element payload)
  let envelope := ((ElementOf.build (soap "Envelope")).withNamespace (some "soap")
    SOAP_NS).withChild (.element body)
  let doc ← Document.new envelope
  emitDocument doc

variable (qx : QuickXml)

/-- `wrap`. -/
def wrap (payloadXml : Octets) : Result Str := do
  let doc ← Document.parse qx payloadXml
  wrapElement doc.root

/-- The error of a `soap:Fault`. -/
def faultError (fault : Element) : Error :=
  .soapFault (((fault.childElement none "faultcode").map ElementOf.textContent).getD [])
    (((fault.childElement none "faultstring").map ElementOf.textContent).filter (· ≠ []))

/-- `single_body_payload`. -/
def singleBodyPayload (body : Element) : Result Element :=
  match body.childElements with
  | [] => .error (.xmlParse "SOAP: soap:Body contains no payload element")
  | [payload] => .ok payload
  | _ => .error (.xmlParse "SOAP: soap:Body must contain exactly one payload element")

/-- `unwrap`: the payload in a document of its own. -/
def unwrap (envelopeBytes : Octets) : Result Document := do
  let doc ← Document.parse qx envelopeBytes
  if !doc.root.hasName (some SOAP_NS) "Envelope" then
    .error (.xmlParse "SOAP: envelope root is not soap:Envelope")
  else do
    let body ← okOr (doc.root.childElement (some SOAP_NS) "Body")
      (.xmlParse "SOAP: missing soap:Body")
    match body.childElement (some SOAP_NS) "Fault" with
    | some fault => .error (faultError fault)
    | none => do
        let payload ← singleBodyPayload body
        let payloadXml ← emitElement payload
        Document.parse qx (Text.asBytes payloadXml)

/-- The payload of an envelope, before it is re-rooted. -/
def bodyPayload (envelope : Element) : Result Element :=
  if !envelope.hasName (some SOAP_NS) "Envelope" then
    .error (.xmlParse "SOAP: envelope root is not soap:Envelope")
  else do
    let body ← okOr (envelope.childElement (some SOAP_NS) "Body")
      (.xmlParse "SOAP: missing soap:Body")
    match body.childElement (some SOAP_NS) "Fault" with
    | some fault => .error (faultError fault)
    | none => singleBodyPayload body

/-- Unwrapping emits the payload and parses it as a document of its own. -/
theorem unwrap_eq (envelopeBytes : Octets) :
    unwrap qx envelopeBytes = (do
      let doc ← Document.parse qx envelopeBytes
      let payload ← bodyPayload doc.root
      let payloadXml ← emitElement payload
      Document.parse qx (Text.asBytes payloadXml)) := by
  unfold unwrap bodyPayload
  apply bind_congr
  intro doc
  split
  · rfl
  · cases doc.root.childElement (some SOAP_NS) "Body" with
    | none => rfl
    | some body =>
        simp only [okOr_some, bind, Except.bind]
        cases body.childElement (some SOAP_NS) "Fault" with
        | none => rfl
        | some fault => rfl

/-- `payload_xml` of an unwrapped envelope. -/
def payloadXml (envelopeBytes : Octets) : Result Octets := do
  let document ← unwrap qx envelopeBytes
  let text ← emitElement document.root
  .ok (Text.asBytes text)

end Saml.Soap
