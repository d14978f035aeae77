import Saml.Soap
import Saml.Binding
import Saml.Time

/-!
# Artifacts

`binding::artifact`: the fields of a type 4 artifact, and the messages that
resolve one over SOAP.
-/

namespace Saml.Artifact

open Xml Crypto

/-- The fields of a type 4 artifact. -/
structure Type4Artifact where
  endpointIndex : UInt16
  sourceId : Octets
  messageHandle : Octets

/-- `source_id`. -/
def sourceId (web : Web) (issuerEntityId : Str) : Octets := web.sha1 (Text.asBytes issuerEntityId)

/-- `u16::from_be_bytes`. -/
def fromBeBytes (high low : UInt8) : UInt16 := high.toUInt16 <<< 8 ||| low.toUInt16

/-- `parse_type4_artifact`: type code, endpoint index, source and message
handle in exactly 44 octets. -/
def parseType4Artifact (artifact : Str) : Result Type4Artifact :=
  match base64Decode artifact with
  | .error _ => .error (.malformedArtifact "invalid base64")
  | .ok decoded =>
      match decoded with
      | typeHigh :: typeLow :: indexHigh :: indexLow :: rest =>
          if rest.length ≠ 40 then
            .error (.malformedArtifact "decoded artifact must be exactly 44 bytes")
          else if fromBeBytes typeHigh typeLow ≠ 4 then
            .error (.malformedArtifact "artifact type code is not 0x0004")
          else .ok ⟨fromBeBytes indexHigh indexLow, rest.take 20, rest.drop 20⟩
      | _ => .error (.malformedArtifact "decoded artifact must be exactly 44 bytes")

/-! ## Resolve requests -/

/-- `build_artifact_resolve_element`, at the instant it reads off the clock. -/
def buildArtifactResolveElement (issuerEntityId destination artifact requestId : Str)
    (now : SystemTime) : Result Element := do
  let issueInstant ← Time.formatXsDatetime now
  let artifactElem := (ElementOf.build ⟨some SAMLP_NS, "Artifact"⟩).withText artifact
  let issuerElem := (ElementOf.build ⟨some SAML_NS, "Issuer"⟩).withText issuerEntityId
  let resolve := ((ElementOf.build ⟨some SAMLP_NS, "ArtifactResolve"⟩).withNamespace
    (some "samlp") SAMLP_NS).withNamespace (some "saml") SAML_NS
  let resolve := (((resolve.withAttribute ⟨none, "ID"⟩ requestId).withAttribute ⟨none, "Version"⟩
    "2.0").withAttribute ⟨none, "IssueInstant"⟩ issueInstant).withAttribute ⟨none, "Destination"⟩
    destination
  .ok ((resolve.withChild (.element issuerElem)).withChild (.element artifactElem))

/-- A parsed `samlp:ArtifactResolve`. -/
structure ArtifactResolveRequest where
  requestId : Str
  issuer : Str
  artifact : Str
deriving DecidableEq

/-- An attribute or a text that has to be there and may not be empty. -/
def requireNonEmpty (found : Option Str) (missing empty : Str) : Result Str := do
  let value ← okOr found (.xmlParse missing)
  if value = [] then .error (.xmlParse empty) else .ok value

/-- `parse_artifact_resolve_element`. -/
def parseArtifactResolveElement (resolve : Element) : Result ArtifactResolveRequest :=
  if !resolve.hasName (some SAMLP_NS) "ArtifactResolve" then
    .error (.xmlParse "ArtifactResolve: SOAP body payload is not samlp:ArtifactResolve")
  else if resolve.attr none "Version" ≠ some ("2.0" : Str) then
    .error (.xmlParse "ArtifactResolve: Version must be 2.0")
  else do
    let requestId ← requireNonEmpty (resolve.attr none "ID") "ArtifactResolve: missing @ID"
      "ArtifactResolve: empty @ID"
    let issuer ← requireNonEmpty
      ((resolve.childElement (some SAML_NS) "Issuer").map ElementOf.textContent)
      "ArtifactResolve: missing saml:Issuer" "ArtifactResolve: empty saml:Issuer"
    let artifact ← requireNonEmpty
      ((resolve.childElement (some SAMLP_NS) "Artifact").map ElementOf.textContent)
      "ArtifactResolve: missing samlp:Artifact" "ArtifactResolve: empty samlp:Artifact"
    .ok ⟨requestId, issuer, artifact⟩

/-- `unwrap_artifact_resolve`. -/
def unwrapArtifactResolve (qx : QuickXml) (soapEnvelope : Octets) :
    Result (ArtifactResolveRequest × Document) := do
  let document ← Soap.unwrap qx soapEnvelope
  let request ← parseArtifactResolveElement document.root
  .ok (request, document)

end Saml.Artifact
