import Saml.Dsig.Reference
import Saml.Crypto.Verifier

/-!
# Signature verification

`dsig::verify`: enveloped signatures and the detached signatures of the
redirect binding.
-/

namespace Saml.Dsig

open Xml Crypto

/-- A verified signature: the element it covers, the certificate and the
algorithm. -/
structure VerifiedSignature where
  signedElement : ElementId
  verifyingCertFingerprint : Octets
  signatureAlgorithm : SignatureAlgorithm
deriving DecidableEq

/-- `parse_c14n_method`. -/
def parseC14nMethod (signedInfo : Element) (allowedAlgorithms : List C14nAlgorithm) :
    Result C14nAlgorithm := do
  let elem ← okOr (signedInfo.childElement (some DS_NS) "CanonicalizationMethod")
    (.signatureVerification "missing CanonicalizationMethod")
  let uri ← okOr (elem.attr none "Algorithm")
    (.signatureVerification "CanonicalizationMethod missing Algorithm")
  let algorithm ← C14nAlgorithm.fromUri uri
  if algorithm ∉ allowedAlgorithms then .error (.disallowedAlgorithm uri) else .ok algorithm

/-- `parse_signature_method`. -/
def parseSignatureMethod (signedInfo : Element) (allowedAlgorithms : List SignatureAlgorithm) :
    Result SignatureAlgorithm := do
  let elem ← okOr (signedInfo.childElement (some DS_NS) "SignatureMethod")
    (.signatureVerification "missing SignatureMethod")
  let uri ← okOr (elem.attr none "Algorithm")
    (.signatureVerification "SignatureMethod missing Algorithm")
  let algorithm ← SignatureAlgorithm.fromUri uri
  if algorithm ∉ allowedAlgorithms then .error (.disallowedAlgorithm uri) else .ok algorithm

/-- `single_reference`. -/
def singleReference (signedInfo : Element) : Result Element :=
  match signedInfo.allChildElements (some DS_NS) "Reference" with
  | [] => .error (.signatureVerification "SignedInfo has no Reference")
  | [reference] => .ok reference
  | _ => .error (.signatureVerification "multi-reference signature rejected (XSW vector)")

/-- `parse_key_info_element`. -/
def parseKeyInfoElement (keyInfo : Element) : KeyInfo :=
  let x509Data := keyInfo.allChildElements (some DS_NS) "X509Data"
  let below (loc : Str) := x509Data.flatMap (·.allChildElements (some DS_NS) loc)
  let textOf (parent : Element) (loc : Str) :=
    ((parent.childElement (some DS_NS) loc).map ElementOf.textContent).getD []
  { keyName := (keyInfo.childElement (some DS_NS) "KeyName").map ElementOf.textContent
    x509CertificatesBase64 := (below "X509Certificate").map ElementOf.textContent
    x509SubjectNames := (below "X509SubjectName").map ElementOf.textContent
    x509IssuerSerials := (below "X509IssuerSerial").map fun serial =>
      (textOf serial "X509IssuerName", textOf serial "X509SerialNumber") }

/-- `extract_key_info`. -/
def extractKeyInfo (signatureElement : Element) : KeyInfo :=
  match signatureElement.childElement (some DS_NS) "KeyInfo" with
  | some keyInfo => parseKeyInfoElement keyInfo
  | none => KeyInfo.default

variable (crypto : Primitives)

/-- `verify_signature` with the default verifier. -/
def verifySignature (document : Document) (signatureElement : Element)
    (candidateCerts : List X509Certificate) (policy : PeerCryptoPolicy) :
    Result VerifiedSignature := do
  let signedInfo ← okOr (signatureElement.childElement (some DS_NS) "SignedInfo")
    (.signatureVerification "missing SignedInfo")
  let c14nAlg ← parseC14nMethod signedInfo policy.allowedC14nAlgorithms
  let sigAlg ← parseSignatureMethod signedInfo policy.allowedSignatureAlgorithms
  let referenceElem ← singleReference signedInfo
  let parsed ← parseReference document referenceElem policy.allowedDigestAlgorithms
    policy.allowedC14nAlgorithms
  let computedDigest ← computeReferenceDigest crypto document parsed signatureElement.id
  if computedDigest ≠ parsed.digestValue then
    .error (.signatureVerification "digest mismatch")
  else do
    let signedInfoChain ← okOr (ancestorChain document signedInfo.id)
      (.signatureVerification "could not compute SignedInfo ancestor chain")
    let signedInfoBytes ← C14n.canonicalize signedInfo signedInfoChain c14nAlg []
    let signatureValueElem ← okOr (signatureElement.childElement (some DS_NS) "SignatureValue")
      (.signatureVerification "missing SignatureValue")
    let signatureBytes ← decodeBase64Lenient signatureValueElem.textContent
    let keyInfo := extractKeyInfo signatureElement
    let vmatch ← verify crypto sigAlg signedInfoBytes signatureBytes candidateCerts
      policy.allowedSignatureAlgorithms keyInfo
    .ok ⟨parsed.target, vmatch.certFingerprint, vmatch.algorithm⟩

/-- `verify_detached_signature`. -/
def verifyDetachedSignature (signedQueryString signatureBytes : Octets)
    (sigAlg : SignatureAlgorithm) (candidateCerts : List X509Certificate)
    (allowedAlgorithms : List SignatureAlgorithm) : Result VerifyMatch :=
  if sigAlg ∉ allowedAlgorithms then .error (.disallowedAlgorithm sigAlg.uri)
  else
    verify crypto sigAlg signedQueryString signatureBytes candidateCerts allowedAlgorithms
      KeyInfo.default

end Saml.Dsig
