import Saml.Dsig.Reference

/-!
# Signing

`dsig::sign`: digest the target, sign the canonical `ds:SignedInfo`, and splice
the signature into the target's children.
-/

namespace Saml.Dsig

open Xml Crypto

/-- Cryptographic and canonicalization options of a signature. -/
structure SignOptions where
  signingKey : KeyPair
  sigAlg : SignatureAlgorithm
  digestAlg : DigestAlgorithm
  c14nAlg : C14nAlgorithm
  inclusiveNamespaces : List Str
  includeX509Cert : Bool

/-- A name in the XML-DSig namespace. -/
def ds (loc : Str) : QName := ⟨some DS_NS, loc⟩

/-- A name in the exclusive-canonicalization namespace. -/
def ec (loc : Str) : QName := ⟨some EC_NS, loc⟩

/-- An element with an `Algorithm` attribute. -/
def algorithmElement (loc uri : Str) : Element :=
  (ElementOf.build (ds loc)).withAttribute ⟨none, "Algorithm"⟩ uri

/-- The canonicalization transform with its prefix list. -/
def c14nTransform (c14n : C14nAlgorithm) (inclusivePrefixes : List Str) : Element :=
  let transform := algorithmElement "Transform" c14n.uri
  if c14n.isExclusive ∧ inclusivePrefixes ≠ [] then
    let inclusive := ((ElementOf.build (ec "InclusiveNamespaces")).withNamespace (some "ec")
      EC_NS).withAttribute ⟨none, "PrefixList"⟩ (List.intercalate " " inclusivePrefixes)
    transform.withChild (.element inclusive)
  else transform

/-- `build_signed_info`. -/
def buildSignedInfo (signatureAlgorithm : SignatureAlgorithm) (digest : DigestAlgorithm)
    (c14n : C14nAlgorithm) (idValue digestB64 : Str) (inclusivePrefixes : List Str) : Element :=
  let transforms := ((ElementOf.build (ds "Transforms")).withChild
    (.element (algorithmElement "Transform" ENVELOPED_SIGNATURE_URI))).withChild
    (.element (c14nTransform c14n inclusivePrefixes))
  let digestValue := (ElementOf.build (ds "DigestValue")).withText digestB64
  let reference := ((((ElementOf.build (ds "Reference")).withAttribute ⟨none, "URI"⟩
    ('#' :: idValue)).withChild (.element transforms)).withChild
    (.element (algorithmElement "DigestMethod" digest.uri))).withChild (.element digestValue)
  (((ElementOf.build (ds "SignedInfo")).withChild
    (.element (algorithmElement "CanonicalizationMethod" c14n.uri))).withChild
    (.element (algorithmElement "SignatureMethod" signatureAlgorithm.uri))).withChild
    (.element reference)

/-- `build_x509_key_info`. -/
def buildX509KeyInfo (cert : X509Certificate) (declareDsNs : Bool) : Element :=
  let certificate := (ElementOf.build (ds "X509Certificate")).withText cert.toBase64X509
  let x509Data := (ElementOf.build (ds "X509Data")).withChild (.element certificate)
  let keyInfo := ElementOf.build (ds "KeyInfo")
  let keyInfo := if declareDsNs then keyInfo.withNamespace (some "ds") DS_NS else keyInfo
  keyInfo.withChild (.element x509Data)

/-- `build_signature_element`. -/
def buildSignatureElement (signedInfo : Element) (signatureB64 : Str) (includeX509Cert : Bool)
    (signingKey : KeyPair) : Result Element :=
  let signatureValue := (ElementOf.build (ds "SignatureValue")).withText signatureB64
  let signature := (((ElementOf.build (ds "Signature")).withNamespace (some "ds") DS_NS).withChild
    (.element signedInfo)).withChild (.element signatureValue)
  if includeX509Cert then
    match signingKey.cert with
    | some cert => .ok (signature.withChild (.element (buildX509KeyInfo cert false)))
    | none =>
        .error (.invalidConfiguration
          "include_x509_cert requested but signing key has no certificate")
  else .ok signature

/-- `clone_with_namespace`: prepend a namespace declaration. -/
def cloneWithNamespace (element : Element) (pfx : Option Str) (uri : Str) : Element :=
  { element with namespacesDeclaredHere := (pfx, uri) :: element.namespacesDeclaredHere }

/-- Whether a node is a `saml:Issuer` element. -/
def isIssuer : Node → Bool
  | .element e => e.hasName (some SAML_NS) "Issuer"
  | _ => false

/-- `signature_insertion_index`: after the first issuer, or first. -/
def signatureInsertionIndex (element : Element) : Nat :=
  match element.children.findIdx? isIssuer with
  | some idx => idx + 1
  | none => 0

variable (crypto : Primitives)

/-- `sign_element`. The document context is not read. -/
def signElement (element : Element) (opts : SignOptions) : Result Element := do
  let idValue ← okOr (element.attr none "ID")
    (.invalidConfiguration "signing target requires ID attribute")
  let targetCanonical ← C14n.canonicalize element [] opts.c14nAlg opts.inclusiveNamespaces
  let digestB64 := base64Encode (crypto.digest opts.digestAlg targetCanonical)
  let signedInfo := buildSignedInfo opts.sigAlg opts.digestAlg opts.c14nAlg idValue digestB64
    opts.inclusiveNamespaces
  let signedInfoDoc ← Document.new (cloneWithNamespace signedInfo (some "ds") DS_NS)
  let signedInfoCanonical ← C14n.canonicalize signedInfoDoc.root [] opts.c14nAlg
    opts.inclusiveNamespaces
  let signatureBytes ← opts.signingKey.sign crypto opts.sigAlg signedInfoCanonical
  let signatureElement ← buildSignatureElement signedInfo (base64Encode signatureBytes)
    opts.includeX509Cert opts.signingKey
  .ok (element.insertChild (signatureInsertionIndex element) (.element signatureElement))

/-- What signing returns: the element with one signature spliced in. -/
theorem signElement_ok {element signed : Element} {opts : SignOptions}
    (h : signElement crypto element opts = .ok signed) :
    ∃ idValue digestB64 signatureBytes signature,
      buildSignatureElement
          (buildSignedInfo opts.sigAlg opts.digestAlg opts.c14nAlg idValue digestB64
            opts.inclusiveNamespaces)
          (base64Encode signatureBytes) opts.includeX509Cert opts.signingKey = .ok signature ∧
        signed = element.insertChild (signatureInsertionIndex element) (.element signature) := by
  obtain ⟨idValue, _, h⟩ := bind_eq_ok_iff.mp h
  obtain ⟨targetCanonical, _, h⟩ := bind_eq_ok_iff.mp h
  obtain ⟨signedInfoDoc, _, h⟩ := bind_eq_ok_iff.mp h
  obtain ⟨signedInfoCanonical, _, h⟩ := bind_eq_ok_iff.mp h
  obtain ⟨signatureBytes, _, h⟩ := bind_eq_ok_iff.mp h
  obtain ⟨signature, hsignature, h⟩ := bind_eq_ok_iff.mp h
  exact ⟨idValue, _, signatureBytes, signature, hsignature, (Except.ok.inj h).symm⟩

theorem signatureInsertionIndex_le (element : Element) :
    signatureInsertionIndex element ≤ element.children.length := by
  unfold signatureInsertionIndex
  split
  next idx hidx => exact (List.findIdx?_eq_some_iff_getElem.mp hidx).1
  next => exact Nat.zero_le _

theorem buildSignatureElement_qname {signedInfo signature : Element} {signatureB64 : Str}
    {includeX509Cert : Bool} {signingKey : KeyPair}
    (h : buildSignatureElement signedInfo signatureB64 includeX509Cert signingKey =
      .ok signature) : signature.qname = ds "Signature" := by
  unfold buildSignatureElement at h
  dsimp only at h
  split at h
  · split at h
    · obtain rfl := Except.ok.inj h
      rfl
    · cases h
  · obtain rfl := Except.ok.inj h
    rfl

/-- `sign_detached_query`. -/
def signDetachedQuery (canonicalQueryString : Octets) (signingKey : KeyPair)
    (signatureAlgorithm : SignatureAlgorithm) : Result Octets :=
  signingKey.sign crypto signatureAlgorithm canonicalQueryString

end Saml.Dsig
