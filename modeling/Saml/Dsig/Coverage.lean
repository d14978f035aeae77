import Saml.Dsig.Verify

/-!
# What a verified signature covers

A successful verification comes with its evidence: the referenced element, the
octets whose digest the reference carries, and the certificate that verifies
the canonical `ds:SignedInfo`.
-/

namespace Saml.Dsig

open Xml Crypto

/-- The evidence of one verified signature. -/
structure Coverage (crypto : Primitives) (document : Document) (signature : Element)
    (candidateCerts : List X509Certificate) (policy : PeerCryptoPolicy) where
  signedInfo : Element
  reference : Element
  parsed : ParsedReference
  target : Element
  octets : Octets
  chain : List Element
  c14nAlgorithm : C14nAlgorithm
  signedInfoOctets : Octets
  signatureOctets : Octets
  algorithm : SignatureAlgorithm
  trusted : X509Certificate
  cert : X509Certificate
  signedInfo_eq : signature.childElement (some DS_NS) "SignedInfo" = some signedInfo
  single : signedInfo.allChildElements (some DS_NS) "Reference" = [reference]
  parse : parseReference document reference policy.allowedDigestAlgorithms
    policy.allowedC14nAlgorithms = .ok parsed
  resolves : document.element parsed.target = some target
  covers : referenceOctets document parsed signature.id = .ok octets
  digest : crypto.digest parsed.digestAlgorithm octets = parsed.digestValue
  chain_eq : ancestorChain document signedInfo.id = some chain
  c14n_allowed : c14nAlgorithm ∈ policy.allowedC14nAlgorithms
  canonical : C14n.canonicalize signedInfo chain c14nAlgorithm [] = .ok signedInfoOctets
  algorithm_allowed : algorithm ∈ policy.allowedSignatureAlgorithms
  trusted_mem : trusted ∈ candidateCerts
  pinned : cert.fingerprintSha256 crypto = trusted.fingerprintSha256 crypto
  verifies : cert.publicKey.verifySignature crypto algorithm signedInfoOctets signatureOctets = true

variable {crypto : Primitives}

theorem singleReference_ok {signedInfo reference : Element}
    (h : singleReference signedInfo = .ok reference) :
    signedInfo.allChildElements (some DS_NS) "Reference" = [reference] := by
  unfold singleReference at h
  split at h
  · cases h
  · rename_i heq
    rw [heq, Except.ok.inj h]
  · cases h

theorem parseC14nMethod_ok {signedInfo : Element} {allowed : List C14nAlgorithm}
    {algorithm : C14nAlgorithm} (h : parseC14nMethod signedInfo allowed = .ok algorithm) :
    algorithm ∈ allowed := by
  obtain ⟨elem, _, h⟩ := bind_eq_ok_iff.mp h
  obtain ⟨uri, _, h⟩ := bind_eq_ok_iff.mp h
  obtain ⟨parsed, _, h⟩ := bind_eq_ok_iff.mp h
  obtain ⟨hallowed, h⟩ := ite_error_eq_ok_iff.mp h
  exact Except.ok.inj h ▸ not_not.mp hallowed

/-- The target of a reference is what its URI resolves to. -/
theorem parseReference_target {document : Document} {reference : Element}
    {digests : List DigestAlgorithm} {c14ns : List C14nAlgorithm} {parsed : ParsedReference}
    (h : parseReference document reference digests c14ns = .ok parsed) :
    resolveUri document ((reference.attr none "URI").getD []) = .ok parsed.target := by
  obtain ⟨target, htarget, h⟩ := bind_eq_ok_iff.mp h
  obtain ⟨transforms, _, h⟩ := bind_eq_ok_iff.mp h
  obtain ⟨_, _, h⟩ := bind_eq_ok_iff.mp h
  obtain ⟨_, h⟩ := ite_error_eq_ok_iff.mp h
  obtain ⟨_, _, h⟩ := bind_eq_ok_iff.mp h
  obtain ⟨_, _, h⟩ := bind_eq_ok_iff.mp h
  obtain ⟨_, _, h⟩ := bind_eq_ok_iff.mp h
  obtain ⟨_, h⟩ := ite_error_eq_ok_iff.mp h
  obtain ⟨_, _, h⟩ := bind_eq_ok_iff.mp h
  obtain ⟨_, _, h⟩ := bind_eq_ok_iff.mp h
  obtain rfl := Except.ok.inj h
  exact htarget

/-- The element a reference resolves to is the one its octets are taken from. -/
theorem referenceOctets_ok {document : Document} {parsed : ParsedReference}
    {enclosing : ElementId} {octets : Octets}
    (h : referenceOctets document parsed enclosing = .ok octets) :
    ∃ target chain, document.element parsed.target = some target ∧
      ancestorChain document parsed.target = some chain ∧
      C14n.canonicalize
        (if .envelopedSignature ∈ parsed.transforms then cloneExcludingId enclosing target
          else target) chain parsed.c14nAlgorithm parsed.inclusiveNamespacePrefixes =
        .ok octets := by
  obtain ⟨target, htarget, h⟩ := bind_eq_ok_iff.mp h
  obtain ⟨chain, hchain, h⟩ := bind_eq_ok_iff.mp h
  exact ⟨target, chain, okOr_eq_ok_iff.mp htarget, okOr_eq_ok_iff.mp hchain, h⟩

/-- Candidates taken from a larger set verify under it as well. -/
def Coverage.mono {document : Document} {signature : Element} {certs more : List X509Certificate}
    {policy : PeerCryptoPolicy} (coverage : Coverage crypto document signature certs policy)
    (subset : ∀ cert ∈ certs, cert ∈ more) : Coverage crypto document signature more policy :=
  { coverage with trusted_mem := subset _ coverage.trusted_mem }

/-- What a successful verification means. -/
theorem verifySignature_ok {document : Document} {signature : Element}
    {candidateCerts : List X509Certificate} {policy : PeerCryptoPolicy}
    {verified : VerifiedSignature}
    (h : verifySignature crypto document signature candidateCerts policy = .ok verified) :
    ∃ coverage : Coverage crypto document signature candidateCerts policy,
      coverage.parsed.target = verified.signedElement ∧
      coverage.cert.fingerprintSha256 crypto = verified.verifyingCertFingerprint := by
  obtain ⟨signedInfo, hsigned, h⟩ := bind_eq_ok_iff.mp h
  obtain ⟨c14nAlg, hc14n, h⟩ := bind_eq_ok_iff.mp h
  obtain ⟨sigAlg, _, h⟩ := bind_eq_ok_iff.mp h
  obtain ⟨reference, href, h⟩ := bind_eq_ok_iff.mp h
  obtain ⟨parsed, hparsed, h⟩ := bind_eq_ok_iff.mp h
  obtain ⟨computed, hcomputed, h⟩ := bind_eq_ok_iff.mp h
  obtain ⟨hdigest, h⟩ := ite_error_eq_ok_iff.mp h
  obtain ⟨chain, hchain, h⟩ := bind_eq_ok_iff.mp h
  obtain ⟨signedInfoOctets, hcanonical, h⟩ := bind_eq_ok_iff.mp h
  obtain ⟨valueElem, _, h⟩ := bind_eq_ok_iff.mp h
  obtain ⟨signatureOctets, _, h⟩ := bind_eq_ok_iff.mp h
  obtain ⟨vmatch, hverify, h⟩ := bind_eq_ok_iff.mp h
  obtain rfl := Except.ok.inj h
  obtain ⟨hallowed, _, trusted, htrusted, cert, hpinned, hcert, hverifies⟩ :=
    verify_ok crypto hverify
  unfold computeReferenceDigest at hcomputed
  cases hoctets : referenceOctets document parsed signature.id with
  | error err => rw [hoctets] at hcomputed; cases hcomputed
  | ok octets =>
      rw [hoctets] at hcomputed
      have hdig : crypto.digest parsed.digestAlgorithm octets = parsed.digestValue := by
        rw [← not_not.mp hdigest]
        exact Except.ok.inj hcomputed
      obtain ⟨target, _, htarget, _, _⟩ := referenceOctets_ok hoctets
      exact ⟨{
        signedInfo := signedInfo
        reference := reference
        parsed := parsed
        target := target
        octets := octets
        chain := chain
        c14nAlgorithm := c14nAlg
        signedInfoOctets := signedInfoOctets
        signatureOctets := signatureOctets
        algorithm := sigAlg
        trusted := trusted
        cert := cert
        signedInfo_eq := okOr_eq_ok_iff.mp hsigned
        single := singleReference_ok href
        parse := hparsed
        resolves := htarget
        covers := hoctets
        digest := hdig
        chain_eq := okOr_eq_ok_iff.mp hchain
        c14n_allowed := parseC14nMethod_ok hc14n
        canonical := hcanonical
        algorithm_allowed := hallowed
        trusted_mem := htrusted
        pinned := hcert.trans hpinned.symm
        verifies := hverifies }, rfl, hcert⟩

end Saml.Dsig
