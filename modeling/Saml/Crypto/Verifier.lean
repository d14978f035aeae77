import Saml.Crypto.Keys

/-!
# Signature verification policy

`crypto::verifier`: the default verifier tries the caller's certificates, then
the inline certificates pinned to one of their fingerprints.
-/

namespace Saml.Crypto

open Dsig

/-- The content of a `ds:KeyInfo`. -/
structure KeyInfo where
  keyName : Option Str
  x509CertificatesBase64 : List Str
  x509SubjectNames : List Str
  x509IssuerSerials : List (Str × Str)

/-- An absent `ds:KeyInfo`. -/
def KeyInfo.default : KeyInfo := ⟨none, [], [], []⟩

/-- A successful verification: the certificate's fingerprint and the algorithm. -/
structure VerifyMatch where
  certFingerprint : Octets
  algorithm : SignatureAlgorithm
deriving DecidableEq

variable (crypto : Primitives)

/-- `KeyInfo::trusted_inline_certs`: the inline certificates that parse and
have a trusted fingerprint. -/
def KeyInfo.trustedInlineCerts (info : KeyInfo) (trustedCandidates : List X509Certificate) :
    List X509Certificate :=
  let trustedFingerprints := trustedCandidates.map (·.fingerprintSha256 crypto)
  info.x509CertificatesBase64.filterMap fun blob =>
    match X509Certificate.fromBase64X509 crypto blob with
    | .ok cert =>
        if cert.fingerprintSha256 crypto ∈ trustedFingerprints then some cert else none
    | .error _ => none

/-- `try_verify`. -/
def tryVerify (algorithm : SignatureAlgorithm) (signedBytes signatureBytes : Octets)
    (cert : X509Certificate) : Bool :=
  cert.publicKey.verifySignature crypto algorithm signedBytes signatureBytes

/-- `DefaultVerifier::verify`. -/
def verify (algorithm : SignatureAlgorithm) (signedBytes signatureBytes : Octets)
    (candidateCerts : List X509Certificate) (allowedAlgorithms : List SignatureAlgorithm)
    (keyInfo : KeyInfo) : Result VerifyMatch :=
  if algorithm ∉ allowedAlgorithms then .error (.disallowedAlgorithm algorithm.uri)
  else
    match (candidateCerts ++ keyInfo.trustedInlineCerts crypto candidateCerts).find?
        (tryVerify crypto algorithm signedBytes signatureBytes) with
    | some cert => .ok ⟨cert.fingerprintSha256 crypto, algorithm⟩
    | none => .error (.signatureVerification "no candidate cert matched")

/-- An inline certificate is tried only under the fingerprint of a candidate. -/
theorem KeyInfo.mem_trustedInlineCerts {info : KeyInfo} {candidates : List X509Certificate}
    {cert : X509Certificate} (h : cert ∈ info.trustedInlineCerts crypto candidates) :
    ∃ trusted ∈ candidates,
      trusted.fingerprintSha256 crypto = cert.fingerprintSha256 crypto := by
  obtain ⟨blob, _, hblob⟩ := List.mem_filterMap.mp h
  cases hparse : X509Certificate.fromBase64X509 crypto blob with
  | error err => simp [hparse] at hblob
  | ok parsed =>
      simp only [hparse, Option.ite_none_right_eq_some, Option.some.injEq] at hblob
      obtain ⟨hmem, rfl⟩ := hblob
      exact List.mem_map.mp hmem

/-- What a successful verification means: the algorithm is allowed and some
certificate with the fingerprint of a candidate verifies the octets. -/
theorem verify_ok {algorithm : SignatureAlgorithm} {signedBytes signatureBytes : Octets}
    {candidateCerts : List X509Certificate} {allowedAlgorithms : List SignatureAlgorithm}
    {keyInfo : KeyInfo} {result : VerifyMatch}
    (h : verify crypto algorithm signedBytes signatureBytes candidateCerts allowedAlgorithms
      keyInfo = .ok result) :
    algorithm ∈ allowedAlgorithms ∧ result.algorithm = algorithm ∧
      ∃ trusted ∈ candidateCerts, ∃ cert : X509Certificate,
        trusted.fingerprintSha256 crypto = result.certFingerprint ∧
        cert.fingerprintSha256 crypto = result.certFingerprint ∧
        cert.publicKey.verifySignature crypto algorithm signedBytes signatureBytes = true := by
  unfold verify at h
  by_cases hallowed : algorithm ∈ allowedAlgorithms
  · rw [if_neg (not_not.mpr hallowed)] at h
    cases hfind : (candidateCerts ++ keyInfo.trustedInlineCerts crypto candidateCerts).find?
        (tryVerify crypto algorithm signedBytes signatureBytes) with
    | none => simp [hfind] at h
    | some cert =>
        simp only [hfind, Except.ok.injEq] at h
        subst h
        have hverifies := List.find?_some hfind
        refine ⟨hallowed, rfl, ?_⟩
        rcases List.mem_append.mp (List.mem_of_find?_eq_some hfind) with hmem | hmem
        · exact ⟨cert, hmem, cert, rfl, rfl, hverifies⟩
        · obtain ⟨trusted, htrusted, heq⟩ := KeyInfo.mem_trustedInlineCerts crypto hmem
          exact ⟨trusted, htrusted, cert, heq, rfl, hverifies⟩
  · rw [if_pos hallowed] at h
    cases h

/-- A candidate that verifies the octets is enough. -/
theorem verify_of_candidate {algorithm : SignatureAlgorithm} {signedBytes signatureBytes : Octets}
    {candidateCerts : List X509Certificate} {allowedAlgorithms : List SignatureAlgorithm}
    {cert : X509Certificate} (keyInfo : KeyInfo) (allowed : algorithm ∈ allowedAlgorithms)
    (candidate : cert ∈ candidateCerts)
    (verifies : cert.publicKey.verifySignature crypto algorithm signedBytes signatureBytes =
      true) :
    ∃ result, verify crypto algorithm signedBytes signatureBytes candidateCerts allowedAlgorithms
      keyInfo = .ok result := by
  unfold verify
  rw [if_neg (not_not.mpr allowed)]
  cases hfind : (candidateCerts ++ keyInfo.trustedInlineCerts crypto candidateCerts).find?
      (tryVerify crypto algorithm signedBytes signatureBytes) with
  | some found => exact ⟨_, rfl⟩
  | none =>
      exact absurd verifies (List.find?_eq_none.mp hfind cert (List.mem_append_left _ candidate))

end Saml.Crypto
