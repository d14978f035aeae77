import Saml.Wire
import Saml.Dsig.Sign
import Saml.Dsig.Verify

/-!
# Signatures of inbound messages

The two placements of a message signature: enveloped below the message root
for HTTP-POST and SOAP, detached in the query string for HTTP-Redirect. Both
roles check either placement in the same way.
-/

namespace Saml

open Xml Crypto Dsig

variable (crypto : Primitives)

/-! ## Enveloped signatures -/

/-- The check of an enveloped signature: one that is present is verified and
has to cover the message root. -/
def verifyEnveloped (required : Bool) (coverageReason : Str) (doc : Document) (root : Element)
    (rootId : ElementId) (candidateCerts : List X509Certificate) (policy : PeerCryptoPolicy) :
    Result Unit :=
  match root.childElement (some DS_NS) "Signature" with
  | none => if required then .error .signatureMissing else .ok ()
  | some sig => do
      let verified ← verifySignature crypto doc sig candidateCerts policy
      if verified.signedElement ≠ rootId then .error (.signatureVerification coverageReason)
      else .ok ()

/-- Some signature below an element verifies and covers the message root. -/
def EnvelopeVerified (doc : Document) (root : Element) (rootId : ElementId)
    (candidateCerts : List X509Certificate) (policy : PeerCryptoPolicy) : Prop :=
  ∃ sig verified, root.childElement (some DS_NS) "Signature" = some sig ∧
    verifySignature crypto doc sig candidateCerts policy = .ok verified ∧
    verified.signedElement = rootId

variable {crypto}

/-- The check succeeds on a verified signature, or without one that is
required. -/
theorem verifyEnveloped_ok_iff {required : Bool} {coverageReason : Str} {doc : Document}
    {root : Element} {rootId : ElementId} {certs : List X509Certificate}
    {policy : PeerCryptoPolicy} :
    verifyEnveloped crypto required coverageReason doc root rootId certs policy = .ok () ↔
      EnvelopeVerified crypto doc root rootId certs policy ∨
        (root.childElement (some DS_NS) "Signature" = none ∧ required = false) := by
  unfold verifyEnveloped EnvelopeVerified
  cases hsig : root.childElement (some DS_NS) "Signature" with
  | none => cases required <;> simp
  | some sig =>
      simp only [bind_eq_ok_iff, ite_error_eq_ok_iff, reduceCtorEq, false_and, or_false,
        not_not, and_true, Option.some.injEq]
      constructor
      · rintro ⟨verified, hverify, hcovers⟩
        exact ⟨sig, verified, rfl, hverify, hcovers⟩
      · rintro ⟨_, verified, rfl, hverify, hcovers⟩
        exact ⟨verified, hverify, hcovers⟩

variable (crypto)

/-! ## Detached signatures -/

/-- The check of a detached signature: one that is present is verified. -/
def verifyRedirectSignature (required : Bool) (detached : Option DetachedSignature)
    (candidateCerts : List X509Certificate) (allowedAlgorithms : List SignatureAlgorithm) :
    Result Unit :=
  match detached with
  | none => if required then .error .signatureMissing else .ok ()
  | some d => do
      let sigAlg ← SignatureAlgorithm.fromUri d.sigAlg
      let _ ← verifyDetachedSignature crypto (Text.asBytes d.rawQueryString) d.signature sigAlg
        candidateCerts allowedAlgorithms
      .ok ()

/-- A detached signature verifies over its query string. -/
def DetachedVerified (d : DetachedSignature) (candidateCerts : List X509Certificate)
    (allowedAlgorithms : List SignatureAlgorithm) : Prop :=
  ∃ sigAlg vmatch, SignatureAlgorithm.fromUri d.sigAlg = .ok sigAlg ∧
    verifyDetachedSignature crypto (Text.asBytes d.rawQueryString) d.signature sigAlg
      candidateCerts allowedAlgorithms = .ok vmatch

variable {crypto}

/-- The check succeeds on a verified signature, or without one that is
required. -/
theorem verifyRedirectSignature_ok_iff {required : Bool} {detached : Option DetachedSignature}
    {certs : List X509Certificate} {allowed : List SignatureAlgorithm} :
    verifyRedirectSignature crypto required detached certs allowed = .ok () ↔
      (∃ d, detached = some d ∧ DetachedVerified crypto d certs allowed) ∨
        (detached = none ∧ required = false) := by
  unfold verifyRedirectSignature DetachedVerified
  cases detached with
  | none => cases required <;> simp
  | some d => simp [bind_eq_ok_iff]

/-- A query signed with a key verifies under a certificate of the key. -/
theorem detachedVerified_of_signed (correct : SignsCorrectly crypto) {key : KeyPair}
    {cert : X509Certificate} {alg : SignatureAlgorithm} {query : Str} {signature : Octets}
    {certs : List X509Certificate} {allowed : List SignatureAlgorithm}
    (hcert : cert ∈ certs) (hkey : cert.publicKey = key.publicKey crypto) (hallowed : alg ∈ allowed)
    (hsign : signDetachedQuery crypto (Text.asBytes query) key alg = .ok signature) :
    DetachedVerified crypto ⟨signature, alg.uri, query⟩ certs allowed := by
  have hverifies := correct key alg (Text.asBytes query) signature hsign
  rw [← hkey] at hverifies
  obtain ⟨vmatch, hverify⟩ :=
    verify_of_candidate crypto KeyInfo.default hallowed hcert hverifies
  refine ⟨alg, vmatch, SignatureAlgorithm.fromUri_uri alg, ?_⟩
  rw [verifyDetachedSignature, if_neg (not_not.mpr hallowed)]
  exact hverify

/-! ## Issuer and destination -/

/-- The issuer of a message has to be the peer. -/
def checkIssuer (expected got : Str) : Result Unit :=
  if got ≠ expected then .error (.issuerMismatch expected (some got)) else .ok ()

theorem checkIssuer_ok_iff {expected got : Str} : checkIssuer expected got = .ok () ↔
    got = expected := by
  unfold checkIssuer
  split <;> simp_all

/-- The receiving endpoint has to be registered, and a message that names its
destination has to name that endpoint. -/
def checkDestination (endpoints : List Endpoint) (unregisteredReason expectedDestination : Str)
    (destination : Option Str) : Result Unit :=
  if !endpoints.any (·.url = expectedDestination) then
    .error (.invalidConfiguration unregisteredReason)
  else if destination.any (· ≠ expectedDestination) then .error .destinationMismatch
  else .ok ()

theorem checkDestination_ok_iff {endpoints : List Endpoint} {reason expected : Str}
    {destination : Option Str} :
    checkDestination endpoints reason expected destination = .ok () ↔
      (∃ e ∈ endpoints, e.url = expected) ∧ ∀ d, destination = some d → d = expected := by
  unfold checkDestination
  rw [ite_error_eq_ok_iff, ite_error_eq_ok_iff]
  cases destination <;> simp

end Saml
