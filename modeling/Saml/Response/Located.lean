import Saml.Dsig.Coverage
import Saml.Response.Validate
import Saml.Xml.WellIndexed

/-!
# What vouches for the located assertion

Each way to locate the assertion of a response comes with where the assertion
was found and with the signatures that were verified over it.
-/

namespace Saml.Response

open Xml Crypto Dsig

variable {crypto : Primitives} {qx : QuickXml}

/-- A signature of the identity provider, a child of the element it covers,
that verifies under a certificate with the given fingerprint. -/
def SignedBy (crypto : Primitives) (document : Document) (idp : IdpDescriptor)
    (policy : PeerCryptoPolicy) (e : Element) (fingerprint : Octets) : Prop :=
  ∃ signature, signatureOf e = some signature ∧
    ∃ coverage : Coverage crypto document signature idp.signingCerts policy,
      coverage.target = e ∧ coverage.cert.fingerprintSha256 crypto = fingerprint

/-- Where the located assertion was found: it is the element the response
names, or the root of the document its encrypted form decrypts to. -/
inductive AssertionSource (crypto : Primitives) (qx : QuickXml) (input : ValidateResponse)
    (located : LocatedAssertion) : Prop where
  | cleartext (id : ElementId) (wrapper : input.parsed.assertion = some (.cleartext id))
      (element : input.document.element id = some located.element)
      (decrypted : located.decryptedDoc = none)
  | encrypted (id : ElementId) (enc cleartext : Element) (doc : Document)
      (wrapper : input.parsed.assertion = some (.encrypted id))
      (element : input.document.element id = some enc)
      (decrypts : Xmlenc.decryptEncryptedAssertion crypto qx enc input.decryptionKeys
        input.peerCryptoPolicy = .ok cleartext)
      (wraps : Document.new cleartext = .ok doc)
      (decrypted : located.decryptedDoc = some doc)
      (root : located.element = doc.root)

/-- The document the located assertion is an element of. -/
def LocatedAssertion.document (located : LocatedAssertion) (input : ValidateResponse) : Document :=
  located.decryptedDoc.getD input.document

/-- The signatures behind a located assertion. -/
structure Vouched (crypto : Primitives) (input : ValidateResponse) (located : LocatedAssertion) :
    Prop where
  response : input.wantResponseSigned = true →
    ∃ fingerprint, SignedBy crypto input.document input.idp input.peerCryptoPolicy
      input.document.root fingerprint
  assertion : input.wantAssertionsSigned = true →
    SignedBy crypto (located.document input) input.idp input.peerCryptoPolicy located.element
      located.certFingerprint
  some_signature :
    SignedBy crypto input.document input.idp input.peerCryptoPolicy input.document.root
        located.certFingerprint ∨
      SignedBy crypto (located.document input) input.idp input.peerCryptoPolicy located.element
        located.certFingerprint

theorem verifyCovering_ok {document : Document} {idp : IdpDescriptor} {policy : PeerCryptoPolicy}
    {covered : ElementId} {mismatch : Str} {signature : Element} {verified : VerifiedSignature}
    (h : verifyCovering crypto document idp policy covered mismatch signature = .ok verified) :
    verifySignature crypto document signature idp.signingCerts policy = .ok verified ∧
      verified.signedElement = covered := by
  obtain ⟨found, hfound, h⟩ := bind_eq_ok_iff.mp h
  obtain ⟨hcovered, h⟩ := ite_error_eq_ok_iff.mp h
  obtain rfl := Except.ok.inj h
  exact ⟨hfound, not_not.mp hcovered⟩

/-- A signature that covers the element it is found in signs that element. -/
theorem signedBy_of_verifyCovering {document : Document} {idp : IdpDescriptor}
    {policy : PeerCryptoPolicy} {covered : ElementId} {mismatch : Str}
    {signature e : Element} {verified : VerifiedSignature}
    (h : verifyCovering crypto document idp policy covered mismatch signature = .ok verified)
    (hsig : signatureOf e = some signature) (he : document.element covered = some e) :
    SignedBy crypto document idp policy e verified.verifyingCertFingerprint := by
  obtain ⟨hverify, rfl⟩ := verifyCovering_ok h
  obtain ⟨coverage, htarget, hfingerprint⟩ := verifySignature_ok hverify
  refine ⟨signature, hsig, coverage, ?_, hfingerprint⟩
  have hresolves := coverage.resolves
  rw [htarget, he] at hresolves
  exact (Option.some.inj hresolves).symm

/-- The cleartext branch: the returned handle is the given one, and the
signatures that were asked for verified. -/
theorem verifyResponseAndOrAssertion_ok {document : Document} (indexed : document.WellIndexed)
    {assertionId id : ElementId} {idp : IdpDescriptor} {policy : PeerCryptoPolicy}
    {wantResponse wantAssertions : Bool} {verified : VerifiedSignature}
    (h : verifyResponseAndOrAssertion crypto document document.root.id assertionId idp policy
      wantResponse wantAssertions = .ok (verified, id)) :
    id = assertionId ∧ ∃ e, document.element assertionId = some e ∧
      (wantResponse = true →
        ∃ fingerprint, SignedBy crypto document idp policy document.root fingerprint) ∧
      (wantAssertions = true →
        SignedBy crypto document idp policy e verified.verifyingCertFingerprint) ∧
      (SignedBy crypto document idp policy document.root verified.verifyingCertFingerprint ∨
        SignedBy crypto document idp policy e verified.verifyingCertFingerprint) := by
  obtain ⟨e, he, h⟩ := bind_eq_ok_iff.mp h
  have helem := okOr_eq_ok_iff.mp he
  have hroot := indexed.element_root
  cases wantResponse with
  | true =>
      rw [if_pos rfl] at h
      obtain ⟨rsig, hrsig, h⟩ := bind_eq_ok_iff.mp h
      obtain ⟨rverified, hrverified, h⟩ := bind_eq_ok_iff.mp h
      have hresponse :=
        signedBy_of_verifyCovering hrverified (okOr_eq_ok_iff.mp hrsig) hroot
      cases wantAssertions with
      | true =>
          rw [if_pos rfl] at h
          obtain ⟨asig, hasig, h⟩ := bind_eq_ok_iff.mp h
          obtain ⟨averified, haverified, h⟩ := bind_eq_ok_iff.mp h
          obtain ⟨rfl, rfl⟩ := Prod.mk.inj (Except.ok.inj h)
          have hassertion :=
            signedBy_of_verifyCovering haverified (okOr_eq_ok_iff.mp hasig) helem
          exact ⟨rfl, e, helem, fun _ => ⟨_, hresponse⟩, fun _ => hassertion, .inr hassertion⟩
      | false =>
          rw [if_neg Bool.false_ne_true] at h
          obtain ⟨rfl, rfl⟩ := Prod.mk.inj (Except.ok.inj h)
          exact ⟨rfl, e, helem, fun _ => ⟨_, hresponse⟩, fun h => absurd h Bool.false_ne_true,
            .inl hresponse⟩
  | false =>
      rw [if_neg Bool.false_ne_true] at h
      cases wantAssertions with
      | true =>
          rw [if_pos rfl] at h
          obtain ⟨asig, hasig, h⟩ := bind_eq_ok_iff.mp h
          obtain ⟨averified, haverified, h⟩ := bind_eq_ok_iff.mp h
          obtain ⟨rfl, rfl⟩ := Prod.mk.inj (Except.ok.inj h)
          have hassertion :=
            signedBy_of_verifyCovering haverified (okOr_eq_ok_iff.mp hasig) helem
          exact ⟨rfl, e, helem, fun h => absurd h Bool.false_ne_true, fun _ => hassertion,
            .inr hassertion⟩
      | false =>
          rw [if_neg Bool.false_ne_true] at h
          cases hrsig : signatureOf document.root with
          | some signature =>
              simp only [hrsig] at h
              obtain ⟨rverified, hrverified, h⟩ := bind_eq_ok_iff.mp h
              obtain ⟨rfl, rfl⟩ := Prod.mk.inj (Except.ok.inj h)
              exact ⟨rfl, e, helem, fun h => absurd h Bool.false_ne_true,
                fun h => absurd h Bool.false_ne_true,
                .inl (signedBy_of_verifyCovering hrverified hrsig hroot)⟩
          | none =>
              simp only [hrsig] at h
              cases hasig : signatureOf e with
              | none => simp [hasig] at h
              | some signature =>
                  simp only [hasig] at h
                  obtain ⟨averified, haverified, h⟩ := bind_eq_ok_iff.mp h
                  obtain ⟨rfl, rfl⟩ := Prod.mk.inj (Except.ok.inj h)
                  exact ⟨rfl, e, helem, fun h => absurd h Bool.false_ne_true,
                    fun h => absurd h Bool.false_ne_true,
                    .inr (signedBy_of_verifyCovering haverified hasig helem)⟩

/-- The response signature around an encrypted assertion. -/
theorem verifyOuterSignature_ok {document : Document} (indexed : document.WellIndexed)
    {idp : IdpDescriptor} {policy : PeerCryptoPolicy} {wantResponse : Bool}
    {outer : Option Octets}
    (h : verifyOuterSignature crypto document document.root.id idp policy wantResponse =
      .ok outer) :
    (wantResponse = true → outer.isSome = true) ∧
      ∀ fingerprint, outer = some fingerprint →
        SignedBy crypto document idp policy document.root fingerprint := by
  unfold verifyOuterSignature at h
  cases hsig : signatureOf document.root with
  | some signature =>
      rw [hsig] at h
      obtain ⟨verified, hverified, h⟩ := bind_eq_ok_iff.mp h
      obtain rfl := Except.ok.inj h
      refine ⟨fun _ => rfl, ?_⟩
      rintro fingerprint hfingerprint
      obtain rfl := Option.some.inj hfingerprint
      exact signedBy_of_verifyCovering hverified hsig indexed.element_root
  | none =>
      rw [hsig] at h
      obtain ⟨hwant, h⟩ := ite_error_eq_ok_iff.mp h
      obtain rfl := Except.ok.inj h
      exact ⟨fun hw => absurd hw hwant, by simp⟩

/-- The signature inside a decrypted assertion covers the whole of it. -/
theorem verifyInner_ok {doc : Document} (indexed : doc.WellIndexed) {idp : IdpDescriptor}
    {policy : PeerCryptoPolicy} {signature : Element} {located : LocatedAssertion}
    (hsig : signatureOf doc.root = some signature)
    (h : verifyInner crypto doc idp policy signature = .ok located) :
    located.element = doc.root ∧ located.decryptedDoc = some doc ∧
      SignedBy crypto doc idp policy doc.root located.certFingerprint := by
  obtain ⟨verified, hverified, h⟩ := bind_eq_ok_iff.mp h
  obtain ⟨resolved, hresolved, h⟩ := bind_eq_ok_iff.mp h
  obtain rfl := Except.ok.inj h
  have hroot := indexed.element_root
  obtain ⟨_, hcovered⟩ := verifyCovering_ok hverified
  have hresolves := okOr_eq_ok_iff.mp hresolved
  rw [hcovered, hroot] at hresolves
  exact ⟨(Option.some.inj hresolves).symm, rfl,
    signedBy_of_verifyCovering hverified hsig hroot⟩

/-- The encrypted branch. -/
theorem handleEncrypted_ok {input : ValidateResponse} (indexed : input.document.WellIndexed)
    {encId : ElementId} (wrapper : input.parsed.assertion = some (.encrypted encId))
    {located : LocatedAssertion}
    (h : handleEncrypted crypto qx input.document input.document.root.id encId input.idp
      input.peerCryptoPolicy input.decryptionKeys input.wantResponseSigned
      input.wantAssertionsSigned = .ok located) :
    AssertionSource crypto qx input located ∧ Vouched crypto input located := by
  obtain ⟨outer, houter, h⟩ := bind_eq_ok_iff.mp h
  obtain ⟨enc, henc, h⟩ := bind_eq_ok_iff.mp h
  obtain ⟨cleartext, hclear, h⟩ := bind_eq_ok_iff.mp h
  obtain ⟨doc, hdoc, h⟩ := bind_eq_ok_iff.mp h
  have hindexed := Document.wellIndexed_new hdoc
  obtain ⟨hwant, hresponse⟩ := verifyOuterSignature_ok indexed houter
  have hrequired : input.wantResponseSigned = true →
      ∃ fingerprint, SignedBy crypto input.document input.idp input.peerCryptoPolicy
        input.document.root fingerprint := by
    intro hw
    obtain ⟨fingerprint, hfp⟩ := Option.isSome_iff_exists.mp (hwant hw)
    exact ⟨fingerprint, hresponse fingerprint hfp⟩
  have source (hroot : located.element = doc.root) (hdecrypted : located.decryptedDoc = some doc) :
      AssertionSource crypto qx input located :=
    .encrypted encId enc cleartext doc wrapper (okOr_eq_ok_iff.mp henc) hclear hdoc hdecrypted hroot
  have inner {signature : Element} (hsig : signatureOf doc.root = some signature)
      (hinner : verifyInner crypto doc input.idp input.peerCryptoPolicy signature = .ok located) :
      AssertionSource crypto qx input located ∧ Vouched crypto input located := by
    obtain ⟨hroot, hdecrypted, hsigned⟩ := verifyInner_ok hindexed hsig hinner
    have hassertion : SignedBy crypto (located.document input) input.idp input.peerCryptoPolicy
        located.element located.certFingerprint := by
      rw [LocatedAssertion.document, hdecrypted, hroot]
      exact hsigned
    exact ⟨source hroot hdecrypted, hrequired, fun _ => hassertion, .inr hassertion⟩
  by_cases hassertions : input.wantAssertionsSigned = true
  · rw [if_pos hassertions] at h
    obtain ⟨signature, hsig, h⟩ := bind_eq_ok_iff.mp h
    exact inner (okOr_eq_ok_iff.mp hsig) h
  · rw [if_neg hassertions] at h
    cases hsig : signatureOf doc.root with
    | some signature =>
        simp only [hsig] at h
        exact inner hsig h
    | none =>
        simp only [hsig] at h
        cases outer with
        | none => cases h
        | some fingerprint =>
            obtain rfl := Except.ok.inj h
            exact ⟨source rfl rfl, hrequired, fun hw => absurd hw hassertions,
              .inl (hresponse fingerprint rfl)⟩

/-- Every located assertion has a source and signatures behind it. -/
theorem locateAssertion_ok {input : ValidateResponse} (indexed : input.document.WellIndexed)
    {located : LocatedAssertion} (h : locateAssertion crypto qx input = .ok located) :
    AssertionSource crypto qx input located ∧ Vouched crypto input located := by
  obtain ⟨wrapper, hwrapper, h⟩ := bind_eq_ok_iff.mp h
  have hassertion := okOr_eq_ok_iff.mp hwrapper
  cases wrapper with
  | cleartext assertionId =>
      obtain ⟨⟨verified, id⟩, hverify, h⟩ := bind_eq_ok_iff.mp h
      obtain ⟨e, he, h⟩ := bind_eq_ok_iff.mp h
      obtain rfl := Except.ok.inj h
      obtain ⟨rfl, found, hfound, hresponse, hassertions, hsome⟩ :=
        verifyResponseAndOrAssertion_ok indexed hverify
      have helem := okOr_eq_ok_iff.mp he
      obtain rfl : found = e := Option.some.inj (hfound.symm.trans helem)
      exact ⟨.cleartext id hassertion helem rfl, hresponse, hassertions, hsome⟩
  | encrypted encId => exact handleEncrypted_ok indexed hassertion h

end Saml.Response
