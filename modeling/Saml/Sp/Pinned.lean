import Saml.Replay.SingleUse
import Saml.Response.Soundness
import Saml.Sp.Login

/-!
# The pinned trust roots

Which signatures an accepted response was counted on for, and that each of them
verified under a certificate that the descriptor carries now and that the login
pinned when it began.
-/

namespace Saml

open Xml Crypto Dsig Response Replay

variable {crypto : Primitives} {qx : QuickXml}

/-! ## The signatures counted on -/

namespace Response

/-- The elements whose own signature the outcome was counted on for, with their
document. A cleartext assertion leaves an optional signature of the response
unread when its own is required, and the other way round; around an encrypted
one every signature that is there counts. -/
inductive CountedOn (input : ValidateResponse) (located : LocatedAssertion) :
    Document → Element → Prop
  | response (present : (signatureOf input.document.root).isSome = true)
      (counted : input.wantResponseSigned = true ∨ input.wantAssertionsSigned = false ∨
        located.decryptedDoc.isSome = true) :
      CountedOn input located input.document input.document.root
  | assertion (present : (signatureOf located.element).isSome = true)
      (counted : input.wantAssertionsSigned = true ∨ located.decryptedDoc.isSome = true ∨
        (input.wantResponseSigned = false ∧ signatureOf input.document.root = none)) :
      CountedOn input located (located.document input) located.element

/-- A signature of the pinned roots over an element, under some certificate. -/
def Signed (crypto : Primitives) (document : Document) (idp : IdpDescriptor)
    (policy : PeerCryptoPolicy) (e : Element) : Prop :=
  ∃ fingerprint, SignedBy crypto document idp policy e fingerprint

/-- The cleartext branch without a required signature. -/
theorem signed_of_optional {document : Document} (indexed : document.WellIndexed)
    {assertionId id : ElementId} {idp : IdpDescriptor} {policy : PeerCryptoPolicy}
    {verified : VerifiedSignature} {e : Element} (he : document.element assertionId = some e)
    (h : verifyResponseAndOrAssertion crypto document document.root.id assertionId idp policy
      false false = .ok (verified, id)) :
    ((signatureOf document.root).isSome = true → Signed crypto document idp policy document.root) ∧
      (signatureOf document.root = none → Signed crypto document idp policy e) := by
  obtain ⟨found, hfound, h⟩ := bind_eq_ok_iff.mp h
  obtain rfl := Option.some.inj (he.symm.trans (okOr_eq_ok_iff.mp hfound))
  rw [if_neg Bool.false_ne_true, if_neg Bool.false_ne_true] at h
  cases hroot : signatureOf document.root with
  | some signature =>
    simp only [hroot] at h
    obtain ⟨rverified, hrverified, -⟩ := bind_eq_ok_iff.mp h
    have hsigned := signedBy_of_verifyCovering hrverified hroot indexed.element_root
    exact ⟨fun _ => ⟨_, hsigned⟩, nofun⟩
  | none =>
    simp only [hroot] at h
    cases hassertion : signatureOf e with
    | none => simp [hassertion] at h
    | some signature =>
      simp only [hassertion] at h
      obtain ⟨averified, haverified, -⟩ := bind_eq_ok_iff.mp h
      exact ⟨nofun, fun _ => ⟨_, signedBy_of_verifyCovering haverified hassertion he⟩⟩

/-- A signature of the response around an encrypted assertion is verified. -/
theorem signed_of_outer {document : Document} (indexed : document.WellIndexed)
    {idp : IdpDescriptor} {policy : PeerCryptoPolicy} {wantResponse : Bool}
    {outer : Option Octets}
    (h : verifyOuterSignature crypto document document.root.id idp policy wantResponse =
      .ok outer) (present : (signatureOf document.root).isSome = true) :
    Signed crypto document idp policy document.root := by
  obtain ⟨signature, hsignature⟩ := Option.isSome_iff_exists.mp present
  unfold verifyOuterSignature at h
  rw [hsignature] at h
  obtain ⟨verified, hverified, -⟩ := bind_eq_ok_iff.mp h
  exact ⟨_, signedBy_of_verifyCovering hverified hsignature indexed.element_root⟩

/-- What the encrypted branch leaves: the decrypted document, a verified
signature of the response if it has one, and one of the assertion likewise. -/
theorem handleEncrypted_signed {input : ValidateResponse} (indexed : input.document.WellIndexed)
    {encId : ElementId} {located : LocatedAssertion}
    (h : handleEncrypted crypto qx input.document input.document.root.id encId input.idp
      input.peerCryptoPolicy input.decryptionKeys input.wantResponseSigned
      input.wantAssertionsSigned = .ok located) :
    ((signatureOf input.document.root).isSome = true →
        Signed crypto input.document input.idp input.peerCryptoPolicy input.document.root) ∧
      ((signatureOf located.element).isSome = true →
        Signed crypto (located.document input) input.idp input.peerCryptoPolicy
          located.element) := by
  obtain ⟨outer, houter, h⟩ := bind_eq_ok_iff.mp h
  obtain ⟨enc, henc, h⟩ := bind_eq_ok_iff.mp h
  obtain ⟨cleartext, hclear, h⟩ := bind_eq_ok_iff.mp h
  obtain ⟨doc, hdoc, h⟩ := bind_eq_ok_iff.mp h
  refine ⟨signed_of_outer indexed houter, ?_⟩
  have inner {signature : Element} (hsignature : signatureOf doc.root = some signature)
      (hinner : verifyInner crypto doc input.idp input.peerCryptoPolicy signature = .ok located) :
      Signed crypto (located.document input) input.idp input.peerCryptoPolicy
        located.element := by
    obtain ⟨hroot, hdecrypted, hsigned⟩ :=
      verifyInner_ok (Document.wellIndexed_new hdoc) hsignature hinner
    rw [LocatedAssertion.document, hdecrypted, hroot]
    exact ⟨_, hsigned⟩
  intro present
  split at h
  · obtain ⟨signature, hsignature, h⟩ := bind_eq_ok_iff.mp h
    exact inner (okOr_eq_ok_iff.mp hsignature) h
  · cases hsignature : signatureOf doc.root with
    | some signature =>
      simp only [hsignature] at h
      exact inner hsignature h
    | none =>
      simp only [hsignature] at h
      cases outer with
      | none => cases h
      | some fingerprint =>
        obtain rfl := Except.ok.inj h
        rw [hsignature] at present
        cases present

/-- Every signature counted on verified under the roots of the input. -/
theorem signed_of_countedOn {input : ValidateResponse} (indexed : input.document.WellIndexed)
    {located : LocatedAssertion} (h : locateAssertion crypto qx input = .ok located)
    {document : Document} {e : Element} (hcounted : CountedOn input located document e) :
    Signed crypto document input.idp input.peerCryptoPolicy e := by
  obtain ⟨-, hvouched⟩ := locateAssertion_ok indexed h
  obtain ⟨wrapper, hwrapper, h⟩ := bind_eq_ok_iff.mp h
  cases wrapper with
  | cleartext assertionId =>
    obtain ⟨⟨verified, id⟩, hverify, h⟩ := bind_eq_ok_iff.mp h
    obtain ⟨found, hfound, h⟩ := bind_eq_ok_iff.mp h
    obtain rfl := Except.ok.inj h
    obtain ⟨rfl, -⟩ := verifyResponseAndOrAssertion_ok indexed hverify
    have helement := okOr_eq_ok_iff.mp hfound
    have optional (hresponse : input.wantResponseSigned = false)
        (hassertions : input.wantAssertionsSigned = false) := by
      rw [hresponse, hassertions] at hverify
      exact signed_of_optional indexed helement hverify
    cases hcounted with
    | response present counted =>
      by_cases hresponse : input.wantResponseSigned = true
      · exact hvouched.response hresponse
      · rw [Bool.not_eq_true] at hresponse
        rcases counted with hwant | hassertions | hdecrypted
        · rw [hresponse] at hwant
          cases hwant
        · exact (optional hresponse hassertions).1 present
        · cases hdecrypted
    | assertion present counted =>
      by_cases hassertions : input.wantAssertionsSigned = true
      · exact ⟨_, hvouched.assertion hassertions⟩
      · rw [Bool.not_eq_true] at hassertions
        rcases counted with hwant | hdecrypted | ⟨hresponse, hnone⟩
        · rw [hassertions] at hwant
          cases hwant
        · cases hdecrypted
        · exact (optional hresponse hassertions).2 hnone
  | encrypted encId =>
    obtain ⟨hresponse, hassertion⟩ := handleEncrypted_signed indexed h
    cases hcounted with
    | response present => exact hresponse present
    | assertion present => exact hassertion present

/-- Some signature is counted on. -/
theorem exists_countedOn {input : ValidateResponse} {located : LocatedAssertion}
    (h : Vouched crypto input located) : ∃ document e, CountedOn input located document e := by
  have present {document : Document} {idp : IdpDescriptor} {policy : PeerCryptoPolicy}
      {e : Element} {fingerprint : Octets}
      (hsigned : SignedBy crypto document idp policy e fingerprint) :
      (signatureOf e).isSome = true := by
    obtain ⟨signature, hsignature, -⟩ := hsigned
    rw [hsignature]
    rfl
  by_cases hresponse : input.wantResponseSigned = true
  · obtain ⟨fingerprint, hsigned⟩ := h.response hresponse
    exact ⟨_, _, .response (present hsigned) (.inl hresponse)⟩
  by_cases hassertions : input.wantAssertionsSigned = true
  · exact ⟨_, _, .assertion (present (h.assertion hassertions)) (.inl hassertions)⟩
  rw [Bool.not_eq_true] at hresponse hassertions
  cases hroot : signatureOf input.document.root with
  | some signature => exact ⟨_, _, .response (by rw [hroot]; rfl) (.inr (.inl hassertions))⟩
  | none =>
    rcases h.some_signature with hsigned | hsigned
    · have hsome := present hsigned
      rw [hroot] at hsome
      cases hsome
    · exact ⟨_, _, .assertion (present hsigned) (.inr (.inr ⟨hresponse, hroot⟩))⟩

end Response

/-! ## The roots of a login -/

/-- A fingerprint that a login pinned and that a certificate of the descriptor has. -/
def Pinned (crypto : Primitives) (tracker : LoginTracker) (idp : IdpDescriptor)
    (fingerprint : Octets) : Prop :=
  fingerprint ∈ tracker.idpSigningCertFingerprints ∧
    ∃ cert ∈ idp.signingCerts, cert.fingerprintSha256 crypto = fingerprint

namespace ServiceProvider

variable {sp : ServiceProvider}

/-- What is left of a descriptor is pinned. -/
theorem pinned_of_signedBy {input : ConsumeResponse} {tracker : LoginTracker}
    (solicited : input.tracker = some tracker) {document : Document} {policy : PeerCryptoPolicy}
    {e : Element} {fingerprint : Octets}
    (h : SignedBy crypto document (validationIdp crypto input) policy e fingerprint) :
    Pinned crypto tracker input.idp fingerprint := by
  obtain ⟨signature, -, coverage, -, hfingerprint⟩ := h
  have hcerts : ∀ cert ∈ (validationIdp crypto input).signingCerts, cert ∈ input.idp.signingCerts ∧
      tracker.idpSigningCertFingerprints.contains (cert.fingerprintSha256 crypto) = true := by
    unfold validationIdp
    rw [solicited]
    exact fun cert hcert => List.mem_filter.mp hcert
  obtain ⟨hcurrent, hpinned⟩ := hcerts _ coverage.trusted_mem
  rw [List.contains_iff_mem, ← coverage.pinned, hfingerprint] at hpinned
  exact ⟨hpinned, coverage.trusted, hcurrent, coverage.pinned.symm.trans hfingerprint⟩

/-- The steps behind a consumption that succeeds. -/
theorem consumeResponse_located {input : ConsumeResponse} {entry : Option ReplayEntry}
    {replayError : Error} {cache cache' : Option InMemoryReplayCache} {identity : Identity}
    (accepted : sp.consumeResponseWithReplay crypto qx input entry replayError cache =
      (cache', .ok identity)) :
    ∃ document parsed root located, Document.parse qx input.samlResponse = .ok document ∧
      parseResponse document = .ok (parsed, root) ∧
      locateAssertion crypto qx (sp.validationInput crypto input document parsed) = .ok located ∧
      identity.verifyingCertFingerprint = located.certFingerprint := by
  have hvalid := consumeResponseWithReplay_ok accepted
  obtain ⟨_, -, hvalid⟩ := bind_eq_ok_iff.mp hvalid
  obtain ⟨document, hdocument, hvalid⟩ := bind_eq_ok_iff.mp hvalid
  obtain ⟨⟨parsed, root⟩, hparsed, hvalid⟩ := bind_eq_ok_iff.mp hvalid
  obtain ⟨found, hfound, hvalid⟩ := bind_eq_ok_iff.mp hvalid
  obtain ⟨_, -, hvalid⟩ := bind_eq_ok_iff.mp hvalid
  obtain ⟨_, -, hvalid⟩ := bind_eq_ok_iff.mp hvalid
  obtain rfl := Except.ok.inj hvalid
  obtain ⟨-, -, located, hlocated, hextract⟩ := validateResponse_ok hfound
  obtain ⟨hfingerprint, -⟩ := extractIdentity_ok hextract
  exact ⟨document, parsed, root, located, hdocument, hparsed, hlocated, hfingerprint⟩

theorem mem_of_mem_destutter {fingerprints : List Octets} {fingerprint : Octets}
    (h : fingerprint ∈ fingerprintSet fingerprints) : fingerprint ∈ fingerprints :=
  List.mem_mergeSort.mp ((List.destutter_sublist _ _).subset h)

/-- What a started login pins are certificates of the descriptor it went to. -/
theorem pinned_at_start {web : Web} {idp : IdpDescriptor} {opts : StartLogin}
    {ambient : Logout.Ambient} {started : StartLoginResult}
    (h : sp.startLogin crypto qx web idp opts ambient = .ok started) {fingerprint : Octets}
    (hpinned : fingerprint ∈ started.tracker.idpSigningCertFingerprints) :
    ∃ cert ∈ idp.signingCerts, cert.fingerprintSha256 crypto = fingerprint := by
  obtain ⟨-, h⟩ := ite_error_eq_ok_iff.mp h
  obtain ⟨_, -, h⟩ := bind_eq_ok_iff.mp h
  obtain ⟨_, -, h⟩ := bind_eq_ok_iff.mp h
  obtain ⟨_, -, h⟩ := bind_eq_ok_iff.mp h
  obtain ⟨_, -, h⟩ := bind_eq_ok_iff.mp h
  obtain ⟨-, h⟩ := ite_error_eq_ok_iff.mp h
  obtain ⟨_, -, h⟩ := bind_eq_ok_iff.mp h
  obtain ⟨_, -, h⟩ := bind_eq_ok_iff.mp h
  obtain ⟨_, -, h⟩ := bind_eq_ok_iff.mp h
  obtain rfl := Except.ok.inj h
  exact List.mem_map.mp (mem_of_mem_destutter hpinned)

/-- Every signature that an accepted solicited response was counted on for
verified under a certificate that the login pinned, that the descriptor of the
login carried then and that the current one carries still. -/
theorem consumeResponse_pinned {input : ConsumeResponse} {tracker : LoginTracker}
    (solicited : input.tracker = some tracker) {entry : Option ReplayEntry} {replayError : Error}
    {cache cache' : Option InMemoryReplayCache} {identity : Identity}
    (accepted : sp.consumeResponseWithReplay crypto qx input entry replayError cache =
      (cache', .ok identity)) :
    ∃ document parsed root located, Document.parse qx input.samlResponse = .ok document ∧
      parseResponse document = .ok (parsed, root) ∧
      locateAssertion crypto qx (sp.validationInput crypto input document parsed) = .ok located ∧
      Pinned crypto tracker input.idp identity.verifyingCertFingerprint ∧
      (∃ signed e, CountedOn (sp.validationInput crypto input document parsed) located signed e) ∧
      ∀ signed e, CountedOn (sp.validationInput crypto input document parsed) located signed e →
        ∃ fingerprint, SignedBy crypto signed (validationIdp crypto input)
            (sp.validationInput crypto input document parsed).peerCryptoPolicy e fingerprint ∧
          Pinned crypto tracker input.idp fingerprint ∧
          ∀ (web : Web) (idp : IdpDescriptor) (opts : StartLogin)
            (ambient : Logout.Ambient) (started : StartLoginResult),
            sp.startLogin crypto qx web idp opts ambient = .ok started →
            started.tracker = tracker →
            ∃ cert ∈ idp.signingCerts, cert.fingerprintSha256 crypto = fingerprint := by
  obtain ⟨document, parsed, root, located, hdocument, hparsed, hlocated, hfingerprint⟩ :=
    consumeResponse_located accepted
  have indexed := Document.wellIndexed_parse hdocument
  obtain ⟨-, hvouched⟩ := locateAssertion_ok (by exact indexed) hlocated
  refine ⟨document, parsed, root, located, hdocument, hparsed, hlocated, ?_, ?_, ?_⟩
  · rw [hfingerprint]
    rcases hvouched.some_signature with hsigned | hsigned
    · exact pinned_of_signedBy solicited hsigned
    · exact pinned_of_signedBy solicited hsigned
  · exact exists_countedOn hvouched
  · intro signed e hcounted
    obtain ⟨fingerprint, hsigned⟩ := signed_of_countedOn (by exact indexed) hlocated hcounted
    have hpinned := pinned_of_signedBy solicited hsigned
    refine ⟨fingerprint, hsigned, hpinned, ?_⟩
    rintro web idp opts ambient started hstarted rfl
    exact pinned_at_start hstarted hpinned.1

/-- The sample response is accepted under the roots its login pinned. -/
theorem consumeResponse_pinned_sample : ∃ text cache identity,
    Overtaken.sp.consumeResponseWithReplay Transparent.primitives Scanning.reader
      (Overtaken.input Sample.now text) none .assertionReplay (some (.new 8)) =
        (cache, .ok identity) ∧
    Pinned Transparent.primitives Overtaken.tracker Response.Sample.idp
      identity.verifyingCertFingerprint := by
  obtain ⟨⟨first, second⟩, hreplayed⟩ := exists_of_isOk Overtaken.replayed_isOk
  obtain ⟨a, -, hfirst, -⟩ := Overtaken.replayed_ok hreplayed
  have haccepted : Overtaken.sp.consumeResponseWithReplay Transparent.primitives Scanning.reader
      (Overtaken.input Sample.now first) none .assertionReplay (some (.new 8)) =
        (_, .ok a) := Prod.ext rfl hfirst
  obtain ⟨-, -, -, -, -, -, -, hpinned, -⟩ := consumeResponse_pinned rfl haccepted
  exact ⟨first, _, a, haccepted, hpinned⟩

end ServiceProvider

end Saml
