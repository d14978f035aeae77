import Saml.Response.Issue
import Saml.Response.Located

/-!
# Acceptance of a response

What an accepted response satisfies. Each lemma reads the success of one check
as the rule it decides; the acceptance theorem assembles them.
-/

namespace Saml.Response

open Xml Crypto Dsig

variable {crypto : Primitives} {qx : QuickXml}

/-- The rules of a subject confirmation, with those of its method. -/
structure Confirms (input : ValidateResponse) (sc : SubjectConfirmation) : Prop where
  recipient : sc.recipient = some input.expectedDestination
  notOnOrAfter : ∃ t, sc.notOnOrAfter = some t ∧
    input.now.nanos - input.clockSkew.nanos < t.nanos
  notBefore : ∀ t, sc.notBefore = some t → t.nanos ≤ input.now.nanos + input.clockSkew.nanos
  inResponseTo : sc.inResponseTo = input.trackerRequestId
  method : sc.method = SUBJECT_CONFIRMATION_BEARER ∨
    sc.method = SUBJECT_CONFIRMATION_HOLDER_OF_KEY ∧
      ∃ presenter, input.holderOfKeyCert = some presenter ∧
        ∃ cert ∈ sc.keyInfoCerts, presenter.samePublicKeyAs cert = true

/-- The rules of the envelope. -/
structure EnvelopeAccepted (input : ValidateResponse) : Prop where
  status : input.parsed.statusCode = STATUS_SUCCESS
  issuer : input.parsed.issuer = some input.idp.entityId
  destination : ∀ dest, input.parsed.destination = some dest → dest = input.expectedDestination
  inResponseTo : input.parsed.inResponseTo = input.trackerRequestId
  unsolicited : input.trackerRequestId = none → input.allowUnsolicited = true

/-- The rules of the assertion an identity is extracted from. -/
structure AssertionAccepted (input : ValidateResponse) (assertion : ParsedAssertion)
    (identity : Identity) : Prop where
  issuer : assertion.issuer = input.idp.entityId
  notBefore : ∀ t, assertion.conditions.notBefore = some t →
    t.nanos ≤ input.now.nanos + input.clockSkew.nanos
  notOnOrAfter : assertion.conditions.notOnOrAfter = some identity.notOnOrAfter ∧
    input.now.nanos - input.clockSkew.nanos < identity.notOnOrAfter.nanos
  restricted : assertion.conditions.audienceRestrictions ≠ []
  audience : ∀ restriction ∈ assertion.conditions.audienceRestrictions,
    input.spEntityId ∈ restriction
  confirmation : ∃ sc ∈ assertion.subjectConfirmations, Confirms input sc ∧
    sc.notOnOrAfter = some identity.subjectConfirmationNotOnOrAfter
  sessionIndex : identity.sessionIndex =
    assertion.authnStatements.head?.bind ParsedAuthnStatement.sessionIndex
  authnInstant : identity.authnInstant =
    (assertion.authnStatements.head?.map ParsedAuthnStatement.authnInstant).getD
      assertion.issueInstant
  sessionNotOnOrAfter : identity.sessionNotOnOrAfter =
    assertion.authnStatements.head?.bind ParsedAuthnStatement.sessionNotOnOrAfter
  sessionAlive : ∀ t, identity.sessionNotOnOrAfter = some t →
    input.now.nanos - input.clockSkew.nanos < t.nanos
  authnContextClassRef : identity.authnContextClassRef =
    assertion.authnStatements.head?.bind ParsedAuthnStatement.authnContextClassRef
  requestedContext : ∀ requested, input.requestedAuthnContext = some requested →
    ∃ actual, identity.authnContextClassRef = some actual ∧
      StandardComparator.evaluate requested actual = .satisfied
  nameId : identity.nameId = assertion.subjectNameId
  attributes : identity.attributes = assertion.attributes
  assertionId : identity.assertionId = assertion.id
  oneTimeUse : identity.isOneTimeUse = assertion.conditions.oneTimeUse

/-! ## One lemma per check -/

theorem checkInResponseTo_ok {tracker inResponseTo : Option Str} {allow : Bool}
    (h : checkInResponseTo tracker inResponseTo allow = .ok ()) :
    inResponseTo = tracker ∧ (tracker = none → allow = true) := by
  cases tracker with
  | some request =>
      cases inResponseTo with
      | some answered =>
          rw [checkInResponseTo] at h
          by_cases heq : request = answered
          · exact ⟨by rw [heq], by simp⟩
          · rw [if_neg heq] at h
            cases h
      | none => cases h
  | none =>
      cases inResponseTo with
      | some answered => cases h
      | none =>
          rw [checkInResponseTo] at h
          cases allow with
          | true => exact ⟨rfl, fun _ => rfl⟩
          | false => cases h

theorem checkEnvelope_ok {input : ValidateResponse} (h : checkEnvelope input = .ok ()) :
    EnvelopeAccepted input := by
  obtain ⟨hdest, h⟩ := ite_error_eq_ok_iff.mp h
  obtain ⟨hissuer, h⟩ := ite_error_eq_ok_iff.mp h
  obtain ⟨hstatus, h⟩ := ite_error_eq_ok_iff.mp h
  obtain ⟨hinResponseTo, hunsolicited⟩ := checkInResponseTo_ok h
  refine ⟨not_not.mp hstatus, not_not.mp hissuer, ?_, hinResponseTo, hunsolicited⟩
  intro dest heq
  rw [heq] at hdest
  simpa using hdest

theorem nowPlusSkew_ok {input : ValidateResponse} {t : SystemTime}
    (h : nowPlusSkew input = .ok t) : t.nanos = input.now.nanos + input.clockSkew.nanos :=
  SystemTime.checkedAdd_eq_some_iff.mp (okOr_eq_ok_iff.mp h)

theorem nowMinusSkew_ok {input : ValidateResponse} {t : SystemTime}
    (h : nowMinusSkew input = .ok t) : t.nanos = input.now.nanos - input.clockSkew.nanos :=
  SystemTime.checkedSub_eq_some_iff.mp (okOr_eq_ok_iff.mp h)

theorem checkNotBefore_ok {input : ValidateResponse} {conditions : Conditions}
    (h : checkNotBefore input conditions = .ok ()) (t : SystemTime)
    (ht : conditions.notBefore = some t) :
    t.nanos ≤ input.now.nanos + input.clockSkew.nanos := by
  rw [checkNotBefore, ht] at h
  obtain ⟨bound, hbound, h⟩ := bind_eq_ok_iff.mp h
  obtain ⟨hle, _⟩ := ite_error_eq_ok_iff.mp h
  rw [← nowPlusSkew_ok hbound]
  exact SystemTime.le_iff.mp (not_lt.mp hle)

theorem checkNotOnOrAfter_ok {input : ValidateResponse} {conditions : Conditions}
    {t : SystemTime} (h : checkNotOnOrAfter input conditions = .ok t) :
    conditions.notOnOrAfter = some t ∧ input.now.nanos - input.clockSkew.nanos < t.nanos := by
  obtain ⟨found, hfound, h⟩ := bind_eq_ok_iff.mp h
  obtain ⟨bound, hbound, h⟩ := bind_eq_ok_iff.mp h
  obtain ⟨hlt, h⟩ := ite_error_eq_ok_iff.mp h
  obtain rfl := Except.ok.inj h
  refine ⟨okOr_eq_ok_iff.mp hfound, ?_⟩
  rw [← nowMinusSkew_ok hbound]
  exact SystemTime.lt_iff.mp (not_le.mp hlt)

theorem checkAudience_ok {input : ValidateResponse} {conditions : Conditions}
    (h : checkAudience input conditions = .ok ()) :
    conditions.audienceRestrictions ≠ [] ∧
      ∀ restriction ∈ conditions.audienceRestrictions, input.spEntityId ∈ restriction := by
  obtain ⟨hnot, _⟩ := ite_error_eq_ok_iff.mp h
  rw [Bool.or_eq_true, not_or, List.isEmpty_iff] at hnot
  refine ⟨hnot.1, ?_⟩
  intro restriction hmem
  by_contra hout
  refine hnot.2 (List.any_eq_true.mpr ⟨restriction, hmem, ?_⟩)
  simp only [Bool.not_eq_true', List.any_eq_false, decide_eq_true_eq]
  rintro audience haudience rfl
  exact hout haudience

theorem checkConfirmationInResponseTo_ok {tracker inResponseTo : Option Str}
    (h : checkConfirmationInResponseTo tracker inResponseTo = .ok ()) :
    inResponseTo = tracker := by
  cases tracker with
  | some request =>
      cases inResponseTo with
      | some answered =>
          rw [checkConfirmationInResponseTo] at h
          by_cases heq : request = answered
          · rw [heq]
          · rw [if_neg heq] at h
            cases h
      | none => cases h
  | none =>
      cases inResponseTo with
      | some answered => cases h
      | none => rfl

theorem checkHolderOfKey_ok {presenter : Option X509Certificate} {sc : SubjectConfirmation}
    (h : checkHolderOfKey presenter sc = .ok ())
    (method : sc.method = SUBJECT_CONFIRMATION_HOLDER_OF_KEY) :
    ∃ cert, presenter = some cert ∧
      ∃ key ∈ sc.keyInfoCerts, cert.samePublicKeyAs key = true := by
  unfold checkHolderOfKey at h
  rw [if_neg (not_not.mpr method)] at h
  cases presenter with
  | none => cases h
  | some cert =>
      obtain ⟨_, h⟩ := ite_error_eq_ok_iff.mp h
      obtain ⟨hmatch, _⟩ := ite_error_eq_ok_iff.mp h
      rw [Bool.not_eq_true', Bool.not_eq_false, List.any_eq_true] at hmatch
      exact ⟨cert, rfl, hmatch⟩

theorem firstConfirmed_ok {check : SubjectConfirmation → Result Unit} {lastErr : Option Error}
    {candidates : List SubjectConfirmation} {sc : SubjectConfirmation}
    (h : firstConfirmed check lastErr candidates = .ok sc) :
    sc ∈ candidates ∧ check sc = .ok () := by
  induction candidates generalizing lastErr with
  | nil => cases h
  | cons first rest ih =>
      rw [firstConfirmed] at h
      cases hcheck : check first with
      | ok u =>
          rw [hcheck] at h
          obtain rfl : first = sc := Except.ok.inj h
          exact ⟨List.mem_cons_self, hcheck⟩
      | error err =>
          rw [hcheck] at h
          obtain ⟨hmem, hsc⟩ := ih h
          exact ⟨List.mem_cons_of_mem first hmem, hsc⟩

/-- A candidate is a confirmation of the assertion with a usable method. -/
theorem mem_confirmationCandidates {input : ValidateResponse} {assertion : ParsedAssertion}
    {sc : SubjectConfirmation} (h : sc ∈ confirmationCandidates input assertion) :
    sc ∈ assertion.subjectConfirmations ∧
      (sc.method = SUBJECT_CONFIRMATION_BEARER ∨
        sc.method = SUBJECT_CONFIRMATION_HOLDER_OF_KEY) := by
  simp only [confirmationCandidates, List.mem_append, List.mem_filter, Bool.or_eq_true,
    Bool.and_eq_true, isBearer, decide_eq_true_eq] at h
  rcases h with ⟨⟨hmem, husable⟩, _⟩ | ⟨⟨hmem, husable⟩, _⟩
  · exact ⟨hmem, husable.imp_right And.right⟩
  · exact ⟨hmem, husable.imp_right And.right⟩

theorem findValidSubjectConfirmation_ok {input : ValidateResponse} {assertion : ParsedAssertion}
    {sc : SubjectConfirmation} (h : findValidSubjectConfirmation input assertion = .ok sc) :
    sc ∈ assertion.subjectConfirmations ∧ Confirms input sc := by
  unfold findValidSubjectConfirmation at h
  dsimp only at h
  split at h
  · split at h <;> cases h
  · obtain ⟨low, hlow, h⟩ := bind_eq_ok_iff.mp h
    obtain ⟨high, hhigh, h⟩ := bind_eq_ok_iff.mp h
    obtain ⟨hmem, hcheck⟩ := firstConfirmed_ok h
    obtain ⟨hin, hmethod⟩ := mem_confirmationCandidates hmem
    obtain ⟨hrecipient, hcheck⟩ := ite_error_eq_ok_iff.mp hcheck
    obtain ⟨hend, hcheck⟩ := ite_error_eq_ok_iff.mp hcheck
    obtain ⟨hstart, hcheck⟩ := ite_error_eq_ok_iff.mp hcheck
    obtain ⟨_, hinResponseTo, hcheck⟩ := bind_eq_ok_iff.mp hcheck
    refine ⟨hin, not_not.mp hrecipient, ?_, ?_, checkConfirmationInResponseTo_ok hinResponseTo,
      hmethod.imp_right fun hm => ⟨hm, checkHolderOfKey_ok hcheck hm⟩⟩
    · rw [Bool.not_eq_true', Bool.not_eq_false, Option.any_eq_true] at hend
      obtain ⟨t, ht, hlt⟩ := hend
      refine ⟨t, ht, ?_⟩
      rw [← nowMinusSkew_ok hlow]
      exact SystemTime.lt_iff.mp (of_decide_eq_true hlt)
    · intro t ht
      rw [ht] at hstart
      have hle : ¬ t > high := by simpa using hstart
      rw [← nowPlusSkew_ok hhigh]
      exact SystemTime.le_iff.mp (not_lt.mp hle)

theorem checkRequestedContext_ok {input : ValidateResponse} {assertion : ParsedAssertion}
    (h : checkRequestedContext input assertion = .ok ()) (requested : RequestedAuthnContext)
    (hrequested : input.requestedAuthnContext = some requested) :
    ∃ actual, assertion.authnStatements.head?.bind ParsedAuthnStatement.authnContextClassRef =
        some actual ∧ StandardComparator.evaluate requested actual = .satisfied := by
  rw [checkRequestedContext, hrequested] at h
  obtain ⟨first, hfirst, h⟩ := bind_eq_ok_iff.mp h
  obtain ⟨actual, hactual, h⟩ := bind_eq_ok_iff.mp h
  refine ⟨actual, ?_, ?_⟩
  · rw [okOr_eq_ok_iff.mp hfirst]
    exact okOr_eq_ok_iff.mp hactual
  · unfold checkAuthnContext at h
    split at h
    · assumption
    · cases h
    · cases h

theorem checkSessionEnd_ok {input : ValidateResponse} {sessionEnd : Option SystemTime}
    {low : SystemTime} (hlow : nowMinusSkew input = .ok low)
    (h : checkSessionEnd input sessionEnd = .ok ()) (t : SystemTime)
    (ht : sessionEnd = some t) : input.now.nanos - input.clockSkew.nanos < t.nanos := by
  obtain ⟨hnot, _⟩ := ite_error_eq_ok_iff.mp h
  rw [ht, okOr_eq_ok_iff.mp hlow] at hnot
  have hlt : ¬ t ≤ low := by simpa using hnot
  rw [← nowMinusSkew_ok hlow]
  exact SystemTime.lt_iff.mp (not_le.mp hlt)

/-- What the extraction of an identity checks and copies. -/
theorem extractIdentity_ok {input : ValidateResponse} {located : LocatedAssertion}
    {identity : Identity} (h : extractIdentity crypto qx input located = .ok identity) :
    identity.verifyingCertFingerprint = located.certFingerprint ∧
      ∃ assertion, readAssertion crypto qx input located.element = .ok assertion ∧
        AssertionAccepted input assertion identity := by
  obtain ⟨assertion, hread, h⟩ := bind_eq_ok_iff.mp h
  obtain ⟨hissuer, h⟩ := ite_error_eq_ok_iff.mp h
  obtain ⟨_, hnotBefore, h⟩ := bind_eq_ok_iff.mp h
  obtain ⟨notOnOrAfter, hnotOnOrAfter, h⟩ := bind_eq_ok_iff.mp h
  obtain ⟨_, haudience, h⟩ := bind_eq_ok_iff.mp h
  obtain ⟨sc, hsc, h⟩ := bind_eq_ok_iff.mp h
  obtain ⟨scEnd, hscEnd, h⟩ := bind_eq_ok_iff.mp h
  obtain ⟨_, hcontext, h⟩ := bind_eq_ok_iff.mp h
  obtain ⟨_, hsession, h⟩ := bind_eq_ok_iff.mp h
  obtain rfl := Except.ok.inj h
  obtain ⟨hrestricted, hadmits⟩ := checkAudience_ok haudience
  obtain ⟨hmem, hconfirms⟩ := findValidSubjectConfirmation_ok hsc
  obtain ⟨_, _, hwindow⟩ := bind_eq_ok_iff.mp hnotOnOrAfter
  obtain ⟨low, hlow, _⟩ := bind_eq_ok_iff.mp hwindow
  exact ⟨rfl, assertion, hread, {
    issuer := not_not.mp hissuer
    notBefore := checkNotBefore_ok hnotBefore
    notOnOrAfter := checkNotOnOrAfter_ok hnotOnOrAfter
    restricted := hrestricted
    audience := hadmits
    confirmation := ⟨sc, hmem, hconfirms, okOr_eq_ok_iff.mp hscEnd⟩
    sessionIndex := rfl
    authnInstant := rfl
    sessionNotOnOrAfter := rfl
    sessionAlive := checkSessionEnd_ok hlow hsession
    authnContextClassRef := rfl
    requestedContext := checkRequestedContext_ok hcontext
    nameId := rfl
    attributes := rfl
    assertionId := rfl
    oneTimeUse := rfl }⟩

/-- The steps behind an accepted response. -/
theorem validateResponse_ok {input : ValidateResponse} {identity : Identity}
    (h : validateResponse crypto qx input = .ok identity) :
    EnvelopeAccepted input ∧ enforceSignaturePositions input.document = .ok () ∧
      ∃ located, locateAssertion crypto qx input = .ok located ∧
        extractIdentity crypto qx input located = .ok identity := by
  obtain ⟨_, henvelope, h⟩ := bind_eq_ok_iff.mp h
  obtain ⟨_, hpositions, h⟩ := bind_eq_ok_iff.mp h
  obtain ⟨located, hlocated, h⟩ := bind_eq_ok_iff.mp h
  exact ⟨checkEnvelope_ok henvelope, hpositions, located, hlocated, h⟩

/-- Acceptance soundness: an accepted response satisfies the rules of its
envelope and of the assertion used, every signature the configuration requires
was verified under a pinned certificate over the response root or over that
assertion, and at least one was. -/
theorem validateResponse_sound {octets : Octets} {input : ValidateResponse} {identity : Identity}
    (parsed : Document.parse qx octets = .ok input.document)
    (accepted : validateResponse crypto qx input = .ok identity) :
    EnvelopeAccepted input ∧
      ∃ located assertion, locateAssertion crypto qx input = .ok located ∧
        readAssertion crypto qx input located.element = .ok assertion ∧
        AssertionAccepted input assertion identity ∧ Vouched crypto input located ∧
        identity.verifyingCertFingerprint = located.certFingerprint := by
  obtain ⟨henvelope, _, located, hlocated, hextract⟩ := validateResponse_ok accepted
  obtain ⟨hfingerprint, assertion, hread, haccepted⟩ := extractIdentity_ok hextract
  obtain ⟨_, hvouched⟩ := locateAssertion_ok (Document.wellIndexed_parse parsed) hlocated
  exact ⟨henvelope, located, assertion, hlocated, hread, haccepted, hvouched, hfingerprint⟩

/-- The sample exchange succeeds and satisfies the rules of acceptance. -/
theorem validateResponse_sound_sample : ∃ text input identity,
    Sample.exchange = .ok (text, input, identity) ∧ EnvelopeAccepted input ∧
      ∃ located assertion,
        locateAssertion Transparent.primitives Scanning.reader input = .ok located ∧
          readAssertion Transparent.primitives Scanning.reader input located.element =
            .ok assertion ∧
          AssertionAccepted input assertion identity ∧
          Vouched Transparent.primitives input located ∧
          identity.verifyingCertFingerprint = located.certFingerprint := by
  obtain ⟨⟨text, input, identity⟩, hexchange⟩ := exists_of_isOk Sample.exchange_isOk
  obtain ⟨hparsed, _, haccepted⟩ := Sample.exchange_ok hexchange
  exact ⟨text, input, identity, hexchange, validateResponse_sound hparsed haccepted⟩

end Saml.Response
