import Saml.Redirect
import Saml.Response.Confirmation
import Saml.Response.Delivered

/-!
# Issued responses are accepted

`issue_response` against `validate_response`: a response that is read by the
service provider it was issued for, in time, is accepted, and the identity that
comes out is the one that went in.
-/

namespace Saml.Response

open Xml Crypto Dsig Xmlenc Time

variable {crypto : Primitives} {qx : QuickXml}

/-- A number of nanoseconds cut down to the millisecond. -/
def cut (n : Int) : Int := n - n % MILLI

theorem nanos_millis (t : SystemTime) : t.millis.nanos = cut t.nanos := rfl

/-- The receiver is the one that the response was issued for. -/
structure Addressed (crypto : Primitives) (input : IssueResponseInputs) (v : ValidateResponse) :
    Prop where
  issuer : v.idp.entityId = Text.trim input.idpEntityId
  audience : v.spEntityId = Text.trim input.sp.entityId
  destination : v.expectedDestination = input.acsEndpoint.url
  request : v.trackerRequestId = input.inResponseTo
  unsolicited : input.inResponseTo = none → v.allowUnsolicited = true
  context : ∀ requested ∈ v.requestedAuthnContext, StandardComparator.evaluate requested
    (Text.trim input.authnContextClassRef.asUri) = .satisfied
  presenter : ∀ cert ∈ input.holderOfKeyCert, ∃ key presenter,
    crypto.fromDer cert.der = some key ∧ v.holderOfKeyCert = some presenter ∧
      presenter.samePublicKeyAs key = true

/-- The response is read while what it says holds, within the tolerance of the
receiver and as far as instants are written. -/
structure Timely (input : IssueResponseInputs) (v : ValidateResponse) : Prop where
  low : (v.now.checkedSub v.clockSkew).isSome = true
  high : (v.now.checkedAdd v.clockSkew).isSome = true
  begun : cut (input.now.nanos - MINUTE.nanos) ≤ v.now.nanos + v.clockSkew.nanos
  assertion : v.now.nanos - v.clockSkew.nanos <
    cut (input.now.nanos + input.assertionLifetime.nanos)
  confirmation : v.now.nanos - v.clockSkew.nanos <
    cut (input.now.nanos + input.subjectConfirmationLifetime.nanos)
  session : ∀ t ∈ input.sessionNotOnOrAfter, v.now.nanos - v.clockSkew.nanos < cut t.nanos

/-- The identity that an issuance stands for. -/
def IssueResponseInputs.identity (input : IssueResponseInputs) (assertionId : Str)
    (notOnOrAfter confirmationEnd : SystemTime) (fingerprint : Octets) : Identity where
  nameId := readNameId input.nameId input.sp.entityId
  sessionIndex := some input.sessionIndex
  authnInstant := input.authnInstant.millis
  sessionNotOnOrAfter := input.sessionNotOnOrAfter.map SystemTime.millis
  subjectConfirmationNotOnOrAfter := confirmationEnd.millis
  authnContextClassRef := some (Text.trim input.authnContextClassRef.asUri)
  attributes := input.attributes
  assertionId := assertionId
  notOnOrAfter := notOnOrAfter.millis
  verifyingCertFingerprint := fingerprint
  isOneTimeUse := false

/-! ## The checks -/

section

variable {input : IssueResponseInputs} {v : ValidateResponse}
  {notBefore notOnOrAfter confirmationEnd : SystemTime}

theorem checkEnvelope_addressed (addressed : Addressed crypto input v)
    {wrapper : Option AssertionWrapper}
    (hparsed : v.parsed = ⟨some input.acsEndpoint.url, input.inResponseTo,
      some (Text.trim input.idpEntityId), STATUS_SUCCESS, none, wrapper⟩) :
    checkEnvelope v = .ok () := by
  have hdestination : ¬ (some input.acsEndpoint.url).any (· ≠ v.expectedDestination) = true := by
    simp [addressed.destination]
  rw [checkEnvelope, hparsed]
  dsimp only
  rw [if_neg hdestination, addressed.issuer, if_neg (not_not_intro rfl),
    if_neg (not_not_intro rfl), addressed.request]
  cases hrequest : input.inResponseTo with
  | none => exact if_pos (addressed.unsolicited hrequest)
  | some request => exact if_pos rfl

/-- The confirmation of an issued assertion counts. -/
theorem confirms_readConfirmation (addressed : Addressed crypto input v)
    (scheduled : Scheduled input notBefore notOnOrAfter confirmationEnd)
    (timely : Timely input v) : Confirms v (readConfirmation crypto input confirmationEnd) where
  recipient := by rw [addressed.destination]; rfl
  notOnOrAfter := by
    refine ⟨confirmationEnd.millis, rfl, ?_⟩
    rw [nanos_millis, scheduled.confirmationEnd]
    exact timely.confirmation
  notBefore t ht := by cases ht
  inResponseTo := addressed.request.symm
  method := by
    cases hcert : input.holderOfKeyCert with
    | none => exact .inl (by simp [readConfirmation, hcert])
    | some cert =>
        obtain ⟨key, presenter, hkey, hpresenter, hsame⟩ := addressed.presenter cert hcert
        refine .inr ⟨by simp [readConfirmation, hcert], presenter, hpresenter, key, ?_, hsame⟩
        simp [readConfirmation, hcert, hkey]

theorem findValidSubjectConfirmation_read (addressed : Addressed crypto input v)
    (scheduled : Scheduled input notBefore notOnOrAfter confirmationEnd) (timely : Timely input v)
    {assertion : ParsedAssertion}
    (hassertion : assertion.subjectConfirmations =
      [readConfirmation crypto input confirmationEnd]) :
    findValidSubjectConfirmation v assertion =
      .ok (readConfirmation crypto input confirmationEnd) := by
  obtain ⟨low, hlow⟩ := Option.isSome_iff_exists.mp timely.low
  obtain ⟨high, hhigh⟩ := Option.isSome_iff_exists.mp timely.high
  have hmem : readConfirmation crypto input confirmationEnd ∈ assertion.subjectConfirmations := by
    rw [hassertion]
    exact List.mem_cons_self
  obtain ⟨found, hfound, -⟩ := exists_findValidSubjectConfirmation hlow hhigh hmem
    (confirms_readConfirmation addressed scheduled timely)
  obtain ⟨hfoundMem, -⟩ := findValidSubjectConfirmation_ok hfound
  rw [hassertion, List.mem_singleton] at hfoundMem
  rw [hfound, hfoundMem]

/-- An issued assertion has no encrypted subject identifier. -/
theorem decryptSubjectEncryptedId_read {assertionId : Str} {instants : IssuanceInstants}
    {signature : Option Element} (hsignature : ∀ s ∈ signature, s.qname = ds "Signature")
    {e : Element}
    (hplain : Xml.plain e = Xml.plain (assertionElement assertionId input instants signature)) :
    decryptSubjectEncryptedId crypto qx e v.decryptionKeys v.peerCryptoPolicy = .ok none := by
  have hsubject : (assertionElement assertionId input instants signature).childElement
      (some SAML_NS) "Subject" = some (subjectElement input instants) := by
    rw [childElement_assertionElement hsignature (by decide)]
    exact find?_hasName_of_eq rfl _
  have hnone : (subjectElement input instants).childElement (some SAML_NS) "EncryptedID" =
      none := by
    rw [ElementOf.childElement, subjectElement, childElements_withElements, childElements_saml,
      List.nil_append, find?_hasName_of_ne (qname_nameIdElement _ _) (by decide),
      find?_hasName_of_ne rfl (by decide), List.find?_nil]
  obtain ⟨subject, hfound, hsame⟩ := exists_childElement_of_plain hplain hsubject
  rw [decryptSubjectEncryptedId, hfound, Option.bind_some,
    childElement_eq_none_of_plain hsame hnone]

/-- The identity that is extracted is the one that the issuance stands for. -/
theorem extractIdentity_read (addressed : Addressed crypto input v) (timely : Timely input v)
    {instants : IssuanceInstants}
    (scheduled : Scheduled input notBefore notOnOrAfter confirmationEnd)
    (read : InstantsRead input instants notBefore notOnOrAfter confirmationEnd)
    {assertionId : Str} {signature : Option Element}
    (hsignature : ∀ s ∈ signature, s.qname = ds "Signature") {located : LocatedAssertion}
    (hplain : Xml.plain located.element =
      Xml.plain (assertionElement assertionId input instants signature)) :
    extractIdentity crypto qx v located = .ok (input.identity assertionId notOnOrAfter
      confirmationEnd located.certFingerprint) := by
  obtain ⟨low, hlow⟩ := Option.isSome_iff_exists.mp timely.low
  obtain ⟨high, hhigh⟩ := Option.isSome_iff_exists.mp timely.high
  have hlowNanos := SystemTime.checkedSub_eq_some_iff.mp hlow
  have hhighNanos := SystemTime.checkedAdd_eq_some_iff.mp hhigh
  have hcontent : readAssertion crypto qx v located.element =
      .ok (readContent crypto assertionId input notBefore notOnOrAfter confirmationEnd) := by
    rw [readAssertion, ← parseAssertion_plain, hplain, parseAssertion_plain,
      parseAssertion_assertionElement read hsignature, ok_bind,
      decryptSubjectEncryptedId_read hsignature hplain, ok_bind]
    rfl
  have hissuer : ¬ (readContent crypto assertionId input notBefore notOnOrAfter
      confirmationEnd).issuer ≠ v.idp.entityId :=
    not_not_intro addressed.issuer.symm
  have hstart : checkNotBefore v (readContent crypto assertionId input notBefore notOnOrAfter
      confirmationEnd).conditions = .ok () := by
    have hle : ¬ notBefore.millis > high := by
      rw [not_lt, SystemTime.le_iff, nanos_millis, scheduled.notBefore, hhighNanos]
      exact timely.begun
    rw [checkNotBefore, readContent]
    dsimp only
    rw [nowPlusSkew, hhigh, okOr_some, ok_bind, if_neg hle]
  have hend : checkNotOnOrAfter v (readContent crypto assertionId input notBefore notOnOrAfter
      confirmationEnd).conditions = .ok notOnOrAfter.millis := by
    have hlt : ¬ notOnOrAfter.millis ≤ low := by
      rw [not_le, SystemTime.lt_iff, nanos_millis, scheduled.notOnOrAfter, hlowNanos]
      exact timely.assertion
    rw [checkNotOnOrAfter, readContent]
    dsimp only
    rw [okOr_some, ok_bind, nowMinusSkew, hlow, okOr_some, ok_bind, if_neg hlt]
  have haudience : checkAudience v (readContent crypto assertionId input notBefore notOnOrAfter
      confirmationEnd).conditions = .ok () := by
    rw [checkAudience, readContent, addressed.audience]
    simp
  have hconfirmation : findValidSubjectConfirmation v (readContent crypto assertionId input
      notBefore notOnOrAfter confirmationEnd) =
      .ok (readConfirmation crypto input confirmationEnd) :=
    findValidSubjectConfirmation_read addressed scheduled timely rfl
  have hcontext : checkRequestedContext v (readContent crypto assertionId input notBefore
      notOnOrAfter confirmationEnd) = .ok () := by
    cases hrequested : v.requestedAuthnContext with
    | none => rw [checkRequestedContext, hrequested]
    | some requested =>
        have hsatisfied := addressed.context requested hrequested
        rw [checkRequestedContext, hrequested, readContent]
        dsimp only
        rw [List.head?_cons, okOr_some, ok_bind, okOr_some, ok_bind, checkAuthnContext,
          hsatisfied]
  have hsession : checkSessionEnd v (input.sessionNotOnOrAfter.map SystemTime.millis) =
      .ok () := by
    have halive : ¬ (input.sessionNotOnOrAfter.map SystemTime.millis).any
        (· ≤ (v.now.checkedSub v.clockSkew).getD v.now) = true := by
      rw [hlow, Option.getD_some, Option.any_eq_true]
      rintro ⟨t, ht, hover⟩
      obtain ⟨u, hu, rfl⟩ := Option.map_eq_some_iff.mp ht
      have hle := SystemTime.le_iff.mp (of_decide_eq_true hover)
      rw [nanos_millis, hlowNanos] at hle
      exact absurd (timely.session u hu) (not_lt.mpr hle)
    rw [checkSessionEnd, if_neg halive]
  rw [extractIdentity, hcontent, ok_bind, if_neg hissuer, hstart, ok_bind, hend, ok_bind,
    haudience, ok_bind, hconfirmation, ok_bind, readConfirmation, okOr_some, ok_bind, hcontext,
    ok_bind]
  dsimp only [readContent, List.head?_cons, Option.bind_some, Option.map_some, Option.getD_some]
  rw [hsession, ok_bind]
  rfl

end

/-! ## The exchange -/

/-- An issued text is accepted by every receiver that it was issued for, that can
verify and open it, and that reads it in time. -/
theorem exists_validateResponse_issuedXml (correct : SignsCorrectly crypto)
    (sealed : EncryptsCorrectly crypto) (lawful : qx.Lawful) {input : IssueResponseInputs}
    {draws : IssueDraws} {xml : Str} (hxml : issuedXml crypto input draws = .ok xml)
    (dated : IssuanceDated input) (exclusive : Exclusive input.signOptions) {limits : XmlLimits}
    {doc : Document} (parsed : Document.parseWithLimits qx (Text.asBytes xml) limits = .ok doc) :
    ∃ response assertionId notOnOrAfter confirmationEnd,
      parseResponse doc = .ok (response, doc.root.id) ∧
      randomXmlId draws.assertionId = .ok assertionId ∧
      notOnOrAfter.nanos = input.now.nanos + input.assertionLifetime.nanos ∧
      confirmationEnd.nanos = input.now.nanos + input.subjectConfirmationLifetime.nanos ∧
      ∀ v : ValidateResponse, v.document = doc → v.parsed = response →
        Addressed crypto input v → Vouches crypto input v →
        (input.shouldEncrypt crypto = true → Opens crypto qx input draws v) → Timely input v →
        ∃ fingerprint, validateResponse crypto qx v =
          .ok (input.identity assertionId notOnOrAfter confirmationEnd fingerprint) := by
  obtain ⟨responseId, assertionId, instants, assertion, wrapped, root, built, assembled, hbuilt,
    hemit⟩ := issuedXml_ok hxml
  obtain ⟨notBefore, notOnOrAfter, confirmationEnd, scheduled, read⟩ :=
    issuanceInstants_read dated assembled.scheduled
  have hwritable : Writable PREFIXES [] root := by
    refine writable_maybeSign (List.Subset.refl _) ?_ assembled.signedResponse
    exact writable_buildResponse (by decide) (by decide) _ _ _ _ _ _ fun child hchild =>
      Option.some.inj hchild ▸ assembled.writable_wrapped
  have hread := ReadBack.of_emitDocument lawful plainPrefixes hwritable hbuilt hemit parsed
  obtain ⟨signature, hsignature, halike⟩ := assembled.exists_responseSignature
  obtain ⟨k, w, nsStack, hwalk, hsame, hparse⟩ :=
    exists_parseResponse hread halike assembled.holdable hsignature read.now
  refine ⟨_, assertionId, notOnOrAfter, confirmationEnd, hparse, assembled.drawnAssertion,
    scheduled.notOnOrAfter, scheduled.confirmationEnd, ?_⟩
  rintro v rfl hparsed addressed vouches opens timely
  obtain ⟨located, hlocated, hplain⟩ := assembled.exists_locateAssertion correct lawful sealed
    exclusive hread vouches opens hwalk hsame (congrArg ParsedResponse.assertion hparsed)
  obtain ⟨inner, hinner, hinnerAlike⟩ := assembled.exists_signature
  refine ⟨located.certFingerprint, ?_⟩
  rw [validateResponse, checkEnvelope_addressed addressed hparsed, ok_bind,
    assembled.enforceSignaturePositions_read hread, ok_bind, hlocated, ok_bind]
  exact extractIdentity_read addressed timely scheduled read hinner
    (hplain.trans (plain_of_alike hinnerAlike))

namespace Sample

theorem encryptsCorrectly : EncryptsCorrectly Transparent.primitives where
  oaep _ _ _ _ _ _ h := h.symm
  cbc _ _ _ _ h := h.symm
  gcm _ _ plaintext ciphertext h := by
    obtain rfl := Option.some.inj h
    simp [Transparent.primitives]

/-- Web functions that take every URL as written. -/
def lenientWeb : Web := { Redirect.Transparent.storedWeb with parseUrl := fun s => some ⟨s⟩ }

/-- The steps of the sample exchange up to the receiver. -/
theorem exchange_issued {text : Str} {input : ValidateResponse} {identity : Identity}
    (h : exchange = .ok (text, input, identity)) :
    (∃ dispatch,
      issueResponse Transparent.primitives lenientWeb issuance (draws 4) = .ok dispatch ∧
      dispatch.responseXml = some (Text.asBytes text)) ∧
    ∃ document parsed rootId, Document.parse Scanning.reader (Text.asBytes text) = .ok document ∧
      parseResponse document = .ok (parsed, rootId) ∧ input = request document parsed := by
  obtain ⟨xml, hxml, h⟩ := bind_eq_ok_iff.mp h
  obtain ⟨document, hdocument, h⟩ := bind_eq_ok_iff.mp h
  obtain ⟨⟨parsed, rootId⟩, hparsed, h⟩ := bind_eq_ok_iff.mp h
  obtain ⟨_, -, h⟩ := bind_eq_ok_iff.mp h
  obtain ⟨hreturn, h⟩ := ite_error_eq_ok_iff.mp h
  obtain ⟨rfl, hinput⟩ := Prod.mk.inj (Except.ok.inj h)
  obtain ⟨rfl, -⟩ := Prod.mk.inj hinput
  have hissued : issueResponse Transparent.primitives lenientWeb issuance (draws 4) =
      .ok (encodeSsoResponse ⟨"acs"⟩ xml none) :=
    bind_eq_ok_iff.mpr ⟨xml, hxml, rfl⟩
  obtain ⟨sent, hsent, hcarried⟩ := issueResponse_responseXml _ hissued
  obtain rfl := Except.ok.inj (hxml.symm.trans hsent)
  rw [Scanning.parse_asBytes hreturn]
  exact ⟨⟨_, hissued, hcarried⟩, document, parsed, rootId, hdocument, hparsed, rfl⟩

theorem dated_issuance : IssuanceDated issuance :=
  ⟨by decide, by decide, by decide, fun t ht => by cases ht⟩

theorem addressed_request (document : Document) (parsed : ParsedResponse) :
    Addressed Transparent.primitives issuance (request document parsed) where
  issuer := rfl
  audience := rfl
  destination := rfl
  request := rfl
  unsolicited h := by cases h
  context requested h := by cases h
  presenter cert h := by cases h

theorem allowed_issuance : PolicyAllows .strongDefaults issuance.signOptions :=
  ⟨by decide, by decide, by decide⟩

theorem vouches_request (document : Document) (parsed : ParsedResponse) :
    Vouches Transparent.primitives issuance (request document parsed) where
  some_part := .inr rfl
  response h := by cases h
  assertion _ := rfl
  trusts := ⟨⟨cert, List.mem_cons_self, rfl⟩, allowed_issuance⟩

theorem timely_request (document : Document) (parsed : ParsedResponse) :
    Timely issuance (request document parsed) := by
  have hchecked : (now.checkedSub (.ofSecs 60 Duration.minute_lt)).isSome = true ∧
      (now.checkedAdd (.ofSecs 60 Duration.minute_lt)).isSome = true := by
    decide
  have hwindow : cut (now.nanos - MINUTE.nanos) ≤ now.nanos + MINUTE.nanos ∧
      now.nanos - MINUTE.nanos < cut (now.nanos + issuance.assertionLifetime.nanos) := by
    decide
  exact ⟨hchecked.1, hchecked.2, hwindow.1, hwindow.2, hwindow.2, fun t ht => by cases ht⟩

end Sample

end Saml.Response
