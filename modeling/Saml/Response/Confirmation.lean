import Saml.Response.Soundness

/-!
# The choice of a subject confirmation

The loop over the confirmations against its set specification: which lists have
one that counts, and that a bearer confirmation is preferred.
-/

namespace Saml.Response

open Crypto

variable {input : ValidateResponse} {low high : SystemTime} {sc : SubjectConfirmation}

/-! ## One confirmation -/

theorem checkHolderOfKey_of {presenter : Option X509Certificate}
    (h : sc.method = SUBJECT_CONFIRMATION_HOLDER_OF_KEY → ∃ cert, presenter = some cert ∧
      ∃ key ∈ sc.keyInfoCerts, cert.samePublicKeyAs key = true) :
    checkHolderOfKey presenter sc = .ok () := by
  unfold checkHolderOfKey
  by_cases hmethod : sc.method = SUBJECT_CONFIRMATION_HOLDER_OF_KEY
  · obtain ⟨cert, rfl, key, hkey, hsame⟩ := h hmethod
    have hcerts : ¬ sc.keyInfoCerts.isEmpty = true := by
      rw [List.isEmpty_iff]
      exact List.ne_nil_of_mem hkey
    have hmatch : sc.keyInfoCerts.any cert.samePublicKeyAs = true :=
      List.any_eq_true.mpr ⟨key, hkey, hsame⟩
    dsimp only
    rw [if_neg (not_not.mpr hmethod), if_neg hcerts, hmatch]
    rfl
  · rw [if_pos hmethod]

/-- Step: a confirmation that follows the rules passes the loop body. -/
theorem checkConfirmation_of_confirms (hlow : input.now.checkedSub input.clockSkew = some low)
    (hhigh : input.now.checkedAdd input.clockSkew = some high) (h : Confirms input sc) :
    checkConfirmation input low high sc = .ok () := by
  have hlowNanos := SystemTime.checkedSub_eq_some_iff.mp hlow
  have hhighNanos := SystemTime.checkedAdd_eq_some_iff.mp hhigh
  obtain ⟨t, ht, hend⟩ := h.notOnOrAfter
  have halive : sc.notOnOrAfter.any (· > low) = true := by
    rw [ht, Option.any_some, decide_eq_true_iff]
    exact SystemTime.lt_iff.mpr (by rw [hlowNanos]; exact hend)
  have hstarted : ¬ sc.notBefore.any (· > high) = true := by
    rw [Option.any_eq_true]
    rintro ⟨nb, hnb, hlater⟩
    have hle := h.notBefore nb hnb
    have hlt := SystemTime.lt_iff.mp (of_decide_eq_true hlater)
    omega
  have hresponse : checkConfirmationInResponseTo input.trackerRequestId sc.inResponseTo =
      .ok () := by
    rw [h.inResponseTo]
    cases input.trackerRequestId with
    | none => rfl
    | some request => exact if_pos rfl
  have hkey : checkHolderOfKey input.holderOfKeyCert sc = .ok () := by
    apply checkHolderOfKey_of
    intro hmethod
    rcases h.method with hbearer | ⟨-, hpresented⟩
    · rw [hbearer] at hmethod
      exact absurd hmethod (by decide)
    · exact hpresented
  rw [checkConfirmation, if_neg (not_not.mpr h.recipient), halive, if_neg (by simp),
    if_neg hstarted, hresponse]
  exact hkey

/-- A confirmation that follows the rules is among the candidates, a bearer one
among the first. -/
theorem mem_candidates_of_confirms {assertion : ParsedAssertion}
    (hmem : sc ∈ assertion.subjectConfirmations) (h : Confirms input sc) :
    sc ∈ confirmationCandidates input assertion := by
  have husable : isBearer sc = true ∨ isBearer sc = false ∧ input.holderOfKeyCert.isSome = true ∧
      sc.method = SUBJECT_CONFIRMATION_HOLDER_OF_KEY := by
    rcases h.method with hbearer | ⟨hmethod, presenter, hpresenter, -⟩
    · exact .inl (decide_eq_true hbearer)
    · refine .inr ⟨decide_eq_false ?_, by rw [hpresenter, Option.isSome_some], hmethod⟩
      rw [hmethod]
      decide
  rw [confirmationCandidates, List.mem_append]
  rcases husable with hbearer | ⟨hbearer, hsome, hmethod⟩
  · left
    simp [hmem, hbearer]
  · right
    simp [hmem, hbearer, hsome, hmethod]

/-! ## The loop -/

variable {check : SubjectConfirmation → Result Unit}

/-- Run: the loop stops no later than at the first confirmation that passes. -/
theorem exists_firstConfirmed {front back : List SubjectConfirmation} (hmem : sc ∈ front)
    (hcheck : check sc = .ok ()) (lastErr : Option Error) :
    ∃ found ∈ front, firstConfirmed check lastErr (front ++ back) = .ok found := by
  induction front generalizing lastErr with
  | nil => cases hmem
  | cons first rest ih =>
      rw [List.cons_append, firstConfirmed]
      cases hfirst : check first with
      | ok u => exact ⟨first, List.mem_cons_self, rfl⟩
      | error err =>
          have hrest : sc ∈ rest := by
            rcases List.mem_cons.mp hmem with rfl | hrest
            · rw [hcheck] at hfirst
              cases hfirst
            · exact hrest
          obtain ⟨found, hfound, hok⟩ := ih hrest (some err)
          exact ⟨found, List.mem_cons_of_mem _ hfound, hok⟩

/-- Where both ends of the tolerance are instants, the loop over the candidates
decides. -/
theorem findValidSubjectConfirmation_eq (hlow : input.now.checkedSub input.clockSkew = some low)
    (hhigh : input.now.checkedAdd input.clockSkew = some high) {assertion : ParsedAssertion}
    (hne : confirmationCandidates input assertion ≠ []) :
    findValidSubjectConfirmation input assertion =
      firstConfirmed (checkConfirmation input low high) none
        (confirmationCandidates input assertion) := by
  have hempty : ¬ (confirmationCandidates input assertion).isEmpty = true := by
    rwa [List.isEmpty_iff]
  unfold findValidSubjectConfirmation
  dsimp only
  rw [if_neg hempty, nowMinusSkew, hlow, nowPlusSkew, hhigh]
  rfl

theorem exists_findValidSubjectConfirmation
    (hlow : input.now.checkedSub input.clockSkew = some low)
    (hhigh : input.now.checkedAdd input.clockSkew = some high) {assertion : ParsedAssertion}
    (hmem : sc ∈ assertion.subjectConfirmations) (h : Confirms input sc) :
    ∃ found, findValidSubjectConfirmation input assertion = .ok found ∧
      (sc.method = SUBJECT_CONFIRMATION_BEARER → found.method = SUBJECT_CONFIRMATION_BEARER) := by
  have hcandidate := mem_candidates_of_confirms hmem h
  have hcheck := checkConfirmation_of_confirms hlow hhigh h
  rw [findValidSubjectConfirmation_eq hlow hhigh (List.ne_nil_of_mem hcandidate)]
  by_cases hbearer : sc.method = SUBJECT_CONFIRMATION_BEARER
  · rw [confirmationCandidates] at hcandidate ⊢
    have hfront : sc ∈ (assertion.subjectConfirmations.filter fun sc => isBearer sc ||
        (input.holderOfKeyCert.isSome &&
          sc.method = SUBJECT_CONFIRMATION_HOLDER_OF_KEY)).filter isBearer := by
      simp [hmem, isBearer, hbearer]
    obtain ⟨found, hfound, hok⟩ := exists_firstConfirmed hfront hcheck none
    exact ⟨found, hok, fun _ => of_decide_eq_true (List.mem_filter.mp hfound).2⟩
  · obtain ⟨found, -, hok⟩ := @exists_firstConfirmed sc _ _ [] hcandidate hcheck none
    rw [List.append_nil] at hok
    exact ⟨found, hok, fun h => absurd h hbearer⟩

/-- A confirmation is found exactly when one follows the rules; the one that is
found does, and is a bearer one when a bearer one does; the order of the list
does not decide whether one is found; and no other method is accepted. -/
theorem confirmation_choice (hlow : input.now.checkedSub input.clockSkew = some low)
    (hhigh : input.now.checkedAdd input.clockSkew = some high) (assertion : ParsedAssertion) :
    ((∃ sc, findValidSubjectConfirmation input assertion = .ok sc) ↔
      ∃ sc ∈ assertion.subjectConfirmations, Confirms input sc) ∧
    (∀ sc, findValidSubjectConfirmation input assertion = .ok sc →
      sc ∈ assertion.subjectConfirmations ∧ Confirms input sc ∧
        ∀ other ∈ assertion.subjectConfirmations, Confirms input other →
          other.method = SUBJECT_CONFIRMATION_BEARER → sc.method = SUBJECT_CONFIRMATION_BEARER) ∧
    (∀ other : ParsedAssertion,
      other.subjectConfirmations.Perm assertion.subjectConfirmations →
        ((∃ sc, findValidSubjectConfirmation input other = .ok sc) ↔
          ∃ sc, findValidSubjectConfirmation input assertion = .ok sc)) ∧
    ∀ sc, findValidSubjectConfirmation input assertion = .ok sc →
      sc.method = SUBJECT_CONFIRMATION_BEARER ∨
        sc.method = SUBJECT_CONFIRMATION_HOLDER_OF_KEY := by
  have hfinds : ∀ assertion : ParsedAssertion,
      (∃ sc, findValidSubjectConfirmation input assertion = .ok sc) ↔
        ∃ sc ∈ assertion.subjectConfirmations, Confirms input sc := by
    intro assertion
    constructor
    · rintro ⟨sc, h⟩
      exact ⟨sc, findValidSubjectConfirmation_ok h⟩
    · rintro ⟨sc, hmem, h⟩
      obtain ⟨found, hok, -⟩ := exists_findValidSubjectConfirmation hlow hhigh hmem h
      exact ⟨found, hok⟩
  refine ⟨hfinds assertion, ?_, ?_, ?_⟩
  · intro sc h
    obtain ⟨hmem, hconfirms⟩ := findValidSubjectConfirmation_ok h
    refine ⟨hmem, hconfirms, ?_⟩
    intro other hother hotherConfirms hbearer
    obtain ⟨found, hok, hfound⟩ :=
      exists_findValidSubjectConfirmation hlow hhigh hother hotherConfirms
    obtain rfl : found = sc := Except.ok.inj (hok.symm.trans h)
    exact hfound hbearer
  · intro other hperm
    rw [hfinds, hfinds]
    simp only [hperm.mem_iff]
  · intro sc h
    exact (findValidSubjectConfirmation_ok h).2.method.imp_right And.left

/-- A validation at the sample instant, with a presenter certificate. -/
def presented : ValidateResponse :=
  { Sample.request ⟨saml "Response", [], []⟩ ⟨none, none, none, STATUS_SUCCESS, none, none⟩ with
    holderOfKeyCert := some Sample.cert }

/-- A confirmation for the sample service provider. -/
def sampleConfirmation (method : Str) : SubjectConfirmation :=
  ⟨method, some "acs", some ⟨Sample.now.nanos + NANOS, by decide⟩, none, some "request",
    [Sample.cert]⟩

/-- An assertion with a Holder-of-Key confirmation before a bearer one. -/
def sampleConfirmed : ParsedAssertion where
  id := "assertion"
  issueInstant := Sample.now
  issuer := "idp"
  subjectNameId := ⟨"alice", .transient, none, none, none⟩
  subjectConfirmations := [sampleConfirmation SUBJECT_CONFIRMATION_HOLDER_OF_KEY,
    sampleConfirmation SUBJECT_CONFIRMATION_BEARER]
  conditions := ⟨none, none, [], false, none, []⟩
  authnStatements := []
  attributes := []

theorem confirmation_choice_presented :
    ∃ sc, findValidSubjectConfirmation presented sampleConfirmed = .ok sc ∧
      sc.method = SUBJECT_CONFIRMATION_BEARER := by
  have hlow : presented.now.checkedSub presented.clockSkew =
      some ⟨Sample.now.nanos - 60 * NANOS, by decide⟩ := by decide
  have hhigh : presented.now.checkedAdd presented.clockSkew =
      some ⟨Sample.now.nanos + 60 * NANOS, by decide⟩ := by decide
  have hconfirms : Confirms presented (sampleConfirmation SUBJECT_CONFIRMATION_BEARER) := by
    refine ⟨rfl, ⟨_, rfl, by decide⟩, ?_, rfl, .inl rfl⟩
    intro t ht
    cases ht
  have hmem : sampleConfirmation SUBJECT_CONFIRMATION_BEARER ∈
      sampleConfirmed.subjectConfirmations := List.mem_cons_of_mem _ List.mem_cons_self
  obtain ⟨hfinds, hchoice, -, -⟩ := confirmation_choice hlow hhigh sampleConfirmed
  obtain ⟨sc, hsc⟩ := hfinds.mpr ⟨_, hmem, hconfirms⟩
  exact ⟨sc, hsc, (hchoice sc hsc).2.2 _ hmem hconfirms rfl⟩

end Saml.Response
