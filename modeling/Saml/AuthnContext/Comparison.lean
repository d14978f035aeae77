import Saml.AuthnContext
import Saml.Library.Ranking

/-!
# What a requested context asks for

The comparator against the set of requested classes. The order and the
duplicates of the list do not enter.
-/

namespace Saml

open Library

/-- What a comparison asks of an asserted rank and a set of requested ranks. -/
def AuthnContextComparison.Holds (comparison : AuthnContextComparison) (ranks : Set Nat)
    (actual : Nat) : Prop :=
  match comparison with
  | .exact => actual ∈ ranks
  | .minimum => ∃ rank ∈ ranks, rank ≤ actual
  | .maximum => ∃ strongest, IsGreatest ranks strongest ∧ actual ≤ strongest
  | .better => ∀ rank ∈ ranks, rank < actual

namespace RequestedAuthnContext

/-- The ranks of the requested classes. -/
def ranks (requested : RequestedAuthnContext) : Set Nat :=
  { rank | ∃ c ∈ requested.classRefs, c.strength = some rank }

/-- There is something to compare with, and every requested rank is known. -/
def Ranked (requested : RequestedAuthnContext) : Prop :=
  requested.classRefs ≠ [] ∧ ∀ c ∈ requested.classRefs, c.strength ≠ none

/-- Whether an asserted class meets a request: an exact one by its URI, any
other by its rank among known ranks. -/
def Meets (requested : RequestedAuthnContext) (actualUri : Str) : Prop :=
  match requested.comparison with
  | .exact => ∃ c ∈ requested.classRefs, c.asUri = actualUri
  | comparison =>
      requested.Ranked ∧ ∃ actual, (AuthnContextClassRef.fromUri actualUri).strength = some actual ∧
        comparison.Holds requested.ranks actual

/-- Two requests for the same set of classes. -/
structure SameSet (requested other : RequestedAuthnContext) : Prop where
  comparison : requested.comparison = other.comparison
  classRefs : ∀ c, c ∈ requested.classRefs ↔ c ∈ other.classRefs

variable {requested other : RequestedAuthnContext}

theorem SameSet.ranks (same : SameSet requested other) : requested.ranks = other.ranks := by
  simp only [RequestedAuthnContext.ranks, same.classRefs]

theorem SameSet.ranked (same : SameSet requested other) : requested.Ranked ↔ other.Ranked := by
  have hempty : requested.classRefs = [] ↔ other.classRefs = [] := by
    rw [List.eq_nil_iff_forall_not_mem, List.eq_nil_iff_forall_not_mem]
    simp only [same.classRefs]
  simp only [Ranked, ne_eq, hempty, same.classRefs]

theorem SameSet.meets (same : SameSet requested other) (actualUri : Str) :
    requested.Meets actualUri ↔ other.Meets actualUri := by
  rw [Meets, Meets, same.comparison, same.ranked, same.ranks]
  simp only [same.classRefs]

/-! ## The list of ranks -/

/-- The list of ranks is there when every rank is known. -/
theorem mapM_strength_eq_some {classRefs : List AuthnContextClassRef} {ranks : List Nat} :
    classRefs.mapM AuthnContextClassRef.strength = some ranks ↔
      classRefs.map AuthnContextClassRef.strength = ranks.map some := by
  induction classRefs generalizing ranks with
  | nil => cases ranks <;> simp
  | cons c rest ih =>
      rw [List.mapM_cons, List.map_cons, Option.bind_eq_bind, Option.bind_eq_some_iff]
      constructor
      · rintro ⟨rank, hrank, h⟩
        obtain ⟨more, hmore, h⟩ := Option.bind_eq_some_iff.mp h
        obtain rfl := Option.some.inj h
        rw [hrank, ih.mp hmore, List.map_cons]
      · intro h
        cases ranks with
        | nil => cases h
        | cons rank more =>
            obtain ⟨hrank, hmore⟩ := List.cons.inj h
            exact ⟨rank, hrank, Option.bind_eq_some_iff.mpr ⟨more, ih.mpr hmore, rfl⟩⟩

theorem exists_mapM_strength {classRefs : List AuthnContextClassRef}
    (h : ∀ c ∈ classRefs, c.strength ≠ none) :
    ∃ ranks, classRefs.mapM AuthnContextClassRef.strength = some ranks := by
  refine ⟨classRefs.filterMap AuthnContextClassRef.strength, mapM_strength_eq_some.mpr ?_⟩
  induction classRefs with
  | nil => rfl
  | cons c rest ih =>
      obtain ⟨rank, hrank⟩ := Option.ne_none_iff_exists'.mp (h c List.mem_cons_self)
      rw [List.map_cons, ih fun d hd => h d (List.mem_cons_of_mem _ hd), hrank,
        List.filterMap_cons_some hrank, List.map_cons]

theorem strength_ne_none {classRefs : List AuthnContextClassRef} {ranks : List Nat}
    (h : classRefs.mapM AuthnContextClassRef.strength = some ranks) :
    ∀ c ∈ classRefs, c.strength ≠ none := by
  intro c hc hnone
  have hmem : c.strength ∈ classRefs.map AuthnContextClassRef.strength := List.mem_map_of_mem hc
  rw [mapM_strength_eq_some.mp h, hnone] at hmem
  simp at hmem

/-- The ranks of a list are those of its classes. -/
theorem ranks_eq {ranks : List Nat}
    (h : requested.classRefs.mapM AuthnContextClassRef.strength = some ranks) :
    requested.ranks = { rank | rank ∈ ranks } := by
  have hmap := mapM_strength_eq_some.mp h
  ext rank
  have hmem : some rank ∈ requested.classRefs.map AuthnContextClassRef.strength ↔
      some rank ∈ ranks.map some := by rw [hmap]
  simpa [RequestedAuthnContext.ranks] using hmem

end RequestedAuthnContext

namespace StandardComparator

open RequestedAuthnContext

variable {requested : RequestedAuthnContext} {actualUri : Str}

theorem decided_eq_satisfied {holds : Bool} : decided holds = .satisfied ↔ holds = true := by
  cases holds <;> decide

theorem decided_ne_notComparable (holds : Bool) : decided holds ≠ .notComparable := by
  cases holds <;> decide

/-- Where every rank is known, the ends of the list decide. -/
theorem evaluate_ranked {actual first : Nat} {rest : List Nat}
    (hcomparison : requested.comparison ≠ .exact)
    (hactual : (AuthnContextClassRef.fromUri actualUri).strength = some actual)
    (hranks : requested.classRefs.mapM AuthnContextClassRef.strength = some (first :: rest)) :
    evaluate requested actualUri ≠ .notComparable ∧
      (evaluate requested actualUri = .satisfied ↔
        requested.comparison.Holds requested.ranks actual) := by
  rw [ranks_eq hranks, evaluate]
  cases hmode : requested.comparison with
  | exact => exact absurd hmode hcomparison
  | minimum =>
      simp only [hactual, hranks]
      refine ⟨decided_ne_notComparable _, ?_⟩
      rw [decided_eq_satisfied, decide_eq_true_iff]
      exact Ranking.foldl_min_le_iff
  | maximum =>
      simp only [hactual, hranks]
      refine ⟨decided_ne_notComparable _, ?_⟩
      rw [decided_eq_satisfied, decide_eq_true_iff]
      constructor
      · intro h
        exact ⟨_, Ranking.isGreatest_foldl_max, h⟩
      · rintro ⟨strongest, hgreatest, h⟩
        rwa [hgreatest.unique Ranking.isGreatest_foldl_max] at h
  | better =>
      simp only [hactual, hranks]
      refine ⟨decided_ne_notComparable _, ?_⟩
      rw [decided_eq_satisfied, decide_eq_true_iff]
      exact Ranking.foldl_max_lt_iff

/-- Without a list of ranks or the asserted rank there is no comparison. -/
theorem evaluate_unranked (hcomparison : requested.comparison ≠ .exact)
    (hmissing : ¬ (requested.Ranked ∧
      (AuthnContextClassRef.fromUri actualUri).strength ≠ none)) :
    evaluate requested actualUri = .notComparable := by
  have hnone : ∀ actual first rest,
      (AuthnContextClassRef.fromUri actualUri).strength = some actual →
        requested.classRefs.mapM AuthnContextClassRef.strength ≠ some (first :: rest) := by
    intro actual first rest hactual hranks
    refine hmissing ⟨⟨?_, strength_ne_none hranks⟩, by simp [hactual]⟩
    intro hempty
    rw [hempty] at hranks
    cases hranks
  rw [evaluate]
  split
  next hmode => exact absurd hmode hcomparison
  next =>
    split
    next actual first rest hactual hranks => exact absurd hranks (hnone actual first rest hactual)
    next => rfl

/-- What each outcome says. -/
theorem evaluate_cases (requested : RequestedAuthnContext) (actualUri : Str) :
    (evaluate requested actualUri = .satisfied ↔ requested.Meets actualUri) ∧
      (evaluate requested actualUri = .notComparable ↔ requested.comparison ≠ .exact ∧
        ¬ (requested.Ranked ∧ (AuthnContextClassRef.fromUri actualUri).strength ≠ none)) := by
  by_cases hexact : requested.comparison = .exact
  · rw [evaluate, Meets, hexact]
    dsimp only
    refine ⟨?_, ?_⟩
    · rw [decided_eq_satisfied, List.any_eq_true]
      simp only [beq_iff_eq]
    · constructor
      · intro h
        exact absurd h (decided_ne_notComparable _)
      · rintro ⟨h, -⟩
        exact absurd rfl h
  have hmeets : requested.Meets actualUri ↔ requested.Ranked ∧
      ∃ actual, (AuthnContextClassRef.fromUri actualUri).strength = some actual ∧
        requested.comparison.Holds requested.ranks actual := by
    rw [Meets]
    split
    next hmode => exact absurd hmode hexact
    next => exact Iff.rfl
  by_cases hranked : requested.Ranked ∧ (AuthnContextClassRef.fromUri actualUri).strength ≠ none
  · obtain ⟨actual, hactual⟩ := Option.ne_none_iff_exists'.mp hranked.2
    obtain ⟨ranks, hranks⟩ := exists_mapM_strength hranked.1.2
    cases ranks with
    | nil =>
        have hempty := congrArg List.length (mapM_strength_eq_some.mp hranks)
        rw [List.length_map] at hempty
        exact absurd (List.length_eq_zero_iff.mp hempty) hranked.1.1
    | cons first rest =>
        obtain ⟨hcomparable, hsatisfied⟩ := evaluate_ranked hexact hactual hranks
        refine ⟨?_, ?_⟩
        · rw [hsatisfied, hmeets]
          constructor
          · intro h
            exact ⟨hranked.1, actual, hactual, h⟩
          · rintro ⟨-, other, hother, h⟩
            rwa [Option.some.inj (hactual.symm.trans hother)]
        · exact ⟨fun h => absurd h hcomparable, fun h => absurd hranked h.2⟩
  · rw [evaluate_unranked hexact hranked, hmeets]
    refine ⟨?_, ?_⟩
    · constructor
      · intro h
        cases h
      · rintro ⟨hknown, actual, hactual, -⟩
        exact absurd ⟨hknown, by simp [hactual]⟩ hranked
    · exact ⟨fun _ => ⟨hexact, hranked⟩, fun _ => rfl⟩

/-- An asserted class satisfies a request exactly when it meets the requested
set; a rank that is missing leaves an ordered comparison undecided; and only
the set of classes enters. -/
theorem evaluate_meets (requested : RequestedAuthnContext) (actualUri : Str) :
    (evaluate requested actualUri = .satisfied ↔ requested.Meets actualUri) ∧
      (requested.comparison ≠ .exact →
        ((AuthnContextClassRef.fromUri actualUri).strength = none ∨
          ∃ c ∈ requested.classRefs, c.strength = none) →
        evaluate requested actualUri = .notComparable) ∧
      ∀ other : RequestedAuthnContext, requested.SameSet other →
        evaluate other actualUri = evaluate requested actualUri := by
  obtain ⟨hsatisfied, hnotComparable⟩ := evaluate_cases requested actualUri
  refine ⟨hsatisfied, ?_, ?_⟩
  · intro hcomparison hmissing
    apply hnotComparable.mpr
    refine ⟨hcomparison, ?_⟩
    rintro ⟨⟨-, hknown⟩, hactual⟩
    rcases hmissing with hnone | ⟨c, hc, hnone⟩
    · exact hactual hnone
    · exact hknown c hc hnone
  · intro other same
    obtain ⟨hsatisfied', hnotComparable'⟩ := evaluate_cases other actualUri
    rw [← same.meets, ← hsatisfied] at hsatisfied'
    rw [← same.comparison, ← same.ranked, ← hnotComparable] at hnotComparable'
    cases h : evaluate requested actualUri <;> cases h' : evaluate other actualUri <;>
      simp [h, h'] at hsatisfied' hnotComparable' ⊢

/-- A stronger class does not satisfy a minimum over a list with an unknown
class, and nothing satisfies a better comparison over no class at all. -/
theorem not_satisfied_unranked :
    ¬ ∀ (requested : RequestedAuthnContext) (actual : AuthnContextClassRef),
      (requested.comparison = .minimum → (evaluate requested actual.asUri = .satisfied ↔
        ∃ c ∈ requested.classRefs, ∃ rank, c.strength = some rank ∧
          ∃ asserted, actual.strength = some asserted ∧ rank ≤ asserted)) ∧
      (requested.comparison = .better → (evaluate requested actual.asUri = .satisfied ↔
        ∀ c ∈ requested.classRefs, ∃ rank, c.strength = some rank ∧
          ∃ asserted, actual.strength = some asserted ∧ rank < asserted)) := by
  intro h
  have hminimum := (h ⟨[.custom "urn:custom", .password], .minimum⟩ .multiFactorAuth).1 rfl
  have hsatisfied := hminimum.mpr ⟨.password, by simp, 2, rfl, 8, rfl, by decide⟩
  revert hsatisfied
  decide +kernel

end StandardComparator

end Saml
