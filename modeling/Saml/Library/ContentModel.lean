import Mathlib.Computability.RegularExpressions
import Mathlib.Data.List.Pairwise

/-!
# Content models

The content model of a document type is a regular expression over the names
of the children. What every word of an expression has in common can be read
off the expression: the names it may hold, the names it must hold, and which
name may stand before which.
-/

namespace Saml.Library

open RegularExpression

namespace ContentModel

variable {ν : Type}

/-- An optional part. -/
def optional (e : RegularExpression ν) : RegularExpression ν := 1 + e

/-- A part that stands at least once. -/
def oneOrMore (e : RegularExpression ν) : RegularExpression ν := e * star e

/-- A choice among parts. -/
def choice (es : List (RegularExpression ν)) : RegularExpression ν := es.foldr (· + ·) 0

/-- Parts in order. -/
def sequence (es : List (RegularExpression ν)) : RegularExpression ν := es.foldr (· * ·) 1

/-- Each name any number of times, the names in the given order. -/
def runs (order : List ν) : RegularExpression ν := sequence (order.map fun a => star (char a))

/-- The names of an expression. -/
def names : RegularExpression ν → List ν
  | .zero => []
  | .epsilon => []
  | .char a => [a]
  | .plus p q => names p ++ names q
  | .comp p q => names p ++ names q
  | .star p => names p

/-- Whether every word holds the name. -/
def demands [DecidableEq ν] (a : ν) : RegularExpression ν → Bool
  | .zero => true
  | .epsilon => false
  | .char b => a = b
  | .plus p q => demands a p && demands a q
  | .comp p q => demands a p || demands a q
  | .star _ => false

/-- Whether the parts of an expression keep to a relation: what stands in an
earlier part is related to what stands in a later one. -/
def keeps (r : ν → ν → Bool) : RegularExpression ν → Bool
  | .zero => true
  | .epsilon => true
  | .char _ => true
  | .plus p q => keeps r p && keeps r q
  | .comp p q => keeps r p && keeps r q && (names p).all fun a => (names q).all (r a)
  | .star p => keeps r p && (names p).all fun a => (names p).all (r a)

theorem mem_names {e : RegularExpression ν} {word : List ν} (h : word ∈ e.matches') :
    ∀ a ∈ word, a ∈ names e := by
  induction e generalizing word with
  | zero => cases h
  | epsilon =>
      cases h
      simp
  | char a =>
      cases h
      simp [names]
  | plus p q ihp ihq =>
      intro a ha
      cases h with
      | inl h => exact List.mem_append_left _ (ihp h a ha)
      | inr h => exact List.mem_append_right _ (ihq h a ha)
  | comp p q ihp ihq =>
      obtain ⟨first, hfirst, rest, hrest, rfl⟩ := Language.mem_mul.mp h
      intro a ha
      cases List.mem_append.mp ha with
      | inl ha => exact List.mem_append_left _ (ihp hfirst a ha)
      | inr ha => exact List.mem_append_right _ (ihq hrest a ha)
  | star p ih =>
      obtain ⟨words, rfl, hwords⟩ := Language.mem_kstar.mp h
      intro a ha
      obtain ⟨part, hpart, ha⟩ := List.mem_flatten.mp ha
      exact ih (hwords part hpart) a ha

theorem mem_of_demands [DecidableEq ν] {e : RegularExpression ν} {a : ν} {word : List ν}
    (ha : demands a e = true) (h : word ∈ e.matches') : a ∈ word := by
  induction e generalizing word with
  | zero => cases h
  | epsilon => simp [demands] at ha
  | char b =>
      cases h
      simpa [demands] using ha
  | plus p q ihp ihq =>
      simp only [demands, Bool.and_eq_true] at ha
      cases h with
      | inl h => exact ihp ha.1 h
      | inr h => exact ihq ha.2 h
  | comp p q ihp ihq =>
      obtain ⟨first, hfirst, rest, hrest, rfl⟩ := Language.mem_mul.mp h
      simp only [demands, Bool.or_eq_true] at ha
      cases ha with
      | inl ha => exact List.mem_append_left _ (ihp ha hfirst)
      | inr ha => exact List.mem_append_right _ (ihq ha hrest)
  | star p ih => simp [demands] at ha

/-- The words of an expression that keeps to a relation are ordered by it. -/
theorem pairwise_of_keeps {r : ν → ν → Bool} {e : RegularExpression ν} {word : List ν}
    (he : keeps r e = true) (h : word ∈ e.matches') :
    word.Pairwise fun a b => r a b = true := by
  induction e generalizing word with
  | zero => cases h
  | epsilon =>
      cases h
      apply List.Pairwise.nil
  | char a =>
      cases h
      apply List.pairwise_singleton
  | plus p q ihp ihq =>
      simp only [keeps, Bool.and_eq_true] at he
      cases h with
      | inl h => exact ihp he.1 h
      | inr h => exact ihq he.2 h
  | comp p q ihp ihq =>
      obtain ⟨first, hfirst, rest, hrest, rfl⟩ := Language.mem_mul.mp h
      simp only [keeps, Bool.and_eq_true, List.all_eq_true] at he
      rw [List.pairwise_append]
      refine ⟨ihp he.1.1 hfirst, ihq he.1.2 hrest, ?_⟩
      intro a ha b hb
      exact he.2 a (mem_names hfirst a ha) b (mem_names hrest b hb)
  | star p ih =>
      obtain ⟨words, rfl, hwords⟩ := Language.mem_kstar.mp h
      simp only [keeps, Bool.and_eq_true, List.all_eq_true] at he
      rw [List.pairwise_flatten]
      refine ⟨fun part hpart => ih he.1 (hwords part hpart), ?_⟩
      apply List.Pairwise.imp_of_mem (R := fun _ _ => True)
      · intro first rest hfirst hrest _ a ha b hb
        exact he.2 a (mem_names (hwords first hfirst) a ha) b
          (mem_names (hwords rest hrest) b hb)
      · exact List.pairwise_of_forall fun _ _ => trivial

/-- When an expression keeps to a relation except for some pairs, a word of it
is ordered exactly if none of these pairs stands in it. -/
theorem pairwise_iff_apart [DecidableEq ν] {r : ν → ν → Bool} {apart : List (ν × ν)}
    {e : RegularExpression ν} {word : List ν}
    (he : keeps (fun a b => r a b || decide ((a, b) ∈ apart)) e = true)
    (hapart : ∀ p ∈ apart, r p.1 p.2 = false) (h : word ∈ e.matches') :
    (word.Pairwise fun a b => r a b = true) ↔ ∀ p ∈ apart, ¬ [p.1, p.2].Sublist word := by
  constructor
  · intro hr p hp hsub
    have hpair := List.pairwise_iff_forall_sublist.mp hr hsub
    rw [hapart p hp] at hpair
    exact absurd hpair (by simp)
  · intro hsub
    rw [List.pairwise_iff_forall_sublist]
    intro a b hab
    have hpair := List.pairwise_iff_forall_sublist.mp (pairwise_of_keeps he h) hab
    simp only [Bool.or_eq_true, decide_eq_true_eq] at hpair
    cases hpair with
    | inl hr => exact hr
    | inr hmem => exact absurd hab (hsub (a, b) hmem)

theorem mem_star_char {a : ν} {word : List ν} :
    word ∈ (star (char a)).matches' ↔ ∀ b ∈ word, b = a := by
  constructor
  · intro h b hb
    simpa [names] using mem_names h b hb
  · intro h
    refine Language.mem_kstar.mpr ⟨word.map fun b => [b], (List.flatMap_singleton' word).symm, ?_⟩
    intro part hpart
    obtain ⟨b, hb, rfl⟩ := List.mem_map.mp hpart
    rw [h b hb]
    rfl

theorem mem_runs_cons {a : ν} {order word : List ν} :
    word ∈ (runs (a :: order)).matches' ↔
      ∃ first rest, (∀ b ∈ first, b = a) ∧ rest ∈ (runs order).matches' ∧
        first ++ rest = word := by
  have hmul : (runs (a :: order)).matches' =
      (star (char a)).matches' * (runs order).matches' := rfl
  rw [hmul, Language.mem_mul]
  simp only [mem_star_char]
  constructor
  · rintro ⟨first, hfirst, rest, hrest, heq⟩
    exact ⟨first, rest, hfirst, hrest, heq⟩
  · rintro ⟨first, rest, hfirst, hrest, heq⟩
    exact ⟨first, hfirst, rest, hrest, heq⟩

/-- A word of runs is a word over the listed names that goes through them in order. -/
theorem mem_runs_iff [DecidableEq ν] {order : List ν} (distinct : order.Nodup) {word : List ν} :
    word ∈ (runs order).matches' ↔
      (∀ a ∈ word, a ∈ order) ∧ word.Pairwise fun a b => order.idxOf a ≤ order.idxOf b := by
  induction order generalizing word with
  | nil =>
      have hone : word ∈ (runs ([] : List ν)).matches' ↔ word = [] := Iff.rfl
      rw [hone]
      constructor
      · rintro rfl
        exact ⟨by simp, List.Pairwise.nil⟩
      · intro h
        exact List.eq_nil_iff_forall_not_mem.mpr fun a ha => List.not_mem_nil (h.1 a ha)
  | cons x order ih =>
      obtain ⟨hx, hnodup⟩ := List.nodup_cons.mp distinct
      have hself : (x :: order).idxOf x = 0 := List.idxOf_cons_self
      have hlater : ∀ b, b ≠ x → (x :: order).idxOf b = order.idxOf b + 1 :=
        fun b hb => List.idxOf_cons_ne order (Ne.symm hb)
      rw [mem_runs_cons]
      constructor
      · rintro ⟨first, rest, hfirst, hrest, rfl⟩
        obtain ⟨hmem, horder⟩ := (ih hnodup).mp hrest
        have hother : ∀ b ∈ rest, b ≠ x := by
          rintro b hb rfl
          exact hx (hmem b hb)
        refine ⟨?_, List.pairwise_append.mpr ⟨?_, ?_, ?_⟩⟩
        · intro b hb
          cases List.mem_append.mp hb with
          | inl hb => exact List.mem_cons.mpr (.inl (hfirst b hb))
          | inr hb => exact List.mem_cons_of_mem x (hmem b hb)
        · apply List.pairwise_iff_forall_sublist.mpr
          intro a b hab
          rw [hfirst a (hab.subset List.mem_cons_self), hself]
          apply Nat.zero_le
        · apply horder.imp_of_mem
          intro a b ha hb hle
          rw [hlater a (hother a ha), hlater b (hother b hb)]
          omega
        · intro a ha b _
          rw [hfirst a ha, hself]
          apply Nat.zero_le
      · rintro ⟨hmem, horder⟩
        -- The first run is the part of the word before another name stands.
        induction word with
        | nil => exact ⟨[], [], by simp, (ih hnodup).mpr ⟨by simp, List.Pairwise.nil⟩, rfl⟩
        | cons a word ihword =>
            obtain ⟨hhead, horder⟩ := List.pairwise_cons.mp horder
            obtain ⟨hamem, hmem⟩ := List.forall_mem_cons.mp hmem
            by_cases ha : a = x
            · obtain ⟨first, rest, hfirst, hrest, rfl⟩ := ihword hmem horder
              exact ⟨a :: first, rest, List.forall_mem_cons.mpr ⟨ha, hfirst⟩, hrest, rfl⟩
            · have hother : ∀ b ∈ word, b ≠ x := by
                rintro b hb rfl
                have hle := hhead b hb
                rw [hself, hlater a ha] at hle
                omega
              have hall : ∀ b ∈ a :: word, b ≠ x := List.forall_mem_cons.mpr ⟨ha, hother⟩
              refine ⟨[], a :: word, by simp, (ih hnodup).mpr ⟨?_, ?_⟩, rfl⟩
              · intro b hb
                have hmemb := List.forall_mem_cons.mpr ⟨hamem, hmem⟩ b hb
                exact (List.mem_cons.mp hmemb).resolve_left (hall b hb)
              · apply (List.pairwise_cons.mpr ⟨hhead, horder⟩).imp_of_mem
                intro b c hb hc hle
                rw [hlater b (hall b hb), hlater c (hall c hc)] at hle
                omega

end ContentModel

end Saml.Library
