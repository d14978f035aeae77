import Mathlib.Data.List.Sort
import Mathlib.Data.List.TakeWhile

/-!
# Sorted permutations

Two sorted permutations of each other have the same image under a function that
does not tell equivalent entries apart.
-/

namespace Saml.Library.Sorting

variable {α β κ : Type*}

/-- Sorted by a key, and equal where the keys are. -/
theorem map_eq_of_sorted {le : κ → κ → Prop} (antisymm : ∀ x y, le x y → le y x → x = y)
    {key : α → κ} {f : α → β} {l l' : List α} (perm : l.Perm l')
    (hl : l.Pairwise fun a b => le (key a) (key b))
    (hl' : l'.Pairwise fun a b => le (key a) (key b))
    (hf : ∀ a ∈ l, ∀ b ∈ l, key a = key b → f a = f b) : l.map f = l'.map f := by
  have hpairs : l.map (fun a => (key a, f a)) = l'.map fun a => (key a, f a) := by
    have hle : (l.map fun a => (key a, f a)).Pairwise fun p q => le p.1 q.1 :=
      List.pairwise_map.mpr hl
    refine List.Perm.eq_of_pairwise ?_ hle (List.pairwise_map.mpr hl')
      (perm.map fun a => (key a, f a))
    rintro _ _ hp hq hpq hqp
    obtain ⟨a, ha, rfl⟩ := List.mem_map.mp hp
    obtain ⟨b, hb, rfl⟩ := List.mem_map.mp hq
    have hkey : key a = key b := antisymm _ _ hpq hqp
    rw [hkey, hf a ha b (perm.mem_iff.mpr hb) hkey]
  have hsnd := congrArg (List.map Prod.snd) hpairs
  rwa [List.map_map, List.map_map] at hsnd

/-- The sorted images of permutations. -/
theorem map_insertionSort_perm {le : κ → κ → Prop}
    (antisymm : ∀ x y, le x y → le y x → x = y) (key : α → κ)
    {r : α → α → Prop} [DecidableRel r] [Std.Total r] [IsTrans α r]
    (hr : ∀ a b, r a b → le (key a) (key b)) {f : α → β} {l l' : List α} (perm : l.Perm l')
    (hf : ∀ a ∈ l, ∀ b ∈ l, key a = key b → f a = f b) :
    (l.insertionSort r).map f = (l'.insertionSort r).map f := by
  have hperm : (l.insertionSort r).Perm (l'.insertionSort r) :=
    ((List.perm_insertionSort r l).trans perm).trans (List.perm_insertionSort r l').symm
  apply map_eq_of_sorted antisymm hperm
  · exact (List.pairwise_insertionSort r l).imp (hr _ _)
  · exact (List.pairwise_insertionSort r l').imp (hr _ _)
  · intro a ha b hb
    exact hf a ((List.mem_insertionSort r).mp ha) b ((List.mem_insertionSort r).mp hb)

/-- Entries the order does not tell apart stay as they come. -/
theorem insertionSort_twins {r : α → α → Prop} [DecidableRel r] {a b : α} (hab : r a b)
    (hba : r b a) (same : ∀ x, r a x ↔ r b x) (l : List α) : ∃ front back,
      (a :: b :: l).insertionSort r = front ++ a :: b :: back ∧
        (b :: a :: l).insertionSort r = front ++ b :: a :: back := by
  have hsame : (fun x => decide ¬ r a x) = fun x => decide ¬ r b x := by
    funext x
    rw [decide_eq_decide, same]
  have hinsert {c d : α} (hcd : r c d) (front back : List α) (hfront : ∀ x ∈ front, ¬ r c x) :
      (front ++ d :: back).orderedInsert r c = front ++ c :: d :: back := by
    have hkeep : ∀ x ∈ front, (decide ¬ r c x) = true := fun x hx => decide_eq_true (hfront x hx)
    rw [List.orderedInsert_eq_take_drop, List.takeWhile_append_of_pos hkeep,
      List.dropWhile_append_of_pos hkeep, List.takeWhile_cons_of_neg (by simpa using hcd),
      List.dropWhile_cons_of_neg (by simpa using hcd), List.append_nil]
  have hfront : ∀ x ∈ (l.insertionSort r).takeWhile (fun x => decide ¬ r a x), ¬ r a x := by
    intro x hx
    have himp := List.mem_takeWhile_imp hx
    exact of_decide_eq_true himp
  refine ⟨(l.insertionSort r).takeWhile fun x => decide ¬ r a x,
    (l.insertionSort r).dropWhile fun x => decide ¬ r a x, ?_, ?_⟩
  · rw [List.insertionSort_cons, List.insertionSort_cons_eq_take_drop, ← hsame]
    exact hinsert hab _ _ hfront
  · rw [List.insertionSort_cons, List.insertionSort_cons_eq_take_drop]
    apply hinsert hba
    intro x hx
    rw [← same]
    exact hfront x hx

end Saml.Library.Sorting
