import Mathlib.Data.List.Forall2
import Mathlib.Data.List.Induction
import Mathlib.Data.List.Nodup

/-!
# Association lists

Lists of keys with values, read by the first entry of a key.
-/

namespace Saml.Library.Association

variable {α β : Type*} [BEq α] [LawfulBEq α] [DecidableEq α]

theorem lookup_cons (entry : α × β) (rest : List (α × β)) (key : α) :
    (entry :: rest).lookup key = if key = entry.1 then some entry.2 else rest.lookup key := by
  rcases entry with ⟨k, v⟩
  rw [List.lookup_cons]
  by_cases h : key = k
  · simp [h]
  · simp [h, beq_false_of_ne h]

theorem lookup_isSome_iff {entries : List (α × β)} {key : α} :
    (entries.lookup key).isSome = true ↔ key ∈ entries.map Prod.fst := by
  induction entries with
  | nil => simp
  | cons entry rest ih =>
      rw [lookup_cons, List.map_cons, List.mem_cons]
      by_cases h : key = entry.1
      · simp [h]
      · simp [h, ih]

/-- What is found is an entry. -/
theorem mem_of_lookup {entries : List (α × β)} {key : α} {value : β}
    (h : entries.lookup key = some value) : (key, value) ∈ entries := by
  induction entries with
  | nil => cases h
  | cons entry rest ih =>
      rw [lookup_cons] at h
      split at h
      next heq =>
        rw [heq, ← Option.some.inj h]
        exact List.mem_cons_self
      · exact List.mem_cons_of_mem _ (ih h)

/-- With distinct keys every entry is found. -/
theorem lookup_eq_some_iff {entries : List (α × β)} (nodup : (entries.map Prod.fst).Nodup)
    {key : α} {value : β} : entries.lookup key = some value ↔ (key, value) ∈ entries := by
  induction entries with
  | nil => simp
  | cons entry rest ih =>
      rw [List.map_cons, List.nodup_cons] at nodup
      rw [lookup_cons, List.mem_cons]
      rcases entry with ⟨k, v⟩
      by_cases h : key = k
      · subst h
        have hrest : (key, value) ∉ rest := by
          intro hmem
          exact nodup.1 (List.mem_map.mpr ⟨_, hmem, rfl⟩)
        simp [hrest, eq_comm]
      · simp [h, ih nodup.2]

/-- Replace the value of a key where it stands, or append it. -/
def assign : List (α × β) → α × β → List (α × β)
  | [], entry => [entry]
  | first :: rest, entry =>
      if first.1 = entry.1 then (first.1, entry.2) :: rest else first :: assign rest entry

theorem keys_assign (entries : List (α × β)) (entry : α × β) :
    (assign entries entry).map Prod.fst =
      if entry.1 ∈ entries.map Prod.fst then entries.map Prod.fst
      else entries.map Prod.fst ++ [entry.1] := by
  induction entries with
  | nil => rfl
  | cons first rest ih =>
      rw [assign]
      by_cases h : first.1 = entry.1
      · simp [h]
      · rw [if_neg h, List.map_cons, ih]
        by_cases hmem : entry.1 ∈ rest.map Prod.fst
        · simp [hmem]
        · simp [hmem, Ne.symm h]

theorem nodup_assign {entries : List (α × β)} (nodup : (entries.map Prod.fst).Nodup)
    (entry : α × β) : ((assign entries entry).map Prod.fst).Nodup := by
  rw [keys_assign]
  split
  · exact nodup
  next hmem =>
    apply nodup.append (List.nodup_singleton _)
    simpa [List.disjoint_singleton] using hmem

theorem lookup_assign (entries : List (α × β)) (entry : α × β) (key : α) :
    (assign entries entry).lookup key =
      if key = entry.1 then some entry.2 else entries.lookup key := by
  induction entries with
  | nil => rw [assign, lookup_cons]
  | cons first rest ih =>
      rw [assign]
      by_cases h : first.1 = entry.1
      · rw [if_pos h, lookup_cons, lookup_cons, h]
        split <;> rfl
      · rw [if_neg h, lookup_cons, lookup_cons, ih]
        by_cases hkey : key = first.1
        · subst hkey
          rw [if_pos rfl, if_neg h, if_pos rfl]
        · rw [if_neg hkey, if_neg hkey]

/-- With distinct keys the direction of the search does not matter. -/
theorem lookup_reverse {entries : List (α × β)} (nodup : (entries.map Prod.fst).Nodup) (key : α) :
    entries.reverse.lookup key = entries.lookup key := by
  have hreverse : (entries.reverse.map Prod.fst).Nodup := by
    rw [List.map_reverse]
    exact List.nodup_reverse.mpr nodup
  apply Option.ext
  intro value
  rw [lookup_eq_some_iff hreverse, lookup_eq_some_iff nodup, List.mem_reverse]

/-- Assigning entries one after the other leaves each key with its last value. -/
theorem lookup_foldl_assign (entries : List (α × β)) (key : α) :
    (entries.foldl assign []).lookup key = entries.reverse.lookup key := by
  induction entries using List.reverseRecOn with
  | nil => rfl
  | append_singleton before entry ih =>
      rw [List.foldl_append, List.foldl_cons, List.foldl_nil, lookup_assign, ih,
        List.reverse_append, List.reverse_singleton, List.singleton_append, lookup_cons]

theorem nodup_foldl_assign (entries : List (α × β)) :
    ((entries.foldl assign []).map Prod.fst).Nodup := by
  induction entries using List.reverseRecOn with
  | nil => exact List.nodup_nil
  | append_singleton before entry ih =>
      rw [List.foldl_append, List.foldl_cons, List.foldl_nil]
      exact nodup_assign ih entry

omit [BEq α] [LawfulBEq α] in
/-- Two lists that agree entry by entry agree after assigning entries that agree. -/
theorem forall₂_assign {γ δ : Type*} [DecidableEq γ]
    {R : α × β → γ × δ → Prop} (sameKey : ∀ a b c d, R a c → R b d → (a.1 = b.1 ↔ c.1 = d.1))
    (replace : ∀ a b c d, R a c → R b d → a.1 = b.1 → R (a.1, b.2) (c.1, d.2))
    {entries : List (α × β)} {others : List (γ × δ)} (h : List.Forall₂ R entries others)
    {entry : α × β} {other : γ × δ} (hentry : R entry other) :
    List.Forall₂ R (assign entries entry) (assign others other) := by
  induction h with
  | nil => exact .cons hentry .nil
  | @cons a c entries others hfirst hrest ih =>
      rw [assign, assign]
      by_cases hkey : a.1 = entry.1
      · rw [if_pos hkey, if_pos ((sameKey _ _ _ _ hfirst hentry).mp hkey)]
        exact .cons (replace _ _ _ _ hfirst hentry hkey) hrest
      · rw [if_neg hkey, if_neg fun heq => hkey ((sameKey _ _ _ _ hfirst hentry).mpr heq)]
        exact .cons hfirst ih

end Saml.Library.Association
