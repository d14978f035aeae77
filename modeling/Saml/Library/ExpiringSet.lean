import Mathlib.Data.List.AList
import Mathlib.Data.Set.Card

/-!
# Expiring sets

Reservations that lapse: a key is live while some reservation of it lies in
the future. A finite map holds the live part of a set of reservations when it
answers exactly the reservations that have not lapsed.
-/

namespace Saml.Library

variable {κ τ : Type*}

/-- The reservations that have not lapsed. -/
def unexpired [LT τ] (reserved : Set (κ × τ)) (now : τ) : Set (κ × τ) :=
  {p | p ∈ reserved ∧ now < p.2}

/-- A key with a reservation that has not lapsed. -/
def Live [LT τ] (reserved : Set (κ × τ)) (now : τ) (k : κ) : Prop :=
  ∃ expiry, (k, expiry) ∈ unexpired reserved now

section FiniteMap

variable [DecidableEq κ]

/-- A finite map from keys to expiries. -/
abbrev ExpiryMap (κ τ : Type*) := AList fun _ : κ => τ

/-- The number of entries. -/
def ExpiryMap.len (entries : ExpiryMap κ τ) : Nat := entries.entries.length

/-- The entries whose expiry satisfies a test. -/
def ExpiryMap.retain (keep : τ → Bool) (entries : ExpiryMap κ τ) : ExpiryMap κ τ :=
  ⟨entries.entries.filter fun entry => keep entry.2,
    entries.nodupKeys.sublist List.filter_sublist⟩

omit [DecidableEq κ] in
theorem ExpiryMap.len_retain_le (keep : τ → Bool) (entries : ExpiryMap κ τ) :
    (entries.retain keep).len ≤ entries.len :=
  List.length_filter_le _ _

omit [DecidableEq κ] in
/-- Entries that fail the later test need not pass the earlier one. -/
theorem ExpiryMap.retain_retain {keep first : τ → Bool} (implied : ∀ e, keep e → first e)
    (entries : ExpiryMap κ τ) : (entries.retain first).retain keep = entries.retain keep := by
  apply AList.ext
  simp only [ExpiryMap.retain, List.filter_filter]
  apply List.filter_congr
  intro entry _
  cases hkeep : keep entry.2 with
  | false => rfl
  | true => exact implied entry.2 hkeep

theorem ExpiryMap.lookup_retain {keep : τ → Bool} {entries : ExpiryMap κ τ} {k : κ} {e : τ} :
    (entries.retain keep).lookup k = some e ↔ entries.lookup k = some e ∧ keep e = true := by
  have hmem (m : ExpiryMap κ τ) : m.lookup k = some e ↔ Sigma.mk k e ∈ m.entries :=
    AList.mem_lookup_iff
  rw [hmem, hmem]
  simp [ExpiryMap.retain]

theorem ExpiryMap.len_insert {entries : ExpiryMap κ τ} {k : κ} (e : τ) (h : k ∉ entries) :
    (ExpiryMap.len (entries.insert k e)) = entries.len + 1 := by
  rw [ExpiryMap.len, AList.entries_insert_of_notMem h]
  rfl

/-- Insert a batch of entries, one after the other. -/
def ExpiryMap.insertAll (entries : ExpiryMap κ τ) (batch : List (κ × τ)) : ExpiryMap κ τ :=
  batch.foldl (fun m p => m.insert p.1 p.2) entries

@[simp] theorem ExpiryMap.insertAll_nil (entries : ExpiryMap κ τ) :
    entries.insertAll [] = entries := rfl

@[simp] theorem ExpiryMap.insertAll_cons (entries : ExpiryMap κ τ) (p : κ × τ)
    (batch : List (κ × τ)) :
    entries.insertAll (p :: batch) = ExpiryMap.insertAll (entries.insert p.1 p.2) batch := rfl

/-- A batch of distinct fresh keys adds its own entries and nothing else. -/
theorem ExpiryMap.lookup_insertAll {batch : List (κ × τ)} {entries : ExpiryMap κ τ}
    (distinct : (batch.map Prod.fst).Nodup) (fresh : ∀ p ∈ batch, p.1 ∉ entries) (k : κ) (e : τ) :
    (entries.insertAll batch).lookup k = some e ↔
      entries.lookup k = some e ∨ (k, e) ∈ batch := by
  induction batch generalizing entries with
  | nil => simp
  | cons p batch ih =>
      obtain ⟨hp, hrest⟩ := List.nodup_cons.mp distinct
      have hfresh : ∀ q ∈ batch, q.1 ∉ (entries.insert p.1 p.2) := by
        intro q hq hmem
        rcases (AList.mem_insert entries).mp hmem with h | h
        · exact hp (h ▸ List.mem_map_of_mem hq)
        · exact fresh q (List.mem_cons_of_mem _ hq) h
      rw [insertAll_cons, ih hrest hfresh]
      by_cases hk : k = p.1
      · subst hk
        have hnone : entries.lookup p.1 = none :=
          AList.lookup_eq_none.mpr (fresh p List.mem_cons_self)
        simp only [AList.lookup_insert, hnone, Option.some.injEq, reduceCtorEq, false_or,
          List.mem_cons]
        have heq : (p.1, e) = p ↔ p.2 = e := by
          constructor
          · exact fun h => congrArg Prod.snd h.symm
          · rintro rfl
            rfl
        rw [heq]
      · rw [AList.lookup_insert_ne hk, List.mem_cons]
        have hne : (k, e) ≠ p := fun h => hk (congrArg Prod.fst h)
        simp [hne]

theorem ExpiryMap.len_insertAll {batch : List (κ × τ)} {entries : ExpiryMap κ τ}
    (distinct : (batch.map Prod.fst).Nodup) (fresh : ∀ p ∈ batch, p.1 ∉ entries) :
    (entries.insertAll batch).len = entries.len + batch.length := by
  induction batch generalizing entries with
  | nil => rfl
  | cons p batch ih =>
      obtain ⟨hp, hrest⟩ := List.nodup_cons.mp distinct
      have hfresh : ∀ q ∈ batch, q.1 ∉ (entries.insert p.1 p.2) := by
        intro q hq hmem
        rcases (AList.mem_insert entries).mp hmem with h | h
        · exact hp (h ▸ List.mem_map_of_mem hq)
        · exact fresh q (List.mem_cons_of_mem _ hq) h
      rw [insertAll_cons, ih hrest hfresh, len_insert p.2 (fresh p List.mem_cons_self),
        List.length_cons]
      omega

variable [LT τ]

/-- A finite map holds the live part of a set of reservations. -/
def Holds (reserved : Set (κ × τ)) (now : τ) (entries : ExpiryMap κ τ) : Prop :=
  ∀ k e, entries.lookup k = some e ↔ (k, e) ∈ unexpired reserved now

/-- A key is live exactly when the map has it. -/
theorem Holds.live_iff {reserved : Set (κ × τ)} {now : τ} {entries : ExpiryMap κ τ}
    (h : Holds reserved now entries) (k : κ) : Live reserved now k ↔ k ∈ entries := by
  rw [← AList.lookup_isSome, Option.isSome_iff_exists]
  exact exists_congr fun e => (h k e).symm

/-- The map has as many entries as there are live reservations. -/
theorem Holds.ncard_unexpired {reserved : Set (κ × τ)} {now : τ} {entries : ExpiryMap κ τ}
    (h : Holds reserved now entries) : (unexpired reserved now).ncard = entries.len := by
  classical
  let pairs := entries.entries.map fun entry => (entry.1, entry.2)
  have hset : unexpired reserved now = (pairs.toFinset : Set (κ × τ)) := by
    ext ⟨k, e⟩
    rw [← h k e]
    have hmem : entries.lookup k = some e ↔ Sigma.mk k e ∈ entries.entries :=
      AList.mem_lookup_iff
    simp only [hmem, pairs, List.coe_toFinset, List.mem_map, Prod.mk.injEq, Set.mem_ofPred_eq]
    constructor
    · intro hin
      exact ⟨_, hin, rfl, rfl⟩
    · rintro ⟨⟨k', e'⟩, hin, rfl, rfl⟩
      exact hin
  have hnodup : pairs.Nodup := by
    refine List.Nodup.map ?_ entries.nodupKeys.nodup
    rintro ⟨k, e⟩ ⟨k', e'⟩ heq
    simpa using heq
  rw [hset, Set.ncard_coe_finset, List.toFinset_card_of_nodup hnodup]
  exact List.length_map _

end FiniteMap

end Saml.Library
