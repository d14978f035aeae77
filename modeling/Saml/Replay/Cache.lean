import Saml.Time
import Saml.Library.Run
import Saml.Library.ExpiringSet

/-!
# Replay cache

`replay::InMemoryReplayCache`: a bounded map of tombstones that is swept,
checked and filled as one batch. It keeps exactly the reservations that have
not lapsed, so its answers are those of an expiring set.
-/

namespace Saml.Replay

open Library

/-- What a tombstone stands for. -/
inductive ReplayNamespace where
  | assertion
  | proxyTransaction
  | artifactResolve
deriving DecidableEq, Repr

/-- The key of a tombstone. -/
abbrev ReplayKey := ReplayNamespace × Str

/-- One namespaced replay tombstone to reserve atomically. -/
structure ReplayEntry where
  replayNamespace : ReplayNamespace
  id : Str
  expiresAt : SystemTime
deriving DecidableEq

namespace ReplayEntry

def assertion (id : Str) (expiresAt : SystemTime) : ReplayEntry := ⟨.assertion, id, expiresAt⟩

def proxyTransaction (id : Str) (expiresAt : SystemTime) : ReplayEntry :=
  ⟨.proxyTransaction, id, expiresAt⟩

def artifactResolve (id : Str) (expiresAt : SystemTime) : ReplayEntry :=
  ⟨.artifactResolve, id, expiresAt⟩

def key (entry : ReplayEntry) : ReplayKey := (entry.replayNamespace, entry.id)

/-- The map entry a tombstone becomes. -/
def pair (entry : ReplayEntry) : ReplayKey × SystemTime := (entry.key, entry.expiresAt)

end ReplayEntry

/-- The in-memory cache. A poisoned mutex is left out: nothing panics while
the lock is held. -/
structure InMemoryReplayCache where
  capacity : Nat
  inner : ExpiryMap ReplayKey SystemTime

namespace InMemoryReplayCache

/-- The default capacity. -/
def DEFAULT_CAPACITY : Nat := 100000

def new (capacityHint : Nat) : InMemoryReplayCache := ⟨capacityHint, ∅⟩

def len (cache : InMemoryReplayCache) : Nat := cache.inner.len

/-- The loop over a batch: a key met before in the batch or stored in the map
is a conflict. -/
def conflicts (inner : ExpiryMap ReplayKey SystemTime) :
    List ReplayKey → List ReplayEntry → Bool
  | _, [] => false
  | pending, entry :: rest =>
      if entry.key ∈ pending ∨ entry.key ∈ inner then true
      else conflicts inner (entry.key :: pending) rest

/-- `check_and_insert`: sweep, check the batch, check the capacity, insert.
A sum that overflows `usize` exceeds the capacity as well. -/
def checkAndInsert (cache : InMemoryReplayCache) (entries : List ReplayEntry)
    (now : SystemTime) : InMemoryReplayCache × Result Bool :=
  let swept := cache.inner.retain fun exp => decide (exp > now)
  if conflicts swept [] entries then
    ({ cache with inner := swept }, .ok false)
  else if swept.len + entries.length > cache.capacity then
    ({ cache with inner := swept }, .error .replayCacheFull)
  else
    ({ cache with inner := swept.insertAll (entries.map ReplayEntry.pair) }, .ok true)

theorem conflicts_eq_false_iff {inner : ExpiryMap ReplayKey SystemTime}
    {pending : List ReplayKey} {entries : List ReplayEntry} :
    conflicts inner pending entries = false ↔
      (entries.map ReplayEntry.key).Nodup ∧
        ∀ entry ∈ entries, entry.key ∉ pending ∧ entry.key ∉ inner := by
  induction entries generalizing pending with
  | nil => simp [conflicts]
  | cons entry rest ih =>
      rw [conflicts]
      by_cases h : entry.key ∈ pending ∨ entry.key ∈ inner
      · rw [if_pos h]
        simp only [Bool.true_eq_false, false_iff, not_and]
        intro _ hall
        have := hall entry List.mem_cons_self
        tauto
      · rw [if_neg h, ih, List.map_cons, List.nodup_cons]
        push Not at h
        simp only [List.mem_cons, forall_eq_or_imp, List.mem_map, not_or, not_exists, not_and]
        constructor
        · rintro ⟨hnodup, hall⟩
          exact ⟨⟨fun e he heq => (hall e he).1.1 heq, hnodup⟩, h,
            fun e he => ⟨(hall e he).1.2, (hall e he).2⟩⟩
        · rintro ⟨⟨hnew, hnodup⟩, _, hall⟩
          exact ⟨hnodup, fun e he => ⟨⟨fun heq => hnew e he heq, (hall e he).1⟩, (hall e he).2⟩⟩

/-- What one call can do: it answers true and inserts a batch of distinct
fresh keys that fits, or it refuses and only sweeps. -/
theorem checkAndInsert_cases (cache : InMemoryReplayCache) (entries : List ReplayEntry)
    (now : SystemTime) :
    let swept := cache.inner.retain fun exp => decide (exp > now)
    let fits := (entries.map ReplayEntry.key).Nodup ∧ (∀ entry ∈ entries, entry.key ∉ swept) ∧
      swept.len + entries.length ≤ cache.capacity
    (fits ∧ cache.checkAndInsert entries now =
        ({ cache with inner := swept.insertAll (entries.map ReplayEntry.pair) }, .ok true)) ∨
      (¬ fits ∧ (cache.checkAndInsert entries now).1 = { cache with inner := swept } ∧
        (cache.checkAndInsert entries now).2 ≠ .ok true) := by
  intro swept fits
  have hunfold : cache.checkAndInsert entries now =
      if conflicts swept [] entries then ({ cache with inner := swept }, .ok false)
      else if swept.len + entries.length > cache.capacity then
        ({ cache with inner := swept }, .error .replayCacheFull)
      else ({ cache with inner := swept.insertAll (entries.map ReplayEntry.pair) }, .ok true) :=
    rfl
  by_cases hconflict : conflicts swept [] entries = true
  · refine .inr ⟨?_, by simp [hunfold, hconflict], by simp [hunfold, hconflict]⟩
    rintro ⟨hnodup, hfresh, _⟩
    have : conflicts swept [] entries = false :=
      conflicts_eq_false_iff.mpr ⟨hnodup, fun e he => ⟨by simp, hfresh e he⟩⟩
    exact Bool.false_ne_true (this.symm.trans hconflict)
  · have hclear : conflicts swept [] entries = false := by simpa using hconflict
    obtain ⟨hnodup, hfresh⟩ := conflicts_eq_false_iff.mp hclear
    by_cases hfull : swept.len + entries.length > cache.capacity
    · refine .inr ⟨fun h => absurd h.2.2 (by omega), ?_, ?_⟩ <;> simp [hunfold, hclear, hfull]
    · exact .inl ⟨⟨hnodup, fun e he => (hfresh e he).2, by omega⟩,
        by simp [hunfold, hclear, hfull]⟩

/-- A tombstone that has not lapsed survives a call. -/
theorem lookup_checkAndInsert {cache : InMemoryReplayCache} {k : ReplayKey} {e now : SystemTime}
    (stored : cache.inner.lookup k = some e) (live : now < e) (entries : List ReplayEntry) :
    (cache.checkAndInsert entries now).1.inner.lookup k = some e := by
  have hswept : (cache.inner.retain fun exp => decide (exp > now)).lookup k = some e :=
    ExpiryMap.lookup_retain.mpr ⟨stored, by simpa using live⟩
  rcases checkAndInsert_cases cache entries now with ⟨⟨hnodup, hfresh, _⟩, heq⟩ | ⟨_, hnext, _⟩
  · rw [heq]
    refine (ExpiryMap.lookup_insertAll ?_ ?_ k e).mpr (.inl hswept)
    · rw [List.map_map]
      exact hnodup
    · intro p hp
      obtain ⟨entry, hentry, rfl⟩ := List.mem_map.mp hp
      exact hfresh entry hentry
  · rw [hnext]
    exact hswept

/-- A refused call leaves the tombstones that have not lapsed and no other. -/
theorem lookup_checkAndInsert_refused {cache : InMemoryReplayCache} {entries : List ReplayEntry}
    {now : SystemTime} (refused : (cache.checkAndInsert entries now).2 ≠ .ok true)
    (k : ReplayKey) (e : SystemTime) :
    (cache.checkAndInsert entries now).1.inner.lookup k = some e ↔
      cache.inner.lookup k = some e ∧ now < e := by
  rcases checkAndInsert_cases cache entries now with ⟨_, heq⟩ | ⟨_, hnext, _⟩
  · exact absurd (congrArg Prod.snd heq) refused
  · rw [hnext, ExpiryMap.lookup_retain]
    simp

/-- A tombstone reserved on its own was not live, and is stored. -/
theorem checkAndInsert_single {cache : InMemoryReplayCache} {entry : ReplayEntry}
    {now : SystemTime} (fresh : (cache.checkAndInsert [entry] now).2 = .ok true) :
    (∀ e, cache.inner.lookup entry.key = some e → e ≤ now) ∧
      (cache.checkAndInsert [entry] now).1.inner.lookup entry.key = some entry.expiresAt := by
  rcases checkAndInsert_cases cache [entry] now with ⟨⟨hnodup, hfresh, _⟩, heq⟩ | ⟨_, _, hrefused⟩
  · have hnew := hfresh entry (List.mem_singleton_self entry)
    constructor
    · intro e hlookup
      by_contra hlive
      refine hnew (AList.lookup_isSome.mp ?_)
      rw [ExpiryMap.lookup_retain.mpr ⟨hlookup, by simpa using hlive⟩]
      rfl
    · rw [heq]
      exact AList.lookup_insert _
  · exact absurd fresh hrefused

end InMemoryReplayCache

/-- One call of the cache: the batch and the clock value it carries. -/
structure Call where
  entries : List ReplayEntry
  now : SystemTime

/-- The cache as a machine over calls. -/
def machine : Machine InMemoryReplayCache Call (Result Bool) where
  step cache call := cache.checkAndInsert call.entries call.now

/-- The reservations made by the calls of a run that were answered true. -/
def reserved (cache : InMemoryReplayCache) (calls : List Call) :
    Set (ReplayKey × SystemTime) :=
  {p | ∃ before call rest, calls = before ++ call :: rest ∧
    machine.answer cache before call = .ok true ∧ p ∈ call.entries.map ReplayEntry.pair}

/-- Clock values that never go back along a run. -/
def Monotone (calls : List Call) : Prop := calls.Pairwise fun a b => a.now ≤ b.now

theorem reserved_concat (cache : InMemoryReplayCache) (calls : List Call) (call : Call) :
    reserved cache (calls ++ [call]) = reserved cache calls ∪
      {p | machine.answer cache calls call = .ok true ∧ p ∈ call.entries.map ReplayEntry.pair} := by
  ext p
  simp only [reserved, Set.mem_union, Set.mem_ofPred_eq]
  constructor
  · rintro ⟨before, c, rest, heq, hans, hp⟩
    induction rest using List.reverseRecOn with
    | nil =>
        obtain ⟨rfl, hc⟩ := List.append_inj' heq rfl
        obtain rfl : call = c := by simpa using hc
        exact .inr ⟨hans, hp⟩
    | append_singleton rest last _ =>
        rw [← List.cons_append, ← List.append_assoc] at heq
        obtain ⟨rfl, _⟩ := List.append_inj' heq rfl
        exact .inl ⟨before, c, rest, rfl, hans, hp⟩
  · rintro (⟨before, c, rest, rfl, hans, hp⟩ | ⟨hans, hp⟩)
    · exact ⟨before, c, rest ++ [call], by simp, hans, hp⟩
    · exact ⟨calls, call, [], rfl, hans, hp⟩

end Saml.Replay
