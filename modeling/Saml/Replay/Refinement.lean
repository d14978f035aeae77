import Saml.Replay.Cache

/-!
# The replay cache refines an expiring set

Along every run whose clock values do not go back, sweeping the cache leaves
exactly the reservations that have not lapsed. The answers, the capacity bound
and the single use of a key before its expiry follow from that.
-/

namespace Saml.Replay

open Library InMemoryReplayCache

/-- The cache of a run: within its capacity, and once swept at a clock value
no earlier than the run's, it holds the unexpired reservations of the run. -/
structure Tracks (capacity : Nat) (history : Set (ReplayKey × SystemTime)) (calls : List Call)
    (cache : InMemoryReplayCache) : Prop where
  capacity_eq : cache.capacity = capacity
  len_le : cache.len ≤ capacity
  swept : ∀ now, (∀ c ∈ calls, c.now ≤ now) →
    Holds history now (cache.inner.retain fun exp => decide (exp > now))

theorem tracks_new (capacity : Nat) :
    Tracks capacity (reserved (new capacity) []) [] (new capacity) where
  capacity_eq := rfl
  len_le := Nat.zero_le _
  swept := by
    intro now _ k e
    rw [ExpiryMap.lookup_retain]
    simp [new, reserved, unexpired]

/-- A refused call only sweeps, which keeps the unexpired reservations. -/
theorem Tracks.refused {capacity : Nat} {history : Set (ReplayKey × SystemTime)}
    {calls : List Call} {cache next : InMemoryReplayCache} {call : Call}
    (h : Tracks capacity history calls cache) (before : ∀ c ∈ calls, c.now ≤ call.now)
    (hnext : next = { cache with inner := cache.inner.retain fun exp => decide (exp > call.now) }) :
    Tracks capacity history (calls ++ [call]) next where
  capacity_eq := by rw [hnext]; exact h.capacity_eq
  len_le := by
    rw [hnext]
    exact (ExpiryMap.len_retain_le _ _).trans h.len_le
  swept := by
    intro now hnow k e
    have hcall : call.now ≤ now := hnow call (by simp)
    rw [hnext, ExpiryMap.lookup_retain, h.swept call.now before k e]
    simp only [unexpired, Set.mem_ofPred_eq, decide_eq_true_eq, gt_iff_lt]
    exact ⟨fun ⟨⟨hin, _⟩, hlt⟩ => ⟨hin, hlt⟩,
      fun ⟨hin, hlt⟩ => ⟨⟨hin, lt_of_le_of_lt hcall hlt⟩, hlt⟩⟩

/-- An accepted batch adds its reservations. -/
theorem Tracks.accepted {capacity : Nat} {history : Set (ReplayKey × SystemTime)}
    {calls : List Call} {cache : InMemoryReplayCache} {call : Call}
    (h : Tracks capacity history calls cache) (before : ∀ c ∈ calls, c.now ≤ call.now)
    (nodup : (call.entries.map ReplayEntry.key).Nodup)
    (fresh : ∀ entry ∈ call.entries,
      entry.key ∉ cache.inner.retain fun exp => decide (exp > call.now))
    (fits : (cache.inner.retain fun exp => decide (exp > call.now)).len + call.entries.length ≤
      cache.capacity) :
    Tracks capacity (history ∪ {p | p ∈ call.entries.map ReplayEntry.pair}) (calls ++ [call])
      { cache with
        inner := (cache.inner.retain fun exp => decide (exp > call.now)).insertAll
          (call.entries.map ReplayEntry.pair) } := by
  have hkeys : ((call.entries.map ReplayEntry.pair).map Prod.fst).Nodup := by
    rw [List.map_map]
    exact nodup
  have hfresh : ∀ p ∈ call.entries.map ReplayEntry.pair,
      p.1 ∉ cache.inner.retain fun exp => decide (exp > call.now) := by
    intro p hp
    obtain ⟨entry, hentry, rfl⟩ := List.mem_map.mp hp
    exact fresh entry hentry
  refine ⟨h.capacity_eq, ?_, ?_⟩
  · have hlen := ExpiryMap.len_insertAll hkeys hfresh
    rw [List.length_map] at hlen
    have hle := hlen.trans_le fits
    exact hle.trans h.capacity_eq.le
  · intro now hnow k e
    have hcall : call.now ≤ now := hnow call (by simp)
    rw [ExpiryMap.lookup_retain, ExpiryMap.lookup_insertAll hkeys hfresh,
      h.swept call.now before k e]
    simp only [unexpired, Set.mem_ofPred_eq, decide_eq_true_eq, gt_iff_lt, Set.mem_union]
    constructor
    · rintro ⟨⟨hin, _⟩ | hin, hlt⟩
      · exact ⟨.inl hin, hlt⟩
      · exact ⟨.inr hin, hlt⟩
    · rintro ⟨hin | hin, hlt⟩
      · exact ⟨.inl ⟨hin, lt_of_le_of_lt hcall hlt⟩, hlt⟩
      · exact ⟨.inr hin, hlt⟩

theorem monotone_before {before : List Call} {call : Call} (mono : Monotone (before ++ [call])) :
    ∀ c ∈ before, c.now ≤ call.now := fun c hc =>
  (List.pairwise_append.mp mono).2.2 c hc call (List.mem_singleton_self call)

/-- The step of a run: one call keeps the cache on the run's reservations. -/
theorem Tracks.step {capacity : Nat} {calls : List Call} {call : Call}
    (h : Tracks capacity (reserved (new capacity) calls) calls
      (machine.after (new capacity) calls))
    (before : ∀ c ∈ calls, c.now ≤ call.now) :
    Tracks capacity (reserved (new capacity) (calls ++ [call])) (calls ++ [call])
      (machine.after (new capacity) (calls ++ [call])) := by
  rw [reserved_concat, Machine.after_concat]
  rcases checkAndInsert_cases (machine.after (new capacity) calls) call.entries call.now with
    ⟨⟨hnodup, hfresh, hfits⟩, heq⟩ | ⟨_, hnext, hans⟩
  · have hanswer : machine.answer (new capacity) calls call = .ok true := congrArg Prod.snd heq
    have hstate := congrArg Prod.fst heq
    simp only [hanswer, true_and]
    change Tracks _ _ _ ((machine.after (new capacity) calls).checkAndInsert _ _).1
    rw [hstate]
    exact h.accepted before hnodup hfresh hfits
  · have hanswer : ¬ machine.answer (new capacity) calls call = .ok true := hans
    simp only [hanswer, false_and, Set.ofPred_false, Set.union_empty]
    exact h.refused before hnext

/-- The run lemma: the cache of every run tracks the run's reservations. -/
theorem tracks_run (capacity : Nat) (calls : List Call) (mono : Monotone calls) :
    Tracks capacity (reserved (new capacity) calls) calls
      (machine.after (new capacity) calls) := by
  induction calls using List.reverseRecOn with
  | nil => exact tracks_new capacity
  | append_singleton before call ih =>
      have hmono : Monotone before := (List.pairwise_append.mp mono).1
      exact (ih hmono).step (monotone_before mono)

/-- A call is answered true exactly when its keys are distinct, none is live
and the unexpired reservations leave room for it. -/
theorem answer_iff (capacity : Nat) (before : List Call) (call : Call)
    (mono : Monotone (before ++ [call])) :
    machine.answer (new capacity) before call = .ok true ↔
      (∀ entry ∈ call.entries, ¬ Live (reserved (new capacity) before) call.now entry.key) ∧
      (call.entries.map ReplayEntry.key).Nodup ∧
      (unexpired (reserved (new capacity) before) call.now).ncard + call.entries.length ≤
        capacity := by
  have htracks := tracks_run capacity before (List.pairwise_append.mp mono).1
  have hholds := htracks.swept call.now (monotone_before mono)
  rw [hholds.ncard_unexpired]
  simp only [hholds.live_iff]
  have hcapacity := htracks.capacity_eq
  rcases checkAndInsert_cases (machine.after (new capacity) before) call.entries call.now with
    ⟨⟨hnodup, hfresh, hfits⟩, heq⟩ | ⟨hnot, _, hans⟩
  · exact iff_of_true (congrArg Prod.snd heq) ⟨hfresh, hnodup, hfits.trans_eq hcapacity⟩
  · exact iff_of_false hans fun h => hnot ⟨h.2.1, h.1, h.2.2.trans_eq hcapacity.symm⟩

/-- A refused call leaves every live entry as it was. -/
theorem refused_keeps (cache : InMemoryReplayCache) (call : Call)
    (hans : (cache.checkAndInsert call.entries call.now).2 ≠ .ok true) (k : ReplayKey)
    (e : SystemTime) (live : call.now < e) :
    (cache.checkAndInsert call.entries call.now).1.inner.lookup k = some e ↔
      cache.inner.lookup k = some e := by
  rcases checkAndInsert_cases cache call.entries call.now with ⟨_, heq⟩ | ⟨_, hnext, _⟩
  · exact absurd (congrArg Prod.snd heq) hans
  · rw [hnext, ExpiryMap.lookup_retain]
    simp [live]

/-- Caches that differ at most in entries that have lapsed at an instant. -/
structure SweptAlike (now : SystemTime) (a b : InMemoryReplayCache) : Prop where
  capacity : a.capacity = b.capacity
  swept : (a.inner.retain fun exp => decide (exp > now)) =
    b.inner.retain fun exp => decide (exp > now)

theorem SweptAlike.refl (now : SystemTime) (a : InMemoryReplayCache) : SweptAlike now a a :=
  ⟨rfl, rfl⟩

theorem SweptAlike.mono {now later : SystemTime} {a b : InMemoryReplayCache}
    (h : SweptAlike now a b) (hle : now ≤ later) : SweptAlike later a b := by
  refine ⟨h.capacity, ?_⟩
  have himplied (e : SystemTime) (he : decide (e > later) = true) : decide (e > now) = true := by
    rw [decide_eq_true_eq] at he ⊢
    exact lt_of_le_of_lt hle he
  rw [← ExpiryMap.retain_retain himplied a.inner, h.swept, ExpiryMap.retain_retain himplied]

/-- Caches that are alike once swept are not told apart by a call. -/
theorem SweptAlike.checkAndInsert_eq {now : SystemTime} {a b : InMemoryReplayCache}
    (h : SweptAlike now a b) (entries : List ReplayEntry) :
    a.checkAndInsert entries now = b.checkAndInsert entries now := by
  rcases a with ⟨capacity, inner⟩
  rcases b with ⟨capacity', inner'⟩
  obtain rfl : capacity = capacity' := h.capacity
  have hswept : (inner.retain fun exp => decide (exp > now)) =
      inner'.retain fun exp => decide (exp > now) := h.swept
  unfold checkAndInsert
  simp only [hswept]

/-- A refused call only sweeps. -/
theorem sweptAlike_refused {cache : InMemoryReplayCache} {entries : List ReplayEntry}
    {now : SystemTime} (refused : (cache.checkAndInsert entries now).2 ≠ .ok true) :
    SweptAlike now (cache.checkAndInsert entries now).1 cache := by
  rcases checkAndInsert_cases cache entries now with ⟨_, heq⟩ | ⟨_, hnext, _⟩
  · exact absurd (congrArg Prod.snd heq) refused
  · rw [hnext]
    exact ⟨rfl, ExpiryMap.retain_retain (fun _ he => he) cache.inner⟩

/-- An entry accepted earlier in the run is reserved. -/
theorem mem_reserved {cache : InMemoryReplayCache} {earlier rest : List Call} {old : Call}
    (hans : machine.answer cache earlier old = .ok true) {entry : ReplayEntry}
    (hentry : entry ∈ old.entries) :
    (entry.key, entry.expiresAt) ∈ reserved cache (earlier ++ old :: rest) :=
  ⟨earlier, old, rest, rfl, hans, List.mem_map_of_mem hentry⟩

/-- Along every run with a clock that does not go back the cache answers like
an expiring set of its capacity: refused batches change no live entry, and a
key is answered true again only at or after its expiry. -/
theorem cache_refines_expiringSet (capacity : Nat) (calls : List Call) (mono : Monotone calls) :
    (machine.after (new capacity) calls).len ≤ capacity ∧
    ∀ before call rest, calls = before ++ call :: rest →
      (machine.answer (new capacity) before call = .ok true ↔
        (∀ entry ∈ call.entries, ¬ Live (reserved (new capacity) before) call.now entry.key) ∧
        (call.entries.map ReplayEntry.key).Nodup ∧
        (unexpired (reserved (new capacity) before) call.now).ncard + call.entries.length ≤
          capacity) ∧
      (machine.answer (new capacity) before call ≠ .ok true → ∀ k e, call.now < e →
        ((machine.after (new capacity) (before ++ [call])).inner.lookup k = some e ↔
          (machine.after (new capacity) before).inner.lookup k = some e)) ∧
      (machine.answer (new capacity) before call = .ok true →
        ∀ earlier old between, before = earlier ++ old :: between →
          machine.answer (new capacity) earlier old = .ok true →
          ∀ first ∈ old.entries, ∀ second ∈ call.entries, first.key = second.key →
            first.expiresAt ≤ call.now) := by
  refine ⟨(tracks_run capacity calls mono).len_le, ?_⟩
  rintro before call rest rfl
  have hmono : Monotone (before ++ [call]) :=
    mono.sublist (List.append_sublist_append_left before |>.mpr (by simp))
  have hiff := answer_iff capacity before call hmono
  refine ⟨hiff, ?_, ?_⟩
  · intro hans k e live
    rw [Machine.after_concat]
    exact refused_keeps _ call hans k e live
  · rintro hans earlier old between rfl hold first hfirst second hsecond hkey
    by_contra hlive
    refine (hiff.mp hans).1 second hsecond ⟨first.expiresAt, ?_, not_le.mp hlive⟩
    rw [← hkey]
    exact mem_reserved hold hfirst

/-- An instant given in seconds after the epoch. -/
def atSecond (n : Fin 1000) : SystemTime :=
  ⟨n.val * NANOS, by
    have := n.isLt
    simp only [NANOS]
    omega⟩

/-- A second presentation of one assertion while its tombstone is live. -/
def replayedCalls : List Call :=
  [⟨[.assertion "_a" (atSecond 60)], atSecond 0⟩, ⟨[.assertion "_a" (atSecond 60)], atSecond 30⟩]

theorem cache_refines_expiringSet_replayed :
    Monotone replayedCalls ∧ (machine.after (new 2) replayedCalls).len ≤ 2 := by
  have hmono : Monotone replayedCalls := by
    refine List.pairwise_pair.mpr ?_
    decide
  exact ⟨hmono, (cache_refines_expiringSet 2 replayedCalls hmono).1⟩

/-- A batch that names one fresh key twice is refused although no key of it is
live and there is room for both entries. -/
theorem inBatchDuplicate_refused :
    let call : Call := ⟨[.assertion "_a" (atSecond 60), .assertion "_a" (atSecond 60)], atSecond 0⟩
    Monotone [call] ∧
      (∀ entry ∈ call.entries, ¬ Live (reserved (new 2) []) call.now entry.key) ∧
      (unexpired (reserved (new 2) []) call.now).ncard + call.entries.length ≤ 2 ∧
      machine.answer (new 2) [] call = .ok false := by
  have hempty : reserved (new 2) [] = ∅ := by
    ext p
    simp [reserved]
  refine ⟨List.pairwise_singleton _ _, ?_, ?_, rfl⟩
  · simp [hempty, Live, unexpired]
  · simp [hempty, unexpired]

end Saml.Replay
