import Saml.Sp
import Saml.Response.Soundness

/-!
# Single use of an assertion

Service providers that share one cache take their calls to it in some order,
each with the clock value it sampled for itself. An assertion is accepted once
as long as no call overtakes its tombstone.
-/

namespace Saml.Replay

open Xml Crypto Response Library InMemoryReplayCache ServiceProvider

variable (crypto : Primitives) (qx : QuickXml)

/-- A consumption by one of the service providers. -/
structure Consumption where
  sp : ServiceProvider
  input : ConsumeResponse

namespace Consumption

/-- What the call validates, before it reaches the cache. -/
def validated (call : Consumption) : Result Identity :=
  call.sp.validatedIdentity crypto qx call.input

/-- The issuer of the assertions the call validates. -/
def issuer (call : Consumption) : Str := call.input.idp.entityId

/-- The call submits every assertion and has the common clock tolerance. -/
def Shares (skew : Duration) (call : Consumption) : Prop :=
  call.input.replayMode = .all ∧ call.input.clockSkew = skew

end Consumption

/-- The service providers around their cache, call after call. -/
def consumptions : Machine (Option InMemoryReplayCache) Consumption (Result Identity) where
  step cache call := call.sp.consumeResponse crypto qx call.input cache

/-- The result of a call that follows others over a new cache. -/
def resultAfter (capacity : Nat) (before : List Consumption) (call : Consumption) :
    Result Identity :=
  (consumptions crypto qx).answer (some (new capacity)) before call

/-- No assertion is accepted by two calls of a run. -/
def SingleUse (capacity : Nat) (calls : List Consumption) : Prop :=
  ∀ before first middle second rest a b,
    calls = before ++ first :: (middle ++ second :: rest) →
    resultAfter crypto qx capacity before first = .ok a →
    resultAfter crypto qx capacity (before ++ first :: middle) second = .ok b →
    (first.issuer, a.assertionId) ≠ (second.issuer, b.assertionId)

/-- The tombstone of an assertion is kept until the assertion comes again: no
call that reaches the cache from its first use to the next has a clock value at
or past the end of its validity and the tolerance. -/
def Retained (skew : Duration) (calls : List Consumption) : Prop :=
  ∀ before first middle second rest a b expiry,
    calls = before ++ first :: (middle ++ second :: rest) →
    first.validated crypto qx = .ok a → second.validated crypto qx = .ok b →
    (first.issuer, a.assertionId) = (second.issuer, b.assertionId) →
    a.notOnOrAfter.checkedAdd skew = some expiry →
    ∀ call ∈ middle ++ [second], (call.validated crypto qx).isOk → call.input.now < expiry

/-! ## Steps -/

/-- A tombstone that has not lapsed survives an offer. -/
theorem lookup_reserve {cache : InMemoryReplayCache} {k : ReplayKey} {e : SystemTime}
    {input : ConsumeResponse} (stored : cache.inner.lookup k = some e) (live : input.now < e)
    (identity : Identity) (replayError : Error) :
    (reserve cache input identity none replayError).1.inner.lookup k = some e := by
  unfold reserve
  cases hexpires : replayExpiresAt identity.notOnOrAfter input.clockSkew with
  | error err => exact stored
  | ok expiresAt =>
      have hkept := lookup_checkAndInsert stored live
        [ReplayEntry.assertion identity.assertionId expiresAt]
      simp only [Option.getD_none]
      split <;> rename_i heq <;> rw [heq] at hkept <;> exact hkept

/-- An accepted offer found no live tombstone and left its own. -/
theorem reserve_eq_ok {cache : InMemoryReplayCache} {input : ConsumeResponse}
    {identity accepted : Identity} {replayError : Error}
    (h : (reserve cache input identity none replayError).2 = .ok accepted) :
    accepted = identity ∧ ∃ expiry,
      identity.notOnOrAfter.checkedAdd input.clockSkew = some expiry ∧
      (∀ e, cache.inner.lookup (.assertion, identity.assertionId) = some e → e ≤ input.now) ∧
      (reserve cache input identity none replayError).1.inner.lookup
        (.assertion, identity.assertionId) = some expiry := by
  unfold reserve at h ⊢
  cases hexpires : replayExpiresAt identity.notOnOrAfter input.clockSkew with
  | error err => simp [hexpires] at h
  | ok expiresAt =>
      simp only [hexpires, Option.getD_none] at h ⊢
      cases hcall : cache.checkAndInsert
        [ReplayEntry.assertion identity.assertionId expiresAt] input.now with
      | mk next answer =>
          rw [hcall] at h
          match answer, h with
          | .ok true, h =>
              obtain ⟨hfresh, hstored⟩ := checkAndInsert_single (congrArg Prod.snd hcall)
              rw [hcall] at hstored
              exact ⟨(Except.ok.inj h).symm, expiresAt, okOr_eq_ok_iff.mp hexpires, hfresh,
                hstored⟩

variable {crypto qx}

/-- The step of a run: a call keeps every tombstone its clock has not reached. -/
theorem step_keeps {skew : Duration} {call : Consumption} {cache : InMemoryReplayCache}
    {k : ReplayKey} {e : SystemTime} (shares : call.Shares skew)
    (stored : cache.inner.lookup k = some e)
    (live : (call.validated crypto qx).isOk → call.input.now < e) :
    ∃ next, ((consumptions crypto qx).step (some cache) call).1 = some next ∧
      next.inner.lookup k = some e := by
  rcases call.sp.consumeResponse_cases crypto qx shares.1 cache with
    ⟨err, _, heq⟩ | ⟨identity, hvalid, heq⟩
  · exact ⟨cache, congrArg Prod.fst heq, stored⟩
  · refine ⟨_, congrArg Prod.fst heq, lookup_reserve stored (live ?_) identity _⟩
    simp [Consumption.validated, hvalid, Except.isOk, Except.toBool]

/-- The run lemma: calls whose clocks have not reached a tombstone keep it. -/
theorem after_keeps {skew : Duration} {calls : List Consumption} {cache : InMemoryReplayCache}
    {k : ReplayKey} {e : SystemTime} (shares : ∀ call ∈ calls, call.Shares skew)
    (stored : cache.inner.lookup k = some e)
    (live : ∀ call ∈ calls, (call.validated crypto qx).isOk → call.input.now < e) :
    ∃ next, (consumptions crypto qx).after (some cache) calls = some next ∧
      next.inner.lookup k = some e := by
  induction calls generalizing cache with
  | nil => exact ⟨cache, rfl, stored⟩
  | cons call rest ih =>
      obtain ⟨next, hnext, hstored⟩ := step_keeps (shares call List.mem_cons_self) stored
        (live call List.mem_cons_self)
      rw [Machine.after_cons, hnext]
      exact ih (fun c hc => shares c (List.mem_cons_of_mem _ hc)) hstored
        (fun c hc => live c (List.mem_cons_of_mem _ hc))

/-- Every run leaves a cache. -/
theorem after_isSome {skew : Duration} {calls : List Consumption} (cache : InMemoryReplayCache)
    (shares : ∀ call ∈ calls, call.Shares skew) :
    ∃ next, (consumptions crypto qx).after (some cache) calls = some next := by
  induction calls generalizing cache with
  | nil => exact ⟨cache, rfl⟩
  | cons call rest ih =>
      have hrest := fun c hc => shares c (List.mem_cons_of_mem _ hc)
      rw [Machine.after_cons]
      rcases call.sp.consumeResponse_cases crypto qx (shares call List.mem_cons_self).1 cache with
        ⟨err, _, heq⟩ | ⟨identity, _, heq⟩
      · rw [show ((consumptions crypto qx).step (some cache) call).1 = _ from
          congrArg Prod.fst heq]
        exact ih _ hrest
      · rw [show ((consumptions crypto qx).step (some cache) call).1 = _ from
          congrArg Prod.fst heq]
        exact ih _ hrest

/-- An accepted call validated its assertion, found no live tombstone for it
and left one. -/
theorem step_accepted {skew : Duration} {call : Consumption} {cache : InMemoryReplayCache}
    {identity : Identity} (shares : call.Shares skew)
    (h : ((consumptions crypto qx).step (some cache) call).2 = .ok identity) :
    call.validated crypto qx = .ok identity ∧
      (∀ e, cache.inner.lookup (.assertion, identity.assertionId) = some e →
        e ≤ call.input.now) ∧
      ∃ expiry next, identity.notOnOrAfter.checkedAdd skew = some expiry ∧
        ((consumptions crypto qx).step (some cache) call).1 = some next ∧
        next.inner.lookup (.assertion, identity.assertionId) = some expiry := by
  rcases call.sp.consumeResponse_cases crypto qx shares.1 cache with
    ⟨err, _, heq⟩ | ⟨found, hvalid, heq⟩
  · rw [show ((consumptions crypto qx).step (some cache) call).2 = _ from
      congrArg Prod.snd heq] at h
    cases h
  · rw [show ((consumptions crypto qx).step (some cache) call).2 = _ from
      congrArg Prod.snd heq] at h
    obtain ⟨rfl, expiry, hexpiry, hfresh, hstored⟩ := reserve_eq_ok h
    rw [shares.2] at hexpiry
    exact ⟨hvalid, hfresh, expiry, _, hexpiry, congrArg Prod.fst heq, hstored⟩

/-! ## Runs -/

/-- Single use of an assertion in every run that keeps the tombstones. -/
theorem singleUse_of_retained (capacity : Nat) (skew : Duration) (calls : List Consumption)
    (shares : ∀ call ∈ calls, call.Shares skew) (retained : Retained crypto qx skew calls) :
    SingleUse crypto qx capacity calls := by
  rintro before first middle second rest a b rfl hfirst hsecond hsame
  have hin : ∀ {call}, call ∈ before ∨ call = first ∨ call ∈ middle ∨ call = second →
      call.Shares skew := by
    intro call hcall
    apply shares
    simp only [List.mem_append, List.mem_cons]
    tauto
  obtain ⟨cache, hcache⟩ : ∃ cache,
      (consumptions crypto qx).after (some (new capacity)) before = some cache :=
    after_isSome (new capacity) fun call hcall => hin (.inl hcall)
  -- The first use leaves the tombstone.
  rw [resultAfter, Machine.answer, hcache] at hfirst
  obtain ⟨hvalidA, _, expiry, next, hexpiry, hnext, hstored⟩ :=
    step_accepted (hin (.inr (.inl rfl))) hfirst
  -- The calls in between keep it.
  have hlive : ∀ call ∈ middle ++ [second], (call.validated crypto qx).isOk →
      call.input.now < expiry := by
    have hvalidB : second.validated crypto qx = .ok b := by
      obtain ⟨state, hstate⟩ : ∃ state, (consumptions crypto qx).after (some (new capacity))
          (before ++ first :: middle) = some state := by
        apply after_isSome (new capacity)
        intro call hcall
        simp only [List.mem_append, List.mem_cons] at hcall
        exact hin (by tauto)
      rw [resultAfter, Machine.answer, hstate] at hsecond
      exact (step_accepted (hin (.inr (.inr (.inr rfl)))) hsecond).1
    exact retained before first middle second rest a b expiry rfl hvalidA hvalidB hsame hexpiry
  obtain ⟨last, hlast, hkept⟩ := after_keeps (fun call hcall => hin (.inr (.inr (.inl hcall))))
    hstored fun call hcall => hlive call (List.mem_append_left _ hcall)
  -- So the second use finds it.
  have hstate : (consumptions crypto qx).after (some (new capacity)) (before ++ first :: middle) =
      some last := by
    rw [Machine.after_append, hcache, Machine.after_cons, hnext, hlast]
  rw [resultAfter, Machine.answer, hstate] at hsecond
  obtain ⟨hvalidB, hfresh, _⟩ := step_accepted (hin (.inr (.inr (.inr rfl)))) hsecond
  obtain ⟨_, hid⟩ := Prod.mk.inj hsame
  rw [← hid] at hfresh
  have hlapsed := hfresh expiry hkept
  have hnow := hlive second (by simp) (by simp [hvalidB, Except.isOk, Except.toBool])
  exact absurd hnow (not_lt.mpr hlapsed)

/-- What a call validates is still valid at its clock value. -/
theorem validated_now {call : Consumption} {identity : Identity} {skew : Duration}
    (shares : call.Shares skew) (h : call.validated crypto qx = .ok identity) :
    call.input.now.nanos < identity.notOnOrAfter.nanos + skew.nanos := by
  obtain ⟨_, _, h⟩ := bind_eq_ok_iff.mp h
  obtain ⟨document, _, h⟩ := bind_eq_ok_iff.mp h
  obtain ⟨⟨parsed, _⟩, _, h⟩ := bind_eq_ok_iff.mp h
  obtain ⟨found, hfound, h⟩ := bind_eq_ok_iff.mp h
  obtain ⟨_, _, h⟩ := bind_eq_ok_iff.mp h
  obtain ⟨_, _, h⟩ := bind_eq_ok_iff.mp h
  obtain rfl := Except.ok.inj h
  obtain ⟨_, _, located, _, hextract⟩ := validateResponse_ok hfound
  obtain ⟨_, assertion, _, haccepted⟩ := extractIdentity_ok hextract
  have hwindow := haccepted.notOnOrAfter.2
  have hskew : call.input.clockSkew = skew := shares.2
  simp only [validationInput, hskew] at hwindow
  omega

/-- Clock values that reach the cache in their order keep the tombstones, when
an assertion carries one end of validity wherever it is presented. -/
theorem retained_of_ordered {skew : Duration} {calls : List Consumption}
    (shares : ∀ call ∈ calls, call.Shares skew)
    (ordered : calls.Pairwise fun first second => first.input.now ≤ second.input.now)
    (agree : ∀ first ∈ calls, ∀ second ∈ calls, ∀ a b, first.validated crypto qx = .ok a →
      second.validated crypto qx = .ok b →
      (first.issuer, a.assertionId) = (second.issuer, b.assertionId) →
      a.notOnOrAfter = b.notOnOrAfter) :
    Retained crypto qx skew calls := by
  rintro before first middle second rest a b expiry rfl hfirst hsecond hsame hexpiry call hcall _
  have hmem : ∀ {c}, c ∈ first :: (middle ++ second :: rest) →
      c ∈ before ++ first :: (middle ++ second :: rest) := List.mem_append_right _
  have hend := agree first (hmem (by simp)) second (hmem (by simp)) a b hfirst hsecond hsame
  have hvalid := validated_now (shares second (hmem (by simp))) hsecond
  have horder : call.input.now ≤ second.input.now := by
    rcases List.mem_append.mp hcall with hmiddle | hlast
    · have htail := (List.pairwise_cons.mp (List.pairwise_append.mp ordered).2.1).2
      exact (List.pairwise_append.mp htail).2.2 call hmiddle second List.mem_cons_self
    · rw [List.mem_singleton.mp hlast]
  have hnanos := SystemTime.checkedAdd_eq_some_iff.mp hexpiry
  rw [SystemTime.lt_iff, hnanos, hend]
  exact lt_of_le_of_lt (SystemTime.le_iff.mp horder) hvalid

/-! ## A tombstone overtaken -/

namespace Overtaken

/-- The service provider of the sample exchange. -/
def sp : ServiceProvider where
  config := {
    entityId := "sp"
    acs := [⟨"acs", .httpPost, some 0, true⟩]
    slo := []
    nameIdFormats := []
    signingKey := none
    decryptionKey := none
    signAuthnRequests := false
    wantSigned := ⟨false, true⟩
    allowUnsolicited := false
    logoutSigning := ⟨false, false⟩
    logoutWantSigned := ⟨false, false⟩
    defaultPeerCryptoPolicy := .strongDefaults
    outboundSignatureAlgorithm := .rsaSha256
    outboundDigestAlgorithm := .sha256 }
  valid := ⟨validEntityId_of_all (by decide) (by decide), by decide, by decide⟩

/-- The login both assertions answer. -/
def tracker : LoginTracker where
  requestId := "request"
  issuedAt := Sample.now
  idpEntityId := "idp"
  acsEndpoint := ⟨"acs", .httpPost, some 0, true⟩
  requestedAuthnContext := none
  requestedNameIdFormat := none
  idpSigningCertFingerprints := [Sample.cert.fingerprintSha256 Transparent.primitives]
  idpArtifactResolutionServices := []

def skew : Duration := .ofSecs 60 Duration.minute_lt

/-- An instant at which the tombstone of the first assertion has lapsed. -/
def later : SystemTime := ⟨1700000400 * NANOS, by decide⟩

def input (now : SystemTime) (text : Str) : ConsumeResponse where
  idp := Response.Sample.idp
  peerCryptoPolicy := none
  samlResponse := Text.asBytes text
  binding := .httpPost
  tracker := some tracker
  expectedDestination := "acs"
  now := now
  clockSkew := skew
  replayMode := .all
  holderOfKeyCert := none

/-- A consumption of a response at an instant. -/
def consumption (now : SystemTime) (text : Str) : Consumption := ⟨sp, input now text⟩

/-- Issue a response at an instant and read its identity there. -/
def presented (now : SystemTime) (octet : UInt8) : Result (Str × Identity) := do
  let text ← issuedXml Transparent.primitives
    { Sample.issuance with now := now, authnInstant := now } (Sample.draws octet)
  let document ← Scanning.parseText text
  sp.validateTrackerContext Transparent.primitives (input now text)
  let identity ← sp.identityFrom Transparent.primitives Scanning.reader (input now text) document
  if '\r' ∈ text then .error .inflate else .ok (text, identity)

/-- The first assertion, the second one at a later instant, and the first one
again with the earlier clock value: the last offer is accepted. -/
def replayed : Result (Str × Str) := do
  let (first, a) ← presented Sample.now 4
  let (second, b) ← presented later 5
  let offer now text identity cache :=
    reserve cache (input now text) identity none .assertionReplay
  let (cache, accepted) := offer Sample.now first a (new 8)
  let (cache, _) := offer later second b cache
  let (_, again) := offer Sample.now first a cache
  if ¬ (accepted = .ok a ∧ again = .ok a) then .error .assertionReplay else .ok (first, second)

/-- The tombstone an identity is offered with. -/
def tombstone (identity : Identity) : Option ReplayEntry :=
  (replayExpiresAt identity.notOnOrAfter skew).toOption.map (.assertion identity.assertionId)

def firstTombstone : ReplayEntry :=
  .assertion "_04040404040404040404040404040404" ⟨1700000360 * NANOS, by decide⟩

def secondTombstone : ReplayEntry :=
  .assertion "_05050505050505050505050505050505" ⟨1700000760 * NANOS, by decide⟩

set_option maxRecDepth 20000 in
theorem presented_first :
    ((presented Sample.now 4).toOption.bind fun p => tombstone p.2) = some firstTombstone := by
  decide +kernel

set_option maxRecDepth 20000 in
theorem presented_second :
    ((presented later 5).toOption.bind fun p => tombstone p.2) = some secondTombstone := by
  decide +kernel

/-- A fresh tombstone is accepted. -/
theorem reserve_of_tombstone {cache : InMemoryReplayCache} {now : SystemTime} {text : Str}
    {identity : Identity} {entry : ReplayEntry} (h : tombstone identity = some entry)
    (fresh : (cache.checkAndInsert [entry] now).2 = .ok true) :
    reserve cache (input now text) identity none .assertionReplay =
      ((cache.checkAndInsert [entry] now).1, .ok identity) := by
  obtain ⟨expiry, hexpiry, rfl⟩ := Option.map_eq_some_iff.mp h
  have hexpires : replayExpiresAt identity.notOnOrAfter (input now text).clockSkew = .ok expiry :=
    ok_of_toOption hexpiry
  have hcall : cache.checkAndInsert [.assertion identity.assertionId expiry] (input now text).now =
      ((cache.checkAndInsert [.assertion identity.assertionId expiry] now).1, .ok true) :=
    Prod.ext rfl fresh
  simp only [reserve, hexpires, Option.getD_none, hcall]

theorem replayed_isOk : replayed.isOk = true := by
  obtain ⟨⟨first, a⟩, hfirst, ha⟩ := Option.bind_eq_some_iff.mp presented_first
  obtain ⟨⟨second, b⟩, hsecond, hb⟩ := Option.bind_eq_some_iff.mp presented_second
  let stored := ((new 8).checkAndInsert [firstTombstone] Sample.now).1
  let swept := (stored.checkAndInsert [secondTombstone] later).1
  have haccepted := @reserve_of_tombstone (new 8) Sample.now first a _ ha rfl
  have hlater := @reserve_of_tombstone stored later second b _ hb rfl
  have hagain := @reserve_of_tombstone swept Sample.now first a _ ha rfl
  let offer now text identity cache :=
    reserve cache (input now text) identity none .assertionReplay
  have hfresh : (offer Sample.now first a (new 8)).2 = .ok a := congrArg Prod.snd haccepted
  have hcache : (offer later second b (offer Sample.now first a (new 8)).1).1 = swept := by
    change (reserve (reserve _ _ _ _ _).1 _ _ _ _).1 = swept
    rw [haccepted, hlater]
  have hrepeated : (offer Sample.now first a
      (offer later second b (offer Sample.now first a (new 8)).1).1).2 = .ok a := by
    rw [hcache]
    exact congrArg Prod.snd hagain
  have hreplayed : replayed = .ok (first, second) := by
    refine bind_eq_ok_iff.mpr ⟨(first, a), ok_of_toOption hfirst, ?_⟩
    refine bind_eq_ok_iff.mpr ⟨(second, b), ok_of_toOption hsecond, ?_⟩
    exact if_neg (not_not_intro ⟨hfresh, hrepeated⟩)
  rw [hreplayed]
  rfl

/-- A presented response is what the service provider validates. -/
theorem presented_ok {now : SystemTime} {octet : UInt8} {text : Str} {identity : Identity}
    (h : presented now octet = .ok (text, identity)) :
    (consumption now text).validated Transparent.primitives Scanning.reader = .ok identity := by
  obtain ⟨issued, _, h⟩ := bind_eq_ok_iff.mp h
  obtain ⟨document, hdocument, h⟩ := bind_eq_ok_iff.mp h
  obtain ⟨_, hcontext, h⟩ := bind_eq_ok_iff.mp h
  obtain ⟨found, hfound, h⟩ := bind_eq_ok_iff.mp h
  obtain ⟨hreturn, h⟩ := ite_error_eq_ok_iff.mp h
  obtain ⟨rfl, rfl⟩ := Prod.mk.inj (Except.ok.inj h)
  refine bind_eq_ok_iff.mpr ⟨(), hcontext, bind_eq_ok_iff.mpr ⟨document, ?_, hfound⟩⟩
  exact (Scanning.parse_asBytes hreturn).trans hdocument

/-- A validated call offers its identity to the cache. -/
theorem step_consumption {now : SystemTime} {text : Str} {identity : Identity}
    (valid : (consumption now text).validated Transparent.primitives Scanning.reader =
      .ok identity) (cache : InMemoryReplayCache) :
    (consumptions Transparent.primitives Scanning.reader).step (some cache)
        (consumption now text) =
      (some (reserve cache (input now text) identity none .assertionReplay).1,
        (reserve cache (input now text) identity none .assertionReplay).2) := by
  have hall : (input now text).replayMode = .all := rfl
  rcases sp.consumeResponse_cases Transparent.primitives Scanning.reader hall cache with
    ⟨err, herr, _⟩ | ⟨found, hfound, heq⟩
  · cases valid.symm.trans herr
  · obtain rfl := Except.ok.inj (hfound.symm.trans valid)
    exact heq

/-- The steps of the run that accepts the first assertion twice. -/
theorem replayed_ok {first second : Str} (h : replayed = .ok (first, second)) :
    ∃ a, (consumption Sample.now first).validated Transparent.primitives Scanning.reader =
        .ok a ∧
      resultAfter Transparent.primitives Scanning.reader 8 [] (consumption Sample.now first) =
        .ok a ∧
      resultAfter Transparent.primitives Scanning.reader 8
        [consumption Sample.now first, consumption later second]
        (consumption Sample.now first) = .ok a := by
  obtain ⟨⟨text, a⟩, hfirst, h⟩ := bind_eq_ok_iff.mp h
  obtain ⟨⟨text', b⟩, hsecond, h⟩ := bind_eq_ok_iff.mp h
  obtain ⟨hboth, h⟩ := ite_error_eq_ok_iff.mp h
  obtain ⟨haccepted, hagain⟩ := not_not.mp hboth
  obtain ⟨rfl, rfl⟩ := Prod.mk.inj (Except.ok.inj h)
  have hvalidA := presented_ok hfirst
  have hvalidB := presented_ok hsecond
  refine ⟨a, hvalidA, ?_, ?_⟩
  · rw [resultAfter, Machine.answer, Machine.after_nil, step_consumption hvalidA]
    exact haccepted
  · rw [resultAfter, Machine.answer, Machine.after_cons, step_consumption hvalidA,
      Machine.after_cons, step_consumption hvalidB, Machine.after_nil, step_consumption hvalidA]
    exact hagain

end Overtaken

/-- A call with a later clock value sweeps the tombstone, and a call that
sampled its clock before accepts the assertion again. -/
theorem singleUse_overtaken : ∃ first second,
    Overtaken.replayed = .ok (first, second) ∧
      (∀ call ∈ [Overtaken.consumption Sample.now first,
          Overtaken.consumption Overtaken.later second, Overtaken.consumption Sample.now first],
        call.Shares Overtaken.skew) ∧
      ¬ SingleUse Transparent.primitives Scanning.reader 8
        [Overtaken.consumption Sample.now first, Overtaken.consumption Overtaken.later second,
          Overtaken.consumption Sample.now first] := by
  obtain ⟨⟨first, second⟩, hreplayed⟩ := exists_of_isOk Overtaken.replayed_isOk
  obtain ⟨a, _, hfirst, hagain⟩ := Overtaken.replayed_ok hreplayed
  refine ⟨first, second, hreplayed, ?_, ?_⟩
  · simp [Consumption.Shares, Overtaken.consumption, Overtaken.input]
  · intro h
    exact h [] _ [Overtaken.consumption Overtaken.later second] _ [] a a rfl hfirst hagain rfl

/-- The sample assertion, presented twice at one instant, is accepted once. -/
theorem singleUse_of_retained_sample : ∃ first second a,
    Overtaken.replayed = .ok (first, second) ∧
      resultAfter Transparent.primitives Scanning.reader 8 []
        (Overtaken.consumption Sample.now first) = .ok a ∧
      SingleUse Transparent.primitives Scanning.reader 8
        [Overtaken.consumption Sample.now first, Overtaken.consumption Sample.now first] := by
  obtain ⟨⟨first, second⟩, hreplayed⟩ := exists_of_isOk Overtaken.replayed_isOk
  obtain ⟨a, _, hfirst, _⟩ := Overtaken.replayed_ok hreplayed
  have hshares : ∀ call ∈ [Overtaken.consumption Sample.now first,
      Overtaken.consumption Sample.now first], call.Shares Overtaken.skew := by
    simp [Consumption.Shares, Overtaken.consumption, Overtaken.input]
  refine ⟨first, second, a, hreplayed, hfirst, ?_⟩
  refine singleUse_of_retained 8 Overtaken.skew _ hshares (retained_of_ordered hshares ?_ ?_)
  · simp
  · intro x hx y hy b c hb hc _
    obtain rfl : x = Overtaken.consumption Sample.now first := by simpa using hx
    obtain rfl : y = Overtaken.consumption Sample.now first := by simpa using hy
    rw [Except.ok.inj (hb.symm.trans hc)]

end Saml.Replay
