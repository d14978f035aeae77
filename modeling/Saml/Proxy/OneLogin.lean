import Saml.Idp.Destination
import Saml.Proxy.Relay
import Saml.Replay.Refinement

/-!
# One login for each bounce

Upstream responses come back under the token of a bounce, as often and in
whatever order, to proxies around one replay cache. The tombstone of the
transaction stands in for the one of the assertion: one response makes a flow,
a call that fails leaves no trace, and the flow is relayed by the proxy that
made it, to the service provider that asked.
-/

namespace Saml

open Xml Crypto Dsig Response Replay Authn Library

namespace Proxy

/-! ## Calls -/

/-- A call of `consume_upstream_response`, with the codec as it stands then. -/
structure UpstreamCall where
  proxy : Proxy
  codec : ProxyContextCodec
  input : ConsumeUpstreamResponse

variable (crypto : Primitives) (qx : QuickXml)

/-- The proxies around their cache, call after call. -/
def upstreamCalls : Machine InMemoryReplayCache UpstreamCall (Result UpstreamFlow) where
  step cache call :=
    let (next, result) := call.proxy.consumeUpstreamResponse crypto qx call.codec call.input cache
    (next.getD cache, result)

/-- The tombstone of a transaction. -/
def transactionEntry (payload : ProxyContextPayload) : ReplayEntry :=
  .proxyTransaction (base64UrlNoPad payload.transactionId.val) payload.expiresAt

/-- What becomes of a flow that is offered to the cache. -/
def answerFor (flow : UpstreamFlow) : Result Bool → Result UpstreamFlow
  | .ok true => .ok flow
  | .ok false => .error .proxyTransactionReplay
  | .error err => .error err

variable {crypto qx}

theorem answerFor_eq_ok {flow admitted : UpstreamFlow} {answer : Result Bool}
    (h : answerFor flow answer = .ok admitted) : answer = .ok true ∧ admitted = flow := by
  unfold answerFor at h
  split at h
  · exact ⟨rfl, (Except.ok.inj h).symm⟩
  · cases h
  · cases h

theorem upstreamContext_ok {codec : ProxyContextCodec} {input : ConsumeUpstreamResponse}
    {context : ProxyContext} (h : upstreamContext crypto codec input = .ok context) :
    codec.decode input.relayState = .ok context.payload ∧
      input.now < context.payload.expiresAt := by
  obtain ⟨opened, hopened, h⟩ := bind_eq_ok_iff.mp h
  obtain ⟨halive, h⟩ := ite_error_eq_ok_iff.mp h
  obtain ⟨_, h⟩ := ite_error_eq_ok_iff.mp h
  obtain rfl := Except.ok.inj h
  exact ⟨decodeContext_ok hopened, not_le.mp halive⟩

/-- A flow that a call offers to the cache: its context is the one the token
opened as, and has not expired. -/
structure Offers (call : UpstreamCall) (flow : UpstreamFlow) : Prop where
  opened : call.codec.decode call.input.relayState = .ok flow.context.payload
  alive : call.input.now < flow.context.payload.expiresAt
  maker : flow.proxyInstance = call.proxy.proxyInstance

/-- A validated response is submitted to the cache, whatever its conditions. -/
theorem consumeUpstreamResponse_reserve {call : UpstreamCall} {context : ProxyContext}
    {identity : Identity}
    (hcontext : upstreamContext crypto call.codec call.input = .ok context)
    (hvalid : call.proxy.sp.validatedIdentity crypto qx
      (call.input.consumeResponse context.payload) = .ok identity)
    (cache : InMemoryReplayCache) :
    call.proxy.consumeUpstreamResponse crypto qx call.codec call.input cache =
      let reserved := ServiceProvider.reserve cache
        (call.input.consumeResponse context.payload) identity
        (some (transactionEntry context.payload)) .proxyTransactionReplay
      (some reserved.1,
        reserved.2.map fun identity => ⟨context, identity, call.proxy.proxyInstance⟩) := by
  have hmode : (call.input.consumeResponse context.payload).replayMode = .all := rfl
  simp only [consumeUpstreamResponse, hcontext, ServiceProvider.consumeResponseWithReplay, hvalid]
  simp [ServiceProvider.enforceReplay, hmode, transactionEntry]

/-- What a call can do, whatever the cache: it fails before it reaches the
cache, or it offers the tombstone of its transaction. -/
theorem upstreamCalls_cases (call : UpstreamCall) :
    (∃ err, ∀ cache, (upstreamCalls crypto qx).step cache call = (cache, .error err)) ∨
    ∃ flow, Offers call flow ∧ ∀ cache, (upstreamCalls crypto qx).step cache call =
      ((cache.checkAndInsert [transactionEntry flow.context.payload] call.input.now).1,
        answerFor flow
          (cache.checkAndInsert [transactionEntry flow.context.payload] call.input.now).2) := by
  cases hcontext : upstreamContext crypto call.codec call.input with
  | error err =>
      refine .inl ⟨err, fun cache => ?_⟩
      simp only [upstreamCalls, consumeUpstreamResponse, hcontext, Option.getD_some]
  | ok context =>
      obtain ⟨hopened, halive⟩ := upstreamContext_ok hcontext
      cases hvalid : call.proxy.sp.validatedIdentity crypto qx
          (call.input.consumeResponse context.payload) with
      | error err =>
          refine .inl ⟨err, fun cache => ?_⟩
          simp only [upstreamCalls, consumeUpstreamResponse, hcontext,
            ServiceProvider.consumeResponseWithReplay, hvalid]
          rfl
      | ok identity =>
          have hreserve := consumeUpstreamResponse_reserve hcontext hvalid
          cases hexpires : replayExpiresAt identity.notOnOrAfter
              (call.input.consumeResponse context.payload).clockSkew with
          | error err =>
              refine .inl ⟨err, fun cache => ?_⟩
              simp only [upstreamCalls, hreserve, ServiceProvider.reserve, hexpires]
              rfl
          | ok expiresAt =>
              refine .inr ⟨⟨context, identity, call.proxy.proxyInstance⟩,
                ⟨hopened, halive, rfl⟩, fun cache => ?_⟩
              simp only [upstreamCalls, hreserve, ServiceProvider.reserve, hexpires,
                Option.getD_some]
              have hnow : (call.input.consumeResponse context.payload).now = call.input.now := rfl
              rw [hnow]
              rcases cache.checkAndInsert [transactionEntry context.payload] call.input.now with
                ⟨next, answer⟩
              rcases answer with err | answer
              · rfl
              · cases answer <;> rfl

/-! ## Steps -/

/-- A flow that is made was offered, on a transaction without a live tombstone,
and leaves one. -/
theorem upstreamCalls_accepted {call : UpstreamCall} {cache : InMemoryReplayCache}
    {flow : UpstreamFlow} (h : ((upstreamCalls crypto qx).step cache call).2 = .ok flow) :
    Offers call flow ∧
      (∀ e, cache.inner.lookup (transactionEntry flow.context.payload).key = some e →
        e ≤ call.input.now) ∧
      ((upstreamCalls crypto qx).step cache call).1.inner.lookup
        (transactionEntry flow.context.payload).key = some flow.context.payload.expiresAt := by
  rcases upstreamCalls_cases call with ⟨err, heq⟩ | ⟨offered, hoffers, heq⟩
  · rw [heq] at h
    cases h
  · rw [heq] at h ⊢
    obtain ⟨hfresh, rfl⟩ := answerFor_eq_ok h
    exact ⟨hoffers, InMemoryReplayCache.checkAndInsert_single hfresh⟩

/-- A call keeps every tombstone its clock has not reached. -/
theorem upstreamCalls_keeps {call : UpstreamCall} {cache : InMemoryReplayCache} {k : ReplayKey}
    {e : SystemTime} (stored : cache.inner.lookup k = some e) (live : call.input.now < e) :
    ((upstreamCalls crypto qx).step cache call).1.inner.lookup k = some e := by
  rcases upstreamCalls_cases call with ⟨err, heq⟩ | ⟨offered, _, heq⟩
  · rw [heq]
    exact stored
  · rw [heq]
    exact InMemoryReplayCache.lookup_checkAndInsert stored live _

/-- A call that fails only sweeps, if that. -/
theorem upstreamCalls_failed {call : UpstreamCall} {cache : InMemoryReplayCache} {err : Error}
    (h : ((upstreamCalls crypto qx).step cache call).2 = .error err) :
    SweptAlike call.input.now ((upstreamCalls crypto qx).step cache call).1 cache := by
  rcases upstreamCalls_cases call with ⟨_, heq⟩ | ⟨offered, _, heq⟩
  · rw [heq]
    exact SweptAlike.refl _ _
  · rw [heq] at h ⊢
    apply sweptAlike_refused
    intro hfresh
    rw [hfresh] at h
    cases h

variable (crypto qx) in
/-- A call does not tell apart caches that differ in what has lapsed. -/
theorem upstreamCalls_alike {now : SystemTime} {a b : InMemoryReplayCache} {call : UpstreamCall}
    (h : SweptAlike now a b) (hle : now ≤ call.input.now) :
    SweptAlike call.input.now ((upstreamCalls crypto qx).step a call).1
        ((upstreamCalls crypto qx).step b call).1 ∧
      ((upstreamCalls crypto qx).step a call).2 = ((upstreamCalls crypto qx).step b call).2 := by
  have hlater := h.mono hle
  rcases upstreamCalls_cases call with ⟨err, heq⟩ | ⟨offered, _, heq⟩
  · rw [heq a, heq b]
    exact ⟨hlater, rfl⟩
  · rw [heq a, heq b, hlater.checkAndInsert_eq]
    exact ⟨SweptAlike.refl _ _, rfl⟩

/-! ## Runs -/

/-- Clock values that do not go back along the calls. -/
def Ordered (calls : List UpstreamCall) : Prop :=
  calls.Pairwise fun first second => first.input.now ≤ second.input.now

variable (crypto qx) in
/-- The run lemma: calls whose clocks have not reached a tombstone keep it. -/
theorem after_upstreamCalls_keeps {calls : List UpstreamCall} {cache : InMemoryReplayCache}
    {k : ReplayKey} {e : SystemTime} (stored : cache.inner.lookup k = some e)
    (live : ∀ call ∈ calls, call.input.now < e) :
    ((upstreamCalls crypto qx).after cache calls).inner.lookup k = some e := by
  induction calls generalizing cache with
  | nil => exact stored
  | cons call rest ih =>
      rw [Machine.after_cons]
      apply ih
      · exact upstreamCalls_keeps stored (live call List.mem_cons_self)
      · exact fun c hc => live c (List.mem_cons_of_mem _ hc)

variable (crypto qx) in
/-- The run lemma: caches that differ in what has lapsed stay so. -/
theorem after_upstreamCalls_alike {calls : List UpstreamCall} {now later : SystemTime}
    {a b : InMemoryReplayCache} (h : SweptAlike now a b) (ordered : Ordered calls)
    (since : ∀ call ∈ calls, now ≤ call.input.now) (hle : now ≤ later)
    (upto : ∀ call ∈ calls, call.input.now ≤ later) :
    SweptAlike later ((upstreamCalls crypto qx).after a calls)
      ((upstreamCalls crypto qx).after b calls) := by
  induction calls generalizing now a b with
  | nil => exact h.mono hle
  | cons call rest ih =>
      obtain ⟨hfirst, hrest⟩ := List.pairwise_cons.mp ordered
      obtain ⟨hnext, _⟩ := upstreamCalls_alike crypto qx h (since call List.mem_cons_self)
      rw [Machine.after_cons, Machine.after_cons]
      exact ih hnext hrest hfirst (upto call List.mem_cons_self)
        fun c hc => upto c (List.mem_cons_of_mem _ hc)

variable (crypto qx) in
/-- No two calls of a run that carry one token make a flow. -/
def AtMostOneFlow (cache : InMemoryReplayCache) (token : Str) (calls : List UpstreamCall) : Prop :=
  ∀ before first middle second rest a b,
    calls = before ++ first :: (middle ++ second :: rest) →
    first.input.relayState = token → second.input.relayState = token →
    (upstreamCalls crypto qx).answer cache before first = .ok a →
    (upstreamCalls crypto qx).answer cache (before ++ first :: middle) second ≠ .ok b

/-- The transaction of a payload is used up: its tombstone has not lapsed. -/
def Consumed (cache : InMemoryReplayCache) (payload : ProxyContextPayload) (now : SystemTime) :
    Prop :=
  ∃ e, cache.inner.lookup (transactionEntry payload).key = some e ∧ now < e

variable (crypto qx) in
/-- A call of a run that fails leaves no trace: it uses up no transaction, and
the later calls answer as if it had not been made. -/
structure FailuresErased (cache : InMemoryReplayCache) (calls : List UpstreamCall) : Prop where
  consumed : ∀ before failed rest err payload now, calls = before ++ failed :: rest →
    (upstreamCalls crypto qx).answer cache before failed = .error err →
    failed.input.now ≤ now →
    (Consumed ((upstreamCalls crypto qx).after cache (before ++ [failed])) payload now ↔
      Consumed ((upstreamCalls crypto qx).after cache before) payload now)
  answers : ∀ before failed middle later rest err,
    calls = before ++ failed :: (middle ++ later :: rest) →
    (upstreamCalls crypto qx).answer cache before failed = .error err →
    (upstreamCalls crypto qx).answer cache (before ++ failed :: middle) later =
      (upstreamCalls crypto qx).answer cache (before ++ middle) later

theorem consumed_congr {now : SystemTime} {a b : InMemoryReplayCache} (h : SweptAlike now a b)
    (payload : ProxyContextPayload) : Consumed a payload now ↔ Consumed b payload now := by
  apply exists_congr
  intro e
  have hswept (c : InMemoryReplayCache) :
      c.inner.lookup (transactionEntry payload).key = some e ∧ now < e ↔
        (c.inner.retain fun exp => decide (exp > now)).lookup (transactionEntry payload).key =
          some e := by
    rw [ExpiryMap.lookup_retain, decide_eq_true_eq]
  rw [hswept, hswept, h.swept]

/-- Single use of a token that opens as one payload. -/
theorem atMostOneFlow_of_opens {cache : InMemoryReplayCache} {token : Str}
    {payload : ProxyContextPayload} {calls : List UpstreamCall}
    (opens : ∀ call ∈ calls, call.input.relayState = token →
      ∀ opened, call.codec.decode token = .ok opened → opened = payload)
    (ordered : Ordered calls) : AtMostOneFlow crypto qx cache token calls := by
  rintro before first middle second rest a b rfl hfirst hsecond hfirstOk hsecondOk
  have hopens {call : UpstreamCall} {flow : UpstreamFlow}
      (hmem : call ∈ first :: (middle ++ second :: rest)) (htoken : call.input.relayState = token)
      (hoffers : Offers call flow) : flow.context.payload = payload :=
    opens call (List.mem_append_right _ hmem) htoken _ (htoken ▸ hoffers.opened)
  -- The first flow leaves the tombstone of the transaction.
  obtain ⟨hoffersA, _, hstored⟩ := upstreamCalls_accepted hfirstOk
  rw [hopens List.mem_cons_self hfirst hoffersA] at hstored
  -- The second one is offered before the context expires, and so is every call between.
  obtain ⟨hoffersB, hfresh, _⟩ := upstreamCalls_accepted hsecondOk
  have hpayload := hopens (by simp) hsecond hoffersB
  have halive := hoffersB.alive
  rw [hpayload] at halive hfresh
  obtain ⟨_, htail⟩ := List.pairwise_cons.mp (List.pairwise_append.mp ordered).2.1
  have hbetween : ∀ call ∈ middle, call.input.now < payload.expiresAt := by
    intro call hcall
    have hle := (List.pairwise_append.mp htail).2.2 call hcall second List.mem_cons_self
    exact lt_of_le_of_lt hle halive
  -- So it finds the tombstone.
  have hkept := after_upstreamCalls_keeps crypto qx hstored hbetween
  rw [Machine.after_append, Machine.after_cons] at hfresh
  exact absurd halive (not_lt.mpr (hfresh _ hkept))

/-- A call that fails can be left out of a run. -/
theorem failuresErased_of_ordered {calls : List UpstreamCall} (cache : InMemoryReplayCache)
    (ordered : Ordered calls) : FailuresErased crypto qx cache calls := by
  constructor
  · rintro before failed rest err payload now rfl hfailed hnow
    rw [Machine.after_concat]
    exact consumed_congr ((upstreamCalls_failed hfailed).mono hnow) payload
  · rintro before failed middle later rest err rfl hfailed
    obtain ⟨hfirst, htail⟩ := List.pairwise_cons.mp (List.pairwise_append.mp ordered).2.1
    obtain ⟨hmiddle, _, hlast⟩ := List.pairwise_append.mp htail
    have halike := after_upstreamCalls_alike crypto qx (upstreamCalls_failed hfailed) hmiddle
      (fun call hcall => hfirst call (List.mem_append_left _ hcall))
      (hfirst later (by simp)) (fun call hcall => hlast call hcall later List.mem_cons_self)
    rw [Machine.answer, Machine.answer, Machine.after_append, Machine.after_append,
      Machine.after_cons]
    exact (upstreamCalls_alike crypto qx halike le_rfl).2

/-! ## The relay of a flow -/

variable {web : Web}

/-- A dispatch carries a flow back: by the proxy that made it, to the service
provider of a validated request, at the endpoint the request was validated for. -/
structure CarriedBack (crypto : Primitives) (web : Web) (validated : ValidatedBinding)
    (maker relayer : Proxy) (input : RelayToDownstream) (draws : IssueDraws)
    (dispatch : SsoResponseDispatch) : Prop where
  maker : relayer.proxyInstance = maker.proxyInstance
  sp : input.downstreamSp.entityId = validated.spEntityId
  registered : ∃ endpoint ∈ input.downstreamSp.assertionConsumerServices,
    endpoint.url = validated.acs.url ∧ endpoint.binding = validated.acs.binding ∧
      endpoint.index = validated.acs.index
  answers : ∃ issuance, Answers crypto issuance draws validated.acs.url validated.requestId dispatch
  delivered : DeliveredTo web validated.acs validated.relayState dispatch

/-- The pairing that a relay lets pass. -/
theorem downstreamAcs_ok {relayer : Proxy} {input : RelayToDownstream} {acs : SsoResponseEndpoint}
    (h : relayer.downstreamAcs crypto input = .ok acs) :
    input.flow.proxyInstance = relayer.proxyInstance ∧
      input.flow.context.payload.downstreamSpEntityId = input.downstreamSp.entityId ∧
      SsoResponseEndpoint.tryFromEndpoint input.flow.context.payload.downstreamAcs = .ok acs := by
  obtain ⟨hinstance, h⟩ := ite_error_eq_ok_iff.mp h
  split at h
  all_goals
    obtain ⟨_, _, h⟩ := bind_eq_ok_iff.mp h
    obtain ⟨hsp, h⟩ := ite_error_eq_ok_iff.mp h
    obtain ⟨endpoint, hendpoint, h⟩ := bind_eq_ok_iff.mp h
    obtain ⟨_, h⟩ := ite_error_eq_ok_iff.mp h
    obtain ⟨_, h⟩ := ite_error_eq_ok_iff.mp h
    obtain rfl := Except.ok.inj h
    exact ⟨not_not.mp hinstance, not_not.mp hsp, hendpoint⟩

/-- The request a relay answers holds the sealed identifier and relay state,
and the endpoint of the descriptor that is the sealed one. -/
theorem forProxyReissue_ok {sp : SpDescriptor} {id : Str} {issueInstant : SystemTime}
    {acs : SsoResponseEndpoint} {format : Option NameIdFormat}
    {requested : Option RequestedAuthnContext} {relayState : Option Str}
    {request : ParsedAuthnRequest}
    (h : ParsedAuthnRequest.forProxyReissue crypto sp id issueInstant acs format requested
      relayState = .ok request) :
    request.validated.acs ∈ sp.assertionConsumerServices ∧
      (request.validated.acs.url = acs.url ∧ request.validated.acs.binding = acs.binding ∧
        request.validated.acs.index = acs.index) ∧
      request.validated.requestId = id ∧ request.validated.relayState = relayState := by
  obtain ⟨canonical, hcanonical, h⟩ := bind_eq_ok_iff.mp h
  obtain rfl := Except.ok.inj h
  have hfound := okOr_eq_ok_iff.mp hcanonical
  exact ⟨List.mem_of_find?_eq_some hfound, by simpa using List.find?_some hfound, rfl, rfl⟩

/-- A delivery depends on the address and the binding of its endpoint. -/
theorem deliveredTo_congr {acs other : SsoResponseEndpoint} {relayState : Option Str}
    {dispatch : SsoResponseDispatch} (url : acs.url = other.url)
    (binding : acs.binding = other.binding) (h : DeliveredTo web acs relayState dispatch) :
    DeliveredTo web other relayState dispatch := by
  unfold DeliveredTo at h ⊢
  rw [← url, ← binding]
  exact h

/-- A payload holds what a validated request says of where its answer goes. -/
structure SealedFor (payload : ProxyContextPayload) (validated : ValidatedBinding) : Prop where
  requestId : payload.downstreamRequestId = validated.requestId
  sp : payload.downstreamSpEntityId = validated.spEntityId
  acs : payload.downstreamAcs = validated.acs.asEndpoint
  relayState : payload.downstreamRelayState = validated.relayState

theorem sealedFor_sealedPayload {bouncer : Proxy} {bounce : BounceToUpstream}
    {ambient : Logout.Ambient} {transactionId : { octets : Octets // octets.length = 16 }}
    {payload : ProxyContextPayload}
    (h : sealedPayload crypto qx web bouncer bounce ambient transactionId = .ok payload) :
    SealedFor payload bounce.downstreamRequest.validated := by
  obtain ⟨_, _, h⟩ := bind_eq_ok_iff.mp h
  obtain ⟨_, _, h⟩ := bind_eq_ok_iff.mp h
  obtain rfl := Except.ok.inj h
  exact ⟨rfl, rfl, rfl, rfl⟩

/-- A relay carries the flow of a sealed request back. -/
theorem carriedBack_relayToDownstream {validated : ValidatedBinding} {maker relayer : Proxy}
    {input : RelayToDownstream} {sessionIndex : { octets : Octets // octets.length = 16 }}
    {draws : IssueDraws} {dispatch : SsoResponseDispatch}
    (made : input.flow.proxyInstance = maker.proxyInstance)
    (hsealed : SealedFor input.flow.context.payload validated)
    (h : relayer.relayToDownstream crypto web input sessionIndex draws = .ok dispatch) :
    CarriedBack crypto web validated maker relayer input draws dispatch := by
  obtain ⟨acs, hacs, h⟩ := bind_eq_ok_iff.mp h
  obtain ⟨_, _, h⟩ := bind_eq_ok_iff.mp h
  obtain ⟨deadlines, _, h⟩ := bind_eq_ok_iff.mp h
  obtain ⟨_, _, h⟩ := bind_eq_ok_iff.mp h
  obtain ⟨nameId, _, h⟩ := bind_eq_ok_iff.mp h
  obtain ⟨synthetic, hsynthetic, h⟩ := bind_eq_ok_iff.mp h
  obtain ⟨⟨service, hissue⟩, _⟩ := IdentityProvider.issueResponse_ok h
  obtain ⟨hinstance, hsp, hendpoint⟩ := downstreamAcs_ok hacs
  rw [hsealed.acs, SsoResponseEndpoint.tryFromEndpoint_asEndpoint] at hendpoint
  obtain rfl := Except.ok.inj hendpoint
  obtain ⟨hmem, ⟨hurl, hbinding, hindex⟩, hid, hrelayState⟩ := forProxyReissue_ok hsynthetic
  constructor
  · rw [← hinstance, made]
  · rw [← hsp, hsealed.sp]
  · exact ⟨synthetic.validated.acs, hmem, hurl, hbinding, hindex⟩
  · have hanswers : Answers crypto (relayer.idp.issueInputs
        (input.issueResponse synthetic nameId deadlines sessionIndex) service) draws
        synthetic.validated.acs.url synthetic.validated.requestId dispatch :=
      answers_issueResponse rfl hissue
    rw [hurl, hid, hsealed.requestId] at hanswers
    exact ⟨_, hanswers⟩
  · obtain ⟨xml, _, hdispatch⟩ := bind_eq_ok_iff.mp hissue
    have hdelivered := deliveredTo_dispatchBinding hdispatch
    change DeliveredTo web synthetic.validated.acs synthetic.validated.relayState dispatch
      at hdelivered
    rw [hrelayState, hsealed.relayState] at hdelivered
    exact deliveredTo_congr hurl hbinding hdelivered

/-! ## Results -/

/-- One login for each bounce: along every run of upstream responses on one
cache, with clock values that do not go back, at most one call on the state of
the bounce makes a flow, a call that fails leaves no trace, and a flow is
relayed by the proxy that made it, back to the service provider and the endpoint
of the request that was bounced. -/
theorem bounce_oneLogin {bouncer : Proxy} {sealing : ProxyContextCodec}
    {bounce : BounceToUpstream} {ambient : Logout.Ambient}
    {transactionId : { octets : Octets // octets.length = 16 }} {sent : BounceResult}
    {cache : InMemoryReplayCache} {calls : List UpstreamCall}
    (bounced : bouncer.bounceToUpstream crypto qx web sealing bounce ambient transactionId =
      .ok sent)
    (opens : ∀ payload, sealedPayload crypto qx web bouncer bounce ambient transactionId =
      .ok payload → ∀ call ∈ calls, call.input.relayState = sent.upstreamRelayState →
        sealing.Opens call.codec payload)
    (ordered : Ordered calls) :
    AtMostOneFlow crypto qx cache sent.upstreamRelayState calls ∧
      FailuresErased crypto qx cache calls ∧
      ∀ before call rest flow, calls = before ++ call :: rest →
        call.input.relayState = sent.upstreamRelayState →
        (upstreamCalls crypto qx).answer cache before call = .ok flow →
        ∀ relayer input sessionIndex draws dispatch, input.flow = flow →
          relayer.relayToDownstream crypto web input sessionIndex draws = .ok dispatch →
          CarriedBack crypto web bounce.downstreamRequest.validated call.proxy relayer input draws
            dispatch := by
  obtain ⟨payload, hpayload, hencoded⟩ := bounceToUpstream_ok bounced
  have hopens : ∀ call ∈ calls, call.input.relayState = sent.upstreamRelayState →
      ∀ opened, call.codec.decode sent.upstreamRelayState = .ok opened → opened = payload := by
    intro call hcall htoken opened hopened
    exact opens payload hpayload call hcall htoken _ opened hencoded hopened
  refine ⟨atMostOneFlow_of_opens hopens ordered, failuresErased_of_ordered cache ordered, ?_⟩
  rintro before call rest flow rfl htoken haccepted relayer input sessionIndex draws dispatch rfl
    hrelayed
  obtain ⟨hoffers, _⟩ := upstreamCalls_accepted haccepted
  have heq := hopens call (by simp) htoken _ (htoken ▸ hoffers.opened)
  apply carriedBack_relayToDownstream hoffers.maker _ hrelayed
  rw [heq]
  exact sealedFor_sealedPayload hpayload

/-- The sample response, presented twice under its token. -/
theorem bounce_oneLogin_twice : ∃ payload text flow dispatch,
    let call : UpstreamCall := ⟨Relayed.relayer, Relayed.opening payload, Relayed.upstream text⟩
    let cache := InMemoryReplayCache.new 8
    (upstreamCalls Transparent.primitives Scanning.reader).answer cache [] call = .ok flow ∧
      AtMostOneFlow Transparent.primitives Scanning.reader cache "token" [call, call] ∧
      FailuresErased Transparent.primitives Scanning.reader cache [call, call] ∧
      CarriedBack Transparent.primitives Redirect.Transparent.storedWeb Relayed.request.validated
        Relayed.relayer Relayed.relayer (Relayed.relay flow) (Response.Sample.draws 5)
        dispatch := by
  obtain ⟨⟨payload, text, flow, dispatch⟩, hrun⟩ := exists_of_isOk Relayed.run_isOk
  have hran := Relayed.run_ok hrun
  obtain ⟨sent, hsent, htoken⟩ := hran.bounced
  let call : UpstreamCall := ⟨Relayed.relayer, Relayed.opening payload, Relayed.upstream text⟩
  have hopens : ∀ opened, sealedPayload Transparent.primitives Scanning.reader
      Redirect.Transparent.storedWeb Relayed.relayer Relayed.bounce Relayed.ambient
      Relayed.sixteen = .ok opened → ∀ other ∈ [call, call],
        other.input.relayState = sent.upstreamRelayState →
          Relayed.sealing.Opens other.codec opened := by
    intro opened hopened other hother _
    obtain rfl := Except.ok.inj (hran.sealed.symm.trans hopened)
    obtain rfl : other = call := by simpa using hother
    exact Relayed.opens payload
  have hordered : Ordered [call, call] := List.pairwise_pair.mpr le_rfl
  obtain ⟨hone, herased, hback⟩ : AtMostOneFlow Transparent.primitives Scanning.reader
      (InMemoryReplayCache.new 8) sent.upstreamRelayState [call, call] ∧ _ :=
    bounce_oneLogin hsent hopens hordered
  rw [htoken] at hone hback
  exact ⟨payload, text, flow, dispatch, hran.accepted, hone, herased,
    hback [] call [call] flow rfl rfl hran.accepted _ _ _ _ _ rfl hran.relayed⟩

end Proxy

end Saml
