import Saml.Idp.Logout
import Saml.Library.Run

/-!
# Front-channel logout chain

`proxy::FrontChannelChain`: the logout of one target after another over
HTTP-Redirect. A call records the outcome of the current target and starts the
next one; a start that fails leaves the outcome recorded for a target the
chain still stands at.
-/

namespace Saml.Proxy

open Xml Crypto Library Logout

/-- `FrontChannelTarget`: a service provider to log out. -/
structure FrontChannelTarget where
  sp : SpDescriptor
  peerCryptoPolicy : Option PeerCryptoPolicy
  nameId : NameId
  sessionIndex : Option Str

/-- `FrontChannelState`. -/
inductive FrontChannelState where
  | nextTarget (index : Nat) (nextDispatch : Dispatch) (tracker : LogoutTracker)
  | done (outcomes : List (Result LogoutOutcome))

/-- `FrontChannelChain`. -/
structure FrontChannelChain where
  targets : List FrontChannelTarget
  state : FrontChannelState
  pendingOutcomes : List (Result LogoutOutcome)

/-- The inputs of a call of `advance`, with what its start of the next logout
reads of its surroundings. -/
structure Advance where
  logoutResponseBody : Octets
  binding : Binding
  now : SystemTime
  clockSkew : Duration
  ambient : Ambient

variable (crypto : Primitives) (qx : QuickXml) (web : Web)

/-- The options the chain starts a target's logout with. -/
def FrontChannelTarget.startOptions (target : FrontChannelTarget) : StartLogout where
  nameId := target.nameId
  sessionIndex := target.sessionIndex
  relayState := none
  reason := none
  binding := .httpRedirect

/-- Start the logout of a target. -/
def FrontChannelTarget.start (idp : IdentityProvider) (target : FrontChannelTarget)
    (ambient : Ambient) : Result LogoutDispatch :=
  idp.startLogout crypto web target.sp target.startOptions ambient

/-- How `advance` has a target's response consumed. -/
def FrontChannelTarget.consumption (target : FrontChannelTarget) (tracker : LogoutTracker)
    (expectedDestination : Str) (call : Advance) : ConsumeLogoutResponse where
  peerCryptoPolicy := target.peerCryptoPolicy
  body := call.logoutResponseBody
  binding := call.binding
  detachedSignature := none
  tracker := tracker
  expectedDestination := expectedDestination
  now := call.now
  clockSkew := call.clockSkew

/-- The outcome of a target's response, as `advance` records it. -/
def FrontChannelTarget.outcome (idp : IdentityProvider) (target : FrontChannelTarget)
    (tracker : LogoutTracker) (expectedDestination : Str) (call : Advance) :
    Result LogoutOutcome :=
  idp.consumeLogoutResponse crypto qx target.sp
    (target.consumption tracker expectedDestination call)

namespace FrontChannelChain

/-- `FrontChannelChain::start`. -/
def start (idp : IdentityProvider) (targets : List FrontChannelTarget) (ambient : Ambient) :
    Result FrontChannelChain :=
  match targets with
  | [] => .ok ⟨[], .done [], []⟩
  | first :: rest => do
      let logout ← first.start crypto web idp ambient
      .ok ⟨first :: rest, .nextTarget 0 logout.dispatch logout.tracker, []⟩

/-- The chain with one more outcome pending. -/
def record (chain : FrontChannelChain) (outcome : Result LogoutOutcome) : FrontChannelChain :=
  { chain with pendingOutcomes := chain.pendingOutcomes ++ [outcome] }

/-- Move on from a target whose outcome is recorded. -/
def moveOn (idp : IdentityProvider) (chain : FrontChannelChain) (index : Nat)
    (ambient : Ambient) : FrontChannelChain × Result Unit :=
  match chain.targets[index + 1]? with
  | none => (⟨chain.targets, .done chain.pendingOutcomes, []⟩, .ok ())
  | some next =>
      match next.start crypto web idp ambient with
      | .error e => (chain, .error e)
      | .ok logout =>
          ({ chain with state := .nextTarget (index + 1) logout.dispatch logout.tracker }, .ok ())

/-- `FrontChannelChain::advance`: the chain is changed in place, so a call that
fails has a next state too. -/
def advance (idp : IdentityProvider) (chain : FrontChannelChain) (call : Advance) :
    FrontChannelChain × Result Unit :=
  match chain.state with
  | .done _ =>
      (chain, .error (.invalidConfiguration "FrontChannelChain::advance called after Done"))
  | .nextTarget index _ tracker =>
      match chain.targets[index]? with
      | none =>
          (chain, .error (.invalidConfiguration "FrontChannelChain: target index out of range"))
      | some target =>
          match idp.config.slo.head? with
          | none =>
              (chain, .error (.invalidConfiguration "FrontChannelChain: IdP has no SLO endpoint"))
          | some endpoint =>
              (chain.record (target.outcome crypto qx idp tracker endpoint.url call)).moveOn crypto
                web idp index call.ambient

/-- The chain as a machine that takes calls of `advance`. -/
def machine (idp : IdentityProvider) : Machine FrontChannelChain Advance (Result Unit) where
  step := advance crypto qx web idp

/-! ## Bookkeeping -/

/-- The number of targets whose response the chain has taken. -/
def contacted (chain : FrontChannelChain) : Nat :=
  match chain.state with
  | .nextTarget index _ _ => index
  | .done _ => chain.targets.length

/-- The outcomes recorded so far. -/
def outcomes (chain : FrontChannelChain) : List (Result LogoutOutcome) :=
  match chain.state with
  | .nextTarget _ _ _ => chain.pendingOutcomes
  | .done outcomes => outcomes

/-- An outcome is that of a response to a request the chain started for the
target. -/
def OutcomeOf (idp : IdentityProvider) (target : FrontChannelTarget)
    (outcome : Result LogoutOutcome) : Prop :=
  ∃ ambient logout destination call, target.start crypto web idp ambient = .ok logout ∧
    outcome = target.outcome crypto qx idp logout.tracker destination call

/-- One outcome for each target contacted, in the order of the targets. -/
structure Bookkeeping (idp : IdentityProvider) (chain : FrontChannelChain) : Prop where
  count : chain.outcomes.length = chain.contacted
  inOrder : ∀ (k : Nat) (outcome : Result LogoutOutcome), chain.outcomes[k]? = some outcome →
    ∃ target, chain.targets[k]? = some target ∧ OutcomeOf crypto qx web idp target outcome

/-- What a call has to do to the chain: keep the books, and change nothing when
it fails. -/
structure Kept (idp : IdentityProvider) (chain : FrontChannelChain) (call : Advance) : Prop where
  bookkeeping : Bookkeeping crypto qx web idp (chain.advance crypto qx web idp call).1
  unchanged : ∀ e, (chain.advance crypto qx web idp call).2 = .error e →
    (chain.advance crypto qx web idp call).1 = chain

/-- The books are kept when the chain starts and by every call of a run. -/
def KeptThroughout (idp : IdentityProvider) (chain : FrontChannelChain) (calls : List Advance) :
    Prop :=
  Bookkeeping crypto qx web idp chain ∧ ∀ before call rest, calls = before ++ call :: rest →
    Kept crypto qx web idp ((machine crypto qx web idp).after chain before) call

/-- What it takes to start a target's logout over HTTP-Redirect: an endpoint
with a valid URL, random octets, a clock that can be written, and a request
that can be serialized, signed if it has to be, and encoded. -/
def Startable (idp : IdentityProvider) (target : FrontChannelTarget) (ambient : Ambient) : Prop :=
  ∃ endpoint id element xml,
    target.sp.sloEndpoint .httpRedirect = some endpoint ∧ randomXmlId ambient.draw = .ok id ∧
    buildLogoutRequestElement (idp.logoutRequest endpoint.url id target.startOptions ambient.now) =
      .ok element ∧
    serializeElement element = .ok xml ∧
    (idp.encodeLogoutRedirectRequest crypto web endpoint.url xml none
      idp.config.logoutSigning.signRequests).isOk = true

/-- The target after the current one, if a call gets as far as starting it, can
be started. -/
def NextStartable (idp : IdentityProvider) (chain : FrontChannelChain) (call : Advance) : Prop :=
  ∀ index dispatch tracker next, chain.state = .nextTarget index dispatch tracker →
    idp.config.slo ≠ [] → chain.targets[index + 1]? = some next →
    Startable crypto web idp next call.ambient

/-- The books together with what the next call relies on: the tracker at hand
is that of the current target. -/
structure Tracked (idp : IdentityProvider) (chain : FrontChannelChain) : Prop where
  bookkeeping : Bookkeeping crypto qx web idp chain
  current : ∀ index dispatch tracker, chain.state = .nextTarget index dispatch tracker →
    ∃ target ambient logout, chain.targets[index]? = some target ∧
      target.start crypto web idp ambient = .ok logout ∧ logout.tracker = tracker

variable {crypto qx web} {idp : IdentityProvider}

/-- A target starts exactly when it can. -/
theorem start_isOk_iff {target : FrontChannelTarget} {ambient : Ambient} :
    (∃ logout, target.start crypto web idp ambient = .ok logout) ↔
      Startable crypto web idp target ambient := by
  constructor
  · rintro ⟨logout, h⟩
    obtain ⟨endpoint, hendpoint, h⟩ := bind_eq_ok_iff.mp h
    obtain ⟨id, hid, h⟩ := bind_eq_ok_iff.mp h
    obtain ⟨element, helement, h⟩ := bind_eq_ok_iff.mp h
    obtain ⟨dispatch, hdispatch, _⟩ := bind_eq_ok_iff.mp h
    obtain ⟨xml, hxml, hencode⟩ := bind_eq_ok_iff.mp hdispatch
    refine ⟨endpoint, id, element, xml, okOr_eq_ok_iff.mp hendpoint, hid, helement, hxml, ?_⟩
    rw [show idp.encodeLogoutRedirectRequest crypto web endpoint.url xml none
      idp.config.logoutSigning.signRequests = .ok dispatch from hencode]
    rfl
  · rintro ⟨endpoint, id, element, xml, hendpoint, hid, helement, hxml, hencode⟩
    obtain ⟨dispatch, hencode⟩ := exists_of_isOk hencode
    refine ⟨⟨⟨id, ambient.now, target.sp.entityId⟩, dispatch⟩, ?_⟩
    refine bind_eq_ok_iff.mpr ⟨endpoint, okOr_eq_ok_iff.mpr hendpoint, ?_⟩
    refine bind_eq_ok_iff.mpr ⟨id, hid, bind_eq_ok_iff.mpr ⟨element, helement, ?_⟩⟩
    exact bind_eq_ok_iff.mpr ⟨dispatch, bind_eq_ok_iff.mpr ⟨xml, hxml, hencode⟩, rfl⟩

/-- What a call does: it fails on the spot, or it records the outcome of the
current target and moves on. -/
theorem advance_cases (crypto : Primitives) (qx : QuickXml) (web : Web) (idp : IdentityProvider)
    (chain : FrontChannelChain) (call : Advance) :
    (∃ e, chain.advance crypto qx web idp call = (chain, .error e) ∧
      ∀ index dispatch tracker, chain.state = .nextTarget index dispatch tracker →
        chain.targets[index]? = none ∨ idp.config.slo = []) ∨
    ∃ index dispatch tracker target endpoint,
      chain.state = .nextTarget index dispatch tracker ∧ chain.targets[index]? = some target ∧
      idp.config.slo ≠ [] ∧
      chain.advance crypto qx web idp call =
        (chain.record (target.outcome crypto qx idp tracker endpoint call)).moveOn crypto web idp
          index call.ambient := by
  unfold advance
  cases hstate : chain.state with
  | done outcomes => exact .inl ⟨_, rfl, fun _ _ _ h => by cases h⟩
  | nextTarget index dispatch tracker =>
      cases htarget : chain.targets[index]? with
      | none =>
          refine .inl ⟨_, by simp only [htarget]; rfl, ?_⟩
          rintro _ _ _ ⟨⟩
          exact .inl htarget
      | some target =>
          cases hslo : idp.config.slo with
          | nil =>
              exact .inl ⟨_, by simp only [htarget, List.head?_nil]; rfl, fun _ _ _ _ => .inr rfl⟩
          | cons endpoint rest =>
              exact .inr ⟨index, dispatch, tracker, target, endpoint.url, rfl, htarget,
                List.cons_ne_nil _ _, by simp only [htarget, List.head?_cons]⟩

/-- Recording the outcome of the current target extends the list in order. -/
theorem inOrder_record {chain : FrontChannelChain} {index : Nat} {dispatch : Dispatch}
    {tracker : LogoutTracker} {outcome : Result LogoutOutcome} {target : FrontChannelTarget}
    (h : Bookkeeping crypto qx web idp chain)
    (hstate : chain.state = .nextTarget index dispatch tracker)
    (htarget : chain.targets[index]? = some target)
    (houtcome : OutcomeOf crypto qx web idp target outcome) :
    (chain.pendingOutcomes ++ [outcome]).length = index + 1 ∧
      ∀ (k : Nat) (recorded : Result LogoutOutcome),
        (chain.pendingOutcomes ++ [outcome])[k]? = some recorded →
        ∃ target, chain.targets[k]? = some target ∧
          OutcomeOf crypto qx web idp target recorded := by
  have hcount : chain.pendingOutcomes.length = index := by
    simpa [outcomes, contacted, hstate] using h.count
  refine ⟨by simp [hcount], ?_⟩
  intro k recorded hk
  rcases Nat.lt_trichotomy k index with hlt | rfl | hgt
  · refine h.inOrder k recorded ?_
    rw [List.getElem?_append_left (hcount ▸ hlt)] at hk
    simpa [outcomes, hstate] using hk
  · rw [List.getElem?_append_right (by omega), hcount, Nat.sub_self] at hk
    obtain rfl := Option.some.inj hk
    exact ⟨target, htarget, houtcome⟩
  · rw [List.getElem?_eq_none (by simp [hcount]; omega)] at hk
    cases hk

theorem moveOn_last {chain : FrontChannelChain} {index : Nat} {ambient : Ambient}
    (h : chain.targets[index + 1]? = none) :
    chain.moveOn crypto web idp index ambient =
      (⟨chain.targets, .done chain.pendingOutcomes, []⟩, .ok ()) := by
  simp only [moveOn, h]

theorem moveOn_started {chain : FrontChannelChain} {index : Nat} {ambient : Ambient}
    {next : FrontChannelTarget} {logout : LogoutDispatch}
    (h : chain.targets[index + 1]? = some next)
    (hstart : next.start crypto web idp ambient = .ok logout) :
    chain.moveOn crypto web idp index ambient =
      ({ chain with state := .nextTarget (index + 1) logout.dispatch logout.tracker }, .ok ()) := by
  simp only [moveOn, h, hstart]

theorem moveOn_failed {chain : FrontChannelChain} {index : Nat} {ambient : Ambient}
    {next : FrontChannelTarget} {e : Error} (h : chain.targets[index + 1]? = some next)
    (hstart : next.start crypto web idp ambient = .error e) :
    chain.moveOn crypto web idp index ambient = (chain, .error e) := by
  simp only [moveOn, h, hstart]

/-- The step of a run: a call that can start the next target keeps the books
and leaves the chain tracked. -/
theorem tracked_advance {chain : FrontChannelChain} {call : Advance}
    (h : Tracked crypto qx web idp chain) (hnext : NextStartable crypto web idp chain call) :
    Tracked crypto qx web idp (chain.advance crypto qx web idp call).1 ∧
      Kept crypto qx web idp chain call := by
  rcases advance_cases crypto qx web idp chain call with
    ⟨e, hcall, _⟩ | ⟨index, dispatch, tracker, target, endpoint, hstate, htarget, hslo, hcall⟩
  · exact ⟨by rw [hcall]; exact h, by rw [hcall]; exact h.bookkeeping, fun _ _ => by rw [hcall]⟩
  · obtain ⟨started, ambient, logout, hstarted, hstart, rfl⟩ :=
      h.current index dispatch tracker hstate
    obtain rfl := Option.some.inj (htarget.symm.trans hstarted)
    obtain ⟨hlength, horder⟩ := inOrder_record h.bookkeeping hstate htarget
      ⟨ambient, logout, endpoint, call, hstart, rfl⟩
    have hindex : index < chain.targets.length := (List.getElem?_eq_some_iff.mp htarget).1
    cases hlast : chain.targets[index + 1]? with
    | none =>
        have hend : chain.targets.length ≤ index + 1 := List.getElem?_eq_none_iff.mp hlast
        rw [moveOn_last (show (chain.record _).targets[index + 1]? = none from hlast)] at hcall
        have hbooks : Bookkeeping crypto qx web idp (chain.advance crypto qx web idp call).1 := by
          rw [hcall]
          exact ⟨hlength.trans (Nat.le_antisymm hindex hend), horder⟩
        refine ⟨⟨hbooks, fun _ _ _ hdone => ?_⟩, hbooks, fun e herror => ?_⟩
        · rw [hcall] at hdone
          cases hdone
        · rw [hcall] at herror
          cases herror
    | some next =>
        obtain ⟨nextLogout, hnextStart⟩ := start_isOk_iff.mpr (hnext _ _ _ next hstate hslo hlast)
        rw [moveOn_started (show (chain.record _).targets[index + 1]? = some next from hlast)
          hnextStart] at hcall
        have hbooks : Bookkeeping crypto qx web idp (chain.advance crypto qx web idp call).1 := by
          rw [hcall]
          exact ⟨hlength, horder⟩
        refine ⟨⟨hbooks, fun _ _ _ hgoing => ?_⟩, hbooks, fun e herror => ?_⟩
        · rw [hcall] at hgoing
          obtain ⟨rfl, rfl, rfl⟩ := FrontChannelState.nextTarget.inj hgoing
          rw [hcall]
          exact ⟨next, call.ambient, nextLogout, hlast, hnextStart, rfl⟩
        · rw [hcall] at herror
          cases herror

/-- A call that cannot start the next target fails with one outcome more than
it found. -/
theorem nextStartable_of_unchanged {chain : FrontChannelChain} {call : Advance}
    (h : ∀ e, (chain.advance crypto qx web idp call).2 = .error e →
      (chain.advance crypto qx web idp call).1 = chain) :
    NextStartable crypto web idp chain call := by
  intro index dispatch tracker next hstate hslo hlast
  by_contra hstuck
  rcases advance_cases crypto qx web idp chain call with
    ⟨e, _, hearly⟩ | ⟨i, d, t, target, endpoint, hstate', htarget, _, hcall⟩
  · rcases hearly index dispatch tracker hstate with hnone | hnone
    · have := List.getElem?_eq_none_iff.mp hnone
      have := (List.getElem?_eq_some_iff.mp hlast).1
      omega
    · exact hslo hnone
  · obtain ⟨rfl, rfl, rfl⟩ := FrontChannelState.nextTarget.inj (hstate.symm.trans hstate')
    cases hstart : next.start crypto web idp call.ambient with
    | ok logout => exact hstuck (start_isOk_iff.mp ⟨logout, hstart⟩)
    | error e =>
        rw [moveOn_failed (show (chain.record _).targets[index + 1]? = some next from hlast)
          hstart] at hcall
        have hsame := h e (by rw [hcall])
        rw [hcall] at hsame
        have hlength := congrArg (List.length ∘ pendingOutcomes) hsame
        simp [record] at hlength

/-- A chain that starts has its books in order. -/
theorem tracked_start {targets : List FrontChannelTarget} {ambient : Ambient}
    {chain : FrontChannelChain} (h : start crypto web idp targets ambient = .ok chain) :
    Tracked crypto qx web idp chain := by
  cases targets with
  | nil =>
      obtain rfl := Except.ok.inj h
      exact ⟨⟨rfl, fun k outcome hk => by cases hk⟩, fun _ _ _ hdone => by cases hdone⟩
  | cons first rest =>
      obtain ⟨logout, hlogout, h⟩ := bind_eq_ok_iff.mp h
      obtain rfl := Except.ok.inj h
      refine ⟨⟨rfl, fun k outcome hk => by cases hk⟩, ?_⟩
      rintro _ _ _ ⟨⟩
      exact ⟨first, ambient, logout, rfl, hlogout, rfl⟩

/-- A run stays tracked while every call can start the next target. -/
theorem tracked_after {chain : FrontChannelChain} (h : Tracked crypto qx web idp chain)
    (calls : List Advance)
    (hnext : ∀ before call rest, calls = before ++ call :: rest →
      NextStartable crypto web idp ((machine crypto qx web idp).after chain before) call) :
    Tracked crypto qx web idp ((machine crypto qx web idp).after chain calls) := by
  induction calls using List.reverseRecOn with
  | nil => exact h
  | append_singleton before call ih =>
      rw [Machine.after_concat]
      have hbefore := ih fun front middle rest hsplit =>
        hnext front middle (rest ++ [call]) (by simp [hsplit])
      exact (tracked_advance hbefore (hnext before call [] rfl)).1

/-- **Front-channel bookkeeping.** Along every run of a chain, retries
included, the books are kept by every call exactly when every call that gets as
far as starting the next target can start it. -/
theorem keptThroughout_iff_nextStartable {targets : List FrontChannelTarget} {ambient : Ambient}
    {chain : FrontChannelChain} (hstart : start crypto web idp targets ambient = .ok chain)
    (calls : List Advance) :
    KeptThroughout crypto qx web idp chain calls ↔
      ∀ before call rest, calls = before ++ call :: rest →
        NextStartable crypto web idp ((machine crypto qx web idp).after chain before) call := by
  constructor
  · rintro ⟨_, hkept⟩ before call rest hsplit
    exact nextStartable_of_unchanged (hkept before call rest hsplit).unchanged
  · intro hnext
    refine ⟨(tracked_start hstart).bookkeeping, fun before call rest hsplit => ?_⟩
    have htracked : Tracked crypto qx web idp chain := tracked_start hstart
    have hbefore := tracked_after htracked before
      fun front middle back hfront =>
        hnext front middle (back ++ call :: rest) (by simp [hsplit, hfront])
    exact (tracked_advance hbefore (hnext before call rest hsplit)).2

/-! ## Sample runs -/

namespace Sample

/-- Random octets and a clock. -/
def ambient : Ambient where
  draw := some ⟨List.replicate 16 1, Response.Sample.length_ones⟩
  now := Response.Sample.now

/-- A target for one subject. -/
def target (sp : SpDescriptor) : FrontChannelTarget :=
  ⟨sp, none, ⟨"alice", .transient, none, none, none⟩, some "session"⟩

/-- A call with a response that cannot be read. -/
def call : Advance where
  logoutResponseBody := []
  binding := .httpRedirect
  now := Response.Sample.now
  clockSkew := .ofSecs 60 Duration.minute_lt
  ambient := ambient

/-- The identity provider of the sample runs. -/
def provider : IdentityProvider := Saml.Sample.idp ⟨false, true⟩

theorem target_starts : ((target Saml.Sample.sp).start Transparent.primitives
    Redirect.Transparent.storedWeb provider ambient).isOk = true := by
  decide +kernel

end Sample

/-- A run with one target keeps its books. -/
theorem keptThroughout_single : ∃ chain,
    start Transparent.primitives Redirect.Transparent.storedWeb Sample.provider
      [Sample.target Saml.Sample.sp] Sample.ambient = .ok chain ∧
    KeptThroughout Transparent.primitives Scanning.reader Redirect.Transparent.storedWeb
      Sample.provider chain [Sample.call] := by
  obtain ⟨logout, hlogout⟩ := exists_of_isOk Sample.target_starts
  have hstart : start Transparent.primitives Redirect.Transparent.storedWeb Sample.provider
      [Sample.target Saml.Sample.sp] Sample.ambient = .ok _ :=
    bind_eq_ok_iff.mpr ⟨logout, hlogout, rfl⟩
  refine ⟨_, hstart, (keptThroughout_iff_nextStartable hstart [Sample.call]).mpr ?_⟩
  intro before call rest hsplit index dispatch tracker next hstate _ hlast
  obtain rfl : before = [] := by
    cases before with
    | nil => rfl
    | cons _ tail => simp at hsplit
  obtain ⟨rfl, _, _⟩ := FrontChannelState.nextTarget.inj hstate
  cases hlast

/-- The next target has no endpoint for its logout: the call that takes the
first response fails, and yet records an outcome. -/
theorem advance_records_before_failing : ∃ chain,
    start Transparent.primitives Redirect.Transparent.storedWeb Sample.provider
      [Sample.target Saml.Sample.sp, Sample.target Response.Sample.sp] Sample.ambient =
        .ok chain ∧
    ¬ KeptThroughout Transparent.primitives Scanning.reader Redirect.Transparent.storedWeb
      Sample.provider chain [Sample.call] := by
  obtain ⟨logout, hlogout⟩ := exists_of_isOk Sample.target_starts
  refine ⟨_, bind_eq_ok_iff.mpr ⟨logout, hlogout, rfl⟩, ?_⟩
  rintro ⟨_, hkept⟩
  obtain ⟨endpoint, _, _, _, hendpoint, _⟩ :=
    nextStartable_of_unchanged (hkept [] Sample.call [] rfl).unchanged 0 _ _
      (Sample.target Response.Sample.sp) rfl (List.cons_ne_nil _ _) rfl
  cases hendpoint

end FrontChannelChain

end Saml.Proxy
