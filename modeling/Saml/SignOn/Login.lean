import Saml.Idp.Issue
import Saml.Response.SignOn
import Saml.SignOn.Request

/-!
# A started login completes

The response that an identity provider issues for a request it accepted, against
the service provider that started the login: what was asked for and what the
identity provider checked is what the service provider checks again.
-/

namespace Saml

open Xml Crypto Dsig Xmlenc Response Redirect Logout Authn Time Library Replay

variable {crypto : Primitives} {qx : QuickXml} {web : Web}

/-! ## What was asked for -/

/-- A request in the words of the standard: what is read of it is what was asked. -/
structure StartLogin.Canonical (opts : StartLogin) : Prop where
  format : ∀ f ∈ opts.requestedNameIdFormat, NameIdFormat.fromUri f.asUri = f
  context : ∀ rac ∈ opts.requestedAuthnContext, readContext rac = rac

theorem AuthnContextClassRef.mem_standard_of_strength {classRef : AuthnContextClassRef} {n : Nat}
    (h : classRef.strength = some n) : classRef ∈ AuthnContextClassRef.STANDARD := by
  cases classRef with
  | custom uri => cases h
  | _ => decide

theorem AuthnContextClassRef.trim_asUri {classRef : AuthnContextClassRef}
    (h : classRef ∈ AuthnContextClassRef.STANDARD) :
    Text.trim classRef.asUri = classRef.asUri := by
  revert classRef
  decide

/-- A class that satisfies a canonical request stands without blanks around it. -/
theorem trim_of_satisfied {rac : RequestedAuthnContext} (canonical : readContext rac = rac)
    {uri : Str} (h : StandardComparator.evaluate rac uri = .satisfied) :
    Text.trim uri = uri := by
  have hstrong : ∀ n, (AuthnContextClassRef.fromUri uri).strength = some n →
      Text.trim uri = uri := by
    intro n hn
    have htrim := AuthnContextClassRef.trim_asUri
      (AuthnContextClassRef.mem_standard_of_strength hn)
    rwa [AuthnContextClassRef.asUri_fromUri] at htrim
  have hexact : rac.classRefs.any (fun c => c.asUri == uri) = true → Text.trim uri = uri := by
    intro hany
    obtain ⟨c, hc, heq⟩ := List.any_eq_true.mp hany
    obtain rfl := eq_of_beq heq
    have hrefs := congrArg RequestedAuthnContext.classRefs canonical
    have hread : AuthnContextClassRef.fromUri (Text.trim c.asUri) = c :=
      List.map_inj_left.mp (hrefs.trans (List.map_id _).symm) c hc
    rw [← AuthnContextClassRef.asUri_fromUri (Text.trim c.asUri), hread]
  cases hstrength : (AuthnContextClassRef.fromUri uri).strength with
  | some n => exact hstrong n hstrength
  | none =>
      apply hexact
      unfold StandardComparator.evaluate at h
      rw [hstrength] at h
      cases hcomparison : rac.comparison with
      | exact =>
          rw [hcomparison] at h
          dsimp only [StandardComparator.decided] at h
          by_contra hnone
          rw [if_neg hnone] at h
          cases h
      | _ =>
          rw [hcomparison] at h
          cases h

theorem mem_destutter'_ne {l : List Octets} {a x : Octets} (h : x ∈ a :: l) :
    x ∈ l.destutter' (· ≠ ·) a := by
  induction l generalizing a with
  | nil => exact h
  | cons b rest ih =>
      by_cases hne : a ≠ b
      · rw [List.destutter'_cons_pos _ hne]
        rcases List.mem_cons.mp h with rfl | hrest
        · exact List.mem_cons_self
        · exact List.mem_cons_of_mem _ (ih hrest)
      · obtain rfl := not_not.mp hne
        rw [List.destutter'_cons_neg _ hne]
        rcases List.mem_cons.mp h with rfl | hrest
        · exact ih List.mem_cons_self
        · exact ih hrest

/-- Every fingerprint is in the set of them. -/
theorem mem_fingerprintSet {fingerprint : Octets} {fingerprints : List Octets}
    (h : fingerprint ∈ fingerprints) : fingerprint ∈ fingerprintSet fingerprints := by
  have hsorted := (List.mergeSort_perm fingerprints fun a b => !(b < a)).mem_iff.mpr h
  unfold fingerprintSet
  cases hcons : fingerprints.mergeSort fun a b => !(b < a) with
  | nil =>
      rw [hcons] at hsorted
      cases hsorted
  | cons a rest =>
      rw [hcons] at hsorted
      exact mem_destutter'_ne hsorted

/-! ## The request -/

/-- Whatever is accepted of a started login is what was asked for. -/
theorem requested_of_accepted (correct : SignsCorrectly crypto) (lawful : qx.Lawful)
    (inflates : Inflates web) (keeps : KeepsQuery web) {sp : ServiceProvider}
    {descriptor : IdpDescriptor} {opts : StartLogin} {ambient : Ambient}
    {started : StartLoginResult}
    (start : sp.startLogin crypto qx web descriptor opts ambient = .ok started)
    (dated : ambient.now.Dated) {endpoint : Endpoint}
    (hendpoint : descriptor.ssoEndpoint opts.binding = some endpoint)
    (quiet : ∀ destination, web.parseUrl endpoint.url = some destination → Quiet destination)
    {idp : IdentityProvider} {input : ConsumeAuthnRequestWire}
    (brought : started.dispatch.body .request = some input.wireBody)
    (sameBinding : input.binding = opts.binding) (handsOn : HandsOn input opts.relayState)
    (describes : sp.Describes input.sp) (addressed : input.expectedDestination = endpoint.url)
    {request : ParsedAuthnRequest}
    (accepted : idp.consumeAuthnRequestWire crypto qx web input = .ok request) :
    request = sp.requested crypto input.sp opts started.tracker endpoint.url := by
  obtain ⟨issueInstant, referable, hinstant, hacs, outbound⟩ :=
    ServiceProvider.outbound_startLogin correct lawful start hendpoint quiet
  rw [← sameBinding] at outbound
  obtain ⟨decoded, hdecoded, accepted⟩ := bind_eq_ok_iff.mp accepted
  have received := outbound.received correct inflates keeps brought hdecoded
  obtain ⟨relayState, hrelay, accepted⟩ := bind_eq_ok_iff.mp accepted
  obtain rfl := Except.ok.inj ((resolveRelayState_of_handsOn received handsOn).symm.trans hrelay)
  obtain ⟨doc, hdoc, accepted⟩ := bind_eq_ok_iff.mp accepted
  obtain ⟨raw, hraw, accepted⟩ := bind_eq_ok_iff.mp accepted
  obtain ⟨parsed, hparsed, accepted⟩ := bind_eq_ok_iff.mp accepted
  obtain ⟨_, -, accepted⟩ := bind_eq_ok_iff.mp accepted
  obtain ⟨_, -, accepted⟩ := bind_eq_ok_iff.mp accepted
  have hentity : Text.trim sp.config.entityId ≠ [] := by
    rw [trim_of_validEntityId sp.valid.entityId]
    exact sp.valid.entityId.1
  have hread := parseAuthnRequest_message dated hentity hinstant (received.readIn doc hdoc)
  obtain rfl := Except.ok.inj (hread.symm.trans hraw)
  dsimp only at hparsed
  rw [addressed] at hparsed
  have registered : endpoint.url ∈ idp.config.sso.map Endpoint.url := by
    obtain ⟨-, hparsed⟩ := ite_error_eq_ok_iff.mp hparsed
    obtain ⟨hregistered, -⟩ := ite_error_eq_ok_iff.mp hparsed
    exact not_not.mp hregistered
  obtain ⟨same, hsame, -, hsealed⟩ := ServiceProvider.validateAuthnRequest_read crypto describes
    hacs registered (ServiceProvider.issuedAt_startLogin start)
  obtain rfl := Except.ok.inj (hsame.symm.trans hparsed)
  rw [← hsealed, ← Except.ok.inj accepted]

/-! ## The response -/

namespace IdentityProvider

/-- The checks behind an issued response. -/
theorem issueResponse_checks {idp : IdentityProvider} {answer : IssueResponse}
    {draws : IssueDraws} {dispatch : SsoResponseDispatch}
    (h : idp.issueResponse crypto web answer draws = .ok dispatch) :
    Response.issueResponse crypto web (idp.issueInputs answer none) draws = .ok dispatch ∧
      (∀ requested ∈ answer.inResponseTo.validated.requestedAuthnContext,
        StandardComparator.evaluate requested answer.authnContextClassRef.asUri = .satisfied) ∧
      ∀ f ∈ answer.inResponseTo.validated.requestedNameIdFormat, answer.nameId.format = f := by
  obtain ⟨hbinding, h⟩ := ite_error_eq_ok_iff.mp h
  obtain ⟨_, -, h⟩ := bind_eq_ok_iff.mp h
  obtain ⟨_, -, h⟩ := bind_eq_ok_iff.mp h
  obtain ⟨_, hcontext, h⟩ := bind_eq_ok_iff.mp h
  obtain ⟨service, hservice, h⟩ := bind_eq_ok_iff.mp h
  obtain ⟨format, hformat, h⟩ := bind_eq_ok_iff.mp h
  obtain ⟨_, hnamed, h⟩ := bind_eq_ok_iff.mp h
  have hnone : idp.artifactResolutionServiceFor answer.inResponseTo.validated.acs.binding =
      .ok none := if_pos hbinding
  obtain rfl := Except.ok.inj (hnone.symm.trans hservice)
  refine ⟨h, ?_, ?_⟩
  · intro requested hrequested
    rw [ensureAuthnContextSatisfiesRequest, Option.mem_def.mp hrequested] at hcontext
    dsimp only [checkAuthnContext] at hcontext
    split at hcontext
    · assumption
    · cases hcontext
    · cases hcontext
  · intro f hf
    have hchosen : format = f := by
      rw [resolveNameIdFormat, Option.mem_def.mp hf] at hformat
      change (if f ∈ idp.config.supportedNameIdFormats then _ else _) = _ at hformat
      split at hformat
      · exact (Except.ok.inj hformat).symm
      · cases hformat
    unfold ensureNameIdFormat at hnamed
    split at hnamed
    · rwa [← hchosen]
    · cases hnamed

end IdentityProvider

/-- A persistent subject is not issued for another service provider. -/
theorem qualifier_of_issuedXml {input : IssueResponseInputs} {draws : IssueDraws} {xml : Str}
    (h : issuedXml crypto input draws = .ok xml) (persistent : input.nameId.format = .persistent)
    {q : Str} (hq : input.nameId.spNameQualifier = some q) : q = input.sp.entityId := by
  obtain ⟨_, hqualifier, -⟩ := bind_eq_ok_iff.mp h
  unfold ensureNameIdSpQualifier at hqualifier
  rw [persistent, hq] at hqualifier
  obtain ⟨hsame, -⟩ := ite_error_eq_ok_iff.mp hqualifier
  exact not_not.mp hsame

namespace ServiceProvider

variable {sp : ServiceProvider} {descriptor : IdpDescriptor} {opts : StartLogin}
  {ambient : Ambient} {started : StartLoginResult} {back : ConsumeResponse}

/-- The response comes back to the endpoint that waits for it, with the tracker
and the peer of the login. -/
structure Expects (descriptor : IdpDescriptor) (tracker : LoginTracker)
    (back : ConsumeResponse) : Prop where
  idp : back.idp = descriptor
  tracked : back.tracker = some tracker
  destination : back.expectedDestination = tracker.acsEndpoint.url
  binding : back.binding = tracker.acsEndpoint.binding

theorem mem_acs_of_resolveAcsEndpoint {acs : SsoResponseEndpoint}
    (h : sp.resolveAcsEndpoint opts = .ok acs) : acs ∈ sp.config.acs := by
  obtain ⟨-, h⟩ := ite_error_eq_ok_iff.mp h
  split at h
  · exact List.mem_of_find?_eq_some (okOr_eq_ok_iff.mp h)
  · exact List.mem_of_find?_eq_some (okOr_eq_ok_iff.mp h)
  · rcases Option.or_eq_some_iff.mp (okOr_eq_ok_iff.mp h) with hdefault | ⟨-, hhead⟩
    · exact List.mem_of_find?_eq_some hdefault
    · exact List.mem_of_mem_head? hhead

/-- What a started login leaves behind. -/
theorem tracked_startLogin (start : sp.startLogin crypto qx web descriptor opts ambient =
      .ok started) :
    started.tracker.acsEndpoint ∈ sp.config.acs ∧
      started.tracker.idpEntityId = descriptor.entityId ∧
      started.tracker.requestedAuthnContext = opts.requestedAuthnContext ∧
      started.tracker.requestedNameIdFormat = opts.requestedNameIdFormat ∧
      ∀ cert ∈ descriptor.signingCerts,
        cert.fingerprintSha256 crypto ∈ started.tracker.idpSigningCertFingerprints := by
  obtain ⟨_, _, _, _, _, _, hacs, _, _, htracker⟩ := startLogin_ok start
  refine ⟨mem_acs_of_resolveAcsEndpoint hacs, congrArg LoginTracker.idpEntityId htracker,
    congrArg LoginTracker.requestedAuthnContext htracker,
    congrArg LoginTracker.requestedNameIdFormat htracker, ?_⟩
  intro cert hcert
  have hpinned := congrArg LoginTracker.idpSigningCertFingerprints htracker
  dsimp only at hpinned
  rw [hpinned]
  exact mem_fingerprintSet (List.mem_map_of_mem hcert)

/-- The roots pinned at the start are all of the peer's. -/
theorem validationIdp_startLogin (start : sp.startLogin crypto qx web descriptor opts ambient =
      .ok started) (expects : Expects descriptor started.tracker back) :
    validationIdp crypto back = descriptor := by
  obtain ⟨-, -, -, -, hpinned⟩ := tracked_startLogin start
  have hall : descriptor.signingCerts.filter (fun cert =>
      started.tracker.idpSigningCertFingerprints.contains (cert.fingerprintSha256 crypto)) =
      descriptor.signingCerts :=
    List.filter_eq_self.mpr fun cert hcert => List.contains_iff_mem.mpr (hpinned cert hcert)
  unfold validationIdp
  rw [expects.tracked, expects.idp]
  dsimp only
  rw [hall]

theorem validateTrackerContext_startLogin (start : sp.startLogin crypto qx web descriptor opts
      ambient = .ok started) (expects : Expects descriptor started.tracker back) :
    sp.validateTrackerContext crypto back = .ok () := by
  obtain ⟨hacs, hentity, -, -, hpinned⟩ := tracked_startLogin start
  have hregistered : ¬ (!sp.config.acs.any (·.url = back.expectedDestination)) = true := by
    rw [Bool.not_eq_true', Bool.not_eq_false, List.any_eq_true]
    exact ⟨_, hacs, decide_eq_true expects.destination.symm⟩
  have hcert : ¬ (!back.idp.signingCerts.any fun cert =>
      started.tracker.idpSigningCertFingerprints.contains (cert.fingerprintSha256 crypto)) =
        true := by
    obtain ⟨hsome, -⟩ := ite_error_eq_ok_iff.mp start
    rw [expects.idp, Bool.not_eq_true', Bool.not_eq_false, List.any_eq_true]
    cases hcerts : descriptor.signingCerts with
    | nil =>
        rw [certificateFingerprintSet, hcerts, List.map_nil, fingerprintSet,
          List.mergeSort_nil] at hsome
        exact absurd rfl hsome
    | cons cert rest =>
        have hmem : cert ∈ descriptor.signingCerts := hcerts ▸ List.mem_cons_self
        exact ⟨cert, List.mem_cons_self, List.contains_iff_mem.mpr (hpinned cert hmem)⟩
  unfold validateTrackerContext
  rw [if_neg hregistered, expects.tracked]
  dsimp only
  unfold validateTracker
  rw [if_neg (not_not_intro (hentity.trans (congrArg IdpDescriptor.entityId expects.idp).symm)),
    if_neg (not_not_intro expects.destination.symm),
    if_neg (not_not_intro expects.binding.symm), if_neg hcert]

end ServiceProvider

/-! ## The identity -/

/-- What the two parties agreed on: each knows the other by its own name, the
identity provider signs what the service provider wants signed, with a key it
trusts, and names the subject in a format of its own name. -/
structure Agreed (crypto : Primitives) (sp : ServiceProvider) (idp : IdentityProvider)
    (answer : IssueResponse) (back : ConsumeResponse) : Prop where
  entityId : back.idp.entityId = idp.config.entityId
  describes : sp.Describes answer.sp
  some_part : idp.config.assertionSigning.signResponses = true ∨
    idp.config.assertionSigning.signAssertions = true
  response : sp.config.wantSigned.response = true →
    idp.config.assertionSigning.signResponses = true
  assertion : sp.config.wantSigned.assertions = true →
    idp.config.assertionSigning.signAssertions = true
  trusts : Trusts crypto back.idp.signingCerts
    (back.peerCryptoPolicy.getD sp.config.defaultPeerCryptoPolicy) idp.signOptions
  named : NameIdFormat.fromUri answer.nameId.format.asUri = answer.nameId.format
  presenter : ∀ cert ∈ answer.holderOfKeyCert, ∃ key presenter,
    crypto.fromDer cert.der = some key ∧ back.holderOfKeyCert = some presenter ∧
      presenter.samePublicKeyAs key = true

namespace ServiceProvider

variable {sp : ServiceProvider} {descriptor : IdpDescriptor} {opts : StartLogin}
  {ambient : Ambient} {started : StartLoginResult} {back : ConsumeResponse}
  {idp : IdentityProvider} {answer : IssueResponse} {draws : IssueDraws}
  {dispatch : SsoResponseDispatch} {destination : Str}

/-- The response is addressed to the service provider that asked for it. -/
theorem addressed_answer (start : sp.startLogin crypto qx web descriptor opts ambient =
      .ok started) (expects : Expects descriptor started.tracker back)
    (canonical : opts.Canonical) (agreed : Agreed crypto sp idp answer back)
    (answers : answer.inResponseTo =
      sp.requested crypto answer.sp opts started.tracker destination)
    (issued : idp.issueResponse crypto web answer draws = .ok dispatch) (doc : Document)
    (parsed : ParsedResponse) :
    Addressed crypto (idp.issueInputs answer none) (sp.validationInput crypto back doc parsed) := by
  obtain ⟨-, -, hcontext, -, -⟩ := tracked_startLogin start
  obtain ⟨-, hsatisfied, -⟩ := IdentityProvider.issueResponse_checks issued
  have hpeer : validationIdp crypto back = back.idp :=
    (validationIdp_startLogin start expects).trans expects.idp.symm
  constructor
  case issuer =>
    exact (congrArg IdpDescriptor.entityId hpeer).trans
      (agreed.entityId.trans (trim_of_validEntityId idp.valid.entityId).symm)
  case audience =>
    have htrim := trim_of_validEntityId sp.valid.entityId
    rw [← agreed.describes.entityId] at htrim
    exact agreed.describes.entityId.symm.trans htrim.symm
  case destination =>
    have hacs : answer.inResponseTo.validated.acs = started.tracker.acsEndpoint := by
      rw [answers]
      rfl
    exact expects.destination.trans (congrArg SsoResponseEndpoint.url hacs).symm
  case request =>
    have hid : answer.inResponseTo.validated.requestId = started.tracker.requestId := by
      rw [answers]
      rfl
    change back.tracker.map LoginTracker.requestId =
      some answer.inResponseTo.validated.requestId
    rw [expects.tracked, hid]
    rfl
  case unsolicited =>
    intro h
    cases h
  case context =>
    intro requested hrequested
    change requested ∈ back.tracker.bind LoginTracker.requestedAuthnContext at hrequested
    rw [expects.tracked, Option.bind_some, hcontext] at hrequested
    have hsame := canonical.context requested hrequested
    have hasked : requested ∈ answer.inResponseTo.validated.requestedAuthnContext := by
      rw [answers]
      change requested ∈ opts.requestedAuthnContext.map readContext
      rw [Option.mem_def.mp hrequested, Option.map_some, hsame]
      rfl
    have heval := hsatisfied requested hasked
    change StandardComparator.evaluate requested
      (Text.trim answer.authnContextClassRef.asUri) = .satisfied
    rw [trim_of_satisfied hsame heval]
    exact heval
  case presenter => exact agreed.presenter

/-- The checks that a service provider makes of the subject. -/
theorem checkSubject_answer (start : sp.startLogin crypto qx web descriptor opts ambient =
      .ok started) (expects : Expects descriptor started.tracker back)
    (canonical : opts.Canonical) (agreed : Agreed crypto sp idp answer back)
    (answers : answer.inResponseTo =
      sp.requested crypto answer.sp opts started.tracker destination)
    (issued : idp.issueResponse crypto web answer draws = .ok dispatch) :
    checkNameIdFormat (back.tracker.bind LoginTracker.requestedNameIdFormat)
        (readNameId answer.nameId answer.sp.entityId) = .ok () ∧
      sp.checkSpNameQualifier (readNameId answer.nameId answer.sp.entityId) = .ok () := by
  obtain ⟨-, -, -, hformat, -⟩ := tracked_startLogin start
  obtain ⟨hissued, -, hnamed⟩ := IdentityProvider.issueResponse_checks issued
  constructor
  · rw [expects.tracked, Option.bind_some, hformat]
    unfold checkNameIdFormat
    cases hasked : opts.requestedNameIdFormat with
    | none => rfl
    | some f =>
        have hcanonical := canonical.format f hasked
        have hchosen : answer.nameId.format = f := by
          apply hnamed
          rw [answers]
          change f ∈ opts.requestedNameIdFormat.map fun f => NameIdFormat.fromUri f.asUri
          rw [hasked, Option.map_some, hcanonical]
          rfl
        have hread : (readNameId answer.nameId answer.sp.entityId).format = f := by
          rw [readNameId, hchosen, hcanonical]
        exact if_neg (not_not_intro hread)
  · obtain ⟨xml, hxml, -⟩ := issueResponse_responseXml crypto hissued
    have hqualified : answer.nameId.format = .persistent →
        ∀ q ∈ (readNameId answer.nameId answer.sp.entityId).spNameQualifier,
          q = sp.config.entityId := by
      intro hpersistent q hq
      have hread : issuedSpNameQualifier answer.nameId answer.sp.entityId = some q := hq
      unfold issuedSpNameQualifier at hread
      cases hwritten : answer.nameId.spNameQualifier with
      | some r =>
          rw [hwritten] at hread
          obtain rfl := Option.some.inj hread
          exact (qualifier_of_issuedXml hxml hpersistent hwritten).trans agreed.describes.entityId
      | none =>
          rw [hwritten] at hread
          dsimp only at hread
          rw [if_pos hpersistent] at hread
          exact (Option.some.inj hread).symm.trans agreed.describes.entityId
    unfold checkSpNameQualifier
    split
    · have hpersistent := agreed.named.symm.trans (by assumption)
      have hown := hqualified hpersistent _ (by assumption)
      exact if_neg (not_not_intro hown)
    · rfl

/-- The service provider can rely on what the identity provider signed. -/
theorem vouches_answer (start : sp.startLogin crypto qx web descriptor opts ambient =
      .ok started) (expects : Expects descriptor started.tracker back)
    (agreed : Agreed crypto sp idp answer back) (doc : Document) (parsed : ParsedResponse) :
    Vouches crypto (idp.issueInputs answer none) (sp.validationInput crypto back doc parsed) where
  some_part := agreed.some_part
  response := agreed.response
  assertion := agreed.assertion
  trusts := by
    have hpeer : validationIdp crypto back = back.idp :=
      (validationIdp_startLogin start expects).trans expects.idp.symm
    change Trusts crypto (validationIdp crypto back).signingCerts _ _
    rw [hpeer]
    exact agreed.trusts

end ServiceProvider

/-! ## The replay stage -/

/-- A cache has a place for the tombstone of an identity, and none that is live. -/
structure ServiceProvider.Room (cache : InMemoryReplayCache) (identity : Identity)
    (back : ConsumeResponse) : Prop where
  expires : (identity.notOnOrAfter.checkedAdd back.clockSkew).isSome = true
  unseen : ∀ e, cache.inner.lookup (.assertion, identity.assertionId) = some e → e ≤ back.now
  place : (cache.inner.retain fun exp => decide (exp > back.now)).len < cache.capacity

theorem ServiceProvider.reserve_of_room {cache : InMemoryReplayCache} {identity : Identity}
    {back : ConsumeResponse} (room : Room cache identity back) (replayError : Error) :
    (reserve cache back identity none replayError).2 = .ok identity := by
  obtain ⟨expiry, hexpiry⟩ := Option.isSome_iff_exists.mp room.expires
  have hexpires : replayExpiresAt identity.notOnOrAfter back.clockSkew = .ok expiry := by
    rw [replayExpiresAt, hexpiry, okOr_some]
  have hfresh : InMemoryReplayCache.conflicts
      (cache.inner.retain fun exp => decide (exp > back.now)) []
      [.assertion identity.assertionId expiry] = false := by
    apply InMemoryReplayCache.conflicts_eq_false_iff.mpr
    refine ⟨List.nodup_singleton _, fun entry hentry => ⟨List.not_mem_nil, fun hmem => ?_⟩⟩
    obtain rfl := List.mem_singleton.mp hentry
    obtain ⟨e, he⟩ := Option.isSome_iff_exists.mp (AList.lookup_isSome.mpr hmem)
    obtain ⟨hstored, hlive⟩ := ExpiryMap.lookup_retain.mp he
    exact absurd (room.unseen e hstored) (not_le.mpr (of_decide_eq_true hlive))
  have hfits : ¬ (cache.inner.retain fun exp => decide (exp > back.now)).len +
      [ReplayEntry.assertion identity.assertionId expiry].length > cache.capacity := by
    have hplace := room.place
    rw [List.length_singleton]
    omega
  unfold reserve
  rw [hexpires]
  dsimp only
  rw [Option.getD_none, InMemoryReplayCache.checkAndInsert, hfresh, if_neg Bool.false_ne_true,
    if_neg hfits]

/-- An identity without the one-time-use condition passes without a cache and with
one that has a place. -/
theorem ServiceProvider.enforceReplay_of_room {cache : Option InMemoryReplayCache}
    {identity : Identity} {back : ConsumeResponse} (reusable : identity.isOneTimeUse = false)
    (room : ∀ c ∈ cache, Room c identity back) (replayError : Error) :
    (enforceReplay back identity none replayError cache).2 = .ok identity := by
  unfold enforceReplay
  cases cache with
  | none => rw [reusable, if_neg Bool.false_ne_true]
  | some c =>
      dsimp only
      rw [reusable, Bool.false_and, if_neg Bool.false_ne_true]
      split
      · exact reserve_of_room (room c rfl) replayError
      · rfl

/-! ## The login -/

namespace SampleLogin

/-- What the identity provider answers to a request. -/
def answer (request : ParsedAuthnRequest) : IssueResponse where
  sp := peer
  inResponseTo := request
  nameId := ⟨"alice", .transient, none, none, none⟩
  attributes := []
  authnInstant := Response.Sample.now
  sessionIndex := "session"
  sessionNotOnOrAfter := none
  authnContextClassRef := .password
  forceEncryptAssertion := some false
  now := Response.Sample.now
  assertionLifetime := .ofSecs 300 Duration.fiveMinutes_lt
  subjectConfirmationLifetime := .ofSecs 300 Duration.fiveMinutes_lt
  holderOfKeyCert := none

/-- What the service provider consumes. -/
def back (tracker : LoginTracker) (octets : Octets) : ConsumeResponse where
  idp := descriptor
  peerCryptoPolicy := none
  samlResponse := octets
  binding := .httpPost
  tracker := some tracker
  expectedDestination := acs.url
  now := Response.Sample.now
  clockSkew := .ofSecs 60 Duration.minute_lt
  replayMode := .all
  holderOfKeyCert := none

/-- Start the login, answer the request, and read the answer. -/
def answered : Result (StartLoginResult × Str × Document) := do
  let started ← sp.startLogin Transparent.primitives Scanning.reader Redirect.Transparent.storedWeb
    descriptor opts ambient
  let given := answer (sp.requested Transparent.primitives peer opts started.tracker endpoint.url)
  let _ ← idp.issueResponse Transparent.primitives Redirect.Transparent.storedWeb given
    (Response.Sample.draws 4)
  let text ← issuedXml Transparent.primitives (idp.issueInputs given none)
    (Response.Sample.draws 4)
  let document ← Scanning.parseText text
  if '\r' ∈ text ∨ started.tracker.acsEndpoint ≠ acs then .error .inflate
  else .ok (started, text, document)

set_option maxRecDepth 20000 in
theorem answered_isOk : answered.isOk = true := by decide +kernel

/-- The steps of the sample login from the request that was accepted. -/
theorem answered_issued : ∃ started dispatch text document,
    sp.startLogin Transparent.primitives Scanning.reader Redirect.Transparent.storedWeb
      descriptor opts ambient = .ok started ∧
    started.tracker.acsEndpoint = acs ∧
    idp.issueResponse Transparent.primitives Redirect.Transparent.storedWeb
      (answer (sp.requested Transparent.primitives peer opts started.tracker endpoint.url))
      (Response.Sample.draws 4) = .ok dispatch ∧
    dispatch.responseXml = some (Text.asBytes text) ∧
    Document.parse Scanning.reader (Text.asBytes text) = .ok document := by
  obtain ⟨⟨started, text, document⟩, h⟩ := exists_of_isOk answered_isOk
  obtain ⟨result, hstart, h⟩ := bind_eq_ok_iff.mp h
  obtain ⟨dispatch, hdispatch, h⟩ := bind_eq_ok_iff.mp h
  obtain ⟨issued, hissued, h⟩ := bind_eq_ok_iff.mp h
  obtain ⟨read, hread, h⟩ := bind_eq_ok_iff.mp h
  obtain ⟨hlegs, h⟩ := ite_error_eq_ok_iff.mp h
  obtain ⟨hreturn, hacs⟩ := not_or.mp hlegs
  obtain ⟨sent, hsent, hcarried⟩ := issueResponse_responseXml _
    (IdentityProvider.issueResponse_checks hdispatch).1
  obtain rfl := Except.ok.inj (hissued.symm.trans hsent)
  exact ⟨result, dispatch, issued, read, hstart, not_not.mp hacs, hdispatch, hcarried,
    (Scanning.parse_asBytes hreturn).trans hread⟩

theorem canonical_opts : opts.Canonical where
  format f hf := by
    obtain rfl := Option.some.inj hf
    decide
  context rac hrac := by
    obtain rfl := Option.some.inj hrac
    rfl

theorem expects_back {tracker : LoginTracker} (h : tracker.acsEndpoint = acs) (octets : Octets) :
    ServiceProvider.Expects descriptor tracker (back tracker octets) where
  idp := rfl
  tracked := rfl
  destination := (congrArg SsoResponseEndpoint.url h).symm
  binding := (congrArg SsoResponseEndpoint.binding h).symm

theorem allowed_answer : PolicyAllows .strongDefaults idp.signOptions :=
  ⟨by decide, by decide, by decide⟩

theorem agreed_back (tracker : LoginTracker) (request : ParsedAuthnRequest) (octets : Octets) :
    Agreed Transparent.primitives sp idp (answer request) (back tracker octets) where
  entityId := rfl
  describes := ⟨rfl, rfl⟩
  some_part := .inr rfl
  response h := by cases h
  assertion _ := rfl
  trusts := ⟨⟨Response.Sample.cert, List.mem_singleton.mpr rfl, rfl⟩, allowed_answer⟩
  named := NameIdFormat.fromUri_asUri
    (by decide : NameIdFormat.transient ∈ NameIdFormat.STANDARD)
  presenter cert h := by cases h

theorem dated_answer (request : ParsedAuthnRequest) :
    IssuanceDated (idp.issueInputs (answer request) none) :=
  have h := Response.Sample.dated_issuance
  ⟨h.assertion, h.confirmation, h.authnInstant, h.session⟩

theorem timely_back (tracker : LoginTracker) (request : ParsedAuthnRequest) (octets : Octets)
    (document : Document) (parsed : ParsedResponse) :
    Timely (idp.issueInputs (answer request) none)
      (sp.validationInput Transparent.primitives (back tracker octets) document parsed) :=
  have h := Response.Sample.timely_request document parsed
  ⟨h.low, h.high, h.begun, h.assertion, h.confirmation, h.session⟩

end SampleLogin

end Saml
