import Saml.Idp.ArtifactResolve
import Saml.Xml.WellIndexed

/-!
# Single use of a resolve request

An identity provider takes its artifact resolution calls one after the other
over one cache. What an accepted call satisfies, what a failed one leaves, and
what a run can accept twice under one request identifier.
-/

namespace Saml.Replay

open Xml Crypto Dsig Artifact Library InMemoryReplayCache IdentityProvider

variable {web : Web} {crypto : Primitives} {qx : QuickXml} {idp : IdentityProvider}

/-! ## One call -/

/-- A pair of a service provider and a request identifier. -/
abbrev ResolvePair := Str × Str

/-- The pair an accepted call redeems. -/
def resolvePair (input : ConsumeArtifactResolve) (request : ArtifactResolveRequest) :
    ResolvePair :=
  (input.transaction.spEntityId, request.requestId)

/-- The root signature of a request verified under a certificate that is
current for the service provider and pinned in the transaction. -/
def PinnedSignature (crypto : Primitives) (idp : IdentityProvider)
    (input : ConsumeArtifactResolve) (document : Document) : Prop :=
  ∃ signature, document.root.childElement (some DS_NS) "Signature" = some signature ∧
    ∃ coverage : Coverage crypto document signature input.sp.signingCerts
        (idp.policyFor input.peerCryptoPolicy),
      coverage.target = document.root ∧
      coverage.trusted.fingerprintSha256 crypto ∈ input.transaction.spSigningCertFingerprints ∧
      coverage.cert.fingerprintSha256 crypto ∈ input.transaction.spSigningCertFingerprints

/-- The rules of an accepted request, with the instant it was issued at. -/
structure ResolveAccepted (web : Web) (crypto : Primitives) (qx : QuickXml)
    (idp : IdentityProvider) (input : ConsumeArtifactResolve) (document : Document)
    (request : ArtifactResolveRequest) (issueInstant : SystemTime) : Prop where
  unwrapped : Soap.unwrap qx input.soapEnvelope = .ok document
  parsed : parseArtifactResolveElement document.root = .ok request
  sp : request.issuer = input.transaction.spEntityId ∧ request.issuer = input.sp.entityId
  artifact : request.artifact = input.transaction.artifact
  endpoint : ∃ route, parseType4Artifact request.artifact = .ok route ∧
    route.sourceId = sourceId web idp.config.entityId ∧
    ∃ ars ∈ idp.config.artifactResolution, ars.index = some route.endpointIndex ∧
      ars.binding = .soap ∧ document.root.attr none "Destination" = some ars.url
  instant : ∃ text, document.root.attr none "IssueInstant" = some text ∧
    Time.parseXsDatetime text = .ok issueInstant
  fresh : input.now.nanos - input.clockSkew.nanos ≤ issueInstant.nanos ∧
    issueInstant.nanos ≤ input.now.nanos + input.clockSkew.nanos
  signed : (document.root.childElement (some DS_NS) "Signature").isSome = true ∨
    input.requireSigned = true → PinnedSignature crypto idp input document

theorem checkArtifactRoute_ok {input : ConsumeArtifactResolve}
    (h : idp.checkArtifactRoute web input = .ok ()) :
    ∃ route, parseType4Artifact input.transaction.artifact = .ok route ∧
      route.sourceId = sourceId web idp.config.entityId ∧
      ∃ ars ∈ idp.config.artifactResolution, ars.index = some route.endpointIndex ∧
        ars.binding = .soap ∧ ars.url = input.expectedDestination := by
  obtain ⟨route, hroute, h⟩ := bind_eq_ok_iff.mp h
  obtain ⟨hsource, h⟩ := ite_error_eq_ok_iff.mp h
  obtain ⟨ars, hars, h⟩ := bind_eq_ok_iff.mp h
  obtain ⟨hselected, h⟩ := ite_error_eq_ok_iff.mp h
  obtain ⟨hbinding, hurl⟩ := not_or.mp hselected
  have hfind := okOr_eq_ok_iff.mp hars
  refine ⟨route, hroute, not_not.mp hsource, ars, List.mem_of_find?_eq_some hfind, ?_,
    not_not.mp hbinding, not_not.mp hurl⟩
  simpa using List.find?_some hfind

theorem freshIssueInstant_ok {input : ConsumeArtifactResolve} {root : Element}
    {issueInstant : SystemTime} (h : freshIssueInstant input root = .ok issueInstant) :
    (∃ text, root.attr none "IssueInstant" = some text ∧
        Time.parseXsDatetime text = .ok issueInstant) ∧
      input.now.nanos - input.clockSkew.nanos ≤ issueInstant.nanos ∧
      issueInstant.nanos ≤ input.now.nanos + input.clockSkew.nanos := by
  obtain ⟨text, htext, h⟩ := bind_eq_ok_iff.mp h
  obtain ⟨instant, hinstant, h⟩ := bind_eq_ok_iff.mp h
  obtain ⟨earliest, hearliest, h⟩ := bind_eq_ok_iff.mp h
  obtain ⟨latest, hlatest, h⟩ := bind_eq_ok_iff.mp h
  obtain ⟨hwindow, h⟩ := ite_error_eq_ok_iff.mp h
  obtain rfl := Except.ok.inj h
  obtain ⟨hlow, hhigh⟩ := not_or.mp hwindow
  refine ⟨⟨text, okOr_eq_ok_iff.mp htext, hinstant⟩, ?_, ?_⟩
  · rw [← SystemTime.checkedSub_eq_some_iff.mp (okOr_eq_ok_iff.mp hearliest)]
    exact SystemTime.le_iff.mp (not_lt.mp hlow)
  · rw [← SystemTime.checkedAdd_eq_some_iff.mp (okOr_eq_ok_iff.mp hlatest)]
    exact SystemTime.le_iff.mp (not_lt.mp hhigh)

/-- An unwrapped payload has the exact indices of a parsed document. -/
theorem wellIndexed_unwrap {soapEnvelope : Octets} {document : Document}
    (h : Soap.unwrap qx soapEnvelope = .ok document) : document.WellIndexed := by
  rw [Soap.unwrap_eq] at h
  obtain ⟨_, _, h⟩ := bind_eq_ok_iff.mp h
  obtain ⟨_, _, h⟩ := bind_eq_ok_iff.mp h
  obtain ⟨_, _, h⟩ := bind_eq_ok_iff.mp h
  exact Document.wellIndexed_parse h

theorem verifyResolveSignature_ok {input : ConsumeArtifactResolve} {document : Document}
    (indexed : document.WellIndexed)
    (h : idp.verifyResolveSignature crypto input document = .ok ())
    (needed : (document.root.childElement (some DS_NS) "Signature").isSome = true ∨
      input.requireSigned = true) :
    PinnedSignature crypto idp input document := by
  unfold verifyResolveSignature at h
  cases hsignature : document.root.childElement (some DS_NS) "Signature" with
  | none =>
      rw [hsignature] at h needed
      obtain ⟨hrequired, _⟩ := ite_error_eq_ok_iff.mp h
      rcases needed with hsome | hneeded
      · cases hsome
      · exact absurd hneeded hrequired
  | some signature =>
      rw [hsignature] at h
      obtain ⟨_, h⟩ := ite_error_eq_ok_iff.mp h
      obtain ⟨verified, hverified, h⟩ := bind_eq_ok_iff.mp h
      obtain ⟨hcovers, _⟩ := ite_error_eq_ok_iff.mp h
      obtain ⟨coverage, htarget, _⟩ := verifySignature_ok hverified
      obtain ⟨hcurrent, hpinned⟩ := List.mem_filter.mp coverage.trusted_mem
      have hfingerprint := List.contains_iff_mem.mp hpinned
      refine ⟨signature, hsignature, coverage.mono fun cert hcert => (List.mem_filter.mp hcert).1,
        ?_, hfingerprint, ?_⟩
      · have hresolves := coverage.resolves
        rw [htarget, not_not.mp hcovers, indexed.element_root] at hresolves
        exact (Option.some.inj hresolves).symm
      · exact coverage.pinned ▸ hfingerprint

theorem checkArtifactCorrelation_ok {input : ConsumeArtifactResolve}
    {request : ArtifactResolveRequest} {root : Element}
    (h : checkArtifactCorrelation input request root = .ok ()) :
    (request.issuer = input.transaction.spEntityId ∧ request.issuer = input.sp.entityId) ∧
      request.artifact = input.transaction.artifact ∧
      root.attr none "Destination" = some input.expectedDestination := by
  obtain ⟨hsp, h⟩ := ite_error_eq_ok_iff.mp h
  obtain ⟨htransaction, h⟩ := ite_error_eq_ok_iff.mp h
  obtain ⟨hartifact, h⟩ := ite_error_eq_ok_iff.mp h
  obtain ⟨hdestination, _⟩ := ite_error_eq_ok_iff.mp h
  exact ⟨⟨not_not.mp htransaction, not_not.mp hsp⟩, not_not.mp hartifact,
    not_not.mp hdestination⟩

/-- What passes every check satisfies the rules, and its tombstone outlives the
window around its issue instant. -/
theorem validateArtifactResolve_ok {input : ConsumeArtifactResolve}
    {request : ArtifactResolveRequest} {issueInstant : SystemTime} {entry : ReplayEntry}
    (h : idp.validateArtifactResolve web crypto qx input = .ok (request, issueInstant, entry)) :
    (∃ document, ResolveAccepted web crypto qx idp input document request issueInstant) ∧
      entry.key = (.artifactResolve, resolveReplayId input request) ∧
      entry.expiresAt.nanos =
        issueInstant.nanos + input.clockSkew.nanos + MILLISECOND.nanos := by
  obtain ⟨⟨found, document⟩, hunwrap, h⟩ := bind_eq_ok_iff.mp h
  obtain ⟨⟨checked, tombstone⟩, hcheck, h⟩ := bind_eq_ok_iff.mp h
  obtain ⟨rfl, hrest⟩ := Prod.mk.inj (Except.ok.inj h)
  obtain ⟨rfl, rfl⟩ := Prod.mk.inj hrest
  obtain ⟨_, hroute, hcheck⟩ := bind_eq_ok_iff.mp hcheck
  obtain ⟨_, hcorrelation, hcheck⟩ := bind_eq_ok_iff.mp hcheck
  obtain ⟨instant, hinstant, hcheck⟩ := bind_eq_ok_iff.mp hcheck
  obtain ⟨_, hsignature, hcheck⟩ := bind_eq_ok_iff.mp hcheck
  obtain ⟨expiresAt, hexpires, hcheck⟩ := bind_eq_ok_iff.mp hcheck
  obtain ⟨rfl, rfl⟩ := Prod.mk.inj (Except.ok.inj hcheck)
  obtain ⟨doc, hdoc, hunwrap⟩ := bind_eq_ok_iff.mp hunwrap
  obtain ⟨request, hrequest, hunwrap⟩ := bind_eq_ok_iff.mp hunwrap
  obtain ⟨rfl, rfl⟩ := Prod.mk.inj (Except.ok.inj hunwrap)
  obtain ⟨hsp, hartifact, hdestination⟩ := checkArtifactCorrelation_ok hcorrelation
  obtain ⟨htext, hfresh⟩ := freshIssueInstant_ok hinstant
  refine ⟨⟨doc, {
    unwrapped := hdoc
    parsed := hrequest
    sp := hsp
    artifact := hartifact
    endpoint := ?_
    instant := htext
    fresh := hfresh
    signed := verifyResolveSignature_ok (wellIndexed_unwrap hdoc) hsignature }⟩, rfl, ?_⟩
  · obtain ⟨route, hparse, hsource, ars, hmem, hindex, hbinding, hurl⟩ :=
      checkArtifactRoute_ok hroute
    rw [hartifact, hdestination]
    exact ⟨route, hparse, hsource, ars, hmem, hindex, hbinding, by rw [hurl]⟩
  · obtain ⟨windowEnd, hend, hmargin⟩ := Option.bind_eq_some_iff.mp (okOr_eq_ok_iff.mp hexpires)
    have hfirst := SystemTime.checkedAdd_eq_some_iff.mp hend
    have hsecond := SystemTime.checkedAdd_eq_some_iff.mp hmargin
    calc expiresAt.nanos = windowEnd.nanos + MILLISECOND.nanos := hsecond
      _ = instant.nanos + input.clockSkew.nanos + MILLISECOND.nanos := by rw [hfirst]

/-- A validated request offers its tombstone to the cache. -/
theorem consumeArtifactResolve_of_valid {input : ConsumeArtifactResolve}
    {request : ArtifactResolveRequest} {issueInstant : SystemTime} {entry : ReplayEntry}
    (valid : idp.validateArtifactResolve web crypto qx input = .ok (request, issueInstant, entry))
    (cache : InMemoryReplayCache) :
    (idp.consumeArtifactResolve web crypto qx input cache).1 =
        (cache.checkAndInsert [entry] input.now).1 ∧
      ∀ answer, (idp.consumeArtifactResolve web crypto qx input cache).2 = .ok answer ↔
        answer = request ∧ (cache.checkAndInsert [entry] input.now).2 = .ok true := by
  unfold IdentityProvider.consumeArtifactResolve
  rw [valid]
  simp only
  cases cache.checkAndInsert [entry] input.now with
  | mk next answered =>
      cases answered with
      | error err => simp
      | ok fresh =>
          cases fresh with
          | true => simp [eq_comm]
          | false => simp

/-- What one call can do: it fails before the cache, or it offers the tombstone
of a validated request and answers with what the cache says. -/
theorem consumeArtifactResolve_cases (web : Web) (crypto : Primitives) (qx : QuickXml)
    (idp : IdentityProvider) (input : ConsumeArtifactResolve) (cache : InMemoryReplayCache) :
    (∃ err, idp.consumeArtifactResolve web crypto qx input cache = (cache, .error err)) ∨
      ∃ request issueInstant entry,
        idp.validateArtifactResolve web crypto qx input = .ok (request, issueInstant, entry) ∧
        (idp.consumeArtifactResolve web crypto qx input cache).1 =
          (cache.checkAndInsert [entry] input.now).1 ∧
        ∀ answer, (idp.consumeArtifactResolve web crypto qx input cache).2 = .ok answer ↔
          answer = request ∧ (cache.checkAndInsert [entry] input.now).2 = .ok true := by
  cases hvalid : idp.validateArtifactResolve web crypto qx input with
  | error err =>
      refine .inl ⟨err, ?_⟩
      rw [IdentityProvider.consumeArtifactResolve, hvalid]
  | ok found =>
      obtain ⟨request, issueInstant, entry⟩ := found
      exact .inr ⟨request, issueInstant, entry, rfl, consumeArtifactResolve_of_valid hvalid cache⟩

/-- An accepted call found no live tombstone for its pair and left one. -/
theorem consumeArtifactResolve_ok {input : ConsumeArtifactResolve} {cache : InMemoryReplayCache}
    {request : ArtifactResolveRequest}
    (h : (idp.consumeArtifactResolve web crypto qx input cache).2 = .ok request) :
    ∃ document issueInstant expiry,
      ResolveAccepted web crypto qx idp input document request issueInstant ∧
      expiry.nanos = issueInstant.nanos + input.clockSkew.nanos + MILLISECOND.nanos ∧
      (∀ e, cache.inner.lookup (.artifactResolve, resolveReplayId input request) = some e →
        e ≤ input.now) ∧
      (idp.consumeArtifactResolve web crypto qx input cache).1.inner.lookup
        (.artifactResolve, resolveReplayId input request) = some expiry := by
  rcases consumeArtifactResolve_cases web crypto qx idp input cache with
    ⟨err, heq⟩ | ⟨found, issueInstant, entry, hvalid, hnext, hanswer⟩
  · rw [heq] at h
    cases h
  · obtain ⟨rfl, hfresh⟩ := (hanswer request).mp h
    obtain ⟨⟨document, haccepted⟩, hkey, hexpiry⟩ := validateArtifactResolve_ok hvalid
    obtain ⟨hlapsed, hstored⟩ := checkAndInsert_single hfresh
    rw [hkey] at hlapsed hstored
    rw [hnext]
    exact ⟨document, issueInstant, entry.expiresAt, haccepted, hexpiry, hlapsed, hstored⟩

/-- A call that fails keeps every tombstone that has not lapsed and adds none. -/
theorem consumeArtifactResolve_error {input : ConsumeArtifactResolve}
    {cache : InMemoryReplayCache} {err : Error}
    (h : (idp.consumeArtifactResolve web crypto qx input cache).2 = .error err)
    (k : ReplayKey) (e : SystemTime) :
    ((idp.consumeArtifactResolve web crypto qx input cache).1.inner.lookup k = some e →
        cache.inner.lookup k = some e) ∧
      (cache.inner.lookup k = some e → input.now < e →
        (idp.consumeArtifactResolve web crypto qx input cache).1.inner.lookup k = some e) := by
  rcases consumeArtifactResolve_cases web crypto qx idp input cache with
    ⟨other, heq⟩ | ⟨found, issueInstant, entry, hvalid, hnext, hanswer⟩
  · rw [heq]
    exact ⟨id, fun hstored _ => hstored⟩
  · have hrefused : (cache.checkAndInsert [entry] input.now).2 ≠ .ok true := by
      intro hfresh
      rw [(hanswer found).mpr ⟨rfl, hfresh⟩] at h
      cases h
    rw [hnext, lookup_checkAndInsert_refused hrefused]
    exact ⟨And.left, fun hstored hlive => ⟨hstored, hlive⟩⟩

/-- A call keeps every tombstone its clock has not reached. -/
theorem lookup_consumeArtifactResolve {input : ConsumeArtifactResolve}
    {cache : InMemoryReplayCache} {k : ReplayKey} {e : SystemTime}
    (stored : cache.inner.lookup k = some e) (live : input.now < e) :
    (idp.consumeArtifactResolve web crypto qx input cache).1.inner.lookup k = some e := by
  rcases consumeArtifactResolve_cases web crypto qx idp input cache with
    ⟨err, heq⟩ | ⟨found, issueInstant, entry, hvalid, hnext, _⟩
  · rw [heq]
    exact stored
  · rw [hnext]
    exact lookup_checkAndInsert stored live [entry]

/-! ## Runs -/

/-- The identity provider around its cache, call after call. -/
def resolutions (web : Web) (crypto : Primitives) (qx : QuickXml) (idp : IdentityProvider) :
    Machine InMemoryReplayCache ConsumeArtifactResolve (Result ArtifactResolveRequest) where
  step cache input := idp.consumeArtifactResolve web crypto qx input cache

/-- The run lemma: calls whose clocks have not reached a tombstone keep it. -/
theorem resolutions_keep {calls : List ConsumeArtifactResolve} {cache : InMemoryReplayCache}
    {k : ReplayKey} {e : SystemTime} (stored : cache.inner.lookup k = some e)
    (live : ∀ call ∈ calls, call.now < e) :
    ((resolutions web crypto qx idp).after cache calls).inner.lookup k = some e := by
  induction calls generalizing cache with
  | nil => exact stored
  | cons call rest ih =>
      rw [Machine.after_cons]
      apply ih
      · exact lookup_consumeArtifactResolve stored (live call List.mem_cons_self)
      · intro other hother
        exact live other (List.mem_cons_of_mem call hother)

/-- A pair that is redeemed again comes with an issue instant past the end of
the tombstone's margin: no request is accepted twice. -/
theorem reissued_of_redeemed_twice {cache : InMemoryReplayCache} {skew : Duration}
    {before middle rest : List ConsumeArtifactResolve} {first second : ConsumeArtifactResolve}
    (common : ∀ call ∈ before ++ first :: (middle ++ second :: rest), call.clockSkew = skew)
    (ordered : (before ++ first :: (middle ++ second :: rest)).Pairwise fun a b => a.now ≤ b.now)
    {a b : ArtifactResolveRequest}
    (hfirst : (resolutions web crypto qx idp).answer cache before first = .ok a)
    (hsecond : (resolutions web crypto qx idp).answer cache (before ++ first :: middle) second =
      .ok b)
    (same : resolvePair first a = resolvePair second b) :
    ∃ document s, ResolveAccepted web crypto qx idp first document a s ∧
      ∃ document t, ResolveAccepted web crypto qx idp second document b t ∧
        s.nanos + MILLISECOND.nanos ≤ t.nanos := by
  obtain ⟨docA, s, expiry, hacceptedA, hexpiry, _, hstored⟩ := consumeArtifactResolve_ok hfirst
  obtain ⟨docB, t, _, hacceptedB, _, hlapsed, _⟩ := consumeArtifactResolve_ok hsecond
  refine ⟨docA, s, hacceptedA, docB, t, hacceptedB, ?_⟩
  have hskewA : first.clockSkew = skew := common first (by simp)
  have hskewB : second.clockSkew = skew := common second (by simp)
  have htail := (List.pairwise_append.mp (List.pairwise_append.mp ordered).2.1.of_cons).2.2
  have hkey : resolveReplayId first a = resolveReplayId second b := by
    obtain ⟨hsp, hid⟩ := Prod.mk.inj same
    rw [resolveReplayId, resolveReplayId, hsp, hid]
  -- The clock of the second call has reached the tombstone of the first.
  have hreached : expiry ≤ second.now := by
    by_contra hlive
    rw [hkey] at hstored
    rw [Machine.after_append, Machine.after_cons] at hlapsed
    refine hlive (hlapsed expiry (resolutions_keep hstored ?_))
    intro call hcall
    exact lt_of_le_of_lt (htail call hcall second List.mem_cons_self) (not_le.mp hlive)
  have hnow := SystemTime.le_iff.mp hreached
  have hwindow := hacceptedB.fresh.1
  rw [hexpiry, hskewA] at hnow
  rw [hskewB] at hwindow
  omega

/-- No pair is redeemed by two calls of a run. -/
def RedeemedOnce (web : Web) (crypto : Primitives) (qx : QuickXml) (idp : IdentityProvider)
    (cache : InMemoryReplayCache) (calls : List ConsumeArtifactResolve) : Prop :=
  ∀ before first middle second rest a b,
    calls = before ++ first :: (middle ++ second :: rest) →
    (resolutions web crypto qx idp).answer cache before first = .ok a →
    (resolutions web crypto qx idp).answer cache (before ++ first :: middle) second = .ok b →
    resolvePair first a ≠ resolvePair second b

/-- What holds along a run of resolution calls. -/
structure ResolutionRun (web : Web) (crypto : Primitives) (qx : QuickXml)
    (idp : IdentityProvider) (cache : InMemoryReplayCache) (calls : List ConsumeArtifactResolve) :
    Prop where
  redeemed : ∀ before first middle second rest a b,
    calls = before ++ first :: (middle ++ second :: rest) →
    (resolutions web crypto qx idp).answer cache before first = .ok a →
    (resolutions web crypto qx idp).answer cache (before ++ first :: middle) second = .ok b →
    resolvePair first a = resolvePair second b →
    ∃ document s, ResolveAccepted web crypto qx idp first document a s ∧
      ∃ document t, ResolveAccepted web crypto qx idp second document b t ∧
        s.nanos + MILLISECOND.nanos ≤ t.nanos
  accepted : ∀ before call rest request, calls = before ++ call :: rest →
    (resolutions web crypto qx idp).answer cache before call = .ok request →
    ∃ document issueInstant,
      ResolveAccepted web crypto qx idp call document request issueInstant
  failed : ∀ before call rest err, calls = before ++ call :: rest →
    (resolutions web crypto qx idp).answer cache before call = .error err → ∀ k e,
    (((resolutions web crypto qx idp).after cache (before ++ [call])).inner.lookup k = some e →
        ((resolutions web crypto qx idp).after cache before).inner.lookup k = some e) ∧
      (((resolutions web crypto qx idp).after cache before).inner.lookup k = some e →
        call.now < e →
        ((resolutions web crypto qx idp).after cache (before ++ [call])).inner.lookup k = some e)

/-- Along every run over one cache, under one clock tolerance and a clock that
does not go back: no request is redeemed twice, what is accepted satisfies the
rules, and what fails leaves the live tombstones alone. -/
theorem resolutions_sound (idp : IdentityProvider) (cache : InMemoryReplayCache)
    (skew : Duration) (calls : List ConsumeArtifactResolve)
    (common : ∀ call ∈ calls, call.clockSkew = skew)
    (ordered : calls.Pairwise fun a b => a.now ≤ b.now) :
    ResolutionRun web crypto qx idp cache calls where
  redeemed := by
    rintro before first middle second rest a b rfl hfirst hsecond hsame
    exact reissued_of_redeemed_twice common ordered hfirst hsecond hsame
  accepted := by
    rintro before call rest request rfl haccepted
    obtain ⟨document, issueInstant, _, hrules, _⟩ := consumeArtifactResolve_ok haccepted
    exact ⟨document, issueInstant, hrules⟩
  failed := by
    rintro before call rest err rfl hfailed k e
    rw [Machine.after_concat]
    exact consumeArtifactResolve_error hfailed k e

/-! ## A pair redeemed twice -/

namespace Reissued

/-- The endpoint that resolves the artifacts of the sample. -/
def ars : Endpoint := ⟨"https://idp.example/ars", .soap, some 3, true⟩

/-- The sample identity provider with that endpoint. -/
def artifactIdp : IdentityProvider where
  config := { Saml.Sample.idpConfig ⟨false, false⟩ with artifactResolution := [ars] }
  valid := {
    entityId := (Saml.Sample.idp ⟨false, false⟩).valid.entityId
    sso := (Saml.Sample.idp ⟨false, false⟩).valid.sso
    artifactResolution := fun e he => by
      obtain rfl := List.mem_singleton.mp he
      exact ⟨rfl, rfl⟩
    certificate := fun _ => rfl
    indices := List.nodup_singleton _ }

def skew : Duration := .ofSecs 60 Duration.minute_lt

/-- An instant past the tombstone of a request issued at the sample instant. -/
def later : SystemTime := ⟨1700000061 * NANOS, by decide⟩

def input (now : SystemTime) (artifact text : Str) : ConsumeArtifactResolve where
  sp := Response.Sample.sp
  transaction := ⟨artifact, "sp", []⟩
  peerCryptoPolicy := none
  soapEnvelope := Text.asBytes text
  expectedDestination := "https://idp.example/ars"
  now := now
  clockSkew := skew
  requireSigned := false

/-- Unwrap an envelope from its characters. -/
def unwrapText (text : Str) : Result Document := do
  let doc ← Scanning.parseText text
  let payload ← Soap.bodyPayload doc.root
  let payloadXml ← emitElement payload
  let document ← Scanning.parseText payloadXml
  if '\r' ∈ text ∨ '\r' ∈ payloadXml then .error .inflate else .ok document

/-- Issue an unsigned request at an instant and check it there. -/
def presented (artifact : Str) (now : SystemTime) :
    Result (Str × ArtifactResolveRequest × SystemTime × ReplayEntry) := do
  let element ← buildArtifactResolveElement "sp" "https://idp.example/ars" artifact "request" now
  let text ← Soap.wrapElement element
  let document ← unwrapText text
  let request ← parseArtifactResolveElement document.root
  let (issueInstant, entry) ← artifactIdp.checkArtifactResolve Redirect.Transparent.storedWeb
    Transparent.primitives (input now artifact text) request document
  .ok (text, request, issueInstant, entry)

/-- Two requests with one identifier, the second issued once the tombstone of
the first has lapsed. -/
def reissued : Result (Str × Str × Str) := do
  let artifact ← makeArtifact Redirect.Transparent.storedWeb "idp" 3
    (some ⟨List.replicate 20 9, by decide⟩)
  let (first, a, _, entry) ← presented artifact Response.Sample.now
  let (second, b, _, again) ← presented artifact later
  let (cache, fresh) := (new 8).checkAndInsert [entry] Response.Sample.now
  let (_, freshAgain) := cache.checkAndInsert [again] later
  if ¬ (fresh = .ok true ∧ freshAgain = .ok true ∧ a.requestId = b.requestId) then
    .error .artifactResolveReplay
  else .ok (artifact, first, second)

set_option maxRecDepth 20000 in
theorem reissued_isOk : reissued.isOk = true := by decide +kernel

theorem unwrapText_ok {text : Str} {document : Document} (h : unwrapText text = .ok document) :
    Soap.unwrap Scanning.reader (Text.asBytes text) = .ok document := by
  obtain ⟨doc, hdoc, h⟩ := bind_eq_ok_iff.mp h
  obtain ⟨payload, hpayload, h⟩ := bind_eq_ok_iff.mp h
  obtain ⟨payloadXml, hemit, h⟩ := bind_eq_ok_iff.mp h
  obtain ⟨document, hdocument, h⟩ := bind_eq_ok_iff.mp h
  obtain ⟨hplain, h⟩ := ite_error_eq_ok_iff.mp h
  obtain rfl := Except.ok.inj h
  obtain ⟨htext, hxml⟩ := not_or.mp hplain
  rw [Soap.unwrap_eq, Scanning.parse_asBytes htext]
  refine bind_eq_ok_iff.mpr ⟨doc, hdoc, bind_eq_ok_iff.mpr ⟨payload, hpayload, ?_⟩⟩
  refine bind_eq_ok_iff.mpr ⟨payloadXml, hemit, ?_⟩
  rw [Scanning.parse_asBytes hxml]
  exact hdocument

/-- A presented request is what the identity provider validates. -/
theorem presented_ok {artifact text : Str} {now instant : SystemTime}
    {request : ArtifactResolveRequest} {entry : ReplayEntry}
    (h : presented artifact now = .ok (text, request, instant, entry)) :
    artifactIdp.validateArtifactResolve Redirect.Transparent.storedWeb Transparent.primitives
      Scanning.reader (input now artifact text) = .ok (request, instant, entry) := by
  obtain ⟨_, _, h⟩ := bind_eq_ok_iff.mp h
  obtain ⟨text, _, h⟩ := bind_eq_ok_iff.mp h
  obtain ⟨document, hdocument, h⟩ := bind_eq_ok_iff.mp h
  obtain ⟨request, hrequest, h⟩ := bind_eq_ok_iff.mp h
  obtain ⟨⟨instant, entry⟩, hcheck, h⟩ := bind_eq_ok_iff.mp h
  obtain ⟨rfl, hrest⟩ := Prod.mk.inj (Except.ok.inj h)
  obtain ⟨rfl, hchecked⟩ := Prod.mk.inj hrest
  obtain ⟨rfl, rfl⟩ := Prod.mk.inj hchecked
  have hunwrap : unwrapArtifactResolve Scanning.reader (Text.asBytes text) =
      .ok (request, document) :=
    bind_eq_ok_iff.mpr ⟨document, unwrapText_ok hdocument,
      bind_eq_ok_iff.mpr ⟨request, hrequest, rfl⟩⟩
  exact bind_eq_ok_iff.mpr ⟨_, hunwrap, bind_eq_ok_iff.mpr ⟨_, hcheck, rfl⟩⟩

/-- The steps of the run that redeems one pair twice. -/
theorem reissued_ok {artifact first second : Str} (h : reissued = .ok (artifact, first, second)) :
    ∃ a b, (resolutions Redirect.Transparent.storedWeb Transparent.primitives Scanning.reader
        artifactIdp).answer (new 8) [] (input Response.Sample.now artifact first) = .ok a ∧
      (resolutions Redirect.Transparent.storedWeb Transparent.primitives Scanning.reader
        artifactIdp).answer (new 8) [input Response.Sample.now artifact first]
        (input later artifact second) = .ok b ∧
      resolvePair (input Response.Sample.now artifact first) a =
        resolvePair (input later artifact second) b := by
  obtain ⟨artifact, _, h⟩ := bind_eq_ok_iff.mp h
  obtain ⟨⟨first, a, _, entry⟩, hfirst, h⟩ := bind_eq_ok_iff.mp h
  obtain ⟨⟨second, b, _, again⟩, hsecond, h⟩ := bind_eq_ok_iff.mp h
  obtain ⟨hboth, h⟩ := ite_error_eq_ok_iff.mp h
  obtain ⟨hfresh, hagain, hid⟩ := not_not.mp hboth
  obtain ⟨rfl, hrest⟩ := Prod.mk.inj (Except.ok.inj h)
  obtain ⟨rfl, rfl⟩ := Prod.mk.inj hrest
  obtain ⟨hnext, hanswer⟩ := consumeArtifactResolve_of_valid (presented_ok hfirst) (new 8)
  refine ⟨a, b, (hanswer a).mpr ⟨rfl, hfresh⟩, ?_, ?_⟩
  · rw [Machine.answer, Machine.after_cons, Machine.after_nil]
    change (artifactIdp.consumeArtifactResolve _ _ _ _
      (artifactIdp.consumeArtifactResolve _ _ _ _ _).1).2 = _
    rw [hnext]
    exact ((consumeArtifactResolve_of_valid (presented_ok hsecond) _).2 b).mpr ⟨rfl, hagain⟩
  · rw [resolvePair, resolvePair, hid]
    rfl

/-- The calls of that run share their tolerance and are in the order of their clocks. -/
theorem reissued_admissible (artifact first second : Str) :
    (∀ call ∈ [input Response.Sample.now artifact first, input later artifact second],
        call.clockSkew = skew) ∧
      [input Response.Sample.now artifact first, input later artifact second].Pairwise
        fun a b => a.now ≤ b.now := by
  constructor
  · simp [input]
  · have hle : Response.Sample.now ≤ later := by decide
    simpa [input] using hle

end Reissued

/-- The tombstone of a request lasts as long as the request is fresh: another
request with its identifier, issued later, is accepted after that. -/
theorem redeemedOnce_reissued : ¬ ∀ (web : Web) (crypto : Primitives) (qx : QuickXml)
    (idp : IdentityProvider) (cache : InMemoryReplayCache) (skew : Duration)
    (calls : List ConsumeArtifactResolve), 0 < skew.nanos →
    (∀ call ∈ calls, call.clockSkew = skew) → (calls.Pairwise fun a b => a.now ≤ b.now) →
    RedeemedOnce web crypto qx idp cache calls := by
  intro hclaim
  obtain ⟨⟨artifact, first, second⟩, hreissued⟩ := exists_of_isOk Reissued.reissued_isOk
  obtain ⟨a, b, hfirst, hsecond, hsame⟩ := Reissued.reissued_ok hreissued
  obtain ⟨hcommon, hordered⟩ := Reissued.reissued_admissible artifact first second
  exact hclaim _ _ _ _ (new 8) Reissued.skew _ (by decide) hcommon hordered [] _ [] _ [] a b rfl
    hfirst hsecond hsame

/-- The run of the sample, with both of its acceptances. -/
theorem resolutions_sound_sample : ∃ artifact first second,
    Reissued.reissued = .ok (artifact, first, second) ∧
      ResolutionRun Redirect.Transparent.storedWeb Transparent.primitives Scanning.reader
        Reissued.artifactIdp (new 8) [Reissued.input Response.Sample.now artifact first,
          Reissued.input Reissued.later artifact second] := by
  obtain ⟨⟨artifact, first, second⟩, hreissued⟩ := exists_of_isOk Reissued.reissued_isOk
  obtain ⟨hcommon, hordered⟩ := Reissued.reissued_admissible artifact first second
  exact ⟨artifact, first, second, hreissued,
    resolutions_sound Reissued.artifactIdp (new 8) Reissued.skew _ hcommon hordered⟩

end Saml.Replay
