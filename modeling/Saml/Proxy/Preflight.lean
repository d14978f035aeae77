import Saml.Proxy.Relay
import Saml.Response.Issuable

/-!
# The preflight of a relay

A relay checks what it can before a caller's callback runs. What it does not
check by then is whether the endpoint's URL parses, whether the signing key can
sign and show a certificate, and whether the assertion can be encrypted.
-/

namespace Saml.Proxy

open Xml Crypto Dsig Response Authn Replay

variable (crypto : Primitives)

/-- The checks before the first callback: the endpoint, the clamped deadlines and
the negotiated format they end with. -/
def preflight (proxy : Proxy) (input : RelayToDownstream) :
    Result (SsoResponseEndpoint × RelayDeadlines × NameIdFormat) := do
  let payload := input.flow.context.payload
  let acs ← proxy.downstreamAcs crypto input
  checkDowngrade payload.requestedAuthnContext input.classRef
  let deadlines ← clampDeadlines input
  let _ ← issuanceInstants input.now deadlines.sessionLifetime
    deadlines.subjectConfirmationLifetime input.flow.identity.authnInstant
    (some deadlines.sessionNotOnOrAfter)
  let format ← proxy.idp.resolveNameIdFormat payload.requestedNameIdFormat
  .ok (acs, deadlines, format)

/-- The answer of the transform callback, in the negotiated format. -/
def transformedNameId (input : RelayToDownstream) (format : NameIdFormat) : Result NameId := do
  let identity := input.flow.identity
  let nameId ← input.nameIdTransform input.flow.context.payload.upstreamTracker.idpEntityId
    identity.nameId identity.attributes input.downstreamSp
  ensureNameIdFormat nameId format
  ensureNameIdSpQualifier nameId input.downstreamSp.entityId
  .ok nameId

/-- What issuance is handed once both callbacks have answered. -/
def relayedInputs (proxy : Proxy) (input : RelayToDownstream) (synthetic : ParsedAuthnRequest)
    (deadlines : RelayDeadlines) (nameId : NameId)
    (sessionIndex : { octets : Octets // octets.length = 16 }) : IssueResponseInputs :=
  proxy.idp.issueInputs (input.issueResponse synthetic nameId deadlines sessionIndex) none

/-- The request that a relay answers. -/
def syntheticRequest (input : RelayToDownstream) (acs : SsoResponseEndpoint) :
    Result ParsedAuthnRequest :=
  let payload := input.flow.context.payload
  ParsedAuthnRequest.forProxyReissue crypto input.downstreamSp payload.downstreamRequestId
    payload.issuedAt acs payload.requestedNameIdFormat payload.requestedAuthnContext
    payload.downstreamRelayState

variable {crypto} {web : Web} {proxy : Proxy}

/-- The endpoint of a relay is a registered one that responses are posted to. -/
structure Registered (input : RelayToDownstream) (acs : SsoResponseEndpoint) : Prop where
  peer : input.flow.context.payload.downstreamSpEntityId = input.downstreamSp.entityId
  url : acs.url = input.flow.context.payload.downstreamAcs.url
  binding : acs.binding = .httpPost
  found : ∃ canonical, input.downstreamSp.assertionConsumerServices.find? (fun e =>
    e.url = acs.url ∧ e.binding = acs.binding ∧ e.index = acs.index) = some canonical

theorem registered_of_downstreamAcs {input : RelayToDownstream} {acs : SsoResponseEndpoint}
    (h : proxy.downstreamAcs crypto input = .ok acs) : Registered input acs := by
  obtain ⟨_, h⟩ := ite_error_eq_ok_iff.mp h
  -- the key material check comes first or is left out
  have hpaired : (if input.flow.context.payload.downstreamSpEntityId ≠
      input.downstreamSp.entityId then
        .error (.issuerMismatch input.flow.context.payload.downstreamSpEntityId
          (some input.downstreamSp.entityId))
      else do
        let acs ← SsoResponseEndpoint.tryFromEndpoint input.flow.context.payload.downstreamAcs
        if acs.binding = .httpArtifact then .error .artifactTransactionRequired
        else if !input.downstreamSp.assertionConsumerServices.any (fun e =>
            e.url = acs.url ∧ e.binding = acs.binding ∧ e.index = acs.index) then
          .error (.unregisteredAcs input.downstreamSp.entityId)
        else .ok acs) = Except.ok acs := by
    split at h
    · obtain ⟨_, _, h⟩ := bind_eq_ok_iff.mp h
      exact h
    · exact h
  obtain ⟨hpeer, hpaired⟩ := ite_error_eq_ok_iff.mp hpaired
  obtain ⟨endpoint, hendpoint, hpaired⟩ := bind_eq_ok_iff.mp hpaired
  obtain ⟨hbinding, hpaired⟩ := ite_error_eq_ok_iff.mp hpaired
  obtain ⟨hany, hpaired⟩ := ite_error_eq_ok_iff.mp hpaired
  obtain rfl := Except.ok.inj hpaired
  refine ⟨not_not.mp hpeer, ?_, ?_, ?_⟩
  · obtain ⟨binding, _, hendpoint⟩ := bind_eq_ok_iff.mp hendpoint
    rw [← Except.ok.inj hendpoint]
  · cases hb : endpoint.binding with
    | httpPost => rfl
    | httpArtifact => exact absurd hb hbinding
  · rw [← Option.isSome_iff_exists, List.find?_isSome]
    simpa using hany

/-- The request that a relay answers can be made for a registered endpoint, and
says what the sealed payload and the descriptor say. -/
structure Synthetic (crypto : Primitives) (input : RelayToDownstream)
    (synthetic : ParsedAuthnRequest) : Prop where
  peer : synthetic.validated.spEntityId = input.downstreamSp.entityId
  url : synthetic.validated.acs.url = input.flow.context.payload.downstreamAcs.url
  binding : synthetic.validated.acs.binding = .httpPost
  keys : synthetic.validated.encryptionCertFingerprints =
    input.downstreamSp.encryptionCerts.map (·.fingerprintSha256 crypto)
  context : synthetic.validated.requestedAuthnContext =
    input.flow.context.payload.requestedAuthnContext
  format : synthetic.validated.requestedNameIdFormat =
    input.flow.context.payload.requestedNameIdFormat

theorem exists_syntheticRequest (crypto : Primitives)
    {input : RelayToDownstream} {acs : SsoResponseEndpoint}
    (h : Registered input acs) : ∃ synthetic, syntheticRequest crypto input acs = .ok synthetic ∧
      Synthetic crypto input synthetic := by
  obtain ⟨canonical, hfound⟩ := h.found
  obtain ⟨hurl, hbinding, _⟩ : canonical.url = acs.url ∧ canonical.binding = acs.binding ∧
      canonical.index = acs.index := by
    simpa using List.find?_some hfound
  refine ⟨_, bind_eq_ok_iff.mpr ⟨canonical, okOr_eq_ok_iff.mpr hfound, rfl⟩, ?_⟩
  exact ⟨rfl, hurl.trans h.url, hbinding.trans h.binding, rfl, rfl, rfl⟩

/-- A request made for a registered endpoint passes every check of the issuing
role. -/
theorem issueResponse_synthetic {input : RelayToDownstream} {synthetic : ParsedAuthnRequest}
    {deadlines : RelayDeadlines} {format : NameIdFormat} {nameId : NameId}
    (h : Synthetic crypto input synthetic)
    (hclass : checkDowngrade input.flow.context.payload.requestedAuthnContext input.classRef =
      .ok ())
    (hformat : proxy.idp.resolveNameIdFormat input.flow.context.payload.requestedNameIdFormat =
      .ok format) (hnameId : ensureNameIdFormat nameId format = .ok ())
    (sessionIndex : { octets : Octets // octets.length = 16 }) (draws : IssueDraws) :
    proxy.idp.issueResponse crypto web
        (input.issueResponse synthetic nameId deadlines sessionIndex) draws =
      Response.issueResponse crypto web
        (relayedInputs proxy input synthetic deadlines nameId sessionIndex) draws := by
  have hartifact : synthetic.validated.acs.binding ≠ .httpArtifact := by
    rw [h.binding]
    decide
  have hbelongs : ensureRequestBelongsToSp synthetic input.downstreamSp = .ok () :=
    if_neg (not_not_intro h.peer)
  have hkeys : ensureSpKeyMaterialMatches crypto synthetic input.downstreamSp = .ok () := by
    rw [ensureSpKeyMaterialMatches, h.keys]
    exact if_pos rfl
  have hmaterial : proxy.idp.checkKeyMaterial crypto
      (input.issueResponse synthetic nameId deadlines sessionIndex) = .ok () := by
    show (if proxy.idp.config.encryptAssertionsWhenPossible then
      ensureSpKeyMaterialMatches crypto synthetic input.downstreamSp else .ok ()) = .ok ()
    split
    · exact hkeys
    · rfl
  have hcontext : ensureAuthnContextSatisfiesRequest synthetic input.classRef = .ok () := by
    rw [ensureAuthnContextSatisfiesRequest, h.context]
    cases hrequested : input.flow.context.payload.requestedAuthnContext with
    | none => rfl
    | some requested =>
        rw [hrequested] at hclass
        exact hclass
  have hservice : proxy.idp.artifactResolutionServiceFor synthetic.validated.acs.binding =
      .ok none := if_pos hartifact
  have hnegotiated : proxy.idp.resolveNameIdFormat synthetic.validated.requestedNameIdFormat =
      .ok format := h.format ▸ hformat
  refine (if_neg hartifact).trans ?_
  refine (bind_of_ok hbelongs _).trans ?_
  refine (bind_of_ok hmaterial _).trans ?_
  refine (bind_of_ok hcontext _).trans ?_
  refine (bind_of_ok hservice _).trans ?_
  refine (bind_of_ok hnegotiated _).trans ?_
  exact bind_of_ok hnameId _

/-- What a preflight has checked. -/
structure Checked (crypto : Primitives) (proxy : Proxy) (input : RelayToDownstream)
    (acs : SsoResponseEndpoint) (deadlines : RelayDeadlines) (format : NameIdFormat) : Prop where
  endpoint : proxy.downstreamAcs crypto input = .ok acs
  context : checkDowngrade input.flow.context.payload.requestedAuthnContext input.classRef =
    .ok ()
  clamped : clampDeadlines input = .ok deadlines
  instants : ∃ instants, issuanceInstants input.now deadlines.sessionLifetime
    deadlines.subjectConfirmationLifetime input.flow.identity.authnInstant
    (some deadlines.sessionNotOnOrAfter) = .ok instants
  negotiated : proxy.idp.resolveNameIdFormat input.flow.context.payload.requestedNameIdFormat =
    .ok format

theorem preflight_eq_ok_iff {input : RelayToDownstream} {acs : SsoResponseEndpoint}
    {deadlines : RelayDeadlines} {format : NameIdFormat} :
    preflight crypto proxy input = .ok (acs, deadlines, format) ↔
      Checked crypto proxy input acs deadlines format := by
  constructor
  · intro h
    obtain ⟨checked, hacs, h⟩ := bind_eq_ok_iff.mp h
    obtain ⟨_, hclass, h⟩ := bind_eq_ok_iff.mp h
    obtain ⟨clamped, hdeadlines, h⟩ := bind_eq_ok_iff.mp h
    obtain ⟨instants, hinstants, h⟩ := bind_eq_ok_iff.mp h
    obtain ⟨negotiated, hformat, h⟩ := bind_eq_ok_iff.mp h
    obtain ⟨rfl, hrest⟩ := Prod.mk.inj (Except.ok.inj h)
    obtain ⟨rfl, rfl⟩ := Prod.mk.inj hrest
    exact ⟨hacs, hclass, hdeadlines, ⟨instants, hinstants⟩, hformat⟩
  · rintro ⟨hacs, hclass, hdeadlines, ⟨instants, hinstants⟩, hformat⟩
    refine bind_eq_ok_iff.mpr ⟨acs, hacs, bind_eq_ok_iff.mpr ⟨(), hclass, ?_⟩⟩
    refine bind_eq_ok_iff.mpr ⟨deadlines, hdeadlines, ?_⟩
    exact bind_eq_ok_iff.mpr ⟨instants, hinstants, bind_eq_ok_iff.mpr ⟨format, hformat, rfl⟩⟩

/-- A relay runs its preflight before anything else. -/
theorem exists_preflight_of_ok {input : RelayToDownstream}
    {sessionIndex : { octets : Octets // octets.length = 16 }} {draws : IssueDraws}
    {dispatch : SsoResponseDispatch}
    (h : proxy.relayToDownstream crypto web input sessionIndex draws = .ok dispatch) :
    ∃ acs deadlines format nameId, preflight crypto proxy input = .ok (acs, deadlines, format) ∧
      transformedNameId input format = .ok nameId := by
  obtain ⟨acs, hacs, h⟩ := bind_eq_ok_iff.mp h
  obtain ⟨_, hclass, h⟩ := bind_eq_ok_iff.mp h
  obtain ⟨deadlines, hdeadlines, h⟩ := bind_eq_ok_iff.mp h
  obtain ⟨instants, hinstants, h⟩ := bind_eq_ok_iff.mp h
  obtain ⟨nameId, hnameId, _⟩ := bind_eq_ok_iff.mp h
  obtain ⟨format, hformat, htransformed⟩ := bind_eq_ok_iff.mp hnameId
  exact ⟨acs, deadlines, format, nameId,
    preflight_eq_ok_iff.mpr ⟨hacs, hclass, hdeadlines, ⟨instants, hinstants⟩, hformat⟩,
    htransformed⟩

/-- A relay runs its preflight, asks the callbacks, and issues what they answer. -/
theorem relayToDownstream_eq {input : RelayToDownstream} {acs : SsoResponseEndpoint}
    {deadlines : RelayDeadlines} {format : NameIdFormat} {nameId : NameId}
    {synthetic : ParsedAuthnRequest} (h : Checked crypto proxy input acs deadlines format)
    (hnameId : transformedNameId input format = .ok nameId)
    (hsynthetic : syntheticRequest crypto input acs = .ok synthetic)
    (hholds : Synthetic crypto input synthetic)
    (sessionIndex : { octets : Octets // octets.length = 16 }) (draws : IssueDraws) :
    proxy.relayToDownstream crypto web input sessionIndex draws =
      Response.issueResponse crypto web
        (relayedInputs proxy input synthetic deadlines nameId sessionIndex) draws := by
  obtain ⟨instants, hinstants⟩ := h.instants
  obtain ⟨answer, hanswer, htransformed⟩ := bind_eq_ok_iff.mp hnameId
  obtain ⟨_, hensured, htransformed⟩ := bind_eq_ok_iff.mp htransformed
  obtain ⟨_, _, htransformed⟩ := bind_eq_ok_iff.mp htransformed
  obtain rfl := Except.ok.inj htransformed
  have hdownstream : proxy.downstreamNameId input = .ok answer :=
    bind_eq_ok_iff.mpr ⟨format, h.negotiated, hnameId⟩
  refine (bind_of_ok h.endpoint _).trans ?_
  refine (bind_of_ok h.context _).trans ?_
  refine (bind_of_ok h.clamped _).trans ?_
  refine (bind_of_ok hinstants _).trans ?_
  refine (bind_of_ok hdownstream _).trans ?_
  refine (bind_of_ok hsynthetic _).trans ?_
  exact issueResponse_synthetic hholds h.context h.negotiated hensured sessionIndex draws

/-! ## What the preflight leaves open -/

/-- A callback runs: the preflight came to its end. -/
def CallbackRuns (crypto : Primitives) (proxy : Proxy) (input : RelayToDownstream) : Prop :=
  (preflight crypto proxy input).isOk = true

/-- Nothing goes wrong that was not known when the callbacks ran: the transform
answers with a name identifier in the negotiated format, the random octets are
there, and what is released fits into a message. -/
structure Answered (crypto : Primitives) (proxy : Proxy) (input : RelayToDownstream)
    (sessionIndex : { octets : Octets // octets.length = 16 }) (draws : IssueDraws) : Prop where
  drawn : Drawn draws
  nameId : ∀ acs deadlines format, preflight crypto proxy input = .ok (acs, deadlines, format) →
    ∃ nameId, transformedNameId input format = .ok nameId ∧
      ∀ synthetic, syntheticRequest crypto input acs = .ok synthetic →
        Fits crypto (relayedInputs proxy input synthetic deadlines nameId sessionIndex) draws

/-- What a relay needs of the endpoint's URL, of the signing configuration and of
the encryption configuration. -/
structure Relayable (crypto : Primitives) (web : Web) (proxy : Proxy) (input : RelayToDownstream) :
    Prop where
  url : (web.parseUrl input.flow.context.payload.downstreamAcs.url).isSome = true
  signing : proxy.idp.config.assertionSigning.signResponses = true ∨
    proxy.idp.config.assertionSigning.signAssertions = true →
      Usable crypto proxy.idp.config.signingKey proxy.idp.config.outboundSignatureAlgorithm
  encryption : proxy.idp.config.encryptAssertionsWhenPossible = true →
    ∀ cert, input.downstreamSp.encryptionCert crypto = some cert →
      Encrypts crypto cert proxy.idp.config.outboundDataEncryptionAlgorithm
        proxy.idp.config.outboundKeyTransportAlgorithm

theorem issuable_iff {input : RelayToDownstream} {synthetic : ParsedAuthnRequest}
    (h : Synthetic crypto input synthetic) (deadlines : RelayDeadlines) (nameId : NameId)
    (sessionIndex : { octets : Octets // octets.length = 16 }) :
    Issuable crypto web (relayedInputs proxy input synthetic deadlines nameId sessionIndex) ↔
      Relayable crypto web proxy input := by
  have hencrypt : (relayedInputs proxy input synthetic deadlines nameId
      sessionIndex).shouldEncrypt crypto = true ↔
        proxy.idp.config.encryptAssertionsWhenPossible = true ∧
          (input.downstreamSp.encryptionCert crypto).isSome = true :=
    Bool.and_eq_true_iff
  constructor
  · rintro ⟨hurl, hsigning, hencryption⟩
    refine ⟨h.url ▸ hurl, hsigning, ?_⟩
    intro hpossible cert hcert
    obtain ⟨other, hother, hencrypts⟩ :=
      hencryption (hencrypt.mpr ⟨hpossible, hcert ▸ Option.isSome_some⟩)
    rwa [Option.some.inj (hother.symm.trans hcert)] at hencrypts
  · rintro ⟨hurl, hsigning, hencryption⟩
    refine ⟨h.url.symm ▸ hurl, hsigning, ?_⟩
    intro hshould
    obtain ⟨hpossible, hsome⟩ := hencrypt.mp hshould
    obtain ⟨cert, hcert⟩ := Option.isSome_iff_exists.mp hsome
    exact ⟨cert, hcert, hencryption hpossible cert hcert⟩

/-- A run of the issuance behind a relay: what it is handed, and that handing it
over is all that is left to do. -/
theorem exists_handedOver (web : Web) {input : RelayToDownstream}
    {sessionIndex : { octets : Octets // octets.length = 16 }} {draws : IssueDraws}
    (runs : CallbackRuns crypto proxy input)
    (answered : Answered crypto proxy input sessionIndex draws) :
    ∃ inputs instants, Fits crypto inputs draws ∧
      (Issuable crypto web inputs ↔ Relayable crypto web proxy input) ∧
      ensureNameIdSpQualifier inputs.nameId inputs.sp.entityId = .ok () ∧
      issuanceInstants inputs.now inputs.assertionLifetime inputs.subjectConfirmationLifetime
        inputs.authnInstant inputs.sessionNotOnOrAfter = .ok instants ∧
      inputs.acsEndpoint.binding = .httpPost ∧
      proxy.relayToDownstream crypto web input sessionIndex draws =
        Response.issueResponse crypto web inputs draws := by
  obtain ⟨⟨acs, deadlines, format⟩, hpreflight⟩ := exists_of_isOk runs
  obtain ⟨nameId, hnameId, hfits⟩ := answered.nameId acs deadlines format hpreflight
  have hchecked := preflight_eq_ok_iff.mp hpreflight
  obtain ⟨synthetic, hsynthetic, hholds⟩ :=
    exists_syntheticRequest crypto (registered_of_downstreamAcs hchecked.endpoint)
  obtain ⟨instants, hinstants⟩ := hchecked.instants
  have hqualifier : ensureNameIdSpQualifier nameId input.downstreamSp.entityId = .ok () := by
    obtain ⟨answer, _, htransformed⟩ := bind_eq_ok_iff.mp hnameId
    obtain ⟨_, _, htransformed⟩ := bind_eq_ok_iff.mp htransformed
    obtain ⟨_, hqualifier, htransformed⟩ := bind_eq_ok_iff.mp htransformed
    obtain rfl := Except.ok.inj htransformed
    exact hqualifier
  exact ⟨relayedInputs proxy input synthetic deadlines nameId sessionIndex, instants,
    hfits synthetic hsynthetic, issuable_iff hholds deadlines nameId sessionIndex, hqualifier,
    hinstants, hholds.binding,
    relayToDownstream_eq hchecked hnameId hsynthetic hholds sessionIndex draws⟩

/-- What was relayed could be relayed. -/
theorem relayable_of_relayed (uniform : Uniform crypto) {input : RelayToDownstream}
    {sessionIndex : { octets : Octets // octets.length = 16 }} {draws : IssueDraws}
    {dispatch : SsoResponseDispatch} (answered : Answered crypto proxy input sessionIndex draws)
    (h : proxy.relayToDownstream crypto web input sessionIndex draws = .ok dispatch) :
    Relayable crypto web proxy input := by
  obtain ⟨_, _, _, _, hpreflight, _⟩ := exists_preflight_of_ok h
  have hruns : CallbackRuns crypto proxy input := by
    rw [CallbackRuns, hpreflight]
    rfl
  obtain ⟨inputs, _, hfits, hissuable, _, _, _, heq⟩ :=
    exists_handedOver web hruns answered
  rw [heq] at h
  exact hissuable.mp (issuable_of_issueResponse uniform hfits h)

/-! ## A relay without a certificate -/

namespace Relayed

/-- The relay of a flow that releases no attribute. -/
def quiet (flow : UpstreamFlow) : RelayToDownstream :=
  { relay flow with attributeRelease := fun _ _ => [] }

/-- The proxy with a signing key that carries no certificate. -/
def bare : Proxy where
  sp := relayer.sp
  idp := {
    config := { relayer.idp.config with signingKey := { Response.Sample.key with cert := none } }
    valid := {
      entityId := relayer.idp.valid.entityId
      sso := relayer.idp.valid.sso
      artifactResolution := relayer.idp.valid.artifactResolution
      certificate := fun h => absurd rfl h
      indices := relayer.idp.valid.indices } }
  proxyInstance := relayer.proxyInstance

theorem uniform : Uniform Transparent.primitives where
  rsaSign _ _ _ _ := rfl
  ecdsaSign _ _ _ _ := rfl
  rsaOaepEncrypt _ _ _ _ _ _ _ _ := rfl
  aesCbcEncrypt _ _ _ _ _ _ _ _ := rfl
  aesGcmEncrypt _ _ _ _ _ _ _ _ _ _ := rfl

theorem drawn : Drawn (Response.Sample.draws 5) where
  ids := ⟨_, _, rfl, rfl, by decide⟩
  sessionKey _ := rfl
  iv _ := rfl

/-- A proxy that never encrypts gets good answers to a quiet relay once the
transform answers. -/
theorem answered {proxy : Proxy} {flow : UpstreamFlow} {format : NameIdFormat} {nameId : NameId}
    (hplain : proxy.idp.config.encryptAssertionsWhenPossible = false)
    (hformat : proxy.idp.resolveNameIdFormat flow.context.payload.requestedNameIdFormat =
      .ok format)
    (hnameId : transformedNameId (quiet flow) format = .ok nameId) :
    Answered Transparent.primitives proxy (quiet flow) sixteen (Response.Sample.draws 5) := by
  refine ⟨drawn, ?_⟩
  intro acs deadlines negotiated hpreflight
  have hsame : negotiated = format :=
    Except.ok.inj ((preflight_eq_ok_iff.mp hpreflight).negotiated.symm.trans hformat)
  refine ⟨nameId, hsame ▸ hnameId, ?_⟩
  intro synthetic _
  refine ⟨?_, ?_⟩
  · show 0 + 128 ≤ U32_BOUND
    decide
  · intro hencrypt
    have hshould : (proxy.idp.config.encryptAssertionsWhenPossible &&
        ((quiet flow).downstreamSp.encryptionCert Transparent.primitives).isSome) = true :=
      hencrypt
    rw [hplain] at hshould
    cases hshould

end Relayed

/-- Once a callback has run and nothing new goes wrong, a relay succeeds exactly
when the endpoint's URL parses, the key that has to sign can sign and show a
certificate, and the recipient that has to be encrypted for can be. -/
theorem relayed_iff_relayable (uniform : Uniform crypto) {input : RelayToDownstream}
    {sessionIndex : { octets : Octets // octets.length = 16 }} {draws : IssueDraws}
    (runs : CallbackRuns crypto proxy input)
    (answered : Answered crypto proxy input sessionIndex draws) :
    (∃ dispatch, proxy.relayToDownstream crypto web input sessionIndex draws = .ok dispatch) ↔
      Relayable crypto web proxy input := by
  constructor
  · rintro ⟨dispatch, hdispatch⟩
    exact relayable_of_relayed uniform answered hdispatch
  · intro hrelayable
    obtain ⟨inputs, instants, hfits, hissuable, hqualifier, hinstants, hbinding, heq⟩ :=
      exists_handedOver web runs answered
    rw [heq]
    exact exists_issueResponse (hissuable.mpr hrelayable) answered.drawn hfits hqualifier
      hinstants hbinding

/-- In the sample relay nothing goes wrong. -/
theorem relayed_iff_relayable_sample : ∃ payload text flow,
    (Relayed.relayer.consumeUpstreamResponse Transparent.primitives Scanning.reader
      (Relayed.opening payload) (Relayed.upstream text) (InMemoryReplayCache.new 8)).2 = .ok flow ∧
    CallbackRuns Transparent.primitives Relayed.relayer (Relayed.quiet flow) ∧
    ((∃ dispatch, Relayed.relayer.relayToDownstream Transparent.primitives
      Redirect.Transparent.storedWeb (Relayed.quiet flow) Relayed.sixteen
      (Response.Sample.draws 5) = .ok dispatch) ↔
      Relayable Transparent.primitives Redirect.Transparent.storedWeb Relayed.relayer
        (Relayed.quiet flow)) := by
  obtain ⟨⟨payload, text, flow, dispatch⟩, hrun⟩ := exists_of_isOk Relayed.run_isOk
  have hran := Relayed.run_ok hrun
  obtain ⟨acs, deadlines, format, nameId, hpreflight, hnameId⟩ :=
    exists_preflight_of_ok hran.relayed
  have hruns : CallbackRuns Transparent.primitives Relayed.relayer (Relayed.quiet flow) :=
    congrArg Except.isOk hpreflight
  refine ⟨payload, text, flow, hran.accepted, hruns, ?_⟩
  exact relayed_iff_relayable Relayed.uniform hruns
    (Relayed.answered rfl (preflight_eq_ok_iff.mp hpreflight).negotiated hnameId)

/-- Without a certificate the callbacks of the same relay run and answer, and
nothing can be issued. -/
theorem callbacks_run_for_nothing : ∃ payload text flow,
    (Relayed.bare.consumeUpstreamResponse Transparent.primitives Scanning.reader
      (Relayed.opening payload) (Relayed.upstream text) (InMemoryReplayCache.new 8)).2 = .ok flow ∧
    CallbackRuns Transparent.primitives Relayed.bare (Relayed.quiet flow) ∧
    Answered Transparent.primitives Relayed.bare (Relayed.quiet flow) Relayed.sixteen
      (Response.Sample.draws 5) ∧
    ∀ dispatch, Relayed.bare.relayToDownstream Transparent.primitives
      Redirect.Transparent.storedWeb (Relayed.quiet flow) Relayed.sixteen
      (Response.Sample.draws 5) ≠ .ok dispatch := by
  obtain ⟨⟨payload, text, flow, dispatch⟩, hrun⟩ := exists_of_isOk Relayed.run_isOk
  have hran := Relayed.run_ok hrun
  obtain ⟨acs, deadlines, format, nameId, hpreflight, hnameId⟩ :=
    exists_preflight_of_ok hran.relayed
  have hanswered : Answered Transparent.primitives Relayed.bare (Relayed.quiet flow)
      Relayed.sixteen (Response.Sample.draws 5) :=
    Relayed.answered rfl (preflight_eq_ok_iff.mp hpreflight).negotiated hnameId
  refine ⟨payload, text, flow, hran.accepted, congrArg Except.isOk hpreflight, hanswered, ?_⟩
  intro dispatch hdispatch
  have hsigning := (relayable_of_relayed Relayed.uniform hanswered hdispatch).signing
  cases (hsigning (.inr rfl)).certified

end Saml.Proxy
