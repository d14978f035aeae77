import Saml.Proxy.Flow
import Saml.Replay.SingleUse
import Saml.Response.Issued
import Saml.Time.Written

/-!
# What a proxy relays

The assertion a relay emits, against the upstream assertion behind its flow and
the downstream request it was bounced for: its deadlines, its authentication
class, and the proxy restriction it does not carry.
-/

namespace Saml

open Xml Crypto Dsig Response Time Replay Authn

namespace Proxy

variable {crypto : Primitives} {qx : QuickXml} {web : Web} {proxy : Proxy}

/-! ## The bounce -/

/-- The payload a bounce hands to its codec. -/
def sealedPayload (crypto : Primitives) (qx : QuickXml) (web : Web) (proxy : Proxy)
    (input : BounceToUpstream) (ambient : Logout.Ambient)
    (transactionId : { octets : Octets // octets.length = 16 }) : Result ProxyContextPayload := do
  let result ← proxy.sp.startLogin crypto qx web input.upstreamIdp input.startLogin ambient
  let expiresAt ← okOr (input.now.checkedAdd PROXY_CONTEXT_LIFETIME)
    (.invalidConfiguration "proxy context expiry overflow")
  .ok (input.payload crypto result.tracker expiresAt transactionId)

/-- The token of a bounce is its sealed payload. -/
theorem bounceToUpstream_ok {codec : ProxyContextCodec} {input : BounceToUpstream}
    {ambient : Logout.Ambient} {transactionId : { octets : Octets // octets.length = 16 }}
    {result : BounceResult}
    (h : proxy.bounceToUpstream crypto qx web codec input ambient transactionId = .ok result) :
    ∃ payload, sealedPayload crypto qx web proxy input ambient transactionId = .ok payload ∧
      codec.encode payload = .ok result.upstreamRelayState := by
  obtain ⟨_, h⟩ := ite_error_eq_ok_iff.mp h
  obtain ⟨login, hlogin, h⟩ := bind_eq_ok_iff.mp h
  obtain ⟨expiresAt, hexpiresAt, h⟩ := bind_eq_ok_iff.mp h
  obtain ⟨relayState, hsealed, h⟩ := bind_eq_ok_iff.mp h
  obtain rfl := Except.ok.inj h
  exact ⟨_, bind_eq_ok_iff.mpr ⟨login, hlogin, bind_eq_ok_iff.mpr ⟨expiresAt, hexpiresAt, rfl⟩⟩,
    hsealed⟩

/-- What the validated request asks for is sealed, whatever is propagated. -/
theorem sealedPayload_ok {input : BounceToUpstream} {ambient : Logout.Ambient}
    {transactionId : { octets : Octets // octets.length = 16 }} {payload : ProxyContextPayload}
    (h : sealedPayload crypto qx web proxy input ambient transactionId = .ok payload) :
    payload.requestedAuthnContext =
      input.downstreamRequest.validated.requestedAuthnContext := by
  obtain ⟨login, _, h⟩ := bind_eq_ok_iff.mp h
  obtain ⟨expiresAt, _, h⟩ := bind_eq_ok_iff.mp h
  obtain rfl := Except.ok.inj h
  rfl

/-! ## The upstream assertion -/

/-- The assertion a flow was accepted for: an element of the document the
response parses to, or of the plaintext in it, and what is read from it. -/
structure Upstream (crypto : Primitives) (qx : QuickXml) (proxy : Proxy)
    (input : ConsumeUpstreamResponse) (flow : UpstreamFlow) (request : ValidateResponse)
    (element : Element) (assertion : ParsedAssertion) : Prop where
  document : Document.parse qx input.samlResponse = .ok request.document
  parsed : ∃ rootId, parseResponse request.document = .ok (request.parsed, rootId)
  handed : request = proxy.sp.validationInput crypto
    (input.consumeResponse flow.context.payload) request.document request.parsed
  located : ∃ located, locateAssertion crypto qx request = .ok located ∧
    located.element = element
  read : readAssertion crypto qx request element = .ok assertion
  accepted : AssertionAccepted request assertion flow.identity
  confirmed : ∃ confirmation, findValidSubjectConfirmation request assertion = .ok confirmation ∧
    confirmation.notOnOrAfter = some flow.identity.subjectConfirmationNotOnOrAfter

theorem extractIdentity_confirmed {request : ValidateResponse} {located : LocatedAssertion}
    {identity : Identity} {assertion : ParsedAssertion}
    (h : extractIdentity crypto qx request located = .ok identity)
    (hread : readAssertion crypto qx request located.element = .ok assertion) :
    ∃ confirmation, findValidSubjectConfirmation request assertion = .ok confirmation ∧
      confirmation.notOnOrAfter = some identity.subjectConfirmationNotOnOrAfter := by
  obtain ⟨read, hread', h⟩ := bind_eq_ok_iff.mp h
  obtain rfl := Except.ok.inj (hread'.symm.trans hread)
  obtain ⟨_, h⟩ := ite_error_eq_ok_iff.mp h
  obtain ⟨_, _, h⟩ := bind_eq_ok_iff.mp h
  obtain ⟨notOnOrAfter, _, h⟩ := bind_eq_ok_iff.mp h
  obtain ⟨_, _, h⟩ := bind_eq_ok_iff.mp h
  obtain ⟨confirmation, hconfirmation, h⟩ := bind_eq_ok_iff.mp h
  obtain ⟨confirmationEnd, hend, h⟩ := bind_eq_ok_iff.mp h
  obtain ⟨_, _, h⟩ := bind_eq_ok_iff.mp h
  obtain ⟨_, _, h⟩ := bind_eq_ok_iff.mp h
  obtain rfl := Except.ok.inj h
  exact ⟨confirmation, hconfirmation, okOr_eq_ok_iff.mp hend⟩

/-- A flow holds the context its token opened as, and the identity of an
assertion of the response. -/
theorem consumeUpstreamResponse_ok {codec : ProxyContextCodec} {input : ConsumeUpstreamResponse}
    {cache : InMemoryReplayCache} {flow : UpstreamFlow}
    (h : (proxy.consumeUpstreamResponse crypto qx codec input cache).2 = .ok flow) :
    codec.decode input.relayState = .ok flow.context.payload ∧
      ∃ request element assertion,
        Upstream crypto qx proxy input flow request element assertion := by
  unfold consumeUpstreamResponse at h
  split at h
  · cases h
  next context hcontext =>
    obtain ⟨opened, hopened, hcontext⟩ := bind_eq_ok_iff.mp hcontext
    obtain ⟨_, hcontext⟩ := ite_error_eq_ok_iff.mp hcontext
    obtain ⟨_, hcontext⟩ := ite_error_eq_ok_iff.mp hcontext
    obtain rfl := Except.ok.inj hcontext
    dsimp only at h
    cases hconsumed : (proxy.sp.consumeResponseWithReplay crypto qx
        (input.consumeResponse opened.payload) (some (.proxyTransaction
          (base64UrlNoPad opened.payload.transactionId.val) opened.payload.expiresAt))
        .proxyTransactionReplay (some cache)).2 with
    | error err =>
      rw [hconsumed] at h
      cases h
    | ok identity =>
      rw [hconsumed] at h
      obtain rfl : (⟨opened, identity, proxy.proxyInstance⟩ : UpstreamFlow) = flow :=
        Except.ok.inj h
      refine ⟨decodeContext_ok hopened, ?_⟩
      have hvalidated := ServiceProvider.consumeResponseWithReplay_ok (Prod.ext rfl hconsumed)
      obtain ⟨_, _, hvalidated⟩ := bind_eq_ok_iff.mp hvalidated
      obtain ⟨document, hdocument, hvalidated⟩ := bind_eq_ok_iff.mp hvalidated
      obtain ⟨⟨parsed, rootId⟩, hparsed, hvalidated⟩ := bind_eq_ok_iff.mp hvalidated
      obtain ⟨validated, hvalidate, hvalidated⟩ := bind_eq_ok_iff.mp hvalidated
      obtain ⟨_, _, hvalidated⟩ := bind_eq_ok_iff.mp hvalidated
      obtain ⟨_, _, hvalidated⟩ := bind_eq_ok_iff.mp hvalidated
      obtain rfl := Except.ok.inj hvalidated
      obtain ⟨_, _, located, hlocated, hextract⟩ := validateResponse_ok hvalidate
      obtain ⟨_, assertion, hread, haccepted⟩ := extractIdentity_ok hextract
      exact ⟨proxy.sp.validationInput crypto (input.consumeResponse opened.payload) document parsed,
        located.element, assertion, hdocument, ⟨rootId, hparsed⟩, rfl, ⟨located, hlocated, rfl⟩,
        hread, haccepted, extractIdentity_confirmed hextract hread⟩

/-! ## The emitted assertion -/

/-- A relay that succeeds issues, with clamped deadlines, a class that is no
downgrade of what the sealed request asks for. -/
theorem relayToDownstream_ok {input : RelayToDownstream}
    {sessionIndex : { octets : Octets // octets.length = 16 }} {draws : IssueDraws}
    {dispatch : SsoResponseDispatch}
    (h : proxy.relayToDownstream crypto web input sessionIndex draws = .ok dispatch) :
    checkDowngrade input.flow.context.payload.requestedAuthnContext input.classRef = .ok () ∧
      ∃ deadlines synthetic nameId service emitted, clampDeadlines input = .ok deadlines ∧
        EmittedAssertion crypto (proxy.idp.issueInputs
          (input.issueResponse synthetic nameId deadlines sessionIndex) service) draws dispatch
          emitted := by
  obtain ⟨acs, _, h⟩ := bind_eq_ok_iff.mp h
  obtain ⟨_, hdowngrade, h⟩ := bind_eq_ok_iff.mp h
  obtain ⟨deadlines, hdeadlines, h⟩ := bind_eq_ok_iff.mp h
  obtain ⟨_, _, h⟩ := bind_eq_ok_iff.mp h
  obtain ⟨nameId, _, h⟩ := bind_eq_ok_iff.mp h
  obtain ⟨synthetic, _, h⟩ := bind_eq_ok_iff.mp h
  obtain ⟨⟨service, hissue⟩, _⟩ := IdentityProvider.issueResponse_ok h
  obtain ⟨emitted, hemitted⟩ := issueResponse_emitted hissue
  exact ⟨hdowngrade, deadlines, synthetic, nameId, service, emitted, hdeadlines, hemitted⟩

/-! ## Deadlines -/

/-- A deadline that an assertion states: the value of a `NotOnOrAfter` or of a
`SessionNotOnOrAfter` on any of its elements. -/
def Deadline (assertion : Element) (value : Str) : Prop :=
  ∃ path d a, assertion.walk path = some d ∧ a ∈ d.attributes ∧ a.value = value ∧
    (a.qname = plain "NotOnOrAfter" ∨ a.qname = plain "SessionNotOnOrAfter")

/-- The deadlines of an upstream assertion: of its conditions, of the
confirmation it was accepted for, and of its session. -/
inductive UpstreamDeadline (request : ValidateResponse) (assertion : ParsedAssertion) :
    SystemTime → Prop
  | conditions {t : SystemTime} : assertion.conditions.notOnOrAfter = some t →
      UpstreamDeadline request assertion t
  | confirmation {sc : SubjectConfirmation} {t : SystemTime} :
      findValidSubjectConfirmation request assertion = .ok sc → sc.notOnOrAfter = some t →
      UpstreamDeadline request assertion t
  | session {statement : ParsedAuthnStatement} {t : SystemTime} :
      assertion.authnStatements.head? = some statement →
      statement.sessionNotOnOrAfter = some t → UpstreamDeadline request assertion t

/-- A written deadline that is not after an instant: neither the instant it was
written from nor the one it is read back as. -/
def NotAfter (value : Str) (limit : SystemTime) : Prop :=
  ∃ t, formatXsDatetime t = .ok value ∧ t ≤ limit ∧
    ∀ u, parseXsDatetime value = .ok u → u ≤ limit

theorem notAfter_of_format {value : Str} {t limit : SystemTime}
    (h : formatXsDatetime t = .ok value) (hle : t ≤ limit) : NotAfter value limit := by
  refine ⟨t, h, hle, fun u hu => ?_⟩
  have hread := parseXsDatetime_formatXsDatetime h hu
  have hmod := Int.emod_nonneg t.nanos (by decide : (1000000 : Int) ≠ 0)
  refine le_trans ?_ hle
  rw [SystemTime.le_iff, hread]
  omega

theorem NotAfter.trans {value : Str} {limit later : SystemTime} (h : NotAfter value limit)
    (hle : limit ≤ later) : NotAfter value later := by
  obtain ⟨t, hformat, ht, hread⟩ := h
  exact ⟨t, hformat, ht.trans hle, fun u hu => (hread u hu).trans hle⟩

/-- The clamp is below every deadline of the upstream assertion. -/
theorem upstreamExpiry_le {input : ConsumeUpstreamResponse} {flow : UpstreamFlow}
    {request : ValidateResponse} {element : Element} {assertion : ParsedAssertion}
    (upstream : Upstream crypto qx proxy input flow request element assertion)
    {limit : SystemTime} (h : UpstreamDeadline request assertion limit) :
    upstreamExpiry flow.identity ≤ limit := by
  obtain ⟨confirmation, hconfirmation, hend⟩ := upstream.confirmed
  cases h with
  | conditions ht =>
    have heq := Option.some.inj (upstream.accepted.notOnOrAfter.1.symm.trans ht)
    rw [← heq]
    unfold upstreamExpiry
    refine (min_le_left _ _).trans ?_
    split
    · exact min_le_left _ _
    · exact le_refl _
  | confirmation hsc ht =>
    obtain rfl := Except.ok.inj (hconfirmation.symm.trans hsc)
    rw [← Option.some.inj (hend.symm.trans ht)]
    exact min_le_right _ _
  | session hstatement ht =>
    have hsession := upstream.accepted.sessionNotOnOrAfter
    rw [hstatement, Option.bind_some, ht] at hsession
    unfold upstreamExpiry
    rw [hsession]
    exact (min_le_left _ _).trans (min_le_right _ _)

/-- The instants of a relayed assertion stay below the clamp. -/
theorem clampDeadlines_ok {input : RelayToDownstream} {deadlines : RelayDeadlines}
    (h : clampDeadlines input = .ok deadlines) :
    deadlines.sessionNotOnOrAfter ≤ upstreamExpiry input.flow.identity ∧
      input.now.nanos + deadlines.sessionLifetime.nanos ≤
        (upstreamExpiry input.flow.identity).nanos ∧
      deadlines.subjectConfirmationLifetime ≤ deadlines.sessionLifetime := by
  obtain ⟨halive, h⟩ := ite_error_eq_ok_iff.mp h
  obtain ⟨requested, hrequested, h⟩ := bind_eq_ok_iff.mp h
  obtain rfl := Except.ok.inj h
  have hsum := SystemTime.checkedAdd_eq_some_iff.mp (okOr_eq_ok_iff.mp hrequested)
  have hle : (min requested (upstreamExpiry input.flow.identity)).nanos ≤
      (upstreamExpiry input.flow.identity).nanos := SystemTime.le_iff.mp (min_le_right _ _)
  have hnow : input.now.nanos ≤ (min requested (upstreamExpiry input.flow.identity)).nanos := by
    refine SystemTime.le_iff.mp (le_min ?_ (not_le.mp halive).le)
    rw [SystemTime.le_iff, hsum]
    omega
  refine ⟨min_le_right _ _, ?_, min_le_right _ _⟩
  simp only [SystemTime.since]
  omega

/-- The deadlines of an issuance, as written. -/
theorem issuanceInstants_ok {now authnInstant : SystemTime}
    {assertionLifetime subjectConfirmationLifetime : Duration}
    {sessionNotOnOrAfter : Option SystemTime} {instants : IssuanceInstants}
    (h : issuanceInstants now assertionLifetime subjectConfirmationLifetime authnInstant
      sessionNotOnOrAfter = .ok instants) :
    (∃ t, t.nanos = now.nanos + assertionLifetime.nanos ∧
      formatXsDatetime t = .ok instants.conditionsNotOnOrAfter) ∧
    (∃ t, t.nanos = now.nanos + subjectConfirmationLifetime.nanos ∧
      formatXsDatetime t = .ok instants.subjectConfirmationNotOnOrAfter) ∧
    ∀ value, instants.sessionNotOnOrAfter = some value →
      ∃ t, sessionNotOnOrAfter = some t ∧ formatXsDatetime t = .ok value := by
  obtain ⟨notBefore, _, h⟩ := bind_eq_ok_iff.mp h
  obtain ⟨conditionsEnd, hconditions, h⟩ := bind_eq_ok_iff.mp h
  obtain ⟨confirmationEnd, hconfirmation, h⟩ := bind_eq_ok_iff.mp h
  obtain ⟨_, _, h⟩ := bind_eq_ok_iff.mp h
  obtain ⟨_, _, h⟩ := bind_eq_ok_iff.mp h
  obtain ⟨conditionsText, hconditionsText, h⟩ := bind_eq_ok_iff.mp h
  obtain ⟨confirmationText, hconfirmationText, h⟩ := bind_eq_ok_iff.mp h
  obtain ⟨_, _, h⟩ := bind_eq_ok_iff.mp h
  obtain ⟨sessionText, hsession, h⟩ := bind_eq_ok_iff.mp h
  obtain rfl := Except.ok.inj h
  refine ⟨⟨conditionsEnd, SystemTime.checkedAdd_eq_some_iff.mp (okOr_eq_ok_iff.mp hconditions),
    hconditionsText⟩, ⟨confirmationEnd, SystemTime.checkedAdd_eq_some_iff.mp
      (okOr_eq_ok_iff.mp hconfirmation), hconfirmationText⟩, ?_⟩
  rintro value rfl
  obtain ⟨_, hnone⟩ | ⟨t, written, ht, hwritten, hsome⟩ := mapTranspose_eq_ok_iff.mp hsession
  · cases hnone
  · exact ⟨t, ht, Option.some.inj hsome ▸ hwritten⟩

/-- The deadlines on an element itself are not after an instant. -/
def EndsBy (limit : SystemTime) (d : Element) : Prop :=
  ∀ a ∈ d.attributes, a.qname = plain "NotOnOrAfter" ∨ a.qname = plain "SessionNotOnOrAfter" →
    NotAfter a.value limit

theorem endsBy_of_neutral (limit : SystemTime) {d : Element} (h : Neutral d) : EndsBy limit d := by
  intro a ha hname
  rcases hname with heq | heq
  · exact absurd heq (h.attributes a ha).1
  · exact absurd heq (h.attributes a ha).2

theorem EndsBy.withAttribute {limit : SystemTime} {d : Element} (h : EndsBy limit d) (loc : Str)
    {value : Str} (hvalue : NotAfter value limit) :
    EndsBy limit (d.withAttribute (plain loc) value) := by
  intro a ha hname
  rcases List.mem_append.mp ha with ha | ha
  · exact h a ha hname
  · rw [List.mem_singleton.mp ha]
    exact hvalue

theorem EndsBy.withOptionalAttribute {limit : SystemTime} {d : Element} (h : EndsBy limit d)
    (loc : Str) {value : Option Str}
    (hvalue : ∀ v, value = some v → loc ∈ DEADLINES → NotAfter v limit) :
    EndsBy limit (withOptionalAttribute d loc value) := by
  cases value with
  | none => exact h
  | some v =>
    intro a ha hname
    rcases List.mem_append.mp ha with ha | ha
    · exact h a ha hname
    · obtain rfl := List.mem_singleton.mp ha
      refine hvalue v rfl ?_
      rcases hname with heq | heq
      · exact (QName.mk.inj heq).2 ▸ List.mem_cons_self ..
      · exact (QName.mk.inj heq).2 ▸ List.mem_cons_of_mem _ (List.mem_cons_self ..)

/-- Every deadline of a relayed assertion is at most the clamp. -/
theorem deadline_le_upstreamExpiry {input : RelayToDownstream} {deadlines : RelayDeadlines}
    {synthetic : ParsedAuthnRequest} {nameId : NameId}
    {sessionIndex : { octets : Octets // octets.length = 16 }} {service : Option Endpoint}
    {draws : IssueDraws} {emitted : Element} (hclamp : clampDeadlines input = .ok deadlines)
    (hissued : issuedAssertion crypto (proxy.idp.issueInputs
      (input.issueResponse synthetic nameId deadlines sessionIndex) service) draws =
        .ok emitted) {value : Str} (hdeadline : Deadline emitted value) :
    NotAfter value (upstreamExpiry input.flow.identity) := by
  obtain ⟨hsession, hconditions, hconfirmation⟩ := clampDeadlines_ok hclamp
  have heverywhere : Everywhere (EndsBy (upstreamExpiry input.flow.identity)) emitted := by
    refine everywhere_issuedAssertion (fun d hd => endsBy_of_neutral _ hd)
      (fun d => by rw [EndsBy, unnumbered_attributes, EndsBy]) hissued ?_ (fun a ha => by cases ha)
    intro instants hinstants
    obtain ⟨⟨t, ht, htText⟩, ⟨u, hu, huText⟩, hsessionText⟩ := issuanceInstants_ok hinstants
    have htLe : t ≤ upstreamExpiry input.flow.identity := by
      rw [SystemTime.le_iff, ht]
      exact hconditions
    have huLe : u ≤ upstreamExpiry input.flow.identity := by
      rw [SystemTime.le_iff, hu]
      have hshorter := Duration.le_iff.mp hconfirmation
      simp only [IdentityProvider.issueInputs, RelayToDownstream.issueResponse]
      omega
    refine ⟨?_, ?_, ?_⟩
    · have hself : Neutral (saml "SubjectConfirmationData") :=
        neutral_saml (by decide) (by decide)
      have hdata := (endsBy_of_neutral _ (hself.withAttribute
        (by decide : ("Recipient" : Str) ∉ DEADLINES) synthetic.validated.acs.url)).withAttribute
        "NotOnOrAfter" (notAfter_of_format huText huLe)
      exact hdata.withOptionalAttribute "InResponseTo" fun _ _ hmem => absurd hmem (by decide)
    · have hself : Neutral (saml "Conditions") := neutral_saml (by decide) (by decide)
      exact (endsBy_of_neutral _ (hself.withAttribute
        (by decide : ("NotBefore" : Str) ∉ DEADLINES) instants.conditionsNotBefore)).withAttribute
        "NotOnOrAfter" (notAfter_of_format htText htLe)
    · have hself : Neutral (saml "AuthnStatement") := neutral_saml (by decide) (by decide)
      have hstatement := endsBy_of_neutral (upstreamExpiry input.flow.identity)
        ((hself.withAttribute (by decide : ("AuthnInstant" : Str) ∉ DEADLINES)
          instants.authnInstant).withAttribute (by decide : ("SessionIndex" : Str) ∉ DEADLINES)
          (makeSessionIndex sessionIndex))
      refine hstatement.withOptionalAttribute "SessionNotOnOrAfter" ?_
      rintro written hwritten -
      obtain ⟨sessionEnd, hend, hendText⟩ := hsessionText written hwritten
      rw [← Option.some.inj hend] at hendText
      exact notAfter_of_format hendText hsession
  obtain ⟨path, d, a, hwalk, ha, rfl, hname⟩ := hdeadline
  exact heverywhere path d hwalk a ha hname

/-! ## Restrictions -/

/-- The conditions of an assertion hold a proxy restriction. -/
def Restricted (assertion : Element) : Prop :=
  ((assertion.childElement (some SAML_NS) "Conditions").bind
    (·.childElement (some SAML_NS) "ProxyRestriction")).isSome = true

instance (assertion : Element) : Decidable (Restricted assertion) :=
  inferInstanceAs (Decidable (_ = _))

/-! ## A sample relay -/

namespace Relayed

/-- The upstream identity provider. -/
def upstreamIdp : IdpDescriptor :=
  { Response.Sample.idp with
    ssoEndpoints := [⟨"https://idp.example/sso", .httpPost, none, false⟩] }

/-- The downstream service provider. -/
def downstreamSp : SpDescriptor :=
  { Response.Sample.sp with
    entityId := "app"
    assertionConsumerServices := [⟨"https://app.example/acs", .httpPost, some 0, true⟩] }

/-- A proxy between the two. -/
def relayer : Proxy := ⟨Overtaken.sp, Saml.Sample.idp ⟨false, false⟩, 0⟩

/-- A downstream request that asks for a password at least. -/
def request : ParsedAuthnRequest where
  id := "downstream"
  issuer := "app"
  issueInstant := Response.Sample.now
  destination := none
  assertionConsumerService := ⟨"https://app.example/acs", .httpPost, some 0, true⟩
  protocolBinding := none
  assertionConsumerServiceSelection := .default
  validated := {
    spEntityId := "app"
    acs := ⟨"https://app.example/acs", .httpPost, some 0, true⟩
    forceAuthn := false
    isPassive := false
    encryptionCertFingerprints := []
    relayState := none
    requestId := "downstream"
    requestedAuthnContext := some ⟨[.password], .minimum⟩
    requestedNameIdFormat := none }
  forceAuthn := false
  isPassive := false
  requestedNameIdFormat := none
  requestedAuthnContext := some ⟨[.password], .minimum⟩
  relayState := none

/-- The bounce of that request. -/
def bounce : BounceToUpstream where
  upstreamIdp := upstreamIdp
  downstreamRequest := request
  propagateRequestFlags := true
  propagateAuthnContext := true
  propagateNameIdPolicy := true
  upstreamBinding := .httpPost
  now := Response.Sample.now

/-- Sixteen octets. -/
def sixteen : { octets : Octets // octets.length = 16 } :=
  ⟨List.replicate 16 1, Response.Sample.length_ones⟩

/-- A store with room for one context, before the bounce. -/
def sealing : ProxyContextCodec := ⟨fun _ => .ok "token", fun _ => .error .expired⟩

/-- The store once it holds a context. -/
def opening (payload : ProxyContextPayload) : ProxyContextCodec :=
  ⟨fun _ => .error .expired, fun blob => if blob = "token" then .ok payload else .error .expired⟩

/-- The random octets and the clock of the bounce. -/
def ambient : Logout.Ambient := ⟨some sixteen, bounce.now⟩

/-- A restriction that admits no further proxy. -/
def restriction : Element :=
  withElements ((saml "ProxyRestriction").withAttribute (plain "Count") "0")
    [(saml "Audience").withText "other"]

/-- Put the restriction into the conditions of an assertion. -/
def restricted (assertion : Element) : Element :=
  { assertion with
    children := assertion.children.map fun
      | .element e =>
          if e.hasName (some SAML_NS) "Conditions" then .element (withElements e [restriction])
          else .element e
      | node => node }

/-- The upstream response to a request: a signed assertion with the restriction. -/
def upstreamXml (requestId : Str) : Result Str := do
  let input := { Response.Sample.issuance with inResponseTo := some requestId }
  let instants ← issuanceInstants input.now input.assertionLifetime
    input.subjectConfirmationLifetime input.authnInstant input.sessionNotOnOrAfter
  let assertion ← maybeSign Transparent.primitives
    (restricted (buildAssertion "assertion" input instants)) true input.signOptions
  let doc ← Document.new (buildResponse "response" input.idpEntityId input.acsEndpoint.url
    input.inResponseTo instants.now .success (some assertion))
  emitDocument doc

/-- The upstream response as the proxy receives it. -/
def upstream (text : Str) : ConsumeUpstreamResponse where
  relayState := "token"
  upstreamIdp := upstreamIdp
  peerCryptoPolicy := none
  samlResponse := Text.asBytes text
  binding := .httpPost
  expectedDestination := "acs"
  now := Response.Sample.now
  clockSkew := Overtaken.skew
  holderOfKeyCert := none

/-- The relay of a flow. -/
def relay (flow : UpstreamFlow) : RelayToDownstream where
  flow := flow
  downstreamSp := downstreamSp
  attributeRelease := fun attributes _ => attributes
  nameIdTransform := fun _ nameId _ _ => .ok nameId
  passthroughAuthnContext := true
  now := Response.Sample.now
  sessionLifetime := .ofSecs 3600 Duration.hour_lt
  subjectConfirmationLifetime := .ofSecs 600 Duration.tenMinutes_lt

/-- A run: the request is bounced, the restricted upstream response comes back
under the token, and its flow is relayed. -/
def run : Result (ProxyContextPayload × Str × UpstreamFlow × SsoResponseDispatch) := do
  let payload ← sealedPayload Transparent.primitives Scanning.reader
    Redirect.Transparent.storedWeb relayer bounce ambient sixteen
  let text ← upstreamXml payload.upstreamTracker.requestId
  let context ← upstreamContext Transparent.primitives (opening payload) (upstream text)
  let consume := (upstream text).consumeResponse context.payload
  let document ← Scanning.parseText text
  relayer.sp.validateTrackerContext Transparent.primitives consume
  let validated ← relayer.sp.identityFrom Transparent.primitives Scanning.reader consume document
  let identity ← (ServiceProvider.enforceReplay consume validated (some (.proxyTransaction
    (base64UrlNoPad context.payload.transactionId.val) context.payload.expiresAt))
    .proxyTransactionReplay (some (InMemoryReplayCache.new 8))).2
  let flow : UpstreamFlow := ⟨context, identity, relayer.proxyInstance⟩
  let (parsed, _) ← parseResponse document
  let located ← locateAssertion Transparent.primitives Scanning.reader
    (relayer.sp.validationInput Transparent.primitives consume document parsed)
  let dispatch ← relayer.relayToDownstream Transparent.primitives Redirect.Transparent.storedWeb
    (relay flow) sixteen (Response.Sample.draws 5)
  if '\r' ∈ text ∨ ¬ Restricted located.element then .error .inflate
  else .ok (payload, text, flow, dispatch)

set_option maxRecDepth 20000 in
theorem run_isOk : run.isOk = true := by decide +kernel

/-- The steps of the run. -/
structure Ran (payload : ProxyContextPayload) (text : Str) (flow : UpstreamFlow)
    (dispatch : SsoResponseDispatch) : Prop where
  bounced : ∃ sent, relayer.bounceToUpstream Transparent.primitives Scanning.reader
    Redirect.Transparent.storedWeb sealing bounce ambient sixteen = .ok sent ∧
      sent.upstreamRelayState = (upstream text).relayState
  sealed : sealedPayload Transparent.primitives Scanning.reader Redirect.Transparent.storedWeb
    relayer bounce ambient sixteen = .ok payload
  accepted : (relayer.consumeUpstreamResponse Transparent.primitives Scanning.reader
    (opening payload) (upstream text) (InMemoryReplayCache.new 8)).2 = .ok flow
  restricted : ∀ request element assertion, Upstream Transparent.primitives Scanning.reader relayer
    (upstream text) flow request element assertion → Restricted element
  relayed : relayer.relayToDownstream Transparent.primitives Redirect.Transparent.storedWeb
    (relay flow) sixteen (Response.Sample.draws 5) = .ok dispatch

/-- A run is a bounce, an accepted upstream response with a restriction, and a
relay of its flow. -/
theorem run_ok {payload : ProxyContextPayload} {text : Str} {flow : UpstreamFlow}
    {dispatch : SsoResponseDispatch} (h : run = .ok (payload, text, flow, dispatch)) :
    Ran payload text flow dispatch := by
  obtain ⟨sealedNow, hsealed, h⟩ := bind_eq_ok_iff.mp h
  obtain ⟨issued, _, h⟩ := bind_eq_ok_iff.mp h
  obtain ⟨context, hcontext, h⟩ := bind_eq_ok_iff.mp h
  obtain ⟨document, hdocument, h⟩ := bind_eq_ok_iff.mp h
  obtain ⟨_, htracker, h⟩ := bind_eq_ok_iff.mp h
  obtain ⟨validated, hvalidated, h⟩ := bind_eq_ok_iff.mp h
  obtain ⟨identity, hidentity, h⟩ := bind_eq_ok_iff.mp h
  obtain ⟨⟨parsed, rootId⟩, hparsed, h⟩ := bind_eq_ok_iff.mp h
  obtain ⟨located, hlocated, h⟩ := bind_eq_ok_iff.mp h
  obtain ⟨relayed, hrelayed, h⟩ := bind_eq_ok_iff.mp h
  obtain ⟨hgood, h⟩ := ite_error_eq_ok_iff.mp h
  rw [not_or, not_not] at hgood
  obtain ⟨hreturn, hrestricted⟩ := hgood
  cases h
  have hparse : Document.parse Scanning.reader (upstream text).samlResponse = .ok document :=
    (Scanning.parse_asBytes hreturn).trans hdocument
  refine ⟨?_, hsealed, ?_, ?_, hrelayed⟩
  · obtain ⟨login, hlogin, hrest⟩ := bind_eq_ok_iff.mp hsealed
    obtain ⟨expiresAt, hexpiresAt, _⟩ := bind_eq_ok_iff.mp hrest
    exact ⟨_, bind_eq_ok_iff.mpr ⟨login, hlogin, bind_eq_ok_iff.mpr ⟨expiresAt, hexpiresAt, rfl⟩⟩,
      rfl⟩
  · have hidentified : relayer.sp.validatedIdentity Transparent.primitives Scanning.reader
        ((upstream text).consumeResponse context.payload) = .ok validated :=
      bind_eq_ok_iff.mpr ⟨(), htracker, bind_eq_ok_iff.mpr ⟨document, hparse, hvalidated⟩⟩
    simp only [consumeUpstreamResponse, hcontext, ServiceProvider.consumeResponseWithReplay,
      hidentified, hidentity]
    rfl
  · rintro request element assertion ⟨hdoc, ⟨id, hread⟩, hhanded, ⟨found, hfound, rfl⟩, _, _, _⟩
    have hdocEq : request.document = document := Except.ok.inj (hdoc.symm.trans hparse)
    rw [hdocEq] at hread hhanded
    have hparsedEq : request.parsed = parsed :=
      (Prod.mk.inj (Except.ok.inj (hread.symm.trans hparsed))).1
    rw [hparsedEq] at hhanded
    rw [hhanded] at hfound
    rw [Except.ok.inj (hfound.symm.trans hlocated)]
    exact hrestricted

/-- The store gives back what it was asked to keep. -/
theorem opens (payload : ProxyContextPayload) : sealing.Opens (opening payload) payload := by
  intro blob opened hsealed hopened
  obtain rfl := Except.ok.inj hsealed
  exact (Except.ok.inj hopened).symm

end Relayed

/-! ## Results -/

/-- A class is what an upstream assertion says of its first statement, or says
nothing of the strength of the login. -/
def ClassFrom (assertion : ParsedAssertion) (classRef : Str) : Prop :=
  assertion.authnStatements.head?.bind ParsedAuthnStatement.authnContextClassRef = some classRef ∨
    classRef = AuthnContextClassRef.unspecified.asUri

theorem classFrom_relay {upstream : ConsumeUpstreamResponse} {input : RelayToDownstream}
    {request : ValidateResponse} {element : Element} {assertion : ParsedAssertion}
    (h : Upstream crypto qx proxy upstream input.flow request element assertion) :
    ClassFrom assertion input.classRef.asUri := by
  have hclass := h.accepted.authnContextClassRef
  unfold RelayToDownstream.classRef
  split
  · cases hupstream : input.flow.identity.authnContextClassRef with
    | none => exact .inr rfl
    | some uri =>
      refine .inl ?_
      rw [← hclass, hupstream]
      exact congrArg some (AuthnContextClassRef.asUri_fromUri uri).symm
  · exact .inr rfl

theorem checkDowngrade_ok {requested : RequestedAuthnContext} {classRef : AuthnContextClassRef}
    (h : checkDowngrade (some requested) classRef = .ok ()) :
    StandardComparator.evaluate requested classRef.asUri = .satisfied := by
  change checkAuthnContext requested classRef.asUri = .ok () at h
  unfold checkAuthnContext at h
  split at h
  · assumption
  · cases h
  · cases h

/-- A relay never upgrades the strength of a login: whatever is propagated with
the bounce, every class in the emitted assertion is the one asserted upstream or
unspecified, and satisfies what the validated downstream request asks for. -/
theorem relay_keeps_strength {sealing opening : ProxyContextCodec} {bounce : BounceToUpstream}
    {ambient : Logout.Ambient} {transactionId : { octets : Octets // octets.length = 16 }}
    {sent : BounceResult} {upstream : ConsumeUpstreamResponse} {cache : InMemoryReplayCache}
    {input : RelayToDownstream} {sessionIndex : { octets : Octets // octets.length = 16 }}
    {draws : IssueDraws} {dispatch : SsoResponseDispatch}
    (bounced : proxy.bounceToUpstream crypto qx web sealing bounce ambient transactionId = .ok sent)
    (token : upstream.relayState = sent.upstreamRelayState)
    (opens : ∀ payload, sealedPayload crypto qx web proxy bounce ambient transactionId =
      .ok payload → sealing.Opens opening payload)
    (accepted : (proxy.consumeUpstreamResponse crypto qx opening upstream cache).2 =
      .ok input.flow)
    (relayed : proxy.relayToDownstream crypto web input sessionIndex draws = .ok dispatch) :
    ∃ request element assertion issuance emitted classRef,
      Upstream crypto qx proxy upstream input.flow request element assertion ∧
      EmittedAssertion crypto issuance draws dispatch emitted ∧
      (∃ path d, emitted.walk path = some d ∧
        d.qname = Schema.saml "AuthnContextClassRef") ∧
      (∀ path d, emitted.walk path = some d →
        d.qname = Schema.saml "AuthnContextClassRef" → d.textContent = classRef) ∧
      ClassFrom assertion classRef ∧
      ∀ requested, bounce.downstreamRequest.validated.requestedAuthnContext = some requested →
        StandardComparator.evaluate requested classRef = .satisfied := by
  obtain ⟨hopened, request, element, assertion, hupstream⟩ := consumeUpstreamResponse_ok accepted
  obtain ⟨payload, hpayload, hsealed⟩ := bounceToUpstream_ok bounced
  have heq := opens payload hpayload _ _ hsealed (token ▸ hopened)
  obtain ⟨hdowngrade, deadlines, synthetic, nameId, service, emitted, _, hemitted⟩ :=
    relayToDownstream_ok relayed
  refine ⟨request, element, assertion, _, emitted, input.classRef.asUri, hupstream, hemitted,
    exists_classRef hemitted.issued, classRef_issuedAssertion hemitted.issued,
    classFrom_relay hupstream, ?_⟩
  intro requested hrequested
  rw [heq, sealedPayload_ok hpayload, hrequested] at hdowngrade
  exact checkDowngrade_ok hdowngrade

/-- The sample relay keeps the strength of its login. -/
theorem relay_keeps_strength_sample : ∃ text flow dispatch request element assertion issuance
      emitted classRef,
    Upstream Transparent.primitives Scanning.reader Relayed.relayer (Relayed.upstream text) flow
      request element assertion ∧
    EmittedAssertion Transparent.primitives issuance (Response.Sample.draws 5) dispatch emitted ∧
    (∃ path d, emitted.walk path = some d ∧ d.qname = Schema.saml "AuthnContextClassRef") ∧
    (∀ path d, emitted.walk path = some d → d.qname = Schema.saml "AuthnContextClassRef" →
      d.textContent = classRef) ∧
    ClassFrom assertion classRef ∧
    ∀ requested, Relayed.request.validated.requestedAuthnContext = some requested →
      StandardComparator.evaluate requested classRef = .satisfied := by
  obtain ⟨⟨payload, text, flow, dispatch⟩, hrun⟩ := exists_of_isOk Relayed.run_isOk
  have hran := Relayed.run_ok hrun
  obtain ⟨sent, hsent, htoken⟩ := hran.bounced
  exact ⟨text, flow, dispatch, relay_keeps_strength hsent
    htoken.symm (fun opened hopened => Except.ok.inj (hran.sealed.symm.trans hopened) ▸
      Relayed.opens payload) hran.accepted hran.relayed⟩

/-- What a proxy that honours a restriction does: it relays only where the count
and the audiences let it, and passes the restriction on, narrower by one. -/
structure HonoursRestriction (conditions : Conditions) (downstreamSp : Str)
    (emitted : Element) : Prop where
  count : ∀ n, conditions.proxyRestrictionCount = some n → 0 < n
  audience : conditions.proxyRestrictionAudiences = [] ∨
    downstreamSp ∈ conditions.proxyRestrictionAudiences
  passedOn : ∃ path d, emitted.walk path = some d ∧ d.qname = Schema.saml "ProxyRestriction" ∧
    (∀ n, conditions.proxyRestrictionCount = some n →
      ∃ text m, d.attr none "Count" = some text ∧ parseProxyCount text = .ok m ∧ m < n) ∧
    (conditions.proxyRestrictionAudiences ≠ [] →
      ∀ audience ∈ audiences d, audience ∈ conditions.proxyRestrictionAudiences)

/-- A relay never honours a restriction: the assertion it emits does not pass it
on, whatever the upstream one says. -/
theorem relay_drops_restriction {codec : ProxyContextCodec} {upstream : ConsumeUpstreamResponse}
    {cache : InMemoryReplayCache} {input : RelayToDownstream}
    {sessionIndex : { octets : Octets // octets.length = 16 }} {draws : IssueDraws}
    {dispatch : SsoResponseDispatch}
    (accepted : (proxy.consumeUpstreamResponse crypto qx codec upstream cache).2 = .ok input.flow)
    (restricted : ∀ request element assertion,
      Upstream crypto qx proxy upstream input.flow request element assertion → Restricted element)
    (relayed : proxy.relayToDownstream crypto web input sessionIndex draws = .ok dispatch) :
    ∃ request element assertion,
      Upstream crypto qx proxy upstream input.flow request element assertion ∧
      Restricted element ∧ (∃ issuance emitted,
        EmittedAssertion crypto issuance draws dispatch emitted) ∧
      ∀ issuance emitted, EmittedAssertion crypto issuance draws dispatch emitted →
        ¬ HonoursRestriction assertion.conditions input.downstreamSp.entityId emitted := by
  obtain ⟨_, request, element, assertion, hupstream⟩ := consumeUpstreamResponse_ok accepted
  obtain ⟨_, deadlines, synthetic, nameId, service, emitted, _, hemitted⟩ :=
    relayToDownstream_ok relayed
  refine ⟨request, element, assertion, hupstream, restricted request element assertion hupstream,
    ⟨_, emitted, hemitted⟩, ?_⟩
  rintro issuance emitted hemitted ⟨_, _, path, d, hwalk, hname, _⟩
  exact noRestriction_issuedAssertion hemitted.issued path d hwalk hname

/-- The sample relay drops the restriction of its upstream assertion. -/
theorem relay_drops_restriction_sample : ∃ payload text flow dispatch,
    (Relayed.relayer.consumeUpstreamResponse Transparent.primitives Scanning.reader
      (Relayed.opening payload) (Relayed.upstream text) (InMemoryReplayCache.new 8)).2 = .ok flow ∧
    ∃ request element assertion,
      Upstream Transparent.primitives Scanning.reader Relayed.relayer (Relayed.upstream text) flow
        request element assertion ∧
      Restricted element ∧ (∃ issuance emitted, EmittedAssertion Transparent.primitives issuance
        (Response.Sample.draws 5) dispatch emitted) ∧
      ∀ issuance emitted, EmittedAssertion Transparent.primitives issuance
        (Response.Sample.draws 5) dispatch emitted →
          ¬ HonoursRestriction assertion.conditions "app" emitted := by
  obtain ⟨⟨payload, text, flow, dispatch⟩, hrun⟩ := exists_of_isOk Relayed.run_isOk
  have hran := Relayed.run_ok hrun
  exact ⟨payload, text, flow, dispatch, hran.accepted,
    relay_drops_restriction hran.accepted hran.restricted
      hran.relayed⟩

/-- A restriction that admits no further proxy, relayed all the same to a
service provider it does not name, in an assertion without one. -/
theorem restriction_relayed : ∃ payload text flow dispatch request element assertion,
    (Relayed.relayer.consumeUpstreamResponse Transparent.primitives Scanning.reader
      (Relayed.opening payload) (Relayed.upstream text) (InMemoryReplayCache.new 8)).2 = .ok flow ∧
    Upstream Transparent.primitives Scanning.reader Relayed.relayer (Relayed.upstream text) flow
      request element assertion ∧
    Restricted element ∧
    Relayed.relayer.relayToDownstream Transparent.primitives Redirect.Transparent.storedWeb
      (Relayed.relay flow) Relayed.sixteen (Response.Sample.draws 5) = .ok dispatch ∧
    ∃ issuance emitted, EmittedAssertion Transparent.primitives issuance
      (Response.Sample.draws 5) dispatch emitted ∧
        ¬ HonoursRestriction assertion.conditions "app" emitted := by
  obtain ⟨⟨payload, text, flow, dispatch⟩, hrun⟩ := exists_of_isOk Relayed.run_isOk
  have hran := Relayed.run_ok hrun
  obtain ⟨_, request, element, assertion, hupstream⟩ := consumeUpstreamResponse_ok hran.accepted
  obtain ⟨_, deadlines, synthetic, nameId, service, emitted, _, hemitted⟩ :=
    relayToDownstream_ok hran.relayed
  refine ⟨payload, text, flow, dispatch, request, element, assertion, hran.accepted, hupstream,
    hran.restricted request element assertion hupstream, hran.relayed, _, emitted, hemitted, ?_⟩
  rintro ⟨_, _, path, d, hwalk, hname, _⟩
  exact noRestriction_issuedAssertion hemitted.issued path d hwalk hname

end Proxy

end Saml
