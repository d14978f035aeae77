import Saml.Proxy.Chain

/-!
# Outcomes of the logout chain

The chain reads a target's response without the detached signature it came
with, and as if it had arrived at the first logout endpoint of the identity
provider. What it records is compared with the answer of
`consume_logout_response_wire` at the endpoint the message came to.
-/

namespace Saml.Proxy.FrontChannelChain

open Xml Crypto Dsig Library Logout IdentityProvider

variable (crypto : Primitives) (qx : QuickXml) (web : Web) (idp : IdentityProvider)

/-- A response on the wire, at one of the endpoints of the identity provider. -/
structure Reply where
  wireBody : Octets
  destination : Str

/-- The front-channel bindings a response travels over. -/
def FrontChannel (binding : Binding) : Prop := binding = .httpRedirect ∨ binding = .httpPost

/-- The stand-alone consumption of a reply, for the same target and tracker. -/
def wireInput (target : FrontChannelTarget) (tracker : LogoutTracker) (reply : Reply)
    (call : Advance) : ConsumeLogoutResponseWire where
  sp := target.sp
  peerCryptoPolicy := target.peerCryptoPolicy
  wireBody := reply.wireBody
  binding := call.binding
  tracker := tracker
  expectedDestination := reply.destination
  now := call.now
  clockSkew := call.clockSkew

/-- A response names the endpoint as its destination, or none. -/
def AddressedTo (parsed : ParsedLogoutResponse) (url : Str) : Prop :=
  ∀ d, parsed.destination = some d → d = url

/-- The detached signature of a message, if it has one, verifies. -/
def DetachedHolds (target : FrontChannelTarget) (decoded : DecodedWire) : Prop :=
  ∀ d, decoded.asDetachedSignature = some d →
    DetachedVerified crypto d target.sp.signingCerts
      (idp.policyFor target.peerCryptoPolicy).allowedSignatureAlgorithms

/-- A response that passes the checks of both sides: it parses, comes from the
target and answers the request. -/
def Answers (target : FrontChannelTarget) (tracker : LogoutTracker) (decoded : DecodedWire)
    (doc : Document) (parsed : ParsedLogoutResponse) (rootId : ElementId) : Prop :=
  Document.parse qx decoded.xml = .ok doc ∧ parseLogoutResponse doc = .ok (parsed, rootId) ∧
    parsed.issuer = target.sp.entityId ∧ parsed.inResponseTo = tracker.requestId

/-- Where the destination and the signature of an answer weigh the same with
the chain and with the stand-alone consumer. Over HTTP-POST both read the same
enveloped signature, so only the destinations can differ. Over HTTP-Redirect the
chain sees no signature: it refuses every answer when one is required, and no
answer for a signature that does not verify when none is. -/
def WeighedAlike (target : FrontChannelTarget) (first : Str) (reply : Reply)
    (decoded : DecodedWire) (binding : Binding) (doc : Document) (parsed : ParsedLogoutResponse)
    (rootId : ElementId) : Prop :=
  match binding with
  | .httpRedirect =>
      if idp.config.logoutWantSigned.responses then
        ¬ (AddressedTo parsed reply.destination ∧ decoded.asDetachedSignature.isSome = true ∧
          DetachedHolds crypto idp target decoded)
      else
        AddressedTo parsed first ↔
          AddressedTo parsed reply.destination ∧ DetachedHolds crypto idp target decoded
  | binding =>
      verifyLogoutSignature crypto idp.config.logoutWantSigned.responses binding doc rootId none
          target.sp.signingCerts (idp.policyFor target.peerCryptoPolicy) = .ok () →
        (AddressedTo parsed first ↔ AddressedTo parsed reply.destination)

/-- The books grow by the outcome of the current target. -/
theorem outcomes_advance {chain : FrontChannelChain} {index : Nat} {dispatch : Dispatch}
    {tracker : LogoutTracker} {target : FrontChannelTarget} {endpoint : Endpoint} (call : Advance)
    (hstate : chain.state = .nextTarget index dispatch tracker)
    (htarget : chain.targets[index]? = some target)
    (hfirst : idp.config.slo.head? = some endpoint) :
    (chain.advance crypto qx web idp call).1.outcomes =
      chain.pendingOutcomes ++ [target.outcome crypto qx idp tracker endpoint.url call] := by
  simp only [advance, hstate, htarget, hfirst]
  unfold moveOn
  split
  · rfl
  · split
    · simp [outcomes, record, hstate]
    · rfl

variable {crypto qx web idp}

/-- The destination leg at a registered endpoint. -/
theorem checkDestination_registered {parsed : ParsedLogoutResponse} {url : Str}
    (h : ∃ e ∈ idp.config.slo, e.url = url) :
    checkDestination idp.config.slo UNREGISTERED_SLO url parsed.destination = .ok () ↔
      AddressedTo parsed url := by
  rw [checkDestination_ok_iff]
  exact and_iff_right h

/-- The outcome of a consumption at a registered endpoint. -/
theorem consumeLogoutResponse_iff_answers (crypto : Primitives) (qx : QuickXml)
    (target : FrontChannelTarget) (decoded : DecodedWire) (input : ConsumeLogoutResponse)
    (outcome : LogoutOutcome) {tracker : LogoutTracker} {url : Str}
    (registered : ∃ e ∈ idp.config.slo, e.url = url) (hbody : input.body = decoded.xml)
    (htracker : input.tracker = tracker) (hdestination : input.expectedDestination = url) :
    idp.consumeLogoutResponse crypto qx target.sp input = .ok outcome ↔
      ∃ doc parsed rootId, Answers qx target tracker decoded doc parsed rootId ∧
        AddressedTo parsed url ∧
        verifyLogoutSignature crypto idp.config.logoutWantSigned.responses input.binding doc
          rootId input.detachedSignature target.sp.signingCerts
          (idp.policyFor input.peerCryptoPolicy) = .ok () ∧
        parsed.toOutcome = outcome := by
  subst hdestination
  rw [consumeLogoutResponse_ok_iff]
  constructor
  · rintro ⟨doc, parsed, rootId, hdoc, hparsed, hissuer, hdest, hsig, hrequest, houtcome⟩
    exact ⟨doc, parsed, rootId,
      ⟨hbody ▸ hdoc, hparsed, checkIssuer_ok_iff.mp hissuer, htracker ▸ hrequest⟩,
      (checkDestination_registered registered).mp hdest, hsig, houtcome⟩
  · rintro ⟨doc, parsed, rootId, ⟨hdoc, hparsed, hissuer, hrequest⟩, hdest, hsig, houtcome⟩
    exact ⟨doc, parsed, rootId, hbody ▸ hdoc, hparsed, checkIssuer_ok_iff.mpr hissuer,
      (checkDestination_registered registered).mpr hdest, hsig, htracker ▸ hrequest, houtcome⟩

/-- The reading of an answer is unique. -/
theorem Answers.unique {target : FrontChannelTarget} {tracker : LogoutTracker}
    {decoded : DecodedWire} {doc doc' : Document} {parsed parsed' : ParsedLogoutResponse}
    {rootId rootId' : ElementId} (h : Answers qx target tracker decoded doc parsed rootId)
    (h' : Answers qx target tracker decoded doc' parsed' rootId') :
    doc = doc' ∧ parsed = parsed' ∧ rootId = rootId' := by
  obtain rfl := Except.ok.inj (h.1.symm.trans h'.1)
  obtain ⟨rfl, rfl⟩ := Prod.mk.inj (Except.ok.inj (h.2.1.symm.trans h'.2.1))
  exact ⟨rfl, rfl, rfl⟩

/-- The two legs that can differ agree exactly where they weigh alike. -/
theorem weighedAlike_iff {target : FrontChannelTarget} {first : Str} {reply : Reply}
    {decoded : DecodedWire} {binding : Binding} (front : FrontChannel binding) {doc : Document}
    {parsed : ParsedLogoutResponse} {rootId : ElementId} :
    WeighedAlike crypto idp target first reply decoded binding doc parsed rootId ↔
      ((AddressedTo parsed first ∧
        verifyLogoutSignature crypto idp.config.logoutWantSigned.responses binding doc rootId none
          target.sp.signingCerts (idp.policyFor target.peerCryptoPolicy) = .ok ()) ↔
      (AddressedTo parsed reply.destination ∧
        verifyLogoutSignature crypto idp.config.logoutWantSigned.responses binding doc rootId
          decoded.asDetachedSignature target.sp.signingCerts
          (idp.policyFor target.peerCryptoPolicy) = .ok ())) := by
  rcases front with rfl | rfl
  · simp only [WeighedAlike, verifyLogoutSignature, verifyRedirectRequestSignature,
      verifyRedirectSignature_ok_iff, DetachedHolds]
    cases decoded.asDetachedSignature <;> cases idp.config.logoutWantSigned.responses <;> simp
  · exact and_congr_left_iff.symm

/-- **Faithful outcomes.** For every chain at a target and every reply that
decodes, at a registered endpoint: the chain records the outcome of the
stand-alone consumer exactly when the destination and the signature of an
answer weigh the same on both sides. -/
theorem recorded_faithful_iff {chain : FrontChannelChain} {index : Nat} {dispatch : Dispatch}
    {tracker : LogoutTracker} {target : FrontChannelTarget} {endpoint : Endpoint} {call : Advance}
    {reply : Reply} {decoded : DecodedWire}
    (hstate : chain.state = .nextTarget index dispatch tracker)
    (htarget : chain.targets[index]? = some target)
    (hfirst : idp.config.slo.head? = some endpoint) (front : FrontChannel call.binding)
    (registered : ∃ e ∈ idp.config.slo, e.url = reply.destination)
    (hdecoded : decodeWire web reply.wireBody call.binding .response = .ok decoded)
    (hbody : call.logoutResponseBody = decoded.xml) :
    ∃ recorded, (chain.advance crypto qx web idp call).1.outcomes =
        chain.pendingOutcomes ++ [recorded] ∧
      ((∀ outcome, recorded = .ok outcome ↔
          idp.consumeLogoutResponseWire crypto qx web (wireInput target tracker reply call) =
            .ok outcome) ↔
        ∀ doc parsed rootId, Answers qx target tracker decoded doc parsed rootId →
          WeighedAlike crypto idp target endpoint.url reply decoded call.binding doc parsed
            rootId) := by
  refine ⟨_, outcomes_advance crypto qx web idp call hstate htarget hfirst, ?_⟩
  have hchain (outcome : LogoutOutcome) :=
    consumeLogoutResponse_iff_answers crypto qx target decoded
      (target.consumption tracker endpoint.url call) outcome
      ⟨endpoint, List.mem_of_head? hfirst, rfl⟩ hbody rfl rfl
  have hwire (outcome : LogoutOutcome) :=
    consumeLogoutResponse_iff_answers crypto qx target decoded
      ((wireInput target tracker reply call).decodedAs decoded) outcome registered rfl rfl rfl
  have hdelegate : idp.consumeLogoutResponseWire crypto qx web
      (wireInput target tracker reply call) = idp.consumeLogoutResponse crypto qx target.sp
        ((wireInput target tracker reply call).decodedAs decoded) :=
    consumeLogoutResponseWire_of_decoded web hdecoded
  simp only [FrontChannelTarget.outcome, hdelegate, hchain, hwire]
  constructor
  · intro hsame doc parsed rootId hanswers
    rw [weighedAlike_iff front]
    constructor
    · rintro ⟨haddressed, hsig⟩
      obtain ⟨doc', parsed', rootId', hanswers', haddressed', hsig', _⟩ :=
        (hsame parsed.toOutcome).mp ⟨doc, parsed, rootId, hanswers, haddressed, hsig, rfl⟩
      obtain ⟨rfl, rfl, rfl⟩ := hanswers.unique hanswers'
      exact ⟨haddressed', hsig'⟩
    · rintro ⟨haddressed, hsig⟩
      obtain ⟨doc', parsed', rootId', hanswers', haddressed', hsig', _⟩ :=
        (hsame parsed.toOutcome).mpr ⟨doc, parsed, rootId, hanswers, haddressed, hsig, rfl⟩
      obtain ⟨rfl, rfl, rfl⟩ := hanswers.unique hanswers'
      exact ⟨haddressed', hsig'⟩
  · intro halike outcome
    constructor
    · rintro ⟨doc, parsed, rootId, hanswers, haddressed, hsig, houtcome⟩
      obtain ⟨haddressed', hsig'⟩ :=
        ((weighedAlike_iff front).mp (halike doc parsed rootId hanswers)).mp ⟨haddressed, hsig⟩
      exact ⟨doc, parsed, rootId, hanswers, haddressed', hsig', houtcome⟩
    · rintro ⟨doc, parsed, rootId, hanswers, haddressed, hsig, houtcome⟩
      obtain ⟨haddressed', hsig'⟩ :=
        ((weighedAlike_iff front).mp (halike doc parsed rootId hanswers)).mpr ⟨haddressed, hsig⟩
      exact ⟨doc, parsed, rootId, hanswers, haddressed', hsig', houtcome⟩

/-! ## A signed answer -/

namespace Sample

open Redirect.Transparent

/-- The identifier of the request the sample chain starts with. -/
def requestId : Str := "_01010101010101010101010101010101"

/-- The endpoint the answer comes to, and names as its destination. -/
def destination : Str := "https://idp.example/slo"

/-- The answer of the target. -/
def answer : BuildLogoutResponse where
  id := "_answer"
  issueInstant := Response.Sample.now
  issuerEntityId := "sp"
  destination := some destination
  inResponseTo := requestId
  status := .success
  statusMessage := none

/-- Write the answer, read it back, and check that it passes the legs the two
sides share. -/
def answered : Result (Str × Document × ParsedLogoutResponse × ElementId) := do
  let element ← buildLogoutResponseElement answer
  let doc ← Document.new element
  let text ← emitDocument doc
  let document ← Scanning.parseText text
  let (parsed, rootId) ← parseLogoutResponse document
  if '\r' ∈ text ∨ 65536 ≤ (Text.asBytes text).length ∨ parsed.issuer ≠ "sp" ∨
      parsed.inResponseTo ≠ requestId ∨ parsed.destination ≠ some destination ∨
      parsed.toOutcome ≠ .success then
    .error .inflate
  else .ok (text, document, parsed, rootId)

theorem answered_isOk : answered.isOk = true := by decide +kernel

theorem requestId_eq : randomXmlId ambient.draw = .ok requestId := by decide +kernel

/-- The sample chain stands at its target, with the tracker of its request. -/
theorem started : ∃ chain dispatch tracker,
    start Transparent.primitives storedWeb provider [target Saml.Sample.sp] ambient = .ok chain ∧
      chain.state = .nextTarget 0 dispatch tracker ∧ tracker.requestId = requestId ∧
      chain.targets[0]? = some (target Saml.Sample.sp) ∧ chain.pendingOutcomes = [] := by
  obtain ⟨logout, hlogout⟩ := exists_of_isOk target_starts
  obtain ⟨hid, _⟩ := startLogout_tracker _ _ _ hlogout
  exact ⟨_, _, _, bind_eq_ok_iff.mpr ⟨logout, hlogout, rfl⟩, rfl,
    Except.ok.inj (hid.symm.trans requestId_eq), rfl, rfl⟩

/-- The answer in a query that the target signed. -/
theorem replied : ∃ query decoded doc parsed rootId d,
    decodeWire storedWeb (Text.asBytes query) .httpRedirect .response = .ok decoded ∧
      Document.parse Scanning.reader decoded.xml = .ok doc ∧
      parseLogoutResponse doc = .ok (parsed, rootId) ∧ parsed.issuer = "sp" ∧
      parsed.inResponseTo = requestId ∧ parsed.destination = some destination ∧
      parsed.toOutcome = .success ∧ decoded.asDetachedSignature = some d ∧
      DetachedVerified Transparent.primitives d Saml.Sample.sp.signingCerts
        PeerCryptoPolicy.strongDefaults.allowedSignatureAlgorithms := by
  obtain ⟨⟨text, doc, parsed, rootId⟩, h⟩ := exists_of_isOk answered_isOk
  obtain ⟨element, _, h⟩ := bind_eq_ok_iff.mp h
  obtain ⟨built, _, h⟩ := bind_eq_ok_iff.mp h
  obtain ⟨emitted, _, h⟩ := bind_eq_ok_iff.mp h
  obtain ⟨document, hdocument, h⟩ := bind_eq_ok_iff.mp h
  obtain ⟨⟨answer, id⟩, hanswer, h⟩ := bind_eq_ok_iff.mp h
  obtain ⟨hlegs, h⟩ := ite_error_eq_ok_iff.mp h
  obtain ⟨rfl, rfl, rfl, rfl⟩ : emitted = text ∧ document = doc ∧
      answer = parsed ∧ id = rootId := by
    simpa using h
  simp only [not_or, not_not, not_le] at hlegs
  obtain ⟨hreturn, hlength, hissuer, hrequest, hdestination, houtcome⟩ := hlegs
  obtain ⟨query, decoded, d, hdecoded, hxml, hdetached, hverified⟩ :=
    Saml.Sample.signedQuery_decodes .response hlength
  refine ⟨query, decoded, document, answer, id, d, hdecoded, ?_, hanswer, hissuer, hrequest,
    hdestination, houtcome, hdetached, hverified⟩
  rw [hxml, ← hdocument]
  exact Scanning.parse_asBytes hreturn

/-- A call with the message of a decoded reply. -/
def callWith (decoded : DecodedWire) : Advance := { call with logoutResponseBody := decoded.xml }

end Sample

/-- The comparison at the sample answer. -/
theorem recorded_faithful_iff_sample : ∃ chain tracker query decoded,
    start Transparent.primitives Redirect.Transparent.storedWeb Sample.provider
      [Sample.target Saml.Sample.sp] Sample.ambient = .ok chain ∧
    ∃ recorded, (chain.advance Transparent.primitives Scanning.reader
        Redirect.Transparent.storedWeb Sample.provider (Sample.callWith decoded)).1.outcomes =
        chain.pendingOutcomes ++ [recorded] ∧
      ((∀ outcome, recorded = .ok outcome ↔
          Sample.provider.consumeLogoutResponseWire Transparent.primitives Scanning.reader
            Redirect.Transparent.storedWeb (wireInput (Sample.target Saml.Sample.sp) tracker
              ⟨Text.asBytes query, Sample.destination⟩ (Sample.callWith decoded)) =
            .ok outcome) ↔
        ∀ doc parsed rootId,
          Answers Scanning.reader (Sample.target Saml.Sample.sp) tracker decoded doc parsed rootId →
          WeighedAlike Transparent.primitives Sample.provider (Sample.target Saml.Sample.sp)
            Sample.destination ⟨Text.asBytes query, Sample.destination⟩ decoded .httpRedirect doc
            parsed rootId) := by
  obtain ⟨chain, dispatch, tracker, hstart, hstate, _, htarget, _⟩ := Sample.started
  obtain ⟨query, decoded, _, _, _, _, hdecoded, _⟩ := Sample.replied
  exact ⟨chain, tracker, query, decoded, hstart, recorded_faithful_iff hstate htarget rfl (.inl rfl)
    ⟨_, List.mem_singleton.mpr rfl, rfl⟩ hdecoded rfl⟩

/-- A correctly signed answer to the chain's own request, at the only endpoint
there is: the stand-alone consumer accepts it, and the chain records an error. -/
theorem recorded_signed_answer_refused : ∃ chain dispatch tracker query decoded,
    start Transparent.primitives Redirect.Transparent.storedWeb Sample.provider
      [Sample.target Saml.Sample.sp] Sample.ambient = .ok chain ∧
    chain.state = .nextTarget 0 dispatch tracker ∧
    decodeWire Redirect.Transparent.storedWeb (Text.asBytes query) .httpRedirect .response =
      .ok decoded ∧
    Sample.provider.consumeLogoutResponseWire Transparent.primitives Scanning.reader
        Redirect.Transparent.storedWeb
        (wireInput (Sample.target Saml.Sample.sp) tracker ⟨Text.asBytes query, Sample.destination⟩
          (Sample.callWith decoded)) = .ok .success ∧
    ∃ e, (chain.advance Transparent.primitives Scanning.reader Redirect.Transparent.storedWeb
      Sample.provider (Sample.callWith decoded)).1.outcomes = [.error e] := by
  obtain ⟨chain, dispatch, tracker, hstart, hstate, hrequestId, htarget, hpending⟩ := Sample.started
  obtain ⟨query, decoded, doc, parsed, rootId, d, hdecoded, hdoc, hparsed, hissuer, hrequest,
    hdestination, houtcome, hdetached, hverified⟩ := Sample.replied
  have registered : ∃ e ∈ Sample.provider.config.slo, e.url = Sample.destination :=
    ⟨_, List.mem_singleton.mpr rfl, rfl⟩
  refine ⟨chain, dispatch, tracker, query, decoded, hstart, hstate, hdecoded, ?_, ?_⟩
  · rw [consumeLogoutResponseWire_of_decoded _ hdecoded]
    refine (consumeLogoutResponse_iff_answers _ _ (Sample.target Saml.Sample.sp) _ _ _ registered
      rfl rfl rfl).mpr ⟨doc, parsed, rootId, ⟨hdoc, hparsed, hissuer, ?_⟩, ?_, ?_, houtcome⟩
    · exact hrequest.trans hrequestId.symm
    · intro url hurl
      exact Option.some.inj (hurl.symm.trans hdestination)
    · exact verifyRedirectSignature_ok_iff.mpr (.inl ⟨d, hdetached, hverified⟩)
  · have hrecorded := outcomes_advance Transparent.primitives Scanning.reader
      Redirect.Transparent.storedWeb Sample.provider (Sample.callWith decoded) hstate htarget rfl
    rw [hpending, List.nil_append] at hrecorded
    cases hanswer : (Sample.target Saml.Sample.sp).outcome Transparent.primitives Scanning.reader
        Sample.provider tracker Sample.destination (Sample.callWith decoded) with
    | error e => exact ⟨e, hrecorded.trans (congrArg (fun r => [r]) hanswer)⟩
    | ok outcome =>
        obtain ⟨_, _, _, _, _, hsignature, _⟩ :=
          (consumeLogoutResponse_iff_answers _ _ _ decoded _ _
          registered rfl rfl rfl).mp hanswer
        cases show Except.error Error.signatureMissing = .ok () from hsignature

end Saml.Proxy.FrontChannelChain
