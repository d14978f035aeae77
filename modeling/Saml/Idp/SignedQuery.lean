import Saml.Idp.Logout

/-!
# Redirect messages and their signed queries

The decoded body and the query string under its detached signature reach the
identity provider as separate inputs. A logout message is bound to its signature
when consuming the XML of the signed query gives the same result; the wire entry
points see to that by decoding both from one query.
-/

namespace Saml.IdentityProvider

open Xml Crypto Dsig Response Logout

variable (crypto : Primitives) (qx : QuickXml) (web : Web) (idp : IdentityProvider)

/-- The XML in the query string under a detached signature. -/
def SignedXml (d : DetachedSignature) (direction : Redirect.RedirectDirection) (xml : Octets) :
    Prop :=
  ∃ decoded, decodeWire web (Text.asBytes d.rawQueryString) .httpRedirect direction =
    .ok decoded ∧ decoded.xml = xml

/-- What a logout request says, its identifier decrypted. -/
def readLogoutRequest (policy : PeerCryptoPolicy) (body : Octets) : Result ParsedLogoutRequest := do
  let doc ← Document.parse qx body
  let (parsed, _) ← parseLogoutRequest doc
  let nameId ← decryptedNameId crypto qx doc idp.config.decryptionKey policy parsed.nameId
  .ok { parsed with nameId := nameId }

/-- What a logout response says. -/
def readLogoutResponse (body : Octets) : Result ParsedLogoutResponse := do
  let doc ← Document.parse qx body
  let (parsed, _) ← parseLogoutResponse doc
  .ok parsed

/-- The request acted on is the one in the signed query. -/
def RequestBound (sp : SpDescriptor) (input : ConsumeLogoutRequest) (d : DetachedSignature)
    (parsed : ParsedLogoutRequest) : Prop :=
  ∃ xml, SignedXml web d .request xml ∧
    idp.consumeLogoutRequest crypto qx sp { input with body := xml } = .ok parsed

/-- The response acted on is the one in the signed query. -/
def ResponseBound (sp : SpDescriptor) (input : ConsumeLogoutResponse) (d : DetachedSignature)
    (outcome : LogoutOutcome) : Prop :=
  ∃ xml, SignedXml web d .response xml ∧
    idp.consumeLogoutResponse crypto qx sp { input with body := xml } = .ok outcome

/-- Two responses that mean the same to the identity provider, the first one at
the endpoint it is expected at. -/
structure AnswersAlike (expectedDestination : Str) (signed given : ParsedLogoutResponse) :
    Prop where
  issuer : signed.issuer = given.issuer
  inResponseTo : signed.inResponseTo = given.inResponseTo
  outcome : signed.toOutcome = given.toOutcome
  destination : ∀ d, signed.destination = some d → d = expectedDestination

variable {crypto qx web idp}

/-- The checks an identity provider makes of a Redirect request it has read. -/
def RequestAccepted (crypto : Primitives) (idp : IdentityProvider) (sp : SpDescriptor)
    (input : ConsumeLogoutRequest) (parsed : ParsedLogoutRequest) : Prop :=
  checkIssuer sp.entityId parsed.issuer = .ok () ∧
    checkDestination idp.config.slo UNREGISTERED_SLO input.expectedDestination
      parsed.destination = .ok () ∧
    verifyRedirectSignature crypto idp.config.logoutWantSigned.requests input.detachedSignature
      sp.signingCerts (idp.policyFor input.peerCryptoPolicy).allowedSignatureAlgorithms = .ok () ∧
    expired parsed.notOnOrAfter input.now input.clockSkew = false

/-- A parsed request has no relay state of its own. -/
theorem parseLogoutRequest_relayState {document : Document} {parsed : ParsedLogoutRequest}
    {rootId : ElementId} (h : parseLogoutRequest document = .ok (parsed, rootId)) :
    parsed.relayState = none := by
  obtain ⟨⟨id, issueInstant⟩, _, h⟩ := bind_eq_ok_iff.mp h
  obtain ⟨notOnOrAfter, _, h⟩ := bind_eq_ok_iff.mp h
  obtain ⟨issuer, _, h⟩ := bind_eq_ok_iff.mp h
  obtain ⟨nameId, _, h⟩ := bind_eq_ok_iff.mp h
  exact (congrArg ParsedLogoutRequest.relayState (Prod.mk.inj (Except.ok.inj h)).1).symm

/-- Over HTTP-Redirect the body matters only through what it says. -/
theorem consumeLogoutRequest_redirect_iff {sp : SpDescriptor} (input : ConsumeLogoutRequest)
    {parsed : ParsedLogoutRequest} (hbinding : input.binding = .httpRedirect) :
    idp.consumeLogoutRequest crypto qx sp input = .ok parsed ↔
      readLogoutRequest crypto qx idp (idp.policyFor input.peerCryptoPolicy) input.body =
          .ok parsed ∧
        RequestAccepted crypto idp sp input parsed := by
  unfold consumeLogoutRequest readLogoutRequest RequestAccepted
  simp only [hbinding, verifyLogoutSignature, verifyRedirectRequestSignature]
  constructor
  · intro h
    obtain ⟨doc, hdoc, h⟩ := bind_eq_ok_iff.mp h
    obtain ⟨⟨read, rootId⟩, hread, h⟩ := bind_eq_ok_iff.mp h
    obtain ⟨_, hissuer, h⟩ := bind_eq_ok_iff.mp h
    obtain ⟨_, hdestination, h⟩ := bind_eq_ok_iff.mp h
    obtain ⟨_, hsignature, h⟩ := bind_eq_ok_iff.mp h
    obtain ⟨nameId, hnameId, h⟩ := bind_eq_ok_iff.mp h
    obtain ⟨hfresh, h⟩ := ite_error_eq_ok_iff.mp h
    obtain rfl := Except.ok.inj h
    refine ⟨bind_eq_ok_iff.mpr ⟨doc, hdoc, bind_eq_ok_iff.mpr ⟨(read, rootId), hread, ?_⟩⟩,
      hissuer, hdestination, hsignature, by simpa using hfresh⟩
    refine bind_eq_ok_iff.mpr ⟨nameId, hnameId, ?_⟩
    rw [← parseLogoutRequest_relayState hread]
  · rintro ⟨h, hissuer, hdestination, hsignature, hfresh⟩
    obtain ⟨doc, hdoc, h⟩ := bind_eq_ok_iff.mp h
    obtain ⟨⟨read, rootId⟩, hread, h⟩ := bind_eq_ok_iff.mp h
    obtain ⟨nameId, hnameId, h⟩ := bind_eq_ok_iff.mp h
    obtain rfl := Except.ok.inj h
    refine bind_eq_ok_iff.mpr ⟨doc, hdoc, bind_eq_ok_iff.mpr ⟨(read, rootId), hread, ?_⟩⟩
    refine bind_eq_ok_iff.mpr ⟨(), hissuer, bind_eq_ok_iff.mpr ⟨(), hdestination, ?_⟩⟩
    refine bind_eq_ok_iff.mpr ⟨(), hsignature, bind_eq_ok_iff.mpr ⟨nameId, hnameId, ?_⟩⟩
    refine ite_error_eq_ok_iff.mpr ⟨by simpa using hfresh, ?_⟩
    rw [← parseLogoutRequest_relayState hread]

/-- Over HTTP-Redirect the body matters only through what it says. -/
theorem consumeLogoutResponse_redirect_iff {sp : SpDescriptor} (input : ConsumeLogoutResponse)
    {outcome : LogoutOutcome} (hbinding : input.binding = .httpRedirect) :
    idp.consumeLogoutResponse crypto qx sp input = .ok outcome ↔
      ∃ parsed, readLogoutResponse qx input.body = .ok parsed ∧
        checkIssuer sp.entityId parsed.issuer = .ok () ∧
        checkDestination idp.config.slo UNREGISTERED_SLO input.expectedDestination
          parsed.destination = .ok () ∧
        verifyRedirectSignature crypto idp.config.logoutWantSigned.responses
          input.detachedSignature sp.signingCerts
          (idp.policyFor input.peerCryptoPolicy).allowedSignatureAlgorithms = .ok () ∧
        parsed.inResponseTo = input.tracker.requestId ∧ parsed.toOutcome = outcome := by
  rw [consumeLogoutResponse_ok_iff]
  simp only [hbinding, verifyLogoutSignature, verifyRedirectRequestSignature]
  constructor
  · rintro ⟨doc, parsed, rootId, hdoc, hparsed, hlegs⟩
    exact ⟨parsed, bind_eq_ok_iff.mpr ⟨doc, hdoc, bind_eq_ok_iff.mpr ⟨_, hparsed, rfl⟩⟩, hlegs⟩
  · rintro ⟨parsed, hread, hlegs⟩
    obtain ⟨doc, hdoc, hread⟩ := bind_eq_ok_iff.mp hread
    obtain ⟨⟨_, rootId⟩, hparsed, hread⟩ := bind_eq_ok_iff.mp hread
    obtain rfl := Except.ok.inj hread
    exact ⟨doc, _, rootId, hdoc, hparsed, hlegs⟩

/-- The wire decoder takes the message and the signed query from one query. -/
theorem signedXml_of_decoded {body : Octets} {direction : Redirect.RedirectDirection}
    {decoded : DecodedWire} {d : DetachedSignature}
    (h : decodeWire web body .httpRedirect direction = .ok decoded)
    (hdetached : decoded.asDetachedSignature = some d) : SignedXml web d direction decoded.xml := by
  obtain ⟨raw, _, h⟩ := bind_eq_ok_iff.mp h
  obtain ⟨read, hread, h⟩ := bind_eq_ok_iff.mp h
  obtain rfl := Except.ok.inj h
  obtain ⟨_, _, hsigned⟩ := asDetachedSignature_eq_some_iff.mp hdetached
  exact ⟨_, decodeWire_asBytes (Redirect.decode_signedQueryString hread hsigned), rfl⟩

/-- A request accepted by the wire entry point is bound to its signature. -/
theorem consumeLogoutRequestWire_bound {input : ConsumeLogoutRequestWire}
    {parsed : ParsedLogoutRequest} {decoded : DecodedWire} {d : DetachedSignature}
    (hbinding : input.binding = .httpRedirect)
    (hdecoded : decodeWire web input.wireBody input.binding .request = .ok decoded)
    (hdetached : decoded.asDetachedSignature = some d)
    (h : idp.consumeLogoutRequestWire crypto qx web input = .ok parsed) :
    RequestBound crypto qx web idp input.sp (input.decodedAs decoded) d parsed := by
  obtain ⟨again, hagain, h⟩ := bind_eq_ok_iff.mp h
  obtain rfl := Except.ok.inj (hdecoded.symm.trans hagain)
  exact ⟨decoded.xml, signedXml_of_decoded (hbinding ▸ hdecoded) hdetached, h⟩

/-- A response accepted by the wire entry point is bound to its signature. -/
theorem consumeLogoutResponseWire_bound {input : ConsumeLogoutResponseWire}
    {outcome : LogoutOutcome} {decoded : DecodedWire} {d : DetachedSignature}
    (hbinding : input.binding = .httpRedirect)
    (hdecoded : decodeWire web input.wireBody input.binding .response = .ok decoded)
    (hdetached : decoded.asDetachedSignature = some d)
    (h : idp.consumeLogoutResponseWire crypto qx web input = .ok outcome) :
    ResponseBound crypto qx web idp input.sp (input.decodedAs decoded) d outcome := by
  obtain ⟨again, hagain, h⟩ := bind_eq_ok_iff.mp h
  obtain rfl := Except.ok.inj (hdecoded.symm.trans hagain)
  exact ⟨decoded.xml, signedXml_of_decoded (hbinding ▸ hdecoded) hdetached, h⟩

/-! ## A body beside a foreign signature -/

namespace Sample

open Response.Sample

/-- The endpoint of the sample messages. -/
def destination : Str := "https://idp.example/slo"

/-- A request of the sample peer to log a subject out. -/
def request (name : Str) : BuildLogoutRequest where
  id := "_request"
  issueInstant := now
  issuerEntityId := "sp"
  destination := some destination
  notOnOrAfter := none
  reason := none
  nameId := ⟨name, .transient, none, none, none⟩
  sessionIndex := some "session"

/-- The identity provider of the sample messages insists on signed requests. -/
def provider : IdentityProvider := Saml.Sample.idp ⟨true, true⟩

/-- Write the request for a subject and read it back. -/
def written (name : Str) : Result (Str × ParsedLogoutRequest) := do
  let element ← buildLogoutRequestElement (request name)
  let doc ← Document.new element
  let text ← emitDocument doc
  let document ← Scanning.parseText text
  let (parsed, _) ← parseLogoutRequest document
  let nameId ← decryptedNameId Transparent.primitives Scanning.reader document none
    .strongDefaults parsed.nameId
  if '\r' ∈ text ∨ 65536 ≤ (Text.asBytes text).length ∨ parsed.issuer ≠ "sp" ∨
      parsed.destination ≠ some destination ∨ parsed.notOnOrAfter ≠ none ∨
      nameId.value ≠ name then .error .inflate
  else .ok (text, { parsed with nameId := nameId })

theorem written_alice_isOk : (written "alice").isOk = true := by decide +kernel

theorem written_mallory_isOk : (written "mallory").isOk = true := by decide +kernel

/-- A written request in octets. -/
theorem written_reads {name : Str} (h : (written name).isOk = true) : ∃ xml parsed,
    xml.length < 65536 ∧
      readLogoutRequest Transparent.primitives Scanning.reader provider .strongDefaults xml =
        .ok parsed ∧
      parsed.issuer = "sp" ∧ parsed.destination = some destination ∧
      parsed.notOnOrAfter = none ∧ parsed.nameId.value = name := by
  obtain ⟨⟨text, read⟩, h⟩ := exists_of_isOk h
  obtain ⟨element, _, h⟩ := bind_eq_ok_iff.mp h
  obtain ⟨doc, _, h⟩ := bind_eq_ok_iff.mp h
  obtain ⟨emitted, _, h⟩ := bind_eq_ok_iff.mp h
  obtain ⟨document, hdocument, h⟩ := bind_eq_ok_iff.mp h
  obtain ⟨⟨parsed, rootId⟩, hparsed, h⟩ := bind_eq_ok_iff.mp h
  obtain ⟨nameId, hnameId, h⟩ := bind_eq_ok_iff.mp h
  obtain ⟨hlegs, _⟩ := ite_error_eq_ok_iff.mp h
  simp only [not_or, not_not, not_le] at hlegs
  obtain ⟨hreturn, hlength, hissuer, hdestination, hexpiry, hname⟩ := hlegs
  refine ⟨Text.asBytes emitted, { parsed with nameId := nameId }, hlength, ?_, hissuer,
    hdestination, hexpiry, hname⟩
  refine bind_eq_ok_iff.mpr ⟨document, (Scanning.parse_asBytes hreturn).trans hdocument, ?_⟩
  exact bind_eq_ok_iff.mpr ⟨(parsed, rootId), hparsed, bind_eq_ok_iff.mpr ⟨nameId, hnameId, rfl⟩⟩

/-- A call with a body and a detached signature. -/
def input (body : Octets) (d : DetachedSignature) : ConsumeLogoutRequest where
  peerCryptoPolicy := none
  body := body
  binding := .httpRedirect
  detachedSignature := some d
  expectedDestination := destination
  now := now
  clockSkew := .ofSecs 60 Duration.minute_lt

/-- A written request is accepted beside any signature that verifies. -/
theorem accepted {body : Octets} {parsed : ParsedLogoutRequest} {d : DetachedSignature}
    (hread : readLogoutRequest Transparent.primitives Scanning.reader provider .strongDefaults
      body = .ok parsed) (hissuer : parsed.issuer = "sp")
    (hdestination : parsed.destination = some destination) (hexpiry : parsed.notOnOrAfter = none)
    (hverified : DetachedVerified Transparent.primitives d Saml.Sample.sp.signingCerts
      PeerCryptoPolicy.strongDefaults.allowedSignatureAlgorithms) :
    provider.consumeLogoutRequest Transparent.primitives Scanning.reader Saml.Sample.sp
      (input body d) = .ok parsed := by
  refine (consumeLogoutRequest_redirect_iff (input body d) rfl).mpr ⟨hread, ?_⟩
  refine ⟨checkIssuer_ok_iff.mpr hissuer, checkDestination_ok_iff.mpr ⟨?_, ?_⟩, ?_, ?_⟩
  · exact ⟨_, List.mem_singleton.mpr rfl, rfl⟩
  · intro url hurl
    exact Option.some.inj (hurl.symm.trans hdestination)
  · exact verifyRedirectSignature_ok_iff.mpr (.inl ⟨d, rfl, hverified⟩)
  · rw [hexpiry]
    rfl

end Sample

end Saml.IdentityProvider
