import Saml.Authn.Build
import Saml.Idp.Authn
import Saml.Idp.Issue
import Saml.Response.Issued

/-!
# Where an issued response goes

A response answers the request that was validated, at the endpoint and with
the relay state that were validated with it. The fields of the request that the
caller can change afterwards do not enter.
-/

namespace Saml

open Xml Crypto Dsig Response Authn

variable {crypto : Primitives} {qx : QuickXml} {web : Web}

/-! ## The confirmation in an assertion -/

/-- The only subject confirmation of an assertion names a recipient and the
request it answers. -/
def ConfirmsTo (assertion : Element) (recipient inResponseTo : Str) : Prop :=
  ∃ subject confirmation data,
    assertion.allChildElements (some SAML_NS) "Subject" = [subject] ∧
    subject.allChildElements (some SAML_NS) "SubjectConfirmation" = [confirmation] ∧
    confirmation.allChildElements (some SAML_NS) "SubjectConfirmationData" = [data] ∧
    data.attr none "Recipient" = some recipient ∧
    data.attr none "InResponseTo" = some inResponseTo

theorem confirmsTo_unnumbered {e : Element} {recipient inResponseTo : Str} :
    ConfirmsTo (unnumbered e) recipient inResponseTo ↔ ConfirmsTo e recipient inResponseTo := by
  constructor
  · rintro ⟨subject, confirmation, data, hsubject, hconfirmation, hdata, hrecipient, hrequest⟩
    rw [unnumbered_allChildElements, List.map_eq_singleton_iff] at hsubject
    obtain ⟨subject, hsubject, rfl⟩ := hsubject
    rw [unnumbered_allChildElements, List.map_eq_singleton_iff] at hconfirmation
    obtain ⟨confirmation, hconfirmation, rfl⟩ := hconfirmation
    rw [unnumbered_allChildElements, List.map_eq_singleton_iff] at hdata
    obtain ⟨data, hdata, rfl⟩ := hdata
    rw [unnumbered_attr] at hrecipient hrequest
    exact ⟨subject, confirmation, data, hsubject, hconfirmation, hdata, hrecipient, hrequest⟩
  · rintro ⟨subject, confirmation, data, hsubject, hconfirmation, hdata, hrecipient, hrequest⟩
    refine ⟨unnumbered subject, unnumbered confirmation, unnumbered data, ?_, ?_, ?_, ?_, ?_⟩
    · rw [unnumbered_allChildElements, hsubject, List.map_singleton]
    · rw [unnumbered_allChildElements, hconfirmation, List.map_singleton]
    · rw [unnumbered_allChildElements, hdata, List.map_singleton]
    · rw [unnumbered_attr, hrecipient]
    · rw [unnumbered_attr, hrequest]

theorem qname_nameIdElement (nameId : NameId) (spEntityId : Str) :
    (nameIdElement nameId spEntityId).qname = Schema.saml "NameID" := by
  simp only [nameIdElement, qname_withOptionalAttribute]
  rfl

theorem filter_attributeStatementElements {loc : Str} (other : ("AttributeStatement" : Str) ≠ loc)
    (attributes : List SamlAttribute) :
    (attributeStatementElements attributes).filter (·.hasName (some SAML_NS) loc) = [] := by
  unfold attributeStatementElements
  split
  · rfl
  · have hname : (withElements (saml "AttributeStatement") (attributes.map buildAttribute)).qname =
        Schema.saml "AttributeStatement" := rfl
    exact filter_hasName_of_ne hname other []

/-- A built assertion confirms to its recipient. -/
theorem confirmsTo_buildAssertion {input : IssueResponseInputs} {inResponseTo : Str}
    (solicited : input.inResponseTo = some inResponseTo) (assertionId : Str)
    (instants : IssuanceInstants) :
    ConfirmsTo (buildAssertion assertionId input instants) input.acsEndpoint.url inResponseTo := by
  have leaf (e : Element) (he : e.childElements = []) (ns : Option Str) (loc : Str) :
      e.allChildElements ns loc = [] := by
    rw [ElementOf.allChildElements, he, List.filter_nil]
  let data := subjectConfirmationDataElement input.acsEndpoint.url input.inResponseTo
    input.holderOfKeyCert instants
  let confirmation := subjectConfirmationElement input.acsEndpoint.url input.inResponseTo
    input.holderOfKeyCert instants
  let subject := withElements (saml "Subject")
    [nameIdElement input.nameId input.sp.entityId, confirmation]
  have hissuer : (issuerElement input.idpEntityId).qname = Schema.saml "Issuer" := rfl
  have hsubject : subject.qname = Schema.saml "Subject" := rfl
  have hconditions : (conditionsElement input.sp.entityId instants).qname =
      Schema.saml "Conditions" := rfl
  have hconfirmation : confirmation.qname = Schema.saml "SubjectConfirmation" := rfl
  have hdata : data.qname = Schema.saml "SubjectConfirmationData" :=
    qname_subjectConfirmationDataElement _ _ _ _
  refine ⟨subject, confirmation, data, ?_, ?_, ?_, ?_, ?_⟩
  · rw [buildAssertion, allChildElements_withElements, leaf _ (by simp), List.filter_append,
      filter_attributeStatementElements (by decide), filter_hasName_of_ne hissuer (by decide),
      filter_hasName_of_eq hsubject, filter_hasName_of_ne hconditions (by decide),
      filter_hasName_of_ne (qname_authnStatementElement _ _ _) (by decide)]
    rfl
  · rw [allChildElements_withElements, leaf _ (by simp),
      filter_hasName_of_ne (qname_nameIdElement _ _) (by decide),
      filter_hasName_of_eq hconfirmation]
    rfl
  · have hbelow : confirmation.childElements = [data] := by
      simp only [confirmation, subjectConfirmationElement, childElements_withElements]
      rfl
    rw [ElementOf.allChildElements, hbelow]
    exact filter_hasName_of_eq hdata []
  · simp only [data, solicited]
    rfl
  · simp only [data, solicited]
    rfl

theorem attr_maybeSign {e signed : Element} {shouldSign : Bool} {opts : SignOptions}
    (h : maybeSign crypto e shouldSign opts = .ok signed) (ns : Option Str) (loc : Str) :
    signed.attr ns loc = e.attr ns loc := by
  rcases maybeSign_cases h with rfl | ⟨stash, index, signature, hstash, _, rfl⟩
  · rfl
  · calc (stash.insertChild index (.element signature)).attr ns loc = stash.attr ns loc := rfl
      _ = (unnumbered stash).attr ns loc := (unnumbered_attr stash ns loc).symm
      _ = (unnumbered e).attr ns loc := by rw [hstash]
      _ = e.attr ns loc := unnumbered_attr e ns loc

theorem confirmsTo_maybeSign {e signed : Element} {shouldSign : Bool} {opts : SignOptions}
    {recipient inResponseTo : Str} (h : maybeSign crypto e shouldSign opts = .ok signed)
    (confirms : ConfirmsTo e recipient inResponseTo) :
    ConfirmsTo signed recipient inResponseTo := by
  rcases maybeSign_cases h with rfl | ⟨stash, index, signature, hstash, hname, rfl⟩
  · exact confirms
  · have hother : signature.hasName (some SAML_NS) "Subject" = false := by
      rw [← Bool.not_eq_true, ElementOf.hasName_iff, hname]
      decide
    obtain ⟨subject, hbelow⟩ : ConfirmsTo stash recipient inResponseTo := by
      rw [← confirmsTo_unnumbered, hstash, confirmsTo_unnumbered]
      exact confirms
    obtain ⟨confirmation, data, hsubject, hrest⟩ := hbelow
    exact ⟨subject, confirmation, data,
      (allChildElements_insertChild stash index hother).trans hsubject, hrest⟩

/-! ## What was validated -/

/-- The relay state of a signed query is the one the query carries. -/
def BoundRelayState (web : Web) (input : ConsumeAuthnRequest) : Prop :=
  input.binding = .httpRedirect → ∀ detached, input.detachedSignature = some detached →
    ∃ decoded, decodeWire web (Text.asBytes detached.rawQueryString) .httpRedirect .request =
        .ok decoded ∧
      decoded.xml = input.samlRequest ∧ decoded.relayState = input.relayState

/-- A record holds what validation saw of a request: its identifier, the
registered endpoint it selects, and its relay state. -/
structure ValidatedFrom (qx : QuickXml) (web : Web) (input : ConsumeAuthnRequest)
    (validated : ValidatedBinding) : Prop where
  request : ∃ doc raw selection, Document.parse qx input.samlRequest = .ok doc ∧
    parseAuthnRequest doc = .ok raw ∧ raw.issuer = input.sp.entityId ∧
    validated.requestId = raw.id ∧
    resolveAcs raw input.sp = .ok (validated.acs, selection) ∧
    ∀ binding, raw.protocolBinding = some binding → validated.acs.binding = binding
  registered : validated.acs ∈ input.sp.assertionConsumerServices
  sp : validated.spEntityId = input.sp.entityId
  relayState : validated.relayState = input.relayState
  bound : BoundRelayState web input

/-- Whatever way a request selects its endpoint, it is one of those registered. -/
theorem resolveAcs_mem {raw : RawParsedAuthnRequest} {sp : SpDescriptor}
    {acs : SsoResponseEndpoint} {selection : AcsSelection}
    (h : resolveAcs raw sp = .ok (acs, selection)) : acs ∈ sp.assertionConsumerServices := by
  unfold resolveAcs at h
  dsimp only at h
  split at h
  · obtain ⟨endpoint, hendpoint, h⟩ := bind_eq_ok_iff.mp h
    obtain ⟨rfl, _⟩ := Prod.mk.inj (Except.ok.inj h)
    exact List.mem_of_find?_eq_some (okOr_eq_ok_iff.mp hendpoint)
  · obtain ⟨endpoint, hendpoint, h⟩ := bind_eq_ok_iff.mp h
    obtain ⟨rfl, _⟩ := Prod.mk.inj (Except.ok.inj h)
    exact List.mem_of_find?_eq_some (okOr_eq_ok_iff.mp hendpoint)
  · obtain ⟨endpoint, hendpoint, h⟩ := bind_eq_ok_iff.mp h
    obtain ⟨rfl, _⟩ := Prod.mk.inj (Except.ok.inj h)
    rcases Option.or_eq_some_iff.mp (okOr_eq_ok_iff.mp hendpoint) with hflagged | ⟨_, hfirst⟩
    · exact List.mem_of_find?_eq_some hflagged
    · exact List.mem_of_head? hfirst

theorem validateAuthnRequest_ok {raw : RawParsedAuthnRequest} {sp : SpDescriptor}
    {expectedDestination : Str} {urls : List Str} {request : ParsedAuthnRequest}
    (h : validateAuthnRequest crypto raw sp expectedDestination urls = .ok request) :
    raw.issuer = sp.entityId ∧ request.validated.requestId = raw.id ∧
      request.validated.spEntityId = sp.entityId ∧
      (∃ selection, resolveAcs raw sp = .ok (request.validated.acs, selection)) ∧
      ∀ binding, raw.protocolBinding = some binding → request.validated.acs.binding = binding := by
  obtain ⟨hissuer, h⟩ := ite_error_eq_ok_iff.mp h
  obtain ⟨_, h⟩ := ite_error_eq_ok_iff.mp h
  obtain ⟨_, h⟩ := ite_error_eq_ok_iff.mp h
  obtain ⟨⟨acs, selection⟩, hacs, h⟩ := bind_eq_ok_iff.mp h
  obtain ⟨hbinding, h⟩ := ite_error_eq_ok_iff.mp h
  obtain rfl := Except.ok.inj h
  refine ⟨not_not.mp hissuer, rfl, rfl, ⟨selection, hacs⟩, ?_⟩
  intro binding heq
  rw [heq] at hbinding
  have hsame : binding = acs.binding := by simpa using hbinding
  exact hsame.symm

theorem ensureSignedQueryMatches_ok {query : Str} {samlRequest : Octets} {relayState : Option Str}
    (h : IdentityProvider.ensureSignedQueryMatches web query samlRequest relayState = .ok ()) :
    ∃ decoded, decodeWire web (Text.asBytes query) .httpRedirect .request = .ok decoded ∧
      decoded.xml = samlRequest ∧ decoded.relayState = relayState := by
  obtain ⟨decoded, hdecoded, h⟩ := bind_eq_ok_iff.mp h
  obtain ⟨hxml, h⟩ := ite_error_eq_ok_iff.mp h
  obtain ⟨hrelay, _⟩ := ite_error_eq_ok_iff.mp h
  exact ⟨decoded, hdecoded, not_not.mp hxml, not_not.mp hrelay⟩

/-- An accepted request carries the record of what was validated. -/
theorem consumeAuthnRequest_ok {idp : IdentityProvider} {input : ConsumeAuthnRequest}
    {request : ParsedAuthnRequest}
    (h : idp.consumeAuthnRequest crypto qx web input = .ok request) :
    ValidatedFrom qx web input request.validated := by
  obtain ⟨doc, hdoc, h⟩ := bind_eq_ok_iff.mp h
  obtain ⟨raw, hraw, h⟩ := bind_eq_ok_iff.mp h
  obtain ⟨parsed, hparsed, h⟩ := bind_eq_ok_iff.mp h
  obtain ⟨_, hsignature, h⟩ := bind_eq_ok_iff.mp h
  obtain ⟨_, _, h⟩ := bind_eq_ok_iff.mp h
  obtain rfl := Except.ok.inj h
  obtain ⟨hissuer, hid, hsp, ⟨selection, hacs⟩, hbinding⟩ := validateAuthnRequest_ok hparsed
  refine ⟨⟨doc, raw, selection, hdoc, hraw, hissuer, hid, hacs, hbinding⟩, resolveAcs_mem hacs,
    hsp, rfl, ?_⟩
  intro hredirect detached hdetached
  unfold IdentityProvider.verifyAuthnRequestSignature at hsignature
  rw [hredirect] at hsignature
  obtain ⟨_, _, hmatches⟩ := bind_eq_ok_iff.mp hsignature
  rw [hdetached] at hmatches
  exact ensureSignedQueryMatches_ok hmatches

/-! ## What is issued -/

/-- The dispatch goes to an endpoint over the endpoint's own binding, with a
relay state. -/
def DeliveredTo (web : Web) (acs : SsoResponseEndpoint) (relayState : Option Str)
    (dispatch : SsoResponseDispatch) : Prop :=
  ∃ url, web.parseUrl acs.url = some url ∧
    match acs.binding with
    | .httpPost => ∃ form, dispatch = .post url form relayState
    | .httpArtifact => ∃ artifact xml, dispatch = .artifact (web.appendPairs url
        (("SAMLart", artifact) :: (relayState.map fun rs => (("RelayState" : Str), rs)).toList))
        artifact xml

/-- The response of a dispatch answers a request at a recipient: so says its
root, and so does the assertion it carries, in the clear or encrypted. -/
structure Answers (crypto : Primitives) (input : IssueResponseInputs) (draws : IssueDraws)
    (recipient inResponseTo : Str) (dispatch : SsoResponseDispatch) : Prop where
  response : ∃ doc xml, emitDocument doc = .ok xml ∧
    dispatch.responseXml = some (Text.asBytes xml) ∧
    doc.root.attr none "Destination" = some recipient ∧
    doc.root.attr none "InResponseTo" = some inResponseTo
  assertion : ∃ assertion, EmittedAssertion crypto input draws dispatch assertion ∧
    ConfirmsTo assertion recipient inResponseTo

theorem deliveredTo_dispatchBinding {input : IssueResponseInputs} {xml : Str} {handle : Draw 20}
    {dispatch : SsoResponseDispatch} (h : dispatchBinding web input xml handle = .ok dispatch) :
    DeliveredTo web input.acsEndpoint input.relayState dispatch := by
  unfold dispatchBinding at h
  dsimp only at h
  unfold DeliveredTo
  cases hbinding : input.acsEndpoint.binding with
  | httpPost =>
      rw [hbinding] at h
      obtain ⟨url, hurl, h⟩ := bind_eq_ok_iff.mp h
      exact ⟨url, okOr_eq_ok_iff.mp hurl, _, (Except.ok.inj h).symm⟩
  | httpArtifact =>
      rw [hbinding] at h
      obtain ⟨_, _, h⟩ := bind_eq_ok_iff.mp h
      obtain ⟨url, hurl, h⟩ := bind_eq_ok_iff.mp h
      obtain ⟨_, _, h⟩ := bind_eq_ok_iff.mp h
      obtain ⟨artifact, _, h⟩ := bind_eq_ok_iff.mp h
      exact ⟨url, okOr_eq_ok_iff.mp hurl, artifact, _, (Except.ok.inj h).symm⟩

theorem confirmsTo_issuedAssertion {input : IssueResponseInputs} {draws : IssueDraws}
    {assertion : Element} {inResponseTo : Str} (solicited : input.inResponseTo = some inResponseTo)
    (h : issuedAssertion crypto input draws = .ok assertion) :
    ConfirmsTo assertion input.acsEndpoint.url inResponseTo := by
  obtain ⟨assertionId, _, h⟩ := bind_eq_ok_iff.mp h
  obtain ⟨instants, _, h⟩ := bind_eq_ok_iff.mp h
  exact confirmsTo_maybeSign h (confirmsTo_buildAssertion solicited assertionId instants)

/-- A solicited response answers its request at its endpoint. -/
theorem answers_issueResponse {input : IssueResponseInputs} {draws : IssueDraws}
    {dispatch : SsoResponseDispatch} {inResponseTo : Str}
    (solicited : input.inResponseTo = some inResponseTo)
    (h : Response.issueResponse crypto web input draws = .ok dispatch) :
    Answers crypto input draws input.acsEndpoint.url inResponseTo dispatch := by
  obtain ⟨assertion, hemitted⟩ := issueResponse_emitted h
  refine ⟨?_, assertion, hemitted, confirmsTo_issuedAssertion solicited hemitted.issued⟩
  obtain ⟨responseId, issueInstant, wrapped, response, doc, xml, _, hresponse, hdoc, hxml,
    hdispatch⟩ := hemitted.carried
  have attr (loc : Str) : doc.root.attr none loc = (buildResponse responseId input.idpEntityId
      input.acsEndpoint.url input.inResponseTo issueInstant .success (some wrapped)).attr none
      loc := by
    rw [← unnumbered_attr, Document.new_unnumbered hdoc, unnumbered_attr,
      attr_maybeSign hresponse]
  refine ⟨doc, xml, hxml, hdispatch, ?_, ?_⟩
  · rw [attr, solicited]
    rfl
  · rw [attr, solicited]
    rfl

/-- Whatever happens to the fields of an accepted request that are not part of
its record, a response issued for it answers the validated request, at an
endpoint registered by the service provider and with the validated relay state. -/
theorem issueResponseDispatch_answers {idp : IdentityProvider} {input : ConsumeAuthnRequest}
    {request : ParsedAuthnRequest}
    (accepted : idp.consumeAuthnRequest crypto qx web input = .ok request)
    {issue : IssueResponse} (record : issue.inResponseTo.validated = request.validated)
    {draws : IssueDraws} {dispatch : SsoResponseDispatch}
    (issued : idp.issueResponseDispatch crypto web issue draws = .ok dispatch) :
    ValidatedFrom qx web input request.validated ∧
      issue.sp.entityId = input.sp.entityId ∧
      (∃ service, Answers crypto (idp.issueInputs issue service) draws request.validated.acs.url
        request.validated.requestId dispatch) ∧
      DeliveredTo web request.validated.acs input.relayState dispatch := by
  have hvalidated := consumeAuthnRequest_ok accepted
  obtain ⟨_, hbelongs, issued⟩ := bind_eq_ok_iff.mp issued
  obtain ⟨_, _, issued⟩ := bind_eq_ok_iff.mp issued
  obtain ⟨_, _, issued⟩ := bind_eq_ok_iff.mp issued
  obtain ⟨service, _, issued⟩ := bind_eq_ok_iff.mp issued
  obtain ⟨_, _, issued⟩ := bind_eq_ok_iff.mp issued
  obtain ⟨_, _, issued⟩ := bind_eq_ok_iff.mp issued
  obtain ⟨hsame, _⟩ := ite_error_eq_ok_iff.mp hbelongs
  refine ⟨hvalidated, ?_, ⟨service, ?_⟩, ?_⟩
  · rw [← not_not.mp hsame, record, hvalidated.sp]
  · rw [← record]
    exact answers_issueResponse rfl issued
  · obtain ⟨xml, _, hdispatch⟩ := bind_eq_ok_iff.mp issued
    have hdelivered := deliveredTo_dispatchBinding hdispatch
    simp only [IdentityProvider.issueInputs, record, hvalidated.relayState] at hdelivered
    exact hdelivered

/-! ## A sample request -/

namespace Redirected

/-- A service provider with one endpoint. -/
def sp : SpDescriptor :=
  { Response.Sample.sp with
    assertionConsumerServices := [⟨"https://sp.example/acs", .httpPost, some 0, true⟩] }

def idp : IdentityProvider := Saml.Sample.idp ⟨false, false⟩

/-- The request of the service provider. -/
def build : BuildAuthnRequest where
  id := "_request"
  issueInstant := Response.Sample.now
  issuerEntityId := "sp"
  destination := "https://idp.example/sso"
  forceAuthn := false
  isPassive := false
  acsSelection := .default
  protocolBinding := none
  requestedNameIdFormat := none
  requestedAuthnContext := none

def input (text : Str) : ConsumeAuthnRequest where
  sp := sp
  peerCryptoPolicy := none
  maxAuthnRequestAge := none
  samlRequest := Text.asBytes text
  binding := .httpPost
  relayState := some "state"
  detachedSignature := none
  expectedDestination := "https://idp.example/sso"
  now := Response.Sample.now
  clockSkew := .ofSecs 60 Duration.minute_lt

/-- The request with other values in the fields a caller can reach. -/
def mutate (request : ParsedAuthnRequest) : ParsedAuthnRequest :=
  { request with
    id := "_other"
    assertionConsumerService := ⟨"https://mallory.example/acs", .httpPost, none, true⟩
    relayState := some "other" }

def issue (request : ParsedAuthnRequest) : IssueResponse where
  sp := sp
  inResponseTo := mutate request
  nameId := ⟨"alice", .transient, none, none, none⟩
  attributes := []
  authnInstant := Response.Sample.now
  sessionIndex := "session"
  sessionNotOnOrAfter := none
  authnContextClassRef := .password
  forceEncryptAssertion := some false
  now := Response.Sample.now
  assertionLifetime := .ofSecs 300 Duration.fiveMinutes_lt
  subjectConfirmationLifetime := .ofSecs 300 Duration.fiveMinutes_lt
  holderOfKeyCert := none

/-- Write the request, read and check it, change it, and answer it. -/
def answered : Result (Str × ParsedAuthnRequest × SsoResponseDispatch) := do
  let element ← buildAuthnRequestElement build
  let doc ← Document.new element
  let text ← emitDocument doc
  let document ← Scanning.parseText text
  let raw ← parseAuthnRequest document
  let parsed ← validateAuthnRequest Transparent.primitives raw sp "https://idp.example/sso"
    ["https://idp.example/sso"]
  idp.verifyAuthnRequestSignature Transparent.primitives Redirect.Transparent.storedWeb document
    (input text)
  IdentityProvider.checkFreshness parsed.issueInstant Response.Sample.now
    idp.config.maxAuthnRequestAge (input text).clockSkew
  let request := parsed.sealRelayState (some "state")
  let dispatch ← idp.issueResponseDispatch Transparent.primitives Redirect.Transparent.storedWeb
    (issue request) (Response.Sample.draws 4)
  if '\r' ∈ text then .error .inflate else .ok (text, request, dispatch)

set_option maxRecDepth 20000 in
theorem answered_isOk : answered.isOk = true := by decide +kernel

/-- The steps of the answered request. -/
theorem answered_ok {text : Str} {request : ParsedAuthnRequest} {dispatch : SsoResponseDispatch}
    (h : answered = .ok (text, request, dispatch)) :
    idp.consumeAuthnRequest Transparent.primitives Scanning.reader Redirect.Transparent.storedWeb
        (input text) = .ok request ∧
      idp.issueResponseDispatch Transparent.primitives Redirect.Transparent.storedWeb
        (issue request) (Response.Sample.draws 4) = .ok dispatch := by
  obtain ⟨_, _, h⟩ := bind_eq_ok_iff.mp h
  obtain ⟨_, _, h⟩ := bind_eq_ok_iff.mp h
  obtain ⟨text, _, h⟩ := bind_eq_ok_iff.mp h
  obtain ⟨document, hdocument, h⟩ := bind_eq_ok_iff.mp h
  obtain ⟨raw, hraw, h⟩ := bind_eq_ok_iff.mp h
  obtain ⟨parsed, hparsed, h⟩ := bind_eq_ok_iff.mp h
  obtain ⟨_, hsignature, h⟩ := bind_eq_ok_iff.mp h
  obtain ⟨_, hfresh, h⟩ := bind_eq_ok_iff.mp h
  obtain ⟨dispatch, hissue, h⟩ := bind_eq_ok_iff.mp h
  obtain ⟨hreturn, h⟩ := ite_error_eq_ok_iff.mp h
  obtain ⟨rfl, hrest⟩ := Prod.mk.inj (Except.ok.inj h)
  obtain ⟨rfl, rfl⟩ := Prod.mk.inj hrest
  refine ⟨bind_eq_ok_iff.mpr ⟨document, (Scanning.parse_asBytes hreturn).trans hdocument, ?_⟩,
    hissue⟩
  refine bind_eq_ok_iff.mpr ⟨raw, hraw, bind_eq_ok_iff.mpr ⟨parsed, hparsed, ?_⟩⟩
  exact bind_eq_ok_iff.mpr ⟨(), hsignature, bind_eq_ok_iff.mpr ⟨(), hfresh, rfl⟩⟩

end Redirected

/-- The sample request is answered where it was validated, not where the
changed copy points. -/
theorem issueResponseDispatch_answers_sample : ∃ text request dispatch,
    Redirected.answered = .ok (text, request, dispatch) ∧
      ValidatedFrom Scanning.reader Redirect.Transparent.storedWeb (Redirected.input text)
        request.validated ∧
      (Redirected.issue request).sp.entityId = (Redirected.input text).sp.entityId ∧
      (∃ service, Answers Transparent.primitives
        (Redirected.idp.issueInputs (Redirected.issue request) service)
        (Response.Sample.draws 4) request.validated.acs.url request.validated.requestId
        dispatch) ∧
      DeliveredTo Redirect.Transparent.storedWeb request.validated.acs
        (Redirected.input text).relayState dispatch := by
  obtain ⟨⟨text, request, dispatch⟩, hanswered⟩ := exists_of_isOk Redirected.answered_isOk
  obtain ⟨haccepted, hissued⟩ := Redirected.answered_ok hanswered
  exact ⟨text, request, dispatch, hanswered, issueResponseDispatch_answers haccepted rfl hissued⟩

end Saml
