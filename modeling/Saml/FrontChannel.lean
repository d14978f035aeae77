import Saml.Idp.Authn
import Saml.Message
import Saml.Redirect.RoundTrip
import Saml.Sp.Logout

/-!
# Messages on the front channel

A protocol message goes through the user agent, in the query of a redirect or in
the field of a form. What the receiver takes off the wire is the message that
was sent, with a signature that verifies wherever the binding has one.
-/

namespace Saml

open Xml Crypto Dsig Response Redirect Logout

variable {crypto : Primitives} {qx : QuickXml} {web : Web}

/-- What the user agent brings of a dispatch: the query of the URL it was sent to,
or the field of the form it posted. -/
def Dispatch.body (direction : RedirectDirection) : Dispatch → Option Octets
  | .redirect url => url.query.map Text.asBytes
  | .post form =>
      match direction with
      | .request => form.samlRequest.map Text.asBytes
      | .response => form.samlResponse.map Text.asBytes

/-! ## Redirects -/

namespace Redirect

/-- A destination whose own query leaves every message alone: it has no parameter
of the binding and does not run into the first one. -/
structure Quiet (destination : Url) : Prop where
  request : parameter (destination.query.getD []) RedirectDirection.request.paramName = none
  response : parameter (destination.query.getD []) RedirectDirection.response.paramName = none
  relayState : parameter (destination.query.getD []) RELAY_STATE = none
  sigAlg : parameter (destination.query.getD []) SIG_ALG = none
  signature : parameter (destination.query.getD []) SIGNATURE = none
  apart : ¬ Glued (destination.query.getD [])

theorem Quiet.paramName {destination : Url} (h : Quiet destination) (d : RedirectDirection) :
    parameter (destination.query.getD []) d.paramName = none := by
  cases d with
  | request => exact h.request
  | response => exact h.response

/-- A payload is read as the message or not at all. -/
theorem eq_of_decodePayload (inflates : Inflates web) {xml read : Octets} {payload : Str}
    (hpayload : deflateAndBase64 web xml = .ok payload)
    (h : decodePayload web (pctEncode payload) = .ok read) : read = xml := by
  obtain ⟨deflated, hdeflated, rfl⟩ := deflateAndBase64_ok hpayload
  obtain ⟨text, htext, h⟩ := bind_eq_ok_iff.mp h
  obtain rfl := Except.ok.inj ((pctDecode_pctEncode _).symm.trans htext)
  obtain ⟨octets, hoctets, h⟩ := bind_eq_ok_iff.mp h
  rw [base64Decode, base64Encode, Library.Base64.decode_encode, okOr_some] at hoctets
  obtain rfl := Except.ok.inj hoctets
  obtain ⟨buf, hbuf, h⟩ := bind_eq_ok_iff.mp h
  obtain ⟨hshort, h⟩ := ite_error_eq_ok_iff.mp h
  obtain rfl := Except.ok.inj h
  rw [inflates xml deflated (MAX_INFLATED_BYTES + 1) hdeflated, okOr_some] at hbuf
  obtain rfl := Except.ok.inj hbuf
  rw [List.length_take] at hshort
  exact List.take_of_length_le (by omega)

/-- What can be read of a redirect to a quiet destination is what was sent, but for
the message that its payload stands for. -/
theorem decode_quiet_iff (keeps : KeepsQuery web) {source : Str}
    {destination url : Url} (parsed : web.parseUrl source = some destination)
    (quiet : Quiet destination) {direction : RedirectDirection} {xml : Octets}
    {relayState : Option Str} {signing : Option Signing}
    (h : encode web destination direction xml relayState signing = .ok url) {query : Str}
    (hquery : url.query = some query) :
    ∃ payload message, deflateAndBase64 web xml = .ok payload ∧
      sent web direction xml relayState signing = .ok message ∧ message.xml = xml ∧
      ∀ read, decode web query direction = .ok read ↔
        ∃ other, decodePayload web (pctEncode payload) = .ok other ∧
          read = { message with xml := other } := by
  obtain ⟨written, hwritten, hparse⟩ := encode_eq_ok_iff.mp h
  obtain ⟨payload, message, rest, w⟩ := queryOf_ok hwritten
  have hchars := queryOf_queryChar hwritten
  have hfragment : '#' ∉ written := by
    intro hmem
    have hno := hchars _ hmem
    revert hno
    decide
  have hjoined : query = joined destination.query written := by
    have hurl := (keeps source destination written url parsed hchars hparse).trans
      (query_joinQuery destination hfragment)
    exact Option.some.inj (hquery.symm.trans hurl)
  have hown (key : Str) (hkey : parameter (destination.query.getD []) key = none) :
      own (destination.query.getD []) (pctPair direction.paramName payload) key =
        parameter (pctPair direction.paramName payload) key := by
    rw [own, if_neg quiet.apart, hkey, Option.or_none]
  obtain ⟨hrelay, halg, hsig, -⟩ := names_distinct direction
  have hmissing (key : Str) (hkey : parameter (destination.query.getD []) key = none)
      (hother : direction.paramName ≠ key) :
      own (destination.query.getD []) (pctPair direction.paramName payload) key = none := by
    rw [hown key hkey, parameter_pctPair (paramName_clean direction), if_neg hother]
  have hwhole := parameter_joined_behind destination.query
    (pctPair direction.paramName payload) rest
  rw [← w.query_eq, ← hjoined] at hwhole
  obtain ⟨-, -, -, hpayload⟩ := w.parameter_whole hwhole
  obtain ⟨hvr, hva, hvs⟩ := w.values hwhole (fun _ => hmissing _ quiet.relayState hrelay)
    fun _ => ⟨hmissing _ quiet.sigAlg halg, hmissing _ quiet.signature hsig⟩
  have hsaml : parameter query direction.paramName = some (pctEncode payload) := by
    rw [hpayload, hown _ (quiet.paramName direction),
      parameter_pctPair (paramName_clean direction), if_pos rfl]
  have hsigned := (w.signedQueryString_iff (pctEncode payload)).mpr fun _ => rfl
  refine ⟨payload, message, w.payload_eq, w.sent_eq, w.xml_eq, fun read => ?_⟩
  rw [decode_written_iff hvr hva hvs, w.relayState_eq]
  constructor
  · rintro ⟨saml, other, hfound, hother, hread⟩
    obtain rfl := Option.some.inj (hsaml.symm.trans hfound)
    rw [← hsigned] at hread
    exact ⟨other, hother, hread⟩
  · rintro ⟨other, hother, hread⟩
    rw [hsigned] at hread
    exact ⟨_, other, hsaml, hother, hread⟩

/-- What is read of a redirect to a quiet destination is what was sent. -/
theorem sent_of_decode (inflates : Inflates web) (keeps : KeepsQuery web) {source : Str}
    {destination url : Url} (parsed : web.parseUrl source = some destination)
    (quiet : Quiet destination) {direction : RedirectDirection} {xml : Octets}
    {relayState : Option Str} {signing : Option Signing}
    (h : encode web destination direction xml relayState signing = .ok url) {query : Str}
    (hquery : url.query = some query) {read : DecodedRedirect}
    (hread : decode web query direction = .ok read) :
    sent web direction xml relayState signing = .ok read := by
  obtain ⟨payload, message, hpayload, hsent, rfl, hiff⟩ :=
    decode_quiet_iff keeps parsed quiet h hquery
  obtain ⟨other, hother, rfl⟩ := (hiff read).mp hread
  obtain rfl := eq_of_decodePayload inflates hpayload hother
  exact hsent

/-- A redirect to a quiet destination is read unless its message is beyond the
bound. -/
theorem decodes_of_encode (inflates : Inflates web) (keeps : KeepsQuery web) {source : Str}
    {destination url : Url} (parsed : web.parseUrl source = some destination)
    (quiet : Quiet destination) {direction : RedirectDirection} {xml : Octets}
    {relayState : Option Str} {signing : Option Signing}
    (h : encode web destination direction xml relayState signing = .ok url) {query : Str}
    (hquery : url.query = some query) (fits : xml.length ≤ MAX_INFLATED_BYTES) :
    ∃ read, decode web query direction = .ok read ∧ read.xml = xml := by
  obtain ⟨payload, message, hpayload, -, rfl, hiff⟩ :=
    decode_quiet_iff keeps parsed quiet h hquery
  exact ⟨message, (hiff message).mpr
    ⟨message.xml, decodePayload_encode inflates fits hpayload, rfl⟩, rfl⟩

end Redirect

/-- What is read of a form is what was posted. -/
theorem decodePost_encoded {xml : Octets} {decoded : DecodedWire}
    (h : decodePost (Text.asBytes (base64Encode xml)) = .ok decoded) : decoded = .plain xml := by
  obtain ⟨text, htext, h⟩ := bind_eq_ok_iff.mp h
  obtain rfl := Option.some.inj ((Text.fromUtf8_asBytes _).symm.trans (okOr_eq_ok_iff.mp htext))
  obtain ⟨octets, hoctets, h⟩ := bind_eq_ok_iff.mp h
  obtain ⟨-, hoctets⟩ := ite_error_eq_ok_iff.mp hoctets
  obtain ⟨read, hread, hoctets⟩ := bind_eq_ok_iff.mp hoctets
  rw [base64Decode, base64Encode, Library.Base64.decode_encode, okOr_some] at hread
  obtain rfl := Except.ok.inj hread
  obtain ⟨-, hoctets⟩ := ite_error_eq_ok_iff.mp hoctets
  obtain rfl := Except.ok.inj hoctets
  exact (Except.ok.inj h).symm

/-! ## Senders -/

/-- The signing options in force at a service provider, if it signs. -/
def ServiceProvider.signing (sp : ServiceProvider) (signs : Bool) : Option SignOptions :=
  if signs then sp.config.signingKey.map sp.signOptions else none

theorem ServiceProvider.isSome_signing {sp : ServiceProvider} {signs : Bool} (h : signs = true)
    (held : sp.config.signingKey.isSome = true) : (sp.signing signs).isSome = true := by
  rw [signing, if_pos h, Option.isSome_map]
  exact held

/-- A message that a service provider reads again to sign it, or posts as it is. -/
theorem ServiceProvider.enclosed_of_postXml (correct : SignsCorrectly crypto) (lawful : qx.Lawful)
    {m : Message} {sp : ServiceProvider} {xml : Octets}
    (hxml : serializeElement m.element = .ok xml) {signs : Bool} {posted : Octets}
    (hposted : sp.postXml crypto qx xml signs = .ok posted) :
    m.Enclosed crypto qx (sp.signing signs) posted := by
  cases signs with
  | false =>
      obtain rfl := Except.ok.inj hposted
      exact Message.enclosed_of_serializeElement lawful hxml
  | true =>
      obtain ⟨key, hkey, hposted⟩ := bind_eq_ok_iff.mp hposted
      obtain ⟨doc, hdoc, hposted⟩ := bind_eq_ok_iff.mp hposted
      obtain ⟨signed, hsigned, hposted⟩ := bind_eq_ok_iff.mp hposted
      have hread := Message.readBack_of_serializeElement lawful m.writable hxml hdoc
      have hsigning : sp.signing true = some (sp.signOptions key) := by
        rw [signing, if_pos rfl, okOr_eq_ok_iff.mp hkey]
        rfl
      rw [hsigning]
      exact (Message.Standing.of_read hread).enclosed correct lawful ⟨rfl, rfl⟩ hsigned hposted

namespace Redirect

/-- The signing of a query with some options. -/
def Signing.ofOptions (crypto : Primitives) (opts : SignOptions) : Signing where
  sigAlgUri := opts.sigAlg.uri
  sign octets := signDetachedQuery crypto octets opts.signingKey opts.sigAlg

/-- The signature that a query was sent with verifies. -/
theorem detached_of_sent (correct : SignsCorrectly crypto) {direction : RedirectDirection}
    {xml : Octets} {relayState : Option Str} {opts : SignOptions} {read : DecodedRedirect}
    (h : sent web direction xml relayState (some (.ofOptions crypto opts)) = .ok read)
    {certs : List X509Certificate} {policy : PeerCryptoPolicy}
    (trusts : Trusts crypto certs policy opts) :
    ∃ d, (DecodedWire.ofRedirect read).asDetachedSignature = some d ∧
      DetachedVerified crypto d certs policy.allowedSignatureAlgorithms := by
  obtain ⟨payload, -, h⟩ := bind_eq_ok_iff.mp h
  obtain ⟨signature, hsignature, h⟩ := bind_eq_ok_iff.mp h
  obtain rfl := Except.ok.inj h
  obtain ⟨cert, hcert, hkey⟩ := trusts.certificate
  exact ⟨_, rfl, detachedVerified_of_signed correct hcert hkey trusts.allowed.signature hsignature⟩

end Redirect

/-- The form that posts a message. -/
def formOf (direction : RedirectDirection) (destination : Url) (xml : Octets)
    (relayState : Option Str) : Dispatch :=
  match direction with
  | .request => Post.encodeRequest destination xml relayState
  | .response => Post.encodeResponse destination xml relayState

/-- A message on its way: in a query, with the signature beside it, or in a form,
with the signature inside. -/
inductive Outbound (crypto : Primitives) (qx : QuickXml) (web : Web) (m : Message)
    (signing : Option SignOptions) (direction : RedirectDirection) (relayState : Option Str) :
    Binding → Dispatch → Prop
  | redirect {source : Str} {destination url : Url} {xml : Octets}
      (parsed : web.parseUrl source = some destination) (quiet : Quiet destination)
      (readIn : ∀ doc, Document.parse qx xml = .ok doc → m.ReadIn doc)
      (encoded : Redirect.encode web destination direction xml relayState
        (signing.map (.ofOptions crypto)) = .ok url) :
      Outbound crypto qx web m signing direction relayState .httpRedirect (.redirect url)
  | post {destination : Url} {xml : Octets} (enclosed : m.Enclosed crypto qx signing xml) :
      Outbound crypto qx web m signing direction relayState .httpPost
        (formOf direction destination xml relayState)

/-- What a receiver took off the wire: the text of the message, the relay state of
a query, and a signature that passes the check of the binding. -/
structure Received (crypto : Primitives) (qx : QuickXml) (m : Message)
    (signing : Option SignOptions) (binding : Binding) (relayState : Option Str)
    (decoded : DecodedWire) : Prop where
  front : binding = .httpRedirect ∨ binding = .httpPost
  relayState : decoded.relayState = if binding = .httpRedirect then relayState else none
  readIn : ∀ doc, Document.parse qx decoded.xml = .ok doc → m.ReadIn doc
  passes : ∀ doc, Document.parse qx decoded.xml = .ok doc → ∀ certs policy required,
    (required = true → signing.isSome = true) →
    (∀ opts ∈ signing, Trusts crypto certs policy opts) →
      ServiceProvider.verifyInboundSignature crypto doc decoded binding certs policy required =
        .ok ()

/-- What is taken off the wire of a message is the message. -/
theorem Outbound.received (correct : SignsCorrectly crypto) (inflates : Inflates web)
    (keeps : KeepsQuery web) {m : Message} {signing : Option SignOptions}
    {direction : RedirectDirection} {relayState : Option Str} {binding : Binding}
    {dispatch : Dispatch}
    (h : Outbound crypto qx web m signing direction relayState binding dispatch)
    {body : Octets} (brought : dispatch.body direction = some body) {decoded : DecodedWire}
    (hdecoded : decodeWire web body binding direction = .ok decoded) :
    Received crypto qx m signing binding relayState decoded := by
  cases h with
  | @redirect source destination url xml parsed quiet readIn encoded =>
      obtain ⟨query, hquery, rfl⟩ := Option.map_eq_some_iff.mp brought
      obtain ⟨text, htext, hdecoded⟩ := bind_eq_ok_iff.mp hdecoded
      obtain rfl := Option.some.inj
        ((Text.fromUtf8_asBytes query).symm.trans (okOr_eq_ok_iff.mp htext))
      obtain ⟨read, hread, hdecoded⟩ := bind_eq_ok_iff.mp hdecoded
      obtain rfl := Except.ok.inj hdecoded
      have hsent := sent_of_decode inflates keeps parsed quiet encoded hquery hread
      obtain ⟨hxml, hrelay⟩ : read.xml = xml ∧ read.relayState = relayState := by
        cases signing with
        | none =>
            obtain rfl := Except.ok.inj hsent
            exact ⟨rfl, rfl⟩
        | some opts =>
            obtain ⟨payload, -, hsent⟩ := bind_eq_ok_iff.mp hsent
            obtain ⟨signature, -, hsent⟩ := bind_eq_ok_iff.mp hsent
            obtain rfl := Except.ok.inj hsent
            exact ⟨rfl, rfl⟩
      refine ⟨.inl rfl, hrelay, fun doc hdoc => readIn doc (hxml ▸ hdoc), ?_⟩
      intro doc hdoc certs policy required hrequired trusts
      apply verifyRedirectSignature_ok_iff.mpr
      cases signing with
      | none =>
          obtain rfl := Except.ok.inj hsent
          refine .inr ⟨rfl, ?_⟩
          rw [← Bool.not_eq_true]
          exact fun h => Bool.false_ne_true (hrequired h)
      | some opts => exact .inl (detached_of_sent correct hsent (trusts opts rfl))
  | @post destination xml enclosed =>
      have hbody : body = Text.asBytes (base64Encode xml) := by
        cases direction <;> exact (Option.some.inj brought).symm
      rw [hbody] at hdecoded
      obtain rfl := decodePost_encoded hdecoded
      refine ⟨.inr rfl, rfl, enclosed.readIn, ?_⟩
      intro doc hdoc certs policy required hrequired trusts
      apply verifyEnveloped_ok_iff.mpr
      cases signing with
      | none =>
          refine .inr ⟨enclosed.unsigned doc hdoc rfl, ?_⟩
          rw [← Bool.not_eq_true]
          exact fun h => Bool.false_ne_true (hrequired h)
      | some opts => exact .inl (enclosed.verified doc hdoc opts rfl certs policy (trusts opts rfl))

/-! ## Dispatches -/

section

variable {m : Message} {sp : ServiceProvider} {xml : Octets} {signs : Bool}
  {direction : RedirectDirection} {relayState : Option Str} {dispatch : Dispatch}

/-- A service provider's redirect is encoded with its own signing. -/
theorem ServiceProvider.redirectDispatch_ok {destination : Url}
    (h : sp.redirectDispatch crypto web direction destination xml relayState signs =
      .ok dispatch) :
    ∃ url, dispatch = .redirect url ∧ Redirect.encode web destination direction xml relayState
      ((sp.signing signs).map (.ofOptions crypto)) = .ok url := by
  cases signs with
  | false =>
      obtain ⟨url, hurl, h⟩ := bind_eq_ok_iff.mp h
      exact ⟨url, (Except.ok.inj h).symm, hurl⟩
  | true =>
      obtain ⟨key, hkey, h⟩ := bind_eq_ok_iff.mp h
      obtain ⟨url, hurl, h⟩ := bind_eq_ok_iff.mp h
      have hsigning : sp.signing true = some (sp.signOptions key) := by
        rw [signing, if_pos rfl, okOr_eq_ok_iff.mp hkey]
        rfl
      rw [hsigning]
      exact ⟨url, (Except.ok.inj h).symm, hurl⟩

/-- A service provider's redirect. -/
theorem ServiceProvider.outbound_redirect (lawful : qx.Lawful) {source : Str} {destination : Url}
    (parsed : web.parseUrl source = some destination) (quiet : Quiet destination)
    (hxml : serializeElement m.element = .ok xml)
    (h : sp.redirectDispatch crypto web direction destination xml relayState signs =
      .ok dispatch) :
    Outbound crypto qx web m (sp.signing signs) direction relayState .httpRedirect dispatch := by
  obtain ⟨url, rfl, hurl⟩ := redirectDispatch_ok h
  exact .redirect parsed quiet
    (fun doc hdoc => Message.readIn_of_serializeElement lawful hxml hdoc) hurl

/-- A service provider's form. -/
theorem ServiceProvider.outbound_post (correct : SignsCorrectly crypto) (lawful : qx.Lawful)
    (hxml : serializeElement m.element = .ok xml) {posted : Octets}
    (h : sp.postXml crypto qx xml signs = .ok posted) (destination : Url) :
    Outbound crypto qx web m (sp.signing signs) direction relayState .httpPost
      (formOf direction destination posted relayState) :=
  .post (sp.enclosed_of_postXml correct lawful hxml h)

end

/-! ## The checks of the receivers -/

/-- The text of the coverage error does not decide the check. -/
theorem verifyEnveloped_reason {required : Bool} {reason other : Str} {doc : Document}
    {certs : List X509Certificate} {policy : PeerCryptoPolicy}
    (h : verifyEnveloped crypto required reason doc doc.root doc.root.id certs policy = .ok ()) :
    verifyEnveloped crypto required other doc doc.root doc.root.id certs policy = .ok () :=
  verifyEnveloped_ok_iff.mpr (verifyEnveloped_ok_iff.mp h)

/-- A query that was read names the message that its signature covers. -/
theorem ensureSignedQueryMatches_decoded {body : Octets} {direction : RedirectDirection}
    {decoded : DecodedWire}
    (h : decodeWire web body .httpRedirect direction = .ok decoded) {d : DetachedSignature}
    (hd : decoded.asDetachedSignature = some d) (hrequest : direction = .request) :
    IdentityProvider.ensureSignedQueryMatches web d.rawQueryString decoded.xml
      decoded.relayState = .ok () := by
  subst hrequest
  obtain ⟨query, -, h⟩ := bind_eq_ok_iff.mp h
  obtain ⟨read, hread, h⟩ := bind_eq_ok_iff.mp h
  obtain rfl := Except.ok.inj h
  obtain ⟨-, -, hsigned⟩ := asDetachedSignature_eq_some_iff.mp hd
  rw [IdentityProvider.ensureSignedQueryMatches,
    decodeWire_asBytes (decode_signedQueryString hread hsigned), ok_bind]
  exact (if_neg (not_not_intro rfl)).trans (if_neg (not_not_intro rfl))

end Saml
