import Saml.Idp.Authn
import Saml.Idp.SignedQuery
import Saml.Sp.Logout
import Saml.Dsig.Coverage
import Saml.Xml.WellIndexed

/-!
# Signatures a message carries

A message may carry a signature that nobody asked for. The entry points that
take messages off the wire verify it over the whole message, with two openings:
a query that has a signature and no algorithm counts as unsigned, and the reply
to a SOAP logout request may have a signature over another element.
-/

namespace Saml

open Xml Crypto Dsig Response Redirect Logout Soap

/-- A message as it arrives: a query string, or a document with its signature
inside. -/
inductive Arrival where
  | query (raw : Str)
  | enveloped (document : Document)

/-- How an entry point treats an enveloped signature: it has to cover the root,
or only to verify. -/
inductive Gate where
  | covering
  | verifying

namespace Arrival

/-- The message in a body. -/
inductive Received (qx : QuickXml) : Octets → Binding → Arrival → Prop
  | query {body : Octets} {raw : Str} (utf8 : Text.fromUtf8 body = some raw) :
      Received qx body .httpRedirect (.query raw)
  | post {body : Octets} {decoded : DecodedWire} {document : Document}
      (form : decodePost body = .ok decoded)
      (parse : Document.parse qx decoded.xml = .ok document) :
      Received qx body .httpPost (.enveloped document)
  | soap {body xml : Octets} {document : Document} (payload : payloadXml qx body = .ok xml)
      (parse : Document.parse qx xml = .ok document) :
      Received qx body .soap (.enveloped document)

/-- The message has signature material for its binding. -/
def CarriesSignature : Arrival → Prop
  | query raw => (parameter raw SIGNATURE).isSome = true
  | enveloped document => (document.root.childElement (some DS_NS) "Signature").isSome = true

/-- The `Signature` parameter verifies under a certificate over the message
parameters as they stand in the query. -/
def QueryVerified (crypto : Primitives) (direction : RedirectDirection) (raw : Str)
    (certs : List X509Certificate) (allowed : List SignatureAlgorithm) : Prop :=
  ∃ saml uri sig algorithm signature, ∃ cert ∈ certs,
    parameter raw direction.paramName = some saml ∧ parameter raw SIG_ALG = some uri ∧
    parameter raw SIGNATURE = some sig ∧ decodeSignature sig = .ok signature ∧
    (pctDecode uri >>= SignatureAlgorithm.fromUri) = .ok algorithm ∧ algorithm ∈ allowed ∧
    cert.publicKey.verifySignature crypto algorithm
      (Text.asBytes (reconstruct direction.paramName saml (parameter raw RELAY_STATE) (some uri)))
      signature = true

/-- The enveloped signature verifies under a certificate and covers the root. -/
def RootVerified (crypto : Primitives) (document : Document) (certs : List X509Certificate)
    (policy : PeerCryptoPolicy) : Prop :=
  ∃ sig, document.root.childElement (some DS_NS) "Signature" = some sig ∧
    ∃ coverage : Coverage crypto document sig certs policy,
      coverage.parsed.target = document.root.id

/-- The signature of the message verifies over the whole message. -/
def Verified (crypto : Primitives) (direction : RedirectDirection)
    (certs : List X509Certificate) (policy : PeerCryptoPolicy) : Arrival → Prop
  | query raw => QueryVerified crypto direction raw certs policy.allowedSignatureAlgorithms
  | enveloped document => RootVerified crypto document certs policy

/-- The one reference of the enveloped signature names the root. -/
def NamesRoot (document : Document) : Prop :=
  ∃ sig signedInfo reference,
    document.root.childElement (some DS_NS) "Signature" = some sig ∧
    sig.childElement (some DS_NS) "SignedInfo" = some signedInfo ∧
    signedInfo.allChildElements (some DS_NS) "Reference" = [reference] ∧
    resolveUri document ((reference.attr none "URI").getD []) = .ok document.root.id

/-- What a signature has to look like for an entry point to verify it over the
whole message. -/
def Meets : Gate → Arrival → Prop
  | _, query raw => (parameter raw SIG_ALG).isSome = true
  | .covering, enveloped _ => True
  | .verifying, enveloped document => NamesRoot document

end Arrival

variable (crypto : Primitives) (qx : QuickXml) (web : Web)

/-- The reply that a service provider gets to a SOAP logout request. -/
def ServiceProvider.Replied (sp : ServiceProvider) (http : HttpClient) (idp : IdpDescriptor)
    (opts : StartLogout) (ambient : Ambient) (reply : Octets) : Prop :=
  ∃ endpoint requestId request, idp.sloEndpoint .soap = some endpoint ∧
    randomXmlId ambient.draw = .ok requestId ∧
    sp.soapLogoutRequest crypto qx endpoint.url requestId opts ambient.now = .ok request ∧
    http request = .ok reply

/-- The reply that an identity provider gets to a SOAP logout request. -/
def IdentityProvider.Replied (idp : IdentityProvider) (http : HttpClient) (sp : SpDescriptor)
    (opts : StartLogout) (ambient : Ambient) (reply : Octets) : Prop :=
  ∃ endpoint requestId request, sp.sloEndpoint .soap = some endpoint ∧
    randomXmlId ambient.draw = .ok requestId ∧
    idp.soapLogoutRequest crypto qx endpoint.url requestId opts ambient.now = .ok request ∧
    http request = .ok reply

/-- A message accepted at an entry point, with its direction, the certificates
of the peer, the policy in force and the gate the signature passed. -/
inductive Accepted : Arrival → RedirectDirection → List X509Certificate → PeerCryptoPolicy →
    Gate → Prop
  | spLogoutRequest {m : Arrival} {sp : ServiceProvider} {idp : IdpDescriptor}
      {input : ConsumeLogoutRequest} {parsed : ParsedLogoutRequest}
      (received : m.Received qx input.body input.binding)
      (accepted : sp.consumeLogoutRequest crypto qx web idp input = .ok parsed) :
      Accepted m .request idp.signingCerts (sp.policyFor input.peerCryptoPolicy) .covering
  | spLogoutResponse {m : Arrival} {sp : ServiceProvider} {idp : IdpDescriptor}
      {input : ConsumeLogoutResponse} {outcome : LogoutOutcome}
      (received : m.Received qx input.body input.binding)
      (accepted : sp.consumeLogoutResponse crypto qx web idp input = .ok outcome) :
      Accepted m .response idp.signingCerts (sp.policyFor input.peerCryptoPolicy) .covering
  | spSoapLogout {m : Arrival} {sp : ServiceProvider} {http : HttpClient} {idp : IdpDescriptor}
      {policy : Option PeerCryptoPolicy} {opts : StartLogout} {ambient : Ambient}
      {reply : Octets} {outcome : LogoutOutcome}
      (replied : sp.Replied crypto qx http idp opts ambient reply)
      (received : m.Received qx reply .soap)
      (accepted : sp.sendSoapLogoutRequest crypto qx http idp policy opts ambient = .ok outcome) :
      Accepted m .response idp.signingCerts (sp.policyFor policy)
        (if sp.config.logoutWantSigned.responses then .covering else .verifying)
  | idpAuthnRequest {m : Arrival} {idp : IdentityProvider} {input : ConsumeAuthnRequestWire}
      {parsed : Authn.ParsedAuthnRequest} (received : m.Received qx input.wireBody input.binding)
      (accepted : idp.consumeAuthnRequestWire crypto qx web input = .ok parsed) :
      Accepted m .request input.sp.signingCerts (idp.policyFor input.peerCryptoPolicy) .covering
  | idpLogoutRequest {m : Arrival} {idp : IdentityProvider} {input : ConsumeLogoutRequestWire}
      {parsed : ParsedLogoutRequest} (received : m.Received qx input.wireBody input.binding)
      (accepted : idp.consumeLogoutRequestWire crypto qx web input = .ok parsed) :
      Accepted m .request input.sp.signingCerts (idp.policyFor input.peerCryptoPolicy) .covering
  | idpLogoutResponse {m : Arrival} {idp : IdentityProvider} {input : ConsumeLogoutResponseWire}
      {outcome : LogoutOutcome} (received : m.Received qx input.wireBody input.binding)
      (accepted : idp.consumeLogoutResponseWire crypto qx web input = .ok outcome) :
      Accepted m .response input.sp.signingCerts (idp.policyFor input.peerCryptoPolicy) .covering
  | idpSoapLogout {m : Arrival} {idp : IdentityProvider} {http : HttpClient} {sp : SpDescriptor}
      {policy : Option PeerCryptoPolicy} {opts : StartLogout} {ambient : Ambient}
      {replied : SystemTime} {reply : Octets} {outcome : LogoutOutcome}
      (received : m.Received qx reply .soap)
      (answered : idp.Replied crypto qx http sp opts ambient reply)
      (accepted : idp.sendSoapLogoutRequest crypto qx http sp policy opts ambient replied =
        .ok outcome) :
      Accepted m .response sp.signingCerts (idp.policyFor policy) .covering

namespace Arrival

variable {crypto qx web}

/-! ## The two placements -/

/-- The parts of a decoded query. -/
theorem decode_parts {raw : Str} {direction : RedirectDirection} {read : DecodedRedirect}
    (h : Redirect.decode web raw direction = .ok read) :
    ∃ saml, parameter raw direction.paramName = some saml ∧
      mapTranspose pctDecode (parameter raw SIG_ALG) = .ok read.sigAlg ∧
      mapTranspose decodeSignature (parameter raw SIGNATURE) = .ok read.signature ∧
      read.signedQueryString = (parameter raw SIGNATURE).map fun _ =>
        reconstruct direction.paramName saml (parameter raw RELAY_STATE)
          (parameter raw SIG_ALG) := by
  obtain ⟨saml, hsaml, h⟩ := bind_eq_ok_iff.mp h
  obtain ⟨xml, _, h⟩ := bind_eq_ok_iff.mp h
  obtain ⟨relayState, _, h⟩ := bind_eq_ok_iff.mp h
  obtain ⟨sigAlg, halg, h⟩ := bind_eq_ok_iff.mp h
  obtain ⟨signature, hsignature, h⟩ := bind_eq_ok_iff.mp h
  obtain rfl := Except.ok.inj h
  exact ⟨saml, okOr_eq_ok_iff.mp hsaml, halg, hsignature, rfl⟩

/-- A verified detached signature verifies under a certificate of the peer. -/
theorem verifyDetachedSignature_ok {octets signature : Octets} {alg : SignatureAlgorithm}
    {certs : List X509Certificate} {allowed : List SignatureAlgorithm} {result : VerifyMatch}
    (h : verifyDetachedSignature crypto octets signature alg certs allowed = .ok result) :
    alg ∈ allowed ∧
      ∃ cert ∈ certs, cert.publicKey.verifySignature crypto alg octets signature = true := by
  obtain ⟨hallowed, h⟩ := ite_error_eq_ok_iff.mp h
  refine ⟨not_not.mp hallowed, ?_⟩
  have hinline : KeyInfo.default.trustedInlineCerts crypto certs = [] := rfl
  rw [verify, if_neg hallowed, hinline, List.append_nil] at h
  cases hfind : certs.find? (tryVerify crypto alg octets signature) with
  | none =>
      rw [hfind] at h
      cases h
  | some cert =>
      have hverifies := List.find?_some hfind
      exact ⟨cert, List.mem_of_find?_eq_some hfind, hverifies⟩

/-- A query that passes the check with a signature in it is verified exactly
when it names an algorithm. -/
theorem queryVerified_iff {raw : Str} {direction : RedirectDirection} {read : DecodedRedirect}
    {required : Bool} {certs : List X509Certificate} {allowed : List SignatureAlgorithm}
    (hread : Redirect.decode web raw direction = .ok read)
    (hgate : verifyRedirectSignature crypto required
      (DecodedWire.ofRedirect read).asDetachedSignature certs allowed = .ok ())
    (hcarries : (parameter raw SIGNATURE).isSome = true) :
    QueryVerified crypto direction raw certs allowed ↔ (parameter raw SIG_ALG).isSome = true := by
  constructor
  · rintro ⟨saml, uri, _, _, _, _, _, _, huri, _⟩
    rw [huri]
    rfl
  · intro hnames
    obtain ⟨sig, hsig⟩ := Option.isSome_iff_exists.mp hcarries
    obtain ⟨uri, huri⟩ := Option.isSome_iff_exists.mp hnames
    obtain ⟨saml, hsaml, halg, hsignature, hsigned⟩ := decode_parts hread
    rw [huri] at halg hsigned
    rw [hsig] at hsignature hsigned
    obtain ⟨name, hname, halg⟩ := mapTranspose_some_ok halg
    obtain ⟨octets, hoctets, hsignature⟩ := mapTranspose_some_ok hsignature
    have hdetached : (DecodedWire.ofRedirect read).asDetachedSignature = some ⟨octets, name, _⟩ :=
      asDetachedSignature_eq_some_iff.mpr ⟨hsignature, halg, hsigned⟩
    rw [hdetached] at hgate
    obtain ⟨d, hd, algorithm, result, halgorithm, hverify⟩ | ⟨hnone, _⟩ :=
      verifyRedirectSignature_ok_iff.mp hgate
    · obtain rfl := Option.some.inj hd
      obtain ⟨hallowed, cert, hcert, hverifies⟩ := verifyDetachedSignature_ok hverify
      exact ⟨saml, uri, sig, algorithm, octets, cert, hcert, hsaml, huri, hsig, hoctets,
        bind_eq_ok_iff.mpr ⟨name, hname, halgorithm⟩, hallowed, hverifies⟩
    · cases hnone

/-- A document that passes the check with a signature in it is verified. -/
theorem rootVerified_of_gate {required : Bool} {reason : Str} {document : Document}
    {certs : List X509Certificate} {policy : PeerCryptoPolicy}
    (hgate : verifyEnveloped crypto required reason document document.root document.root.id certs
      policy = .ok ())
    (hcarries : (document.root.childElement (some DS_NS) "Signature").isSome = true) :
    RootVerified crypto document certs policy := by
  obtain ⟨sig, verified, hsig, hverify, hcovers⟩ | ⟨hnone, _⟩ := verifyEnveloped_ok_iff.mp hgate
  · obtain ⟨coverage, htarget, _⟩ := verifySignature_ok hverify
    exact ⟨sig, hsig, coverage, htarget.trans hcovers⟩
  · rw [hnone] at hcarries
    cases hcarries

/-- The message passed the signature check for its placement. -/
def Passed (crypto : Primitives) (web : Web) (direction : RedirectDirection)
    (certs : List X509Certificate) (policy : PeerCryptoPolicy) : Arrival → Prop
  | query raw => ∃ read required, Redirect.decode web raw direction = .ok read ∧
      verifyRedirectSignature crypto required (DecodedWire.ofRedirect read).asDetachedSignature
        certs policy.allowedSignatureAlgorithms = .ok ()
  | enveloped document => ∃ required reason,
      verifyEnveloped crypto required reason document document.root document.root.id certs
        policy = .ok ()

/-- Past the check a message with a signature is verified, unless it is a query
that names no algorithm. -/
theorem verified_iff_of_passed {m : Arrival} {direction : RedirectDirection}
    {certs : List X509Certificate} {policy : PeerCryptoPolicy}
    (h : m.Passed crypto web direction certs policy) (hcarries : m.CarriesSignature) :
    m.Verified crypto direction certs policy ↔ m.Meets .covering := by
  cases m with
  | query raw =>
      obtain ⟨read, required, hread, hgate⟩ := h
      exact queryVerified_iff hread hgate hcarries
  | enveloped document =>
      obtain ⟨required, reason, hgate⟩ := h
      exact iff_of_true (rootVerified_of_gate hgate hcarries) trivial

/-- A query that both decoders read is read alike. -/
theorem decodeRedirect_query {body : Octets} {raw : Str} {direction : RedirectDirection}
    {decoded : DecodedWire} (utf8 : Text.fromUtf8 body = some raw)
    (h : decodeRedirect web body direction = .ok decoded) :
    ∃ read, Redirect.decode web raw direction = .ok read ∧ decoded = .ofRedirect read := by
  obtain ⟨again, hagain, h⟩ := bind_eq_ok_iff.mp h
  obtain rfl := Option.some.inj (utf8.symm.trans (okOr_eq_ok_iff.mp hagain))
  obtain ⟨read, hread, h⟩ := bind_eq_ok_iff.mp h
  exact ⟨read, hread, (Except.ok.inj h).symm⟩

/-- A service provider's check of a message off the wire. -/
theorem passed_of_verifyInboundSignature {m : Arrival} {body : Octets} {binding : Binding}
    {direction : RedirectDirection} {decoded : DecodedWire} {document : Document}
    {certs : List X509Certificate} {policy : PeerCryptoPolicy} {required : Bool}
    (received : m.Received qx body binding)
    (hdecoded : ServiceProvider.decodeLogoutWire qx web body binding direction = .ok decoded)
    (hdocument : Document.parse qx decoded.xml = .ok document)
    (h : ServiceProvider.verifyInboundSignature crypto document decoded binding certs policy
      required = .ok ()) : m.Passed crypto web direction certs policy := by
  cases received with
  | query utf8 =>
      obtain ⟨read, hread, rfl⟩ := decodeRedirect_query utf8 hdecoded
      exact ⟨read, required, hread, h⟩
  | post form parse =>
      obtain rfl := Except.ok.inj (form.symm.trans hdecoded)
      obtain rfl := Except.ok.inj (parse.symm.trans hdocument)
      exact ⟨required, _, h⟩
  | soap payload parse =>
      obtain ⟨xml, hxml, hdecoded⟩ := bind_eq_ok_iff.mp hdecoded
      obtain rfl := Except.ok.inj (payload.symm.trans hxml)
      obtain rfl := Except.ok.inj hdecoded
      obtain rfl := Except.ok.inj (parse.symm.trans hdocument)
      exact ⟨required, _, h⟩

/-- An identity provider's check of a message off the wire. -/
theorem passed_of_verifyLogoutSignature {m : Arrival} {body : Octets} {binding : Binding}
    {direction : RedirectDirection} {decoded : DecodedWire} {document : Document}
    {certs : List X509Certificate} {policy : PeerCryptoPolicy} {required : Bool}
    (received : m.Received qx body binding)
    (hdecoded : decodeWire web body binding direction = .ok decoded)
    (hdocument : Document.parse qx decoded.xml = .ok document)
    (h : IdentityProvider.verifyLogoutSignature crypto required binding document document.root.id
      decoded.asDetachedSignature certs policy = .ok ()) :
    m.Passed crypto web direction certs policy := by
  cases received with
  | query utf8 =>
      obtain ⟨read, hread, rfl⟩ := decodeRedirect_query utf8 hdecoded
      exact ⟨read, required, hread, h⟩
  | post form parse =>
      obtain rfl := Except.ok.inj (form.symm.trans hdecoded)
      obtain rfl := Except.ok.inj (parse.symm.trans hdocument)
      obtain ⟨root, hroot, h⟩ := bind_eq_ok_iff.mp h
      rw [(Document.wellIndexed_parse parse).element_root] at hroot
      obtain rfl := Except.ok.inj hroot
      exact ⟨required, _, h⟩
  | soap payload parse => cases hdecoded

/-- An identity provider's check of an authentication request. -/
theorem passed_of_verifyAuthnRequestSignature {m : Arrival} {idp : IdentityProvider}
    {body : Octets} {decoded : DecodedWire} {document : Document} {input : ConsumeAuthnRequest}
    (received : m.Received qx body input.binding)
    (hdecoded : decodeWire web body input.binding .request = .ok decoded)
    (hdocument : Document.parse qx decoded.xml = .ok document)
    (hdetached : input.detachedSignature = decoded.asDetachedSignature)
    (h : idp.verifyAuthnRequestSignature crypto web document input = .ok ()) :
    m.Passed crypto web .request input.sp.signingCerts (idp.policyFor input.peerCryptoPolicy) := by
  cases hbinding : input.binding with
  | httpRedirect =>
      rw [hbinding] at received hdecoded
      simp only [IdentityProvider.verifyAuthnRequestSignature, hbinding] at h
      cases received with
      | query utf8 =>
          obtain ⟨read, hread, rfl⟩ := decodeRedirect_query utf8 hdecoded
          obtain ⟨_, hgate, _⟩ := bind_eq_ok_iff.mp h
          rw [hdetached] at hgate
          exact ⟨read, _, hread, hgate⟩
  | httpPost =>
      rw [hbinding] at received hdecoded
      simp only [IdentityProvider.verifyAuthnRequestSignature, hbinding] at h
      cases received with
      | post form parse =>
          obtain rfl := Except.ok.inj (form.symm.trans hdecoded)
          obtain rfl := Except.ok.inj (parse.symm.trans hdocument)
          exact ⟨_, _, h⟩
  | soap =>
      rw [hbinding] at hdecoded
      cases hdecoded
  | httpArtifact =>
      rw [hbinding] at hdecoded
      cases hdecoded

/-! ## The reply over SOAP -/

/-- A signature that verifies covers the root exactly when it names it. -/
theorem rootVerified_iff {document : Document} {sig : Element} {verified : VerifiedSignature}
    {certs : List X509Certificate} {policy : PeerCryptoPolicy}
    (hsig : document.root.childElement (some DS_NS) "Signature" = some sig)
    (h : verifySignature crypto document sig certs policy = .ok verified) :
    RootVerified crypto document certs policy ↔ NamesRoot document := by
  constructor
  · rintro ⟨sig, hsig, coverage, htarget⟩
    exact ⟨sig, coverage.signedInfo, coverage.reference, hsig, coverage.signedInfo_eq,
      coverage.single, htarget ▸ parseReference_target coverage.parse⟩
  · rintro ⟨again, signedInfo, reference, hagain, hinfo, hsingle, hroot⟩
    obtain rfl := Option.some.inj (hsig.symm.trans hagain)
    obtain ⟨coverage, _, _⟩ := verifySignature_ok h
    obtain rfl := Option.some.inj (hinfo.symm.trans coverage.signedInfo_eq)
    obtain rfl := (List.cons.inj (hsingle.symm.trans coverage.single)).1
    have htarget := (parseReference_target coverage.parse).symm.trans hroot
    exact ⟨sig, hsig, coverage, Except.ok.inj htarget⟩

/-- The gate for the reply: a required signature has to cover the root, another
one only to verify. -/
theorem verified_iff_of_verifySoapResponse {document : Document} {certs : List X509Certificate}
    {policy : PeerCryptoPolicy} {required : Bool}
    (h : ServiceProvider.verifySoapResponse crypto document certs policy required = .ok ())
    (hcarries : (document.root.childElement (some DS_NS) "Signature").isSome = true) :
    RootVerified crypto document certs policy ↔
      (enveloped document).Meets (if required then .covering else .verifying) := by
  obtain ⟨sig, hsig⟩ := Option.isSome_iff_exists.mp hcarries
  unfold ServiceProvider.verifySoapResponse at h
  rw [hsig] at h
  cases required with
  | true =>
      obtain ⟨_, ⟨rfl⟩, h⟩ := bind_eq_ok_iff.mp h
      obtain ⟨verified, hverify, h⟩ := bind_eq_ok_iff.mp h
      obtain ⟨hcovers, _⟩ := ite_error_eq_ok_iff.mp h
      obtain ⟨coverage, htarget, _⟩ := verifySignature_ok hverify
      exact iff_of_true ⟨sig, hsig, coverage, htarget.trans (not_not.mp hcovers)⟩ trivial
  | false =>
      obtain ⟨verified, hverify, _⟩ := bind_eq_ok_iff.mp h
      exact rootVerified_iff hsig hverify

/-- The transport hands on the reply it got. -/
theorem send_ok {http : HttpClient} {request : HttpRequest} {reply : Octets}
    (h : Soap.send http request = .ok reply) : http request = .ok reply := by
  unfold Soap.send at h
  cases hreply : http request with
  | error reason =>
      rw [hreply] at h
      cases h
  | ok body =>
      rw [hreply] at h
      exact congrArg Except.ok (Except.ok.inj h)

end Arrival

/-! ## The entry points -/

variable {crypto qx web}

open Arrival

namespace Sample

open Redirect.Transparent IdentityProvider.Sample

/-- A call of the wire entry point with a query. -/
def wire (query : Str) : ConsumeLogoutRequestWire where
  sp := sp
  peerCryptoPolicy := none
  wireBody := Text.asBytes query
  binding := .httpRedirect
  expectedDestination := destination
  now := Response.Sample.now
  clockSkew := .ofSecs 60 Duration.minute_lt

/-- A query whose message is a request to log the sample subject out is
accepted when its signature passes the check. -/
theorem wire_accepted (want : IdpLogoutWantSigned) {query : Str} {read : DecodedRedirect}
    {parsed : ParsedLogoutRequest}
    (hdecode : Redirect.decode storedWeb query .request = .ok read)
    (hread : IdentityProvider.readLogoutRequest Transparent.primitives Scanning.reader provider
      .strongDefaults read.xml = .ok parsed)
    (hissuer : parsed.issuer = "sp") (hdestination : parsed.destination = some destination)
    (hexpiry : parsed.notOnOrAfter = none)
    (hgate : verifyRedirectSignature Transparent.primitives want.requests
      (DecodedWire.ofRedirect read).asDetachedSignature sp.signingCerts
      PeerCryptoPolicy.strongDefaults.allowedSignatureAlgorithms = .ok ()) :
    Accepted Transparent.primitives Scanning.reader storedWeb (.query query) .request
      sp.signingCerts .strongDefaults .covering := by
  have hconsume : (idp want).consumeLogoutRequestWire Transparent.primitives Scanning.reader
      storedWeb (wire query) = .ok parsed := by
    refine bind_eq_ok_iff.mpr ⟨.ofRedirect read, decodeWire_asBytes hdecode, ?_⟩
    refine (IdentityProvider.consumeLogoutRequest_redirect_iff _ rfl).mpr ⟨hread, ?_, ?_, hgate, ?_⟩
    · exact checkIssuer_ok_iff.mpr hissuer
    · refine checkDestination_ok_iff.mpr ⟨⟨_, List.mem_singleton.mpr rfl, rfl⟩, fun url hurl => ?_⟩
      exact Option.some.inj (hurl.symm.trans hdestination)
    · rw [hexpiry]
      rfl
  have hreceived : (Arrival.query query).Received Scanning.reader (wire query).wireBody
      (wire query).binding := .query (Text.fromUtf8_asBytes query)
  exact .idpLogoutRequest hreceived hconsume

/-- A message with a `Signature` parameter behind it and no `SigAlg`. -/
theorem unnamedQuery_decodes {xml : Octets} (h : xml.length < 65536) : ∃ query read,
    Redirect.decode storedWeb query .request = .ok read ∧ read.xml = xml ∧
      (DecodedWire.ofRedirect read).asDetachedSignature = none ∧
      (parameter query SIGNATURE).isSome = true ∧ parameter query SIG_ALG = none := by
  let payload := base64Encode (storedBlock xml)
  let query := payloadQuery .request payload none ++ '&' :: pctPair SIGNATURE (base64Encode [])
  obtain ⟨hrelay, halg, hsig, hra, hrs, has⟩ := names_distinct .request
  have hquery (key : Str) : parameter query key =
      (if SIGNATURE = key then some (pctEncode (base64Encode [])) else none).or
        (if key = RELAY_STATE then none
          else if key = RedirectDirection.request.paramName then some (pctEncode payload)
          else none) := by
    rw [parameter_append, parameter_pctPair signature_clean, parameter_payloadQuery]
    rfl
  have hsaml : parameter query RedirectDirection.request.paramName = some (pctEncode payload) := by
    rw [hquery, if_neg hsig.symm, if_neg hrelay, if_pos rfl, Option.none_or]
  have hrelayState : parameter query RELAY_STATE = none := by
    rw [hquery, if_neg hrs.symm, if_pos rfl, Option.none_or]
  have hsigAlg : parameter query SIG_ALG = none := by
    rw [hquery, if_neg has.symm, if_neg hra.symm, if_neg halg.symm, Option.none_or]
  have hsignature : parameter query SIGNATURE = some (pctEncode (base64Encode [])) := by
    rw [hquery, if_pos rfl, Option.some_or]
  let signedQs := reconstruct RedirectDirection.request.paramName (pctEncode payload) none none
  have hdecode : Redirect.decode storedWeb query .request =
      .ok ⟨xml, none, some [], none, some signedQs⟩ := by
    unfold Redirect.decode
    simp only [hsaml, hrelayState, hsigAlg, hsignature, okOr_some]
    refine bind_eq_ok_iff.mpr ⟨_, rfl, bind_eq_ok_iff.mpr ⟨xml, ?_, ?_⟩⟩
    · exact decodePayload_encode inflates (h.le.trans (by decide)) (deflateAndBase64_stored h)
    · refine bind_eq_ok_iff.mpr ⟨none, rfl, bind_eq_ok_iff.mpr ⟨none, rfl, ?_⟩⟩
      refine bind_eq_ok_iff.mpr ⟨some [], ?_, rfl⟩
      exact mapTranspose_eq_ok_iff.mpr (.inr ⟨_, [], rfl, decodeSignature_encode [], rfl⟩)
  exact ⟨query, _, hdecode, rfl, rfl, by rw [hsignature]; rfl, hsigAlg⟩

end Sample

end Saml
