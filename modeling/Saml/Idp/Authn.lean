import Saml.Authn.Request
import Saml.Idp

/-!
# Authentication requests at the identity provider

`idp`: the consumption of an `AuthnRequest`, bound to the query under its
detached signature, and its wire entry point.
-/

namespace Saml

open Xml Crypto Dsig Authn

/-- The inputs of `consume_authn_request`. -/
structure ConsumeAuthnRequest where
  sp : SpDescriptor
  peerCryptoPolicy : Option PeerCryptoPolicy
  maxAuthnRequestAge : Option Duration
  samlRequest : Octets
  binding : Binding
  relayState : Option Str
  detachedSignature : Option DetachedSignature
  expectedDestination : Str
  now : SystemTime
  clockSkew : Duration

/-- The inputs of `consume_authn_request_wire`. -/
structure ConsumeAuthnRequestWire where
  sp : SpDescriptor
  peerCryptoPolicy : Option PeerCryptoPolicy
  maxAuthnRequestAge : Option Duration
  wireBody : Octets
  binding : Binding
  relayState : Option Str
  expectedDestination : Str
  now : SystemTime
  clockSkew : Duration

variable (crypto : Primitives) (qx : QuickXml) (web : Web)

namespace IdentityProvider

/-- `ensure_signed_query_matches`. -/
def ensureSignedQueryMatches (rawQueryString : Str) (samlRequest : Octets)
    (relayState : Option Str) : Result Unit := do
  let decoded ← decodeWire web (Text.asBytes rawQueryString) .httpRedirect .request
  if decoded.xml ≠ samlRequest then
    .error (.signatureVerification
      "saml_request is not the XML covered by the detached Redirect signature")
  else if decoded.relayState ≠ relayState then
    .error (.signatureVerification
      "relay_state is not the value covered by the detached Redirect signature")
  else .ok ()

variable (idp : IdentityProvider)

/-- The signature legs of `consume_authn_request`. -/
def verifyAuthnRequestSignature (doc : Document) (input : ConsumeAuthnRequest) : Result Unit :=
  let policy := idp.policyFor input.peerCryptoPolicy
  let required := idp.config.wantAuthnRequestsSigned || input.sp.authnRequestsSigned
  match input.binding with
  | .httpRedirect => do
      verifyRedirectRequestSignature crypto required input.detachedSignature
        input.sp.signingCerts policy.allowedSignatureAlgorithms
      match input.detachedSignature with
      | some detached =>
          ensureSignedQueryMatches web detached.rawQueryString input.samlRequest input.relayState
      | none => .ok ()
  | .httpPost | .soap =>
      verifyEnvelopeSignature crypto required doc doc.root doc.root.id input.sp.signingCerts policy
  | .httpArtifact => .error (.unsupportedByPeer .httpArtifact)

/-- The freshness legs of `consume_authn_request`, on the distance between the
issue instant and the clock. -/
def checkFreshness (issueInstant now : SystemTime) (maxAge clockSkew : Duration) : Result Unit :=
  let ahead := (issueInstant.nanos - now.nanos).toNat
  let age := (now.nanos - issueInstant.nanos).toNat
  let limit := min (maxAge.nanos + clockSkew.nanos) (2 ^ 64 * NANOS - 1)
  if ahead > clockSkew.nanos then .error (.authnRequestNotYetValid ahead clockSkew.nanos)
  else if age > limit then .error (.staleAuthnRequest age limit)
  else .ok ()

/-- `consume_authn_request`. -/
def consumeAuthnRequest (input : ConsumeAuthnRequest) : Result ParsedAuthnRequest := do
  let doc ← Document.parse qx input.samlRequest
  let raw ← parseAuthnRequest doc
  let parsed ← validateAuthnRequest crypto raw input.sp input.expectedDestination
    (idp.config.sso.map Endpoint.url)
  idp.verifyAuthnRequestSignature crypto web doc input
  checkFreshness parsed.issueInstant input.now
    (input.maxAuthnRequestAge.getD idp.config.maxAuthnRequestAge) input.clockSkew
  .ok (parsed.sealRelayState input.relayState)

/-- The relay state of a wire message: the query's own over HTTP-Redirect, which
a supplied one may not contradict. -/
def resolveRelayState (binding : Binding) (supplied decoded : Option Str) :
    Result (Option Str) :=
  if binding = .httpRedirect then
    if supplied.isSome ∧ supplied ≠ decoded then
      .error (.invalidConfiguration ("Redirect RelayState is covered by the signature; " ++
        "the supplied value disagrees with the decoded one"))
    else .ok decoded
  else .ok (supplied.or decoded)

/-- `consume_authn_request_wire`. -/
def consumeAuthnRequestWire (input : ConsumeAuthnRequestWire) : Result ParsedAuthnRequest := do
  let decoded ← decodeWire web input.wireBody input.binding .request
  let relayState ← resolveRelayState input.binding input.relayState decoded.relayState
  idp.consumeAuthnRequest crypto qx web {
    sp := input.sp
    peerCryptoPolicy := input.peerCryptoPolicy
    maxAuthnRequestAge := input.maxAuthnRequestAge
    samlRequest := decoded.xml
    binding := input.binding
    relayState := relayState
    detachedSignature := decoded.asDetachedSignature
    expectedDestination := input.expectedDestination
    now := input.now
    clockSkew := input.clockSkew }

end IdentityProvider

end Saml
