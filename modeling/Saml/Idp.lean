import Saml.Inbound
import Saml.Response.Issue
import Saml.Xmlenc.Encrypt

/-!
# Identity provider

The configuration of `idp` and the signing of its outbound messages.
-/

namespace Saml

open Xml Crypto Dsig Xmlenc Response

/-- The parts of a response an identity provider signs. -/
structure IdpAssertionSigning where
  signResponses : Bool
  signAssertions : Bool

/-- Outbound logout messages an identity provider signs. -/
structure IdpLogoutSigning where
  signRequests : Bool
  signResponses : Bool

/-- Inbound logout messages that have to be signed. -/
structure IdpLogoutWantSigned where
  requests : Bool
  responses : Bool

/-- The configuration of an identity provider. -/
structure IdentityProviderConfig where
  entityId : Str
  sso : List Endpoint
  slo : List Endpoint
  artifactResolution : List Endpoint
  supportedNameIdFormats : List NameIdFormat
  defaultNameIdFormat : NameIdFormat
  signingKey : KeyPair
  decryptionKey : Option KeyPair
  wantAuthnRequestsSigned : Bool
  assertionSigning : IdpAssertionSigning
  encryptAssertionsWhenPossible : Bool
  logoutSigning : IdpLogoutSigning
  logoutWantSigned : IdpLogoutWantSigned
  defaultSessionDuration : Duration
  maxAuthnRequestAge : Duration
  defaultPeerCryptoPolicy : PeerCryptoPolicy
  outboundSignatureAlgorithm : SignatureAlgorithm
  outboundDigestAlgorithm : DigestAlgorithm
  outboundC14n : C14nAlgorithm
  outboundDataEncryptionAlgorithm : DataEncryptionAlgorithm
  outboundKeyTransportAlgorithm : KeyTransportAlgorithm

/-- What `IdentityProvider::new` checks. -/
structure IdentityProviderConfig.Valid (config : IdentityProviderConfig) : Prop where
  entityId : ValidEntityId config.entityId
  sso : config.sso ≠ []
  artifactResolution : ∀ e ∈ config.artifactResolution, e.binding = .soap ∧ e.index.isSome = true
  certificate : config.artifactResolution ≠ [] → config.signingKey.cert.isSome = true
  indices : (config.artifactResolution.filterMap Endpoint.index).Nodup

/-- An identity provider: a configuration that `new` accepted. -/
structure IdentityProvider where
  config : IdentityProviderConfig
  valid : config.Valid

variable (crypto : Primitives)

namespace IdentityProvider

variable (idp : IdentityProvider)

/-- The signing options of an outbound message. -/
def signOptions : SignOptions where
  signingKey := idp.config.signingKey
  sigAlg := idp.config.outboundSignatureAlgorithm
  digestAlg := idp.config.outboundDigestAlgorithm
  c14nAlg := idp.config.outboundC14n
  inclusiveNamespaces := []
  includeX509Cert := true

/-- `maybe_sign_outbound`. -/
def maybeSignOutbound (element : Element) (shouldSign : Bool) : Result Element :=
  maybeSign crypto element shouldSign idp.signOptions

/-- The policy in force: the peer's own, or the default one. -/
def policyFor (peerCryptoPolicy : Option PeerCryptoPolicy) : PeerCryptoPolicy :=
  peerCryptoPolicy.getD idp.config.defaultPeerCryptoPolicy

/-- `verify_redirect_request_signature`. -/
def verifyRedirectRequestSignature (required : Bool) (detached : Option DetachedSignature)
    (candidateCerts : List X509Certificate) (allowedAlgorithms : List SignatureAlgorithm) :
    Result Unit :=
  verifyRedirectSignature crypto required detached candidateCerts allowedAlgorithms

/-- `verify_envelope_signature`. -/
def verifyEnvelopeSignature (required : Bool) (doc : Document) (root : Element)
    (rootId : ElementId) (candidateCerts : List X509Certificate) (policy : PeerCryptoPolicy) :
    Result Unit :=
  verifyEnveloped crypto required
    "signature covers a different element than the message root (XSW)" doc root rootId
    candidateCerts policy

end IdentityProvider

/-! ## A sample identity provider -/

namespace Sample

/-- Endpoints for one binding each. -/
def endpoint (url : Str) (binding : Binding) : Endpoint := ⟨url, binding, none, false⟩

/-- An identity provider with the key of the sample exchange. -/
def idpConfig (want : IdpLogoutWantSigned) : IdentityProviderConfig where
  entityId := "idp"
  sso := [endpoint "https://idp.example/sso" .httpRedirect]
  slo := [endpoint "https://idp.example/slo" .httpRedirect]
  artifactResolution := []
  supportedNameIdFormats := []
  defaultNameIdFormat := .transient
  signingKey := Response.Sample.key
  decryptionKey := none
  wantAuthnRequestsSigned := false
  assertionSigning := ⟨false, true⟩
  encryptAssertionsWhenPossible := false
  logoutSigning := ⟨true, true⟩
  logoutWantSigned := want
  defaultSessionDuration := .ofSecs 3600 Duration.hour_lt
  maxAuthnRequestAge := .ofSecs 300 Duration.fiveMinutes_lt
  defaultPeerCryptoPolicy := .strongDefaults
  outboundSignatureAlgorithm := .rsaSha256
  outboundDigestAlgorithm := .sha256
  outboundC14n := .exclusiveCanonical
  outboundDataEncryptionAlgorithm := .aes256Gcm
  outboundKeyTransportAlgorithm := .rsaOaep

/-- The identity provider with some requirements on inbound logout messages. -/
def idp (want : IdpLogoutWantSigned) : IdentityProvider where
  config := idpConfig want
  valid := {
    entityId := validEntityId_of_all (by decide : ("idp" : Str) ≠ [])
      (by decide : ("idp" : Str).all (!Text.isWhitespace ·) = true)
    sso := List.cons_ne_nil _ _
    artifactResolution := fun _ h => absurd h List.not_mem_nil
    certificate := fun h => absurd rfl h
    indices := List.nodup_nil }

/-- The peer of the sample exchange with one logout endpoint. -/
def sp : SpDescriptor :=
  { Response.Sample.sp with
    singleLogoutServices := [endpoint "https://sp.example/slo" .httpRedirect] }

/-- A message signed into a query with the key of both parties is read back with
a signature that verifies. -/
theorem signedQuery_decodes (direction : Redirect.RedirectDirection) {xml : Octets}
    (h : xml.length < 65536) : ∃ query decoded d,
      decodeWire Redirect.Transparent.storedWeb (Text.asBytes query) .httpRedirect direction =
        .ok decoded ∧
      decoded.xml = xml ∧ decoded.asDetachedSignature = some d ∧
      DetachedVerified Transparent.primitives d sp.signingCerts
        PeerCryptoPolicy.strongDefaults.allowedSignatureAlgorithms := by
  let sign (octets : Octets) : Result Octets :=
    signDetachedQuery Transparent.primitives octets Response.Sample.key .rsaSha256
  obtain ⟨query, hquery⟩ : ∃ query, Redirect.signedQueryOf Redirect.Transparent.storedWeb direction
      xml none SignatureAlgorithm.rsaSha256.uri sign = .ok query :=
    ⟨_, bind_eq_ok_iff.mpr ⟨_, Redirect.Transparent.deflateAndBase64_stored h, rfl⟩⟩
  obtain ⟨signedQs, signature, hsign, hdecode⟩ : ∃ signedQs signature,
      sign (Text.asBytes signedQs) = .ok signature ∧
      Redirect.decode Redirect.Transparent.storedWeb (Redirect.withLead none query) direction =
        .ok ⟨_, none, some signature, some _, some signedQs⟩ :=
    Redirect.decode_signed Redirect.Transparent.inflates (h.le.trans (by decide)) hquery
      fun _ => rfl
  refine ⟨query, _, ⟨signature, _, signedQs⟩, decodeWire_asBytes hdecode, rfl, rfl, ?_⟩
  exact detachedVerified_of_signed Transparent.signsCorrectly (List.mem_singleton.mpr rfl) rfl
    (by decide) hsign

end Sample

end Saml
