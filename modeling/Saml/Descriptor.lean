import Saml.Binding
import Saml.NameId
import Saml.Time

/-!
# Peer descriptors

`descriptor::IdpDescriptor` and `descriptor::SpDescriptor`: what is known of a
peer from its metadata.
-/

namespace Saml

open Crypto

/-- An entity identifier that `new` accepts in either role. -/
def ValidEntityId (entityId : Str) : Prop :=
  entityId ≠ [] ∧ ∀ c ∈ entityId, Text.isWhitespace c = false

theorem validEntityId_of_all {entityId : Str} (hne : entityId ≠ [])
    (h : entityId.all (!Text.isWhitespace ·) = true) : ValidEntityId entityId := by
  refine ⟨hne, ?_⟩
  intro c hc
  exact Bool.not_eq_true' _ ▸ List.all_eq_true.mp h c hc

/-- What is known of an identity provider. -/
structure IdpDescriptor where
  entityId : Str
  ssoEndpoints : List Endpoint
  sloEndpoints : List Endpoint
  artifactResolutionEndpoints : List Endpoint
  signingCerts : List X509Certificate
  encryptionCerts : List X509Certificate
  supportedNameIdFormats : List NameIdFormat
  wantAuthnRequestsSigned : Bool
  validUntil : Option SystemTime
  cacheDuration : Option Duration
deriving DecidableEq

namespace IdpDescriptor

/-- `sso_endpoint`: the first endpoint with the binding. -/
def ssoEndpoint (idp : IdpDescriptor) (binding : Binding) : Option Endpoint :=
  idp.ssoEndpoints.find? (·.binding = binding)

/-- `slo_endpoint`: the first endpoint with the binding. -/
def sloEndpoint (idp : IdpDescriptor) (binding : Binding) : Option Endpoint :=
  idp.sloEndpoints.find? (·.binding = binding)

end IdpDescriptor

/-- What is known of a service provider. -/
structure SpDescriptor where
  entityId : Str
  assertionConsumerServices : List SsoResponseEndpoint
  singleLogoutServices : List Endpoint
  signingCerts : List X509Certificate
  encryptionCerts : List X509Certificate
  supportedNameIdFormats : List NameIdFormat
  wantAssertionsSigned : Bool
  authnRequestsSigned : Bool
  validUntil : Option SystemTime
  cacheDuration : Option Duration
deriving DecidableEq

namespace SpDescriptor

/-- `encryption_cert`: the RSA certificate with the smallest fingerprint, the
first of them on a tie. -/
def encryptionCert (crypto : Primitives) (sp : SpDescriptor) : Option X509Certificate :=
  match sp.encryptionCerts.filter (·.publicKey.algorithmFamily = .rsa) with
  | [] => none
  | first :: rest => some <| rest.foldl (fun best cert =>
      if cert.fingerprintSha256 crypto < best.fingerprintSha256 crypto then cert else best) first

/-- `slo_endpoint`: the first endpoint with the binding. -/
def sloEndpoint (sp : SpDescriptor) (binding : Binding) : Option Endpoint :=
  sp.singleLogoutServices.find? (·.binding = binding)

/-- `acs_endpoint_by_index`. -/
def acsEndpointByIndex (sp : SpDescriptor) (index : UInt16) : Option SsoResponseEndpoint :=
  sp.assertionConsumerServices.find? (·.index = some index)

/-- `acs_endpoint_by_url`. -/
def acsEndpointByUrl (sp : SpDescriptor) (url : Str) : Option SsoResponseEndpoint :=
  sp.assertionConsumerServices.find? (·.url = url)

/-- `default_acs`: the first one flagged, or the first one. -/
def defaultAcs (sp : SpDescriptor) : Option SsoResponseEndpoint :=
  (sp.assertionConsumerServices.find? (·.isDefault)).or sp.assertionConsumerServices.head?

end SpDescriptor

end Saml
