import Saml.Random
import Saml.Crypto.Keys

/-!
# Bindings

`binding`: endpoints, and the forms and redirects that carry a message. URL
handling belongs to third-party packages and is a parameter.
-/

namespace Saml

open Crypto

/-- A parsed URL, by its serialization. -/
structure Url where
  asStr : Str
deriving DecidableEq

/-- The third-party functions behind the bindings: `url::Url`, the SHA-1 digest
of an artifact's source identifier, and DEFLATE; `inflate` reads at most the
given number of octets. -/
structure Web where
  parseUrl : Str → Option Url
  appendPairs : Url → List (Str × Str) → Url
  sha1 : Octets → Octets
  deflate : Octets → Except Str Octets
  inflate : Nat → Octets → Option Octets

/-- A protocol endpoint. -/
structure Endpoint where
  url : Str
  binding : Binding
  index : Option UInt16
  isDefault : Bool
deriving DecidableEq

/-- The bindings with their URIs. -/
def bindingUris : List (Str × Binding) :=
  [("urn:oasis:names:tc:SAML:2.0:bindings:HTTP-Redirect", .httpRedirect),
    ("urn:oasis:names:tc:SAML:2.0:bindings:HTTP-POST", .httpPost),
    ("urn:oasis:names:tc:SAML:2.0:bindings:HTTP-Artifact", .httpArtifact),
    ("urn:oasis:names:tc:SAML:2.0:bindings:SOAP", .soap)]

/-- `Binding::from_uri`. -/
def Binding.fromUri (uri : Str) : Result Binding :=
  okOr (bindingUris.lookup uri) (.invalidConfiguration "unknown binding URI")

/-- The bindings a response can be delivered over. -/
inductive SsoResponseBinding where
  | httpPost
  | httpArtifact
deriving DecidableEq, Repr

/-- `SsoResponseBinding::as_binding`. -/
def SsoResponseBinding.asBinding : SsoResponseBinding → Binding
  | .httpPost => .httpPost
  | .httpArtifact => .httpArtifact

/-- `SsoResponseBinding::uri`. -/
def SsoResponseBinding.uri : SsoResponseBinding → Str
  | .httpPost => "urn:oasis:names:tc:SAML:2.0:bindings:HTTP-POST"
  | .httpArtifact => "urn:oasis:names:tc:SAML:2.0:bindings:HTTP-Artifact"

/-- `SsoResponseBinding::from_binding`. -/
def SsoResponseBinding.fromBinding : Binding → Option SsoResponseBinding
  | .httpPost => some .httpPost
  | .httpArtifact => some .httpArtifact
  | .httpRedirect => none
  | .soap => none

/-- An assertion consumer endpoint. -/
structure SsoResponseEndpoint where
  url : Str
  binding : SsoResponseBinding
  index : Option UInt16
  isDefault : Bool
deriving DecidableEq

namespace SsoResponseEndpoint

/-- `as_endpoint`. -/
def asEndpoint (e : SsoResponseEndpoint) : Endpoint :=
  ⟨e.url, e.binding.asBinding, e.index, e.isDefault⟩

/-- `try_from_endpoint`. -/
def tryFromEndpoint (e : Endpoint) : Result SsoResponseEndpoint := do
  let binding ← okOr (SsoResponseBinding.fromBinding e.binding)
    (.invalidConfiguration "ACS endpoint binding must be POST or Artifact")
  .ok ⟨e.url, binding, e.index, e.isDefault⟩

theorem tryFromEndpoint_asEndpoint (e : SsoResponseEndpoint) :
    tryFromEndpoint e.asEndpoint = .ok e := by
  rcases e with ⟨url, binding, index, isDefault⟩
  cases binding <;> rfl

end SsoResponseEndpoint

/-- A response on its way to the service provider. -/
inductive SsoResponseDispatch where
  | post (action : Url) (samlResponse : Str) (relayState : Option Str)
  | artifact (redirectTo : Url) (artifact responseXml : Str)
deriving DecidableEq

namespace SsoResponseDispatch

/-- The octets of the response the peer ends up with: the decoded form field,
or the message kept for the artifact. -/
def responseXml : SsoResponseDispatch → Option Octets
  | .post _ samlResponse _ => (base64Decode samlResponse).toOption
  | .artifact _ _ responseXml => some (Text.asBytes responseXml)

end SsoResponseDispatch

/-- `post::encode_sso_response`. -/
def encodeSsoResponse (destination : Url) (xml : Str) (relayState : Option Str) :
    SsoResponseDispatch :=
  .post destination (base64Encode (Text.asBytes xml)) relayState

/-- `make_artifact`: type code, endpoint index, source and message handle. -/
def makeArtifact (web : Web) (issuerEntityId : Str) (endpointIndex : UInt16) (handle : Draw 20) :
    Result Str := do
  let handle ← okOr handle
    (.invalidConfiguration "RNG failure generating artifact MessageHandle")
  let header : Octets := [0, 4, (endpointIndex >>> 8).toUInt8, endpointIndex.toUInt8]
  .ok (base64Encode (header ++ web.sha1 (Text.asBytes issuerEntityId) ++ handle.val))

/-- `build_artifact_redirect`. -/
def buildArtifactRedirect (web : Web) (spAcsUrl : Url) (issuerEntityId : Str)
    (endpointIndex : UInt16) (responseXml : Str) (relayState : Option Str) (handle : Draw 20) :
    Result SsoResponseDispatch := do
  let artifact ← makeArtifact web issuerEntityId endpointIndex handle
  let pairs : List (Str × Str) :=
    ("SAMLart", artifact) :: (relayState.map fun rs => (("RelayState" : Str), rs)).toList
  .ok (.artifact (web.appendPairs spAcsUrl pairs) artifact responseXml)

end Saml
