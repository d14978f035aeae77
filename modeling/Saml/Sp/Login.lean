import Saml.Authn.Build
import Saml.Sp.Outbound
import Mathlib.Data.List.Destutter

/-!
# Starting a login

`sp::start_login`: the endpoint the response is to come to, the request, its
dispatch, and the tracker that pins what the response is checked against.
-/

namespace Saml

open Xml Crypto Dsig Redirect Authn Logout

variable (crypto : Primitives) (qx : QuickXml) (web : Web)

/-- `sort_unstable` and `dedup` on fingerprints. -/
def fingerprintSet (fingerprints : List Octets) : List Octets :=
  (fingerprints.mergeSort fun a b => !(b < a)).destutter (· ≠ ·)

/-- `certificate_fingerprint_set`. -/
def certificateFingerprintSet (certs : List X509Certificate) : List Octets :=
  fingerprintSet (certs.map (·.fingerprintSha256 crypto))

/-- The options of `start_login`. -/
structure StartLogin where
  relayState : Option Str
  binding : Binding
  forceAuthn : Bool
  isPassive : Bool
  requestedNameIdFormat : Option NameIdFormat
  requestedAuthnContext : Option RequestedAuthnContext
  acsIndex : Option UInt16
  acsUrl : Option Str
  responseBinding : Option SsoResponseBinding

/-- The result of `start_login`. -/
structure StartLoginResult where
  tracker : LoginTracker
  dispatch : Dispatch

/-- Whether two neighbours have the same index. -/
def adjacentIndices : List Endpoint → Bool
  | first :: second :: rest => first.index = second.index || adjacentIndices (second :: rest)
  | _ => false

/-- `validate_and_pin_artifact_resolution_services`: past the check every
endpoint has an index to sort by. -/
def validateAndPinArtifactResolutionServices (idp : IdpDescriptor) : Result (List Endpoint) :=
  if idp.artifactResolutionEndpoints.isEmpty then .error (.unsupportedByPeer .httpArtifact)
  else if idp.artifactResolutionEndpoints.any (fun e => e.binding ≠ .soap || e.index.isNone) then
    .error (.invalidConfiguration
      "ArtifactResolutionService endpoints must use SOAP and carry an index")
  else
    let endpoints := idp.artifactResolutionEndpoints.mergeSort fun a b =>
      (a.index.getD 0).toNat ≤ (b.index.getD 0).toNat
    if adjacentIndices endpoints then
      .error (.invalidConfiguration "ArtifactResolutionService endpoint indices must be unique")
    else .ok endpoints

namespace ServiceProvider

variable (sp : ServiceProvider)

/-- The assertion consumer endpoint a login nominates. -/
def resolveAcsEndpoint (opts : StartLogin) : Result SsoResponseEndpoint :=
  if opts.acsIndex.isSome ∧ opts.acsUrl.isSome then
    .error (.invalidConfiguration "StartLogin: acs_index and acs_url are mutually exclusive")
  else
    match opts.acsIndex, opts.acsUrl with
    | some idx, _ =>
        okOr (sp.config.acs.find? (·.index = some idx))
          (.invalidConfiguration "acs_index does not match any configured ACS endpoint")
    | none, some url =>
        okOr (sp.config.acs.find? (·.url = url)) (.unregisteredAcs sp.config.entityId)
    | none, none =>
        okOr ((sp.config.acs.find? (·.isDefault)).or sp.config.acs.head?)
          (.invalidConfiguration "no ACS endpoint configured (config validated empty list)")

/-- How the request nominates that endpoint. -/
def acsSelection (opts : StartLogin) : AcsRequest :=
  match opts.acsIndex, opts.acsUrl with
  | some idx, _ => .index idx
  | none, some url => .url url
  | none, none => .default

/-- The artifact resolution services pinned for a response binding. -/
def pinnedServices (idp : IdpDescriptor) (responseBinding : SsoResponseBinding) :
    Result (List Endpoint) :=
  if responseBinding = .httpArtifact then validateAndPinArtifactResolutionServices idp
  else .ok []

/-- The request `start_login` builds. -/
def authnRequest (url id : Str) (responseBinding : SsoResponseBinding) (opts : StartLogin)
    (issuedAt : SystemTime) : BuildAuthnRequest where
  id := id
  issueInstant := issuedAt
  issuerEntityId := sp.config.entityId
  destination := url
  forceAuthn := opts.forceAuthn
  isPassive := opts.isPassive
  acsSelection := acsSelection opts
  protocolBinding := some responseBinding
  requestedNameIdFormat := opts.requestedNameIdFormat
  requestedAuthnContext := opts.requestedAuthnContext

/-- The dispatch of a request over its binding. -/
def dispatchAuthnRequest (destination : Url) (xml : Octets) (opts : StartLogin) :
    Result Dispatch :=
  match opts.binding with
  | .httpRedirect =>
      sp.redirectDispatch crypto web .request destination xml opts.relayState
        sp.config.signAuthnRequests
  | .httpPost => do
      let xmlToPost ← sp.postXml crypto qx xml sp.config.signAuthnRequests
      .ok (Post.encodeRequest destination xmlToPost opts.relayState)
  | .httpArtifact => .error (.unsupportedByPeer .httpArtifact)
  | .soap => .error (.unsupportedByPeer .soap)

/-- `start_login`. -/
def startLogin (idp : IdpDescriptor) (opts : StartLogin) (ambient : Ambient) :
    Result StartLoginResult :=
  let fingerprints := certificateFingerprintSet crypto idp.signingCerts
  if fingerprints.isEmpty then .error .noPeerSigningCert
  else do
    let ssoEndpoint ← okOr (idp.ssoEndpoint opts.binding) (.unsupportedByPeer opts.binding)
    let destination ← okOr (web.parseUrl ssoEndpoint.url)
      (.invalidConfiguration "IdP SSO endpoint URL is not a valid URL")
    let requestId ← randomXmlId ambient.draw
    let acsEndpoint ← sp.resolveAcsEndpoint opts
    let responseBinding := opts.responseBinding.getD acsEndpoint.binding
    if responseBinding ≠ acsEndpoint.binding then
      .error (.illegalResponseBinding responseBinding.asBinding)
    else do
      let services ← pinnedServices idp responseBinding
      let unsignedXml ← buildAuthnRequestXml
        (sp.authnRequest ssoEndpoint.url requestId responseBinding opts ambient.now)
      let dispatch ← sp.dispatchAuthnRequest crypto qx web destination unsignedXml opts
      .ok {
        tracker := {
          requestId := requestId
          issuedAt := ambient.now
          idpEntityId := idp.entityId
          acsEndpoint := acsEndpoint
          requestedAuthnContext := opts.requestedAuthnContext
          requestedNameIdFormat := opts.requestedNameIdFormat
          idpSigningCertFingerprints := fingerprints
          idpArtifactResolutionServices := services }
        dispatch := dispatch }

end ServiceProvider

end Saml
