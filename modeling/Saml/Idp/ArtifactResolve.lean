import Saml.Artifact
import Saml.Dsig.Coverage
import Saml.Idp
import Saml.Replay.Cache

/-!
# Artifact resolution at the identity provider

`idp`: the consumption of a `samlp:ArtifactResolve` under the trust record of
the artifact it names. Every check comes before the one write to the replay
cache.
-/

namespace Saml

open Xml Crypto Dsig Artifact Replay Library

/-- The trust and correlation record of one issued artifact. -/
structure ArtifactResolveTransaction where
  artifact : Str
  spEntityId : Str
  spSigningCertFingerprints : List Octets

/-- The input of `consume_artifact_resolve`; the shared cache is passed beside
it. -/
structure ConsumeArtifactResolve where
  sp : SpDescriptor
  transaction : ArtifactResolveTransaction
  peerCryptoPolicy : Option PeerCryptoPolicy
  soapEnvelope : Octets
  expectedDestination : Str
  now : SystemTime
  clockSkew : Duration
  requireSigned : Bool

/-- `Duration::from_millis(1)`. -/
def MILLISECOND : Duration := ⟨1000000, by decide⟩

variable (web : Web) (crypto : Primitives) (qx : QuickXml)

namespace IdentityProvider

variable (idp : IdentityProvider)

/-- The receiving endpoint is the one the artifact selects. -/
def checkArtifactRoute (input : ConsumeArtifactResolve) : Result Unit := do
  let route ← parseType4Artifact input.transaction.artifact
  if route.sourceId ≠ sourceId web idp.config.entityId then
    .error (.malformedArtifact "artifact SourceID does not identify this IdP")
  else do
    let receivingArs ← okOr
      (idp.config.artifactResolution.find? (·.index = some route.endpointIndex))
      (.malformedArtifact "artifact endpoint index is not registered by this IdP")
    if receivingArs.binding ≠ .soap ∨ receivingArs.url ≠ input.expectedDestination then
      .error (.invalidConfiguration ("expected_destination is not the " ++
        "ArtifactResolutionService selected by the artifact"))
    else if input.clockSkew.nanos = 0 then
      .error (.invalidConfiguration "ArtifactResolve clock_skew must be greater than zero")
    else .ok ()

/-- The request belongs to the transaction and names the receiving endpoint. -/
def checkArtifactCorrelation (input : ConsumeArtifactResolve) (request : ArtifactResolveRequest)
    (root : Element) : Result Unit :=
  if request.issuer ≠ input.sp.entityId then
    .error (.issuerMismatch input.sp.entityId (some request.issuer))
  else if request.issuer ≠ input.transaction.spEntityId then
    .error (.issuerMismatch input.transaction.spEntityId (some request.issuer))
  else if request.artifact ≠ input.transaction.artifact then
    .error (.malformedArtifact "ArtifactResolve does not match the issued artifact transaction")
  else if root.attr none "Destination" ≠ some input.expectedDestination then
    .error .destinationMismatch
  else .ok ()

/-- The issue instant, when it lies in the window around the clock. -/
def freshIssueInstant (input : ConsumeArtifactResolve) (root : Element) : Result SystemTime := do
  let text ← okOr (root.attr none "IssueInstant")
    (.xmlParse "ArtifactResolve: missing @IssueInstant")
  let issueInstant ← Time.parseXsDatetime text
  let earliest ← okOr (input.now.checkedSub input.clockSkew)
    (.xmlParse "now - clock_skew overflows SystemTime")
  let latest ← okOr (input.now.checkedAdd input.clockSkew)
    (.xmlParse "now + clock_skew overflows SystemTime")
  if issueInstant < earliest ∨ issueInstant > latest then .error .expired else .ok issueInstant

/-- The certificates of the service provider that were pinned when the
transaction began. -/
def pinnedSpCerts (input : ConsumeArtifactResolve) : List X509Certificate :=
  input.sp.signingCerts.filter fun cert =>
    input.transaction.spSigningCertFingerprints.contains (cert.fingerprintSha256 crypto)

/-- A signature that is present verifies under a pinned certificate and covers
the root. -/
def verifyResolveSignature (input : ConsumeArtifactResolve) (document : Document) :
    Result Unit :=
  match document.root.childElement (some DS_NS) "Signature" with
  | some signature =>
      if (pinnedSpCerts crypto input).isEmpty then .error .artifactSpTrustRootMismatch
      else do
        let verified ← verifySignature crypto document signature (pinnedSpCerts crypto input)
          (idp.policyFor input.peerCryptoPolicy)
        if verified.signedElement ≠ document.root.id then
          .error (.signatureVerification
            "ArtifactResolve signature does not cover the message root")
        else .ok ()
  | none => if input.requireSigned then .error .signatureMissing else .ok ()

/-- The last instant of the tombstone of a request. -/
def resolveReplayExpiresAt (issueInstant : SystemTime) (clockSkew : Duration) :
    Result SystemTime :=
  okOr ((issueInstant.checkedAdd clockSkew).bind (·.checkedAdd MILLISECOND))
    (.xmlParse "ArtifactResolve replay expiry overflows SystemTime")

/-- The key of a request in the cache. -/
def resolveReplayId (input : ConsumeArtifactResolve) (request : ArtifactResolveRequest) : Str :=
  input.transaction.spEntityId ++ '\x00' :: request.requestId

/-- The checks of an unwrapped request: its issue instant and its tombstone. -/
def checkArtifactResolve (input : ConsumeArtifactResolve) (request : ArtifactResolveRequest)
    (document : Document) : Result (SystemTime × ReplayEntry) := do
  idp.checkArtifactRoute web input
  checkArtifactCorrelation input request document.root
  let issueInstant ← freshIssueInstant input document.root
  idp.verifyResolveSignature crypto input document
  let expiresAt ← resolveReplayExpiresAt issueInstant input.clockSkew
  .ok (issueInstant, .artifactResolve (resolveReplayId input request) expiresAt)

/-- The part of a consumption that comes before the cache: a function of the
input alone. -/
def validateArtifactResolve (input : ConsumeArtifactResolve) :
    Result (ArtifactResolveRequest × SystemTime × ReplayEntry) := do
  let (request, document) ← unwrapArtifactResolve qx input.soapEnvelope
  let (issueInstant, entry) ← idp.checkArtifactResolve web crypto input request document
  .ok (request, issueInstant, entry)

/-- `consume_artifact_resolve`: the cache after the call, and its result. -/
def consumeArtifactResolve (input : ConsumeArtifactResolve) (cache : InMemoryReplayCache) :
    InMemoryReplayCache × Result ArtifactResolveRequest :=
  match idp.validateArtifactResolve web crypto qx input with
  | .error err => (cache, .error err)
  | .ok (request, _, entry) =>
      match cache.checkAndInsert [entry] input.now with
      | (next, .ok true) => (next, .ok request)
      | (next, .ok false) => (next, .error .artifactResolveReplay)
      | (next, .error err) => (next, .error err)

end IdentityProvider

end Saml
