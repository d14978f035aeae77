import Saml.Logout.Request
import Saml.Sp

/-!
# Outbound messages of a service provider

The two placements of an outbound signature in `sp`: below the root of a
message that goes into a form, in the query of one that goes into a redirect.
-/

namespace Saml

open Xml Crypto Dsig Redirect Logout

variable (crypto : Primitives) (qx : QuickXml) (web : Web)

namespace ServiceProvider

variable (sp : ServiceProvider)

/-- `signing_key`. -/
def signingKey : Result KeyPair :=
  okOr sp.config.signingKey (.invalidConfiguration "signing requested but signing_key is None")

/-- The signing options of a protocol message. -/
def signOptions (key : KeyPair) : SignOptions where
  signingKey := key
  sigAlg := sp.config.outboundSignatureAlgorithm
  digestAlg := sp.config.outboundDigestAlgorithm
  c14nAlg := .exclusiveCanonical
  inclusiveNamespaces := []
  includeX509Cert := true

/-- `sign_protocol_xml`: parse the message again, sign its root, and write it. -/
def signProtocolXml (xml : Octets) : Result Octets := do
  let key ← sp.signingKey
  let doc ← Document.parse qx xml
  let signedRoot ← signElement crypto doc.root (sp.signOptions key)
  serializeElement signedRoot

/-- A redirect with the message, its query signed if it has to be. -/
def redirectDispatch (direction : RedirectDirection) (destination : Url) (xml : Octets)
    (relayState : Option Str) (sign : Bool) : Result Dispatch :=
  if sign then do
    let key ← sp.signingKey
    let sigAlg := sp.config.outboundSignatureAlgorithm
    let url ← encodeSigned web destination direction xml relayState sigAlg.uri fun bytes =>
      signDetachedQuery crypto bytes key sigAlg
    .ok (.redirect url)
  else do
    let url ← encodeUnsigned web destination direction xml relayState
    .ok (.redirect url)

/-- The message for a form, signed if it has to be. -/
def postXml (xml : Octets) (sign : Bool) : Result Octets :=
  if sign then sp.signProtocolXml crypto qx xml else .ok xml

end ServiceProvider

end Saml
