import Saml.Logout.Request

/-!
# Building authentication requests

`authn::request_build`: the `samlp:AuthnRequest` a service provider sends.
-/

namespace Saml.Authn

open Xml Response Time

/-- How a request nominates its assertion consumer service. -/
inductive AcsRequest where
  | default
  | index (index : UInt16)
  | url (url : Str)

/-- The input of `build_authn_request_element`. -/
structure BuildAuthnRequest where
  id : Str
  issueInstant : SystemTime
  issuerEntityId : Str
  destination : Str
  forceAuthn : Bool
  isPassive : Bool
  acsSelection : AcsRequest
  protocolBinding : Option SsoResponseBinding
  requestedNameIdFormat : Option NameIdFormat
  requestedAuthnContext : Option RequestedAuthnContext

/-- `comparison_attr`. -/
def comparisonAttr : AuthnContextComparison → Str
  | .exact => "exact"
  | .minimum => "minimum"
  | .maximum => "maximum"
  | .better => "better"

/-- The attribute that nominates the assertion consumer service, if any. -/
def withAcsSelection (e : Element) : AcsRequest → Element
  | .default => e
  | .index n => e.withAttribute (plain "AssertionConsumerServiceIndex") (Number.decimal n.toNat)
  | .url u => e.withAttribute (plain "AssertionConsumerServiceURL") u

/-- A flag that is written only when it is set. -/
def withFlag (e : Element) (loc : Str) (flag : Bool) : Element :=
  if flag then e.withAttribute (plain loc) "true" else e

/-- The `samlp:NameIDPolicy`; a new identifier may be minted for the formats
that need one. -/
def nameIdPolicyElement (format : NameIdFormat) : Element :=
  let e := (samlp "NameIDPolicy").withAttribute (plain "Format") format.asUri
  withFlag e "AllowCreate" (format = .persistent || format = .emailAddress)

/-- The `samlp:RequestedAuthnContext`. -/
def requestedAuthnContextElement (rac : RequestedAuthnContext) : Element :=
  withElements ((samlp "RequestedAuthnContext").withAttribute (plain "Comparison")
      (comparisonAttr rac.comparison))
    (rac.classRefs.map fun c => (saml "AuthnContextClassRef").withText c.asUri)

/-- `build_authn_request_element`. -/
def buildAuthnRequestElement (input : BuildAuthnRequest) : Result Element := do
  let issueInstant ← formatXsDatetime input.issueInstant
  let e := (Logout.messageElement "AuthnRequest" input.id issueInstant).withAttribute
    (plain "Destination") input.destination
  let e := withAcsSelection e input.acsSelection
  let e := withOptionalAttribute e "ProtocolBinding"
    (input.protocolBinding.map SsoResponseBinding.uri)
  let e := withFlag (withFlag e "ForceAuthn" input.forceAuthn) "IsPassive" input.isPassive
  .ok (withElements e
    ([issuerElement input.issuerEntityId] ++
      (input.requestedNameIdFormat.map nameIdPolicyElement).toList ++
      (input.requestedAuthnContext.map requestedAuthnContextElement).toList))

/-- `build_authn_request_xml`. -/
def buildAuthnRequestXml (input : BuildAuthnRequest) : Result Octets := do
  let element ← buildAuthnRequestElement input
  Logout.serializeElement element

end Saml.Authn
