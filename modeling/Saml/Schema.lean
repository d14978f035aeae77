import Saml.Xml.Tree

/-!
# Message shapes

`schema`: the structural gate that runs on every parsed message. A shape names
an element, its attributes and the order of its children. The slots refer to
further shapes, and the walker follows the references, also round a cycle.
-/

namespace Saml.Schema

open Xml

/-- Whether an attribute has to be there. -/
inductive AttrPresence where
  | required
  | optional
deriving DecidableEq

/-- An attribute: its expanded name and its presence rule. -/
structure AttrShape where
  qname : QName
  presence : AttrPresence
deriving DecidableEq

/-- A child slot, over the type of references to shapes. -/
structure ChildShapeOf (σ : Type) where
  qname : QName
  minOccurs : UInt32
  shape : Option σ

/-- How a parent constrains its children. -/
inductive ChildModelOf (σ : Type) where
  | sequence (slots : List (ChildShapeOf σ))
  | choice (slots : List (ChildShapeOf σ))
  | any

/-- The full shape of an element: its name, its attributes, its children, and
the namespaces admitted besides them. -/
structure ElementShapeOf (σ : Type) where
  qname : QName
  attrs : List AttrShape
  children : ChildModelOf σ
  wildcardNamespaces : List Str

/-- A shape that holds the shapes of its slots. -/
inductive ElementShape where
  | mk (shape : ElementShapeOf ElementShape)

abbrev ChildShape := ChildShapeOf ElementShape
abbrev ChildModel := ChildModelOf ElementShape

/-- Follow a reference of the catalog. -/
def ElementShape.deref : ElementShape → ElementShapeOf ElementShape
  | .mk shape => shape

/-- A name in the assertion namespace. -/
def saml (loc : Str) : QName := ⟨some SAML_NS, loc⟩

/-- A name in the protocol namespace. -/
def samlp (loc : Str) : QName := ⟨some SAMLP_NS, loc⟩

/-- Unqualified attributes, the required ones first. -/
def unqualifiedAttrs (requiredAttrs optionalAttrs : List Str) : List AttrShape :=
  requiredAttrs.map (⟨⟨none, ·⟩, .required⟩) ++ optionalAttrs.map (⟨⟨none, ·⟩, .optional⟩)

/-- A shape of the catalog. -/
def shapeOf (qname : QName) (requiredAttrs optionalAttrs : List Str) (children : ChildModel)
    (wildcardNamespaces : List Str) : ElementShape :=
  .mk ⟨qname, unqualifiedAttrs requiredAttrs optionalAttrs, children, wildcardNamespaces⟩

/-- A slot for a shaped child. -/
def slot (shape : ElementShape) (minOccurs : UInt32) : ChildShape :=
  ⟨shape.deref.qname, minOccurs, some shape⟩

/-- An optional slot whose content is not looked into. -/
def opaqueSlot (qname : QName) : ChildShape := ⟨qname, 0, none⟩

/-- A shape without required attributes whose content is free. -/
def freeShape (qname : QName) (optionalAttrs : List Str) : ElementShape :=
  shapeOf qname [] optionalAttrs .any []

/-! ## Catalog -/

/-- The attributes of `NameIDType`. -/
def NAME_ID_ATTRS : List Str := ["Format", "NameQualifier", "SPNameQualifier", "SPProvidedID"]

def SHAPE_ISSUER : ElementShape := freeShape (saml "Issuer") NAME_ID_ATTRS
def SHAPE_NAMEID : ElementShape := freeShape (saml "NameID") NAME_ID_ATTRS

def SHAPE_STATUS_CODE : ElementShape :=
  shapeOf (samlp "StatusCode") ["Value"] [] (.sequence [opaqueSlot (samlp "StatusCode")]) []

def SHAPE_STATUS_MESSAGE : ElementShape := freeShape (samlp "StatusMessage") []
def SHAPE_STATUS_DETAIL : ElementShape := freeShape (samlp "StatusDetail") []

def SHAPE_STATUS : ElementShape :=
  shapeOf (samlp "Status") [] []
    (.sequence [slot SHAPE_STATUS_CODE 1, slot SHAPE_STATUS_MESSAGE 0, slot SHAPE_STATUS_DETAIL 0])
    []

def SHAPE_AUDIENCE : ElementShape := freeShape (saml "Audience") []

def SHAPE_AUDIENCE_RESTRICTION : ElementShape :=
  shapeOf (saml "AudienceRestriction") [] [] (.sequence [slot SHAPE_AUDIENCE 1]) []

def SHAPE_ONE_TIME_USE : ElementShape := shapeOf (saml "OneTimeUse") [] [] (.sequence []) []

def SHAPE_PROXY_RESTRICTION : ElementShape :=
  shapeOf (saml "ProxyRestriction") [] ["Count"] (.sequence [slot SHAPE_AUDIENCE 0]) []

def SHAPE_CONDITIONS : ElementShape :=
  shapeOf (saml "Conditions") [] ["NotBefore", "NotOnOrAfter"]
    (.sequence
      [slot SHAPE_AUDIENCE_RESTRICTION 0, slot SHAPE_ONE_TIME_USE 0,
        slot SHAPE_PROXY_RESTRICTION 0])
    [SAML_NS]

def SHAPE_SUBJECT_CONFIRMATION_DATA : ElementShape :=
  freeShape (saml "SubjectConfirmationData")
    ["NotBefore", "NotOnOrAfter", "Recipient", "InResponseTo", "Address"]

def SHAPE_SUBJECT_CONFIRMATION : ElementShape :=
  shapeOf (saml "SubjectConfirmation") ["Method"] []
    (.sequence [slot SHAPE_NAMEID 0, slot SHAPE_SUBJECT_CONFIRMATION_DATA 0]) []

def SHAPE_SUBJECT : ElementShape :=
  shapeOf (saml "Subject") [] []
    (.sequence [slot SHAPE_NAMEID 0, slot SHAPE_SUBJECT_CONFIRMATION 0]) [SAML_NS]

def SHAPE_AUTHN_CONTEXT_CLASS_REF : ElementShape := freeShape (saml "AuthnContextClassRef") []
def SHAPE_AUTHN_CONTEXT_DECL_REF : ElementShape := freeShape (saml "AuthnContextDeclRef") []
def SHAPE_AUTHN_CONTEXT_DECL : ElementShape := freeShape (saml "AuthnContextDecl") []
def SHAPE_AUTHENTICATING_AUTHORITY : ElementShape :=
  freeShape (saml "AuthenticatingAuthority") []

def SHAPE_AUTHN_CONTEXT : ElementShape :=
  shapeOf (saml "AuthnContext") [] []
    (.sequence
      [slot SHAPE_AUTHN_CONTEXT_CLASS_REF 0, slot SHAPE_AUTHN_CONTEXT_DECL 0,
        slot SHAPE_AUTHN_CONTEXT_DECL_REF 0, slot SHAPE_AUTHENTICATING_AUTHORITY 0])
    []

def SHAPE_SUBJECT_LOCALITY : ElementShape :=
  shapeOf (saml "SubjectLocality") [] ["Address", "DNSName"] (.sequence []) []

def SHAPE_AUTHN_STATEMENT : ElementShape :=
  shapeOf (saml "AuthnStatement") ["AuthnInstant"] ["SessionIndex", "SessionNotOnOrAfter"]
    (.sequence [slot SHAPE_SUBJECT_LOCALITY 0, slot SHAPE_AUTHN_CONTEXT 1]) []

def SHAPE_ATTRIBUTE_VALUE : ElementShape := freeShape (saml "AttributeValue") []

def SHAPE_ATTRIBUTE : ElementShape :=
  shapeOf (saml "Attribute") ["Name"] ["NameFormat", "FriendlyName"]
    (.sequence [slot SHAPE_ATTRIBUTE_VALUE 0]) []

def SHAPE_ATTRIBUTE_STATEMENT : ElementShape :=
  shapeOf (saml "AttributeStatement") [] []
    (.sequence [slot SHAPE_ATTRIBUTE 1, opaqueSlot (saml "EncryptedAttribute")]) []

/-- The attributes every signed message requires. -/
def MESSAGE_ATTRS : List Str := ["ID", "Version", "IssueInstant"]

/-- The slot of an enveloped signature. -/
def signatureSlot : ChildShape := opaqueSlot ⟨some DS_NS, "Signature"⟩

def SHAPE_ASSERTION : ElementShape :=
  shapeOf (saml "Assertion") MESSAGE_ATTRS []
    (.sequence
      [slot SHAPE_ISSUER 1, signatureSlot, slot SHAPE_SUBJECT 0, slot SHAPE_CONDITIONS 0,
        opaqueSlot (saml "Advice"), slot SHAPE_AUTHN_STATEMENT 0,
        slot SHAPE_ATTRIBUTE_STATEMENT 0])
    [SAML_NS]

def SHAPE_EXTENSIONS : ElementShape := freeShape (samlp "Extensions") []

def SHAPE_RESPONSE : ElementShape :=
  shapeOf (samlp "Response") MESSAGE_ATTRS ["InResponseTo", "Destination", "Consent"]
    (.sequence
      [slot SHAPE_ISSUER 0, signatureSlot, slot SHAPE_EXTENSIONS 0, slot SHAPE_STATUS 1,
        slot SHAPE_ASSERTION 0, opaqueSlot (saml "EncryptedAssertion")])
    []

def SHAPE_LOGOUT_RESPONSE : ElementShape :=
  shapeOf (samlp "LogoutResponse") MESSAGE_ATTRS ["InResponseTo", "Destination", "Consent"]
    (.sequence
      [slot SHAPE_ISSUER 0, signatureSlot, slot SHAPE_EXTENSIONS 0, slot SHAPE_STATUS 1])
    []

def SHAPE_NAMEID_POLICY : ElementShape :=
  shapeOf (samlp "NameIDPolicy") [] ["Format", "SPNameQualifier", "AllowCreate"] (.sequence []) []

def SHAPE_REQUESTED_AUTHN_CONTEXT : ElementShape :=
  shapeOf (samlp "RequestedAuthnContext") [] ["Comparison"]
    (.sequence [slot SHAPE_AUTHN_CONTEXT_CLASS_REF 0, slot SHAPE_AUTHN_CONTEXT_DECL_REF 0]) []

def SHAPE_SCOPING : ElementShape := freeShape (samlp "Scoping") ["ProxyCount"]
def SHAPE_REQUEST_CONDITIONS : ElementShape := freeShape (samlp "Conditions") []

def SHAPE_AUTHN_REQUEST : ElementShape :=
  shapeOf (samlp "AuthnRequest") MESSAGE_ATTRS
    ["Destination", "Consent", "ForceAuthn", "IsPassive", "ProtocolBinding",
      "AssertionConsumerServiceIndex", "AssertionConsumerServiceURL",
      "AttributeConsumingServiceIndex", "ProviderName"]
    (.sequence
      [slot SHAPE_ISSUER 0, signatureSlot, slot SHAPE_EXTENSIONS 0, slot SHAPE_SUBJECT 0,
        slot SHAPE_NAMEID_POLICY 0, slot SHAPE_REQUEST_CONDITIONS 0,
        slot SHAPE_REQUESTED_AUTHN_CONTEXT 0, slot SHAPE_SCOPING 0])
    []

def SHAPE_SESSION_INDEX : ElementShape := freeShape (samlp "SessionIndex") []

/-- The wildcard admits the encrypted and the base identifier. -/
def SHAPE_LOGOUT_REQUEST : ElementShape :=
  shapeOf (samlp "LogoutRequest") MESSAGE_ATTRS ["Destination", "Consent", "NotOnOrAfter", "Reason"]
    (.sequence
      [slot SHAPE_ISSUER 0, signatureSlot, slot SHAPE_EXTENSIONS 0, slot SHAPE_NAMEID 0,
        slot SHAPE_SESSION_INDEX 0])
    [SAML_NS]

/-! ## Walker -/

/-- `missing_attr_reason`. -/
def missingAttrReason (loc : Str) : Str :=
  if loc ∈ (["ID", "Version", "IssueInstant", "Method", "Name", "AuthnInstant", "Value"] :
      List Str) then
    "missing required attribute @" ++ loc
  else "missing required attribute"

/-- `missing_child_reason`. -/
def missingChildReason (loc : Str) : Str :=
  if loc ∈ (["Issuer", "Subject", "Audience", "AuthnContext", "Attribute"] : List Str) then
    "missing required child <saml:" ++ loc ++ ">"
  else if loc ∈ (["Status", "StatusCode"] : List Str) then
    "missing required child <samlp:" ++ loc ++ ">"
  else "missing required child element"

/-- A violation at an element. -/
def violation {α : Type} (qname : QName) (reason : Str) : Result α :=
  .error (.schemaViolation qname.display reason)

/-- Whether an element lacks an attribute its shape requires. -/
def lacks (element : Element) (a : AttrShape) : Bool :=
  a.presence = .required && (element.attr a.qname.namespaceUri a.qname.localName).isNone

/-- The first required attribute an element lacks. -/
def checkAttrs (element : Element) (attrs : List AttrShape) : Result Unit :=
  match attrs.find? (lacks element) with
  | some a => violation element.qname (missingAttrReason a.qname.localName)
  | none => .ok ()

/-- `u32::saturating_add` of one. -/
def saturatingSucc (n : UInt32) : UInt32 := if n.toNat + 1 < UInt32.size then n + 1 else n

section

variable {σ : Type}

/-- The first slot with too few children. -/
def checkCounts (parent : QName) (slots : List (ChildShapeOf σ)) (counts : List UInt32) :
    Result Unit :=
  match (slots.zip counts).find? (fun p => p.2 < p.1.minOccurs) with
  | some p => violation parent (missingChildReason p.1.qname.localName)
  | none => .ok ()

/-- Whether an unlisted child is admitted by its namespace. -/
def allowWildcard (qname : QName) (wildcardNamespaces : List Str) : Bool :=
  qname.namespaceUri.any (· ∈ wildcardNamespaces)

/-- What is left of a choice once its children are read. -/
def checkChoice (parent : QName) (slots : List (ChildShapeOf σ)) (anyMatched : Bool) :
    Result Unit :=
  if !anyMatched && !slots.isEmpty then
    violation parent "no child satisfies the schema choice"
  else .ok ()

variable (deref : σ → ElementShapeOf σ)

mutual

/-- `validate_against_shape`. -/
def validateAgainstShape (shape : ElementShapeOf σ) : Element → Result Unit
  | ⟨qname, sourcePrefix, declared, attributes, children, id⟩ =>
      if qname ≠ shape.qname then
        violation qname "element name does not match expected SAML shape"
      else do
        checkAttrs ⟨qname, sourcePrefix, declared, attributes, children, id⟩ shape.attrs
        match shape.children with
        | .any => .ok ()
        | .sequence slots =>
            walkSequence qname slots shape.wildcardNamespaces 0 (slots.map fun _ => 0) children
        | .choice slots => walkChoice qname slots shape.wildcardNamespaces false children

/-- Validate a child of a sequence against its slot. -/
def validateChild (parent : QName) (slots : List (ChildShapeOf σ))
    (wildcardNamespaces : List Str) (cursor : Nat) (counts : List UInt32) :
    Node → Result (Nat × List UInt32)
  | .element ⟨qname, sourcePrefix, declared, attributes, children, id⟩ =>
      match slots.findIdx? (fun s => s.qname = qname) with
      | some idx =>
          if idx < cursor then violation parent "child element appears out of schema order"
          else do
            match (slots[idx]?).bind ChildShapeOf.shape with
            | some shape =>
                validateAgainstShape (deref shape)
                  ⟨qname, sourcePrefix, declared, attributes, children, id⟩
            | none => .ok ()
            .ok (idx, counts.modify idx saturatingSucc)
      | none =>
          if allowWildcard qname wildcardNamespaces then .ok (cursor, counts)
          else violation parent "unexpected child element for SAML schema shape"
  | _ => .ok (cursor, counts)

/-- `walk_sequence`: the children in order against the slots from a cursor on. -/
def walkSequence (parent : QName) (slots : List (ChildShapeOf σ))
    (wildcardNamespaces : List Str) (cursor : Nat) (counts : List UInt32) :
    List Node → Result Unit
  | [] => checkCounts parent slots counts
  | child :: rest => do
      let (cursor, counts) ← validateChild parent slots wildcardNamespaces cursor counts child
      walkSequence parent slots wildcardNamespaces cursor counts rest

/-- Validate a child of a choice against its slot. -/
def validateAlternative (parent : QName) (slots : List (ChildShapeOf σ))
    (wildcardNamespaces : List Str) (anyMatched : Bool) : Node → Result Bool
  | .element ⟨qname, sourcePrefix, declared, attributes, children, id⟩ =>
      match slots.find? (fun s => s.qname = qname) with
      | some slot => do
          match slot.shape with
          | some shape =>
              validateAgainstShape (deref shape)
                ⟨qname, sourcePrefix, declared, attributes, children, id⟩
          | none => .ok ()
          .ok true
      | none =>
          if allowWildcard qname wildcardNamespaces then .ok anyMatched
          else violation parent "unexpected child element for SAML schema shape"
  | _ => .ok anyMatched

/-- `walk_choice`: the children in any order, one of them in a slot. -/
def walkChoice (parent : QName) (slots : List (ChildShapeOf σ)) (wildcardNamespaces : List Str)
    (anyMatched : Bool) : List Node → Result Unit
  | [] => checkChoice parent slots anyMatched
  | child :: rest => do
      let anyMatched ← validateAlternative parent slots wildcardNamespaces anyMatched child
      walkChoice parent slots wildcardNamespaces anyMatched rest

end

end

/-- Validate an element against a shape of the catalog. -/
def validateShape (shape : ElementShape) (element : Element) : Result Unit :=
  validateAgainstShape ElementShape.deref shape.deref element

/-- `validate_response`. -/
def validateResponse (element : Element) : Result Unit :=
  validateShape SHAPE_RESPONSE element

/-- `validate_assertion`. -/
def validateAssertion (element : Element) : Result Unit :=
  validateShape SHAPE_ASSERTION element

/-- `validate_authn_request`. -/
def validateAuthnRequest (element : Element) : Result Unit :=
  validateShape SHAPE_AUTHN_REQUEST element

/-- `validate_logout_request`. -/
def validateLogoutRequest (element : Element) : Result Unit :=
  validateShape SHAPE_LOGOUT_REQUEST element

/-- `validate_logout_response`. -/
def validateLogoutResponse (element : Element) : Result Unit :=
  validateShape SHAPE_LOGOUT_RESPONSE element

end Saml.Schema
