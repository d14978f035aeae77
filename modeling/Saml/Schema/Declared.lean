import Saml.Library.ContentModel
import Saml.Schema.Walk
import Saml.Xml.Reader

/-!
# The declared messages

What the schemas of the standard declare of a message, next to what the gate
asks. The gate encodes a repeated choice as a sequence of optional slots, so
it refuses some declared messages; the difference is written down element by
element and proved to be the only one.
-/

namespace Saml.Schema

open Xml Library

/-- The elements whose content the schemas describe to the gate. -/
inductive Declared where
  | response | authnRequest | logoutRequest | logoutResponse
  | status | statusCode | nameIdPolicy | requestedAuthnContext
  | assertion | subject | subjectConfirmation
  | conditions | audienceRestriction | oneTimeUse | proxyRestriction
  | authnStatement | subjectLocality | authnContext
  | attributeStatement | attr
deriving DecidableEq

namespace Declared

def all : List Declared :=
  [response, authnRequest, logoutRequest, logoutResponse, status, statusCode, nameIdPolicy,
    requestedAuthnContext, assertion, subject, subjectConfirmation, conditions,
    audienceRestriction, oneTimeUse, proxyRestriction, authnStatement, subjectLocality,
    authnContext, attributeStatement, attr]

def name : Declared → QName
  | response => samlp "Response"
  | authnRequest => samlp "AuthnRequest"
  | logoutRequest => samlp "LogoutRequest"
  | logoutResponse => samlp "LogoutResponse"
  | status => samlp "Status"
  | statusCode => samlp "StatusCode"
  | nameIdPolicy => samlp "NameIDPolicy"
  | requestedAuthnContext => samlp "RequestedAuthnContext"
  | assertion => saml "Assertion"
  | subject => saml "Subject"
  | subjectConfirmation => saml "SubjectConfirmation"
  | conditions => saml "Conditions"
  | audienceRestriction => saml "AudienceRestriction"
  | oneTimeUse => saml "OneTimeUse"
  | proxyRestriction => saml "ProxyRestriction"
  | authnStatement => saml "AuthnStatement"
  | subjectLocality => saml "SubjectLocality"
  | authnContext => saml "AuthnContext"
  | attributeStatement => saml "AttributeStatement"
  | attr => saml "Attribute"

/-- The declaration of an element name. -/
def ofName (qname : QName) : Option Declared := all.find? fun d => d.name = qname

def requiredAttrs : Declared → List Str
  | response | authnRequest | logoutRequest | logoutResponse | assertion =>
      ["ID", "Version", "IssueInstant"]
  | statusCode => ["Value"]
  | subjectConfirmation => ["Method"]
  | authnStatement => ["AuthnInstant"]
  | attr => ["Name"]
  | _ => []

open ContentModel RegularExpression in
/-- The declared content, over the names of the children. -/
def content : Declared → RegularExpression QName
  | response =>
      sequence
        [optional (char (saml "Issuer")), optional (char ⟨some DS_NS, "Signature"⟩),
          optional (char (samlp "Extensions")), char (samlp "Status"),
          star (choice [char (saml "Assertion"), char (saml "EncryptedAssertion")])]
  | authnRequest =>
      sequence
        [optional (char (saml "Issuer")), optional (char ⟨some DS_NS, "Signature"⟩),
          optional (char (samlp "Extensions")), optional (char (saml "Subject")),
          optional (char (samlp "NameIDPolicy")), optional (char (samlp "Conditions")),
          optional (char (samlp "RequestedAuthnContext")), optional (char (samlp "Scoping"))]
  | logoutRequest =>
      sequence
        [optional (char (saml "Issuer")), optional (char ⟨some DS_NS, "Signature"⟩),
          optional (char (samlp "Extensions")),
          choice [char (saml "BaseID"), char (saml "NameID"), char (saml "EncryptedID")],
          star (char (samlp "SessionIndex"))]
  | logoutResponse =>
      sequence
        [optional (char (saml "Issuer")), optional (char ⟨some DS_NS, "Signature"⟩),
          optional (char (samlp "Extensions")), char (samlp "Status")]
  | status =>
      sequence
        [char (samlp "StatusCode"), optional (char (samlp "StatusMessage")),
          optional (char (samlp "StatusDetail"))]
  | statusCode => optional (char (samlp "StatusCode"))
  | requestedAuthnContext =>
      choice
        [oneOrMore (char (saml "AuthnContextClassRef")),
          oneOrMore (char (saml "AuthnContextDeclRef"))]
  | assertion =>
      sequence
        [char (saml "Issuer"), optional (char ⟨some DS_NS, "Signature"⟩),
          optional (char (saml "Subject")), optional (char (saml "Conditions")),
          optional (char (saml "Advice")),
          star (choice
            [char (saml "Statement"), char (saml "AuthnStatement"),
              char (saml "AuthzDecisionStatement"), char (saml "AttributeStatement")])]
  | subject =>
      choice
        [sequence
          [choice [char (saml "BaseID"), char (saml "NameID"), char (saml "EncryptedID")],
            star (char (saml "SubjectConfirmation"))],
          oneOrMore (char (saml "SubjectConfirmation"))]
  | subjectConfirmation =>
      sequence
        [optional
            (choice [char (saml "BaseID"), char (saml "NameID"), char (saml "EncryptedID")]),
          optional (char (saml "SubjectConfirmationData"))]
  | conditions =>
      star (choice
        [char (saml "Condition"), char (saml "AudienceRestriction"), char (saml "OneTimeUse"),
          char (saml "ProxyRestriction")])
  | audienceRestriction => oneOrMore (char (saml "Audience"))
  | proxyRestriction => star (char (saml "Audience"))
  | authnStatement =>
      sequence [optional (char (saml "SubjectLocality")), char (saml "AuthnContext")]
  | authnContext =>
      sequence
        [choice
          [sequence
            [char (saml "AuthnContextClassRef"),
              optional
                (choice
                  [char (saml "AuthnContextDecl"), char (saml "AuthnContextDeclRef")])],
            choice [char (saml "AuthnContextDecl"), char (saml "AuthnContextDeclRef")]],
          star (char (saml "AuthenticatingAuthority"))]
  | attributeStatement =>
      oneOrMore (choice [char (saml "Attribute"), char (saml "EncryptedAttribute")])
  | attr => star (char (saml "AttributeValue"))
  | nameIdPolicy | oneTimeUse | subjectLocality => 1

/-- The shape the gate holds against an element. -/
def shape : Declared → ElementShape
  | response => SHAPE_RESPONSE
  | authnRequest => SHAPE_AUTHN_REQUEST
  | logoutRequest => SHAPE_LOGOUT_REQUEST
  | logoutResponse => SHAPE_LOGOUT_RESPONSE
  | status => SHAPE_STATUS
  | statusCode => SHAPE_STATUS_CODE
  | nameIdPolicy => SHAPE_NAMEID_POLICY
  | requestedAuthnContext => SHAPE_REQUESTED_AUTHN_CONTEXT
  | assertion => SHAPE_ASSERTION
  | subject => SHAPE_SUBJECT
  | subjectConfirmation => SHAPE_SUBJECT_CONFIRMATION
  | conditions => SHAPE_CONDITIONS
  | audienceRestriction => SHAPE_AUDIENCE_RESTRICTION
  | oneTimeUse => SHAPE_ONE_TIME_USE
  | proxyRestriction => SHAPE_PROXY_RESTRICTION
  | authnStatement => SHAPE_AUTHN_STATEMENT
  | subjectLocality => SHAPE_SUBJECT_LOCALITY
  | authnContext => SHAPE_AUTHN_CONTEXT
  | attributeStatement => SHAPE_ATTRIBUTE_STATEMENT
  | attr => SHAPE_ATTRIBUTE

end Declared

mutual

/-- The elements of a message that the declarations reach: the children of an
element without one are not looked into. -/
def described : Element → List Element
  | ⟨qname, sourcePrefix, declared, attributes, children, id⟩ =>
      ⟨qname, sourcePrefix, declared, attributes, children, id⟩ ::
        if (Declared.ofName qname).isSome then describedIn children else []

/-- The elements the declarations reach below the given nodes. -/
def describedIn : List Node → List Element
  | [] => []
  | .element child :: rest => described child ++ describedIn rest
  | _ :: rest => describedIn rest

end

/-- An element has the attributes its declaration requires, and its children
are a word of the declared content. -/
structure Meets (d : Declared) (element : Element) : Prop where
  attrs : ∀ loc ∈ d.requiredAttrs, (element.attr none loc).isSome = true
  content : childNames element ∈ d.content.matches'

instance (d : Declared) (element : Element) : Decidable (Meets d element) :=
  decidable_of_iff
    ((∀ loc ∈ d.requiredAttrs, (element.attr none loc).isSome = true) ∧
      childNames element ∈ d.content.matches')
    ⟨fun h => ⟨h.1, h.2⟩, fun h => ⟨h.attrs, h.content⟩⟩

/-- Every element the declarations reach meets its own. -/
def SchemaValid (root : Element) : Prop :=
  ∀ element ∈ described root, ∀ d ∈ Declared.ofName element.qname, Meets d element

instance (root : Element) : Decidable (SchemaValid root) :=
  inferInstanceAs (Decidable (∀ element ∈ described root, ∀ d ∈ Declared.ofName element.qname,
    Meets d element))

/-- What the gate asks of the children of an element beyond its declaration. -/
structure Demand where
  /-- The first name of a pair may not stand before the second. -/
  apart : List (QName × QName)
  refused : List QName
  needed : List QName

/-- The children have what a demand asks for. -/
structure Demand.Met (demand : Demand) (names : List QName) : Prop where
  apart : ∀ p ∈ demand.apart, ¬ [p.1, p.2].Sublist names
  refused : ∀ name ∈ demand.refused, name ∉ names
  needed : ∀ name ∈ demand.needed, name ∈ names

/-- The repeated choices are taken in the order of the slots, an attribute
statement holds an attribute in the clear, and a confirmation names its
subject by a plain identifier only. -/
def Declared.demand : Declared → Demand
  | conditions =>
      { apart :=
          [(saml "OneTimeUse", saml "AudienceRestriction"),
            (saml "ProxyRestriction", saml "AudienceRestriction"),
            (saml "ProxyRestriction", saml "OneTimeUse")]
        refused := []
        needed := [] }
  | assertion =>
      { apart := [(saml "AttributeStatement", saml "AuthnStatement")], refused := [], needed := [] }
  | response =>
      { apart := [(saml "EncryptedAssertion", saml "Assertion")], refused := [], needed := [] }
  | attributeStatement =>
      { apart := [(saml "EncryptedAttribute", saml "Attribute")]
        refused := []
        needed := [saml "Attribute"] }
  | subjectConfirmation =>
      { apart := [], refused := [saml "BaseID", saml "EncryptedID"], needed := [] }
  | _ => { apart := [], refused := [], needed := [] }

/-- Every element the declarations reach has what the gate asks for besides. -/
def Tolerated (root : Element) : Prop :=
  ∀ element ∈ described root, ∀ d ∈ Declared.ofName element.qname,
    d.demand.Met (childNames element)

/-! ## The catalog against the declarations -/

namespace ElementShape

def slots (shape : ElementShape) : List ChildShape := shape.deref.slots

def wildcardNamespaces (shape : ElementShape) : List Str := shape.deref.wildcardNamespaces

def optionalAttrs (shape : ElementShape) : List Str :=
  (shape.deref.attrs.filter (·.presence = .optional)).map (·.qname.localName)

end ElementShape

namespace Declared

/-- The shape a slot of the given name holds. -/
def slotted (qname : QName) (optionalAttrs : List Str) : ElementShape :=
  match ofName qname with
  | some d => d.shape
  | none => freeShape qname optionalAttrs

theorem shape_eq (d : Declared) :
    d.shape = shapeOf d.name d.requiredAttrs d.shape.optionalAttrs (.sequence d.shape.slots)
      d.shape.wildcardNamespaces := by
  cases d <;> rfl

theorem ofName_name (d : Declared) : ofName d.name = some d := by
  cases d <;> decide +kernel

theorem name_of_ofName {qname : QName} {d : Declared} (h : ofName qname = some d) :
    d.name = qname := by
  have hname := List.find?_some h
  exact of_decide_eq_true hname

/-- A slot with the shape its name stands for in place of its own. -/
def reslot (s : ChildShape) : ChildShape :=
  { s with shape := s.shape.map fun shape => slotted s.qname shape.optionalAttrs }

theorem map_reslot (d : Declared) : d.shape.slots.map reslot = d.shape.slots := by
  cases d <;> rfl

/-- The comparison of a shape with its declaration: what the gate asks besides
is what separates them. -/
@[mk_iff]
structure Agrees (d : Declared) : Prop where
  content_keeps : ContentModel.keeps
    (fun a b => precedes d.shape.slots a b || decide ((a, b) ∈ d.demand.apart)) d.content = true
  apart_refused : ∀ p ∈ d.demand.apart, precedes d.shape.slots p.1 p.2 = false
  content_admitted : ∀ name ∈ ContentModel.names d.content,
    admitted d.shape.slots d.shape.wildcardNamespaces name = true ∨ name ∈ d.demand.refused
  refused_not_admitted : ∀ name ∈ d.demand.refused,
    admitted d.shape.slots d.shape.wildcardNamespaces name = false
  /-- A slot is optional, or it is filled once the demand of its element is met. -/
  slots_filled : ∀ p ∈ d.shape.slots.zipIdx, p.1.minOccurs = 0 ∨
    (p.1.minOccurs = 1 ∧ position d.shape.slots p.1.qname = some p.2 ∧
      (ContentModel.demands p.1.qname d.content = true ∨ p.1.qname ∈ d.demand.needed))
  needed_slot : ∀ name ∈ d.demand.needed,
    ∃ p ∈ d.shape.slots.zipIdx, p.1.qname = name ∧ p.1.minOccurs = 1
  /-- A declared child has a shape, but for the status code in a status code. -/
  declared_child : ∀ name ∈ ContentModel.names d.content, (ofName name).isSome = true →
    (slotShape d.shape.slots name).isSome = true ∨ name = samlp "StatusCode"

instance (d : Declared) : Decidable d.Agrees := decidable_of_iff' _ (agrees_iff d)

theorem agrees (d : Declared) : d.Agrees := by
  cases d <;> decide +kernel

theorem statusCode_content :
    ∀ name ∈ ContentModel.names statusCode.content, name = samlp "StatusCode" := by
  decide +kernel

end Declared

/-! ## One element -/

theorem mem_describedIn {nodes : List Node} {element : Element} :
    element ∈ describedIn nodes ↔
      ∃ child, Node.element child ∈ nodes ∧ element ∈ described child := by
  induction nodes with
  | nil => simp [describedIn]
  | cons node rest ih => cases node <;> simp [describedIn, ih, or_and_right, exists_or]

/-- What holds of all described elements holds of the root and below each child. -/
theorem forall_described {P : Element → Prop} {element : Element}
    (h : (Declared.ofName element.qname).isSome = true) :
    (∀ x ∈ described element, P x) ↔
      P element ∧ ∀ child ∈ element.childElements, ∀ x ∈ described child, P x := by
  obtain ⟨qname, sourcePrefix, declared, attributes, children, id⟩ := element
  rw [described, if_pos h]
  simp only [List.mem_cons, forall_eq_or_imp, mem_describedIn, ElementOf.mem_childElements]
  constructor
  · rintro ⟨hroot, hbelow⟩
    exact ⟨hroot, fun child hchild x hx => hbelow x ⟨child, hchild, hx⟩⟩
  · rintro ⟨hroot, hbelow⟩
    refine ⟨hroot, ?_⟩
    rintro x ⟨child, hchild, hx⟩
    exact hbelow child hchild x hx

theorem described_of_undeclared {element : Element}
    (h : Declared.ofName element.qname = none) : described element = [element] := by
  obtain ⟨qname, sourcePrefix, declared, attributes, children, id⟩ := element
  rw [described, if_neg (by rw [h]; simp)]

/-- An element without a declaration has nothing to be judged by. -/
theorem tolerated_of_undeclared {element : Element}
    (h : Declared.ofName element.qname = none) : Tolerated element := by
  intro x hx d hd
  rw [described_of_undeclared h, List.mem_singleton] at hx
  rw [hx, h] at hd
  cases hd

theorem schemaValid_iff {element : Element} {d : Declared}
    (h : Declared.ofName element.qname = some d) :
    SchemaValid element ↔
      Meets d element ∧ ∀ child ∈ element.childElements, SchemaValid child := by
  unfold SchemaValid
  rw [forall_described (by rw [h]; rfl)]
  simp [h]

theorem tolerated_iff {element : Element} {d : Declared}
    (h : Declared.ofName element.qname = some d) :
    Tolerated element ↔
      d.demand.Met (childNames element) ∧ ∀ child ∈ element.childElements, Tolerated child := by
  unfold Tolerated
  rw [forall_described (by rw [h]; rfl)]
  simp [h]

theorem qname_mem_childNames {element child : Element} (h : child ∈ element.childElements) :
    child.qname ∈ childNames element :=
  List.mem_map_of_mem h

theorem mem_content_names {element child : Element} {d : Declared} (h : Meets d element)
    (hchild : child ∈ element.childElements) :
    child.qname ∈ ContentModel.names d.content :=
  ContentModel.mem_names h.content _ (qname_mem_childNames hchild)

/-- A slot of the catalog refers to the shape its name stands for. -/
theorem Declared.ref_eq {d : Declared} {s : ChildShape} (hs : s ∈ d.shape.slots)
    {ref : ElementShape} (href : s.shape = some ref) :
    ref = slotted s.qname ref.optionalAttrs := by
  obtain ⟨idx, hidx⟩ := List.mem_iff_getElem?.mp hs
  have hget : (d.shape.slots.map reslot)[idx]? = some s := by rw [map_reslot, hidx]
  rw [List.getElem?_map, hidx, Option.map_some] at hget
  have hfield := congrArg ChildShapeOf.shape (Option.some.inj hget)
  rw [reslot, href, Option.map_some] at hfield
  exact (Option.some.inj hfield).symm

theorem slotShape_eq_slotted {d : Declared} {qname : QName} {shape : ElementShape}
    (h : slotShape d.shape.slots qname = some shape) :
    shape = Declared.slotted qname shape.optionalAttrs := by
  obtain ⟨idx, hidx, hshape⟩ := Option.bind_eq_some_iff.mp h
  obtain ⟨s, hs, hsome⟩ := Option.bind_eq_some_iff.mp hshape
  obtain rfl := qname_of_position hidx hs
  exact Declared.ref_eq (List.mem_of_getElem? hs) hsome

/-- Below a status code the declarations reach status codes only, and these
are asked for nothing. -/
theorem statusCode_tolerated :
    (∀ e : Element, e.qname = samlp "StatusCode" → SchemaValid e → Tolerated e) ∧
      ∀ nodes : List Node, ∀ child, Node.element child ∈ nodes →
        child.qname = samlp "StatusCode" → SchemaValid child → Tolerated child := by
  apply Element.induct
  case mk =>
    intro e ih hname hvalid
    have hdecl : Declared.ofName e.qname = some .statusCode := by
      rw [hname]
      exact Declared.ofName_name .statusCode
    obtain ⟨hmeets, hbelow⟩ := (schemaValid_iff hdecl).mp hvalid
    refine (tolerated_iff hdecl).mpr ⟨⟨by simp [Declared.demand], by simp [Declared.demand],
      by simp [Declared.demand]⟩, ?_⟩
    intro child hchild
    apply ih child (ElementOf.mem_childElements.mp hchild) _ (hbelow child hchild)
    exact Declared.statusCode_content _ (mem_content_names hmeets hchild)
  case nil => simp
  case element =>
    intro e rest he hrest child hchild
    cases List.mem_cons.mp hchild with
    | inl h =>
        cases h
        exact he
    | inr h => exact hrest child h
  case text =>
    intro t rest hrest child hchild
    exact hrest child (by simpa using hchild)
  case comment =>
    intro c rest hrest child hchild
    exact hrest child (by simpa using hchild)

/-- A child named by the content model passes the shape of its slot exactly if
it is tolerated, provided that is so of the declared elements. -/
theorem shape_iff_tolerated {d : Declared} {child : Element}
    (hname : child.qname ∈ ContentModel.names d.content) (hvalid : SchemaValid child)
    (ih : ∀ c ∈ Declared.ofName child.qname,
      (validateShape c.shape child = .ok () ↔ Tolerated child)) :
    (∀ shape ∈ slotShape d.shape.slots child.qname, validateShape shape child = .ok ()) ↔
      Tolerated child := by
  cases hdecl : Declared.ofName child.qname with
  | none =>
      have htol := tolerated_of_undeclared hdecl
      refine ⟨fun _ => htol, fun _ shape hshape => ?_⟩
      rw [slotShape_eq_slotted hshape, Declared.slotted, hdecl]
      exact validateShape_freeShape rfl
  | some c =>
      have hc := ih c hdecl
      cases hslot : slotShape d.shape.slots child.qname with
      | some shape =>
          have heq : shape = c.shape := by
            rw [slotShape_eq_slotted hslot, Declared.slotted, hdecl]
          simpa [heq] using hc
      | none =>
          have hcode : child.qname = samlp "StatusCode" := by
            have hseen := d.agrees.declared_child _ hname (by rw [hdecl]; rfl)
            simpa [hslot] using hseen
          simp [statusCode_tolerated.1 child hcode hvalid]

/-- Enough children are in every slot exactly if the needed ones are there. -/
theorem counts_iff_needed {d : Declared} {names : List QName} (h : names ∈ d.content.matches') :
    (∀ (idx : Nat) (s : ChildShape), d.shape.slots[idx]? = some s →
      s.minOccurs.toNat ≤ inSlot d.shape.slots idx names) ↔ ∀ name ∈ d.demand.needed, name ∈ names := by
  have hmem : ∀ {s : ChildShape} {idx : Nat}, d.shape.slots[idx]? = some s →
      (s, idx) ∈ d.shape.slots.zipIdx := by
    intro s idx hs
    exact List.mem_zipIdx_iff_getElem?.mpr hs
  constructor
  · intro hcounts name hname
    obtain ⟨⟨s, idx⟩, hs, rfl, hmin⟩ := d.agrees.needed_slot name hname
    have hget := List.mem_zipIdx_iff_getElem?.mp hs
    have hpos : 0 < inSlot d.shape.slots idx names := by
      have hle := hcounts idx s hget
      have hone : s.minOccurs.toNat = 1 := congrArg UInt32.toNat hmin
      omega
    obtain ⟨other, hother, hslot⟩ := List.countP_pos_iff.mp hpos
    have hsame : s.qname = other := qname_of_position (of_decide_eq_true hslot) hget
    change s.qname ∈ names
    rwa [hsame]
  · intro hneeded idx s hs
    cases d.agrees.slots_filled (s, idx) (hmem hs) with
    | inl hzero =>
        have h0 : s.minOccurs.toNat = 0 := congrArg UInt32.toNat hzero
        omega
    | inr hone =>
        obtain ⟨hmin, hposition, hfilled⟩ := hone
        have hin : s.qname ∈ names := by
          cases hfilled with
          | inl hdemands => exact ContentModel.mem_of_demands hdemands h
          | inr hneed => exact hneeded _ hneed
        have hpos : 0 < inSlot d.shape.slots idx names :=
          List.countP_pos_iff.mpr ⟨s.qname, hin, decide_eq_true hposition⟩
        have h1 : s.minOccurs.toNat = 1 := congrArg UInt32.toNat hmin
        omega

/-- Step: an element that meets its declaration conforms to its shape exactly
if its children have what the shape asks for besides and pass on their own. -/
theorem conforms_iff {d : Declared} {element : Element}
    (hdecl : Declared.ofName element.qname = some d) (hmeets : Meets d element) :
    Conforms ElementShape.deref d.name (unqualifiedAttrs d.requiredAttrs d.shape.optionalAttrs)
        d.shape.slots d.shape.wildcardNamespaces element ↔
      d.demand.Met (childNames element) ∧ ∀ child ∈ element.childElements,
        ∀ shape ∈ slotShape d.shape.slots child.qname,
          validateShape shape child = .ok () := by
  have horder := ContentModel.pairwise_iff_apart d.agrees.content_keeps
    d.agrees.apart_refused hmeets.content
  have hcounts := counts_iff_needed hmeets.content
  constructor
  · intro h
    refine ⟨⟨horder.mp h.order, ?_, hcounts.mp h.counts⟩,
      fun child hchild => (h.children child hchild).shape⟩
    intro name hname hmem
    obtain ⟨child, hchild, rfl⟩ := List.mem_map.mp hmem
    have hadmitted := (h.children child hchild).admitted
    rw [d.agrees.refused_not_admitted _ hname] at hadmitted
    cases hadmitted
  · rintro ⟨hmet, hshapes⟩
    refine ⟨(Declared.name_of_ofName hdecl).symm, lacks_unqualifiedAttrs.mpr hmeets.attrs, ?_,
      horder.mpr hmet.apart,
      hcounts.mpr hmet.needed⟩
    intro child hchild
    refine ⟨?_, hshapes child hchild⟩
    cases d.agrees.content_admitted _ (mem_content_names hmeets hchild) with
    | inl h => exact h
    | inr h => exact absurd (qname_mem_childNames hchild) (hmet.refused _ h)

/-- Run: over the whole tree, the gate lets a schema-valid element through
exactly if it is tolerated. -/
theorem validate_iff_tolerated :
    (∀ e : Element, ∀ d ∈ Declared.ofName e.qname, SchemaValid e →
        (validateShape d.shape e = .ok () ↔ Tolerated e)) ∧
      ∀ nodes : List Node, ∀ child, Node.element child ∈ nodes →
        ∀ d ∈ Declared.ofName child.qname, SchemaValid child →
          (validateShape d.shape child = .ok () ↔ Tolerated child) := by
  apply Element.induct
  case mk =>
    intro e ih d hdecl hvalid
    obtain ⟨hmeets, hbelow⟩ := (schemaValid_iff hdecl).mp hvalid
    rw [Declared.shape_eq d, validateShape_sequence, conforms_iff hdecl hmeets,
      tolerated_iff hdecl]
    apply and_congr_right
    intro _
    apply forall₂_congr
    intro child hchild
    apply shape_iff_tolerated (mem_content_names hmeets hchild) (hbelow child hchild)
    intro c hc
    exact ih child (ElementOf.mem_childElements.mp hchild) c hc (hbelow child hchild)
  case nil => simp
  case element =>
    intro e rest he hrest child hchild
    cases List.mem_cons.mp hchild with
    | inl h =>
        cases h
        exact he
    | inr h => exact hrest child h
  case text =>
    intro t rest hrest child hchild
    exact hrest child (by simpa using hchild)
  case comment =>
    intro c rest hrest child hchild
    exact hrest child (by simpa using hchild)

/-! ## The gate -/

/-- The messages the gate has an entry point for. -/
def gates : List (Declared × (Element → Result Unit)) :=
  [(.response, validateResponse), (.assertion, validateAssertion),
    (.authnRequest, validateAuthnRequest), (.logoutRequest, validateLogoutRequest),
    (.logoutResponse, validateLogoutResponse)]

theorem gates_shape {d : Declared} {validate : Element → Result Unit}
    (h : (d, validate) ∈ gates) : validate = validateShape d.shape := by
  simp only [gates, List.mem_cons, Prod.mk.injEq, List.not_mem_nil, or_false] at h
  rcases h with ⟨rfl, rfl⟩ | ⟨rfl, rfl⟩ | ⟨rfl, rfl⟩ | ⟨rfl, rfl⟩ | ⟨rfl, rfl⟩ <;> rfl

/-- A schema-valid message passes the gate exactly if, wherever the gate looks,
the repeated choices come in the order of the slots, an attribute statement
holds an attribute in the clear and a confirmation no other identifier than a
plain one. -/
theorem gate_accepts_iff {d : Declared} {validate : Element → Result Unit}
    (hgate : (d, validate) ∈ gates) {element : Element} (hname : element.qname = d.name)
    (hvalid : SchemaValid element) : validate element = .ok () ↔ Tolerated element := by
  rw [gates_shape hgate]
  apply validate_iff_tolerated.1 element d _ hvalid
  rw [hname]
  exact Declared.ofName_name d

namespace Sample

/-- An assertion with the given conditions. -/
def assertionWith (conditions : Str) : Str :=
  "<saml:Assertion xmlns:saml=\"urn:oasis:names:tc:SAML:2.0:assertion\"" ++
  " ID=\"_a\" Version=\"2.0\" IssueInstant=\"2024-01-01T00:00:00Z\">" ++
  "<saml:Issuer>i</saml:Issuer><saml:Conditions>" ++ conditions ++
  "</saml:Conditions></saml:Assertion>"

def audience : Str :=
  "<saml:AudienceRestriction><saml:Audience>sp</saml:Audience></saml:AudienceRestriction>"

/-- For one use, and for one audience. -/
def useFirst : Str := assertionWith ("<saml:OneTimeUse/>" ++ audience)

/-- The same conditions the other way round. -/
def audienceFirst : Str := assertionWith (audience ++ "<saml:OneTimeUse/>")

end Sample

/-- A schema-valid assertion the gate refuses. -/
theorem refuses_useFirst : ∃ doc,
    Document.parse Scanning.reader (Text.asBytes Sample.useFirst) = .ok doc ∧
      doc.root.qname = Declared.assertion.name ∧ SchemaValid doc.root ∧
        validateAssertion doc.root =
          violation (saml "Conditions") "child element appears out of schema order" := by
  have hread : ((Scanning.parseText Sample.useFirst).toOption.map fun doc =>
      decide (doc.root.qname = Declared.assertion.name ∧ SchemaValid doc.root ∧
        validateAssertion doc.root =
          violation (saml "Conditions") "child element appears out of schema order")) =
        some true := by decide +kernel
  obtain ⟨doc, hdoc, hverdict⟩ := Option.map_eq_some_iff.mp hread
  have hparse := (Scanning.parse_asBytes (by decide +kernel)).trans (ok_of_toOption hdoc)
  exact ⟨doc, hparse, of_decide_eq_true hverdict⟩

/-- The gate lets the other order through. -/
theorem gate_accepts_iff_audienceFirst : ∃ element : Element,
    element.qname = Declared.assertion.name ∧ SchemaValid element ∧
      validateAssertion element = .ok () ∧ Tolerated element := by
  have hread : ((Scanning.parseText Sample.audienceFirst).toOption.map fun doc =>
      decide (doc.root.qname = Declared.assertion.name ∧ SchemaValid doc.root ∧
        validateAssertion doc.root = .ok ())) = some true := by decide +kernel
  obtain ⟨doc, -, hverdict⟩ := Option.map_eq_some_iff.mp hread
  obtain ⟨hname, hvalid, hok⟩ := of_decide_eq_true hverdict
  have hgate : (Declared.assertion, validateAssertion) ∈ gates := by simp [gates]
  have hiff := gate_accepts_iff hgate hname hvalid
  exact ⟨doc.root, hname, hvalid, hok, hiff.mp hok⟩

end Saml.Schema
