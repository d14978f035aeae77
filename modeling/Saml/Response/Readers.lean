import Saml.Response.Validate
import Saml.Schema.Walk
import Saml.Xml.Plain

/-!
# What is read of a message

The gate, the parsers and the walk over the signatures look at the names, the
attribute values, the child elements and the text of a tree, and so they say the
same of a tree that was written and read back.
-/

namespace Saml.Xml

/-! ## Trees that read the same -/

section

variable {d e : Element}

theorem plain_of_alike (h : Alike d e) : plain d = plain e := by
  rw [← plain_unnumbered.1, h, plain_unnumbered.1]

theorem attr_of_plain (h : plain d = plain e) (ns : Option Str) (loc : Str) :
    d.attr ns loc = e.attr ns loc := by
  rw [← plain_attr, h, plain_attr]

theorem hasName_of_plain (h : plain d = plain e) (ns : Option Str) (loc : Str) :
    d.hasName ns loc = e.hasName ns loc := by
  rw [← plain_hasName, h, plain_hasName]

theorem textContent_of_plain (h : plain d = plain e) : d.textContent = e.textContent := by
  rw [← plain_textContent, h, plain_textContent]

theorem names_of_plain (h : plain d = plain e) :
    d.childElements.map ElementOf.qname = e.childElements.map ElementOf.qname := by
  have hplain (f : Element) : (plain f).childElements.map ElementOf.qname =
      f.childElements.map ElementOf.qname := by
    rw [plain_childElements, List.map_map]
    exact List.map_congr_left fun child _ => plain_qname child
  rw [← hplain d, h, hplain e]

theorem exists_childElement_of_plain (h : plain d = plain e) {ns : Option Str} {loc : Str}
    {c : Element} (hc : e.childElement ns loc = some c) :
    ∃ c', d.childElement ns loc = some c' ∧ plain c' = plain c := by
  have hfound := plain_childElement d ns loc
  rw [h, plain_childElement, hc, Option.map_some] at hfound
  exact Option.map_eq_some_iff.mp hfound.symm

theorem childElement_eq_none_of_plain (h : plain d = plain e) {ns : Option Str} {loc : Str}
    (hnone : e.childElement ns loc = none) : d.childElement ns loc = none := by
  have hfound := plain_childElement d ns loc
  rw [h, plain_childElement, hnone, Option.map_none] at hfound
  exact Option.map_eq_none_iff.mp hfound.symm

end

end Saml.Xml

namespace Saml.Schema

open Xml

/-! ## The gate -/

section

variable {σ : Type} {deref : σ → ElementShapeOf σ}

theorem checkAttrs_plain (e : Element) (attrs : List AttrShape) :
    checkAttrs (plain e) attrs = checkAttrs e attrs := by
  have hlacks : lacks (plain e) = lacks e := by
    funext a
    rw [lacks, plain_attr, lacks]
  rw [checkAttrs, hlacks, plain_qname, checkAttrs]

theorem walkSequence_textNodes (parent : QName) (slots : List (ChildShapeOf σ))
    (wildcardNamespaces : List Str) (cursor : Nat) (counts : List UInt32) (t : Str)
    (nodes : List Node) :
    walkSequence deref parent slots wildcardNamespaces cursor counts (textNodes t ++ nodes) =
      walkSequence deref parent slots wildcardNamespaces cursor counts nodes := by
  cases t with
  | nil => rfl
  | cons c t => rfl

theorem walkChoice_textNodes (parent : QName) (slots : List (ChildShapeOf σ))
    (wildcardNamespaces : List Str) (anyMatched : Bool) (t : Str) (nodes : List Node) :
    walkChoice deref parent slots wildcardNamespaces anyMatched (textNodes t ++ nodes) =
      walkChoice deref parent slots wildcardNamespaces anyMatched nodes := by
  cases t with
  | nil => rfl
  | cons c t => rfl

/-- The walker passes over text, comments and prefixes. -/
theorem validateAgainstShape_plain :
    (∀ (e : Element) (shape : ElementShapeOf σ),
      validateAgainstShape deref shape (plain e) = validateAgainstShape deref shape e) ∧
    ∀ (nodes : List Node) (parent : QName) (slots : List (ChildShapeOf σ))
      (wildcardNamespaces : List Str),
      (∀ cursor counts,
        walkSequence deref parent slots wildcardNamespaces cursor counts (plainChildren nodes) =
          walkSequence deref parent slots wildcardNamespaces cursor counts nodes) ∧
      ∀ anyMatched,
        walkChoice deref parent slots wildcardNamespaces anyMatched (plainChildren nodes) =
          walkChoice deref parent slots wildcardNamespaces anyMatched nodes := by
  apply Element.induct
  case mk =>
    rintro ⟨qname, sourcePrefix, declared, attributes, children, id⟩ ih shape
    have hattrs := checkAttrs_plain ⟨qname, sourcePrefix, declared, attributes, children, id⟩
      shape.attrs
    rw [plain] at hattrs ⊢
    rw [validateAgainstShape, validateAgainstShape, hattrs]
    split
    · rfl
    · congr 1
      funext _
      cases shape.children with
      | any => rfl
      | sequence slots =>
          dsimp only
          rw [walkSequence_textNodes, (ih qname slots shape.wildcardNamespaces).1]
      | choice slots =>
          dsimp only
          rw [walkChoice_textNodes, (ih qname slots shape.wildcardNamespaces).2]
  case nil =>
    intro parent slots wildcardNamespaces
    rw [plainChildren]
    exact ⟨fun _ _ => rfl, fun _ => rfl⟩
  case element =>
    intro e rest he hrest parent slots wildcardNamespaces
    rw [plainChildren]
    constructor
    · intro cursor counts
      have hchild : validateChild deref parent slots wildcardNamespaces cursor counts
          (.element (plain e)) =
          validateChild deref parent slots wildcardNamespaces cursor counts (.element e) := by
        obtain ⟨qname, sourcePrefix, declared, attributes, children, id⟩ := e
        rw [plain] at he ⊢
        simp only [validateChild, he]
      rw [walkSequence, walkSequence, hchild]
      congr 1
      funext p
      exact (hrest parent slots wildcardNamespaces).1 p.1 p.2
    · intro anyMatched
      have hchild : validateAlternative deref parent slots wildcardNamespaces anyMatched
          (.element (plain e)) =
          validateAlternative deref parent slots wildcardNamespaces anyMatched (.element e) := by
        obtain ⟨qname, sourcePrefix, declared, attributes, children, id⟩ := e
        rw [plain] at he ⊢
        simp only [validateAlternative, he]
      rw [walkChoice, walkChoice, hchild]
      congr 1
      funext matched
      exact (hrest parent slots wildcardNamespaces).2 matched
  case text =>
    intro t rest hrest parent slots wildcardNamespaces
    rw [plainChildren]
    exact hrest parent slots wildcardNamespaces
  case comment =>
    intro c rest hrest parent slots wildcardNamespaces
    rw [plainChildren]
    exact hrest parent slots wildcardNamespaces

theorem validateShape_plain (shape : ElementShape) (e : Element) :
    validateShape shape (plain e) = validateShape shape e :=
  validateAgainstShape_plain.1 e shape.deref

end

end Saml.Schema

namespace Saml.Response

open Xml Crypto Dsig

/-! ## The parsers -/

@[simp] theorem trimmedText_plain (e : Element) : trimmedText (plain e) = trimmedText e := by
  rw [trimmedText, plain_textContent, trimmedText]

@[simp] theorem instantAttr_plain (e : Element) (loc : Str) :
    instantAttr (plain e) loc = instantAttr e loc := by
  rw [instantAttr, plain_attr, instantAttr]

theorem mapM_map {α β γ : Type} (f : β → Result γ) (g : α → β) (l : List α) :
    (l.map g).mapM f = l.mapM (f ∘ g) := by
  induction l with
  | nil => rfl
  | cons a rest ih => simp [ih]

theorem trimmedText_comp_plain : trimmedText ∘ plain = trimmedText := funext trimmedText_plain

theorem textContent_comp_plain : ElementOf.textContent ∘ plain = ElementOf.textContent :=
  funext plain_textContent

theorem parseNameId_plain (e : Element) : parseNameId (plain e) = parseNameId e := by
  simp only [parseNameId, trimmedText_plain, plain_attr]

theorem parseSubjectNameId_plain (subject : Element) :
    parseSubjectNameId (plain subject) = parseSubjectNameId subject := by
  simp only [parseSubjectNameId, plain_childElement]
  cases subject.childElement (some SAML_NS) "NameID" with
  | some nameIdElem => exact congrArg Except.ok (parseNameId_plain nameIdElem)
  | none => simp only [Option.map_none, Option.isSome_map]

theorem audiences_plain (e : Element) : audiences (plain e) = audiences e := by
  simp [audiences, Function.comp_def]

theorem parseConditions_plain (e : Element) : parseConditions (plain e) = parseConditions e := by
  have hall : audiences ∘ plain = audiences := funext audiences_plain
  simp only [parseConditions, instantAttr_plain, plain_childElement, plain_allChildElements,
    Option.isSome_map, List.map_map, Option.map_map, hall]
  cases e.childElement (some SAML_NS) "ProxyRestriction" with
  | none => rfl
  | some restriction => simp

theorem parseConditionsOf_plain (e : Element) :
    parseConditionsOf (plain e) = parseConditionsOf e := by
  simp only [parseConditionsOf, plain_childElement]
  cases e.childElement (some SAML_NS) "Conditions" with
  | none => rfl
  | some c => exact parseConditions_plain c

theorem parseAuthnStatement_plain (e : Element) :
    parseAuthnStatement (plain e) = parseAuthnStatement e := by
  simp only [parseAuthnStatement, plain_attr, instantAttr_plain, plain_childElement]
  cases e.childElement (some SAML_NS) "AuthnContext" with
  | none => rfl
  | some context =>
      simp only [Option.map_some, Option.bind_some, plain_childElement, Option.map_map,
        trimmedText_comp_plain]

theorem parseAttribute_plain (e : Element) : parseAttribute (plain e) = parseAttribute e := by
  simp only [parseAttribute, plain_attr, plain_allChildElements, List.map_map,
    textContent_comp_plain]

theorem parseKeyInfoElement_plain (e : Element) :
    parseKeyInfoElement (plain e) = parseKeyInfoElement e := by
  have hchild (parent : Element) (loc : Str) :
      ((plain parent).childElement (some DS_NS) loc).map ElementOf.textContent =
        (parent.childElement (some DS_NS) loc).map ElementOf.textContent := by
    rw [plain_childElement, Option.map_map, textContent_comp_plain]
  have hbelow (loc : Str) : ((plain e).allChildElements (some DS_NS) "X509Data").flatMap
      (·.allChildElements (some DS_NS) loc) =
        ((e.allChildElements (some DS_NS) "X509Data").flatMap
          (·.allChildElements (some DS_NS) loc)).map plain := by
    rw [plain_allChildElements, List.flatMap_map, List.map_flatMap]
    congr 1
    funext data
    exact plain_allChildElements data (some DS_NS) loc
  simp only [parseKeyInfoElement, hbelow, hchild, List.map_map, Function.comp_def,
    plain_textContent]

variable {crypto : Primitives}

theorem parseSubjectConfirmation_plain (e : Element) :
    parseSubjectConfirmation crypto (plain e) = parseSubjectConfirmation crypto e := by
  have hcerts (data : Element) : extractSubjectConfirmationCerts crypto (plain data) =
      extractSubjectConfirmationCerts crypto data := by
    simp only [extractSubjectConfirmationCerts, plain_childElement]
    cases data.childElement (some DS_NS) "KeyInfo" with
    | none => rfl
    | some keyInfo => simp only [Option.map_some, parseKeyInfoElement_plain]
  simp only [parseSubjectConfirmation, plain_attr, plain_childElement]
  cases e.childElement (some SAML_NS) "SubjectConfirmationData" with
  | none => rfl
  | some data => simp only [Option.map_some, instantAttr_plain, plain_attr, hcerts]

/-- An assertion says the same when it is read back. -/
theorem parseAssertion_plain (e : Element) :
    parseAssertion crypto (plain e) = parseAssertion crypto e := by
  have hconfirmation : parseSubjectConfirmation crypto ∘ plain =
      parseSubjectConfirmation crypto := funext parseSubjectConfirmation_plain
  have hstatement : parseAuthnStatement ∘ plain = parseAuthnStatement :=
    funext parseAuthnStatement_plain
  have hattribute : parseAttribute ∘ plain = parseAttribute := funext parseAttribute_plain
  have hattributes : ((e.allChildElements (some SAML_NS) "AttributeStatement").map plain).flatMap
      (fun statement => (statement.allChildElements (some SAML_NS) "Attribute").map
        parseAttribute) =
      (e.allChildElements (some SAML_NS) "AttributeStatement").flatMap fun statement =>
        (statement.allChildElements (some SAML_NS) "Attribute").map parseAttribute := by
    simp [List.flatMap_map, hattribute]
  simp only [parseAssertion, plain_hasName, plain_qname, plain_attr, plain_childElement,
    plain_allChildElements, parseConditionsOf_plain, hattributes, mapM_map, hstatement,
    Schema.validateAssertion, Schema.validateShape_plain]
  cases e.childElement (some SAML_NS) "Issuer" with
  | none => rfl
  | some issuer =>
      cases e.childElement (some SAML_NS) "Subject" with
      | none =>
          simp only [Option.map_some, okOr_some, trimmedText_plain, Option.map_none, ok_bind]
      | some subject =>
          simp only [Option.map_some, okOr_some, trimmedText_plain, parseSubjectNameId_plain,
            plain_allChildElements, mapM_map, hconfirmation, ok_bind]

/-! ## The walk over the signatures -/

theorem walkSignatures_plain :
    (∀ (e : Element) (parent : Option QName),
      walkSignatures parent (plain e) = walkSignatures parent e) ∧
    ∀ (nodes : List Node) (parent : QName),
      walkSignaturesBelow parent (plainChildren nodes) = walkSignaturesBelow parent nodes := by
  apply Element.induct
  case mk =>
    rintro ⟨qname, sourcePrefix, declared, attributes, children, id⟩ ih parent
    have htext : ∀ t : Str, walkSignaturesBelow qname (textNodes t ++ plainChildren children) =
        walkSignaturesBelow qname (plainChildren children) := by
      intro t
      cases t <;> rfl
    rw [plain, walkSignatures, walkSignatures, htext, ih]
  case nil =>
    intro parent
    rw [plainChildren]
  case element =>
    intro e rest he hrest parent
    rw [plainChildren, walkSignaturesBelow, walkSignaturesBelow, walkSignaturesNode,
      walkSignaturesNode, he, hrest]
  case text =>
    intro t rest hrest parent
    rw [plainChildren, hrest]
    rfl
  case comment =>
    intro c rest hrest parent
    rw [plainChildren, hrest]
    rfl

end Saml.Response
