import Saml.Xml.Reparse

/-!
# What the readers of a tree see

The functions that take a message apart look at names, attribute values, child
elements and the text of an element. What they see is the same before an
element is written and after it is read back.
-/

namespace Saml.Xml

/-- An attribute without the prefix it was written with. -/
def plainAttribute (a : Attribute) : Attribute := { a with sourcePrefix := none }

mutual

/-- What is read of an element: its name, its attributes, its text in one piece
and its child elements. -/
def plain : Element → Element
  | ⟨qname, _, _, attributes, children, _⟩ =>
      ⟨qname, none, [], attributes.map plainAttribute,
        textNodes (children.map Node.textOf).flatten ++ plainChildren children, 0⟩

/-- What is read of the elements among the nodes. -/
def plainChildren : List Node → List Node
  | [] => []
  | .element e :: rest => .element (plain e) :: plainChildren rest
  | .text _ :: rest => plainChildren rest
  | .comment _ :: rest => plainChildren rest

end

theorem plainChildren_eq (nodes : List Node) :
    plainChildren nodes = (nodes.filterMap Node.asElement).map fun e => .element (plain e) := by
  induction nodes with
  | nil => rw [plainChildren]; rfl
  | cons node rest ih => cases node <;> simp [plainChildren, ih, List.filterMap_cons]

theorem plain_eq (e : Element) :
    plain e = ⟨e.qname, none, [], e.attributes.map plainAttribute,
      textNodes e.textContent ++ e.childElements.map fun d => .element (plain d), 0⟩ := by
  obtain ⟨qname, sourcePrefix, declared, attributes, children, id⟩ := e
  rw [plain, plainChildren_eq]
  rfl

@[simp] theorem plain_qname (e : Element) : (plain e).qname = e.qname := by
  rw [plain_eq]

@[simp] theorem plain_hasName (e : Element) (ns : Option Str) (loc : Str) :
    (plain e).hasName ns loc = e.hasName ns loc := by
  rw [ElementOf.hasName, plain_qname, ElementOf.hasName]

theorem find?_plainAttribute (attributes : List Attribute) (ns : Option Str) (loc : Str) :
    ((attributes.map plainAttribute).find? fun a =>
        a.qname.localName == loc && a.qname.namespaceUri == ns).map Attribute.value =
      (attributes.find? fun a =>
        a.qname.localName == loc && a.qname.namespaceUri == ns).map Attribute.value := by
  rw [List.find?_map, Option.map_map]
  rfl

@[simp] theorem plain_attr (e : Element) (ns : Option Str) (loc : Str) :
    (plain e).attr ns loc = e.attr ns loc := by
  rw [plain_eq, ElementOf.attr]
  exact find?_plainAttribute e.attributes ns loc

theorem asElement_textNodes (t : Str) : (textNodes t).filterMap Node.asElement = [] := by
  cases t <;> rfl

theorem textOf_textNodes (t : Str) : ((textNodes t).map Node.textOf).flatten = t := by
  cases t <;> simp [textNodes]

@[simp] theorem plain_childElements (e : Element) :
    (plain e).childElements = e.childElements.map plain := by
  rw [plain_eq, ElementOf.childElements]
  simp only [List.filterMap_append, asElement_textNodes, List.nil_append, List.filterMap_map]
  rw [← List.filterMap_eq_map]
  rfl

@[simp] theorem plain_childElement (e : Element) (ns : Option Str) (loc : Str) :
    (plain e).childElement ns loc = (e.childElement ns loc).map plain := by
  rw [ElementOf.childElement, plain_childElements, List.find?_map, ElementOf.childElement]
  congr 2
  funext child
  exact plain_hasName child ns loc

@[simp] theorem plain_allChildElements (e : Element) (ns : Option Str) (loc : Str) :
    (plain e).allChildElements ns loc = (e.allChildElements ns loc).map plain := by
  rw [ElementOf.allChildElements, plain_childElements, List.filter_map,
    ElementOf.allChildElements]
  congr 2
  funext child
  exact plain_hasName child ns loc

@[simp] theorem plain_textContent (e : Element) : (plain e).textContent = e.textContent := by
  have hnone : ∀ children : List Element,
      ((children.map fun d => (Node.element (plain d))).map Node.textOf).flatten = [] := by
    intro children
    simp
  rw [plain_eq, ElementOf.textContent]
  simp only [List.map_append, List.flatten_append, textOf_textNodes, hnone, List.append_nil]

/-- Handles are not read. -/
theorem plain_unnumbered :
    (∀ e : Element, plain (unnumbered e) = plain e) ∧
      ∀ nodes : List Node, plainChildren (unnumberedChildren nodes) = plainChildren nodes := by
  apply Element.induct
  case mk =>
    intro e ih
    have htext := unnumbered_textContent e
    obtain ⟨qname, sourcePrefix, declared, attributes, children, id⟩ := e
    rw [unnumbered] at htext ⊢
    rw [plain, plain, ih]
    exact congrArg (fun t => (⟨qname, none, [], attributes.map plainAttribute,
      textNodes t ++ plainChildren children, 0⟩ : Element)) htext
  case nil => rw [unnumberedChildren]
  case element =>
    intro e rest he hrest
    rw [unnumberedChildren, unnumberedNode, plainChildren, plainChildren, he, hrest]
  case text =>
    intro t rest hrest
    rw [unnumberedChildren, unnumberedNode, plainChildren, plainChildren, hrest]
  case comment =>
    intro c rest hrest
    rw [unnumberedChildren, unnumberedNode, plainChildren, plainChildren, hrest]

theorem plainChildren_append (front back : List Node) :
    plainChildren (front ++ back) = plainChildren front ++ plainChildren back := by
  simp [plainChildren_eq]

theorem plainChildren_textNodes (t : Str) : plainChildren (textNodes t) = [] := by
  cases t <;> simp [textNodes, plainChildren]

theorem textOf_rereadChildren (nsStack : List NsLayer) (nodes : List Node) (pending : Str) :
    ((rereadChildren nsStack pending nodes).map Node.textOf).flatten =
      pending ++ (nodes.map Node.textOf).flatten := by
  induction nodes generalizing pending with
  | nil =>
      rw [rereadChildren, textOf_textNodes]
      simp
  | cons node rest ih =>
      cases node <;> simp [rereadChildren, ih, textOf_textNodes]

/-- What is read of an element is read of it after it was written. -/
theorem plain_reread :
    (∀ (e : Element) (nsStack : List NsLayer), plain (reread nsStack e) = plain e) ∧
      ∀ (nodes : List Node) (nsStack : List NsLayer) (pending : Str),
        plainChildren (rereadChildren nsStack pending nodes) = plainChildren nodes := by
  apply Element.induct
  case mk =>
    rintro ⟨qname, sourcePrefix, declared, attributes, children, id⟩ ih nsStack
    rw [reread, plain, plain, ih, textOf_rereadChildren, List.map_map]
    rfl
  case nil =>
    intro nsStack pending
    rw [rereadChildren, plainChildren_textNodes, plainChildren]
  case element =>
    intro e rest he hrest nsStack pending
    rw [rereadChildren, plainChildren_append, plainChildren_textNodes, plainChildren,
      plainChildren, he, hrest, List.nil_append]
  case text =>
    intro t rest hrest nsStack pending
    rw [rereadChildren, plainChildren, hrest]
  case comment =>
    intro c rest hrest nsStack pending
    rw [rereadChildren, plainChildren_append, plainChildren_textNodes, plainChildren,
      plainChildren, hrest, List.nil_append]

/-- What is read of a document is read of the tree it was emitted from. -/
theorem plain_of_unnumbered {e root : Element} {nsStack : List NsLayer}
    (h : unnumbered e = reread nsStack root) : plain e = plain root := by
  rw [← plain_unnumbered.1, h, plain_reread.1]

end Saml.Xml
