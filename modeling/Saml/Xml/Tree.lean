import Saml.Error
import Saml.Namespaces

/-!
# Element trees

The in-memory tree of `xml::parse`: expanded names, the namespace
declarations literally written on an element, its attributes in document
order, and its child nodes inline.
-/

namespace Saml.Xml

/-- An expanded name: namespace URI and local name. -/
structure QName where
  namespaceUri : Option Str
  localName : Str
deriving DecidableEq, Repr

namespace QName

/-- The `Display` form, `{uri}local`. -/
def display (q : QName) : Str :=
  match q.namespaceUri with
  | some ns => "\x7b" ++ ns ++ "\x7d" ++ q.localName
  | none => q.localName

end QName

/-- Handle of an element within a document: its number in document order. -/
abbrev ElementId := Nat

/-- A namespace declaration: the prefix (`none` for the default) and the URI. -/
abbrev NsDecl := Option Str × Str

/-- An attribute with the prefix the source document wrote it with. -/
structure Attribute where
  qname : QName
  sourcePrefix : Option Str
  value : Str
deriving DecidableEq, Repr

/-- An element over the type of its child nodes. -/
structure ElementOf (ν : Type) where
  qname : QName
  sourcePrefix : Option Str
  namespacesDeclaredHere : List NsDecl
  attributes : List Attribute
  children : List ν
  id : ElementId

/-- A child node. -/
inductive Node where
  | element (e : ElementOf Node)
  | text (t : Str)
  | comment (c : Str)

/-- A single XML element with its inline child list. -/
abbrev Element := ElementOf Node

/-- A path from the root, as positions in the child lists on the way. -/
abbrev ElementPath := List Nat

/-- Induction over an element and the nodes below it. -/
theorem Element.induct {P : Element → Prop} {Q : List Node → Prop}
    (mk : ∀ e : Element, Q e.children → P e) (nil : Q [])
    (element : ∀ e rest, P e → Q rest → Q (.element e :: rest))
    (text : ∀ t rest, Q rest → Q (.text t :: rest))
    (comment : ∀ c rest, Q rest → Q (.comment c :: rest)) :
    (∀ e, P e) ∧ ∀ nodes, Q nodes := by
  let R : Node → Prop := fun n => ∀ rest, Q rest → Q (n :: rest)
  have key : ∀ n, R n := fun n =>
    @Node.rec R P Q
      (fun e he rest hr => element e rest he hr)
      (fun t rest hr => text t rest hr)
      (fun c rest hr => comment c rest hr)
      (fun _ _ _ _ _ _ hc => mk _ hc) nil
      (fun _ _ hn ht => hn _ ht) n
  have nodes : ∀ l, Q l := by
    intro l
    induction l with
    | nil => exact nil
    | cons n rest ih => exact key n rest ih
  exact ⟨fun e => mk e (nodes e.children), nodes⟩

namespace Node

/-- The element of an element node. -/
def asElement : Node → Option Element
  | .element e => some e
  | _ => none

/-- The characters of a text node, nothing for the others. -/
def textOf : Node → Str
  | .text t => t
  | _ => []

@[simp] theorem asElement_element (e : Element) : asElement (.element e) = some e := rfl
@[simp] theorem asElement_text (t : Str) : asElement (.text t) = none := rfl
@[simp] theorem asElement_comment (c : Str) : asElement (.comment c) = none := rfl
@[simp] theorem textOf_element (e : Element) : textOf (.element e) = [] := rfl
@[simp] theorem textOf_text (t : Str) : textOf (.text t) = t := rfl
@[simp] theorem textOf_comment (c : Str) : textOf (.comment c) = [] := rfl

end Node

namespace ElementOf

/-- Whether the element has the given expanded name. -/
def hasName (e : Element) (ns : Option Str) (loc : Str) : Bool :=
  e.qname.localName == loc && e.qname.namespaceUri == ns

theorem hasName_iff {e : Element} {ns : Option Str} {loc : Str} :
    e.hasName ns loc = true ↔ e.qname = ⟨ns, loc⟩ := by
  rcases h : e.qname with ⟨n, l⟩
  simp [hasName, h, and_comm]

/-- The value of the first attribute with the given expanded name. -/
def attr (e : Element) (ns : Option Str) (loc : Str) : Option Str :=
  (e.attributes.find? fun a =>
    a.qname.localName == loc && a.qname.namespaceUri == ns).map Attribute.value

/-- The child elements, in document order. -/
def childElements (e : Element) : List Element :=
  e.children.filterMap Node.asElement

/-- The first child element with the given expanded name. -/
def childElement (e : Element) (ns : Option Str) (loc : Str) : Option Element :=
  e.childElements.find? (·.hasName ns loc)

/-- All child elements with the given expanded name. -/
def allChildElements (e : Element) (ns : Option Str) (loc : Str) : List Element :=
  e.childElements.filter (·.hasName ns loc)

/-- Concatenation of the direct text children. -/
def textContent (e : Element) : Str :=
  (e.children.map Node.textOf).flatten

/-- Splice a node into the child list (`Vec::insert`). -/
def insertChild (e : Element) (index : Nat) (node : Node) : Element :=
  { e with children := e.children.insertIdx index node }

/-- The element a path of child positions leads to. -/
def walk (e : Element) : ElementPath → Option Element
  | [] => some e
  | i :: rest =>
      match e.children[i]? with
      | some (.element child) => walk child rest
      | _ => none

@[simp] theorem walk_nil (e : Element) : e.walk [] = some e := rfl

theorem walk_append (e : Element) (p q : ElementPath) :
    e.walk (p ++ q) = (e.walk p).bind fun d => d.walk q := by
  induction p generalizing e with
  | nil => rfl
  | cons i rest ih =>
      simp only [List.cons_append, walk]
      cases e.children[i]? with
      | none => rfl
      | some n =>
          cases n with
          | element child => exact ih child
          | text t => rfl
          | comment c => rfl

theorem mem_childElements {e d : Element} :
    d ∈ e.childElements ↔ Node.element d ∈ e.children := by
  simp only [childElements, List.mem_filterMap]
  constructor
  · rintro ⟨n, hn, h⟩
    cases n <;> simp_all [Node.asElement]
  · intro h
    exact ⟨_, h, rfl⟩

theorem childElement_mem {e d : Element} {ns : Option Str} {loc : Str}
    (h : e.childElement ns loc = some d) : d ∈ e.childElements :=
  List.mem_of_find?_eq_some h

theorem childElement_qname {e d : Element} {ns : Option Str} {loc : Str}
    (h : e.childElement ns loc = some d) : d.qname = ⟨ns, loc⟩ := by
  have hd := List.find?_some h
  exact hasName_iff.mp hd

end ElementOf

/-- A document: the tree, the path of every element, and the `ID` index. -/
structure Document where
  root : Element
  idIndex : List (Str × ElementId)
  paths : List ElementPath

namespace Document

/-- Resolve a handle back to its element. -/
def element (doc : Document) (id : ElementId) : Option Element :=
  match doc.paths[id]? with
  | some path => doc.root.walk path
  | none => none

/-- Look an element up by its registered `ID` value. -/
def elementByIdAttr (doc : Document) (idAttr : Str) : Option ElementId :=
  doc.idIndex.lookup idAttr

end Document

end Saml.Xml
