import Saml.Xml.Parse

/-!
# The serializer

`xml::emit`: the builder API, the document constructor that numbers a built
tree, and the serializer with its prefix selection.
-/

namespace Saml.Xml

/-- State of `renumber`: the paths and the `ID` index so far. -/
structure Numbering where
  paths : List ElementPath
  idIndex : List (Str × ElementId)

mutual

/-- Number an element and its descendants in document order. -/
def renumber (path : ElementPath) (st : Numbering) : Element → Result (Element × Numbering)
  | ⟨qname, sourcePrefix, declared, attributes, children, _⟩ =>
      if st.paths.length < U32_BOUND then do
        let newId := st.paths.length
        let idIndex ← registerIds newId attributes st.idIndex
        let (children, st) ← renumberChildren path 0 ⟨st.paths ++ [path], idIndex⟩ children
        .ok (⟨qname, sourcePrefix, declared, attributes, children, newId⟩, st)
      else .error (.xmlEmit "element id exceeds u32::MAX")

/-- Number the element at one child position. -/
def renumberNode (path : ElementPath) (index : Nat) (st : Numbering) :
    Node → Result (Node × Numbering)
  | .element e =>
      if index < U32_BOUND then do
        let (e, st) ← renumber (path ++ [index]) st e
        .ok (.element e, st)
      else .error (.xmlEmit "child index exceeds u32::MAX")
  | .text t => .ok (.text t, st)
  | .comment c => .ok (.comment c, st)

/-- Number the children from a position on. -/
def renumberChildren (path : ElementPath) (index : Nat) (st : Numbering) :
    List Node → Result (List Node × Numbering)
  | [] => .ok ([], st)
  | child :: rest => do
      let (child, st) ← renumberNode path index st child
      let (rest, st) ← renumberChildren path (index + 1) st rest
      .ok (child :: rest, st)

end

/-- `Document::new`: wrap a built tree, numbering it in document order. -/
def Document.new (root : Element) : Result Document := do
  let (root, st) ← renumber [] ⟨[], []⟩ root
  .ok ⟨root, st.idIndex, st.paths⟩

namespace ElementOf

/-- `Element::build`: an element with the given name and nothing else. -/
def build (qname : QName) : Element where
  qname := qname
  sourcePrefix := none
  namespacesDeclaredHere := []
  attributes := []
  children := []
  id := 0

/-- Add an attribute with no recorded source prefix. -/
def withAttribute (e : Element) (name : QName) (value : Str) : Element :=
  { e with attributes := e.attributes ++ [⟨name, none, value⟩] }

/-- Add a namespace declaration. -/
def withNamespace (e : Element) (pfx : Option Str) (uri : Str) : Element :=
  { e with namespacesDeclaredHere := e.namespacesDeclaredHere ++ [(pfx, uri)] }

/-- Add a child node. -/
def withChild (e : Element) (node : Node) : Element :=
  { e with children := e.children ++ [node] }

/-- Add a text child. -/
def withText (e : Element) (t : Str) : Element :=
  e.withChild (.text t)

end ElementOf

/-! ## Serialization -/

/-- Escape one character of character data. -/
def textEscape : Char → Str
  | '&' => "&amp;"
  | '<' => "&lt;"
  | '>' => "&gt;"
  | '\r' => "&#13;"
  | c => [c]

/-- Escape one character of an attribute value. -/
def attrEscape : Char → Str
  | '&' => "&amp;"
  | '<' => "&lt;"
  | '>' => "&gt;"
  | '"' => "&quot;"
  | '\t' => "&#9;"
  | '\n' => "&#10;"
  | '\r' => "&#13;"
  | c => [c]

/-- `push_text_escaped`. -/
def textEscaped (t : Str) : Str := t.flatMap textEscape

/-- `push_attr_escaped`. -/
def attrEscaped (value : Str) : Str := value.flatMap attrEscape

/-- `write_qualified_name`. -/
def qualifiedName (pfx : Option Str) (loc : Str) : Str :=
  match pfx with
  | some p => p ++ ':' :: loc
  | none => loc

/-- The name of a namespace declaration, `xmlns` or `xmlns:prefix`. -/
def declName (pfx : Option Str) : Str :=
  match pfx with
  | some p => "xmlns:" ++ p
  | none => "xmlns"

/-- The prefix written for an element name: the most recent declaration of
its URI. -/
def resolvePrefixForEmit (uri : Option Str) (nsStack : List NsLayer) : Result (Option Str) :=
  match uri with
  | none => .ok none
  | some uri =>
      if uri = XML_NS then .ok (some "xml")
      else
        match (nearestFirst nsStack).find? (fun d => d.2 = uri) with
        | some d => .ok d.1
        | none => .error (.xmlEmit ("no namespace prefix in scope for URI " ++ uri))

/-- The prefix written for an attribute name: never the default namespace. -/
def resolvePrefixForAttribute (uri : Option Str) (nsStack : List NsLayer) :
    Result (Option Str) :=
  match uri with
  | none => .ok none
  | some uri =>
      if uri = XML_NS then .ok (some "xml")
      else
        match (nearestFirst nsStack).find? (fun d => d.2 = uri && d.1.isSome) with
        | some d => .ok d.1
        | none =>
            .error (.xmlEmit ("no non-default namespace prefix in scope for attribute URI " ++ uri))

/-- One `name="value"` pair with its leading blank; the value is escaped. -/
def emitPair (name escaped : Str) : Str :=
  " " ++ name ++ "=\"" ++ escaped ++ "\""

/-- A namespace declaration as written. -/
def emitDecl (d : NsDecl) : Str := emitPair (declName d.1) (attrEscaped d.2)

/-- An attribute as written. -/
def emitAttribute (nsStack : List NsLayer) (a : Attribute) : Result Str := do
  let pfx ← resolvePrefixForAttribute a.qname.namespaceUri nsStack
  .ok (emitPair (qualifiedName pfx a.qname.localName) (attrEscaped a.value))

/-- Whether a comment cannot be written. -/
def invalidComment (c : Str) : Bool :=
  decide (("--" : Str) <:+: c) || c.getLast? == some '-'

mutual

/-- `emit_element_inner`. -/
def emitElementInner (nsStack : List NsLayer) : Element → Result Str
  | ⟨qname, _, declared, attributes, children, _⟩ => do
      let nsStack := declared :: nsStack
      let pfx ← resolvePrefixForEmit qname.namespaceUri nsStack
      let name := qualifiedName pfx qname.localName
      let attrs ← attributes.mapM (emitAttribute nsStack)
      let openTag := "<" ++ name ++ declared.flatMap emitDecl ++ attrs.flatten
      if children.isEmpty then .ok (openTag ++ "/>")
      else do
        let body ← emitChildren nsStack children
        .ok (openTag ++ ">" ++ body ++ "</" ++ name ++ ">")

/-- Serialize one child node. -/
def emitNode (nsStack : List NsLayer) : Node → Result Str
  | .element e => emitElementInner nsStack e
  | .text t => .ok (textEscaped t)
  | .comment c =>
      if invalidComment c then
        .error (.xmlEmit "comment content forms invalid XML comment")
      else .ok ("<!--" ++ c ++ "-->")

/-- Serialize the children in order. -/
def emitChildren (nsStack : List NsLayer) : List Node → Result Str
  | [] => .ok []
  | child :: rest => do
      let c ← emitNode nsStack child
      let r ← emitChildren nsStack rest
      .ok (c ++ r)

end

/-- Serialize a single element and its subtree. -/
def emitElement (element : Element) : Result Str :=
  emitElementInner [] element

/-- Serialize an entire document. -/
def emitDocument (doc : Document) : Result Str :=
  emitElement doc.root

end Saml.Xml
