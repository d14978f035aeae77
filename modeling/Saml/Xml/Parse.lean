import Saml.Xml.QuickXml

/-!
# The parser

`xml::parse`: line-ending normalization, and the incremental tree builder that
turns reader events into a document under resource limits.
-/

namespace Saml.Xml

/-- Parse-time resource limits. -/
structure XmlLimits where
  maxDepth : Nat
  maxTotalNodes : Nat
  maxAttributeCount : Nat
  maxTextLength : Nat

/-- `XmlLimits::default`. -/
def XmlLimits.default : XmlLimits where
  maxDepth := 100
  maxTotalNodes := 100000
  maxAttributeCount := 100
  maxTextLength := 1048576

/-- `XmlLimits::aggregate`: room for federation metadata. -/
def XmlLimits.aggregate : XmlLimits where
  maxDepth := 100
  maxTotalNodes := 50000000
  maxAttributeCount := 100
  maxTextLength := 1048576

/-- One past the largest `u32`. -/
def U32_BOUND : Nat := 4294967296

/-- A partially built element and its path from the root. -/
structure StackFrame where
  element : Element
  path : ElementPath

/-- One layer of in-scope declarations, in the order they were written. -/
abbrev NsLayer := List NsDecl

/-- The declarations in scope, nearest first: layers from the innermost
outwards, each read from its last declaration back. -/
def nearestFirst (stack : List NsLayer) : List NsDecl :=
  stack.flatMap List.reverse

/-- The namespace bound to a prefix; `xml` is always bound and an empty URI
undeclares. -/
def resolvePrefix (stack : List NsLayer) (pfx : Option Str) : Option Str :=
  if pfx = some "xml" then
    some XML_NS
  else
    match (nearestFirst stack).lookup pfx with
    | some uri => if uri = [] then none else some uri
    | none => none

/-- End-of-line normalization: `\r\n` and lone `\r` become `\n`. -/
def normalizeLineEndings : Octets → Octets
  | [] => []
  | 13 :: 10 :: rest => 10 :: normalizeLineEndings rest
  | 13 :: rest => 10 :: normalizeLineEndings rest
  | b :: rest => b :: normalizeLineEndings rest

/-- Unescape a raw attribute value. -/
def unescapeValue (qx : QuickXml) (raw : Str) : Result Str :=
  match qx.unescape raw with
  | .ok v => .ok v
  | .error e => .error (.xmlParse ("attribute value decode: " ++ e))

/-- The literal prefix of a raw name, if any. -/
def extractSourcePrefix (name : Str) : Option Str :=
  (QxQName.decompose name).2

/-- Resolve a raw name into an expanded one. -/
def resolveQName (name : Str) (nsStack : List NsLayer) (isAttribute : Bool) : Result QName :=
  let (loc, pfx) := QxQName.decompose name
  match pfx with
  | some p =>
      match resolvePrefix nsStack (some p) with
      | some uri => .ok ⟨some uri, loc⟩
      | none => .error (.xmlParse ("unbound namespace prefix: " ++ p))
  | none =>
      if isAttribute then .ok ⟨none, loc⟩ else .ok ⟨resolvePrefix nsStack none, loc⟩

/-- The first pass over a start tag: its declarations and its other attributes. -/
structure RawAttributes where
  declared : List NsDecl
  rawAttrs : List RawAttribute

/-- Count, unescape and sort the attributes of a start tag, in order. -/
def collectAttributes (qx : QuickXml) (limits : XmlLimits) :
    Nat → List (Except Str RawAttribute) → Result RawAttributes
  | _, [] => .ok ⟨[], []⟩
  | _, .error e :: _ => .error (.xmlParse ("attribute: " ++ e))
  | count, .ok a :: rest =>
      if count + 1 > limits.maxAttributeCount then
        .error (.xmlParse "max attributes per element exceeded")
      else do
        let value ← unescapeValue qx a.value
        let tail ← collectAttributes qx limits (count + 1) rest
        match QxQName.asNamespaceBinding a.key with
        | some pfx => .ok { tail with declared := (pfx, value) :: tail.declared }
        | none => .ok { tail with rawAttrs := ⟨a.key, value⟩ :: tail.rawAttrs }

/-- Resolve one collected attribute. -/
def resolveAttribute (nsStack : List NsLayer) (a : RawAttribute) : Result Attribute := do
  let qname ← resolveQName a.key nsStack true
  .ok ⟨qname, extractSourcePrefix a.key, a.value⟩

/-- Whether an attribute registers its element under an `ID` value. -/
def isIdAttr (a : Attribute) : Bool :=
  (a.qname.namespaceUri == none && a.qname.localName == ("ID" : Str)) ||
    (a.qname.namespaceUri == some XML_NS && a.qname.localName == ("id" : Str))

/-- Register the `ID` values of one element; a value already present fails. -/
def registerIds (id : ElementId) :
    List Attribute → List (Str × ElementId) → Result (List (Str × ElementId))
  | [], index => .ok index
  | a :: rest, index =>
      if isIdAttr a then
        if (index.lookup a.value).isSome then
          .error (.xmlParse "duplicate ID")
        else registerIds id rest (index ++ [(a.value, id)])
      else registerIds id rest index

/-- The incremental tree builder; the innermost frame and layer come first. -/
structure TreeBuilder where
  limits : XmlLimits
  stack : List StackFrame
  nsStack : List NsLayer
  paths : List ElementPath
  idIndex : List (Str × ElementId)
  completedRoot : Option Element
  totalNodes : Nat
  pendingText : Str

namespace TreeBuilder

/-- A builder with an empty namespace scope. -/
def new (limits : XmlLimits) : TreeBuilder where
  limits := limits
  stack := []
  nsStack := []
  paths := []
  idIndex := []
  completedRoot := none
  totalNodes := 0
  pendingText := []

/-- Count one more node. -/
def bumpNodes (b : TreeBuilder) : Result TreeBuilder :=
  if b.totalNodes + 1 > b.limits.maxTotalNodes then
    .error (.xmlParse "max nodes exceeded")
  else .ok { b with totalNodes := b.totalNodes + 1 }

/-- Append a child to the innermost open element, if there is one. -/
def pushChild (b : TreeBuilder) (node : Node) : TreeBuilder :=
  match b.stack with
  | [] => b
  | frame :: outer =>
      { b with
        stack := { frame with
          element := { frame.element with children := frame.element.children ++ [node] } } ::
            outer }

/-- Add a text node; text outside the root is dropped. -/
def pushText (b : TreeBuilder) (value : Str) : Result TreeBuilder :=
  match b.stack with
  | [] => .ok b
  | _ :: _ => do
      let b ← b.bumpNodes
      .ok (b.pushChild (.text value))

/-- Append a fragment to the current run of character data. -/
def appendText (b : TreeBuilder) (fragment : Str) : Result TreeBuilder :=
  if Text.byteLen b.pendingText + Text.byteLen fragment > b.limits.maxTextLength then
    .error (.xmlParse "max text length exceeded")
  else .ok { b with pendingText := b.pendingText ++ fragment }

/-- End the current run of character data. -/
def flushText (b : TreeBuilder) : Result TreeBuilder :=
  match b.pendingText with
  | [] => .ok b
  | value => { b with pendingText := [] }.pushText value

/-- The path of the element opened next: a child position under the innermost
frame, or the root. -/
def nextPath (b : TreeBuilder) : Result ElementPath :=
  match b.stack with
  | [] => .ok []
  | parent :: _ =>
      if parent.element.children.length < U32_BOUND then
        .ok (parent.path ++ [parent.element.children.length])
      else .error (.xmlParse "element index exceeds u32::MAX")

/-- Build an element from a start tag. Its declarations stay on the namespace
stack unless the tag is self-closing. -/
def openElement (qx : QuickXml) (b : TreeBuilder) (start : BytesStart) (selfClosing : Bool) :
    Result (Element × ElementPath × TreeBuilder) := do
  let raw ← collectAttributes qx b.limits 0 start.attributes
  let nsStack := raw.declared :: b.nsStack
  let qname ← resolveQName start.name nsStack false
  let attributes ← raw.rawAttrs.mapM (resolveAttribute nsStack)
  let path ← b.nextPath
  if b.paths.length < U32_BOUND then do
    let id := b.paths.length
    let idIndex ← registerIds id attributes b.idIndex
    let element : Element := {
      qname := qname
      sourcePrefix := extractSourcePrefix start.name
      namespacesDeclaredHere := raw.declared
      attributes := attributes
      children := []
      id := id }
    .ok (element, path, { b with
      nsStack := if selfClosing then b.nsStack else nsStack
      paths := b.paths ++ [path]
      idIndex := idIndex })
  else .error (.xmlParse "element id exceeds u32::MAX")

/-- Attach a finished element to its parent, or make it the root. -/
def closeElement (b : TreeBuilder) (element : Element) : Result TreeBuilder :=
  match b.stack with
  | _ :: _ => .ok (b.pushChild (.element element))
  | [] =>
      match b.completedRoot with
      | some _ => .error (.xmlParse "multiple root elements not allowed")
      | none => .ok { b with completedRoot := some element }

/-- Handle every event that is not character data. -/
def feedStructural (qx : QuickXml) (b : TreeBuilder) : Event → Result TreeBuilder
  | .decl => .ok b
  | .docType => .error (.xmlParse "DTDs not allowed")
  | .pi => .error (.xmlParse "processing instructions not allowed")
  | .start s => do
      let b ← b.bumpNodes
      let (element, path, b) ← b.openElement qx s false
      let b := { b with stack := ⟨element, path⟩ :: b.stack }
      if b.stack.length > b.limits.maxDepth then
        .error (.xmlParse "max depth exceeded")
      else .ok b
  | .empty s => do
      let b ← b.bumpNodes
      let (element, _, b) ← b.openElement qx s true
      b.closeElement element
  | .endTag name =>
      match b.stack with
      | [] => .error (.xmlParse "unmatched end tag")
      | frame :: outer =>
          let b := { b with stack := outer, nsStack := b.nsStack.tail }
          let expected := frame.element.qname.localName
          let actual := (QxQName.decompose name).1
          if actual ≠ expected then
            .error (.xmlParse
              ("end tag mismatch: expected </" ++ expected ++ ">, got </" ++ actual ++ ">"))
          else b.closeElement frame.element
  | .text _ | .generalRef _ =>
      .error (.xmlParse "internal: character data reached structural handler")
  | .cData value =>
      if Text.byteLen value > b.limits.maxTextLength then
        .error (.xmlParse "max text length exceeded")
      else if value = [] then .ok b
      else b.pushText value
  | .comment value =>
      if Text.byteLen value > b.limits.maxTextLength then
        .error (.xmlParse "max text length exceeded")
      else do
        let b ← b.bumpNodes
        .ok (b.pushChild (.comment value))

/-- Feed one event. Character data is buffered, so that a run the reader splits
at references becomes one text node. -/
def feed (qx : QuickXml) (b : TreeBuilder) : Event → Result TreeBuilder
  | .text t => b.appendText t
  | .generalRef name =>
      match qx.unescape ("&" ++ name ++ ";") with
      | .ok resolved => b.appendText resolved
      | .error e => .error (.xmlParse ("entity reference: " ++ e))
  | event => do
      let b ← b.flushText
      b.feedStructural qx event

/-- Turn the builder into a document. -/
def finish (b : TreeBuilder) : Result Document :=
  match b.stack with
  | _ :: _ => .error (.xmlParse "unclosed element at EOF")
  | [] =>
      match b.completedRoot with
      | none => .error (.xmlParse "empty document")
      | some root => .ok ⟨root, b.idIndex, b.paths⟩

/-- The read loop: feed events until the reader fails or ends. -/
def feedAll (qx : QuickXml) (b : TreeBuilder) : List (Except Str Event) → Result TreeBuilder
  | [] => .ok b
  | .error e :: _ => .error (.xmlParse ("quick-xml: " ++ e))
  | .ok event :: rest => do
      let b ← b.feed qx event
      b.feedAll qx rest

end TreeBuilder

namespace Document

/-- `Document::parse_with_limits`. -/
def parseWithLimits (qx : QuickXml) (xml : Octets) (limits : XmlLimits) : Result Document := do
  let b ← (TreeBuilder.new limits).feedAll qx (qx.readEvents (normalizeLineEndings xml))
  b.finish

/-- `Document::parse`: the default limits. -/
def parse (qx : QuickXml) (xml : Octets) : Result Document :=
  parseWithLimits qx xml .default

end Document

end Saml.Xml
