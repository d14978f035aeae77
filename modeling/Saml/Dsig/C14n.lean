import Saml.Xml.Emit
import Saml.Dsig.Algorithms
import Mathlib.Data.List.Lex
import Mathlib.Data.List.Sort

/-!
# Canonicalization

`dsig::c14n`: canonical XML and exclusive canonical XML of an element subtree,
with the in-scope bindings of the ancestor chain and the bindings already
rendered on output ancestors threaded through the walk.
-/

namespace Saml.Dsig.C14n

open Xml

/-! ## Bindings -/

/-- `merge_rendered`: insert or overwrite the binding of a prefix. -/
def mergeRendered : List NsDecl → NsDecl → List NsDecl
  | [], d => [d]
  | e :: rest, d => if e.1 = d.1 then (e.1, d.2) :: rest else e :: mergeRendered rest d

/-- Overlay a list of bindings with later ones. -/
def mergeAll (out decls : List NsDecl) : List NsDecl := decls.foldl mergeRendered out

/-- `namespaces_in_scope` below a chain of ancestors. -/
def namespacesInScope (ancestorChain : List Element) : List NsDecl :=
  ancestorChain.foldl (fun out e => mergeAll out e.namespacesDeclaredHere) []

/-- `lookup_in_scope`: the URI bound to a prefix. -/
def lookupInScope (inScope : List NsDecl) (pfx : Option Str) : Option Str :=
  (inScope.reverse.find? fun d => d.1 = pfx).map Prod.snd

/-- Whether a prefix is bound to a URI. -/
def binds (inScope : List NsDecl) (pfx : Option Str) (uri : Str) : Bool :=
  inScope.any fun d => d.2 = uri && d.1 = pfx

/-- `prefix_for_uri`: the recorded prefix when it is bound to the URI, then the
default namespace for an element without one, then the most deeply nested
binding. -/
def prefixForUri (inScope : List NsDecl) (uri : Option Str) (isAttribute : Bool)
    (sourcePrefix : Option Str) : Result (Option Str) :=
  match uri with
  | none => .ok none
  | some uri =>
      if uri = XML_NS then .ok (some "xml")
      else if sourcePrefix.any (fun hint => hint ≠ [] && binds inScope (some hint) uri) then
        .ok sourcePrefix
      else if sourcePrefix.isNone && !isAttribute && binds inScope none uri then .ok none
      else
        match inScope.reverse.find? (fun d => d.2 = uri && !(isAttribute && d.1.isNone)) with
        | some d => .ok d.1
        | none => .error (.xmlEmit ("no namespace prefix in scope for URI " ++ uri))

/-- `should_render`: whether a binding is not yet output on an ancestor. -/
def shouldRender (pfx : Option Str) (uri : Str) (renderedAbove : List NsDecl) : Bool :=
  if pfx = some ("xml" : Str) ∧ uri = XML_NS then false
  else
    match lookupInScope renderedAbove pfx with
    | none => !(pfx.isNone && uri.isEmpty)
    | some prev => prev ≠ uri

/-- `push_unique`. -/
def pushUnique (out : List NsDecl) (d : NsDecl) : List NsDecl :=
  if out.any (fun e => e.1 = d.1) then out else out ++ [d]

/-- `push_unique_opt`. -/
def pushUniqueOpt (out : List (Option Str)) (pfx : Option Str) : List (Option Str) :=
  if pfx ∈ out then out else out ++ [pfx]

/-- The prefix an attribute visibly utilizes, if any. -/
def attributePrefix (inScope : List NsDecl) (a : Attribute) : Result (Option Str) :=
  match a.qname.namespaceUri with
  | none => .ok none
  | some uri =>
      if uri = XML_NS then .ok none
      else prefixForUri inScope (some uri) true a.sourcePrefix

/-- `utilized_prefixes`: the prefixes of the element name and of its qualified
attributes. -/
def utilizedPrefixes (element : Element) (inScope : List NsDecl) :
    Result (List (Option Str)) := do
  let elemPrefix ← prefixForUri inScope element.qname.namespaceUri false element.sourcePrefix
  let attrPrefixes ← element.attributes.mapM (attributePrefix inScope)
  .ok ((attrPrefixes.filter Option.isSome).foldl pushUniqueOpt [elemPrefix])

/-- The binding a utilized prefix has in scope; an undeclared default
namespace is empty. -/
def utilizedBinding (inScope : List NsDecl) (pfx : Option Str) : Result NsDecl :=
  match lookupInScope inScope pfx, pfx with
  | some uri, _ => .ok (pfx, uri)
  | none, none => .ok (none, [])
  | none, some p =>
      .error (.xmlEmit ("namespace prefix '" ++ p ++ "' visibly utilized but not in scope"))

/-- The binding a `PrefixList` token names, when it is in scope. -/
def prefixListBinding (inScope : List NsDecl) (token : Str) : Option NsDecl :=
  let pfx : Option Str := if token = ("#default" : Str) then none else some token
  match lookupInScope inScope pfx, pfx with
  | some uri, _ => some (pfx, uri)
  | none, none => some (none, [])
  | none, some _ => none

/-- Add a binding that an output ancestor does not already show. -/
def addRendered (renderedAbove out : List NsDecl) (d : NsDecl) : List NsDecl :=
  if shouldRender d.1 d.2 renderedAbove then pushUnique out d else out

/-- `compute_exclusive`. -/
def computeExclusive (element : Element) (inScope renderedAbove : List NsDecl)
    (inclusivePrefixes : List Str) : Result (List NsDecl) := do
  let utilized ← utilizedPrefixes element inScope
  let bindings ← utilized.mapM (utilizedBinding inScope)
  let listed := inclusivePrefixes.filterMap (prefixListBinding inScope)
  .ok ((bindings ++ listed).foldl (addRendered renderedAbove) [])

/-- `compute_inclusive`: every in-scope binding on the apex, the element's own
declarations below it. -/
def computeInclusive (element : Element) (inScope renderedAbove : List NsDecl)
    (isApex : Bool) : List NsDecl :=
  let candidates :=
    if isApex then inScope.filter fun d => !(d.1.isNone && d.2.isEmpty)
    else element.namespacesDeclaredHere
  candidates.foldl (addRendered renderedAbove) []

/-- `compute_rendered_namespaces`. -/
def computeRenderedNamespaces (element : Element) (inScope renderedAbove : List NsDecl)
    (isApex : Bool) (algorithm : C14nAlgorithm) (inclusivePrefixes : List Str) :
    Result (List NsDecl) :=
  if algorithm.isExclusive then computeExclusive element inScope renderedAbove inclusivePrefixes
  else .ok (computeInclusive element inScope renderedAbove isApex)

/-! ## Order -/

/-- The order of namespace declarations: the default one first, then by
prefix. UTF-8 keeps the order of the characters. -/
def nsBefore (a b : NsDecl) : Prop :=
  match a.1, b.1 with
  | none, _ => True
  | some _, none => False
  | some p, some q => p ≤ q

instance : DecidableRel nsBefore := fun a b => by
  unfold nsBefore
  split <;> infer_instance

/-- The URI an attribute sorts by. -/
def attrSortUri (a : Attribute) : Str := a.qname.namespaceUri.getD []

/-- The order of attributes: by namespace URI, then by local name. -/
def attrBefore (a b : Attribute) : Prop :=
  attrSortUri a < attrSortUri b ∨
    attrSortUri a = attrSortUri b ∧ a.qname.localName ≤ b.qname.localName

instance : DecidableRel attrBefore := fun _ _ => instDecidableOr

/-! ## Output -/

/-- Escape one character of character data. -/
def textEscape : Char → Str
  | '&' => "&amp;"
  | '<' => "&lt;"
  | '>' => "&gt;"
  | '\r' => "&#xD;"
  | c => [c]

/-- Escape one character of an attribute value. -/
def attrEscape : Char → Str
  | '&' => "&amp;"
  | '<' => "&lt;"
  | '"' => "&quot;"
  | '\t' => "&#x9;"
  | '\n' => "&#xA;"
  | '\r' => "&#xD;"
  | c => [c]

/-- `push_text_escaped`. -/
def textEscaped (t : Str) : Str := t.flatMap textEscape

/-- `push_attr_value_escaped`. -/
def attrEscaped (value : Str) : Str := value.flatMap attrEscape

/-- A rendered namespace declaration. -/
def renderDecl (d : NsDecl) : Str := emitPair (declName d.1) (attrEscaped d.2)

/-- A rendered attribute. -/
def renderAttribute (inScope : List NsDecl) (a : Attribute) : Result Str := do
  let pfx ← prefixForUri inScope a.qname.namespaceUri true a.sourcePrefix
  .ok (emitPair (qualifiedName pfx a.qname.localName) (attrEscaped a.value))

mutual

/-- `emit_element`. The bindings in scope above the element stand for its
ancestor chain. -/
def emitElement (algorithm : C14nAlgorithm) (inclusivePrefixes : List Str)
    (scopeAbove renderedAbove : List NsDecl) (isApex : Bool) : Element → Result Str
  | ⟨qname, sourcePrefix, declared, attributes, children, id⟩ => do
      let inScope := mergeAll scopeAbove declared
      let toRender ← computeRenderedNamespaces
        ⟨qname, sourcePrefix, declared, attributes, children, id⟩ inScope renderedAbove isApex
        algorithm inclusivePrefixes
      let elemPrefix ← prefixForUri inScope qname.namespaceUri false sourcePrefix
      let name := qualifiedName elemPrefix qname.localName
      let nsSorted := toRender.insertionSort nsBefore
      let attrs ← (attributes.insertionSort attrBefore).mapM (renderAttribute inScope)
      let body ← emitChildren algorithm inclusivePrefixes inScope
        (mergeAll renderedAbove nsSorted) children
      .ok ("<" ++ name ++ nsSorted.flatMap renderDecl ++ attrs.flatten ++ ">" ++ body ++
        "</" ++ name ++ ">")

/-- Emit one child node; comments only for the `WithComments` variants. -/
def emitNode (algorithm : C14nAlgorithm) (inclusivePrefixes : List Str)
    (scopeAbove renderedAbove : List NsDecl) : Node → Result Str
  | .element e => emitElement algorithm inclusivePrefixes scopeAbove renderedAbove false e
  | .text t => .ok (textEscaped t)
  | .comment c => .ok (if algorithm.includesComments then "<!--" ++ c ++ "-->" else [])

/-- Emit the children in order. -/
def emitChildren (algorithm : C14nAlgorithm) (inclusivePrefixes : List Str)
    (scopeAbove renderedAbove : List NsDecl) : List Node → Result Str
  | [] => .ok []
  | child :: rest => do
      let c ← emitNode algorithm inclusivePrefixes scopeAbove renderedAbove child
      let r ← emitChildren algorithm inclusivePrefixes scopeAbove renderedAbove rest
      .ok (c ++ r)

end

/-- The canonical text of an element below a chain of ancestors. -/
def canonicalText (element : Element) (ancestorChain : List Element)
    (algorithm : C14nAlgorithm) (inclusivePrefixes : List Str) : Result Str :=
  emitElement algorithm inclusivePrefixes (namespacesInScope ancestorChain) [] true element

/-- `canonicalize`: the canonical octets. -/
def canonicalize (element : Element) (ancestorChain : List Element)
    (algorithm : C14nAlgorithm) (inclusivePrefixes : List Str) : Result Octets :=
  (canonicalText element ancestorChain algorithm inclusivePrefixes).map Text.asBytes

end Saml.Dsig.C14n
