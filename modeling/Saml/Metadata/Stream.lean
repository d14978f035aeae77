import Saml.Library.Association
import Saml.Metadata.Parse

/-!
# Streaming metadata

The streaming scan of `metadata::parse`: the reader's events pass one by one, an
entity's own events feed a tree builder that knows the declarations around it,
and each finished entity goes to the visitor.
-/

namespace Saml

namespace Xml

open Library

/-- The reader of the streaming scan, which also iterates over the attributes of
a start tag without checking them. -/
structure StreamReader extends QuickXml where
  uncheckedAttributes : BytesStart → List (Except Str RawAttribute)

/-- `raw_local_name`. -/
def rawLocalName (name : Str) : Str := (QxQName.decompose name).1

/-- `collect_namespace_decls`: the declarations of a start tag as written. -/
def collectNamespaceDecls (sr : StreamReader) (start : BytesStart) : List (Str × Str) :=
  (((sr.uncheckedAttributes start).filterMap Except.toOption).filter fun a =>
    (QxQName.asNamespaceBinding a.key).isSome).map fun a => (a.key, a.value)

namespace TreeBuilder

/-- The declarations of a seed, unescaped. -/
def seedLayer (qx : QuickXml) : List (Str × Str) → Result NsLayer
  | [] => .ok []
  | (key, value) :: rest => do
      let uri ← unescapeValue qx value
      let bindings ← seedLayer qx rest
      match QxQName.asNamespaceBinding key with
      | some pfx => .ok ((pfx, uri) :: bindings)
      | none => .ok bindings

/-- `with_seed_scope`: the seed lies at the bottom of the namespace stack. -/
def withSeedScope (qx : QuickXml) (limits : XmlLimits) (seed : List (Str × Str)) :
    Result TreeBuilder := do
  let layer ← seedLayer qx seed
  .ok { new limits with nsStack := [layer] }

/-- `finish_root`. -/
def finishRoot (b : TreeBuilder) : Result Element :=
  match b.stack with
  | _ :: _ => .error (.xmlParse "unclosed element at EOF")
  | [] => okOr b.completedRoot (.xmlParse "empty document")

end TreeBuilder

end Xml

namespace Metadata

open Xml Crypto Library

/-- What a visitor answers. -/
inductive StreamControl where
  | continue
  | stop
deriving DecidableEq, Repr

/-- The most wrappers the scan descends into. -/
def MAX_STREAM_DEPTH : Nat := 100

/-- The most entities the scan visits. -/
def MAX_STREAM_ENTITIES : Nat := 10000000

/-- The declarations of an open wrapper and the depth it sits at. -/
structure NsFrame where
  decls : List (Str × Str)
  depth : Nat

/-- The state of the scan; the innermost wrapper comes first. -/
structure Scan where
  nsStack : List NsFrame
  rootSeen : Bool
  rootIsAggregate : Bool
  captureStart : Option Nat
  builder : Option TreeBuilder
  elementDepth : Nat
  entitiesVisited : Nat

/-- What the scan does after an event. -/
inductive Outcome where
  | next (scan : Scan)
  | done
  | entity (root : Element) (scan : Scan)

/-- `new_entity_builder`: the innermost declaration of a prefix wins. -/
def newEntityBuilder (qx : QuickXml) (nsStack : List NsFrame) : Result TreeBuilder :=
  TreeBuilder.withSeedScope qx .aggregate
    ((nsStack.reverse.flatMap NsFrame.decls).foldl Association.assign [])

/-- The refusal of a document without entities. -/
def notMetadata {α : Type} : Result α :=
  .error (.invalidConfiguration "root is not <md:EntityDescriptor> or <md:EntitiesDescriptor>")

namespace Scan

/-- The state before the first event. -/
def initial : Scan where
  nsStack := []
  rootSeen := false
  rootIsAggregate := false
  captureStart := none
  builder := none
  elementDepth := 0
  entitiesVisited := 0

variable (sr : StreamReader)

/-- Inside an entity every event goes to its builder. -/
def feedBuilder (scan : Scan) (event : Event) : Result Scan :=
  match scan.builder with
  | none => .ok scan
  | some b => do
      let b ← b.feed sr.toQuickXml event
      .ok { scan with builder := some b }

/-- One element further down. -/
def descend (scan : Scan) : Scan := { scan with elementDepth := scan.elementDepth + 1 }

/-- Begin an entity with its start tag. -/
def capture (scan : Scan) (captureStart : Nat) (start : BytesStart) : Result Scan := do
  let b ← newEntityBuilder sr.toQuickXml scan.nsStack
  let b ← b.feed sr.toQuickXml (.start start)
  .ok { scan with captureStart := some captureStart, builder := some b }.descend

/-- Descend into a wrapper. -/
def enter (scan : Scan) (start : BytesStart) : Scan :=
  { scan with
    nsStack := ⟨collectNamespaceDecls sr start, scan.elementDepth⟩ :: scan.nsStack }.descend

/-- The start tag of the root. -/
def startRoot (scan : Scan) (start : BytesStart) : Result Scan :=
  let loc := rawLocalName start.name
  let scan := { scan with rootSeen := true, rootIsAggregate := loc == ("EntitiesDescriptor" : Str) }
  if loc = "EntitiesDescriptor" then .ok (scan.enter sr start)
  else if loc = "EntityDescriptor" then scan.capture sr 0 start
  else notMetadata

/-- A start tag below the root. -/
def startInner (scan : Scan) (start : BytesStart) : Result Scan :=
  if scan.captureStart.isSome then .ok scan.descend
  else if rawLocalName start.name = "EntityDescriptor" then scan.capture sr scan.elementDepth start
  else if rawLocalName start.name = "EntitiesDescriptor" then
    if MAX_STREAM_DEPTH ≤ scan.nsStack.length then
      .error (.xmlParse "nested EntitiesDescriptor depth limit exceeded")
    else .ok (scan.enter sr start)
  else .ok scan.descend

/-- The end of the captured entity. -/
def finishEntity (scan : Scan) : Result Outcome := do
  let b ← okOr scan.builder (.xmlParse "entity builder missing")
  let root ← b.finishRoot
  let scan := { scan with
    builder := none, captureStart := none, entitiesVisited := scan.entitiesVisited + 1 }
  if scan.entitiesVisited > MAX_STREAM_ENTITIES then
    .error (.xmlParse "aggregate entity count limit exceeded")
  else .ok (.entity root scan)

/-- The end of a wrapper sitting at the depth just left; the root's frame stays. -/
def leave (scan : Scan) : Scan :=
  if scan.captureStart.isNone && decide (1 < scan.nsStack.length) &&
      scan.nsStack.head?.any (·.depth = scan.elementDepth) then
    { scan with nsStack := scan.nsStack.tail }
  else scan

/-- An end tag. -/
def endElement (scan : Scan) : Result Outcome :=
  match scan.elementDepth with
  | 0 => .error (.xmlParse "unmatched end tag")
  | depth + 1 =>
      let scan := { scan with elementDepth := depth }
      if scan.captureStart = some depth then scan.finishEntity else .ok (.next scan.leave)

/-- One turn of the loop of `stream_entity_elements`. -/
def step (scan : Scan) (event : Event) : Result Outcome := do
  let scan ← scan.feedBuilder sr event
  match event with
  | .docType => .error (.xmlParse "DTDs not allowed")
  | .pi => .error (.xmlParse "processing instructions not allowed")
  | .start start => do
      let scan ← if scan.rootSeen then scan.startInner sr start else scan.startRoot sr start
      .ok (.next scan)
  | .empty start =>
      let loc := rawLocalName start.name
      if scan.rootSeen then .ok (.next scan)
      else if loc ≠ "EntitiesDescriptor" ∧ loc ≠ "EntityDescriptor" then notMetadata
      else .ok .done
  | .endTag _ => scan.endElement
  | _ => .ok (.next scan)

/-- The loop of `stream_entity_elements`: the visitor's state and the result. -/
def run {σ : Type} (visit : σ → Element → σ × Result StreamControl) (scan : Scan) (s : σ) :
    List (Except Str Event) → σ × Result Unit
  | [] => (s, .ok ())
  | .error e :: _ => (s, .error (.xmlParse ("quick-xml: " ++ e)))
  | .ok event :: rest =>
      match scan.step sr event with
      | .error err => (s, .error err)
      | .ok .done => (s, .ok ())
      | .ok (.next next) => run visit next s rest
      | .ok (.entity root next) =>
          match visit s root with
          | (s, .error err) => (s, .error err)
          | (s, .ok .stop) => (s, .ok ())
          | (s, .ok .continue) =>
              if next.rootIsAggregate then run visit next s rest else (s, .ok ())

end Scan

variable (crypto : Primitives) (sr : StreamReader)

/-- `stream_entity_elements`. -/
def streamEntityElements {σ : Type} (visit : σ → Element → σ × Result StreamControl) (s : σ)
    (metadataXml : Octets) : σ × Result Unit :=
  Scan.initial.run sr visit s (sr.readEvents (normalizeLineEndings metadataXml))

/-- Parse an entity for a visitor of entries. -/
def visitEntity {σ : Type} (visit : σ → MetadataEntry → σ × StreamControl) (s : σ)
    (entityRoot : Element) : σ × Result StreamControl :=
  match parseEntityDescriptor crypto entityRoot with
  | .ok entry => ((visit s entry).1, .ok (visit s entry).2)
  | .error err => (s, .error err)

/-- `stream_entities`. -/
def streamEntities {σ : Type} (visit : σ → MetadataEntry → σ × StreamControl) (s : σ)
    (metadataXml : Octets) : σ × Result Unit :=
  streamEntityElements sr (visitEntity crypto visit) s metadataXml

end Metadata

end Saml
