import Saml.Metadata.Entities
import Saml.Metadata.Stream
import Saml.Xml.Accepted

/-!
# Reading an aggregate

What the eager parse has gathered while the builder is still inside the document,
and the tags on which the two ways of recognising an entity part: by its expanded
name in the tree, or by its local name among the events.
-/

namespace Saml.Metadata

open Xml

/-! ## Tags -/

/-- A name in the metadata namespace. -/
def md (loc : Str) : QName := ⟨some MD_NS, loc⟩

theorem isMdElement_iff {e : Element} {loc : Str} :
    isMdElement e loc = true ↔ e.qname = md loc :=
  ElementOf.hasName_iff

/-- All open elements are wrappers. -/
def wraps (stack : List StackFrame) : Bool :=
  stack.all fun frame => isMdElement frame.element "EntitiesDescriptor"

/-- No open element has the local name of an entity. -/
def outside (stack : List StackFrame) : Bool :=
  stack.all fun frame => frame.element.qname.localName != ("EntityDescriptor" : Str)

/-- The expanded name a start tag has where the builder meets it. -/
def tagName (qx : QuickXml) (b : TreeBuilder) (start : BytesStart) : Result QName := do
  let raw ← collectAttributes qx b.limits 0 start.attributes
  resolveQName start.name (raw.declared :: b.nsStack) false

/-- The tag begins an entity of the tree. -/
def taken (qx : QuickXml) (b : TreeBuilder) (start : BytesStart) : Bool :=
  wraps b.stack && decide (tagName qx b start = .ok (md "EntityDescriptor"))

/-- A start tag outside all entities that only looks like one: another namespace,
or another element around it than wrappers. -/
def spurious (qx : QuickXml) : TreeBuilder × Event → Bool
  | (b, .start start) => outside b.stack &&
      decide (rawLocalName start.name = ("EntityDescriptor" : Str)) && !taken qx b start
  | _ => false

/-- An entity written as an empty tag. -/
def missed (qx : QuickXml) : TreeBuilder × Event → Bool
  | (b, .empty start) => taken qx b start
  | _ => false

/-- Every event read, with the builder that meets it. -/
def readings (qx : QuickXml) : TreeBuilder → List (Except Str Event) → List (TreeBuilder × Event)
  | b, .ok event :: rest => (b, event) ::
      match b.feed qx event with
      | .ok next => readings qx next rest
      | .error _ => []
  | _, _ => []

theorem readings_cons {qx : QuickXml} {b next : TreeBuilder} {event : Event}
    (h : b.feed qx event = .ok next) (rest : List (Except Str Event)) :
    readings qx b (.ok event :: rest) = (b, event) :: readings qx next rest := by
  rw [readings, h]

/-! ## What is gathered -/

/-- The entity elements below the open elements. -/
def gathered : List StackFrame → List Element
  | [] => []
  | frame :: outer => gathered outer ++
      if wraps (frame :: outer) then entitiesIn frame.element.children else []

/-- The entity elements met so far. -/
def gatheredBy (b : TreeBuilder) : List Element :=
  match b.completedRoot with
  | some root => rootEntities root
  | none => gathered b.stack

/-- The names and the declarations of the open elements. -/
def shape (stack : List StackFrame) : List (QName × NsLayer) :=
  stack.map fun frame => (frame.element.qname, frame.element.namespacesDeclaredHere)

theorem length_shape {stack other : List StackFrame} (h : shape stack = shape other) :
    stack.length = other.length := by
  simpa [shape] using congrArg List.length h

theorem wraps_shape {stack other : List StackFrame} (h : shape stack = shape other) :
    wraps stack = wraps other := by
  have hall (stack : List StackFrame) :
      wraps stack = (shape stack).all fun entry => decide (entry.1 = md "EntitiesDescriptor") := by
    rw [wraps, shape, List.all_map]
    congr 1
    funext frame
    rw [Bool.eq_iff_iff, isMdElement_iff, Function.comp_apply, decide_eq_true_iff]
  rw [hall, hall, h]

theorem outside_shape {stack other : List StackFrame} (h : shape stack = shape other) :
    outside stack = outside other := by
  have hall (stack : List StackFrame) :
      outside stack =
        (shape stack).all fun entry => entry.1.localName != ("EntityDescriptor" : Str) := by
    rw [outside, shape, List.all_map]
    rfl
  rw [hall, hall, h]

theorem shape_padded {stack padded : List StackFrame} (h : TreeBuilder.Padded stack padded) :
    shape padded = shape stack := by
  cases h <;> rfl

theorem gathered_padded {stack padded : List StackFrame} (h : TreeBuilder.Padded stack padded) :
    gathered padded = gathered stack := by
  cases h with
  | same => rfl
  | leaves frame outer nodes leaf =>
      rw [gathered, gathered, wraps_shape (shape_padded (.leaves frame outer nodes leaf)),
        entitiesIn_append, entitiesIn_leaves leaf, List.append_nil]

variable {qx : QuickXml} {b mid next opened : TreeBuilder} {start : BytesStart} {element : Element}
  {path : ElementPath} {selfClosing : Bool}

theorem gatheredBy_quiet (h : TreeBuilder.Quiet b next) : gatheredBy next = gatheredBy b := by
  rw [gatheredBy, gatheredBy, h.completedRoot]
  cases b.completedRoot with
  | some root => rfl
  | none => exact gathered_padded h.stack

/-- The name of an opened element is the tag's. -/
theorem tagName_open (flushed : TreeBuilder.Quiet b mid)
    (hopen : mid.openElement qx start selfClosing = .ok (element, path, opened)) :
    tagName qx b start = .ok element.qname := by
  obtain ⟨raw, hraw, _, hname, _⟩ := TreeBuilder.openElement_scope hopen
  rw [flushed.limits] at hraw
  rw [flushed.nsStack] at hname
  exact bind_eq_ok_iff.mpr ⟨raw, hraw, hname⟩

theorem localName_open
    (hopen : mid.openElement qx start selfClosing = .ok (element, path, opened)) :
    element.qname.localName = rawLocalName start.name := by
  obtain ⟨raw, hraw, _, hname, _⟩ := TreeBuilder.openElement_scope hopen
  exact (resolveQName_eq_ok_iff.mp hname).1

theorem taken_open (flushed : TreeBuilder.Quiet b mid)
    (hopen : mid.openElement qx start selfClosing = .ok (element, path, opened)) :
    taken qx b start = (wraps b.stack && isMdElement element "EntityDescriptor") := by
  rw [taken, tagName_open flushed hopen, Bool.eq_iff_iff]
  simp [isMdElement_iff]

/-- What opening an element does to the frames: it has nothing below it yet. -/
theorem opens_shape (root : b.completedRoot = none) (h : TreeBuilder.Opens qx b start next) :
    ∃ element : Element,
      shape next.stack = (element.qname, element.namespacesDeclaredHere) :: shape b.stack ∧
      next.completedRoot = none ∧ tagName qx b start = .ok element.qname ∧
      element.qname.localName = rawLocalName start.name ∧
      (∃ raw, collectAttributes qx b.limits 0 start.attributes = .ok raw ∧
        element.namespacesDeclaredHere = raw.declared) ∧
      gatheredBy next = gatheredBy b := by
  obtain ⟨mid, opened, element, path, hquiet, hopen, rfl, _⟩ := h
  obtain ⟨raw, hraw, hdeclared, _⟩ := TreeBuilder.openElement_scope hopen
  obtain ⟨_, hchildren, _, hstack, hroot, _, _⟩ := TreeBuilder.openElement_ok hopen
  have hnone : opened.completedRoot = none := hroot.trans (hquiet.completedRoot.trans root)
  refine ⟨element, ?_, hnone, tagName_open hquiet hopen, localName_open hopen,
    ⟨raw, hquiet.limits ▸ hraw, hdeclared⟩, ?_⟩
  · rw [← shape_padded hquiet.stack, ← hstack]
    rfl
  · rw [← gatheredBy_quiet hquiet, gatheredBy, gatheredBy, hroot, hquiet.completedRoot, root]
    simp only [gathered, hstack, hchildren]
    split <;> exact List.append_nil _

/-- A finished element is an entity, or a wrapper of entities, or neither. -/
theorem entitiesAt_eq (e : Element) :
    entitiesAt (.element e) =
      (if isMdElement e "EntitiesDescriptor" then entitiesIn e.children else []) ++
        if isMdElement e "EntityDescriptor" then [e] else [] := by
  rw [entitiesAt_element]
  by_cases hentity : isMdElement e "EntityDescriptor" = true
  · have hwrapper : ¬ isMdElement e "EntitiesDescriptor" = true := by
      intro hwrapper
      have heq := (isMdElement_iff.mp hentity).symm.trans (isMdElement_iff.mp hwrapper)
      exact absurd heq (by decide)
    rw [if_pos hentity, if_neg hwrapper, if_pos hentity, List.nil_append]
  · rw [if_neg hentity, if_neg hentity, List.append_nil]

theorem rootEntities_eq (root : Element) : rootEntities root = entitiesAt (.element root) := by
  rw [rootEntities, entitiesAt_eq]
  by_cases hwrapper : isMdElement root "EntitiesDescriptor" = true
  · have hentity : ¬ isMdElement root "EntityDescriptor" = true := by
      intro hentity
      have heq := (isMdElement_iff.mp hentity).symm.trans (isMdElement_iff.mp hwrapper)
      exact absurd heq (by decide)
    rw [if_pos hwrapper, if_pos hwrapper, if_neg hentity, List.append_nil]
  · rw [if_neg hwrapper, if_neg hwrapper, List.nil_append]

/-- What a finished element adds to what is around it. -/
theorem closeElement_shape {e : Element} {c : TreeBuilder} (root : c.completedRoot = none)
    (h : c.closeElement e = .ok next) :
    shape next.stack = shape c.stack ∧
      (next.completedRoot = if next.stack = [] then some e else none) ∧
      gatheredBy next =
        gathered c.stack ++ if wraps c.stack then entitiesAt (.element e) else [] := by
  unfold TreeBuilder.closeElement at h
  cases hstack : c.stack with
  | nil =>
      rw [hstack, root] at h
      obtain rfl := Except.ok.inj h
      exact ⟨rfl, rfl, rootEntities_eq e⟩
  | cons parent rest =>
      simp only [hstack] at h
      obtain rfl := Except.ok.inj h
      have hparent : wraps ({ parent with element := { parent.element with
          children := parent.element.children ++ [.element e] } } :: rest) =
          wraps (parent :: rest) := rfl
      have hsingle : entitiesIn [.element e] = entitiesAt (.element e) := by
        rw [entitiesIn, entitiesIn, List.append_nil]
      simp only [TreeBuilder.pushChild, hstack, gatheredBy, root]
      refine ⟨rfl, by rw [if_neg (List.cons_ne_nil _ _)], ?_⟩
      rw [gathered, hparent, gathered, entitiesIn_append, hsingle]
      split
      · rw [List.append_assoc]
      · rw [List.append_nil, List.append_nil]

/-- Closing the innermost element gathers it when it is an entity. -/
theorem closes_shape (root : b.completedRoot = none) (h : TreeBuilder.Closes b next) :
    ∃ element : Element, ∃ declared,
      shape b.stack = (element.qname, declared) :: shape next.stack ∧
      (next.completedRoot = if next.stack = [] then some element else none) ∧
      gatheredBy next = gatheredBy b ++
        if wraps next.stack && isMdElement element "EntityDescriptor" then [element] else [] := by
  obtain ⟨mid, frame, outer, hquiet, hstack, hclose⟩ := h
  have hroot : mid.completedRoot = none := hquiet.completedRoot.trans root
  obtain ⟨hshape, hnext, hgathered⟩ := closeElement_shape
    (c := { mid with stack := outer, nsStack := mid.nsStack.tail }) hroot hclose
  refine ⟨frame.element, frame.element.namespacesDeclaredHere, ?_, hnext, ?_⟩
  · rw [← shape_padded hquiet.stack, hstack, hshape]
    rfl
  · have hwraps : wraps (frame :: outer) =
        (isMdElement frame.element "EntitiesDescriptor" && wraps outer) := rfl
    rw [hgathered, wraps_shape hshape, ← gatheredBy_quiet hquiet, gatheredBy, hroot]
    simp only [hstack]
    rw [gathered, hwraps, entitiesAt_eq]
    cases wraps outer with
    | false => simp only [Bool.and_false, Bool.false_and, Bool.false_eq_true, if_false,
        List.append_nil]
    | true => simp only [Bool.and_true, Bool.true_and, if_true, List.append_assoc]

/-- An empty tag gathers its element when it is an entity. -/
theorem collapses_shape (root : b.completedRoot = none)
    (h : TreeBuilder.Collapses qx b start next) :
    ∃ element : Element, shape next.stack = shape b.stack ∧
      tagName qx b start = .ok element.qname ∧
      element.qname.localName = rawLocalName start.name ∧
      (next.completedRoot = if next.stack = [] then some element else none) ∧
      gatheredBy next = gatheredBy b ++ if taken qx b start then [element] else [] := by
  obtain ⟨mid, opened, element, path, hquiet, hopen, hclose⟩ := h
  obtain ⟨_, hchildren, _, hstack, hroot, _, _⟩ := TreeBuilder.openElement_ok hopen
  have hmid : mid.completedRoot = none := hquiet.completedRoot.trans root
  obtain ⟨hshape, hnext, hgathered⟩ := closeElement_shape (hroot.trans hmid) hclose
  refine ⟨element, ?_, tagName_open hquiet hopen, localName_open hopen, hnext, ?_⟩
  · rw [hshape, hstack, shape_padded hquiet.stack]
  · rw [hgathered, ← gatheredBy_quiet hquiet, gatheredBy, hmid, hstack, taken_open hquiet hopen,
      ← wraps_shape (shape_padded hquiet.stack), entitiesAt_eq, hchildren]
    have hnone : entitiesIn [] = [] := by rw [entitiesIn]
    rw [hnone, ite_self, List.nil_append]
    cases wraps mid.stack with
    | false => simp only [Bool.false_and, Bool.false_eq_true, if_false]
    | true => simp only [Bool.true_and, if_true]

end Saml.Metadata
