import Saml.Metadata.Reading
import Saml.Metadata.Seed

/-!
# The scan beside the builder

Where the streaming scan is while the builder reads the same events: the scope and
the outermost element of the document, the frames of the open wrappers, and the
builder of an entity inside the document's.
-/

namespace Saml.Metadata

open Xml TreeBuilder

variable {qx : QuickXml} {sr : StreamReader} {b next mid opened final : TreeBuilder} {scan : Scan}
  {event : Event} {start : BytesStart}

/-! ## The builder of the document -/

/-- The builder has the aggregate's limits and the scope of its open elements. -/
structure Sound (b : TreeBuilder) : Prop where
  scope : b.nsStack = (shape b.stack).map Prod.snd
  limits : b.limits = .aggregate

theorem closeElement_keeps {e : Element} (h : b.closeElement e = .ok next) :
    next.nsStack = b.nsStack ∧ next.limits = b.limits ∧ shape next.stack = shape b.stack := by
  unfold TreeBuilder.closeElement at h
  split at h
  · obtain rfl := Except.ok.inj h
    unfold TreeBuilder.pushChild
    split
    · exact ⟨rfl, rfl, rfl⟩
    next hstack => exact ⟨rfl, rfl, by rw [hstack]; rfl⟩
  next hstack =>
    split at h
    · cases h
    · obtain rfl := Except.ok.inj h
      exact ⟨rfl, rfl, rfl⟩

theorem openElement_keeps {selfClosing : Bool} {element : Element} {path : ElementPath}
    (h : b.openElement qx start selfClosing = .ok (element, path, opened)) :
    opened.stack = b.stack ∧ opened.limits = b.limits ∧
      opened.nsStack = if selfClosing then b.nsStack
        else element.namespacesDeclaredHere :: b.nsStack := by
  obtain ⟨raw, -, h⟩ := bind_eq_ok_iff.mp h
  obtain ⟨qname, -, h⟩ := bind_eq_ok_iff.mp h
  obtain ⟨attributes, -, h⟩ := bind_eq_ok_iff.mp h
  obtain ⟨place, -, h⟩ := bind_eq_ok_iff.mp h
  split at h
  · obtain ⟨idIndex, -, h⟩ := bind_eq_ok_iff.mp h
    obtain ⟨rfl, hrest⟩ := Prod.mk.inj (Except.ok.inj h)
    obtain ⟨rfl, rfl⟩ := Prod.mk.inj hrest
    exact ⟨rfl, rfl, rfl⟩
  · cases h

theorem Sound.quiet (h : Sound b) (hquiet : Quiet b next) : Sound next :=
  ⟨by rw [hquiet.nsStack, h.scope, shape_padded hquiet.stack], hquiet.limits.trans h.limits⟩

/-- Step: every event keeps the scope and the limits. -/
theorem Sound.feed (h : Sound b) (hfeed : b.feed qx event = .ok next) : Sound next := by
  have heffect := effect_feed hfeed
  cases event with
  | start start =>
      obtain ⟨mid, opened, element, path, hquiet, hopen, rfl, -⟩ := heffect
      obtain ⟨hstack, hlimits, hscope⟩ := openElement_keeps hopen
      have hmid := h.quiet hquiet
      refine ⟨?_, hlimits.trans hmid.limits⟩
      rw [hscope, hmid.scope, hstack]
      rfl
  | empty start =>
      obtain ⟨mid, opened, element, path, hquiet, hopen, hclose⟩ := heffect
      obtain ⟨hstack, hlimits, hscope⟩ := openElement_keeps hopen
      obtain ⟨hscope', hlimits', hshape⟩ := closeElement_keeps hclose
      have hmid := h.quiet hquiet
      refine ⟨?_, hlimits'.trans (hlimits.trans hmid.limits)⟩
      rw [hscope', hscope, hshape, hstack]
      exact hmid.scope
  | endTag name =>
      obtain ⟨mid, frame, outer, hquiet, hstack, hclose⟩ := heffect
      obtain ⟨hscope, hlimits, hshape⟩ := closeElement_keeps hclose
      have hmid := h.quiet hquiet
      refine ⟨?_, hlimits.trans hmid.limits⟩
      rw [hscope, hshape]
      dsimp only
      rw [hmid.scope, hstack]
      rfl
  | docType => exact heffect.elim
  | pi => exact heffect.elim
  | text t => exact h.quiet heffect
  | generalRef name => exact h.quiet heffect
  | cData t => exact h.quiet heffect
  | comment t => exact h.quiet heffect
  | decl => exact h.quiet heffect

/-! ## The root of the document -/

/-- The name of the outermost element. -/
def rootName (b : TreeBuilder) : Option QName :=
  match b.completedRoot with
  | some root => some root.qname
  | none => (shape b.stack).getLast?.map Prod.fst

theorem rootName_quiet (h : Quiet b next) : rootName next = rootName b := by
  rw [rootName, rootName, h.completedRoot, shape_padded h.stack]

theorem getLast?_cons_of_some {α : Type} {l : List α} {a : α} (h : l.getLast? = some a) (x : α) :
    (x :: l).getLast? = some a := by
  cases l with
  | nil => cases h
  | cons y rest => rw [List.getLast?_cons_cons, h]

/-- Step: the outermost element keeps its name. -/
theorem rootName_feed (hfeed : b.feed qx event = .ok next) {name : QName}
    (h : rootName b = some name) : rootName next = some name := by
  cases hroot : b.completedRoot with
  | some root =>
      have hone : b.feedAll qx [.ok event] = .ok next :=
        bind_eq_ok_iff.mpr ⟨next, hfeed, rfl⟩
      have hkept := completedRoot_feedAll hone hroot
      rw [rootName, hkept]
      rw [rootName, hroot] at h
      exact h
  | none =>
      obtain ⟨entry, hlast, hentry⟩ : ∃ entry, (shape b.stack).getLast? = some entry ∧
          entry.1 = name := by
        rw [rootName, hroot] at h
        exact Option.map_eq_some_iff.mp h
      have heffect := effect_feed hfeed
      cases event with
      | start start =>
          obtain ⟨element, hshape, hnone, -⟩ := opens_shape hroot heffect
          rw [rootName, hnone, hshape]
          exact Option.map_eq_some_iff.mpr ⟨entry, getLast?_cons_of_some hlast _, hentry⟩
      | empty start =>
          obtain ⟨element, hshape, -, -, hnext, -⟩ := collapses_shape hroot heffect
          have hstack : next.stack ≠ [] := by
            intro hnil
            rw [← hshape, hnil] at hlast
            cases hlast
          rw [rootName, hnext, if_neg hstack, hshape]
          exact Option.map_eq_some_iff.mpr ⟨entry, hlast, hentry⟩
      | endTag loc =>
          obtain ⟨element, declared, hshape, hnext, -⟩ := closes_shape hroot heffect
          rw [rootName, hnext]
          rw [hshape] at hlast
          by_cases hstack : next.stack = []
          · rw [if_pos hstack]
            rw [hstack] at hlast
            obtain rfl := Option.some.inj hlast
            exact congrArg some hentry
          · rw [if_neg hstack]
            refine Option.map_eq_some_iff.mpr ⟨entry, ?_, hentry⟩
            cases hrest : shape next.stack with
            | nil => exact absurd (List.map_eq_nil_iff.mp hrest) hstack
            | cons second rest =>
                rw [hrest, List.getLast?_cons_cons] at hlast
                exact hlast
      | docType => exact heffect.elim
      | pi => exact heffect.elim
      | text t => exact (rootName_quiet heffect).trans h
      | generalRef loc => exact (rootName_quiet heffect).trans h
      | cData t => exact (rootName_quiet heffect).trans h
      | comment t => exact (rootName_quiet heffect).trans h
      | decl => exact (rootName_quiet heffect).trans h

theorem rootName_feedAll {events : List (Except Str Event)} (h : b.feedAll qx events = .ok final)
    {name : QName} (hname : rootName b = some name) : rootName final = some name := by
  induction events generalizing b with
  | nil =>
      obtain rfl := Except.ok.inj h
      exact hname
  | cons item rest ih =>
      cases item with
      | error err => cases h
      | ok event =>
          obtain ⟨next, hnext, h⟩ := bind_eq_ok_iff.mp h
          exact ih h (rootName_feed hnext hname)

theorem pushChild_open (hopen : b.stack ≠ []) (node : Node) :
    (b.pushChild node).stack ≠ [] ∧ (b.pushChild node).completedRoot = b.completedRoot := by
  unfold TreeBuilder.pushChild
  cases hstack : b.stack with
  | nil => exact absurd hstack hopen
  | cons frame outer => exact ⟨List.cons_ne_nil _ _, rfl⟩

theorem closeElement_open {e root : Element} (hroot : b.completedRoot = some root)
    (h : b.closeElement e = .ok next) : next.stack ≠ [] ∧ next.completedRoot = some root := by
  unfold TreeBuilder.closeElement at h
  cases hstack : b.stack with
  | nil =>
      rw [hstack, hroot] at h
      cases h
  | cons frame outer =>
      simp only [hstack] at h
      obtain rfl := Except.ok.inj h
      obtain ⟨hopen, hsame⟩ := pushChild_open (by rw [hstack]; exact List.cons_ne_nil _ _)
        (.element e)
      exact ⟨hopen, hsame.trans hroot⟩

/-- A second element at the top is never closed. -/
theorem open_feedAll {events : List (Except Str Event)} (h : b.feedAll qx events = .ok final)
    {root : Element} (hroot : b.completedRoot = some root) (hopen : b.stack ≠ []) :
    final.stack ≠ [] := by
  have hkept : final.stack ≠ [] ∧ final.completedRoot = some root := by
    refine Moves.invariant (I := fun b => b.stack ≠ [] ∧ b.completedRoot = some root) ?_
      (feedAll_moves (Q := fun _ => True) (fun _ _ => trivial) h) ⟨hopen, hroot⟩
    rintro b next ⟨hopen, hroot⟩ hmove
    cases hmove with
    | count root' stack => exact ⟨by rw [stack]; exact hopen, root'.trans hroot⟩
    | leaf hnode =>
        obtain ⟨hstill, hsame⟩ := pushChild_open hopen _
        exact ⟨hstill, hsame.trans hroot⟩
    | opening tag hopened =>
        exact ⟨List.cons_ne_nil _ _, (openElement_ok hopened).2.2.2.2.1.trans hroot⟩
    | @closing _ _ outer stack hclose =>
        exact closeElement_open (b := { b with stack := outer, nsStack := b.nsStack.tail }) hroot
          hclose
    | collapsed tag hopened hclose =>
        exact closeElement_open ((openElement_ok hopened).2.2.2.2.1.trans hroot) hclose
  exact hkept.1

/-! ## The frames of the scan -/

/-- The frames of the scan are those of the open elements with a wrapper's local
name, each with what its start tag declares and the elements around it. -/
inductive Frames (qx : QuickXml) : List NsFrame → List (QName × NsLayer) → Prop
  | nil : Frames qx [] []
  | wrapper {frames : List NsFrame} {around : List (QName × NsLayer)} {name : QName}
      {declared : NsLayer} {decls : List (Str × Str)} (h : Frames qx frames around)
      (hname : name.localName = "EntitiesDescriptor")
      (hdecls : List.Forall₂ (Declares qx) decls declared) :
      Frames qx (⟨decls, around.length⟩ :: frames) ((name, declared) :: around)
  | other {frames : List NsFrame} {around : List (QName × NsLayer)} {name : QName}
      {declared : NsLayer} (h : Frames qx frames around)
      (hname : name.localName ≠ "EntitiesDescriptor") : Frames qx frames ((name, declared) :: around)

namespace Frames

variable {frames : List NsFrame} {around : List (QName × NsLayer)}

theorem length_le (h : Frames qx frames around) : frames.length ≤ around.length := by
  induction h with
  | nil => exact Nat.le_refl 0
  | wrapper h hname hdecls ih => exact Nat.succ_le_succ ih
  | other h hname ih => exact Nat.le_succ_of_le ih

theorem depth_lt (h : Frames qx frames around) : ∀ frame ∈ frames, frame.depth < around.length := by
  induction h with
  | nil => exact fun frame hframe => absurd hframe List.not_mem_nil
  | wrapper h hname hdecls ih =>
      intro frame hframe
      rcases List.mem_cons.mp hframe with rfl | hrest
      · exact Nat.lt_succ_self _
      · exact Nat.lt_succ_of_lt (ih frame hrest)
  | other h hname ih => exact fun frame hframe => Nat.lt_succ_of_lt (ih frame hframe)

/-- Below a root with a wrapper's name there is a frame. -/
theorem ne_nil (h : Frames qx frames around) {entry : QName × NsLayer}
    (hroot : around.getLast? = some entry) (hname : entry.1.localName = "EntitiesDescriptor") :
    frames ≠ [] := by
  induction h with
  | nil => cases hroot
  | wrapper h hname' hdecls ih => exact List.cons_ne_nil _ _
  | @other frames around name declared h hname' ih =>
      cases hrest : around with
      | nil =>
          rw [hrest] at hroot
          obtain rfl := Option.some.inj hroot
          exact absurd hname hname'
      | cons second rest =>
          rw [hrest, List.getLast?_cons_cons, ← hrest] at hroot
          exact ih hroot

/-- When all open elements are wrappers every layer of the scope has its frame. -/
theorem layers (h : Frames qx frames around)
    (hall : ∀ entry ∈ around, entry.1.localName = "EntitiesDescriptor") :
    List.Forall₂ (fun frame layer => List.Forall₂ (Declares qx) frame.decls layer) frames
      (around.map Prod.snd) := by
  induction h with
  | nil => exact .nil
  | wrapper h hname hdecls ih =>
      exact .cons hdecls (ih fun entry hentry => hall entry (List.mem_cons_of_mem _ hentry))
  | other h hname ih => exact absurd (hall _ List.mem_cons_self) hname

end Frames

/-! ## Following the builder -/

/-- The outermost open element has a wrapper's local name. -/
def RootWraps (around : List (QName × NsLayer)) : Prop :=
  ∃ entry, around.getLast? = some entry ∧ entry.1.localName = "EntitiesDescriptor"

theorem RootWraps.cons {around : List (QName × NsLayer)} (h : RootWraps around)
    (entry : QName × NsLayer) : RootWraps (entry :: around) := by
  obtain ⟨root, hroot, hname⟩ := h
  exact ⟨root, getLast?_cons_of_some hroot entry, hname⟩

theorem RootWraps.of_cons {around : List (QName × NsLayer)} {entry : QName × NsLayer}
    (h : RootWraps (entry :: around)) (hne : around ≠ []) : RootWraps around := by
  obtain ⟨root, hroot, hname⟩ := h
  cases around with
  | nil => exact absurd rfl hne
  | cons second rest =>
      rw [List.getLast?_cons_cons] at hroot
      exact ⟨root, hroot, hname⟩

theorem RootWraps.ne_nil {around : List (QName × NsLayer)} (h : RootWraps around) :
    around ≠ [] := by
  rintro rfl
  obtain ⟨root, hroot, -⟩ := h
  cases hroot

/-- The scan is where the builder is: before the root, in wrappers and other
elements around entities, inside an entity with a builder of its own, or behind
the root. It has visited as many entities as are gathered. -/
inductive Tracks (sr : StreamReader) : TreeBuilder → Scan → Prop
  | fresh {b : TreeBuilder} (stack : b.stack = []) (root : b.completedRoot = none) :
      Tracks sr b Scan.initial
  | between {b : TreeBuilder} {scan : Scan} (root : b.completedRoot = none)
      (wrapped : RootWraps (shape b.stack)) (free : outside b.stack = true)
      (seen : scan.rootSeen = true) (aggregate : scan.rootIsAggregate = true)
      (idle : scan.captureStart = none) (builder : scan.builder = none)
      (depth : scan.elementDepth = b.stack.length)
      (frames : Frames sr.toQuickXml scan.nsStack (shape b.stack))
      (visited : scan.entitiesVisited = (gatheredBy b).length) : Tracks sr b scan
  | within {b c : TreeBuilder} {scan : Scan} {inner : List (QName × NsLayer)} {declared : NsLayer}
      {outer : List StackFrame} {base : List NsLayer} {seed : NsLayer}
      (root : b.completedRoot = none) (wrapped : outer = [] ∨ RootWraps (shape outer))
      (wrappers : wraps outer = true)
      (entity : shape b.stack = inner ++ (md "EntityDescriptor", declared) :: shape outer)
      (same : SameScope base [seed]) (lifts : Lifts outer base seed b c) (inside : c.stack ≠ [])
      (seen : scan.rootSeen = true) (aggregate : scan.rootIsAggregate = !outer.isEmpty)
      (capture : scan.captureStart = some outer.length) (builder : scan.builder = some c)
      (depth : scan.elementDepth = b.stack.length)
      (frames : Frames sr.toQuickXml scan.nsStack (shape outer))
      (visited : scan.entitiesVisited = (gatheredBy b).length) : Tracks sr b scan
  | after {b : TreeBuilder} {scan : Scan} {root : Element} (stack : b.stack = [])
      (root : b.completedRoot = some root) (builder : scan.builder = none)
      (visited : scan.entitiesVisited = (gatheredBy b).length) : Tracks sr b scan

/-- One turn of the loop: nothing is gathered and nothing visited, or an entity
is gathered and its like visited, or the scan is done with a root that holds
nothing. -/
inductive Turn (sr : StreamReader) (b next : TreeBuilder) (scan : Scan) (event : Event) : Prop
  | passes {reached : Scan} (step : scan.step sr event = .ok (.next reached))
      (tracks : Tracks sr next reached) (same : gatheredBy next = gatheredBy b)
  | visits {e root : Element} {reached : Scan}
      (step : scan.step sr event = .ok (.entity root reached)) (tracks : Tracks sr next reached)
      (gathers : gatheredBy next = gatheredBy b ++ [e]) (alike : Alike e root)
      (single : reached.rootIsAggregate = false → next.completedRoot.isSome = true)
  | ends (step : scan.step sr event = .ok .done) (same : gatheredBy next = gatheredBy b)
      (finished : next.completedRoot.isSome = true)

/-- The builder of an entity is fed as the document's is. -/
theorem feedBuilder_within {c d : TreeBuilder} (hbuilder : scan.builder = some c)
    (hfeed : c.feed sr.toQuickXml event = .ok d) :
    scan.feedBuilder sr event = .ok { scan with builder := some d } := by
  rw [Scan.feedBuilder, hbuilder]
  exact bind_eq_ok_iff.mpr ⟨d, hfeed, rfl⟩

theorem feedBuilder_none (hbuilder : scan.builder = none) :
    scan.feedBuilder sr event = .ok scan := by
  rw [Scan.feedBuilder, hbuilder]

/-- Between tags the scan goes on. -/
theorem Tracks.quiet (h : Tracks sr b scan) (hquiet : Quiet b next)
    (hfeed : b.feed sr.toQuickXml event = .ok next) (notEnd : ∀ name, event ≠ .endTag name)
    (hstep : scan.step sr event = scan.feedBuilder sr event >>= fun fed => .ok (.next fed)) :
    Turn sr b next scan event := by
  have hshape := shape_padded hquiet.stack
  have hlength := length_shape hshape
  have hgathered := gatheredBy_quiet hquiet
  have hroot := hquiet.completedRoot
  have hnil : b.stack = [] → next.stack = [] := by
    intro hstack
    rw [← List.length_eq_zero_iff, hlength, hstack, List.length_nil]
  cases h with
  | fresh stack root =>
      refine .passes (hstep.trans (bind_of_ok (feedBuilder_none rfl) _)) ?_ hgathered
      exact .fresh (hnil stack) (hroot.trans root)
  | between root wrapped free seen aggregate idle builder depth frames visited =>
      refine .passes (hstep.trans (bind_of_ok (feedBuilder_none builder) _)) ?_ hgathered
      exact .between (hroot.trans root) (hshape ▸ wrapped) ((outside_shape hshape).trans free) seen
        aggregate idle builder (depth.trans hlength.symm) (hshape ▸ frames) (hgathered ▸ visited)
  | within root wrapped wrappers entity same lifts inside seen aggregate capture builder depth
      frames visited =>
      obtain ⟨d, hd, ⟨hlifts, hinside⟩ | ⟨⟨name, hend⟩, -⟩⟩ := lifts.feed same inside hfeed
      · refine .passes (hstep.trans (bind_of_ok (feedBuilder_within builder hd) _)) ?_ hgathered
        exact .within (hroot.trans root) wrapped wrappers (hshape.trans entity) same hlifts hinside
          seen aggregate capture rfl (depth.trans hlength.symm) frames (hgathered ▸ visited)
      · exact absurd hend (notEnd name)
  | after stack root builder visited =>
      refine .passes (hstep.trans (bind_of_ok (feedBuilder_none builder) _)) ?_ hgathered
      exact .after (hnil stack) (hroot.trans root) builder (hgathered ▸ visited)

end Saml.Metadata
