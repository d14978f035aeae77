import Saml.Xml.Events
import Saml.Xml.Unnumbered

/-!
# Subtrees lifted out of a document

A builder that starts at an element of a document, knowing what the declarations
around it mean, builds the same subtree as the builder of the document.
-/

namespace Saml.Xml

/-! ## Scopes that mean the same -/

/-- Two scopes bind the same prefixes to the same namespaces. -/
def SameScope (scope other : List NsLayer) : Prop :=
  ∀ pfx, resolvePrefix scope pfx = resolvePrefix other pfx

theorem nearestFirst_append (first second : List NsLayer) :
    nearestFirst (first ++ second) = nearestFirst first ++ nearestFirst second :=
  List.flatMap_append

theorem resolvePrefix_def (layers : List NsLayer) (pfx : Option Str) :
    resolvePrefix layers pfx = if pfx = some ("xml" : Str) then some XML_NS else
      match (nearestFirst layers).lookup pfx with
      | some uri => if uri = [] then none else some uri
      | none => none := rfl

theorem resolvePrefix_append {layers scope : List NsLayer} {pfx : Option Str}
    (hxml : pfx ≠ some ("xml" : Str)) :
    resolvePrefix (layers ++ scope) pfx =
      match (nearestFirst layers).lookup pfx with
      | some uri => if uri = [] then none else some uri
      | none => resolvePrefix scope pfx := by
  rw [resolvePrefix_def, if_neg hxml, nearestFirst_append, List.lookup_append]
  cases (nearestFirst layers).lookup pfx with
  | none => rw [Option.none_or, resolvePrefix_def, if_neg hxml]
  | some uri => rfl

theorem SameScope.append {scope other : List NsLayer} (h : SameScope scope other)
    (layers : List NsLayer) : SameScope (layers ++ scope) (layers ++ other) := by
  intro pfx
  by_cases hxml : pfx = some ("xml" : Str)
  · rw [resolvePrefix_def, resolvePrefix_def, if_pos hxml, if_pos hxml]
  · rw [resolvePrefix_append hxml, resolvePrefix_append hxml, h pfx]

theorem SameScope.resolveQName {scope other : List NsLayer} (h : SameScope scope other) (name : Str)
    (isAttribute : Bool) : resolveQName name scope isAttribute =
      resolveQName name other isAttribute := by
  rw [Xml.resolveQName, Xml.resolveQName]
  simp only [h _]

theorem SameScope.resolveAttribute {scope other : List NsLayer} (h : SameScope scope other) :
    resolveAttribute scope = resolveAttribute other := by
  funext a
  rw [Xml.resolveAttribute, Xml.resolveAttribute, h.resolveQName]

/-! ## Identifiers -/

/-- What registers among more values registers among fewer. -/
theorem registerIds_of_subset {attributes : List Attribute} {id other : ElementId}
    {index next few : List (Str × ElementId)} (h : registerIds id attributes index = .ok next)
    (subset : few.map Prod.fst ⊆ index.map Prod.fst) :
    ∃ fewer, registerIds other attributes few = .ok fewer ∧
      fewer.map Prod.fst ⊆ next.map Prod.fst := by
  induction attributes generalizing index few with
  | nil =>
      obtain rfl := Except.ok.inj h
      exact ⟨few, rfl, subset⟩
  | cons a rest ih =>
      rw [registerIds] at h ⊢
      split at h
      next hid =>
        obtain ⟨hfresh, h⟩ := ite_error_eq_ok_iff.mp h
        have hfew : ¬ (few.lookup a.value).isSome = true := by
          rw [Library.Association.lookup_isSome_iff] at hfresh ⊢
          intro hmem
          exact hfresh (subset hmem)
        rw [if_pos hid, if_neg hfew]
        apply ih h
        rw [List.map_append, List.map_append]
        apply List.append_subset.mpr
        constructor
        · exact List.Subset.trans subset (List.subset_append_left _ _)
        · exact List.subset_append_right _ _
      next hid =>
        rw [if_neg hid]
        exact ih h subset

namespace TreeBuilder

/-! ## The simulation -/

/-- A builder of the document, inside some open elements, and the builder of the
subtree: same open elements of the subtree, same text, no more of the counters. -/
structure Lifts (outer : List StackFrame) (base : List NsLayer) (seed : NsLayer)
    (b c : TreeBuilder) : Prop where
  limits : c.limits = b.limits
  stack : ∃ inner, b.stack = inner ++ outer ∧
    List.Forall₂ (fun f g : StackFrame => Alike f.element g.element) inner c.stack
  scope : ∃ layers, b.nsStack = layers ++ base ∧ c.nsStack = layers ++ [seed] ∧
    layers.length = c.stack.length
  totalNodes : c.totalNodes ≤ b.totalNodes
  paths : c.paths.length ≤ b.paths.length
  ids : c.idIndex.map Prod.fst ⊆ b.idIndex.map Prod.fst
  pendingText : c.pendingText = b.pendingText
  completedRoot : c.completedRoot = none

variable {qx : QuickXml} {outer : List StackFrame} {base : List NsLayer} {seed : NsLayer}
  {b c next : TreeBuilder}

/-- The innermost frames of the two builders. -/
theorem Lifts.frames (h : Lifts outer base seed b c) (inside : c.stack ≠ []) :
    ∃ f fs g gs, b.stack = f :: (fs ++ outer) ∧ c.stack = g :: gs ∧ Alike f.element g.element ∧
      List.Forall₂ (fun f g : StackFrame => Alike f.element g.element) fs gs := by
  obtain ⟨inner, hstack, hinner⟩ := h.stack
  cases hc : c.stack with
  | nil => exact absurd hc inside
  | cons g gs =>
      rw [hc] at hinner
      cases hinner with
      | @cons f _ fs _ halike hrest => exact ⟨f, fs, g, gs, hstack, rfl, halike, hrest⟩

theorem Lifts.bumpNodes (h : Lifts outer base seed b c) (hnext : b.bumpNodes = .ok next) :
    ∃ d, c.bumpNodes = .ok d ∧ Lifts outer base seed next d ∧ d.stack = c.stack := by
  obtain ⟨hbound, hnext⟩ := ite_error_eq_ok_iff.mp hnext
  obtain rfl := Except.ok.inj hnext
  refine ⟨{ c with totalNodes := c.totalNodes + 1 }, ?_, ?_, rfl⟩
  · apply if_neg
    have htotal := h.totalNodes
    rw [h.limits]
    omega
  · exact ⟨h.limits, h.stack, h.scope, Nat.succ_le_succ h.totalNodes, h.paths, h.ids,
      h.pendingText, h.completedRoot⟩

theorem Lifts.pushChild (h : Lifts outer base seed b c) (inside : c.stack ≠ [])
    {node other : Node} (hnode : unnumberedNode node = unnumberedNode other) :
    Lifts outer base seed (b.pushChild node) (c.pushChild other) ∧
      (c.pushChild other).stack ≠ [] := by
  obtain ⟨f, fs, g, gs, hb, hc, halike, hrest⟩ := h.frames inside
  obtain ⟨layers, hlayers, hlayers', hlength⟩ := h.scope
  simp only [TreeBuilder.pushChild, hb, hc]
  refine ⟨⟨h.limits, ⟨_ :: fs, rfl, .cons (halike.append hnode) hrest⟩, ⟨layers, hlayers, hlayers',
    ?_⟩, h.totalNodes, h.paths, h.ids, h.pendingText, h.completedRoot⟩, by simp⟩
  rw [hlength, hc]
  rfl

theorem Lifts.pushText (h : Lifts outer base seed b c) (inside : c.stack ≠ []) {value : Str}
    (hnext : b.pushText value = .ok next) :
    ∃ d, c.pushText value = .ok d ∧ Lifts outer base seed next d ∧ d.stack ≠ [] := by
  obtain ⟨f, fs, g, gs, hb, hc, _, _⟩ := h.frames inside
  simp only [TreeBuilder.pushText, hb] at hnext
  obtain ⟨mid, hmid, hnext⟩ := bind_eq_ok_iff.mp hnext
  obtain rfl := Except.ok.inj hnext
  obtain ⟨d, hd, hlifts, hstack⟩ := h.bumpNodes hmid
  obtain ⟨hpush, hinside⟩ := @Lifts.pushChild _ _ _ _ _ hlifts (hstack ▸ inside) (.text value) _ rfl
  refine ⟨d.pushChild (.text value), ?_, hpush, hinside⟩
  simp only [TreeBuilder.pushText, hc]
  exact bind_eq_ok_iff.mpr ⟨d, hd, rfl⟩

theorem Lifts.appendText (h : Lifts outer base seed b c) (inside : c.stack ≠ [])
    {fragment : Str} (hnext : b.appendText fragment = .ok next) :
    ∃ d, c.appendText fragment = .ok d ∧ Lifts outer base seed next d ∧ d.stack ≠ [] := by
  obtain ⟨hbound, hnext⟩ := ite_error_eq_ok_iff.mp hnext
  obtain rfl := Except.ok.inj hnext
  refine ⟨{ c with pendingText := c.pendingText ++ fragment }, ?_, ?_, inside⟩
  · apply if_neg
    rw [h.pendingText, h.limits]
    exact hbound
  · refine ⟨h.limits, h.stack, h.scope, h.totalNodes, h.paths, h.ids, ?_, h.completedRoot⟩
    rw [h.pendingText]

theorem Lifts.flushText (h : Lifts outer base seed b c) (inside : c.stack ≠ [])
    (hnext : b.flushText = .ok next) :
    ∃ d, c.flushText = .ok d ∧ Lifts outer base seed next d ∧ d.stack ≠ [] := by
  unfold TreeBuilder.flushText at hnext ⊢
  rw [h.pendingText]
  split at hnext
  · obtain rfl := Except.ok.inj hnext
    exact ⟨c, rfl, h, inside⟩
  · have hclear : Lifts outer base seed { b with pendingText := [] }
        { c with pendingText := [] } :=
      ⟨h.limits, h.stack, h.scope, h.totalNodes, h.paths, h.ids, rfl, h.completedRoot⟩
    exact hclear.pushText inside hnext

theorem Lifts.nextPath (h : Lifts outer base seed b c) {path : ElementPath}
    (hpath : b.nextPath = .ok path) : ∃ other, c.nextPath = .ok other := by
  unfold TreeBuilder.nextPath at hpath ⊢
  cases hc : c.stack with
  | nil => exact ⟨[], rfl⟩
  | cons g gs =>
      obtain ⟨f, fs, g', gs', hb, hc', halike, _⟩ :=
        h.frames (by rw [hc]; exact List.cons_ne_nil _ _)
      obtain ⟨rfl, rfl⟩ := List.cons.inj (hc.symm.trans hc')
      simp only [hb] at hpath
      split at hpath
      next hbound =>
        rw [halike.children_length] at hbound
        exact ⟨_, if_pos hbound⟩
      · cases hpath

/-- Opening an element: the two elements are alike, whether or not the element
stays open. -/
theorem Lifts.openElement (same : SameScope base [seed]) (h : Lifts outer base seed b c)
    {start : BytesStart} {selfClosing : Bool} {element : Element} {path : ElementPath}
    (hopen : b.openElement qx start selfClosing = .ok (element, path, next)) :
    ∃ other place d, c.openElement qx start selfClosing = .ok (other, place, d) ∧
      Alike element other ∧ d.stack = c.stack ∧
      if selfClosing then Lifts outer base seed next d
      else Lifts outer base seed { next with stack := ⟨element, path⟩ :: next.stack }
        { d with stack := ⟨other, place⟩ :: d.stack } := by
  obtain ⟨layers, hlayers, hlayers', hlength⟩ := h.scope
  obtain ⟨inner, hstack, hinner⟩ := h.stack
  obtain ⟨raw, hraw, hopen⟩ := bind_eq_ok_iff.mp hopen
  obtain ⟨qname, hqname, hopen⟩ := bind_eq_ok_iff.mp hopen
  obtain ⟨attributes, hattributes, hopen⟩ := bind_eq_ok_iff.mp hopen
  obtain ⟨opened, hpath, hopen⟩ := bind_eq_ok_iff.mp hopen
  obtain ⟨place, hplace⟩ := h.nextPath hpath
  have hscope : SameScope (raw.declared :: b.nsStack) (raw.declared :: c.nsStack) := by
    rw [hlayers, hlayers']
    exact same.append (raw.declared :: layers)
  by_cases hbound : b.paths.length < U32_BOUND
  · rw [if_pos hbound] at hopen
    obtain ⟨idIndex, hids, hopen⟩ := bind_eq_ok_iff.mp hopen
    obtain ⟨rfl, hrest⟩ := Prod.mk.inj (Except.ok.inj hopen)
    obtain ⟨rfl, rfl⟩ := Prod.mk.inj hrest
    obtain ⟨fewer, hfewer, hsubset⟩ :=
      @registerIds_of_subset _ _ c.paths.length _ _ _ hids h.ids
    have hbound' : c.paths.length < U32_BOUND := Nat.lt_of_le_of_lt h.paths hbound
    refine ⟨⟨qname, extractSourcePrefix start.name, raw.declared, attributes, [], c.paths.length⟩,
      place, { c with
        nsStack := if selfClosing then c.nsStack else raw.declared :: c.nsStack
        paths := c.paths ++ [place]
        idIndex := fewer }, ?_, ?_, rfl, ?_⟩
    · rw [TreeBuilder.openElement, h.limits]
      refine bind_eq_ok_iff.mpr ⟨raw, hraw, ?_⟩
      refine bind_eq_ok_iff.mpr ⟨qname, (hscope.resolveQName _ _).symm.trans hqname, ?_⟩
      rw [hscope.resolveAttribute] at hattributes
      refine bind_eq_ok_iff.mpr ⟨attributes, hattributes, ?_⟩
      refine bind_eq_ok_iff.mpr ⟨place, hplace, ?_⟩
      rw [if_pos hbound']
      exact bind_eq_ok_iff.mpr ⟨fewer, hfewer, rfl⟩
    · simp [Alike, unnumbered]
    · cases selfClosing with
      | true =>
          refine ⟨h.limits, ⟨inner, hstack, hinner⟩, ⟨layers, hlayers, hlayers', hlength⟩,
            h.totalNodes, ?_, hsubset, h.pendingText, h.completedRoot⟩
          simpa using h.paths
      | false =>
          refine ⟨h.limits, ⟨_ :: inner, congrArg _ hstack, .cons ?_ hinner⟩,
            ⟨raw.declared :: layers, congrArg _ hlayers, congrArg _ hlayers', ?_⟩, h.totalNodes,
            ?_, hsubset, h.pendingText, h.completedRoot⟩
          · simp [Alike, unnumbered]
          · simp [hlength]
          · simpa using h.paths
  · rw [if_neg hbound] at hopen
    cases hopen

theorem Lifts.closeElement (h : Lifts outer base seed b c) (inside : c.stack ≠ [])
    {element other : Element} (halike : Alike element other)
    (hclose : b.closeElement element = .ok next) :
    ∃ d, c.closeElement other = .ok d ∧ Lifts outer base seed next d ∧ d.stack ≠ [] := by
  obtain ⟨f, fs, g, gs, hb, hc, _, _⟩ := h.frames inside
  simp only [TreeBuilder.closeElement, hb] at hclose
  obtain rfl := Except.ok.inj hclose
  have hnode : unnumberedNode (.element element) = unnumberedNode (.element other) :=
    congrArg Node.element halike
  obtain ⟨hpush, hinside⟩ := h.pushChild inside hnode
  refine ⟨c.pushChild (.element other), ?_, hpush, hinside⟩
  simp only [TreeBuilder.closeElement, hc]

/-- The builders after the innermost element is taken off. -/
theorem Lifts.pop {g : StackFrame} {fs gs : List StackFrame} (h : Lifts outer base seed b c)
    (hc : c.stack = g :: gs)
    (hrest : List.Forall₂ (fun f g : StackFrame => Alike f.element g.element) fs gs) :
    Lifts outer base seed { b with stack := fs ++ outer, nsStack := b.nsStack.tail }
      { c with stack := gs, nsStack := c.nsStack.tail } := by
  obtain ⟨layers, hlayers, hlayers', hlength⟩ := h.scope
  rw [hc] at hlength
  cases layers with
  | nil => cases hlength
  | cons layer rest =>
      refine ⟨h.limits, ⟨fs, rfl, hrest⟩, ⟨rest, ?_, ?_, Nat.succ.inj hlength⟩, h.totalNodes,
        h.paths, h.ids, h.pendingText, h.completedRoot⟩
      · rw [hlayers]
        rfl
      · rw [hlayers']
        rfl

/-- The subtree is complete: the document's builder closes an element like it. -/
def Completes (outer : List StackFrame) (b next d : TreeBuilder) : Prop :=
  ∃ mid frame root, Quiet b mid ∧ mid.stack = frame :: outer ∧
    { mid with stack := outer, nsStack := mid.nsStack.tail }.closeElement frame.element = .ok next ∧
    d.stack = [] ∧ d.completedRoot = some root ∧ Alike frame.element root

/-- One event inside the subtree that is not an end tag. -/
theorem Lifts.feedStructural (same : SameScope base [seed]) (h : Lifts outer base seed b c)
    (inside : c.stack ≠ []) {event : Event} (notEnd : ∀ name, event ≠ .endTag name)
    (hnext : b.feedStructural qx event = .ok next) :
    ∃ d, c.feedStructural qx event = .ok d ∧ Lifts outer base seed next d ∧ d.stack ≠ [] := by
  cases event with
  | decl =>
      obtain rfl := Except.ok.inj hnext
      exact ⟨c, rfl, h, inside⟩
  | docType => cases hnext
  | pi => cases hnext
  | text t => cases hnext
  | generalRef name => cases hnext
  | endTag name => exact absurd rfl (notEnd name)
  | start s =>
      obtain ⟨mid, hmid, hnext⟩ := bind_eq_ok_iff.mp hnext
      obtain ⟨⟨element, path, opened⟩, hopen, hnext⟩ := bind_eq_ok_iff.mp hnext
      obtain ⟨hdepth, hnext⟩ := ite_error_eq_ok_iff.mp hnext
      obtain rfl := Except.ok.inj hnext
      obtain ⟨counted, hcounted, hlifts, hstack⟩ := h.bumpNodes hmid
      obtain ⟨other, place, d, hd, halike, hsame, hlifts⟩ := hlifts.openElement same hopen
      replace hlifts := hlifts
      refine ⟨{ d with stack := ⟨other, place⟩ :: d.stack }, ?_, hlifts, List.cons_ne_nil _ _⟩
      refine bind_eq_ok_iff.mpr ⟨counted, hcounted, ?_⟩
      refine bind_eq_ok_iff.mpr ⟨(other, place, d), hd, ?_⟩
      apply if_neg
      obtain ⟨inner, hinner, hframes⟩ := hlifts.stack
      have hlength := congrArg List.length hinner
      have hframes := hframes.length_eq
      have hlimits : d.limits = opened.limits := hlifts.limits
      rw [List.length_append] at hlength
      simp only [List.length_cons] at hlength hframes hdepth ⊢
      rw [hlimits]
      omega
  | empty s =>
      obtain ⟨mid, hmid, hnext⟩ := bind_eq_ok_iff.mp hnext
      obtain ⟨⟨element, path, opened⟩, hopen, hclose⟩ := bind_eq_ok_iff.mp hnext
      obtain ⟨counted, hcounted, hlifts, hstack⟩ := h.bumpNodes hmid
      obtain ⟨other, place, d, hd, halike, hsame, hlifts⟩ := hlifts.openElement same hopen
      have hinside : d.stack ≠ [] := by
        rw [hsame, hstack]
        exact inside
      obtain ⟨e, he, hlifts, hinside⟩ := hlifts.closeElement hinside halike hclose
      refine ⟨e, ?_, hlifts, hinside⟩
      refine bind_eq_ok_iff.mpr ⟨counted, hcounted, ?_⟩
      exact bind_eq_ok_iff.mpr ⟨(other, place, d), hd, he⟩
  | cData value =>
      rw [TreeBuilder.feedStructural] at hnext ⊢
      obtain ⟨hbound, hnext⟩ := ite_error_eq_ok_iff.mp hnext
      rw [if_neg (h.limits ▸ hbound)]
      split at hnext
      next hnil =>
        obtain rfl := Except.ok.inj hnext
        exact ⟨c, if_pos hnil, h, inside⟩
      next hnil =>
        rw [if_neg hnil]
        exact h.pushText inside hnext
  | comment value =>
      rw [TreeBuilder.feedStructural] at hnext ⊢
      obtain ⟨hbound, hnext⟩ := ite_error_eq_ok_iff.mp hnext
      rw [if_neg (h.limits ▸ hbound)]
      obtain ⟨mid, hmid, hnext⟩ := bind_eq_ok_iff.mp hnext
      obtain rfl := Except.ok.inj hnext
      obtain ⟨d, hd, hlifts, hstack⟩ := h.bumpNodes hmid
      obtain ⟨hpush, hinside⟩ :=
        @Lifts.pushChild _ _ _ _ _ hlifts (hstack ▸ inside) (.comment value) _ rfl
      exact ⟨_, bind_eq_ok_iff.mpr ⟨d, hd, rfl⟩, hpush, hinside⟩

/-- The step lemma: what the document's builder accepts inside the subtree, the
subtree's builder accepts, and it goes on or is complete. -/
theorem Lifts.feed (same : SameScope base [seed]) (h : Lifts outer base seed b c)
    (inside : c.stack ≠ []) {event : Event} (hnext : b.feed qx event = .ok next) :
    ∃ d, c.feed qx event = .ok d ∧
      (Lifts outer base seed next d ∧ d.stack ≠ [] ∨
        (∃ name, event = .endTag name) ∧ Completes outer b next d) := by
  rcases feed_structural hnext with ⟨fragment, htext, _⟩ | hstructural
  · obtain ⟨d, hd, hlifts⟩ := h.appendText inside ((htext b).symm.trans hnext)
    exact ⟨d, (htext c).trans hd, .inl hlifts⟩
  rw [hstructural] at hnext ⊢
  obtain ⟨mid, hflush, hnext⟩ := bind_eq_ok_iff.mp hnext
  obtain ⟨flushed, hflushed, hlifts, hinside⟩ := h.flushText inside hflush
  rw [bind_of_ok hflushed]
  by_cases hend : ∃ name, event = .endTag name
  · obtain ⟨name, rfl⟩ := hend
    obtain ⟨f, fs, g, gs, hb, hc, halike, hrest⟩ := hlifts.frames hinside
    have hpop := hlifts.pop hc hrest
    simp only [TreeBuilder.feedStructural, hb, hc] at hnext ⊢
    obtain ⟨hname, hnext⟩ := ite_error_eq_ok_iff.mp hnext
    rw [halike.qname] at hname
    rw [if_neg hname]
    cases gs with
    | nil =>
        cases hrest
        refine ⟨{ flushed with
          stack := [], nsStack := flushed.nsStack.tail, completedRoot := some g.element }, ?_,
          .inr ⟨⟨name, rfl⟩, mid, f, g.element, quiet_flushText hflush, hb, hnext, rfl, rfl,
            halike⟩⟩
        simp only [TreeBuilder.closeElement, hlifts.completedRoot]
    | cons g' gs =>
        obtain ⟨d, hd, hlifts, hinside⟩ :=
          hpop.closeElement (List.cons_ne_nil _ _) halike hnext
        exact ⟨d, hd, .inl ⟨hlifts, hinside⟩⟩
  · obtain ⟨d, hd, hlifts⟩ := hlifts.feedStructural same hinside
      (fun name h => hend ⟨name, h⟩) hnext
    exact ⟨d, hd, .inl hlifts⟩

theorem flushText_pendingText (h : b.flushText = .ok next) : next.pendingText = [] := by
  unfold TreeBuilder.flushText at h
  split at h
  next hnil => exact Except.ok.inj h ▸ hnil
  · unfold TreeBuilder.pushText at h
    split at h
    · rw [← Except.ok.inj h]
    · obtain ⟨mid, hmid, h⟩ := bind_eq_ok_iff.mp h
      obtain ⟨_, hmid⟩ := ite_error_eq_ok_iff.mp hmid
      obtain rfl := Except.ok.inj hmid
      obtain rfl := Except.ok.inj h
      unfold TreeBuilder.pushChild
      split <;> rfl

/-- The subtree begins: the builder with the seed takes the same start tag. -/
theorem lifts_start {start : BytesStart} (same : SameScope b.nsStack [seed])
    (hnext : b.feed qx (.start start) = .ok next) :
    ∃ mid d, Quiet b mid ∧
      { new b.limits with nsStack := [seed] }.feed qx (.start start) = .ok d ∧
      Lifts mid.stack b.nsStack seed next d ∧ d.stack ≠ [] := by
  obtain ⟨mid, hflush, hnext⟩ := bind_eq_ok_iff.mp hnext
  have hquiet := quiet_flushText hflush
  have hlifts : Lifts mid.stack b.nsStack seed mid { new b.limits with nsStack := [seed] } :=
    ⟨hquiet.limits.symm, ⟨[], rfl, .nil⟩, ⟨[], hquiet.nsStack, rfl, rfl⟩, Nat.zero_le _,
      Nat.zero_le _, List.nil_subset _, (flushText_pendingText hflush).symm, rfl⟩
  obtain ⟨counted, hcounted, hnext⟩ := bind_eq_ok_iff.mp hnext
  obtain ⟨⟨element, path, opened⟩, hopen, hnext⟩ := bind_eq_ok_iff.mp hnext
  obtain ⟨hdepth, hnext⟩ := ite_error_eq_ok_iff.mp hnext
  obtain rfl := Except.ok.inj hnext
  obtain ⟨one, hone, hlifts, hstack⟩ := hlifts.bumpNodes hcounted
  obtain ⟨other, place, d, hd, halike, hsame, hlifts⟩ := hlifts.openElement same hopen
  refine ⟨mid, { d with stack := ⟨other, place⟩ :: d.stack }, hquiet, ?_, hlifts,
    List.cons_ne_nil _ _⟩
  refine bind_eq_ok_iff.mpr ⟨_, rfl, ?_⟩
  refine bind_eq_ok_iff.mpr ⟨one, hone, ?_⟩
  refine bind_eq_ok_iff.mpr ⟨(other, place, d), hd, ?_⟩
  apply if_neg
  have hlimits : d.limits = opened.limits := hlifts.limits
  rw [hlimits]
  have hempty : d.stack = [] := hsame.trans hstack
  rw [hempty]
  simp only [List.length_cons, List.length_nil] at hdepth ⊢
  omega

end TreeBuilder

end Saml.Xml
