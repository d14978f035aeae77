import Saml.Metadata.Tracking

/-!
# What the scan visits

On a document that the eager parse accepts, with no tag that only looks like an
entity and no entity written as an empty tag, the scan visits the gathered
entities, lifted out of the document, in order.
-/

namespace Saml.Metadata

open Xml TreeBuilder

variable {qx : QuickXml} {sr : StreamReader} {b next mid : TreeBuilder} {scan : Scan}
  {event : Event} {start : BytesStart}

/-! ## A start tag -/

theorem step_start (sr : StreamReader) (scan : Scan) (start : BytesStart) :
    scan.step sr (.start start) = scan.feedBuilder sr (.start start) >>= fun fed =>
      (if fed.rootSeen then fed.startInner sr start else fed.startRoot sr start) >>= fun reached =>
        .ok (.next reached) := by
  rw [Scan.step]
  congr 1
  funext fed
  dsimp only
  by_cases hseen : fed.rootSeen = true
  · rw [if_pos hseen, if_pos hseen]
  · rw [if_neg hseen, if_neg hseen]

theorem wraps_iff_shape {stack : List StackFrame} :
    wraps stack = true ↔ ∀ entry ∈ shape stack, entry.1 = md "EntitiesDescriptor" := by
  simp only [wraps, shape, List.all_eq_true, isMdElement_iff, List.forall_mem_map]

theorem outside_iff_shape {stack : List StackFrame} :
    outside stack = true ↔ ∀ entry ∈ shape stack, entry.1.localName ≠ "EntityDescriptor" := by
  simp only [outside, shape, List.all_eq_true, bne_iff_ne, List.forall_mem_map]

/-- An entity begins: it gets a builder in which every prefix means what it means
in the document. -/
theorem capture_lifts (hsound : Sound b)
    (hframes : Frames sr.toQuickXml scan.nsStack (shape b.stack)) (hwraps : wraps b.stack = true)
    (hfeed : b.feed sr.toQuickXml (.start start) = .ok next) (depth : Nat) :
    ∃ mid seed d, Quiet b mid ∧ SameScope b.nsStack [seed] ∧ d.stack ≠ [] ∧
      Lifts mid.stack b.nsStack seed next d ∧
      scan.capture sr depth start =
        .ok { scan with captureStart := some depth, builder := some d }.descend := by
  have hlayers := hframes.layers fun entry hentry =>
    congrArg QName.localName (wraps_iff_shape.mp hwraps entry hentry)
  rw [← hsound.scope] at hlayers
  obtain ⟨mid, d, hquiet, hd, hlifts, hinside⟩ :=
    lifts_start (sameScope_merged b.nsStack) hfeed
  rw [hsound.limits] at hd
  refine ⟨mid, _, d, hquiet, sameScope_merged b.nsStack, hinside, hlifts, ?_⟩
  rw [Scan.capture, newEntityBuilder_declares hlayers, ok_bind, hd, ok_bind]

/-- A start tag that is no look-alike and has an entity's local name begins an entity. -/
theorem taken_of_clean (hfree : outside b.stack = true)
    (hclean : spurious qx (b, .start start) = false)
    (hname : rawLocalName start.name = "EntityDescriptor") : taken qx b start = true := by
  rw [spurious, hfree, hname, decide_eq_true rfl] at hclean
  simpa using hclean

theorem taken_iff : taken qx b start = true ↔
    wraps b.stack = true ∧ tagName qx b start = .ok (md "EntityDescriptor") := by
  rw [taken, Bool.and_eq_true, decide_eq_true_iff]

/-- The entity that a start tag begins. -/
theorem Tracks.captured (hsound : Sound b) (root : b.completedRoot = none)
    (wrapped : b.stack = [] ∨ RootWraps (shape b.stack))
    (hframes : Frames sr.toQuickXml scan.nsStack (shape b.stack))
    (htaken : taken sr.toQuickXml b start = true)
    (hfeed : b.feed sr.toQuickXml (.start start) = .ok next)
    (seen : scan.rootSeen = true) (aggregate : scan.rootIsAggregate = !b.stack.isEmpty)
    (depth : scan.elementDepth = b.stack.length)
    (visited : scan.entitiesVisited = (gatheredBy b).length) :
    ∃ reached, scan.capture sr b.stack.length start = .ok reached ∧ Tracks sr next reached ∧
      gatheredBy next = gatheredBy b := by
  obtain ⟨hwraps, htag⟩ := taken_iff.mp htaken
  obtain ⟨element, hshape, hnone, hname, -, -, hgathered⟩ := opens_shape root (effect_feed hfeed)
  obtain ⟨mid, seed, d, hquiet, hsame, hinside, hlifts, hcapture⟩ :=
    capture_lifts hsound hframes hwraps hfeed b.stack.length
  have hmid := shape_padded hquiet.stack
  have hlength := length_shape hmid
  have hempty : mid.stack.isEmpty = b.stack.isEmpty := by
    rw [Bool.eq_iff_iff, List.isEmpty_iff_length_eq_zero, List.isEmpty_iff_length_eq_zero, hlength]
  have hentity : element.qname = md "EntityDescriptor" :=
    Except.ok.inj (hname.symm.trans htag)
  have hbegun : shape next.stack =
      [] ++ (md "EntityDescriptor", element.namespacesDeclaredHere) :: shape mid.stack := by
    rw [hshape, hmid, hentity]
    rfl
  refine ⟨_, hcapture, ?_, hgathered⟩
  refine .within hnone ?_ ((wraps_shape hmid).trans hwraps) hbegun hsame hlifts hinside seen
    (by rw [hempty]; exact aggregate) (by rw [hlength]; rfl) rfl ?_ (hmid ▸ hframes)
    (hgathered ▸ visited)
  · refine wrapped.imp (fun hnil => ?_) fun hroot => hmid ▸ hroot
    rw [← List.length_eq_zero_iff, hlength, hnil, List.length_nil]
  · have hopened := congrArg List.length hshape
    rw [List.length_cons, shape, shape, List.length_map, List.length_map] at hopened
    rw [hopened, Scan.descend]
    exact congrArg Nat.succ depth

/-- The wrapper that a start tag begins. -/
theorem Tracks.entered (faithful : StreamReader.Faithful sr) (root : b.completedRoot = none)
    (wrapped : b.stack = [] ∨ RootWraps (shape b.stack)) (free : outside b.stack = true)
    (hframes : Frames sr.toQuickXml scan.nsStack (shape b.stack))
    (hname : rawLocalName start.name = "EntitiesDescriptor")
    (hfeed : b.feed sr.toQuickXml (.start start) = .ok next)
    (seen : scan.rootSeen = true) (aggregate : scan.rootIsAggregate = true)
    (idle : scan.captureStart = none) (builder : scan.builder = none)
    (depth : scan.elementDepth = b.stack.length)
    (visited : scan.entitiesVisited = (gatheredBy b).length) :
    Tracks sr next (scan.enter sr start) ∧ gatheredBy next = gatheredBy b := by
  obtain ⟨element, hshape, hnone, -, hlocal, ⟨raw, hraw, hdeclared⟩, hgathered⟩ :=
    opens_shape root (effect_feed hfeed)
  have hwrapper := hlocal.trans hname
  have hlength := congrArg List.length hshape
  rw [List.length_cons, shape, shape, List.length_map, List.length_map] at hlength
  have hdecls := declares_collectNamespaceDecls faithful hraw
  rw [← hdeclared] at hdecls
  have hdepth : scan.elementDepth = (shape b.stack).length := by
    rw [depth, shape, List.length_map]
  refine ⟨.between hnone ?_ ?_ seen aggregate idle builder ?_ ?_ (hgathered ▸ visited), hgathered⟩
  · rw [hshape]
    rcases wrapped with hnil | hroot
    · rw [hnil]
      exact ⟨_, rfl, hwrapper⟩
    · exact hroot.cons _
  · rw [outside_iff_shape, hshape]
    intro entry hentry
    rcases List.mem_cons.mp hentry with rfl | hrest
    · rw [hwrapper]
      decide
    · exact outside_iff_shape.mp free entry hrest
  · rw [hlength]
    exact congrArg Nat.succ depth
  · rw [hshape, Scan.enter, hdepth]
    exact .wrapper hframes hwrapper hdecls

/-- Any other element around entities. -/
theorem Tracks.descended (root : b.completedRoot = none) (wrapped : RootWraps (shape b.stack))
    (free : outside b.stack = true) (hframes : Frames sr.toQuickXml scan.nsStack (shape b.stack))
    (hentity : rawLocalName start.name ≠ "EntityDescriptor")
    (hwrapper : rawLocalName start.name ≠ "EntitiesDescriptor")
    (hfeed : b.feed sr.toQuickXml (.start start) = .ok next)
    (seen : scan.rootSeen = true) (aggregate : scan.rootIsAggregate = true)
    (idle : scan.captureStart = none) (builder : scan.builder = none)
    (depth : scan.elementDepth = b.stack.length)
    (visited : scan.entitiesVisited = (gatheredBy b).length) :
    Tracks sr next scan.descend ∧ gatheredBy next = gatheredBy b := by
  obtain ⟨element, hshape, hnone, -, hlocal, -, hgathered⟩ := opens_shape root (effect_feed hfeed)
  have hlength := congrArg List.length hshape
  rw [List.length_cons, shape, shape, List.length_map, List.length_map] at hlength
  refine ⟨.between hnone ?_ ?_ seen aggregate idle builder ?_ ?_ (hgathered ▸ visited), hgathered⟩
  · rw [hshape]
    exact wrapped.cons _
  · rw [outside_iff_shape, hshape]
    intro entry hentry
    rcases List.mem_cons.mp hentry with rfl | hrest
    · rw [hlocal]
      exact hentity
    · exact outside_iff_shape.mp free entry hrest
  · rw [hlength]
    exact congrArg Nat.succ depth
  · rw [hshape]
    exact .other hframes (by rw [hlocal]; exact hwrapper)

/-- The limit of nested wrappers is not below that of open elements. -/
theorem not_too_deep (hsound : Sound next) (hframes : Frames qx scan.nsStack (shape b.stack))
    (hopens : Opens qx b start next) (root : b.completedRoot = none) :
    ¬ MAX_STREAM_DEPTH ≤ scan.nsStack.length := by
  obtain ⟨element, hshape, -⟩ := opens_shape root hopens
  obtain ⟨mid, opened, e, path, -, -, -, hdepth⟩ := hopens
  have hlength := congrArg List.length hshape
  rw [List.length_cons, shape, shape, List.length_map, List.length_map] at hlength
  have hle := hframes.length_le
  rw [shape, List.length_map] at hle
  rw [hsound.limits] at hdepth
  have hmax : XmlLimits.aggregate.maxDepth = MAX_STREAM_DEPTH := rfl
  omega

/-- Step: a start tag. -/
theorem Tracks.startTag (faithful : StreamReader.Faithful sr) (hsound : Sound b)
    (h : Tracks sr b scan) (hfeed : b.feed sr.toQuickXml (.start start) = .ok next)
    (hclean : spurious sr.toQuickXml (b, .start start) = false)
    (hnamed : ∀ name, rootName next = some name →
      name = md "EntitiesDescriptor" ∨ name = md "EntityDescriptor")
    (hsingle : next.completedRoot = none ∨ next.stack = []) :
    Turn sr b next scan (.start start) := by
  have hopens : Opens sr.toQuickXml b start next := effect_feed hfeed
  cases h with
  | fresh stack root =>
      obtain ⟨element, hshape, hnone, hname, hlocal, -⟩ := opens_shape root hopens
      have hroot : rootName next = some element.qname := by
        rw [rootName, hnone, hshape, stack]
        rfl
      have hframes : Frames sr.toQuickXml Scan.initial.nsStack (shape b.stack) := by
        rw [stack]
        exact .nil
      have hfree : outside b.stack = true := by rw [stack]; rfl
      have hvisited : Scan.initial.entitiesVisited = (gatheredBy b).length := by
        rw [gatheredBy, root, stack]
        rfl
      have hstep : Scan.initial.step sr (.start start) =
          Scan.initial.startRoot sr start >>= fun reached => .ok (.next reached) := rfl
      rcases hnamed _ hroot with hwrapper | hentity
      · have htag : rawLocalName start.name = "EntitiesDescriptor" := by rw [← hlocal, hwrapper]; rfl
        obtain ⟨htracks, hgathered⟩ := @Tracks.entered sr b next { Scan.initial with
            rootSeen := true
            rootIsAggregate := rawLocalName start.name == ("EntitiesDescriptor" : Str) } start faithful
          root (.inl stack) hfree hframes htag hfeed rfl (by simp [htag]) rfl rfl (by rw [stack]; rfl)
          hvisited
        refine .passes (hstep.trans ?_) htracks hgathered
        simp only [Scan.startRoot, if_pos htag]
        rfl
      · have htag : rawLocalName start.name = "EntityDescriptor" := by rw [← hlocal, hentity]; rfl
        have htaken := taken_of_clean hfree hclean htag
        obtain ⟨reached, hcapture, htracks, hgathered⟩ := @Tracks.captured sr b next { Scan.initial with
            rootSeen := true
            rootIsAggregate := rawLocalName start.name == ("EntitiesDescriptor" : Str) } start hsound root
          (.inl stack) hframes htaken hfeed rfl (by rw [htag, stack]; rfl) (by rw [stack]; rfl)
          hvisited
        refine .passes (hstep.trans ?_) htracks hgathered
        rw [stack] at hcapture
        rw [Scan.startRoot, if_neg (by rw [htag]; decide), if_pos htag]
        exact bind_of_ok hcapture _
  | between root wrapped free seen aggregate idle builder depth frames visited =>
      have hstep : scan.step sr (.start start) =
          scan.startInner sr start >>= fun reached => .ok (.next reached) := by
        rw [step_start, feedBuilder_none builder, ok_bind, if_pos seen]
      have hidle : ¬ scan.captureStart.isSome = true := by rw [idle]; exact Bool.false_ne_true
      by_cases hentity : rawLocalName start.name = "EntityDescriptor"
      · have htaken := taken_of_clean free hclean hentity
        obtain ⟨reached, hcapture, htracks, hgathered⟩ := Tracks.captured hsound root
          (.inr wrapped) frames htaken hfeed seen (by
            rw [aggregate]
            cases hstack : b.stack with
            | nil => exact absurd (by rw [hstack]; rfl) wrapped.ne_nil
            | cons frame outer => rfl) depth visited
        refine .passes (hstep.trans ?_) htracks hgathered
        rw [Scan.startInner, if_neg hidle, if_pos hentity, depth, hcapture, ok_bind]
      by_cases hwrapper : rawLocalName start.name = "EntitiesDescriptor"
      · obtain ⟨htracks, hgathered⟩ := Tracks.entered faithful root (.inr wrapped) free frames
          hwrapper hfeed seen aggregate idle builder depth visited
        refine .passes (hstep.trans ?_) htracks hgathered
        rw [Scan.startInner, if_neg hidle, if_neg hentity, if_pos hwrapper,
          if_neg (not_too_deep (hsound.feed hfeed) frames hopens root), ok_bind]
      · obtain ⟨htracks, hgathered⟩ := Tracks.descended root wrapped free frames hentity hwrapper
          hfeed seen aggregate idle builder depth visited
        refine .passes (hstep.trans ?_) htracks hgathered
        rw [Scan.startInner, if_neg hidle, if_neg hentity, if_neg hwrapper, ok_bind]
  | @within c _ inner declared outer base seed root wrapped wrappers entity same lifts inside seen
      aggregate capture builder depth frames visited =>
      obtain ⟨element, hshape, hnone, -, -, -, hgathered⟩ := opens_shape root hopens
      have hlength := congrArg List.length hshape
      rw [List.length_cons, shape, shape, List.length_map, List.length_map] at hlength
      obtain ⟨d, hd, ⟨hlifts, hinside⟩ | ⟨⟨name, hend⟩, -⟩⟩ := lifts.feed same inside hfeed
      · have hentered : shape next.stack =
            ((element.qname, element.namespacesDeclaredHere) :: inner) ++
              (md "EntityDescriptor", declared) :: shape outer := by
          rw [hshape, entity]
          rfl
        have hdepth : scan.elementDepth + 1 = next.stack.length := by rw [hlength, depth]
        have htracks : Tracks sr next { scan with builder := some d }.descend :=
          .within hnone wrapped wrappers hentered same hlifts hinside seen aggregate capture rfl
            hdepth frames (hgathered ▸ visited)
        refine .passes ?_ htracks hgathered
        rw [step_start, feedBuilder_within builder hd, ok_bind, if_pos seen, Scan.startInner,
          if_pos (by dsimp only; rw [capture]; rfl), ok_bind]
      · cases hend
  | after stack root builder visited =>
      obtain ⟨mid, opened, element, path, hquiet, hopen, rfl, -⟩ := hopens
      rcases hsingle with hnone | hnil
      · have hkept := (openElement_ok hopen).2.2.2.2.1.trans (hquiet.completedRoot.trans root)
        rw [hnone] at hkept
        cases hkept
      · cases hnil

/-! ## An empty tag -/

/-- Inside an entity there are other elements than wrappers. -/
theorem wraps_within {stack outer : List StackFrame} {inner : List (QName × NsLayer)}
    {declared : NsLayer}
    (h : shape stack = inner ++ (md "EntityDescriptor", declared) :: shape outer) :
    wraps stack = false := by
  rw [← Bool.not_eq_true, wraps_iff_shape, h]
  intro hall
  have hentity : md "EntityDescriptor" = md "EntitiesDescriptor" :=
    hall (_, declared) (List.mem_append_right _ List.mem_cons_self)
  exact absurd hentity (by decide)

theorem step_empty (sr : StreamReader) (scan : Scan) (start : BytesStart) :
    scan.step sr (.empty start) = scan.feedBuilder sr (.empty start) >>= fun fed =>
      if fed.rootSeen then .ok (.next fed)
      else if rawLocalName start.name ≠ "EntitiesDescriptor" ∧
        rawLocalName start.name ≠ "EntityDescriptor" then notMetadata
      else .ok .done := rfl

/-- Step: an empty tag. -/
theorem Tracks.emptyTag (h : Tracks sr b scan)
    (hfeed : b.feed sr.toQuickXml (.empty start) = .ok next)
    (hmissed : missed sr.toQuickXml (b, .empty start) = false)
    (hnamed : ∀ name, rootName next = some name →
      name = md "EntitiesDescriptor" ∨ name = md "EntityDescriptor")
    (hsingle : next.completedRoot = none ∨ next.stack = []) :
    Turn sr b next scan (.empty start) := by
  have hcollapses : Collapses sr.toQuickXml b start next := effect_feed hfeed
  have huntaken : taken sr.toQuickXml b start = false := hmissed
  cases h with
  | fresh stack root =>
      obtain ⟨element, hshape, hname, hlocal, hnext, hgathered⟩ := collapses_shape root hcollapses
      have hstack : next.stack = [] := by
        rw [stack] at hshape
        exact List.map_eq_nil_iff.mp hshape
      rw [huntaken, if_neg Bool.false_ne_true, List.append_nil] at hgathered
      rw [if_pos hstack] at hnext
      have hwrapper : element.qname = md "EntitiesDescriptor" := by
        rcases hnamed element.qname (by rw [rootName, hnext]) with hwrapper | hentity
        · exact hwrapper
        · rw [← Bool.not_eq_true, taken_iff, hname, hentity, stack] at huntaken
          exact absurd ⟨rfl, rfl⟩ huntaken
      have htag : rawLocalName start.name = "EntitiesDescriptor" := by
        rw [← hlocal, hwrapper]
        rfl
      refine .ends ?_ hgathered (by rw [hnext]; rfl)
      rw [step_empty, feedBuilder_none rfl, ok_bind, if_neg (by decide), htag, if_neg (by decide)]
  | between root wrapped free seen aggregate idle builder depth frames visited =>
      obtain ⟨element, hshape, -, -, hnext, hgathered⟩ := collapses_shape root hcollapses
      rw [huntaken, if_neg Bool.false_ne_true, List.append_nil] at hgathered
      have hstack : next.stack ≠ [] := by
        intro hnil
        rw [← hshape, hnil] at wrapped
        exact wrapped.ne_nil rfl
      rw [if_neg hstack] at hnext
      refine .passes ?_ (.between hnext (hshape ▸ wrapped) ((outside_shape hshape).trans free) seen
        aggregate idle builder (depth.trans (length_shape hshape).symm) (hshape ▸ frames)
        (hgathered ▸ visited)) hgathered
      rw [step_empty, feedBuilder_none builder, ok_bind, if_pos seen]
  | @within c _ inner declared outer base seed root wrapped wrappers entity same lifts inside seen
      aggregate capture builder depth frames visited =>
      obtain ⟨element, hshape, -, -, hnext, hgathered⟩ := collapses_shape root hcollapses
      rw [huntaken, if_neg Bool.false_ne_true, List.append_nil] at hgathered
      have hstack : next.stack ≠ [] := by
        intro hnil
        rw [← hshape, hnil] at entity
        exact List.append_ne_nil_of_right_ne_nil inner (List.cons_ne_nil _ _) entity.symm
      rw [if_neg hstack] at hnext
      obtain ⟨d, hd, ⟨hlifts, hinside⟩ | ⟨⟨name, hend⟩, -⟩⟩ := lifts.feed same inside hfeed
      · have htracks : Tracks sr next { scan with builder := some d } :=
          .within hnext wrapped wrappers (hshape.trans entity) same hlifts hinside seen aggregate
            capture rfl (depth.trans (length_shape hshape).symm) frames (hgathered ▸ visited)
        refine .passes ?_ htracks hgathered
        rw [step_empty, feedBuilder_within builder hd, ok_bind, if_pos seen]
      · cases hend
  | after stack root builder visited =>
      obtain ⟨mid, opened, element, path, hquiet, hopen, hclose⟩ := hcollapses
      obtain ⟨hopened, hkept⟩ := closeElement_open
        ((openElement_ok hopen).2.2.2.2.1.trans (hquiet.completedRoot.trans root)) hclose
      rcases hsingle with hnone | hnil
      · rw [hnone] at hkept
        cases hkept
      · exact absurd hnil hopened

/-! ## An end tag -/

theorem leave_eq (scan : Scan) : ∃ nsStack, scan.leave = { scan with nsStack := nsStack } := by
  unfold Scan.leave
  split
  · exact ⟨_, rfl⟩
  · exact ⟨scan.nsStack, rfl⟩

/-- Leaving an element takes the frame of a wrapper off. -/
theorem leave_frames {around : List (QName × NsLayer)} {entry : QName × NsLayer}
    (frames : Frames qx scan.nsStack (entry :: around)) (hroot : RootWraps around)
    (idle : scan.captureStart = none) (depth : scan.elementDepth = around.length) :
    ∃ kept, scan.leave = { scan with nsStack := kept } ∧ Frames qx kept around := by
  obtain ⟨root, hlast, hname⟩ := hroot
  cases hstack : scan.nsStack with
  | nil =>
      rw [hstack] at frames
      cases frames with
      | other h hother => exact absurd rfl (h.ne_nil hlast hname)
  | cons frame rest =>
      rw [hstack] at frames
      cases frames with
      | wrapper h hwrapper hdecls =>
          have hpos := List.length_pos_iff.mpr (h.ne_nil hlast hname)
          refine ⟨rest, ?_, h⟩
          rw [Scan.leave, if_pos, hstack]
          · rfl
          · rw [idle, hstack, depth]
            simp [hpos]
      | other h hother =>
          have hlt := h.depth_lt frame List.mem_cons_self
          refine ⟨frame :: rest, ?_, h⟩
          rw [Scan.leave, if_neg]
          · rw [← hstack]
          · rw [hstack, depth]
            simp only [List.head?_cons, Option.any_some, Bool.and_eq_true, decide_eq_true_eq]
            rintro ⟨-, heq⟩
            omega

theorem step_end (sr : StreamReader) (scan : Scan) (name : Str) :
    scan.step sr (.endTag name) = scan.feedBuilder sr (.endTag name) >>= Scan.endElement := rfl

theorem endElement_inside {depth : Nat} (hdepth : scan.elementDepth = depth + 1)
    (hother : scan.captureStart ≠ some depth) :
    scan.endElement = .ok (.next { scan with elementDepth := depth }.leave) := by
  rw [Scan.endElement, hdepth]
  dsimp only
  rw [if_neg hother]

theorem endElement_captured {depth : Nat} (hdepth : scan.elementDepth = depth + 1)
    (hcapture : scan.captureStart = some depth) :
    scan.endElement = { scan with elementDepth := depth }.finishEntity := by
  rw [Scan.endElement, hdepth]
  dsimp only
  rw [if_pos hcapture]

/-- Inside an entity no wrapper is left. -/
theorem leave_captured (hcapture : scan.captureStart.isSome = true) : scan.leave = scan := by
  rw [Scan.leave, if_neg]
  rw [Option.isNone_eq_false_iff.mpr hcapture, Bool.false_and, Bool.false_and]
  exact Bool.false_ne_true

/-- The end of an entity: its builder has its like. -/
theorem finishEntity_complete {d : TreeBuilder} {root : Element} (hbuilder : scan.builder = some d)
    (hstack : d.stack = []) (hroot : d.completedRoot = some root)
    (hbound : scan.entitiesVisited + 1 ≤ MAX_STREAM_ENTITIES) :
    scan.finishEntity = .ok (.entity root { scan with
      builder := none, captureStart := none, entitiesVisited := scan.entitiesVisited + 1 }) := by
  have hfinish : d.finishRoot = .ok root := by
    rw [TreeBuilder.finishRoot, hstack, hroot]
    rfl
  rw [Scan.finishEntity, hbuilder, okOr_some, ok_bind, hfinish, ok_bind,
    if_neg (Nat.not_lt.mpr hbound)]

/-- There are more open elements than those around the subtree. -/
theorem outer_lt {c : TreeBuilder} {outer : List StackFrame} {base : List NsLayer} {seed : NsLayer}
    (h : Lifts outer base seed b c) (inside : c.stack ≠ []) : outer.length < b.stack.length := by
  obtain ⟨f, fs, g, gs, hstack, -⟩ := h.frames inside
  rw [hstack, List.length_cons, List.length_append]
  omega

/-- The entity is the innermost open element when the subtree is complete. -/
theorem innermost_entity {frame : StackFrame} {outer : List StackFrame} {name : QName}
    {inner : List (QName × NsLayer)} {declared : NsLayer} (hpadded : Padded b.stack mid.stack)
    (hstack : mid.stack = frame :: outer)
    (hentity : shape b.stack = inner ++ (name, declared) :: shape outer) :
    frame.element.qname = name ∧ b.stack.length = outer.length + 1 := by
  rw [← shape_padded hpadded, hstack] at hentity
  have hlength := length_shape (shape_padded hpadded)
  rw [hstack] at hlength
  refine ⟨?_, hlength.symm⟩
  have hinner := congrArg List.length hentity
  simp only [shape, List.map_cons, List.length_cons, List.length_append, List.length_map] at hinner
  have hnone : inner = [] := List.length_eq_zero_iff.mp (by omega)
  rw [hnone] at hentity
  exact congrArg Prod.fst (List.cons.inj hentity).1

/-- Inside an entity only what is around it has gathered anything. -/
theorem gatheredBy_entity {frame : StackFrame} {outer : List StackFrame}
    (hroot : b.completedRoot = none) (hstack : b.stack = frame :: outer)
    (hname : frame.element.qname = md "EntityDescriptor") : gatheredBy b = gathered outer := by
  have hwraps : ¬ wraps (frame :: outer) = true := by
    rw [wraps_iff_shape]
    intro hall
    have hwrapper : frame.element.qname = md "EntitiesDescriptor" := hall _ List.mem_cons_self
    rw [hname] at hwrapper
    exact absurd hwrapper (by decide)
  rw [gatheredBy, hroot]
  dsimp only
  rw [hstack, gathered, if_neg hwraps, List.append_nil]

/-- The scan behind an entity. -/
def Scan.behind (scan : Scan) (depth : Nat) : Scan :=
  { scan with
    builder := none
    captureStart := none
    elementDepth := depth
    entitiesVisited := scan.entitiesVisited + 1 }

/-- Behind an entity the scan is in wrappers again, or behind the root. -/
theorem Tracks.finished {outer : List StackFrame} {e : Element}
    (wrapped : outer = [] ∨ RootWraps (shape outer)) (wrappers : wraps outer = true)
    (hshape : shape next.stack = shape outer)
    (hroot : next.completedRoot = if next.stack = [] then some e else none)
    (seen : scan.rootSeen = true) (aggregate : scan.rootIsAggregate = !outer.isEmpty)
    (frames : Frames sr.toQuickXml scan.nsStack (shape outer))
    (visited : scan.entitiesVisited + 1 = (gatheredBy next).length) :
    Tracks sr next (scan.behind outer.length) := by
  rcases wrapped with rfl | hwraps
  · have hstack : next.stack = [] := List.map_eq_nil_iff.mp hshape
    rw [if_pos hstack] at hroot
    exact .after hstack hroot rfl visited
  · have hstack : next.stack ≠ [] := by
      intro hnil
      rw [hnil] at hshape
      exact hwraps.ne_nil hshape.symm
    rw [if_neg hstack] at hroot
    refine .between hroot (hshape ▸ hwraps) ?_ seen ?_ rfl rfl (length_shape hshape).symm
      (hshape ▸ frames) visited
    · rw [outside_iff_shape, hshape]
      intro entry hentry
      rw [wraps_iff_shape.mp wrappers entry hentry]
      decide
    · cases outer with
      | nil => exact absurd rfl hwraps.ne_nil
      | cons frame rest => exact aggregate

/-- Step: an end tag. -/
theorem Tracks.endTag (h : Tracks sr b scan) {name : Str}
    (hfeed : b.feed sr.toQuickXml (.endTag name) = .ok next)
    (hbound : (gatheredBy next).length ≤ MAX_STREAM_ENTITIES) :
    Turn sr b next scan (.endTag name) := by
  have hcloses : Closes b next := effect_feed hfeed
  have hopened : b.stack ≠ [] := by
    intro hnil
    obtain ⟨mid, frame, outer, hquiet, hstack, -⟩ := hcloses
    have hlength := length_shape (shape_padded hquiet.stack)
    rw [hstack, hnil] at hlength
    cases hlength
  cases h with
  | fresh stack root => exact absurd stack hopened
  | between root wrapped free seen aggregate idle builder depth frames visited =>
      obtain ⟨element, declared, hshape, hnext, hgathered⟩ := closes_shape root hcloses
      have hlength := congrArg List.length hshape
      rw [List.length_cons, shape, shape, List.length_map, List.length_map] at hlength
      have hfree := outside_iff_shape.mp free
      rw [hshape] at hfree wrapped frames
      have hother : isMdElement element "EntityDescriptor" = false := by
        rw [← Bool.not_eq_true, isMdElement_iff]
        intro heq
        exact hfree _ List.mem_cons_self (congrArg QName.localName heq)
      rw [hother, Bool.and_false, if_neg Bool.false_ne_true, List.append_nil] at hgathered
      have hstep : scan.step sr (.endTag name) =
          .ok (.next { scan with elementDepth := next.stack.length }.leave) := by
        rw [step_end, feedBuilder_none builder, ok_bind,
          endElement_inside (depth.trans hlength) (by rw [idle]; exact (Option.some_ne_none _).symm)]
      by_cases hstack : next.stack = []
      · rw [if_pos hstack] at hnext
        refine .passes hstep (.after hstack hnext ?_ ?_) hgathered
        · obtain ⟨kept, hkept⟩ := leave_eq { scan with elementDepth := next.stack.length }
          rw [hkept]
          exact builder
        · obtain ⟨kept, hkept⟩ := leave_eq { scan with elementDepth := next.stack.length }
          rw [hkept, hgathered]
          exact visited
      · rw [if_neg hstack] at hnext
        have hroot := wrapped.of_cons (fun hnil => hstack (List.map_eq_nil_iff.mp hnil))
        obtain ⟨kept, hkept, hframes⟩ := @leave_frames _
          { scan with elementDepth := next.stack.length } _ _ frames hroot idle
          (List.length_map _).symm
        rw [hkept] at hstep
        exact .passes hstep (.between hnext hroot (outside_iff_shape.mpr fun entry hentry =>
          hfree entry (List.mem_cons_of_mem _ hentry)) seen aggregate idle builder rfl hframes
          (hgathered ▸ visited)) hgathered
  | @within c _ inner declared outer base seed root wrapped wrappers entity same lifts inside seen
      aggregate capture builder depth frames visited =>
      obtain ⟨element, declared', hshape, hnext, hgathered⟩ := closes_shape root hcloses
      have hlength := congrArg List.length hshape
      rw [List.length_cons, shape, shape, List.length_map, List.length_map] at hlength
      have hdepth := depth.trans hlength
      obtain ⟨d, hd, ⟨hlifts, hinside⟩ | ⟨-, hcompletes⟩⟩ := lifts.feed same inside hfeed
      · -- an element inside the entity ends
        have hdeeper := outer_lt hlifts hinside
        rw [hshape] at entity
        cases inner with
        | nil =>
            obtain ⟨-, hrest⟩ := List.cons.inj entity
            exact absurd (length_shape hrest) (Nat.ne_of_gt hdeeper)
        | cons entry rest =>
            obtain ⟨-, hrest⟩ := List.cons.inj entity
            have hstack : next.stack ≠ [] := by
              intro hnil
              rw [hnil] at hdeeper
              exact absurd hdeeper (Nat.not_lt_zero _)
            rw [if_neg hstack] at hnext
            rw [wraps_within hrest, Bool.false_and, if_neg Bool.false_ne_true,
              List.append_nil] at hgathered
            have hother : scan.captureStart ≠ some next.stack.length := by
              rw [capture]
              exact fun heq => absurd (Option.some.inj heq) (Nat.ne_of_lt hdeeper)
            have htracks : Tracks sr next
                { scan with builder := some d, elementDepth := next.stack.length } :=
              .within hnext wrapped wrappers hrest same hlifts hinside seen aggregate capture rfl
                rfl frames (hgathered ▸ visited)
            have hended : ({ scan with builder := some d } : Scan).endElement = .ok (.next
                { scan with builder := some d, elementDepth := next.stack.length }.leave) :=
              endElement_inside hdepth hother
            refine .passes ?_ htracks hgathered
            rw [step_end, feedBuilder_within builder hd, ok_bind, hended,
              leave_captured (by dsimp only; rw [capture]; rfl)]
      · -- the entity ends
        obtain ⟨mid, frame, e, hquiet, hstack, hclose, hdone, hfound, halike⟩ := hcompletes
        obtain ⟨hname, hlast⟩ := innermost_entity hquiet.stack hstack entity
        have hmid : mid.completedRoot = none := hquiet.completedRoot.trans root
        obtain ⟨hleft, hnext, hgathered⟩ := closeElement_shape
          (c := { mid with stack := outer, nsStack := mid.nsStack.tail }) hmid hclose
        have hadded : gatheredBy next = gatheredBy b ++ [frame.element] := by
          rw [hgathered, ← gatheredBy_quiet hquiet, gatheredBy_entity hmid hstack hname, wrappers,
            if_pos rfl, entitiesAt_element, if_pos (isMdElement_iff.mpr hname)]
        have hcount : scan.entitiesVisited + 1 = (gatheredBy next).length := by
          rw [hadded, List.length_append, visited]
          rfl
        have hended : ({ scan with builder := some d } : Scan).endElement =
            ({ scan with builder := some d, elementDepth := outer.length } : Scan).finishEntity :=
          endElement_captured (depth.trans hlast) capture
        have hfinish : ({ scan with builder := some d, elementDepth := outer.length } :
            Scan).finishEntity = .ok (.entity e (scan.behind outer.length)) :=
          finishEntity_complete rfl hdone hfound (hcount ▸ hbound)
        have hstep : scan.step sr (.endTag name) = .ok (.entity e (scan.behind outer.length)) := by
          rw [step_end, feedBuilder_within builder hd, ok_bind, hended, hfinish]
        refine .visits hstep ?_ hadded halike ?_
        · exact .finished wrapped wrappers hleft hnext seen aggregate frames hcount
        · intro hsingle
          obtain rfl : outer = [] := by simpa using aggregate.symm.trans hsingle
          rw [hnext, if_pos (List.map_eq_nil_iff.mp hleft)]
          rfl
  | after stack root builder visited => exact absurd stack hopened

end Saml.Metadata
