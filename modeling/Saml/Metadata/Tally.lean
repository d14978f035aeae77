import Saml.Metadata.Agreement

/-!
# Counting entities

The scan follows the builder by depth alone. Whatever it visits, the visited
entities and the missed ones are together as many as the gathered entities and
the spurious ones.
-/

namespace Saml.Metadata

open Xml Crypto TreeBuilder

/-! ## What a step leaves alone -/

section Steps

variable {sr : StreamReader} {scan next : Scan} {event : Event}

theorem feedBuilder_ok (h : scan.feedBuilder sr event = .ok next) :
    ∃ builder, next = { scan with builder := builder } := by
  unfold Scan.feedBuilder at h
  split at h
  · exact ⟨scan.builder, (Except.ok.inj h).symm⟩
  · obtain ⟨b, _, h⟩ := bind_eq_ok_iff.mp h
    exact ⟨some b, (Except.ok.inj h).symm⟩

theorem capture_ok {captureStart : Nat} {start : BytesStart}
    (h : scan.capture sr captureStart start = .ok next) :
    ∃ builder, next = { scan with
      captureStart := some captureStart, builder := builder,
      elementDepth := scan.elementDepth + 1 } := by
  obtain ⟨empty, _, h⟩ := bind_eq_ok_iff.mp h
  obtain ⟨b, _, h⟩ := bind_eq_ok_iff.mp h
  exact ⟨some b, (Except.ok.inj h).symm⟩

theorem finishEntity_ok {outcome : Outcome} (h : scan.finishEntity = .ok outcome) :
    ∃ root, outcome = .entity root { scan with
      builder := none, captureStart := none, entitiesVisited := scan.entitiesVisited + 1 } := by
  obtain ⟨b, _, h⟩ := bind_eq_ok_iff.mp h
  obtain ⟨root, _, h⟩ := bind_eq_ok_iff.mp h
  obtain ⟨_, h⟩ := ite_error_eq_ok_iff.mp h
  exact ⟨root, (Except.ok.inj h).symm⟩

end Steps

/-! ## The tally -/

/-- One for a property that holds. -/
def tally (p : Bool) : Nat := if p then 1 else 0

/-- The scan is where the builder is, with so many entities missed and so many
spurious ones read. An entity being captured counts as visited, and as gathered
if the tree has it. -/
inductive Follows : TreeBuilder → Scan → Nat → Nat → Prop
  | fresh {b : TreeBuilder} {scan : Scan} (stack : b.stack = []) (root : b.completedRoot = none)
      (seen : scan.rootSeen = false) (captureStart : scan.captureStart = none)
      (depth : scan.elementDepth = 0) (visited : scan.entitiesVisited = 0) : Follows b scan 0 0
  | between {b : TreeBuilder} {scan : Scan} {m s : Nat} (stack : b.stack ≠ [])
      (root : b.completedRoot = none) (free : outside b.stack = true)
      (seen : scan.rootSeen = true) (aggregate : scan.rootIsAggregate = true)
      (captureStart : scan.captureStart = none) (depth : scan.elementDepth = b.stack.length)
      (balance : scan.entitiesVisited + m = (gatheredBy b).length + s) : Follows b scan m s
  | within {b : TreeBuilder} {scan : Scan} {m s : Nat} (inner : List (QName × NsLayer))
      (name : QName) (declared : NsLayer) (outer : List StackFrame)
      (stack : shape b.stack = inner ++ (name, declared) :: shape outer)
      (root : b.completedRoot = none) (free : outside outer = true)
      (entity : name.localName = "EntityDescriptor") (seen : scan.rootSeen = true)
      (aggregate : scan.rootIsAggregate = !outer.isEmpty)
      (captureStart : scan.captureStart = some outer.length)
      (depth : scan.elementDepth = b.stack.length)
      (balance : scan.entitiesVisited + 1 + m = (gatheredBy b).length +
        tally (wraps outer && decide (name = md "EntityDescriptor")) + s) : Follows b scan m s
  | after {b : TreeBuilder} {scan : Scan} {m s : Nat} {root : Element} (stack : b.stack = [])
      (root : b.completedRoot = some root)
      (balance : scan.entitiesVisited + m = (gatheredBy b).length + s) : Follows b scan m s

variable {sr : StreamReader} {b next : TreeBuilder} {scan fed : Scan} {m s : Nat} {event : Event}

/-- Nothing of this depends on the builder inside the scan. -/
theorem Follows.feedBuilder (h : Follows b scan m s) (hfed : scan.feedBuilder sr event = .ok fed) :
    Follows b fed m s := by
  obtain ⟨builder, rfl⟩ := feedBuilder_ok hfed
  cases h with
  | fresh stack root seen captureStart depth visited =>
      exact .fresh stack root seen captureStart depth visited
  | between stack root free seen aggregate captureStart depth balance =>
      exact .between stack root free seen aggregate captureStart depth balance
  | within inner name declared outer stack root free entity seen aggregate captureStart depth
      balance =>
      exact .within inner name declared outer stack root free entity seen aggregate captureStart
        depth balance
  | after stack root balance => exact .after stack root balance

theorem Follows.quiet (h : Follows b scan m s) (hquiet : TreeBuilder.Quiet b next) :
    Follows next scan m s := by
  have hshape := shape_padded hquiet.stack
  have hlength := length_shape hshape
  have hgathered := gatheredBy_quiet hquiet
  cases h with
  | fresh stack root seen captureStart depth visited =>
      refine .fresh ?_ (hquiet.completedRoot.trans root) seen captureStart depth visited
      rw [← List.length_eq_zero_iff, hlength, stack, List.length_nil]
  | between stack root free seen aggregate captureStart depth balance =>
      refine .between ?_ (hquiet.completedRoot.trans root) ((outside_shape hshape).trans free)
        seen aggregate captureStart (depth.trans hlength.symm) (hgathered ▸ balance)
      rw [← List.length_pos_iff, hlength, List.length_pos_iff]
      exact stack
  | within inner name declared outer stack root free entity seen aggregate captureStart depth
      balance =>
      exact .within inner name declared outer (hshape.trans stack)
        (hquiet.completedRoot.trans root) free entity seen aggregate captureStart
        (depth.trans hlength.symm) (hgathered ▸ balance)
  | after stack root balance =>
      refine .after ?_ (hquiet.completedRoot.trans root) (hgathered ▸ balance)
      rw [← List.length_eq_zero_iff, hlength, stack, List.length_nil]

/-! ## One event -/

theorem tally_not (p : Bool) : tally p + tally (!p) = 1 := by cases p <;> rfl

/-- An entity is among the open elements. -/
theorem outside_within {stack outer : List StackFrame} {inner : List (QName × NsLayer)}
    {name : QName} {declared : NsLayer} (h : shape stack = inner ++ (name, declared) :: shape outer)
    (hname : name.localName = "EntityDescriptor") : outside stack = false := by
  rw [← Bool.not_eq_true, outside_iff_shape, h]
  intro hall
  exact hall (name, declared) (List.mem_append_right _ List.mem_cons_self) hname

theorem wraps_of_named {stack outer : List StackFrame} {inner : List (QName × NsLayer)}
    {name : QName} {declared : NsLayer} (h : shape stack = inner ++ (name, declared) :: shape outer)
    (hname : name.localName = "EntityDescriptor") : wraps stack = false := by
  rw [← Bool.not_eq_true, wraps_iff_shape, h]
  intro hall
  have hwrapper : name = md "EntitiesDescriptor" :=
    hall (name, declared) (List.mem_append_right _ List.mem_cons_self)
  rw [hwrapper] at hname
  exact absurd hname (by decide)

/-- A start tag that begins an entity for the scan. -/
theorem Follows.captured {start : BytesStart} {captureStart : Nat}
    (root : b.completedRoot = none) (free : outside b.stack = true)
    (hname : rawLocalName start.name = "EntityDescriptor")
    (hopens : Opens sr.toQuickXml b start next) (seen : scan.rootSeen = true)
    (aggregate : scan.rootIsAggregate = !b.stack.isEmpty)
    (hstart : captureStart = b.stack.length) (depth : scan.elementDepth = b.stack.length)
    (balance : scan.entitiesVisited + m = (gatheredBy b).length + s)
    (hcapture : scan.capture sr captureStart start = .ok fed) :
    Follows next fed m (s + tally (spurious sr.toQuickXml (b, .start start))) := by
  obtain ⟨builder, rfl⟩ := capture_ok hcapture
  obtain ⟨element, hshape, hnone, htag, hlocal, -, hgathered⟩ := opens_shape root hopens
  have hlength := congrArg List.length hshape
  rw [List.length_cons, shape, shape, List.length_map, List.length_map] at hlength
  refine .within [] element.qname element.namespacesDeclaredHere b.stack hshape hnone free
    (hlocal.trans hname) seen aggregate (by rw [hstart]) ?_ ?_
  · rw [hlength, ← depth]
  · have htaken : (wraps b.stack && decide (element.qname = md "EntityDescriptor")) =
        taken sr.toQuickXml b start := by
      rw [taken, htag]
      simp only [Except.ok.injEq]
    have hspurious : spurious sr.toQuickXml (b, .start start) = !taken sr.toQuickXml b start := by
      rw [spurious, free, hname, decide_eq_true rfl]
      rfl
    have hone := tally_not (taken sr.toQuickXml b start)
    dsimp only
    rw [htaken, hspurious, hgathered]
    omega

/-- A start tag of any other element outside all entities. -/
theorem Follows.entered {start : BytesStart} {nsStack : List NsFrame}
    (root : b.completedRoot = none) (free : outside b.stack = true)
    (hname : rawLocalName start.name ≠ "EntityDescriptor")
    (hopens : Opens sr.toQuickXml b start next) (seen : scan.rootSeen = true)
    (aggregate : scan.rootIsAggregate = true) (idle : scan.captureStart = none)
    (depth : scan.elementDepth = b.stack.length)
    (balance : scan.entitiesVisited + m = (gatheredBy b).length + s) :
    Follows next { scan with nsStack := nsStack }.descend m
      (s + tally (spurious sr.toQuickXml (b, .start start))) := by
  obtain ⟨element, hshape, hnone, -, hlocal, -, hgathered⟩ := opens_shape root hopens
  have hlength := congrArg List.length hshape
  rw [List.length_cons, shape, shape, List.length_map, List.length_map] at hlength
  have hspurious : spurious sr.toQuickXml (b, .start start) = false := by
    rw [spurious, decide_eq_false hname, Bool.and_false, Bool.false_and]
  rw [hspurious]
  refine .between ?_ hnone ?_ seen aggregate idle ?_ (hgathered ▸ balance)
  · intro hnil
    rw [hnil] at hlength
    cases hlength
  · rw [outside_iff_shape, hshape]
    intro entry hentry
    rcases List.mem_cons.mp hentry with rfl | hrest
    · rw [hlocal]
      exact hname
    · exact outside_iff_shape.mp free entry hrest
  · rw [hlength, ← depth]
    rfl

/-- One event with the counts it leaves. -/
inductive Counted (sr : StreamReader) (b next : TreeBuilder) (scan : Scan) (m s : Nat)
    (event : Event) : Outcome → Prop
  | passes {reached : Scan} (follows : Follows next reached
      (m + tally (missed sr.toQuickXml (b, event)))
      (s + tally (spurious sr.toQuickXml (b, event)))) :
      Counted sr b next scan m s event (.next reached)
  | visits {root : Element} {reached : Scan} (follows : Follows next reached
      (m + tally (missed sr.toQuickXml (b, event)))
      (s + tally (spurious sr.toQuickXml (b, event))))
      (single : reached.rootIsAggregate = false → next.completedRoot.isSome = true) :
      Counted sr b next scan m s event (.entity root reached)
  | ends (finished : next.completedRoot.isSome = true)
      (balance : scan.entitiesVisited + (m + tally (missed sr.toQuickXml (b, event))) =
        (gatheredBy next).length + (s + tally (spurious sr.toQuickXml (b, event)))) :
      Counted sr b next scan m s event .done

/-- Step: a start tag. -/
theorem Follows.startTag (h : Follows b scan m s) {start : BytesStart} {outcome : Outcome}
    (hfeed : b.feed sr.toQuickXml (.start start) = .ok next)
    (hsingle : next.completedRoot = none ∨ next.stack = [])
    (hstep : scan.step sr (.start start) = .ok outcome) :
    Counted sr b next scan m s (.start start) outcome := by
  have hopens : Opens sr.toQuickXml b start next := effect_feed hfeed
  rw [step_start] at hstep
  obtain ⟨fed, hfed, hstep⟩ := bind_eq_ok_iff.mp hstep
  obtain ⟨reached, hreached, hstep⟩ := bind_eq_ok_iff.mp hstep
  obtain rfl := Except.ok.inj hstep
  refine .passes ?_
  cases h.feedBuilder hfed with
  | fresh stack root seen captureStart depth visited =>
      rw [if_neg (by rw [seen]; exact Bool.false_ne_true), Scan.startRoot] at hreached
      have hfree : outside b.stack = true := by rw [stack]; rfl
      have hdepth : fed.elementDepth = b.stack.length := by rw [depth, stack]; rfl
      have hbalance : fed.entitiesVisited + 0 = (gatheredBy b).length + 0 := by
        rw [visited, gatheredBy, root, stack]
        rfl
      by_cases hwrapper : rawLocalName start.name = "EntitiesDescriptor"
      · rw [if_pos hwrapper] at hreached
        obtain rfl := Except.ok.inj hreached
        exact .entered root hfree (by rw [hwrapper]; decide) hopens rfl
          (by dsimp only; rw [hwrapper]; rfl) captureStart hdepth hbalance
      by_cases hentity : rawLocalName start.name = "EntityDescriptor"
      · rw [if_neg hwrapper, if_pos hentity] at hreached
        refine .captured root hfree hentity hopens ?_ ?_ ?_ ?_ ?_ hreached
        · rfl
        · rw [hentity, stack]
          rfl
        · rw [stack]
          rfl
        · exact hdepth
        · exact hbalance
      · rw [if_neg hwrapper, if_neg hentity] at hreached
        cases hreached
  | between stack root free seen aggregate captureStart depth balance =>
      rw [if_pos seen, Scan.startInner,
        if_neg (by rw [captureStart]; exact Bool.false_ne_true)] at hreached
      by_cases hentity : rawLocalName start.name = "EntityDescriptor"
      · rw [if_pos hentity] at hreached
        refine .captured root free hentity hopens seen ?_ depth depth balance hreached
        rw [aggregate, Eq.comm, Bool.not_eq_true', List.isEmpty_eq_false_iff]
        exact stack
      rw [if_neg hentity] at hreached
      by_cases hwrapper : rawLocalName start.name = "EntitiesDescriptor"
      · rw [if_pos hwrapper] at hreached
        obtain ⟨-, hreached⟩ := ite_error_eq_ok_iff.mp hreached
        obtain rfl := Except.ok.inj hreached
        exact .entered root free hentity hopens seen aggregate captureStart depth balance
      · rw [if_neg hwrapper] at hreached
        obtain rfl := Except.ok.inj hreached
        exact .entered root free hentity hopens seen aggregate captureStart depth balance
  | within inner name declared outer stack root free entity seen aggregate captureStart depth
      balance =>
      obtain ⟨element, hshape, hnone, -, -, -, hgathered⟩ := opens_shape root hopens
      have hlength := congrArg List.length hshape
      rw [List.length_cons, shape, shape, List.length_map, List.length_map] at hlength
      rw [if_pos seen, Scan.startInner, if_pos (by rw [captureStart]; rfl)] at hreached
      obtain rfl := Except.ok.inj hreached
      have hspurious : spurious sr.toQuickXml (b, .start start) = false := by
        rw [spurious, outside_within stack entity, Bool.false_and, Bool.false_and]
      rw [hspurious]
      have hdeeper : shape next.stack = ((element.qname, element.namespacesDeclaredHere) :: inner) ++
          (name, declared) :: shape outer := by
        rw [hshape, stack]
        rfl
      refine .within _ name declared outer hdeeper hnone free entity seen aggregate captureStart ?_
        (hgathered ▸ balance)
      rw [hlength, ← depth]
      rfl
  | after stack root balance =>
      obtain ⟨mid, opened, element, path, hquiet, hopen, rfl, -⟩ := hopens
      rcases hsingle with hnone | hnil
      · have hkept := (openElement_ok hopen).2.2.2.2.1.trans (hquiet.completedRoot.trans root)
        rw [hnone] at hkept
        cases hkept
      · cases hnil

/-- Step: an empty tag. -/
theorem Follows.emptyTag (h : Follows b scan m s) {start : BytesStart} {outcome : Outcome}
    (hfeed : b.feed sr.toQuickXml (.empty start) = .ok next)
    (hsingle : next.completedRoot = none ∨ next.stack = [])
    (hstep : scan.step sr (.empty start) = .ok outcome) :
    Counted sr b next scan m s (.empty start) outcome := by
  have hcollapses : Collapses sr.toQuickXml b start next := effect_feed hfeed
  have hspurious : spurious sr.toQuickXml (b, .empty start) = false := rfl
  have hmissed : missed sr.toQuickXml (b, .empty start) = taken sr.toQuickXml b start := rfl
  rw [step_empty] at hstep
  obtain ⟨fed, hfed, hstep⟩ := bind_eq_ok_iff.mp hstep
  cases h.feedBuilder hfed with
  | fresh stack root seen captureStart depth visited =>
      obtain ⟨element, hshape, -, -, hnext, hgathered⟩ := collapses_shape root hcollapses
      have hstack : next.stack = [] := by
        rw [stack] at hshape
        exact List.map_eq_nil_iff.mp hshape
      rw [if_neg (by rw [seen]; exact Bool.false_ne_true)] at hstep
      split at hstep
      · cases hstep
      · obtain rfl := Except.ok.inj hstep
        have hnone : gatheredBy b = [] := by
          rw [gatheredBy, root, stack]
          rfl
        refine .ends (by rw [hnext, if_pos hstack]; rfl) ?_
        obtain ⟨builder, rfl⟩ := feedBuilder_ok hfed
        rw [show scan.entitiesVisited = 0 from visited, hgathered, hnone, hspurious, hmissed]
        cases taken sr.toQuickXml b start <;> rfl
  | between stack root free seen aggregate captureStart depth balance =>
      obtain ⟨element, hshape, -, -, hnext, hgathered⟩ := collapses_shape root hcollapses
      have hlength := length_shape hshape
      have hstack : next.stack ≠ [] := by
        rw [← List.length_pos_iff, hlength, List.length_pos_iff]
        exact stack
      rw [if_neg hstack] at hnext
      rw [if_pos seen] at hstep
      obtain rfl := Except.ok.inj hstep
      refine .passes (.between hstack hnext ((outside_shape hshape).trans free) seen aggregate
        captureStart (depth.trans hlength.symm) ?_)
      rw [hgathered, hspurious, hmissed, List.length_append]
      cases taken sr.toQuickXml b start
      · exact balance
      · simp only [tally, if_true, Bool.false_eq_true, if_false, List.length_singleton]
        omega
  | within inner name declared outer stack root free entity seen aggregate captureStart depth
      balance =>
      obtain ⟨element, hshape, -, -, hnext, hgathered⟩ := collapses_shape root hcollapses
      have hstack : next.stack ≠ [] := by
        intro hnil
        rw [← hshape, hnil] at stack
        exact List.append_ne_nil_of_right_ne_nil inner (List.cons_ne_nil _ _) stack.symm
      have huntaken : taken sr.toQuickXml b start = false := by
        rw [taken, wraps_of_named stack entity, Bool.false_and]
      rw [if_neg hstack] at hnext
      rw [if_pos seen] at hstep
      obtain rfl := Except.ok.inj hstep
      rw [huntaken, if_neg Bool.false_ne_true, List.append_nil] at hgathered
      refine .passes ?_
      rw [hspurious, hmissed, huntaken]
      exact .within inner name declared outer (hshape.trans stack) hnext free entity seen aggregate
        captureStart (depth.trans (length_shape hshape).symm) (hgathered ▸ balance)
  | after stack root balance =>
      obtain ⟨mid, opened, element, path, hquiet, hopen, hclose⟩ := hcollapses
      obtain ⟨hopened, hkept⟩ := closeElement_open
        ((openElement_ok hopen).2.2.2.2.1.trans (hquiet.completedRoot.trans root)) hclose
      rcases hsingle with hnone | hnil
      · rw [hnone] at hkept
        cases hkept
      · exact absurd hnil hopened

/-- Step: an end tag. -/
theorem Follows.endTag (h : Follows b scan m s) {loc : Str} {outcome : Outcome}
    (hfeed : b.feed sr.toQuickXml (.endTag loc) = .ok next)
    (hstep : scan.step sr (.endTag loc) = .ok outcome) :
    Counted sr b next scan m s (.endTag loc) outcome := by
  have hcloses : Closes b next := effect_feed hfeed
  have hopened : b.stack ≠ [] := by
    intro hnil
    obtain ⟨mid, frame, outer, hquiet, hstack, -⟩ := hcloses
    have hlength := length_shape (shape_padded hquiet.stack)
    rw [hstack, hnil] at hlength
    cases hlength
  rw [step_end] at hstep
  obtain ⟨fed, hfed, hstep⟩ := bind_eq_ok_iff.mp hstep
  cases h.feedBuilder hfed with
  | fresh stack root seen captureStart depth visited => exact absurd stack hopened
  | between stack root free seen aggregate captureStart depth balance =>
      obtain ⟨element, declared, hshape, hnext, hgathered⟩ := closes_shape root hcloses
      have hlength := congrArg List.length hshape
      rw [List.length_cons, shape, shape, List.length_map, List.length_map] at hlength
      have hfree := outside_iff_shape.mp free
      rw [hshape] at hfree
      have hother : isMdElement element "EntityDescriptor" = false := by
        rw [← Bool.not_eq_true, isMdElement_iff]
        intro heq
        exact hfree _ List.mem_cons_self (congrArg QName.localName heq)
      rw [hother, Bool.and_false, if_neg Bool.false_ne_true, List.append_nil] at hgathered
      rw [endElement_inside (depth.trans hlength)
        (by rw [captureStart]; exact (Option.some_ne_none _).symm)] at hstep
      obtain rfl := Except.ok.inj hstep
      obtain ⟨kept, hkept⟩ := leave_eq { fed with elementDepth := next.stack.length }
      rw [hkept]
      refine .passes ?_
      by_cases hstack : next.stack = []
      · rw [if_pos hstack] at hnext
        exact .after hstack hnext (hgathered ▸ balance)
      · rw [if_neg hstack] at hnext
        exact .between hstack hnext (outside_iff_shape.mpr fun entry hentry =>
          hfree entry (List.mem_cons_of_mem _ hentry)) seen aggregate captureStart rfl
          (hgathered ▸ balance)
  | within inner name declared outer stack root free entity seen aggregate captureStart depth
      balance =>
      obtain ⟨element, declared', hshape, hnext, hgathered⟩ := closes_shape root hcloses
      have hlength := congrArg List.length hshape
      rw [List.length_cons, shape, shape, List.length_map, List.length_map] at hlength
      have hdepth := depth.trans hlength
      have hentered := stack
      rw [hshape] at stack
      cases inner with
      | cons entry rest =>
          -- an element inside the entity ends
          have hrest : shape next.stack = rest ++ (name, declared) :: shape outer :=
            (List.cons.inj stack).2
          have hdeeper := congrArg List.length hrest
          rw [List.length_append, List.length_cons, shape, shape, List.length_map,
            List.length_map] at hdeeper
          have hother : fed.captureStart ≠ some next.stack.length := by
            rw [captureStart]
            intro heq
            have hsame := Option.some.inj heq
            omega
          have hstack : next.stack ≠ [] := by
            intro hnil
            rw [hnil, List.length_nil] at hdeeper
            omega
          rw [if_neg hstack] at hnext
          rw [wraps_of_named hrest entity, Bool.false_and, if_neg Bool.false_ne_true,
            List.append_nil] at hgathered
          rw [endElement_inside hdepth hother, leave_captured (by rw [captureStart]; rfl)] at hstep
          obtain rfl := Except.ok.inj hstep
          exact .passes (.within rest name declared outer hrest hnext free entity seen aggregate
            captureStart rfl (hgathered ▸ balance))
      | nil =>
          -- the entity ends
          obtain ⟨hfirst, hrest⟩ := List.cons.inj stack
          obtain rfl : element.qname = name := congrArg Prod.fst hfirst
          have houter := length_shape hrest
          rw [endElement_captured hdepth (by rw [captureStart, houter])] at hstep
          obtain ⟨root', rfl⟩ := finishEntity_ok hstep
          have hadded : (gatheredBy next).length = (gatheredBy b).length +
              tally (wraps outer && decide (element.qname = md "EntityDescriptor")) := by
            have hsame : isMdElement element "EntityDescriptor" =
                decide (element.qname = md "EntityDescriptor") := by
              rw [Bool.eq_iff_iff, isMdElement_iff, decide_eq_true_iff]
            rw [hgathered, List.length_append, wraps_shape hrest, hsame]
            cases wraps outer && decide (element.qname = md "EntityDescriptor") <;> rfl
          have hbalance : fed.entitiesVisited + 1 + m = (gatheredBy next).length + s := by
            omega
          have hroot : (!outer.isEmpty) = false → next.stack = [] := by
            intro hempty
            rw [← List.length_eq_zero_iff, houter]
            simpa using hempty
          refine .visits ?_ fun hsingle => ?_
          · by_cases hstack : next.stack = []
            · rw [if_pos hstack] at hnext
              exact .after hstack hnext hbalance
            · rw [if_neg hstack] at hnext
              refine .between hstack hnext ((outside_shape hrest).trans free) seen
                (aggregate.trans ?_) rfl rfl hbalance
              rw [Bool.not_eq_true', List.isEmpty_eq_false_iff, ← List.length_pos_iff, ← houter,
                List.length_pos_iff]
              exact hstack
          · rw [hnext, if_pos (hroot (aggregate.symm.trans hsingle))]
            rfl
  | after stack root balance => exact absurd stack hopened

/-- Step: whatever the builder of the document takes. -/
theorem Follows.step (h : Follows b scan m s) {outcome : Outcome}
    (hfeed : b.feed sr.toQuickXml event = .ok next)
    (hsingle : next.completedRoot = none ∨ next.stack = [])
    (hstep : scan.step sr event = .ok outcome) : Counted sr b next scan m s event outcome := by
  have heffect := effect_feed hfeed
  have quiet (hquiet : Quiet b next) (hmissed : missed sr.toQuickXml (b, event) = false)
      (hspurious : spurious sr.toQuickXml (b, event) = false)
      (hgoes : scan.step sr event = scan.feedBuilder sr event >>= fun fed => .ok (.next fed)) :
      Counted sr b next scan m s event outcome := by
    rw [hgoes] at hstep
    obtain ⟨fed, hfed, hstep⟩ := bind_eq_ok_iff.mp hstep
    obtain rfl := Except.ok.inj hstep
    refine .passes ?_
    rw [hmissed, hspurious]
    exact (h.feedBuilder hfed).quiet hquiet
  cases event with
  | start start => exact h.startTag hfeed hsingle hstep
  | empty start => exact h.emptyTag hfeed hsingle hstep
  | endTag loc => exact h.endTag hfeed hstep
  | docType => exact heffect.elim
  | pi => exact heffect.elim
  | text t => exact quiet heffect rfl rfl rfl
  | generalRef loc => exact quiet heffect rfl rfl rfl
  | cData t => exact quiet heffect rfl rfl rfl
  | comment t => exact quiet heffect rfl rfl rfl
  | decl => exact quiet heffect rfl rfl rfl

/-- The scan counts the entities it hands out. -/
def visitedAfter (scan : Scan) : Outcome → Prop
  | .next reached => reached.entitiesVisited = scan.entitiesVisited
  | .entity _ reached => reached.entitiesVisited = scan.entitiesVisited + 1
  | .done => True

theorem step_visited {outcome : Outcome} (h : scan.step sr event = .ok outcome) :
    visitedAfter scan outcome := by
  have goes (hgoes : scan.step sr event = scan.feedBuilder sr event >>= fun fed => .ok (.next fed)) :
      visitedAfter scan outcome := by
    rw [hgoes] at h
    obtain ⟨fed, hfed, h⟩ := bind_eq_ok_iff.mp h
    obtain ⟨builder, rfl⟩ := feedBuilder_ok hfed
    obtain rfl := Except.ok.inj h
    rfl
  cases event with
  | docType =>
      obtain ⟨fed, -, h⟩ := bind_eq_ok_iff.mp h
      cases h
  | pi =>
      obtain ⟨fed, -, h⟩ := bind_eq_ok_iff.mp h
      cases h
  | start start =>
      rw [step_start] at h
      obtain ⟨fed, hfed, h⟩ := bind_eq_ok_iff.mp h
      obtain ⟨builder, rfl⟩ := feedBuilder_ok hfed
      obtain ⟨reached, hreached, h⟩ := bind_eq_ok_iff.mp h
      obtain rfl := Except.ok.inj h
      split at hreached
      · unfold Scan.startInner at hreached
        split at hreached
        · obtain rfl := Except.ok.inj hreached
          rfl
        split at hreached
        · obtain ⟨builder', rfl⟩ := capture_ok hreached
          rfl
        split at hreached
        · obtain ⟨-, hreached⟩ := ite_error_eq_ok_iff.mp hreached
          obtain rfl := Except.ok.inj hreached
          rfl
        · obtain rfl := Except.ok.inj hreached
          rfl
      · unfold Scan.startRoot at hreached
        dsimp only at hreached
        split at hreached
        · obtain rfl := Except.ok.inj hreached
          rfl
        split at hreached
        · obtain ⟨builder', rfl⟩ := capture_ok hreached
          rfl
        · cases hreached
  | empty start =>
      rw [step_empty] at h
      obtain ⟨fed, hfed, h⟩ := bind_eq_ok_iff.mp h
      obtain ⟨builder, rfl⟩ := feedBuilder_ok hfed
      split at h
      · obtain rfl := Except.ok.inj h
        rfl
      split at h
      · cases h
      · obtain rfl := Except.ok.inj h
        trivial
  | endTag loc =>
      rw [step_end] at h
      obtain ⟨fed, hfed, h⟩ := bind_eq_ok_iff.mp h
      obtain ⟨builder, rfl⟩ := feedBuilder_ok hfed
      unfold Scan.endElement at h
      split at h
      · cases h
      next depth hdepth =>
        dsimp only at h
        split at h
        · obtain ⟨root, rfl⟩ := finishEntity_ok h
          rfl
        · obtain rfl := Except.ok.inj h
          obtain ⟨kept, hkept⟩ :=
            leave_eq { scan with builder := builder, elementDepth := depth }
          rw [visitedAfter, hkept]
  | text t => exact goes rfl
  | generalRef loc => exact goes rfl
  | cData t => exact goes rfl
  | comment t => exact goes rfl
  | decl => exact goes rfl

/-! ## The whole run -/

/-- Behind the root no tag is missed, and none is spurious. -/
theorem readings_behind {events : List (Except Str Event)} {root : Element} {final : TreeBuilder}
    (hfeed : b.feedAll sr.toQuickXml events = .ok final) (hends : Ends final)
    (hroot : b.completedRoot = some root) :
    ∀ reading ∈ readings sr.toQuickXml b events,
      missed sr.toQuickXml reading = false ∧ spurious sr.toQuickXml reading = false := by
  induction events generalizing b with
  | nil =>
      intro reading hreading
      cases hreading
  | cons item rest ih =>
      cases item with
      | error err => cases hfeed
      | ok event =>
          obtain ⟨next, hnext, hfeed⟩ := bind_eq_ok_iff.mp hfeed
          rw [readings_cons hnext]
          have hone : b.feedAll sr.toQuickXml [.ok event] = .ok next :=
            bind_eq_ok_iff.mpr ⟨next, hnext, rfl⟩
          have hkept := completedRoot_feedAll hone hroot
          have hclosed : next.stack = [] := by
            refine (hends.single hfeed).resolve_left fun hnone => ?_
            rw [hnone] at hkept
            cases hkept
          intro reading hreading
          rcases List.mem_cons.mp hreading with rfl | hrest
          · have heffect := effect_feed hnext
            cases event with
            | start start =>
                obtain ⟨mid, opened, element, path, -, -, rfl, -⟩ := heffect
                cases hclosed
            | empty start =>
                obtain ⟨mid, opened, element, path, hquiet, hopen, hclose⟩ := heffect
                have hopened := (closeElement_open
                  ((openElement_ok hopen).2.2.2.2.1.trans (hquiet.completedRoot.trans hroot))
                  hclose).1
                exact absurd hclosed hopened
            | endTag loc => exact ⟨rfl, rfl⟩
            | docType => exact heffect.elim
            | pi => exact heffect.elim
            | text t => exact ⟨rfl, rfl⟩
            | generalRef loc => exact ⟨rfl, rfl⟩
            | cData t => exact ⟨rfl, rfl⟩
            | comment t => exact ⟨rfl, rfl⟩
            | decl => exact ⟨rfl, rfl⟩
          · exact ih hfeed hkept reading hrest

/-- The tags of a kind among what is read. -/
def countTags (tag : TreeBuilder × Event → Bool) (read : List (TreeBuilder × Event)) : Nat :=
  read.countP tag

theorem countTags_cons (tag : TreeBuilder × Event → Bool) (reading : TreeBuilder × Event)
    (read : List (TreeBuilder × Event)) :
    countTags tag (reading :: read) = tally (tag reading) + countTags tag read := by
  rw [countTags, List.countP_cons, Nat.add_comm]
  rfl

theorem countTags_eq_zero {tag : TreeBuilder × Event → Bool} {read : List (TreeBuilder × Event)}
    (h : ∀ reading ∈ read, tag reading = false) : countTags tag read = 0 := by
  rw [countTags, List.countP_eq_zero]
  intro reading hreading
  rw [h reading hreading]
  exact Bool.false_ne_true

/-- Behind the root the counts balance. -/
theorem Follows.balanced (h : Follows b scan m s) {root : Element}
    (hroot : b.completedRoot = some root) :
    scan.entitiesVisited + m = (gatheredBy b).length + s := by
  cases h with
  | fresh stack root' seen captureStart depth visited =>
      rw [root'] at hroot
      cases hroot
  | between stack root' =>
      rw [root'] at hroot
      cases hroot
  | within inner name declared outer stack root' =>
      rw [root'] at hroot
      cases hroot
  | after stack root' balance => exact balance

/-- A visitor that keeps what it is shown, one entry for an entity. -/
def Keeps {τ : Type} (visit : List τ → Element → List τ × Result StreamControl) : Prop :=
  ∀ kept root kept' control, visit kept root = (kept', .ok control) →
    kept'.length = kept.length + 1 ∧ control = .continue

/-- The run: what is kept balances with what is gathered. -/
theorem run_balance {τ : Type} {visit : List τ → Element → List τ × Result StreamControl}
    (keeps : Keeps visit) {events : List (Except Str Event)} {final : TreeBuilder}
    {kept seen : List τ} (h : Follows b scan m s) (hkept : kept.length = scan.entitiesVisited)
    (hfeed : b.feedAll sr.toQuickXml events = .ok final) (hends : Ends final)
    (hrun : scan.run sr visit kept events = (seen, .ok ())) :
    seen.length + (m + countTags (missed sr.toQuickXml) (readings sr.toQuickXml b events)) =
      (gatheredBy final).length +
        (s + countTags (spurious sr.toQuickXml) (readings sr.toQuickXml b events)) := by
  induction events generalizing b scan m s kept with
  | nil =>
      obtain rfl := Except.ok.inj hfeed
      obtain ⟨rfl, -⟩ := Prod.mk.inj hrun
      obtain ⟨root, hroot, -⟩ := hends.root
      rw [hkept]
      exact h.balanced hroot
  | cons item rest ih =>
      cases item with
      | error err => cases hfeed
      | ok event =>
          obtain ⟨next, hnext, hfeed⟩ := bind_eq_ok_iff.mp hfeed
          rw [readings_cons hnext, countTags_cons, countTags_cons]
          -- behind the root nothing more is counted
          have hlast (hroot : next.completedRoot.isSome = true) :
              gatheredBy final = gatheredBy next ∧
              countTags (missed sr.toQuickXml) (readings sr.toQuickXml next rest) = 0 ∧
              countTags (spurious sr.toQuickXml) (readings sr.toQuickXml next rest) = 0 := by
            obtain ⟨root, hroot⟩ := Option.isSome_iff_exists.mp hroot
            have hbehind := readings_behind hfeed hends hroot
            exact ⟨gatheredBy_finished hroot (completedRoot_feedAll hfeed hroot),
              countTags_eq_zero fun reading hreading => (hbehind reading hreading).1,
              countTags_eq_zero fun reading hreading => (hbehind reading hreading).2⟩
          rw [Scan.run] at hrun
          cases hstep : scan.step sr event with
          | error err =>
              rw [hstep] at hrun
              cases hrun
          | ok outcome =>
              have hvisited := step_visited hstep
              rw [hstep] at hrun
              cases h.step hnext (hends.single hfeed) hstep with
              | passes follows =>
                  have hrest := ih follows (hkept.trans hvisited.symm) hfeed hrun
                  omega
              | @visits root reached follows single =>
                  dsimp only at hrun
                  rcases hvisit : visit kept root with ⟨kept', err | control⟩
                  · rw [hvisit] at hrun
                    cases hrun
                  · rw [hvisit] at hrun
                    obtain ⟨hone, rfl⟩ := keeps _ _ _ _ hvisit
                    have hcount : kept'.length = reached.entitiesVisited := by
                      rw [hone, hkept]
                      exact hvisited.symm
                    dsimp only at hrun
                    split at hrun
                    · have hrest := ih follows hcount hfeed hrun
                      omega
                    next hsingle =>
                      obtain ⟨rfl, -⟩ := Prod.mk.inj hrun
                      have hroot := single (Bool.eq_false_iff.mpr hsingle)
                      obtain ⟨hgathered, hmissed, hspurious⟩ := hlast hroot
                      obtain ⟨root', hroot⟩ := Option.isSome_iff_exists.mp hroot
                      have hbalance := follows.balanced hroot
                      rw [hgathered, hmissed, hspurious, hcount]
                      exact hbalance
              | ends finished balance =>
                  obtain ⟨rfl, -⟩ := Prod.mk.inj hrun
                  obtain ⟨hgathered, hmissed, hspurious⟩ := hlast finished
                  rw [hgathered, hmissed, hspurious, hkept]
                  exact balance

/-- A visitor of entries that keeps them all. -/
def keepAll (kept : List MetadataEntry) (entry : MetadataEntry) :
    List MetadataEntry × StreamControl :=
  (kept ++ [entry], .continue)

theorem keeps_visitEntity (crypto : Primitives) : Keeps (visitEntity crypto keepAll) := by
  intro kept root kept' control h
  unfold visitEntity at h
  split at h
  · obtain ⟨rfl, hcontrol⟩ := Prod.mk.inj h
    exact ⟨List.length_append, (Except.ok.inj hcontrol).symm⟩
  · cases h

/-- Whenever both ways of parsing succeed, the entries of the stream and the
missed entities are together as many as the entries of the eager parse and the
tags that only look like an entity. -/
theorem streamEntities_balance {crypto : Primitives} {metadataXml : Octets}
    {parsed : EntitiesDescriptor} {seen : List MetadataEntry}
    (heager : EntitiesDescriptor.fromMetadataXml crypto sr.toQuickXml metadataXml = .ok parsed)
    (hstream : streamEntities crypto sr keepAll [] metadataXml = (seen, .ok ())) :
    seen.length + countTags (missed sr.toQuickXml) (documentReadings sr.toQuickXml metadataXml) =
      parsed.entities.length +
        countTags (spurious sr.toQuickXml) (documentReadings sr.toQuickXml metadataXml) := by
  obtain ⟨final, hfeed, hends, hentries⟩ := fromMetadataXml_ok heager
  have hlength := (mapM_eq_ok_iff.mp hentries).length_eq
  have hbalance := run_balance (keeps_visitEntity crypto) (.fresh rfl rfl rfl rfl rfl rfl) rfl hfeed
    hends hstream
  rw [← hlength, documentReadings]
  omega

namespace Sample

/-- An entity as an empty tag before one with content. -/
def emptied : Str :=
  "<md:EntitiesDescriptor xmlns:md=\"urn:oasis:names:tc:SAML:2.0:metadata\">" ++
    "<md:EntityDescriptor entityID=\"a\"/><md:EntityDescriptor entityID=\"b\">" ++
    "<md:IDPSSODescriptor/></md:EntityDescriptor></md:EntitiesDescriptor>"

theorem emptied_parsed : ∃ parsed,
    EntitiesDescriptor.fromMetadataXml Transparent.primitives Scanning.reader
      (Text.asBytes emptied) = .ok parsed ∧ parsed.entities.length = 2 := by
  have hread : ((built emptied).toOption.bind fun b =>
      (b.finish.toOption.bind fun doc => (EntitiesDescriptor.fromRootElement
        Transparent.primitives doc.root).toOption.map fun parsed =>
          parsed.entities.length)) = some 2 := by
    decide +kernel
  obtain ⟨b, hb, hread⟩ := Option.bind_eq_some_iff.mp hread
  obtain ⟨doc, hdoc, hread⟩ := Option.bind_eq_some_iff.mp hread
  obtain ⟨parsed, hparsed, hlength⟩ := Option.map_eq_some_iff.mp hread
  refine ⟨parsed, ?_, hlength⟩
  refine bind_eq_ok_iff.mpr ⟨doc, bind_eq_ok_iff.mpr ⟨b, ?_, ok_of_toOption hdoc⟩,
    ok_of_toOption hparsed⟩
  rw [readEvents_asBytes (by decide +kernel)]
  exact ok_of_toOption hb

theorem emptied_streamed : ∃ seen,
    streamEntities Transparent.primitives stream keepAll [] (Text.asBytes emptied) =
      (seen, .ok ()) := by
  have hrun : (Scan.initial.run stream (visitEntity Transparent.primitives keepAll) []
      ((Library.Markup.scanText emptied).map Scanning.event)).2.isOk = true := by
    decide +kernel
  obtain ⟨⟨⟩, hok⟩ := exists_of_isOk hrun
  refine ⟨(Scan.initial.run stream (visitEntity Transparent.primitives keepAll) []
      ((Library.Markup.scanText emptied).map Scanning.event)).1, ?_⟩
  rw [streamEntities, streamEntityElements, toQuickXml_stream,
    readEvents_asBytes (by decide +kernel)]
  exact Prod.ext rfl hok

end Sample

/-- One entity of two is missed. -/
theorem streamEntities_balance_emptied : ∃ parsed seen,
    EntitiesDescriptor.fromMetadataXml Transparent.primitives Scanning.reader
      (Text.asBytes Sample.emptied) = .ok parsed ∧ parsed.entities.length = 2 ∧
    streamEntities Transparent.primitives Sample.stream keepAll [] (Text.asBytes Sample.emptied) =
      (seen, .ok ()) ∧
    seen.length + countTags (missed Scanning.reader)
        (documentReadings Scanning.reader (Text.asBytes Sample.emptied)) =
      2 + countTags (spurious Scanning.reader)
        (documentReadings Scanning.reader (Text.asBytes Sample.emptied)) := by
  obtain ⟨parsed, hparsed, hlength⟩ := Sample.emptied_parsed
  obtain ⟨seen, hseen⟩ := Sample.emptied_streamed
  refine ⟨parsed, seen, hparsed, hlength, hseen, ?_⟩
  rw [← hlength]
  exact @streamEntities_balance Sample.stream _ _ _ _ hparsed hseen

end Saml.Metadata
