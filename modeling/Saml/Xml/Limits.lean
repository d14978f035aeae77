import Saml.Xml.Measure

/-!
# The limits on the result

On which inputs an accepted document keeps to the limits it was parsed under.
Each step of the tree builder is followed by what it adds to the depth, the
nodes and the run of text at the end.
-/

namespace Saml.Xml

/-! ## The builder -/

theorem elementWithin_push {limits : XmlLimits} {scope : List NsLayer} {e : Element} {node : Node} :
    ElementWithin limits scope { e with children := e.children ++ [node] } ↔
      ElementWithin limits scope e ∧
        ∀ t, node = .text t → lastRun e.children + Text.byteLen t ≤ limits.maxTextLength := by
  unfold ElementWithin
  by_cases hnode : node.isText = true
  · obtain ⟨t, rfl⟩ := eq_text_of_isText hnode
    rw [runsWithin_append_text]
    constructor
    · rintro ⟨hdepth, hattributes, hruns, hlast⟩
      refine ⟨⟨hdepth, hattributes, hruns⟩, ?_⟩
      rintro t' ⟨⟩
      exact hlast
    · rintro ⟨⟨hdepth, hattributes, hruns⟩, hlast⟩
      exact ⟨hdepth, hattributes, hruns, hlast t rfl⟩
  · rw [Bool.not_eq_true] at hnode
    rw [runsWithin_append_other hnode]
    constructor
    · intro h
      refine ⟨h, ?_⟩
      rintro t rfl
      cases hnode
    · rintro ⟨h, -⟩
      exact h

/-- Attaching a node to the innermost element: the node has to be within the
limits, and a text to leave the run at the end within them. -/
theorem framesHold_push_iff {limits : XmlLimits} {frame : StackFrame} {outer : List StackFrame}
    {node : Node} :
    FramesHold (ElementWithin limits) [] ({ frame with
      element := { frame.element with children := frame.element.children ++ [node] } } :: outer) ↔
      FramesHold (ElementWithin limits) [] (frame :: outer) ∧
        (∀ child, node.asElement = some child →
          Scoped (ElementWithin limits) (scopeOf [] (frame :: outer)) child) ∧
        ∀ t, node = .text t →
          lastRun frame.element.children + Text.byteLen t ≤ limits.maxTextLength := by
  have hchildren : ∀ child, child ∈ ({ frame.element with
      children := frame.element.children ++ [node] } : Element).childElements ↔
      child ∈ frame.element.childElements ∨ node.asElement = some child := by
    intro child
    rw [ElementOf.childElements, List.filterMap_append, List.mem_append]
    cases node <;> simp [ElementOf.childElements, eq_comm]
  simp only [FramesHold, elementWithin_push, hchildren]
  change (_ ∧ ∀ child, _ →
    Scoped (ElementWithin limits) (scopeOf [] (frame :: outer)) child) ∧ _ ↔ _
  constructor
  · rintro ⟨⟨⟨hself, htext⟩, hbelow⟩, houter⟩
    exact ⟨⟨⟨hself, fun child hc => hbelow child (.inl hc)⟩, houter⟩,
      fun child hc => hbelow child (.inr hc), htext⟩
  · rintro ⟨⟨⟨hself, hbelow⟩, houter⟩, hnode, htext⟩
    exact ⟨⟨⟨hself, htext⟩, fun child hc => hc.elim (hbelow child) (hnode child)⟩, houter⟩

namespace TreeBuilder

variable {qx : QuickXml} {b mid next : TreeBuilder}

/-- The character data at the end of the innermost element, pending or not. -/
def run (b : TreeBuilder) : Nat :=
  match b.stack with
  | [] => 0
  | frame :: _ => lastRun frame.element.children + Text.byteLen b.pendingText

/-- What is built so far is within the limits, with the pending text. -/
structure Bounded (b : TreeBuilder) : Prop where
  frames : FramesHold (ElementWithin b.limits) [] b.stack
  root : ∀ e, b.completedRoot = some e → Scoped (ElementWithin b.limits) [] e
  run : b.run ≤ b.limits.maxTextLength

/-- The nodes built so far. -/
def built (b : TreeBuilder) : Nat :=
  (b.stack.map fun frame => nodeCount frame.element).sum + (b.completedRoot.map nodeCount).getD 0

/-- No node is built that was not counted. -/
structure Counted (b : TreeBuilder) : Prop where
  built_le : b.built ≤ b.totalNodes
  total_le : b.totalNodes ≤ b.limits.maxTotalNodes

theorem run_le_of_frames {limits : XmlLimits} (hpending : b.pendingText = [])
    (h : FramesHold (ElementWithin limits) [] b.stack) : b.run ≤ limits.maxTextLength := by
  unfold run
  cases hstack : b.stack with
  | nil => exact Nat.zero_le _
  | cons frame outer =>
    rw [hstack] at h
    rw [hpending, Text.byteLen_nil]
    exact h.1.1.2.2.lastRun_le

/-- What a step of the builder does to its limits, as far as the limits see it. -/
structure Tracks (b next : TreeBuilder) (opened run : Nat) (room : Prop) : Prop where
  limits : next.limits = b.limits
  opened : next.stack.length = opened
  run : next.run = run
  counted : b.Counted → next.Counted
  bounded : next.Bounded ↔ b.Bounded ∧ room

/-- A fragment is appended to the pending run. -/
theorem tracks_appendText {fragment : Str} (h : b.appendText fragment = .ok next) :
    Tracks b next b.stack.length (if b.stack.length = 0 then 0 else b.run + Text.byteLen fragment)
      ((if b.stack.length
      = 0 then 0 else b.run + Text.byteLen fragment) ≤ b.limits.maxTextLength) := by
  obtain ⟨-, h⟩ := ite_error_eq_ok_iff.mp h
  obtain rfl := Except.ok.inj h
  have hrun : run { b with pendingText := b.pendingText ++ fragment } =
      if b.stack.length = 0 then 0 else b.run + Text.byteLen fragment := by
    unfold run
    cases b.stack with
    | nil => rfl
    | cons frame outer => simp [Nat.add_assoc]
  refine ⟨rfl, rfl, hrun, fun hc => ⟨hc.built_le, hc.total_le⟩, ?_⟩
  constructor
  · intro hb
    have hle := hb.run
    rw [hrun] at hle
    refine ⟨⟨hb.frames, hb.root, ?_⟩, hle⟩
    split at hle
    next hnil =>
      rw [run, List.length_eq_zero_iff.mp hnil]
      exact Nat.zero_le _
    next => exact (Nat.le_add_right _ _).trans hle
  · rintro ⟨hb, hle⟩
    exact ⟨hb.frames, hb.root, by rw [hrun]; exact hle⟩

/-- A node attached to the innermost element where no text is pending. -/
structure Attached (b next : TreeBuilder) (frame : StackFrame) (outer : List StackFrame)
    (node : Node) : Prop where
  limits : next.limits = b.limits
  before : b.stack = frame :: outer
  after : next.stack = { frame with
    element := { frame.element with children := frame.element.children ++ [node] } } :: outer
  root : next.completedRoot = b.completedRoot
  pending : b.pendingText = []
  pendingNext : next.pendingText = []

variable {frame : StackFrame} {outer : List StackFrame} {node : Node}

theorem Attached.bounded_iff (h : Attached b next frame outer node) :
    next.Bounded ↔ b.Bounded ∧
      (∀ child, node.asElement = some child →
        Scoped (ElementWithin b.limits) (scopeOf [] (frame :: outer)) child) ∧
      ∀ t, node = .text t → b.run + Text.byteLen t ≤ b.limits.maxTextLength := by
  have hrun : b.run = lastRun frame.element.children := by
    rw [run, h.before, h.pending]
    rfl
  have hframes := @framesHold_push_iff b.limits frame outer node
  rw [← h.after, ← h.before] at hframes
  rw [hrun, ← h.before]
  constructor
  · intro hb
    have hold := hb.frames
    rw [h.limits, hframes] at hold
    refine ⟨⟨hold.1, ?_, run_le_of_frames h.pending hold.1⟩, hold.2⟩
    have hroot := hb.root
    rwa [h.root, h.limits] at hroot
  · rintro ⟨hb, hnode⟩
    have hold := hframes.mpr ⟨hb.frames, hnode⟩
    refine ⟨by rw [h.limits]; exact hold, ?_, ?_⟩
    · rw [h.root, h.limits]
      exact hb.root
    · rw [h.limits]
      exact run_le_of_frames h.pendingNext hold

theorem Attached.run_text {t : Str} (h : Attached b next frame outer (.text t)) :
    next.run = b.run + Text.byteLen t := by
  rw [run, run, h.after, h.before, h.pending, h.pendingNext]
  dsimp only
  rw [lastRun_append_text, Text.byteLen_nil, Nat.add_zero, Nat.add_zero]

theorem Attached.run_other (hnode : node.isText = false) (h : Attached b next frame outer node) :
    next.run = 0 := by
  rw [run, h.after, h.pendingNext]
  dsimp only
  rw [lastRun_append_other _ hnode, Text.byteLen_nil]

theorem Attached.built_eq (h : Attached b next frame outer node) :
    next.built = b.built + nodeCountOf node := by
  rw [built, built, h.after, h.before, h.root]
  simp only [List.map_cons, List.sum_cons, nodeCount_withChild]
  omega

theorem Attached.opened (h : Attached b next frame outer node) :
    next.stack.length = b.stack.length := by
  rw [h.after, h.before, List.length_cons, List.length_cons]

/-- Counting a node and attaching it. -/
theorem attached_bump (hpending : b.pendingText = []) (hstack : b.stack = frame :: outer)
    (h : b.bumpNodes = .ok mid) :
    Attached b (mid.pushChild node) frame outer node ∧
      (nodeCountOf node = 1 → b.Counted → (mid.pushChild node).Counted) := by
  obtain ⟨hmax, h⟩ := ite_error_eq_ok_iff.mp h
  obtain rfl := Except.ok.inj h
  have hpush : pushChild { b with totalNodes := b.totalNodes + 1 } node =
      { b with
        totalNodes := b.totalNodes + 1
        stack := { frame with
          element := { frame.element with children := frame.element.children ++ [node] } } ::
            outer } := by
    unfold pushChild
    dsimp only
    rw [hstack]
  have hattached : Attached b (pushChild { b with totalNodes := b.totalNodes + 1 } node) frame
      outer node := by
    rw [hpush]
    exact ⟨rfl, hstack, rfl, rfl, hpending, hpending⟩
  refine ⟨hattached, ?_⟩
  intro hone hc
  refine ⟨?_, ?_⟩
  · rw [hattached.built_eq, hone, hpush]
    exact Nat.add_le_add_right hc.built_le 1
  · rw [hpush]
    exact Nat.le_of_not_lt hmax

/-- A text node is attached where no text is pending. -/
theorem tracks_pushText {value : Str} (hpending : b.pendingText = [])
    (h : b.pushText value = .ok next) :
    Tracks b next b.stack.length (if b.stack.length = 0 then 0 else b.run + Text.byteLen value)
      ((if b.stack.length = 0 then 0 else b.run + Text.byteLen value) ≤ b.limits.maxTextLength) ∧
      next.pendingText = [] := by
  unfold pushText at h
  cases hstack : b.stack with
  | nil =>
    rw [hstack] at h
    obtain rfl := Except.ok.inj h
    have hrun : b.run = 0 := by rw [run, hstack]
    exact ⟨⟨rfl, by rw [hstack], by rw [hrun]; rfl, id, by simp⟩, hpending⟩
  | cons frame outer =>
    rw [hstack] at h
    obtain ⟨counted, hcounted, h⟩ := bind_eq_ok_iff.mp h
    obtain rfl := Except.ok.inj h
    obtain ⟨hattached, hcount⟩ := @attached_bump _ _ _ _ (.text value) hpending hstack hcounted
    rw [if_neg (by simp)]
    refine ⟨⟨hattached.limits, ?_, hattached.run_text, hcount rfl, ?_⟩, hattached.pendingNext⟩
    · rw [hattached.opened, hstack]
    · rw [hattached.bounded_iff]
      constructor
      · rintro ⟨hb, -, htext⟩
        exact ⟨hb, htext value rfl⟩
      · rintro ⟨hb, htext⟩
        refine ⟨hb, ?_, ?_⟩
        · rintro child ⟨⟩
        · rintro t ⟨⟩
          exact htext

/-- Flushing only moves the pending text into the tree. -/
theorem tracks_flushText (h : b.flushText = .ok next) :
    Tracks b next b.stack.length b.run True ∧ next.pendingText = [] := by
  unfold flushText at h
  split at h
  next hnil =>
    obtain rfl := Except.ok.inj h
    exact ⟨⟨rfl, rfl, rfl, id, by simp⟩, hnil⟩
  next hne =>
    obtain ⟨htracks, hpending⟩ := tracks_pushText (by rfl) h
    have hrun : (if b.stack.length = 0 then 0 else
        run { b with pendingText := [] } + Text.byteLen b.pendingText) = b.run := by
      unfold run
      cases b.stack with
      | nil => rfl
      | cons frame outer => simp
    refine ⟨⟨htracks.limits, htracks.opened, htracks.run.trans hrun, ?_, ?_⟩, hpending⟩
    · intro hc
      exact htracks.counted ⟨hc.built_le, hc.total_le⟩
    · rw [htracks.bounded]
      constructor
      · rintro ⟨hb, hle⟩
        exact ⟨⟨hb.frames, hb.root, hrun ▸ hle⟩, trivial⟩
      · rintro ⟨hb, -⟩
        exact ⟨⟨hb.frames, hb.root, run_le_of_frames rfl hb.frames⟩, hrun.trans_le hb.run⟩

/-! ## Tags -/

theorem collectAttributes_length {limits : XmlLimits} {count : Nat}
    {attributes : List (Except Str RawAttribute)} {raw : RawAttributes}
    (hcount : count ≤ limits.maxAttributeCount)
    (h : collectAttributes qx limits count attributes = .ok raw) :
    count + (raw.rawAttrs.length + raw.declared.length) ≤ limits.maxAttributeCount := by
  induction attributes generalizing count raw with
  | nil =>
    obtain rfl := Except.ok.inj h
    exact hcount
  | cons item rest ih =>
    cases item with
    | error e => cases h
    | ok a =>
      rw [collectAttributes] at h
      obtain ⟨hlt, h⟩ := ite_error_eq_ok_iff.mp h
      obtain ⟨value, -, h⟩ := bind_eq_ok_iff.mp h
      obtain ⟨tail, htail, h⟩ := bind_eq_ok_iff.mp h
      have hrest := ih (Nat.le_of_not_lt hlt) htail
      split at h
      · obtain rfl := Except.ok.inj h
        simp only [List.length_cons]
        omega
      · obtain rfl := Except.ok.inj h
        simp only [List.length_cons]
        omega

/-- What opening an element leaves as it is, and the attributes it counted. -/
theorem openElement_limits {start : BytesStart} {selfClosing : Bool} {element : Element}
    {path : ElementPath} (h : b.openElement qx start selfClosing = .ok (element, path, next)) :
    next.limits = b.limits ∧ next.totalNodes = b.totalNodes ∧ next.pendingText = b.pendingText ∧
      element.attributes.length + element.namespacesDeclaredHere.length ≤
        b.limits.maxAttributeCount := by
  obtain ⟨raw, hraw, h⟩ := bind_eq_ok_iff.mp h
  obtain ⟨qname, _, h⟩ := bind_eq_ok_iff.mp h
  obtain ⟨attributes, hattributes, h⟩ := bind_eq_ok_iff.mp h
  obtain ⟨opened, _, h⟩ := bind_eq_ok_iff.mp h
  by_cases hbound : b.paths.length < U32_BOUND
  · rw [if_pos hbound] at h
    obtain ⟨idIndex, _, h⟩ := bind_eq_ok_iff.mp h
    obtain ⟨rfl, hrest⟩ := Prod.mk.inj (Except.ok.inj h)
    obtain ⟨_, rfl⟩ := Prod.mk.inj hrest
    have hlength := (mapM_eq_ok_iff.mp hattributes).length_eq
    have hcount := collectAttributes_length (Nat.zero_le _) hraw
    refine ⟨rfl, rfl, rfl, ?_⟩
    dsimp only
    omega
  · rw [if_neg hbound] at h
    cases h

theorem length_scopeOf (stack : List StackFrame) : (scopeOf [] stack).length = stack.length := by
  rw [scopeOf, List.append_nil, List.length_map]

/-- A freshly opened element is within the limits when its depth is. -/
theorem elementWithin_opened {start : BytesStart} {selfClosing : Bool} {element : Element}
    {path : ElementPath} (h : b.openElement qx start selfClosing = .ok (element, path, next)) :
    ElementWithin b.limits (scopeOf [] b.stack) element ↔ b.stack.length < b.limits.maxDepth := by
  obtain ⟨-, -, -, hattributes⟩ := openElement_limits h
  obtain ⟨-, hchildren, -⟩ := openElement_ok h
  rw [ElementWithin, length_scopeOf, hchildren]
  exact ⟨fun hwithin => hwithin.1, fun hdepth => ⟨hdepth, hattributes, runsWithin_nil _⟩⟩

/-- A start tag: the parser checks the depth of the new element. -/
theorem tracks_start {start : BytesStart} (hpending : b.pendingText = [])
    (h : b.feedStructural qx (.start start) = .ok next) :
    Tracks b next (b.stack.length + 1) 0 True := by
  obtain ⟨counted, hcounted, h⟩ := bind_eq_ok_iff.mp h
  obtain ⟨hmax, hcounted⟩ := ite_error_eq_ok_iff.mp hcounted
  obtain rfl := Except.ok.inj hcounted
  obtain ⟨⟨element, path, opened⟩, hopen, h⟩ := bind_eq_ok_iff.mp h
  obtain ⟨hdepth, h⟩ := ite_error_eq_ok_iff.mp h
  obtain rfl := Except.ok.inj h
  obtain ⟨hlimits, htotal, htext, -⟩ := openElement_limits hopen
  obtain ⟨-, hchildren, -, hstack, hroot, -⟩ := openElement_ok hopen
  have hwithin := elementWithin_opened hopen
  dsimp only at hlimits htotal htext hstack hroot hwithin hdepth
  rw [List.length_cons, hstack, hlimits] at hdepth
  have hframes : FramesHold (ElementWithin b.limits) [] (⟨element, path⟩ :: b.stack) ↔
      FramesHold (ElementWithin b.limits) [] b.stack := by
    constructor
    · intro hframes
      exact hframes.2
    · intro hframes
      refine ⟨⟨hwithin.mpr (by omega), ?_⟩, hframes⟩
      intro child hchild
      rw [ElementOf.childElements, hchildren] at hchild
      cases hchild
  have hrun : run { opened with stack := ⟨element, path⟩ :: opened.stack } = 0 := by
    rw [run]
    dsimp only
    rw [hchildren, htext, hpending]
    rfl
  refine ⟨hlimits, by rw [List.length_cons, hstack], hrun, ?_, ?_⟩
  · intro hc
    refine ⟨?_, ?_⟩
    · rw [built, htotal]
      dsimp only
      rw [hstack, hroot, List.map_cons, List.sum_cons, nodeCount_eq, hchildren, nodesCount]
      have hle := hc.built_le
      rw [built] at hle
      omega
    · rw [htotal, hlimits]
      exact Nat.le_of_not_lt hmax
  · constructor
    · intro hb
      have hframes' := hb.frames
      dsimp only at hframes'
      rw [hlimits, hstack, hframes] at hframes'
      have hroot' := hb.root
      dsimp only at hroot'
      rw [hlimits, hroot] at hroot'
      exact ⟨⟨hframes', hroot', run_le_of_frames hpending hframes'⟩, trivial⟩
    · rintro ⟨hb, -⟩
      refine ⟨?_, ?_, ?_⟩
      · dsimp only
        rw [hlimits, hstack, hframes]
        exact hb.frames
      · dsimp only
        rw [hlimits, hroot]
        exact hb.root
      · rw [hrun]
        exact Nat.zero_le _

/-- A finished element is attached, or becomes the root. -/
structure Finished (b next : TreeBuilder) (element : Element) : Prop where
  limits : next.limits = b.limits
  opened : next.stack.length = b.stack.length
  run : next.run = 0
  built : next.built = b.built + nodeCount element
  total : next.totalNodes = b.totalNodes
  bounded : next.Bounded ↔
    b.Bounded ∧ Scoped (ElementWithin b.limits) (scopeOf [] b.stack) element

theorem finished_closeElement {element : Element} (hpending : b.pendingText = [])
    (h : b.closeElement element = .ok next) : Finished b next element := by
  unfold closeElement at h
  split at h
  next frame outer hstack =>
    obtain rfl := Except.ok.inj h
    have hpush : b.pushChild (.element element) = { b with
        stack := { frame with
          element := { frame.element with
            children := frame.element.children ++ [.element element] } } :: outer } := by
      rw [pushChild, hstack]
    have hattached :
        Attached b (b.pushChild (.element element)) frame outer (.element element) := by
      rw [hpush]
      exact ⟨rfl, hstack, rfl, rfl, hpending, hpending⟩
    refine ⟨hattached.limits, hattached.opened, hattached.run_other rfl, ?_, by rw [hpush], ?_⟩
    · rw [hattached.built_eq, nodeCountOf]
    · rw [hattached.bounded_iff, hstack]
      constructor
      · rintro ⟨hb, helement, -⟩
        exact ⟨hb, helement element rfl⟩
      · rintro ⟨hb, helement⟩
        refine ⟨hb, ?_, by simp⟩
        rintro child ⟨⟩
        exact helement
  next hstack =>
    split at h
    · cases h
    next hroot =>
      obtain rfl := Except.ok.inj h
      have hrun : run { b with completedRoot := some element } = 0 := by
        rw [run]
        dsimp only
        rw [hstack]
      refine ⟨rfl, rfl, hrun, ?_, rfl, ?_⟩
      · simp [TreeBuilder.built, hroot, hstack]
      · constructor
        · intro hb
          refine ⟨⟨hb.frames, ?_, ?_⟩, ?_⟩
          · rw [hroot]
            intro e he
            cases he
          · rw [TreeBuilder.run, hstack]
            exact Nat.zero_le _
          · rw [hstack]
            exact hb.root element rfl
        · rintro ⟨hb, helement⟩
          refine ⟨hb.frames, ?_, by rw [hrun]; exact Nat.zero_le _⟩
          rintro e ⟨⟩
          rwa [hstack] at helement

/-- A self-closing tag: nothing checks the depth of its element. -/
theorem tracks_empty {start : BytesStart} (hpending : b.pendingText = [])
    (h : b.feedStructural qx (.empty start) = .ok next) :
    Tracks b next b.stack.length 0 (b.stack.length < b.limits.maxDepth) := by
  obtain ⟨counted, hcounted, h⟩ := bind_eq_ok_iff.mp h
  obtain ⟨hmax, hcounted⟩ := ite_error_eq_ok_iff.mp hcounted
  obtain rfl := Except.ok.inj hcounted
  obtain ⟨⟨element, path, opened⟩, hopen, hclose⟩ := bind_eq_ok_iff.mp h
  obtain ⟨hlimits, htotal, htext, -⟩ := openElement_limits hopen
  obtain ⟨-, hchildren, -, hstack, hroot, -⟩ := openElement_ok hopen
  have hwithin := elementWithin_opened hopen
  dsimp only at hlimits htotal htext hstack hroot hwithin
  have hfinished := finished_closeElement (htext.trans hpending) hclose
  have hopened : opened.Bounded ↔ b.Bounded := by
    have hrun : opened.run = b.run := by rw [run, run, hstack, htext]
    constructor
    · rintro ⟨hframes, hroots, hle⟩
      rw [hlimits, hstack] at hframes
      rw [hlimits, hroot] at hroots
      rw [hlimits, hrun] at hle
      exact ⟨hframes, hroots, hle⟩
    · rintro ⟨hframes, hroots, hle⟩
      refine ⟨?_, ?_, ?_⟩
      · rwa [hlimits, hstack]
      · rwa [hlimits, hroot]
      · rwa [hlimits, hrun]
  have helement : Scoped (ElementWithin b.limits) (scopeOf [] b.stack) element ↔
      b.stack.length < b.limits.maxDepth := by
    rw [scoped_iff, hwithin]
    refine ⟨fun h => h.1, fun h => ⟨h, ?_⟩⟩
    intro child hchild
    rw [ElementOf.childElements, hchildren] at hchild
    cases hchild
  refine ⟨hfinished.limits.trans hlimits, hfinished.opened.trans (by rw [hstack]), hfinished.run,
    ?_, ?_⟩
  · intro hc
    refine ⟨?_, ?_⟩
    · have hbuilt : opened.built = b.built := by rw [built, built, hstack, hroot]
      rw [hfinished.built, hfinished.total, htotal, hbuilt, nodeCount_eq, hchildren, nodesCount]
      exact Nat.add_le_add_right hc.built_le 1
    · rw [hfinished.total, htotal, hfinished.limits, hlimits]
      exact Nat.le_of_not_lt hmax
  · rw [hfinished.bounded, hopened, hlimits, hstack, helement]

/-- An end tag moves the innermost element into its parent. -/
theorem tracks_endTag {name : Str} (hpending : b.pendingText = [])
    (h : b.feedStructural qx (.endTag name) = .ok next) :
    Tracks b next (b.stack.length - 1) 0 True := by
  rw [feedStructural] at h
  cases hstack : b.stack with
  | nil =>
    rw [hstack] at h
    cases h
  | cons frame outer =>
    rw [hstack] at h
    obtain ⟨-, hclose⟩ := ite_error_eq_ok_iff.mp h
    have hfinished := finished_closeElement (by exact hpending) hclose
    have hpopped : ({ b with stack := outer, nsStack := b.nsStack.tail } : TreeBuilder).Bounded ∧
        Scoped (ElementWithin b.limits) (scopeOf [] outer) frame.element ↔ b.Bounded := by
      rw [scoped_iff]
      constructor
      · rintro ⟨hb, hframe⟩
        have hframes : FramesHold (ElementWithin b.limits) [] b.stack := by
          rw [hstack]
          exact ⟨hframe, hb.frames⟩
        exact ⟨hframes, hb.root, run_le_of_frames hpending hframes⟩
      · intro hb
        have hframes := hb.frames
        rw [hstack] at hframes
        exact ⟨⟨hframes.2, hb.root, run_le_of_frames hpending hframes.2⟩, hframes.1⟩
    refine ⟨hfinished.limits, hfinished.opened, hfinished.run, ?_, ?_⟩
    · intro hc
      have hbuilt : next.built = b.built := by
        rw [hfinished.built]
        simp only [built, hstack, List.map_cons, List.sum_cons]
        omega
      refine ⟨?_, ?_⟩
      · rw [hbuilt, hfinished.total]
        exact hc.built_le
      · rw [hfinished.total, hfinished.limits]
        exact hc.total_le
    · rw [hfinished.bounded, and_true]
      exact hpopped

/-! ## The events of the read loop -/

theorem Tracks.trans {opened opened' run run' : Nat} {room room' : Prop}
    (h : Tracks b mid opened run room) (h' : Tracks mid next opened' run' room') :
    Tracks b next opened' run' (room ∧ room') where
  limits := h'.limits.trans h.limits
  opened := h'.opened
  run := h'.run
  counted := fun hc => h'.counted (h.counted hc)
  bounded := by rw [h'.bounded, h.bounded, and_assoc]

/-- A comment is a node of its own. -/
theorem tracks_comment {value : Str} (hpending : b.pendingText = [])
    (h : b.feedStructural qx (.comment value) = .ok next) :
    Tracks b next b.stack.length 0 True := by
  obtain ⟨-, h⟩ := ite_error_eq_ok_iff.mp h
  obtain ⟨counted, hcounted, h⟩ := bind_eq_ok_iff.mp h
  obtain rfl := Except.ok.inj h
  cases hstack : b.stack with
  | nil =>
    obtain ⟨hmax, hcounted⟩ := ite_error_eq_ok_iff.mp hcounted
    obtain rfl := Except.ok.inj hcounted
    have hpush : pushChild { b with totalNodes := b.totalNodes + 1 } (.comment value) =
        { b with totalNodes := b.totalNodes + 1 } := by
      rw [pushChild]
      dsimp only
      rw [hstack]
    rw [hpush]
    refine ⟨rfl, by rw [hstack], by rw [run, hstack], ?_, ?_⟩
    · intro hc
      exact ⟨hc.built_le.trans (Nat.le_succ _), Nat.le_of_not_lt hmax⟩
    · rw [and_true]
      exact ⟨fun hb => ⟨hb.frames, hb.root, hb.run⟩, fun hb => ⟨hb.frames, hb.root, hb.run⟩⟩
  | cons frame outer =>
    obtain ⟨hattached, hcount⟩ := @attached_bump _ _ _ _ (.comment value) hpending hstack hcounted
    refine ⟨hattached.limits, hattached.opened.trans (by rw [hstack]), hattached.run_other rfl,
      hcount rfl, ?_⟩
    rw [hattached.bounded_iff, and_true]
    exact ⟨fun hb => hb.1, fun hb => ⟨hb, by simp, by simp⟩⟩

/-- What an accepted event does to the limits: the parser leaves open exactly
the depth of a self-closing tag and the length of a run. -/
theorem tracks_feed {event : Event} (h : b.feed qx event = .ok next) :
    Tracks b next (openAfter b.stack.length event) (runAfter qx b.stack.length b.run event)
      ((∀ s, event = .empty s → b.stack.length < b.limits.maxDepth) ∧
        runAfter qx b.stack.length b.run event ≤ b.limits.maxTextLength) := by
  have hroom : ∀ {opened run : Nat} {room room' : Prop}, (b.Bounded → (room ↔ room')) →
      Tracks b next opened run room → Tracks b next opened run room' := by
    intro opened run room room' hiff htracks
    refine ⟨htracks.limits, htracks.opened, htracks.run, htracks.counted, ?_⟩
    rw [htracks.bounded]
    exact and_congr_right hiff
  have text {data : Str} (hdata : charData qx event = some data) (hempty : ∀ s, event ≠ .empty s)
      (htracks : Tracks b next (openAfter b.stack.length event)
        (if b.stack.length = 0 then 0 else b.run + Text.byteLen data)
        ((if b.stack.length = 0 then 0 else b.run + Text.byteLen data) ≤ b.limits.maxTextLength)) :
      Tracks b next (openAfter b.stack.length event) (runAfter qx b.stack.length b.run event)
        ((∀ s, event = .empty s → b.stack.length < b.limits.maxDepth) ∧
          runAfter qx b.stack.length b.run event ≤ b.limits.maxTextLength) := by
    unfold runAfter
    rw [hdata]
    refine hroom (fun _ => ?_) htracks
    exact ⟨fun hle => ⟨fun s hs => absurd hs (hempty s), hle⟩, fun h => h.2⟩
  cases event with
  | text t => exact text rfl (by simp) (tracks_appendText h)
  | generalRef name =>
    rw [feed] at h
    split at h
    next resolved hresolved =>
      exact text (by rw [charData, hresolved]; rfl) (by simp) (tracks_appendText h)
    next => cases h
  | cData value =>
    obtain ⟨mid, hmid, h⟩ := bind_eq_ok_iff.mp h
    obtain ⟨hflush, hpending⟩ := tracks_flushText hmid
    rw [feedStructural] at h
    obtain ⟨-, h⟩ := ite_error_eq_ok_iff.mp h
    have hrun : b.stack.length = 0 → b.run = 0 := by
      intro hzero
      rw [run, List.length_eq_zero_iff.mp hzero]
    split at h
    next hnil =>
      obtain rfl := Except.ok.inj h
      have hsame : (if b.stack.length = 0 then 0 else b.run + Text.byteLen value) = b.run := by
        rw [hnil, Text.byteLen_nil, Nat.add_zero]
        split
        next hzero => exact (hrun hzero).symm
        next => rfl
      refine text rfl (by simp) ?_
      rw [hsame]
      exact hroom (fun hb => by simpa using hb.run) hflush
    next =>
      obtain ⟨hpush, -⟩ := tracks_pushText hpending h
      rw [hflush.opened, hflush.run, hflush.limits] at hpush
      refine text rfl (by simp) ?_
      exact hroom (fun _ => by rw [true_and]) (hflush.trans hpush)
  | start s =>
    obtain ⟨mid, hmid, h⟩ := bind_eq_ok_iff.mp h
    obtain ⟨hflush, hpending⟩ := tracks_flushText hmid
    have htracks := hflush.trans (tracks_start hpending h)
    rw [hflush.opened] at htracks
    exact hroom (fun _ => by simp [runAfter, charData]) htracks
  | empty s =>
    obtain ⟨mid, hmid, h⟩ := bind_eq_ok_iff.mp h
    obtain ⟨hflush, hpending⟩ := tracks_flushText hmid
    have htracks := hflush.trans (tracks_empty hpending h)
    rw [hflush.opened, hflush.limits] at htracks
    exact hroom (fun _ => by simp [runAfter, charData]) htracks
  | endTag name =>
    obtain ⟨mid, hmid, h⟩ := bind_eq_ok_iff.mp h
    obtain ⟨hflush, hpending⟩ := tracks_flushText hmid
    have htracks := hflush.trans (tracks_endTag hpending h)
    rw [hflush.opened] at htracks
    exact hroom (fun _ => by simp [runAfter, charData]) htracks
  | comment value =>
    obtain ⟨mid, hmid, h⟩ := bind_eq_ok_iff.mp h
    obtain ⟨hflush, hpending⟩ := tracks_flushText hmid
    have htracks := hflush.trans (tracks_comment hpending h)
    rw [hflush.opened] at htracks
    exact hroom (fun _ => by simp [runAfter, charData]) htracks
  | decl =>
    obtain ⟨mid, hmid, h⟩ := bind_eq_ok_iff.mp h
    obtain ⟨hflush, -⟩ := tracks_flushText hmid
    obtain rfl := Except.ok.inj h
    exact hroom (fun hb => by simpa [runAfter, charData] using hb.run) hflush
  | docType =>
    obtain ⟨mid, -, h⟩ := bind_eq_ok_iff.mp h
    cases h
  | pi =>
    obtain ⟨mid, -, h⟩ := bind_eq_ok_iff.mp h
    cases h

/-- The read loop: the tree is within the limits as far as the events fit. -/
theorem bounded_feedAll {events : List (Except Str Event)} (h : b.feedAll qx events = .ok next) :
    next.limits = b.limits ∧ (b.Counted → next.Counted) ∧
      (next.Bounded ↔ b.Bounded ∧ EventsFit qx b.limits b.stack.length b.run events) := by
  induction events generalizing b with
  | nil =>
    obtain rfl := Except.ok.inj h
    exact ⟨rfl, id, by simp [EventsFit]⟩
  | cons item rest ih =>
    cases item with
    | error e => cases h
    | ok event =>
      obtain ⟨mid, hmid, h⟩ := bind_eq_ok_iff.mp h
      have htracks := tracks_feed hmid
      obtain ⟨hlimits, hcounted, hbounded⟩ := ih h
      refine ⟨hlimits.trans htracks.limits, fun hc => hcounted (htracks.counted hc), ?_⟩
      rw [hbounded, htracks.bounded, htracks.opened, htracks.run, htracks.limits, EventsFit,
        and_assoc]

end TreeBuilder

namespace Document

/-- Exactly when an accepted document keeps to the limits. The nodes and the
attributes always do; the depth does when no self-closing tag stands where
`maxDepth` elements are open, and the text when no run of character data is too
long, whatever it is made of. -/
theorem within_limits_iff {qx : QuickXml} {xml : Octets} {limits : XmlLimits}
    {doc : Document} (h : parseWithLimits qx xml limits = .ok doc) :
    doc.Within limits ↔ EventsFit qx limits 0 0 (qx.readEvents (normalizeLineEndings xml)) := by
  obtain ⟨b, hb, h⟩ := bind_eq_ok_iff.mp h
  obtain ⟨hlimits, hcounted, hbounded⟩ := TreeBuilder.bounded_feedAll hb
  have hnew : (TreeBuilder.new limits).Bounded :=
    ⟨trivial, nofun, Nat.zero_le _⟩
  have hcount : b.Counted := hcounted ⟨Nat.le_refl 0, Nat.zero_le _⟩
  change b.limits = limits at hlimits
  change b.Bounded ↔ _ ∧ EventsFit qx limits 0 0 _ at hbounded
  rw [and_iff_right hnew] at hbounded
  unfold TreeBuilder.finish at h
  split at h
  · cases h
  next hstack =>
    split at h
    · cases h
    next root hroot =>
      obtain rfl := Except.ok.inj h
      have hnodes : nodeCount root ≤ limits.maxTotalNodes := by
        have hle := hcount.built_le.trans hcount.total_le
        rw [TreeBuilder.built, hroot, hlimits] at hle
        exact (Nat.le_add_left _ _).trans hle
      rw [within_iff, and_iff_left hnodes, ← hbounded]
      constructor
      · intro hscoped
        refine ⟨?_, ?_, ?_⟩
        · rw [hstack]
          trivial
        · intro e he
          rw [hroot] at he
          obtain rfl := Option.some.inj he
          rw [hlimits]
          exact hscoped
        · rw [TreeBuilder.run, hstack]
          exact Nat.zero_le _
      · intro hb
        have hscoped := hb.root root hroot
        rwa [hlimits] at hscoped

/-- Limits that allow one element below no other. -/
def flatLimits : XmlLimits := ⟨1, 10, 10, 10⟩

/-- The document `<a><b/></a>` is accepted under a depth of one. -/
theorem exists_selfClosing :
    ∃ doc d, parseWithLimits Scanning.reader (Text.asBytes "<a><b/></a>") flatLimits = .ok doc ∧
      doc.root.walk [0] = some d := by
  have hparse : parseWithLimits Scanning.reader (Text.asBytes "<a><b/></a>") flatLimits = (do
      let b ← (TreeBuilder.new flatLimits).feedAll Scanning.reader
        ((Library.Markup.scanText "<a><b/></a>").map Scanning.event)
      b.finish) := by
    rw [parseWithLimits, normalizeLineEndings_of_notMem (Text.return_notMem_asBytes (by decide))]
    simp only [Scanning.reader, Text.fromUtf8_asBytes]
  have hwalk : ((do
      let b ← (TreeBuilder.new flatLimits).feedAll Scanning.reader
        ((Library.Markup.scanText "<a><b/></a>").map Scanning.event)
      b.finish : Result Document).toOption.map fun doc => (doc.root.walk [0]).isSome) =
        some true := by
    decide +kernel
  rw [← hparse] at hwalk
  obtain ⟨doc, hdoc, hsome⟩ := Option.map_eq_some_iff.mp hwalk
  obtain ⟨d, hd⟩ := Option.isSome_iff_exists.mp hsome
  exact ⟨doc, d, ok_of_toOption hdoc, hd⟩

/-- It is one element too deep. -/
theorem not_within_selfClosing :
    ∃ doc, parseWithLimits Scanning.reader (Text.asBytes "<a><b/></a>") flatLimits = .ok doc ∧
      ¬ doc.Within flatLimits := by
  obtain ⟨doc, d, hdoc, hd⟩ := exists_selfClosing
  refine ⟨doc, hdoc, fun hwithin => ?_⟩
  exact absurd (hwithin.depth [0] d hd) (by decide)

theorem within_limits_iff_selfClosing :
    ∃ doc, parseWithLimits Scanning.reader (Text.asBytes "<a><b/></a>") flatLimits = .ok doc ∧
      (doc.Within flatLimits ↔ EventsFit Scanning.reader flatLimits 0 0
        (Scanning.reader.readEvents (normalizeLineEndings (Text.asBytes "<a><b/></a>")))) := by
  obtain ⟨doc, -, hdoc, -⟩ := exists_selfClosing
  exact ⟨doc, hdoc, within_limits_iff hdoc⟩

end Document

end Saml.Xml
