import Saml.Xml.Index
import Saml.Xml.Steps

/-!
# Parsed and built documents are well indexed

Every step of the tree builder keeps the indices in line with the elements
opened so far; `renumber` does the same for a built tree.
-/

namespace Saml.Xml

/-! ## Built documents -/

/-- Renumbering records the entries it numbers. -/
theorem renumber_indexed :
    (∀ (e : Element) (path : ElementPath) (st next : Numbering) (numbered : Element)
      (recorded : List Entry), renumber path st e = .ok (numbered, next) →
        Indexed recorded st.paths st.idIndex →
        Indexed (recorded ++ entries path numbered) next.paths next.idIndex) ∧
    ∀ (nodes : List Node) (path : ElementPath) (index : Nat) (st next : Numbering)
      (numbered : List Node) (recorded : List Entry),
        renumberChildren path index st nodes = .ok (numbered, next) →
        Indexed recorded st.paths st.idIndex →
        Indexed (recorded ++ entriesChildren path index numbered) next.paths next.idIndex := by
  apply Element.induct
  case mk =>
    rintro ⟨qname, sourcePrefix, declared, attributes, children, id⟩ ih path st next numbered
      recorded h hst
    rw [renumber] at h
    by_cases hbound : st.paths.length < U32_BOUND
    · rw [if_pos hbound] at h
      obtain ⟨idIndex, hids, h⟩ := bind_eq_ok_iff.mp h
      obtain ⟨⟨kids, final⟩, hkids, h⟩ := bind_eq_ok_iff.mp h
      obtain ⟨rfl, rfl⟩ := Prod.mk.inj (Except.ok.inj h)
      have hrec := ih path 0 _ final kids _ hkids (hst.register path hids)
      rw [entries, List.append_cons]
      exact hrec
    · rw [if_neg hbound] at h
      cases h
  case nil =>
    intro path index st next numbered recorded h hst
    rw [renumberChildren] at h
    obtain ⟨rfl, rfl⟩ := Prod.mk.inj (Except.ok.inj h)
    simpa [entriesChildren] using hst
  case element =>
    intro child rest ihChild ihRest path index st next numbered recorded h hst
    rw [renumberChildren, renumberNode] at h
    obtain ⟨⟨node, mid⟩, hnode, h⟩ := bind_eq_ok_iff.mp h
    obtain ⟨⟨kids, final⟩, hkids, h⟩ := bind_eq_ok_iff.mp h
    obtain ⟨rfl, rfl⟩ := Prod.mk.inj (Except.ok.inj h)
    by_cases hbound : index < U32_BOUND
    · rw [if_pos hbound] at hnode
      obtain ⟨⟨e, mid⟩, he, hnode⟩ := bind_eq_ok_iff.mp hnode
      obtain ⟨rfl, rfl⟩ := Prod.mk.inj (Except.ok.inj hnode)
      have hchild := ihChild _ st mid e recorded he hst
      have hrest := ihRest path (index + 1) mid final kids _ hkids hchild
      rw [entriesChildren, entriesNode, ← List.append_assoc]
      exact hrest
    · rw [if_neg hbound] at hnode
      cases hnode
  case text =>
    intro t rest ih path index st next numbered recorded h hst
    rw [renumberChildren, renumberNode] at h
    obtain ⟨⟨node, mid⟩, hnode, h⟩ := bind_eq_ok_iff.mp h
    obtain ⟨rfl, rfl⟩ := Prod.mk.inj (Except.ok.inj hnode)
    obtain ⟨⟨kids, final⟩, hkids, h⟩ := bind_eq_ok_iff.mp h
    obtain ⟨rfl, rfl⟩ := Prod.mk.inj (Except.ok.inj h)
    rw [entriesChildren, entriesNode, List.nil_append]
    exact ih path (index + 1) st final kids recorded hkids hst
  case comment =>
    intro c rest ih path index st next numbered recorded h hst
    rw [renumberChildren, renumberNode] at h
    obtain ⟨⟨node, mid⟩, hnode, h⟩ := bind_eq_ok_iff.mp h
    obtain ⟨rfl, rfl⟩ := Prod.mk.inj (Except.ok.inj hnode)
    obtain ⟨⟨kids, final⟩, hkids, h⟩ := bind_eq_ok_iff.mp h
    obtain ⟨rfl, rfl⟩ := Prod.mk.inj (Except.ok.inj h)
    rw [entriesChildren, entriesNode, List.nil_append]
    exact ih path (index + 1) st final kids recorded hkids hst

/-- A document built by `Document::new` is well indexed. -/
theorem Document.wellIndexed_new {root : Element} {doc : Document}
    (h : Document.new root = .ok doc) :
    doc.WellIndexed := by
  obtain ⟨⟨numbered, st⟩, hst, h⟩ := bind_eq_ok_iff.mp h
  obtain rfl := Except.ok.inj h
  exact renumber_indexed.1 root [] _ st numbered [] hst indexed_nil

/-! ## Parsed documents -/

/-- The paths of the open elements: each is the next child of the one around
it, the outermost is the root. -/
def Nested : List StackFrame → Prop
  | [] => True
  | [frame] => frame.path = []
  | frame :: parent :: outer =>
      frame.path = parent.path ++ [parent.element.children.length] ∧ Nested (parent :: outer)

/-- The entries of the open elements, outermost first. -/
def openEntries (stack : List StackFrame) : List Entry :=
  stack.reverse.flatMap fun frame => entries frame.path frame.element

theorem openEntries_cons (frame : StackFrame) (outer : List StackFrame) :
    openEntries (frame :: outer) = openEntries outer ++ entries frame.path frame.element := by
  simp [openEntries]

namespace TreeBuilder

/-- The entries of a builder: the finished root, then the open elements. -/
def recorded (b : TreeBuilder) : List Entry :=
  b.completedRoot.toList.flatMap (entries []) ++ openEntries b.stack

/-- The invariant of the read loop. -/
structure Tracked (b : TreeBuilder) : Prop where
  indexed : Indexed b.recorded b.paths b.idIndex
  nested : Nested b.stack

/-- Appending a child to the innermost open element keeps the nesting. -/
theorem nested_pushChild {frame : StackFrame} {outer : List StackFrame}
    (h : Nested (frame :: outer)) (node : Node) :
    Nested ({ frame with
      element := { frame.element with children := frame.element.children ++ [node] } } ::
        outer) := by
  cases outer with
  | nil => exact h
  | cons parent rest => exact h

/-- A child without elements leaves the record as it is. -/
theorem Tracked.pushChild {b : TreeBuilder} (h : b.Tracked) {node : Node}
    (hnode : ∀ path, entriesNode path node = []) : (b.pushChild node).Tracked := by
  unfold TreeBuilder.pushChild
  cases hstack : b.stack with
  | nil => simpa [hstack] using h
  | cons frame outer =>
      refine ⟨?_, nested_pushChild (hstack ▸ h.nested) node⟩
      have hindexed := h.indexed
      simp only [recorded, hstack, openEntries_cons] at hindexed
      simpa only [recorded, openEntries_cons, entries_withChild, hnode, List.append_nil]
        using hindexed

/-- A change of the counters alone. -/
theorem Tracked.congr {b next : TreeBuilder} (h : b.Tracked) (root : next.completedRoot =
    b.completedRoot) (stack : next.stack = b.stack) (paths : next.paths = b.paths)
    (idIndex : next.idIndex = b.idIndex) : next.Tracked := by
  refine ⟨?_, stack ▸ h.nested⟩
  simpa only [recorded, root, stack, paths, idIndex] using h.indexed

/-- What opening an element does: one more entry, at the next free position. -/
theorem openElement_ok {qx : QuickXml} {b next : TreeBuilder} {start : BytesStart}
    {selfClosing : Bool} {element : Element} {path : ElementPath}
    (h : b.openElement qx start selfClosing = .ok (element, path, next)) :
    b.nextPath = .ok path ∧ element.children = [] ∧ element.id = b.paths.length ∧
      next.stack = b.stack ∧ next.completedRoot = b.completedRoot ∧
      next.paths = b.paths ++ [path] ∧
      registerIds b.paths.length element.attributes b.idIndex = .ok next.idIndex := by
  obtain ⟨raw, _, h⟩ := bind_eq_ok_iff.mp h
  obtain ⟨qname, _, h⟩ := bind_eq_ok_iff.mp h
  obtain ⟨attributes, _, h⟩ := bind_eq_ok_iff.mp h
  obtain ⟨opened, hpath, h⟩ := bind_eq_ok_iff.mp h
  by_cases hbound : b.paths.length < U32_BOUND
  · rw [if_pos hbound] at h
    obtain ⟨idIndex, hids, h⟩ := bind_eq_ok_iff.mp h
    obtain ⟨rfl, hrest⟩ := Prod.mk.inj (Except.ok.inj h)
    obtain ⟨rfl, rfl⟩ := Prod.mk.inj hrest
    exact ⟨hpath, rfl, rfl, rfl, rfl, rfl, hids⟩
  · rw [if_neg hbound] at h
    cases h

/-- The free position under the innermost open element continues the nesting. -/
theorem nested_open {b : TreeBuilder} {path : ElementPath} (h : Nested b.stack)
    (hpath : b.nextPath = .ok path) (element : Element) :
    Nested (⟨element, path⟩ :: b.stack) := by
  unfold nextPath at hpath
  cases hstack : b.stack with
  | nil =>
      rw [hstack] at hpath
      exact (Except.ok.inj hpath).symm
  | cons parent outer =>
      rw [hstack] at hpath h
      dsimp only at hpath
      split at hpath
      · exact ⟨(Except.ok.inj hpath).symm, h⟩
      · cases hpath

/-- Opening an element records it on top of the open ones. -/
theorem Tracked.openElement {qx : QuickXml} {b next : TreeBuilder} {start : BytesStart}
    {selfClosing : Bool} {element : Element} {path : ElementPath} (h : b.Tracked)
    (hopen : b.openElement qx start selfClosing = .ok (element, path, next)) :
    ({ next with stack := ⟨element, path⟩ :: next.stack } : TreeBuilder).Tracked := by
  obtain ⟨hpath, hchildren, hid, hstack, hroot, hpaths, hids⟩ := openElement_ok hopen
  refine ⟨?_, by rw [hstack]; exact nested_open h.nested hpath element⟩
  have hregister := h.indexed.register path hids
  have hentry : entries path element = [⟨path, b.paths.length, element.attributes⟩] := by
    rw [entries_eq, hchildren, hid]
    rfl
  simpa only [recorded, openEntries_cons, hentry, hstack, hroot, hpaths, List.append_assoc]
    using hregister

/-- Closing the innermost element moves its entries to where it is attached. -/
theorem Tracked.closeElement {b next : TreeBuilder} {element : Element} (path : ElementPath)
    (h : ({ b with stack := ⟨element, path⟩ :: b.stack } : TreeBuilder).Tracked)
    (hclose : b.closeElement element = .ok next) : next.Tracked := by
  have hindexed := h.indexed
  have hnested := h.nested
  simp only [recorded, openEntries_cons] at hindexed
  unfold TreeBuilder.closeElement at hclose
  cases hstack : b.stack with
  | nil =>
      simp only [hstack] at hclose hindexed hnested
      cases hroot : b.completedRoot with
      | some root => simp [hroot] at hclose
      | none =>
          simp only [hroot] at hclose hindexed
          obtain rfl := Except.ok.inj hclose
          obtain rfl : path = [] := hnested
          refine ⟨?_, trivial⟩
          simpa [recorded, hstack, openEntries] using hindexed
  | cons parent outer =>
      simp only [hstack] at hclose hindexed hnested
      obtain rfl := Except.ok.inj hclose
      obtain ⟨rfl, houter⟩ := hnested
      simp only [openEntries_cons] at hindexed
      simp only [TreeBuilder.pushChild, hstack]
      refine ⟨?_, nested_pushChild houter _⟩
      simpa only [recorded, openEntries_cons, entries_withChild, entriesNode, List.append_assoc]
        using hindexed

/-- The step lemma: every move keeps the invariant. -/
theorem Tracked.move {qx : QuickXml} {Q : BytesStart → Prop} {b next : TreeBuilder}
    (h : b.Tracked) (hmove : Move qx Q b next) : next.Tracked := by
  cases hmove with
  | count root stack _ paths idIndex => exact h.congr root stack paths idIndex
  | @leaf node hnode =>
      refine h.pushChild fun _ => ?_
      cases node with
      | element e => cases hnode
      | text t => rfl
      | comment c => rfl
  | opening _ hopen => exact h.openElement hopen
  | closing stack hclose =>
      rename_i frame outer
      refine Tracked.closeElement frame.path ?_ hclose
      exact h.congr rfl stack.symm rfl rfl
  | collapsed _ hopen hclose => exact (h.openElement hopen).closeElement _ hclose

/-- The run lemma: the whole read loop keeps the invariant. -/
theorem Tracked.feedAll {qx : QuickXml} {b next : TreeBuilder} {events : List (Except Str Event)}
    (h : b.Tracked) (hnext : b.feedAll qx events = .ok next) : next.Tracked :=
  Moves.invariant (fun _ _ => Tracked.move) (feedAll_moves (fun _ _ => trivial) hnext) h

theorem tracked_new (limits : XmlLimits) : (new limits).Tracked :=
  ⟨indexed_nil, trivial⟩

end TreeBuilder

namespace Document

theorem wellIndexed_parseWithLimits {qx : QuickXml} {xml : Octets} {limits : XmlLimits}
    {doc : Document} (h : parseWithLimits qx xml limits = .ok doc) : doc.WellIndexed := by
  obtain ⟨b, hb, h⟩ := bind_eq_ok_iff.mp h
  have htracked := (TreeBuilder.tracked_new limits).feedAll hb
  unfold TreeBuilder.finish at h
  cases hstack : b.stack with
  | cons frame outer => simp [hstack] at h
  | nil =>
      cases hroot : b.completedRoot with
      | none => simp [hstack, hroot] at h
      | some root =>
          simp only [hstack, hroot] at h
          obtain rfl := Except.ok.inj h
          have hindexed := htracked.indexed
          change Indexed (entries [] root) b.paths b.idIndex
          simpa [TreeBuilder.recorded, hstack, hroot, openEntries] using hindexed

/-- Every document the parser accepts is well indexed. -/
theorem wellIndexed_parse {qx : QuickXml} {xml : Octets} {doc : Document}
    (h : parse qx xml = .ok doc) : doc.WellIndexed :=
  wellIndexed_parseWithLimits h

end Document

end Saml.Xml
