import Saml.Xml.Scoped

/-!
# What each event does

One inversion lemma for the builder: between tags only children without elements
are attached, a start tag opens an element, an end tag closes the innermost one,
an empty tag does both.
-/

namespace Saml.Xml

namespace TreeBuilder

/-- Two stacks that differ in children without elements of the innermost frame. -/
inductive Padded : List StackFrame → List StackFrame → Prop
  | same (stack : List StackFrame) : Padded stack stack
  | leaves (frame : StackFrame) (outer : List StackFrame) (nodes : List Node)
      (leaf : ∀ node ∈ nodes, node.asElement = none) :
      Padded (frame :: outer) ({ frame with
        element := { frame.element with children := frame.element.children ++ nodes } } :: outer)

theorem Padded.trans {first second third : List StackFrame} (h : Padded first second)
    (h' : Padded second third) : Padded first third := by
  cases h with
  | same => exact h'
  | leaves frame outer nodes leaf =>
      cases h' with
      | same => exact .leaves frame outer nodes leaf
      | leaves _ _ others leaf' =>
          rw [List.append_assoc]
          apply Padded.leaves
          intro node hnode
          exact (List.mem_append.mp hnode).elim (leaf node) (leaf' node)

/-- Nothing happened to the elements. -/
structure Quiet (b next : TreeBuilder) : Prop where
  limits : next.limits = b.limits
  nsStack : next.nsStack = b.nsStack
  completedRoot : next.completedRoot = b.completedRoot
  stack : Padded b.stack next.stack

variable {qx : QuickXml} {b mid next : TreeBuilder}

theorem Quiet.refl (b : TreeBuilder) : Quiet b b := ⟨rfl, rfl, rfl, .same _⟩

theorem Quiet.trans (h : Quiet b mid) (h' : Quiet mid next) : Quiet b next :=
  ⟨h'.limits.trans h.limits, h'.nsStack.trans h.nsStack,
    h'.completedRoot.trans h.completedRoot, h.stack.trans h'.stack⟩

theorem quiet_bumpNodes (h : b.bumpNodes = .ok next) : Quiet b next := by
  obtain ⟨_, h⟩ := ite_error_eq_ok_iff.mp h
  obtain rfl := Except.ok.inj h
  exact ⟨rfl, rfl, rfl, .same _⟩

theorem quiet_pushChild {node : Node} (h : node.asElement = none) : Quiet b (b.pushChild node) := by
  unfold TreeBuilder.pushChild
  cases hstack : b.stack with
  | nil => exact .refl b
  | cons frame outer =>
      refine ⟨rfl, rfl, rfl, ?_⟩
      rw [hstack]
      apply Padded.leaves frame outer [node]
      intro other hother
      exact List.mem_singleton.mp hother ▸ h

theorem quiet_pushText {value : Str} (h : b.pushText value = .ok next) : Quiet b next := by
  unfold TreeBuilder.pushText at h
  split at h
  · exact Except.ok.inj h ▸ .refl b
  · obtain ⟨mid, hmid, h⟩ := bind_eq_ok_iff.mp h
    obtain rfl := Except.ok.inj h
    exact (quiet_bumpNodes hmid).trans (quiet_pushChild rfl)

theorem quiet_appendText {fragment : Str} (h : b.appendText fragment = .ok next) :
    Quiet b next := by
  obtain ⟨_, h⟩ := ite_error_eq_ok_iff.mp h
  obtain rfl := Except.ok.inj h
  exact ⟨rfl, rfl, rfl, .same _⟩

theorem quiet_flushText (h : b.flushText = .ok next) : Quiet b next := by
  unfold TreeBuilder.flushText at h
  split at h
  · exact Except.ok.inj h ▸ .refl b
  · have hclear : Quiet b { b with pendingText := [] } := ⟨rfl, rfl, rfl, .same _⟩
    exact hclear.trans (quiet_pushText h)

/-- An element opened: its frame is the innermost one. -/
def Opens (qx : QuickXml) (b : TreeBuilder) (start : BytesStart) (next : TreeBuilder) : Prop :=
  ∃ mid opened element path, Quiet b mid ∧
    mid.openElement qx start false = .ok (element, path, opened) ∧
    next = { opened with stack := ⟨element, path⟩ :: opened.stack } ∧
    next.stack.length ≤ next.limits.maxDepth

/-- The innermost element closed: its frame is gone. -/
def Closes (b next : TreeBuilder) : Prop :=
  ∃ mid frame outer, Quiet b mid ∧ mid.stack = frame :: outer ∧
    { mid with stack := outer, nsStack := mid.nsStack.tail }.closeElement frame.element = .ok next

/-- An element opened and closed at once. -/
def Collapses (qx : QuickXml) (b : TreeBuilder) (start : BytesStart) (next : TreeBuilder) : Prop :=
  ∃ mid opened element path, Quiet b mid ∧
    mid.openElement qx start true = .ok (element, path, opened) ∧
    opened.closeElement element = .ok next

/-- What an accepted event does. -/
def Effect (qx : QuickXml) (b : TreeBuilder) (next : TreeBuilder) : Event → Prop
  | .start start => Opens qx b start next
  | .empty start => Collapses qx b start next
  | .endTag _ => Closes b next
  | .docType => False
  | .pi => False
  | _ => Quiet b next

theorem effect_feedStructural {event : Event} (flushed : Quiet b mid)
    (h : mid.feedStructural qx event = .ok next) : Effect qx b next event := by
  cases event with
  | decl => exact Except.ok.inj h ▸ flushed
  | docType => cases h
  | pi => cases h
  | text t => cases h
  | generalRef name => cases h
  | start s =>
      obtain ⟨counted, hcounted, h⟩ := bind_eq_ok_iff.mp h
      obtain ⟨⟨element, path, opened⟩, hopen, h⟩ := bind_eq_ok_iff.mp h
      obtain ⟨hdepth, h⟩ := ite_error_eq_ok_iff.mp h
      obtain rfl := Except.ok.inj h
      exact ⟨counted, opened, element, path, flushed.trans (quiet_bumpNodes hcounted), hopen, rfl,
        Nat.le_of_not_lt hdepth⟩
  | empty s =>
      obtain ⟨counted, hcounted, h⟩ := bind_eq_ok_iff.mp h
      obtain ⟨⟨element, path, opened⟩, hopen, h⟩ := bind_eq_ok_iff.mp h
      exact ⟨counted, opened, element, path, flushed.trans (quiet_bumpNodes hcounted), hopen, h⟩
  | endTag name =>
      rw [TreeBuilder.feedStructural] at h
      cases hstack : mid.stack with
      | nil => simp [hstack] at h
      | cons frame outer =>
          simp only [hstack] at h
          obtain ⟨_, h⟩ := ite_error_eq_ok_iff.mp h
          exact ⟨mid, frame, outer, flushed, hstack, h⟩
  | cData value =>
      rw [TreeBuilder.feedStructural] at h
      obtain ⟨_, h⟩ := ite_error_eq_ok_iff.mp h
      split at h
      · exact Except.ok.inj h ▸ flushed
      · exact flushed.trans (quiet_pushText h)
  | comment value =>
      obtain ⟨_, h⟩ := ite_error_eq_ok_iff.mp h
      obtain ⟨counted, hcounted, h⟩ := bind_eq_ok_iff.mp h
      obtain rfl := Except.ok.inj h
      exact (flushed.trans (quiet_bumpNodes hcounted)).trans (quiet_pushChild rfl)

/-- Character data is buffered; any other event flushes the pending run first. -/
theorem feed_structural {event : Event} (h : b.feed qx event = .ok next) :
    (∃ fragment, (∀ c : TreeBuilder, c.feed qx event = c.appendText fragment) ∧
      ((∃ t, event = .text t) ∨ ∃ name, event = .generalRef name)) ∨
      ∀ c : TreeBuilder, c.feed qx event = c.flushText >>= (·.feedStructural qx event) := by
  cases event with
  | text t => exact .inl ⟨t, fun _ => rfl, .inl ⟨t, rfl⟩⟩
  | generalRef name =>
      rw [TreeBuilder.feed] at h
      split at h
      next resolved hresolved =>
        refine .inl ⟨resolved, ?_, .inr ⟨name, rfl⟩⟩
        intro c
        rw [TreeBuilder.feed, hresolved]
      · cases h
  | start s => exact .inr fun _ => rfl
  | empty s => exact .inr fun _ => rfl
  | endTag name => exact .inr fun _ => rfl
  | cData t => exact .inr fun _ => rfl
  | comment t => exact .inr fun _ => rfl
  | decl => exact .inr fun _ => rfl
  | docType => exact .inr fun _ => rfl
  | pi => exact .inr fun _ => rfl

/-- The inversion lemma: everything an accepted event can do. -/
theorem effect_feed {event : Event} (h : b.feed qx event = .ok next) : Effect qx b next event := by
  rcases feed_structural h with ⟨fragment, htext, ⟨t, rfl⟩ | ⟨name, rfl⟩⟩ | hflush
  · exact quiet_appendText ((htext b).symm.trans h)
  · exact quiet_appendText ((htext b).symm.trans h)
  · obtain ⟨mid, hmid, h⟩ := bind_eq_ok_iff.mp ((hflush b).symm.trans h)
    exact effect_feedStructural (quiet_flushText hmid) h

/-! ## After the root -/

/-- A finished root stays the root. -/
theorem completedRoot_feedAll {events : List (Except Str Event)} {root : Element}
    (h : b.feedAll qx events = .ok next) (hroot : b.completedRoot = some root) :
    next.completedRoot = some root := by
  refine Moves.invariant (I := fun b => b.completedRoot = some root) ?_
    (feedAll_moves (Q := fun _ => True) (fun _ _ => trivial) h) hroot
  intro b next hroot hmove
  have closed {c d : TreeBuilder} {element : Element} (hc : c.completedRoot = some root)
      (hclose : c.closeElement element = .ok d) : d.completedRoot = some root := by
    unfold TreeBuilder.closeElement at hclose
    split at hclose
    · obtain rfl := Except.ok.inj hclose
      unfold TreeBuilder.pushChild
      split <;> exact hc
    · rw [hc] at hclose
      cases hclose
  cases hmove with
  | count root' => exact root'.trans hroot
  | leaf _ =>
      unfold TreeBuilder.pushChild
      split <;> exact hroot
  | opening _ hopen => exact (openElement_ok hopen).2.2.2.2.1.trans hroot
  | closing _ hclose =>
      exact closed (c := { b with stack := _, nsStack := b.nsStack.tail }) hroot hclose
  | collapsed _ hopen hclose =>
      exact closed ((openElement_ok hopen).2.2.2.2.1.trans hroot) hclose

end TreeBuilder

end Saml.Xml
