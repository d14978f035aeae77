import Saml.Xml.Reader
import Mathlib.Logic.Relation

/-!
# What one event does to the tree builder

Each event breaks into elementary moves: the counters alone, a child without
elements, an element opened, an element closed, an element opened and closed at
once. What every move keeps holds of every tree the builder makes.
-/

namespace Saml.Xml

namespace TreeBuilder

/-- The elementary moves of the builder on start tags with a property. -/
inductive Move (qx : QuickXml) (Q : BytesStart → Prop) : TreeBuilder → TreeBuilder → Prop
  | count {b next : TreeBuilder} (root : next.completedRoot = b.completedRoot)
      (stack : next.stack = b.stack) (scope : next.nsStack = b.nsStack)
      (paths : next.paths = b.paths) (idIndex : next.idIndex = b.idIndex) : Move qx Q b next
  | leaf {b : TreeBuilder} {node : Node} (h : node.asElement = none) :
      Move qx Q b (b.pushChild node)
  | opening {b opened : TreeBuilder} {start : BytesStart} {element : Element} {path : ElementPath}
      (tag : Q start) (h : b.openElement qx start false = .ok (element, path, opened)) :
      Move qx Q b { opened with stack := ⟨element, path⟩ :: opened.stack }
  | closing {b next : TreeBuilder} {frame : StackFrame} {outer : List StackFrame}
      (stack : b.stack = frame :: outer)
      (h : { b with stack := outer, nsStack := b.nsStack.tail }.closeElement frame.element =
        .ok next) : Move qx Q b next
  | collapsed {b opened next : TreeBuilder} {start : BytesStart} {element : Element}
      {path : ElementPath} (tag : Q start)
      (h : b.openElement qx start true = .ok (element, path, opened))
      (close : opened.closeElement element = .ok next) : Move qx Q b next

/-- Some moves, one after the other. -/
abbrev Moves (qx : QuickXml) (Q : BytesStart → Prop) : TreeBuilder → TreeBuilder → Prop :=
  Relation.ReflTransGen (Move qx Q)

/-- What every move keeps, a stretch of moves keeps. -/
theorem Moves.invariant {qx : QuickXml} {Q : BytesStart → Prop} {I : TreeBuilder → Prop}
    (step : ∀ b next, I b → Move qx Q b next → I next) {b next : TreeBuilder}
    (h : Moves qx Q b next) (initial : I b) : I next := by
  induction h with
  | refl => exact initial
  | tail _ hmove ih => exact step _ _ ih hmove

variable {qx : QuickXml} {Q : BytesStart → Prop} {b next : TreeBuilder}

theorem bumpNodes_move (h : b.bumpNodes = .ok next) : Move qx Q b next := by
  obtain ⟨_, h⟩ := ite_error_eq_ok_iff.mp h
  obtain rfl := Except.ok.inj h
  exact .count rfl rfl rfl rfl rfl

theorem pushText_moves {value : Str} (h : b.pushText value = .ok next) : Moves qx Q b next := by
  unfold TreeBuilder.pushText at h
  cases hstack : b.stack with
  | nil =>
      rw [hstack] at h
      exact Except.ok.inj h ▸ .refl
  | cons frame outer =>
      rw [hstack] at h
      obtain ⟨mid, hmid, h⟩ := bind_eq_ok_iff.mp h
      exact Except.ok.inj h ▸ (Relation.ReflTransGen.single (bumpNodes_move hmid)).tail (.leaf rfl)

theorem appendText_moves {fragment : Str} (h : b.appendText fragment = .ok next) :
    Moves qx Q b next := by
  obtain ⟨_, h⟩ := ite_error_eq_ok_iff.mp h
  exact Except.ok.inj h ▸ .single (.count rfl rfl rfl rfl rfl)

theorem flushText_moves (h : b.flushText = .ok next) : Moves qx Q b next := by
  unfold TreeBuilder.flushText at h
  split at h
  · exact Except.ok.inj h ▸ .refl
  · have hclear : Move qx Q b { b with pendingText := [] } := .count rfl rfl rfl rfl rfl
    exact (Relation.ReflTransGen.single hclear).trans (pushText_moves h)

/-- The start tag of an event has a property. -/
def TagOf (Q : BytesStart → Prop) : Event → Prop
  | .start s => Q s
  | .empty s => Q s
  | _ => True

theorem feedStructural_moves {event : Event} (tag : TagOf Q event)
    (h : b.feedStructural qx event = .ok next) : Moves qx Q b next := by
  cases event with
  | decl => exact Except.ok.inj h ▸ .refl
  | docType => cases h
  | pi => cases h
  | text t => cases h
  | generalRef name => cases h
  | start s =>
      obtain ⟨mid, hmid, h⟩ := bind_eq_ok_iff.mp h
      obtain ⟨⟨element, path, opened⟩, hopen, h⟩ := bind_eq_ok_iff.mp h
      obtain ⟨_, h⟩ := ite_error_eq_ok_iff.mp h
      obtain rfl := Except.ok.inj h
      exact (Relation.ReflTransGen.single (bumpNodes_move hmid)).tail (.opening tag hopen)
  | empty s =>
      obtain ⟨mid, hmid, h⟩ := bind_eq_ok_iff.mp h
      obtain ⟨⟨element, path, opened⟩, hopen, h⟩ := bind_eq_ok_iff.mp h
      exact (Relation.ReflTransGen.single (bumpNodes_move hmid)).tail (.collapsed tag hopen h)
  | endTag name =>
      rw [TreeBuilder.feedStructural] at h
      cases hstack : b.stack with
      | nil => simp [hstack] at h
      | cons frame outer =>
          simp only [hstack] at h
          obtain ⟨_, h⟩ := ite_error_eq_ok_iff.mp h
          exact .single (.closing hstack h)
  | cData value =>
      rw [TreeBuilder.feedStructural] at h
      obtain ⟨_, h⟩ := ite_error_eq_ok_iff.mp h
      split at h
      · exact Except.ok.inj h ▸ .refl
      · exact pushText_moves h
  | comment value =>
      obtain ⟨_, h⟩ := ite_error_eq_ok_iff.mp h
      obtain ⟨mid, hmid, h⟩ := bind_eq_ok_iff.mp h
      obtain rfl := Except.ok.inj h
      exact (Relation.ReflTransGen.single (bumpNodes_move hmid)).tail (.leaf rfl)

/-- One event is a stretch of moves. -/
theorem feed_moves {event : Event} (tag : TagOf Q event) (h : b.feed qx event = .ok next) :
    Moves qx Q b next := by
  have structural (hstep : (do
      let b ← b.flushText
      b.feedStructural qx event) = .ok next) : Moves qx Q b next := by
    obtain ⟨mid, hmid, hstep⟩ := bind_eq_ok_iff.mp hstep
    exact (flushText_moves hmid).trans (feedStructural_moves tag hstep)
  cases event with
  | text t => exact appendText_moves h
  | generalRef name =>
      rw [TreeBuilder.feed] at h
      cases hres : qx.unescape ("&" ++ name ++ ";") with
      | error err =>
          rw [hres] at h
          cases h
      | ok resolved =>
          rw [hres] at h
          exact appendText_moves h
  | start s => exact structural h
  | empty s => exact structural h
  | endTag name => exact structural h
  | cData t => exact structural h
  | comment t => exact structural h
  | decl => exact structural h
  | docType => exact structural h
  | pi => exact structural h

/-- The whole read loop is a stretch of moves on the reported start tags. -/
theorem feedAll_moves {events : List (Except Str Event)} (tags : ∀ s, Reports events s → Q s)
    (h : b.feedAll qx events = .ok next) : Moves qx Q b next := by
  induction events generalizing b with
  | nil => exact Except.ok.inj h ▸ .refl
  | cons item rest ih =>
      cases item with
      | error err => cases h
      | ok event =>
          obtain ⟨mid, hmid, h⟩ := bind_eq_ok_iff.mp h
          have htag : TagOf Q event := by
            cases event with
            | start s => exact tags s (.inl List.mem_cons_self)
            | empty s => exact tags s (.inr List.mem_cons_self)
            | _ => trivial
          refine (feed_moves htag hmid).trans (ih ?_ h)
          intro s hs
          exact tags s (hs.imp (List.mem_cons_of_mem _) (List.mem_cons_of_mem _))

end TreeBuilder

end Saml.Xml
