import Saml.Xml.WellIndexed

/-!
# Properties of elements in their scope

The builder resolves the names of a start tag against the declarations of the
open elements. A property of an element and of that scope, once it holds of every
element opened, holds of every element of the finished tree below the
declarations of its ancestors.
-/

namespace Saml.Xml

/-! ## Scopes in a tree -/

/-- The declarations around the element a path leads to, nearest first. -/
def layersTo (e : Element) : ElementPath → List NsLayer
  | [] => []
  | i :: rest =>
      match e.children[i]? with
      | some (.element child) => layersTo child rest ++ [e.namespacesDeclaredHere]
      | _ => []

/-- A property of every element of a tree below given declarations. -/
def Scoped (P : List NsLayer → Element → Prop) (scope : List NsLayer) (e : Element) : Prop :=
  ∀ path d, e.walk path = some d → P (layersTo e path ++ scope) d

theorem scoped_iff {P : List NsLayer → Element → Prop} {scope : List NsLayer} {e : Element} :
    Scoped P scope e ↔ P scope e ∧
      ∀ child ∈ e.childElements, Scoped P (e.namespacesDeclaredHere :: scope) child := by
  constructor
  · intro h
    refine ⟨h [] e rfl, ?_⟩
    intro child hchild path d hd
    obtain ⟨index, hlt, hindex⟩ := List.getElem_of_mem (ElementOf.mem_childElements.mp hchild)
    have hget : e.children[index]? = some (.element child) := by
      rw [List.getElem?_eq_getElem hlt, hindex]
    have hbelow := h (index :: path) d (by rw [ElementOf.walk, hget]; exact hd)
    rw [layersTo, hget] at hbelow
    simpa using hbelow
  · rintro ⟨hself, hbelow⟩ path d hd
    cases path with
    | nil =>
        obtain rfl := Option.some.inj hd
        exact hself
    | cons index rest =>
        rw [ElementOf.walk] at hd
        split at hd
        next child hindex =>
          have hchild := ElementOf.mem_childElements.mpr (List.mem_of_getElem? hindex)
          rw [layersTo, hindex]
          simpa using hbelow child hchild rest d hd
        next => cases hd

theorem layersTo_append {e d : Element} {p : ElementPath} (h : e.walk p = some d)
    (q : ElementPath) : layersTo e (p ++ q) = layersTo d q ++ layersTo e p := by
  induction p generalizing e with
  | nil =>
      obtain rfl := Option.some.inj h
      simp [layersTo]
  | cons i rest ih =>
      rw [ElementOf.walk] at h
      split at h
      next child hchild =>
        rw [List.cons_append, layersTo, layersTo, hchild]
        dsimp only
        rw [ih h, List.append_assoc]
      next => cases h

/-- What holds of a tree in its scope holds of every subtree in its own. -/
theorem Scoped.walk {P : List NsLayer → Element → Prop} {scope : List NsLayer} {e d : Element}
    (h : Scoped P scope e) {path : ElementPath} (hwalk : e.walk path = some d) :
    Scoped P (layersTo e path ++ scope) d := by
  intro rest f hf
  have hbelow := h (path ++ rest) f (by rw [ElementOf.walk_append, hwalk]; exact hf)
  rwa [layersTo_append hwalk, List.append_assoc] at hbelow

/-! ## Scopes in the builder -/

/-- The declarations in scope inside the open elements. -/
def scopeOf (base : List NsLayer) (stack : List StackFrame) : List NsLayer :=
  stack.map (·.element.namespacesDeclaredHere) ++ base

/-- A property of the open elements and of all that is attached to them. -/
def FramesHold (P : List NsLayer → Element → Prop) (base : List NsLayer) :
    List StackFrame → Prop
  | [] => True
  | frame :: outer =>
      (P (scopeOf base outer) frame.element ∧
        ∀ child ∈ frame.element.childElements, Scoped P (scopeOf base (frame :: outer)) child) ∧
      FramesHold P base outer

namespace TreeBuilder

variable {qx : QuickXml} {Q : BytesStart → Prop} {P : List NsLayer → Element → Prop}

/-- The invariant of the read loop: the namespace stack is that of the open
elements, and the property holds of everything built so far. -/
structure Holds (P : List NsLayer → Element → Prop) (base : List NsLayer) (b : TreeBuilder) :
    Prop where
  scope : b.nsStack = scopeOf base b.stack
  frames : FramesHold P base b.stack
  root : ∀ e, b.completedRoot = some e → Scoped P base e

/-- A property that opening an element establishes and attaching a child keeps. -/
structure Local (qx : QuickXml) (Q : BytesStart → Prop) (P : List NsLayer → Element → Prop) :
    Prop where
  opened : ∀ {b next : TreeBuilder} {start : BytesStart} {selfClosing : Bool} {element : Element}
    {path : ElementPath}, Q start →
      b.openElement qx start selfClosing = .ok (element, path, next) → P b.nsStack element
  attached : ∀ {scope : List NsLayer} {e : Element} (children : List Node), P scope e →
    P scope { e with children := children }

/-- What opening an element does to its names and to the namespace stack. -/
theorem openElement_scope {b next : TreeBuilder} {start : BytesStart} {selfClosing : Bool}
    {element : Element} {path : ElementPath}
    (h : b.openElement qx start selfClosing = .ok (element, path, next)) :
    ∃ raw, collectAttributes qx b.limits 0 start.attributes = .ok raw ∧
      element.namespacesDeclaredHere = raw.declared ∧
      resolveQName start.name (raw.declared :: b.nsStack) false = .ok element.qname ∧
      element.sourcePrefix = extractSourcePrefix start.name ∧
      raw.rawAttrs.mapM (resolveAttribute (raw.declared :: b.nsStack)) = .ok element.attributes ∧
      next.nsStack = if selfClosing then b.nsStack else raw.declared :: b.nsStack := by
  obtain ⟨raw, hraw, h⟩ := bind_eq_ok_iff.mp h
  obtain ⟨qname, hqname, h⟩ := bind_eq_ok_iff.mp h
  obtain ⟨attributes, hattributes, h⟩ := bind_eq_ok_iff.mp h
  obtain ⟨opened, _, h⟩ := bind_eq_ok_iff.mp h
  by_cases hbound : b.paths.length < U32_BOUND
  · rw [if_pos hbound] at h
    obtain ⟨idIndex, _, h⟩ := bind_eq_ok_iff.mp h
    obtain ⟨rfl, hrest⟩ := Prod.mk.inj (Except.ok.inj h)
    obtain ⟨_, rfl⟩ := Prod.mk.inj hrest
    exact ⟨raw, hraw, rfl, hqname, rfl, hattributes, rfl⟩
  · rw [if_neg hbound] at h
    cases h

/-- Attaching a child to the innermost open element. -/
theorem framesHold_pushChild {base : List NsLayer} {frame : StackFrame} {outer : List StackFrame}
    (local_ : Local qx Q P) (h : FramesHold P base (frame :: outer)) {node : Node}
    (hnode : ∀ child, node.asElement = some child →
      Scoped P (scopeOf base (frame :: outer)) child) :
    FramesHold P base ({ frame with
      element := { frame.element with children := frame.element.children ++ [node] } } ::
        outer) := by
  obtain ⟨⟨hself, hchildren⟩, houter⟩ := h
  refine ⟨⟨local_.attached _ hself, ?_⟩, houter⟩
  intro child hchild
  rcases List.mem_filterMap.mp hchild with ⟨n, hn, helement⟩
  rcases List.mem_append.mp hn with hn | hn
  · exact hchildren child (List.mem_filterMap.mpr ⟨n, hn, helement⟩)
  · obtain rfl := List.mem_singleton.mp hn
    exact hnode child helement

/-- An element opened and not yet attached. -/
theorem Holds.openElement {base : List NsLayer} {b next : TreeBuilder} {start : BytesStart}
    {element : Element} {path : ElementPath} {selfClosing : Bool} (local_ : Local qx Q P)
    (h : b.Holds P base) (tag : Q start)
    (hopen : b.openElement qx start selfClosing = .ok (element, path, next)) :
    Scoped P (scopeOf base b.stack) element ∧ next.stack = b.stack ∧
      next.completedRoot = b.completedRoot ∧
      next.nsStack = if selfClosing then b.nsStack
        else element.namespacesDeclaredHere :: b.nsStack := by
  obtain ⟨raw, _, hdeclared, _, _, _, hscope⟩ := openElement_scope hopen
  obtain ⟨_, hchildren, _, hstack, hroot, _, _⟩ := openElement_ok hopen
  refine ⟨?_, hstack, hroot, hdeclared ▸ hscope⟩
  rw [scoped_iff, ← h.scope]
  refine ⟨local_.opened tag hopen, ?_⟩
  intro child hchild
  rw [ElementOf.childElements, hchildren] at hchild
  cases hchild

/-- Attaching a finished element. -/
theorem Holds.closeElement {base : List NsLayer} {b next : TreeBuilder} {element : Element}
    (local_ : Local qx Q P) (h : b.Holds P base)
    (helement : Scoped P (scopeOf base b.stack) element)
    (hclose : b.closeElement element = .ok next) : next.Holds P base := by
  unfold TreeBuilder.closeElement at hclose
  cases hstack : b.stack with
  | nil =>
      rw [hstack] at hclose helement
      dsimp only at hclose
      split at hclose
      · cases hclose
      · obtain rfl := Except.ok.inj hclose
        refine ⟨?_, trivial, ?_⟩
        · rw [h.scope, hstack]
        intro e he
        obtain rfl := Option.some.inj he
        exact helement
  | cons frame outer =>
      simp only [hstack] at hclose helement
      obtain rfl := Except.ok.inj hclose
      have hscope := h.scope
      have hframes := h.frames
      rw [hstack] at hscope hframes
      simp only [TreeBuilder.pushChild, hstack]
      refine ⟨hscope, framesHold_pushChild local_ hframes ?_, h.root⟩
      intro child hchild
      obtain rfl := Option.some.inj hchild
      exact helement

/-- The step lemma: every move keeps the invariant. -/
theorem Holds.move {base : List NsLayer} {b next : TreeBuilder} (local_ : Local qx Q P)
    (h : b.Holds P base) (hmove : Move qx Q b next) : next.Holds P base := by
  cases hmove with
  | count root stack scope _ _ =>
      exact ⟨by rw [scope, stack]; exact h.scope, stack ▸ h.frames, root ▸ h.root⟩
  | leaf hnode =>
      rename_i node
      unfold TreeBuilder.pushChild
      cases hstack : b.stack with
      | nil => exact h
      | cons frame outer =>
          have hscope := h.scope
          have hframes := h.frames
          rw [hstack] at hscope hframes
          refine ⟨hscope, framesHold_pushChild local_ hframes ?_, h.root⟩
          intro child hchild
          rw [hnode] at hchild
          cases hchild
  | opening tag hopen =>
      rename_i opened start element path
      obtain ⟨helement, hstack, hroot, hscope⟩ := h.openElement local_ tag hopen
      obtain ⟨_, hchildren, _⟩ := openElement_ok hopen
      refine ⟨?_, ?_, hroot ▸ h.root⟩
      · rw [hscope, h.scope, hstack]
        rfl
      · rw [hstack]
        exact ⟨scoped_iff.mp helement, h.frames⟩
  | closing stack hclose =>
      rename_i frame outer
      have hscope := h.scope
      have hframes := h.frames
      rw [stack] at hscope hframes
      have hpopped : { b with stack := outer, nsStack := b.nsStack.tail }.Holds P base := by
        refine ⟨?_, hframes.2, h.root⟩
        rw [hscope]
        rfl
      exact hpopped.closeElement local_ (scoped_iff.mpr hframes.1) hclose
  | collapsed tag hopen hclose =>
      obtain ⟨helement, hstack, hroot, hscope⟩ := h.openElement local_ tag hopen
      rename_i opened start element path
      have hopened : opened.Holds P base := by
        refine ⟨?_, hstack ▸ h.frames, hroot ▸ h.root⟩
        rw [hscope, hstack]
        exact h.scope
      exact hopened.closeElement local_ (by rw [hstack]; exact helement) hclose

/-- The run lemma: the whole read loop keeps the invariant. -/
theorem Holds.feedAll {base : List NsLayer} {b next : TreeBuilder}
    {events : List (Except Str Event)} (local_ : Local qx Q P) (h : b.Holds P base)
    (tags : ∀ s, Reports events s → Q s) (hnext : b.feedAll qx events = .ok next) :
    next.Holds P base :=
  Moves.invariant (fun _ _ => Holds.move local_) (feedAll_moves tags hnext) h

theorem holds_new (P : List NsLayer → Element → Prop) (limits : XmlLimits) :
    (new limits).Holds P [] :=
  ⟨rfl, trivial, nofun⟩

end TreeBuilder

/-- Every element of a parsed document has a local property, below the
declarations of its ancestors. -/
theorem Document.scoped_parseWithLimits {qx : QuickXml} {Q : BytesStart → Prop}
    {P : List NsLayer → Element → Prop} (local_ : TreeBuilder.Local qx Q P) {xml : Octets}
    {limits : XmlLimits} {doc : Document}
    (tags : ∀ s, Reports (qx.readEvents (normalizeLineEndings xml)) s → Q s)
    (h : parseWithLimits qx xml limits = .ok doc) : Scoped P [] doc.root := by
  obtain ⟨b, hb, h⟩ := bind_eq_ok_iff.mp h
  have hholds := (TreeBuilder.holds_new P limits).feedAll local_ tags hb
  unfold TreeBuilder.finish at h
  split at h
  · cases h
  · split at h
    · cases h
    · rename_i root hroot
      obtain rfl := Except.ok.inj h
      exact hholds.root root hroot

end Saml.Xml
