import Saml.Xml.Reparse

/-!
# What an accepted emission was read as

Whatever the limits are: when the parser accepts the text of a tree that
writes back, it returns that tree, up to handles, prefixes and the cutting of
character data.
-/

namespace Saml.Xml

open Library

section

variable {qx : QuickXml}

/-! ## Start tags -/

/-- What a start tag is accepted with is within the limit. -/
theorem length_le_of_collectAttributes {limits : XmlLimits} {count : Nat}
    {attributes : List (Except Str RawAttribute)} {raw : RawAttributes}
    (h : collectAttributes qx limits count attributes = .ok raw) :
    attributes = [] ∨ count + attributes.length ≤ limits.maxAttributeCount := by
  induction attributes generalizing count raw with
  | nil => exact .inl rfl
  | cons item rest ih =>
      cases item with
      | error err => cases h
      | ok a =>
          rw [collectAttributes] at h
          obtain ⟨hcount, h⟩ := ite_error_eq_ok_iff.mp h
          obtain ⟨value, -, h⟩ := bind_eq_ok_iff.mp h
          obtain ⟨tail, htail, -⟩ := bind_eq_ok_iff.mp h
          rw [List.length_cons]
          rcases ih htail with rfl | hrest
          · exact .inr (by simpa using hcount)
          · exact .inr (by omega)

/-- Step: what the written start tag of an element opens. -/
theorem openElement_accepted (lawful : qx.Lawful) {b next : TreeBuilder} {e element : Element}
    {path : ElementPath} {selfClosing : Bool} (hback : WritesBack b.nsStack e)
    (h : b.openElement qx (startOf (emittedTag b.nsStack e)) selfClosing =
      .ok (element, path, next)) :
    element = openedElement b.nsStack e element.id ∧
      next.nsStack = (if selfClosing then b.nsStack else e.namespacesDeclaredHere :: b.nsStack) ∧
      next.stack = b.stack ∧ next.completedRoot = b.completedRoot ∧
      next.pendingText = b.pendingText := by
  obtain ⟨raw, hraw, h⟩ := bind_eq_ok_iff.mp h
  have hcount : e.namespacesDeclaredHere.length + e.attributes.length ≤
      b.limits.maxAttributeCount := by
    have hlength : (startOf (emittedTag b.nsStack e)).attributes.length =
        e.namespacesDeclaredHere.length + e.attributes.length := by
      simp [startOf, emittedTag, writtenPairs]
    rcases length_le_of_collectAttributes hraw with hnil | hle
    · rw [hnil] at hlength
      simp only [List.length_nil] at hlength
      omega
    · omega
  rw [collectAttributes_emitted lawful b.limits hback hcount] at hraw
  obtain rfl := Except.ok.inj hraw
  obtain ⟨qname, hname, h⟩ := bind_eq_ok_iff.mp h
  have hresolved : qname = e.qname := Except.ok.inj (hname.symm.trans hback.resolves)
  obtain ⟨attributes, hattributes, h⟩ := bind_eq_ok_iff.mp h
  rw [resolveAttributes_emitted hback] at hattributes
  obtain rfl := Except.ok.inj hattributes
  obtain ⟨opened, -, h⟩ := bind_eq_ok_iff.mp h
  split at h
  · obtain ⟨idIndex, -, h⟩ := bind_eq_ok_iff.mp h
    obtain ⟨rfl, hrest⟩ := Prod.mk.inj (Except.ok.inj h)
    obtain ⟨rfl, rfl⟩ := Prod.mk.inj hrest
    rw [hresolved]
    exact ⟨rfl, rfl, rfl, rfl, rfl⟩
  · cases h

/-! ## Growing an open element -/

/-- The innermost open element has taken in nodes; nothing is pending. -/
structure Taken (b next : TreeBuilder) (added : List Node) : Prop where
  scope : next.nsStack = b.nsStack
  root : next.completedRoot = b.completedRoot
  pending : next.pendingText = []
  stack : ∃ frame outer nodes, b.stack = frame :: outer ∧
    next.stack = { frame with
      element := { frame.element with children := frame.element.children ++ nodes } } :: outer ∧
    nodes.map unnumberedNode = added

theorem Taken.trans {b mid next : TreeBuilder} {first second : List Node}
    (h : Taken b mid first) (h' : Taken mid next second) : Taken b next (first ++ second) := by
  obtain ⟨frame, outer, nodes, hb, hmid, hadded⟩ := h.stack
  obtain ⟨frame', outer', nodes', hmid', hnext, hadded'⟩ := h'.stack
  rw [hmid] at hmid'
  obtain ⟨rfl, rfl⟩ := List.cons.inj hmid'
  refine ⟨h'.scope.trans h.scope, h'.root.trans h.root, h'.pending,
    ⟨frame, outer, nodes ++ nodes', hb, ?_, ?_⟩⟩
  · rw [hnext]
    simp
  · rw [List.map_append, hadded, hadded']

theorem Taken.exists_frame {b next : TreeBuilder} {added : List Node} (h : Taken b next added) :
    ∃ frame outer, next.stack = frame :: outer := by
  obtain ⟨frame, outer, nodes, -, hnext, -⟩ := h.stack
  exact ⟨_, _, hnext⟩

/-- A node without a handle is taken in as it is. -/
theorem taken_pushChild {b : TreeBuilder} {frame : StackFrame} {outer : List StackFrame}
    (hstack : b.stack = frame :: outer) (hpending : b.pendingText = []) (node : Node) :
    Taken b (b.pushChild node) [unnumberedNode node] := by
  rw [TreeBuilder.pushChild, hstack]
  exact ⟨rfl, rfl, hpending, ⟨frame, outer, [node], hstack, rfl, rfl⟩⟩

/-- Step: the pending run of character data becomes a node. -/
theorem flushText_taken {b next : TreeBuilder} {frame : StackFrame} {outer : List StackFrame}
    (hstack : b.stack = frame :: outer) (h : b.flushText = .ok next) :
    Taken b next (textNodes b.pendingText) := by
  rw [TreeBuilder.flushText] at h
  cases hpending : b.pendingText with
  | nil =>
      rw [hpending] at h
      obtain rfl := Except.ok.inj h
      exact ⟨rfl, rfl, hpending, ⟨frame, outer, [], hstack, by simp [hstack], rfl⟩⟩
  | cons c rest =>
      rw [hpending] at h
      simp only [TreeBuilder.pushText, hstack] at h
      obtain ⟨counted, hcounted, h⟩ := bind_eq_ok_iff.mp h
      obtain ⟨-, hcounted⟩ := ite_error_eq_ok_iff.mp hcounted
      obtain rfl := Except.ok.inj hcounted
      obtain rfl := Except.ok.inj h
      exact ⟨rfl, rfl, rfl, ⟨frame, outer, [.text (c :: rest)], hstack, rfl, rfl⟩⟩

/-- Character data is appended as the text it was escaped from. -/
theorem feedAll_textAccepted (lawful : qx.Lawful) {b next : TreeBuilder} {t : Str}
    (h : b.feedAll qx ((Markup.tokensAll (t.map textMarkup)).map eventOf) = .ok next) :
    next = { b with pendingText := b.pendingText ++ t } := by
  induction t generalizing b with
  | nil =>
      obtain rfl := Except.ok.inj h
      simp
  | cons c rest ih =>
      rw [List.map_cons, Markup.tokensAll_cons, List.map_append, TreeBuilder.feedAll_append,
        feedAll_textChar lawful] at h
      obtain ⟨one, hone, h⟩ := bind_eq_ok_iff.mp h
      obtain ⟨-, hone⟩ := ite_error_eq_ok_iff.mp hone
      obtain rfl := Except.ok.inj hone
      rw [ih h]
      simp

/-- An element has been read up to its end; it is not attached yet. -/
structure Ended (b next : TreeBuilder) (element : Element) (expected : Element) : Prop where
  scope : next.nsStack = b.nsStack
  root : next.completedRoot = b.completedRoot
  pending : next.pendingText = []
  stack : next.stack = b.stack
  element : unnumbered element = expected

/-- A finished element is attached to the innermost open one. -/
theorem Ended.attach {b next full : TreeBuilder} {element expected : Element}
    (h : Ended b next element expected) {frame : StackFrame} {outer : List StackFrame}
    (hstack : b.stack = frame :: outer) (hclosed : next.closeElement element = .ok full) :
    Taken b full [.element expected] := by
  have hnext : next.stack = frame :: outer := h.stack.trans hstack
  rw [TreeBuilder.closeElement, hnext] at hclosed
  obtain rfl := Except.ok.inj hclosed
  have htaken := taken_pushChild hnext h.pending (.element element)
  refine ⟨htaken.scope.trans h.scope, htaken.root.trans h.root, htaken.pending, ?_⟩
  rw [← h.stack, ← h.element]
  exact htaken.stack

/-- The first event of a nonempty run. -/
theorem feedAll_cons_eq_ok {b final : TreeBuilder} {event : Event}
    {events : List (Except Str Event)} (h : b.feedAll qx (.ok event :: events) = .ok final) :
    ∃ next, b.feed qx event = .ok next ∧ next.feedAll qx events = .ok final :=
  bind_eq_ok_iff.mp h

/-- Step: a start tag with nothing pending. -/
theorem start_accepted (lawful : qx.Lawful) {b counted next : TreeBuilder} {e element : Element}
    {path : ElementPath} {selfClosing : Bool} (hpending : b.pendingText = [])
    (hback : WritesBack b.nsStack e) (hcounted : b.bumpNodes = .ok counted)
    (hopen : counted.openElement qx (startOf (emittedTag b.nsStack e)) selfClosing =
      .ok (element, path, next)) :
    element = openedElement b.nsStack e element.id ∧
      next.nsStack = (if selfClosing then b.nsStack else e.namespacesDeclaredHere :: b.nsStack) ∧
      next.stack = b.stack ∧ next.completedRoot = b.completedRoot ∧ next.pendingText = [] := by
  obtain ⟨-, hcounted⟩ := ite_error_eq_ok_iff.mp hcounted
  obtain rfl := Except.ok.inj hcounted
  obtain ⟨helement, hscope, hstack, hroot, hnone⟩ :=
    @openElement_accepted qx lawful { b with totalNodes := b.totalNodes + 1 } next e element path
      selfClosing hback hopen
  exact ⟨helement, hscope, hstack, hroot, hnone.trans hpending⟩

/-- An element without content is read as it was written. -/
theorem collapsed_accepted (lawful : qx.Lawful) {b final : TreeBuilder} {e : Element}
    (hpending : b.pendingText = []) (hchildren : e.children = [])
    (hback : WritesBack b.nsStack e)
    (h : b.feedAll qx [.ok (.empty (startOf (emittedTag b.nsStack e)))] = .ok final) :
    ∃ next element, next.closeElement element = .ok final ∧
      Ended b next element (reread b.nsStack e) := by
  rw [feedAll_structural (flushText_of_nil hpending) rfl, TreeBuilder.feedStructural] at h
  obtain ⟨counted, hcounted, h⟩ := bind_eq_ok_iff.mp h
  obtain ⟨⟨element, path, opened⟩, hopen, hclosed⟩ := bind_eq_ok_iff.mp h
  obtain ⟨helement, hscope, hstack, hroot, hnone⟩ :=
    start_accepted lawful hpending hback hcounted hopen
  refine ⟨opened, element, hclosed, hscope, hroot, hnone, hstack, ?_⟩
  rw [helement, reread_eq, hchildren, rereadChildren, openedElement, unnumbered,
    unnumberedChildren]
  rfl

/-- An element with content is read as it was written once its content is. -/
theorem element_accepted (lawful : qx.Lawful) {b final : TreeBuilder} {e : Element}
    (hpending : b.pendingText = []) (hback : WritesBack b.nsStack e)
    {events : List (Except Str Event)}
    (content : ∀ opened read full : TreeBuilder, opened.pendingText = [] →
      opened.nsStack = e.namespacesDeclaredHere :: b.nsStack →
      (∃ frame, opened.stack = frame :: b.stack) → opened.feedAll qx events = .ok read →
      read.flushText = .ok full →
      Taken opened full (rereadChildren (e.namespacesDeclaredHere :: b.nsStack) [] e.children))
    (h : b.feedAll qx (.ok (.start (startOf (emittedTag b.nsStack e))) ::
      (events ++ [.ok (.endTag (emittedTag b.nsStack e).name)])) = .ok final) :
    ∃ next element, next.closeElement element = .ok final ∧
      Ended b next element (reread b.nsStack e) := by
  obtain ⟨opened, hopened, h⟩ := feedAll_cons_eq_ok h
  rw [TreeBuilder.feedAll_append] at h
  obtain ⟨read, hread, hend⟩ := bind_eq_ok_iff.mp h
  obtain ⟨flushed, hflushed, hopened⟩ := bind_eq_ok_iff.mp hopened
  rw [flushText_of_nil hpending] at hflushed
  obtain rfl := Except.ok.inj hflushed
  obtain ⟨counted, hcounted, hopened⟩ := bind_eq_ok_iff.mp hopened
  obtain ⟨⟨element, path, tagged⟩, hopen, hopened⟩ := bind_eq_ok_iff.mp hopened
  obtain ⟨-, hopened⟩ := ite_error_eq_ok_iff.mp hopened
  obtain rfl := Except.ok.inj hopened
  obtain ⟨helement, hscope, hstack, hroot, hnone⟩ :=
    start_accepted lawful hpending hback hcounted hopen
  rw [if_neg Bool.false_ne_true] at hscope
  obtain ⟨last, hlast, hdone⟩ := feedAll_cons_eq_ok hend
  obtain rfl := Except.ok.inj hdone
  obtain ⟨full, hfull, hclosed⟩ := bind_eq_ok_iff.mp hlast
  have htaken := content { tagged with stack := ⟨element, path⟩ :: tagged.stack } read full hnone
    hscope ⟨⟨element, path⟩, by rw [hstack]⟩ hread hfull
  obtain ⟨frame, outer, nodes, hframe, hnext, hadded⟩ := htaken.stack
  obtain ⟨rfl, rfl⟩ := List.cons.inj hframe
  rw [TreeBuilder.feedStructural, hnext] at hclosed
  dsimp only at hclosed
  obtain ⟨-, hclosed⟩ := ite_error_eq_ok_iff.mp hclosed
  refine ⟨_, _, hclosed, ?_, htaken.root.trans hroot, htaken.pending, hstack, ?_⟩
  · dsimp only
    rw [htaken.scope]
    dsimp only
    rw [hscope]
    rfl
  · rw [helement, reread_eq, unnumbered, unnumberedChildren_eq, ← hadded]
    rfl

/-- Step: a comment. -/
theorem comment_accepted {b final : TreeBuilder} {c : Str} {frame : StackFrame}
    {outer : List StackFrame} (hpending : b.pendingText = []) (hstack : b.stack = frame :: outer)
    (h : b.feedAll qx [.ok (.comment c)] = .ok final) : Taken b final [.comment c] := by
  rw [feedAll_structural (flushText_of_nil hpending) rfl, TreeBuilder.feedStructural] at h
  obtain ⟨-, h⟩ := ite_error_eq_ok_iff.mp h
  obtain ⟨counted, hcounted, h⟩ := bind_eq_ok_iff.mp h
  obtain ⟨-, hcounted⟩ := ite_error_eq_ok_iff.mp hcounted
  obtain rfl := Except.ok.inj hcounted
  obtain rfl := Except.ok.inj h
  rw [TreeBuilder.pushChild, hstack]
  exact ⟨rfl, rfl, hpending, ⟨frame, outer, [.comment c], hstack, rfl, rfl⟩⟩

/-- Run: what the tokens of a tree that writes back are read as, when they are
accepted. -/
theorem accepted_marked (lawful : qx.Lawful) :
    (∀ (e : Element) (b final : TreeBuilder), b.pendingText = [] →
      Scoped WritesBack b.nsStack e →
      b.feedAll qx ((Markup.tokens (marked b.nsStack e)).map eventOf) = .ok final →
        ∃ next element, next.closeElement element = .ok final ∧
          Ended b next element (reread b.nsStack e)) ∧
    ∀ (nodes : List Node) (b read full : TreeBuilder),
      (∃ frame outer, b.stack = frame :: outer) →
      (∀ child, Node.element child ∈ nodes → Scoped WritesBack b.nsStack child) →
      b.feedAll qx ((Markup.tokensAll (markedChildren b.nsStack nodes)).map eventOf) = .ok read →
      read.flushText = .ok full → Taken b full (rereadChildren b.nsStack b.pendingText nodes) := by
  apply Element.induct
  case mk =>
    intro e ih b final hpending hback h
    obtain ⟨hself, hbelow⟩ := scoped_iff.mp hback
    rcases tokens_marked b.nsStack e with ⟨hempty, htokens⟩ | ⟨-, htokens⟩
    · rw [htokens] at h
      exact collapsed_accepted lawful hpending hempty hself h
    · rw [htokens] at h
      apply element_accepted lawful hpending hself _ h
      intro opened read full hnone hscope hframe hread hfull
      obtain ⟨frame, hstack⟩ := hframe
      have hbelow' : ∀ child, Node.element child ∈ e.children →
          Scoped WritesBack opened.nsStack child := by
        intro child hchild
        rw [hscope]
        exact hbelow child (ElementOf.mem_childElements.mpr hchild)
      have htaken := ih opened read full ⟨frame, b.stack, hstack⟩ hbelow' (by rwa [hscope]) hfull
      rwa [hscope, hnone] at htaken
  case nil =>
    intro b read full hstack _ hread hfull
    obtain ⟨frame, outer, hstack⟩ := hstack
    rw [markedChildren] at hread
    obtain rfl := Except.ok.inj hread
    rw [rereadChildren]
    exact flushText_taken hstack hfull
  case element =>
    intro e rest he hrest b read full hstack hback hread hfull
    obtain ⟨frame, outer, hstack⟩ := hstack
    rw [markedChildren, Markup.tokensAll_cons, List.map_append, TreeBuilder.feedAll_append] at hread
    obtain ⟨closed, hclosed, hread⟩ := bind_eq_ok_iff.mp hread
    obtain ⟨flushed, hflush⟩ : ∃ flushed, b.flushText = .ok flushed := by
      rcases tokens_marked b.nsStack e with ⟨_, htokens⟩ | ⟨_, htokens⟩
      · rw [htokens] at hclosed
        obtain ⟨next, hnext, -⟩ := feedAll_cons_eq_ok hclosed
        exact (bind_eq_ok_iff.mp hnext).imp fun _ h => h.1
      · rw [htokens] at hclosed
        obtain ⟨next, hnext, -⟩ := feedAll_cons_eq_ok hclosed
        exact (bind_eq_ok_iff.mp hnext).imp fun _ h => h.1
    have hflushed := flushText_taken hstack hflush
    have hstart : b.feedAll qx ((Markup.tokens (marked b.nsStack e)).map eventOf) =
        flushed.feedAll qx ((Markup.tokens (marked b.nsStack e)).map eventOf) := by
      rcases tokens_marked b.nsStack e with ⟨_, htokens⟩ | ⟨_, htokens⟩
      · rw [htokens]
        exact feedAll_flushed hflush hflushed.pending fun _ => rfl
      · rw [htokens]
        exact feedAll_flushed hflush hflushed.pending fun _ => rfl
    have hscope := hflushed.scope
    rw [hstart, ← hscope] at hclosed
    obtain ⟨next, element, hattach, hended⟩ := he flushed closed hflushed.pending
      (by rw [hscope]; exact hback e List.mem_cons_self) hclosed
    obtain ⟨frame', outer', hstack'⟩ := hflushed.exists_frame
    have htaken := hflushed.trans (hended.attach hstack' hattach)
    rw [hscope] at htaken
    have hbelow : ∀ child, Node.element child ∈ rest → Scoped WritesBack closed.nsStack child := by
      intro child hchild
      rw [htaken.scope]
      exact hback child (List.mem_cons_of_mem _ hchild)
    have hrestTaken := hrest closed read full htaken.exists_frame hbelow
      (by rw [htaken.scope]; exact hread) hfull
    rw [htaken.scope, htaken.pending] at hrestTaken
    rw [rereadChildren, List.append_cons]
    exact htaken.trans hrestTaken
  case text =>
    intro t rest hrest b read full hstack hback hread hfull
    rw [markedChildren, Markup.tokensAll_append, List.map_append,
      TreeBuilder.feedAll_append] at hread
    obtain ⟨appended, happended, hread⟩ := bind_eq_ok_iff.mp hread
    obtain rfl := feedAll_textAccepted lawful happended
    have htaken := hrest { b with pendingText := b.pendingText ++ t } read full hstack
      (fun child hchild => hback child (List.mem_cons_of_mem _ hchild)) hread hfull
    rw [rereadChildren]
    exact ⟨htaken.scope, htaken.root, htaken.pending, htaken.stack⟩
  case comment =>
    intro c rest hrest b read full hstack hback hread hfull
    obtain ⟨frame, outer, hstack⟩ := hstack
    have hevent : (Markup.tokensAll (markedChildren b.nsStack (.comment c :: rest))).map eventOf =
        [.ok (.comment c)] ++
          (Markup.tokensAll (markedChildren b.nsStack rest)).map eventOf := by
      rw [markedChildren]
      rfl
    rw [hevent, TreeBuilder.feedAll_append] at hread
    obtain ⟨noted, hnoted, hread⟩ := bind_eq_ok_iff.mp hread
    obtain ⟨flushed, hflush⟩ : ∃ flushed, b.flushText = .ok flushed := by
      obtain ⟨next, hnext, -⟩ := feedAll_cons_eq_ok hnoted
      exact (bind_eq_ok_iff.mp hnext).imp fun _ h => h.1
    have hflushed := flushText_taken hstack hflush
    rw [feedAll_flushed hflush hflushed.pending fun _ => rfl] at hnoted
    obtain ⟨frame', outer', hstack'⟩ := hflushed.exists_frame
    have htaken := hflushed.trans (comment_accepted hflushed.pending hstack' hnoted)
    have hbelow : ∀ child, Node.element child ∈ rest → Scoped WritesBack noted.nsStack child := by
      intro child hchild
      rw [htaken.scope]
      exact hback child (List.mem_cons_of_mem _ hchild)
    have hrestTaken := hrest noted read full htaken.exists_frame hbelow
      (by rw [htaken.scope]; exact hread) hfull
    rw [htaken.scope, htaken.pending] at hrestTaken
    rw [rereadChildren, List.append_cons]
    exact htaken.trans hrestTaken

/-- What is read from the text of a tree that writes back is that tree, up to
handles, prefixes and the cutting of character data. -/
theorem unnumbered_of_parse_emitted (lawful : qx.Lawful) {root : Element} {text : Str}
    (hemit : emitElement root = .ok text) (hback : Scoped WritesBack [] root)
    {limits : XmlLimits} {doc : Document}
    (hparse : Document.parseWithLimits qx (Text.asBytes text) limits = .ok doc) :
    unnumbered doc.root = reread [] root := by
  obtain ⟨hread, hreturn⟩ := readEvents_emitted lawful hemit hback
  rw [Document.parseWithLimits,
    normalizeLineEndings_of_notMem (Text.return_notMem_asBytes hreturn), hread,
    TreeBuilder.feedAll_merge _ (chars_tokens.1 _)] at hparse
  obtain ⟨final, hfinal, hfinish⟩ := bind_eq_ok_iff.mp hparse
  obtain ⟨next, element, hclosed, hended⟩ :=
    (accepted_marked lawful).1 root (TreeBuilder.new limits) final rfl hback hfinal
  rw [TreeBuilder.closeElement, hended.stack, hended.root] at hclosed
  obtain rfl := Except.ok.inj hclosed
  rw [TreeBuilder.finish] at hfinish
  obtain rfl := Except.ok.inj hfinish
  exact hended.element

end

end Saml.Xml
