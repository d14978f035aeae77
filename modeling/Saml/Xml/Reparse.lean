import Saml.Xml.Built
import Saml.Xml.Marked

/-!
# Reading an emitted tree back

The parser gives back the tree the serializer was given, up to handles, the
recorded prefixes and the cutting of character data into text nodes, as long
as the document stays within the limits.
-/

namespace Saml.Xml

open Library

/-! ## The tree read back -/

/-- A run of character data as nodes. -/
def textNodes : Str → List Node
  | [] => []
  | text => [.text text]

/-- An attribute with the prefix it is written with. -/
def rereadAttribute (nsStack : List NsLayer) (a : Attribute) : Attribute :=
  { a with sourcePrefix := extractSourcePrefix (emittedKey nsStack a.qname) }

mutual

/-- An element as it is read back below the given declarations. -/
def reread (nsStack : List NsLayer) : Element → Element
  | ⟨qname, _, declared, attributes, children, _⟩ =>
      ⟨qname, extractSourcePrefix (emittedName (declared :: nsStack) qname), declared,
        attributes.map (rereadAttribute (declared :: nsStack)),
        rereadChildren (declared :: nsStack) [] children, 0⟩

/-- The nodes read back after a pending run of character data. -/
def rereadChildren (nsStack : List NsLayer) (pending : Str) : List Node → List Node
  | [] => textNodes pending
  | .element e :: rest =>
      textNodes pending ++ .element (reread nsStack e) :: rereadChildren nsStack [] rest
  | .text t :: rest => rereadChildren nsStack (pending ++ t) rest
  | .comment c :: rest => textNodes pending ++ .comment c :: rereadChildren nsStack [] rest

end

/-! ## Limits -/

mutual

/-- Whether an element below a number of open elements stays within the limits
on attributes, on depth and on character data. -/
def Fits (limits : XmlLimits) (depth : Nat) : Element → Prop
  | ⟨_, _, declared, attributes, children, _⟩ =>
      declared.length + attributes.length ≤ limits.maxAttributeCount ∧
        (children ≠ [] → depth + 1 ≤ limits.maxDepth) ∧
        FitsChildren limits (depth + 1) [] children

/-- Whether the nodes after a pending run of character data do. -/
def FitsChildren (limits : XmlLimits) (depth : Nat) (pending : Str) : List Node → Prop
  | [] => True
  | .element e :: rest => Fits limits depth e ∧ FitsChildren limits depth [] rest
  | .text t :: rest =>
      Text.byteLen (pending ++ t) ≤ limits.maxTextLength ∧
        FitsChildren limits depth (pending ++ t) rest
  | .comment c :: rest =>
      Text.byteLen c ≤ limits.maxTextLength ∧ FitsChildren limits depth [] rest

end

/-! ## Start tags -/

section

variable {qx : QuickXml}

theorem unescape_attrEscaped (lawful : qx.Lawful) (value : Str) :
    qx.unescape (attrEscaped value) = .ok value := by
  induction value with
  | nil => exact lawful.unescape_nil
  | cons c rest ih =>
      have hcons : attrEscaped (c :: rest) = attrEscape c ++ attrEscaped rest := rfl
      rw [hcons]
      fun_cases attrEscape c with
      | case1 => exact lawful.unescape_ref "amp" '&' _ _ (by decide) ih
      | case2 => exact lawful.unescape_ref "lt" '<' _ _ (by decide) ih
      | case3 => exact lawful.unescape_ref "gt" '>' _ _ (by decide) ih
      | case4 => exact lawful.unescape_ref "quot" '"' _ _ (by decide) ih
      | case5 => exact lawful.unescape_ref "#9" '\t' _ _ (by decide) ih
      | case6 => exact lawful.unescape_ref "#10" '\n' _ _ (by decide) ih
      | case7 => exact lawful.unescape_ref "#13" '\r' _ _ (by decide) ih
      | case8 c hamp => exact lawful.unescape_char c _ _ hamp ih

/-- The first pass over written pairs sorts them into declarations and attributes. -/
theorem collectAttributes_pairs (lawful : qx.Lawful) (limits : XmlLimits) {count : Nat}
    {pairs : List (Str × Str)} (h : count + pairs.length ≤ limits.maxAttributeCount) :
    collectAttributes qx limits count (pairs.map fun p => rawAttribute (p.1, attrEscaped p.2)) =
      .ok ⟨pairs.filterMap fun p => (QxQName.asNamespaceBinding p.1).map (·, p.2),
        pairs.filterMap fun p =>
          if QxQName.asNamespaceBinding p.1 = none then some ⟨p.1, p.2⟩ else none⟩ := by
  induction pairs generalizing count with
  | nil => rfl
  | cons p rest ih =>
      rw [List.length_cons] at h
      have htail := @ih (count + 1) (by omega)
      have hvalue : unescapeValue qx (attrEscaped p.2) = .ok p.2 := by
        rw [unescapeValue, unescape_attrEscaped lawful]
      rw [List.map_cons, rawAttribute, collectAttributes, if_neg (by omega), hvalue, ok_bind, htail,
        ok_bind]
      cases hbinding : QxQName.asNamespaceBinding p.1 with
      | none => simp [hbinding]
      | some pfx => simp [hbinding]

theorem asNamespaceBinding_declName (pfx : Option Str) :
    QxQName.asNamespaceBinding (declName pfx) = some pfx := by
  cases pfx <;> rfl

theorem collectAttributes_emitted (lawful : qx.Lawful) (limits : XmlLimits)
    {nsStack : List NsLayer} {e : Element} (hback : WritesBack nsStack e)
    (hcount : e.namespacesDeclaredHere.length + e.attributes.length ≤ limits.maxAttributeCount) :
    collectAttributes qx limits 0 (startOf (emittedTag nsStack e)).attributes =
      .ok ⟨e.namespacesDeclaredHere, e.attributes.map fun a =>
        ⟨emittedKey (e.namespacesDeclaredHere :: nsStack) a.qname, a.value⟩⟩ := by
  have hpairs := @collectAttributes_pairs qx lawful limits 0
    (writtenPairs (e.namespacesDeclaredHere :: nsStack) e) (by simpa [writtenPairs] using hcount)
  rw [startOf, emittedTag, List.map_map]
  refine hpairs.trans ?_
  have hplain : ∀ a ∈ e.attributes,
      QxQName.asNamespaceBinding (emittedKey (e.namespacesDeclaredHere :: nsStack) a.qname) =
        none := fun a ha => (hback.attributes a ha).1
  have hkeys : e.attributes.filterMap (fun a =>
      (QxQName.asNamespaceBinding (emittedKey (e.namespacesDeclaredHere :: nsStack) a.qname)).map
        (·, a.value)) = [] := by
    rw [List.filterMap_eq_nil_iff]
    intro a ha
    rw [hplain a ha]
    rfl
  have hraw : e.attributes.filterMap (fun a =>
      if QxQName.asNamespaceBinding
          (emittedKey (e.namespacesDeclaredHere :: nsStack) a.qname) = none then
        some (⟨emittedKey (e.namespacesDeclaredHere :: nsStack) a.qname, a.value⟩ : RawAttribute)
      else none) =
      e.attributes.map fun a =>
        ⟨emittedKey (e.namespacesDeclaredHere :: nsStack) a.qname, a.value⟩ := by
    rw [← List.filterMap_eq_map]
    apply List.filterMap_congr
    intro a ha
    rw [if_pos (hplain a ha)]
    rfl
  simp only [writtenPairs, List.filterMap_append, List.filterMap_map, Function.comp_def,
    asNamespaceBinding_declName, hkeys, hraw]
  simp

theorem resolveAttributes_emitted {nsStack : List NsLayer} {e : Element}
    (hback : WritesBack nsStack e) :
    (e.attributes.map fun a =>
        (⟨emittedKey (e.namespacesDeclaredHere :: nsStack) a.qname, a.value⟩ :
          RawAttribute)).mapM (resolveAttribute (e.namespacesDeclaredHere :: nsStack)) =
      .ok (e.attributes.map (rereadAttribute (e.namespacesDeclaredHere :: nsStack))) := by
  rw [mapM_eq_ok_iff, List.forall₂_map_left_iff, List.forall₂_map_right_iff,
    List.forall₂_same]
  intro a ha
  rw [resolveAttribute, (hback.attributes a ha).2]
  rfl

theorem idValues_reread (nsStack : List NsLayer) (attributes : List Attribute) :
    idValues (attributes.map (rereadAttribute nsStack)) = idValues attributes := by
  simp only [idValues, List.filter_map, List.map_map]
  rfl

/-- The element a start tag opens, without its handle. -/
def openedElement (nsStack : List NsLayer) (e : Element) (id : ElementId) : Element where
  qname := e.qname
  sourcePrefix := extractSourcePrefix (emittedName (e.namespacesDeclaredHere :: nsStack) e.qname)
  namespacesDeclaredHere := e.namespacesDeclaredHere
  attributes := e.attributes.map (rereadAttribute (e.namespacesDeclaredHere :: nsStack))
  children := []
  id := id

/-- Step: the written start tag of an element opens it. -/
theorem openElement_emitted (lawful : qx.Lawful) {b : TreeBuilder} {e : Element}
    {path : ElementPath} (selfClosing : Bool) (hback : WritesBack b.nsStack e)
    (hcount : e.namespacesDeclaredHere.length + e.attributes.length ≤
      b.limits.maxAttributeCount)
    (hpath : b.nextPath = .ok path) (hpaths : b.paths.length < U32_BOUND)
    (hids : (b.idIndex.map Prod.fst ++ idValues e.attributes).Nodup) :
    ∃ idIndex, b.openElement qx (startOf (emittedTag b.nsStack e)) selfClosing =
        .ok (openedElement b.nsStack e b.paths.length, path, { b with
          nsStack := if selfClosing then b.nsStack else e.namespacesDeclaredHere :: b.nsStack
          paths := b.paths ++ [path]
          idIndex := idIndex }) ∧
      idIndex.map Prod.fst = b.idIndex.map Prod.fst ++ idValues e.attributes := by
  have hattrs : idValues (e.attributes.map
      (rereadAttribute (e.namespacesDeclaredHere :: b.nsStack))) = idValues e.attributes :=
    idValues_reread _ _
  obtain ⟨idIndex, hindex, hkeys⟩ := @exists_registerIds b.paths.length
    (e.attributes.map (rereadAttribute (e.namespacesDeclaredHere :: b.nsStack))) b.idIndex
    (by rwa [hattrs])
  refine ⟨idIndex, ?_, by rw [hkeys, hattrs]⟩
  have hname : (startOf (emittedTag b.nsStack e)).name = (emittedTag b.nsStack e).name := rfl
  rw [TreeBuilder.openElement, collectAttributes_emitted lawful b.limits hback hcount, ok_bind,
    hname]
  dsimp only
  rw [hback.resolves, ok_bind, resolveAttributes_emitted hback, ok_bind, hpath, ok_bind,
    if_pos hpaths, hindex, ok_bind]
  rfl

/-! ## Character data -/

namespace TreeBuilder

theorem feedAll_append (b : TreeBuilder) (front back : List (Except Str Event)) :
    b.feedAll qx (front ++ back) = (do
      let b ← b.feedAll qx front
      b.feedAll qx back) := by
  induction front generalizing b with
  | nil => rfl
  | cons item rest ih =>
      cases item with
      | error err => rfl
      | ok event =>
          rw [List.cons_append, feedAll, feedAll, bind_assoc]
          congr 1
          funext next
          exact ih next

/-- Appending two fragments is appending them as one. -/
theorem appendText_append (b : TreeBuilder) (s t : Str) :
    b.appendText (s ++ t) = (do
      let b ← b.appendText s
      b.appendText t) := by
  by_cases hs : Text.byteLen b.pendingText + Text.byteLen s > b.limits.maxTextLength
  · have hboth : Text.byteLen b.pendingText + Text.byteLen (s ++ t) > b.limits.maxTextLength := by
      rw [Text.byteLen_append]
      omega
    rw [appendText, if_pos hboth, appendText, if_pos hs]
    rfl
  · have hfirst : b.appendText s = .ok { b with pendingText := b.pendingText ++ s } := by
      rw [appendText, if_neg hs]
    rw [hfirst, ok_bind]
    simp only [appendText, Text.byteLen_append, List.append_assoc, Nat.add_assoc]

theorem feedAll_mergeWith (b : TreeBuilder) (ts : List Token)
    (hchars : ∀ text, Token.chars text ∈ ts → text ≠ []) :
    (b.feedAll qx ((Markup.mergeWith Markup.flush [] ts).map eventOf) =
      b.feedAll qx (ts.map eventOf)) ∧
    ∀ pending, pending ≠ [] →
      b.feedAll qx ((Markup.mergeWith Markup.flush pending ts).map eventOf) = (do
        let b ← b.appendText pending
        b.feedAll qx (ts.map eventOf)) := by
  induction ts generalizing b with
  | nil =>
      refine ⟨rfl, ?_⟩
      intro pending hpending
      cases pending with
      | nil => exact absurd rfl hpending
      | cons c rest => rfl
  | cons token rest ih =>
      have hrest := fun b => ih b fun text h => hchars text (List.mem_cons_of_mem _ h)
      by_cases hrun : ∃ text, token = .chars text
      · obtain ⟨text, rfl⟩ := hrun
        have htext := hchars text List.mem_cons_self
        refine ⟨(hrest b).2 text htext, ?_⟩
        intro pending hpending
        have hjoined := (hrest b).2 (pending ++ text) (by simp [hpending])
        rw [Markup.mergeWith, hjoined, appendText_append, bind_assoc]
        rfl
      · have hmerge : ∀ pending, Markup.mergeWith Markup.flush pending (token :: rest) =
            Markup.flush pending ++ token :: Markup.mergeWith Markup.flush [] rest := by
          intro pending
          cases token with
          | chars text => exact absurd ⟨text, rfl⟩ hrun
          | _ => rfl
        have hsplit : ∀ b : TreeBuilder,
            b.feedAll qx ((token :: Markup.mergeWith Markup.flush [] rest).map eventOf) =
              b.feedAll qx ((token :: rest).map eventOf) := by
          intro b
          rw [List.map_cons, List.map_cons]
          cases eventOf token with
          | error err => rfl
          | ok event =>
              rw [feedAll, feedAll]
              congr 1
              funext next
              exact (hrest next).1
        refine ⟨by rw [hmerge]; exact hsplit b, ?_⟩
        intro pending hpending
        cases pending with
        | nil => exact absurd rfl hpending
        | cons c more =>
            have hflush : b.feedAll qx ((Markup.flush (c :: more)).map eventOf) =
                b.appendText (c :: more) := bind_pure _
            rw [hmerge, List.map_append, feedAll_append, hflush]
            congr 1
            funext next
            exact hsplit next

theorem feedAll_merge (b : TreeBuilder) {ts : List Token}
    (hchars : ∀ text, Token.chars text ∈ ts → text ≠ []) :
    b.feedAll qx ((Markup.merge ts).map eventOf) = b.feedAll qx (ts.map eventOf) :=
  (feedAll_mergeWith b ts hchars).1

end TreeBuilder

/-- The tokens of a markup tree have no empty run of characters. -/
theorem chars_tokens :
    (∀ m : Markup, ∀ text, Token.chars text ∈ Markup.tokens m → text ≠ []) ∧
      ∀ ms : List Markup, ∀ text, Token.chars text ∈ Markup.tokensAll ms → text ≠ [] := by
  apply Markup.induct
  case element =>
    intro tag content ih text h
    simp only [Markup.tokens, List.mem_cons, List.mem_append, reduceCtorEq, false_or,
      List.not_mem_nil, or_false] at h
    exact ih text h
  case empty => simp [Markup.tokens]
  case char => simp [Markup.tokens]
  case ref => simp [Markup.tokens]
  case comment => simp [Markup.tokens]
  case nil => simp
  case cons =>
    intro m rest hm hrest text h
    rw [Markup.tokensAll_cons, List.mem_append] at h
    exact h.elim (hm text) (hrest text)

/-- An escaped character is appended as the character it was. -/
theorem feedAll_textChar (lawful : qx.Lawful) (b : TreeBuilder) (c : Char) :
    b.feedAll qx ((Markup.tokens (textMarkup c)).map eventOf) = b.appendText [c] := by
  have hunescape : ∀ name d, (name, d) ∈ references →
      qx.unescape ("&" ++ name ++ ";") = .ok [d] := by
    intro name d hmem
    have hres := lawful.unescape_ref name d [] [] hmem lawful.unescape_nil
    simpa using hres
  have href : ∀ name d, (name, d) ∈ references →
      b.feedAll qx ([Token.ref name].map eventOf) = b.appendText [d] := by
    intro name d hmem
    rw [List.map_cons, eventOf, TreeBuilder.feedAll, TreeBuilder.feed, hunescape name d hmem]
    exact bind_pure _
  fun_cases textMarkup c with
  | case1 => exact href "amp" '&' (by decide)
  | case2 => exact href "lt" '<' (by decide)
  | case3 => exact href "gt" '>' (by decide)
  | case4 => exact href "#13" '\r' (by decide)
  | case5 => exact bind_pure _

/-- Character data comes back as the text it was escaped from. -/
theorem feedAll_textMarkup (lawful : qx.Lawful) (b : TreeBuilder) (t : Str)
    (h : Text.byteLen (b.pendingText ++ t) ≤ b.limits.maxTextLength) :
    b.feedAll qx ((Markup.tokensAll (t.map textMarkup)).map eventOf) =
      .ok { b with pendingText := b.pendingText ++ t } := by
  induction t generalizing b with
  | nil => simp [TreeBuilder.feedAll]
  | cons c rest ih =>
      rw [List.map_cons, Markup.tokensAll_cons, List.map_append, TreeBuilder.feedAll_append,
        feedAll_textChar lawful]
      simp only [Text.byteLen_append, Text.byteLen_cons] at h
      have hfits : ¬ Text.byteLen b.pendingText + Text.byteLen [c] > b.limits.maxTextLength := by
        simp only [Text.byteLen_cons, Text.byteLen_nil]
        omega
      rw [TreeBuilder.appendText, if_neg hfits, ok_bind, ih]
      · simp
      · simp only [Text.byteLen_append, Text.byteLen_cons, Text.byteLen_nil]
        omega

/-! ## Growing an open element -/

/-- The innermost open element has taken in nodes; nothing is pending. -/
structure Grown (b next : TreeBuilder) (added : List Node) : Prop where
  limits : next.limits = b.limits
  scope : next.nsStack = b.nsStack
  root : next.completedRoot = b.completedRoot
  pending : next.pendingText = []
  stack : ∃ frame outer nodes, b.stack = frame :: outer ∧
    next.stack = { frame with
      element := { frame.element with children := frame.element.children ++ nodes } } :: outer ∧
    nodes.map unnumberedNode = added
  nodes : next.totalNodes = b.totalNodes + sizeChildren added
  paths : next.paths.length ≤ b.paths.length + sizeChildren added
  ids : next.idIndex.map Prod.fst = b.idIndex.map Prod.fst ++ idsOfChildren added

theorem Grown.trans {b mid next : TreeBuilder} {first second : List Node}
    (h : Grown b mid first) (h' : Grown mid next second) : Grown b next (first ++ second) := by
  obtain ⟨frame, outer, nodes, hb, hmid, hadded⟩ := h.stack
  obtain ⟨frame', outer', nodes', hmid', hnext, hadded'⟩ := h'.stack
  rw [hmid] at hmid'
  obtain ⟨rfl, rfl⟩ := List.cons.inj hmid'
  refine ⟨h'.limits.trans h.limits, h'.scope.trans h.scope, h'.root.trans h.root, h'.pending,
    ⟨frame, outer, nodes ++ nodes', hb, ?_, ?_⟩, ?_, ?_, ?_⟩
  · rw [hnext]
    simp
  · rw [List.map_append, hadded, hadded']
  · rw [h'.nodes, h.nodes, sizeChildren_append]
    omega
  · have hfirst := h.paths
    have hsecond := h'.paths
    rw [sizeChildren_append]
    omega
  · rw [h'.ids, h.ids, idsOfChildren_append, List.append_assoc]

theorem Grown.exists_frame {b next : TreeBuilder} {added : List Node} (h : Grown b next added) :
    ∃ frame outer, next.stack = frame :: outer := by
  obtain ⟨frame, outer, nodes, _, hnext, _⟩ := h.stack
  exact ⟨_, _, hnext⟩

theorem Grown.length {b next : TreeBuilder} {added : List Node} (h : Grown b next added) :
    next.stack.length = b.stack.length := by
  obtain ⟨frame, outer, nodes, hb, hnext, _⟩ := h.stack
  rw [hb, hnext, List.length_cons, List.length_cons]

/-- Step: the pending run of character data becomes a node. -/
theorem flushText_grown {b : TreeBuilder} {frame : StackFrame} {outer : List StackFrame}
    (hstack : b.stack = frame :: outer)
    (hnodes : b.totalNodes + sizeChildren (textNodes b.pendingText) ≤ b.limits.maxTotalNodes) :
    ∃ next, b.flushText = .ok next ∧ Grown b next (textNodes b.pendingText) := by
  cases hpending : b.pendingText with
  | nil =>
      refine ⟨b, by simp [TreeBuilder.flushText, hpending], rfl, rfl, rfl, hpending,
        ⟨frame, outer, [], hstack, by simp [hstack], rfl⟩, ?_, ?_, ?_⟩
      · simp [textNodes]
      · simp [textNodes]
      · simp [textNodes, idsOfChildren]
  | cons c rest =>
      have hrun : textNodes (c :: rest) = [.text (c :: rest)] := rfl
      have hsize : sizeChildren (textNodes (c :: rest)) = 1 := by
        rw [hrun, sizeChildren_cons, sizeNode_text, sizeChildren_nil]
      rw [hpending, hsize] at hnodes
      refine ⟨{ b with
          pendingText := []
          totalNodes := b.totalNodes + 1
          stack := { frame with
            element := { frame.element with
              children := frame.element.children ++ [.text (c :: rest)] } } :: outer },
        ?_, rfl, rfl, rfl, rfl, ⟨frame, outer, [.text (c :: rest)], hstack, rfl, rfl⟩, ?_, ?_, ?_⟩
      · rw [TreeBuilder.flushText, hpending]
        simp only [TreeBuilder.pushText, hstack, TreeBuilder.bumpNodes, TreeBuilder.pushChild]
        rw [if_neg (by omega)]
        rfl
      · rw [hsize]
      · rw [hsize]
        exact Nat.le_add_right _ _
      · simp [textNodes, idsOfChildren, idsOfNode]

theorem length_le_sizeChildren (nodes : List Node) : nodes.length ≤ sizeChildren nodes := by
  induction nodes with
  | nil => simp
  | cons node rest ih =>
      have hone := one_le_sizeNode node
      rw [List.length_cons, sizeChildren_cons]
      omega

/-- There is room for more nodes in the innermost open element, and their `ID`
values are new. -/
structure Room (b : TreeBuilder) (added : List Node) : Prop where
  nodes : b.totalNodes + sizeChildren added ≤ b.limits.maxTotalNodes
  paths : b.paths.length + sizeChildren added ≤ U32_BOUND
  children : ∀ frame outer, b.stack = frame :: outer →
    frame.element.children.length + sizeChildren added ≤ U32_BOUND
  ids : (b.idIndex.map Prod.fst ++ idsOfChildren added).Nodup

theorem Room.left {b : TreeBuilder} {first second : List Node} (h : Room b (first ++ second)) :
    Room b first := by
  obtain ⟨hnodes, hpaths, hchildren, hids⟩ := h
  rw [sizeChildren_append] at hnodes hpaths
  refine ⟨by omega, by omega, ?_, ?_⟩
  · intro frame outer hstack
    have hroom := hchildren frame outer hstack
    rw [sizeChildren_append] at hroom
    omega
  · rw [idsOfChildren_append, ← List.append_assoc] at hids
    exact hids.of_append_left

/-- What is left of the room after a part of the nodes. -/
theorem Room.grown {b next : TreeBuilder} {first second : List Node}
    (h : Room b (first ++ second)) (hgrown : Grown b next first) : Room next second := by
  obtain ⟨hnodes, hpaths, hchildren, hids⟩ := h
  rw [sizeChildren_append] at hnodes hpaths
  have hused := hgrown.paths
  refine ⟨?_, by omega, ?_, ?_⟩
  · rw [hgrown.nodes, hgrown.limits]
    omega
  · intro frame outer hstack
    obtain ⟨old, outer', nodes, hb, hnext, hadded⟩ := hgrown.stack
    rw [hnext] at hstack
    obtain ⟨rfl, rfl⟩ := List.cons.inj hstack
    have hroom := hchildren old outer' hb
    have hlength : nodes.length ≤ sizeChildren first := by
      rw [← hadded]
      simpa using length_le_sizeChildren (nodes.map unnumberedNode)
    rw [sizeChildren_append] at hroom
    simp only [List.length_append]
    omega
  · rw [hgrown.ids, List.append_assoc, ← idsOfChildren_append]
    exact hids

/-- An element has been read up to its end; it is not attached yet. -/
structure Finished (b next : TreeBuilder) (element : Element) (expected : Element) : Prop where
  limits : next.limits = b.limits
  scope : next.nsStack = b.nsStack
  root : next.completedRoot = b.completedRoot
  pending : next.pendingText = []
  stack : next.stack = b.stack
  nodes : next.totalNodes = b.totalNodes + size expected
  paths : next.paths.length ≤ b.paths.length + size expected
  ids : next.idIndex.map Prod.fst = b.idIndex.map Prod.fst ++ idsOf expected
  element : unnumbered element = expected

/-- Room for one element is room for its start tag and then for its children. -/
theorem Room.element {b : TreeBuilder} {e : Element} (h : Room b [.element e]) :
    b.totalNodes + 1 + sizeChildren e.children ≤ b.limits.maxTotalNodes ∧
      b.paths.length + 1 + sizeChildren e.children ≤ U32_BOUND ∧
      (b.idIndex.map Prod.fst ++ idValues e.attributes ++ idsOfChildren e.children).Nodup := by
  obtain ⟨hnodes, hpaths, -, hids⟩ := h
  simp only [sizeChildren_cons, sizeNode_element, sizeChildren_nil, size_eq e] at hnodes hpaths
  rw [idsOfChildren, idsOfNode, idsOf_eq e, idsOfChildren, List.append_nil,
    ← List.append_assoc] at hids
  exact ⟨by omega, by omega, hids⟩

/-- The path of the next element, as long as there is room for one. -/
theorem Room.exists_nextPath {b : TreeBuilder} {e : Element} (h : Room b [.element e]) :
    ∃ path, b.nextPath = .ok path := by
  unfold TreeBuilder.nextPath
  cases hstack : b.stack with
  | nil => exact ⟨_, rfl⟩
  | cons frame outer =>
      have hroom := h.children frame outer hstack
      rw [sizeChildren_cons] at hroom
      have hone := one_le_sizeNode (.element e)
      dsimp only
      rw [if_pos (by omega)]
      exact ⟨_, rfl⟩

/-- The expected element, in terms of its parts. -/
theorem reread_eq (nsStack : List NsLayer) (e : Element) :
    reread nsStack e =
      { openedElement nsStack e 0 with
        children := rereadChildren (e.namespacesDeclaredHere :: nsStack) [] e.children } := by
  obtain ⟨qname, sourcePrefix, declared, attributes, children, id⟩ := e
  rw [reread]
  rfl

/-- Step: the start tag of an element, with nothing pending. -/
theorem feed_startTag (lawful : qx.Lawful) {b : TreeBuilder} {e : Element} (selfClosing : Bool)
    (hback : WritesBack b.nsStack e)
    (hcount : e.namespacesDeclaredHere.length + e.attributes.length ≤
      b.limits.maxAttributeCount)
    (hroom : Room b [.element (reread b.nsStack e)]) :
    ∃ idIndex path, (do
        let counted ← b.bumpNodes
        counted.openElement qx (startOf (emittedTag b.nsStack e)) selfClosing) =
        .ok (openedElement b.nsStack e b.paths.length, path, { b with
          totalNodes := b.totalNodes + 1
          nsStack := if selfClosing then b.nsStack else e.namespacesDeclaredHere :: b.nsStack
          paths := b.paths ++ [path]
          idIndex := idIndex }) ∧
      idIndex.map Prod.fst = b.idIndex.map Prod.fst ++ idValues e.attributes := by
  obtain ⟨hnodes, hpaths, hids⟩ := hroom.element
  obtain ⟨path, hpath⟩ := hroom.exists_nextPath
  rw [reread_eq] at hids
  have hattrs : idValues (openedElement b.nsStack e 0).attributes = idValues e.attributes :=
    idValues_reread _ _
  rw [hattrs] at hids
  obtain ⟨idIndex, hopen, hkeys⟩ := openElement_emitted lawful
    (b := { b with totalNodes := b.totalNodes + 1 }) selfClosing hback hcount hpath
    (by dsimp only; omega) hids.of_append_left
  refine ⟨idIndex, path, ?_, hkeys⟩
  rw [TreeBuilder.bumpNodes, if_neg (by omega), ok_bind]
  exact hopen

/-- Nothing pending is flushed without effect. -/
theorem flushText_of_nil {b : TreeBuilder} (h : b.pendingText = []) : b.flushText = .ok b := by
  rw [TreeBuilder.flushText, h]

/-- An event that is not character data ends the pending run. -/
theorem feedAll_structural {b flushed : TreeBuilder} (hflush : b.flushText = .ok flushed)
    {event : Event} (h : b.feed qx event = (do
      let b ← b.flushText
      b.feedStructural qx event)) :
    b.feedAll qx [.ok event] = flushed.feedStructural qx event := by
  rw [TreeBuilder.feedAll, h, hflush, ok_bind]
  exact bind_pure _

/-- An element without content is read as it was written. -/
theorem feed_collapsed (lawful : qx.Lawful) {b : TreeBuilder} {e : Element}
    (hpending : b.pendingText = []) (hchildren : e.children = [])
    (hback : WritesBack b.nsStack e)
    (hcount : e.namespacesDeclaredHere.length + e.attributes.length ≤
      b.limits.maxAttributeCount)
    (hroom : Room b [.element (reread b.nsStack e)]) :
    ∃ next element, b.feedAll qx [.ok (.empty (startOf (emittedTag b.nsStack e)))] =
        next.closeElement element ∧ Finished b next element (reread b.nsStack e) := by
  obtain ⟨idIndex, path, hstart, hkeys⟩ := feed_startTag lawful true hback hcount hroom
  have hexpected : reread b.nsStack e = openedElement b.nsStack e 0 := by
    rw [reread_eq, hchildren, rereadChildren]
    rfl
  have hsize : size (openedElement b.nsStack e 0) = 1 := by
    rw [size_eq]
    simp [openedElement]
  have hfed : b.feedAll qx [.ok (.empty (startOf (emittedTag b.nsStack e)))] =
      { b with
        totalNodes := b.totalNodes + 1
        paths := b.paths ++ [path]
        idIndex := idIndex }.closeElement (openedElement b.nsStack e b.paths.length) := by
    obtain ⟨counted, hcounted, hopen⟩ := bind_eq_ok_iff.mp hstart
    rw [feedAll_structural (flushText_of_nil hpending) rfl, TreeBuilder.feedStructural, hcounted,
      ok_bind, hopen, ok_bind]
    rfl
  refine ⟨_, _, hfed, rfl, rfl, rfl, hpending, rfl, ?_, ?_, ?_, ?_⟩
  · rw [hexpected, hsize]
  · rw [hexpected, hsize]
    simp
  · rw [hexpected, idsOf_eq]
    simpa [openedElement, idValues_reread, idsOfChildren] using hkeys
  · rw [hexpected, openedElement, unnumbered, unnumberedChildren]
    rfl

/-- An element with content is read as it was written once its content is. -/
theorem feed_element (lawful : qx.Lawful) {b : TreeBuilder} {e : Element}
    (hpending : b.pendingText = []) (hback : WritesBack b.nsStack e)
    (hcount : e.namespacesDeclaredHere.length + e.attributes.length ≤
      b.limits.maxAttributeCount)
    (hdepth : b.stack.length + 1 ≤ b.limits.maxDepth)
    (hroom : Room b [.element (reread b.nsStack e)]) {events : List (Except Str Event)}
    (content : ∀ opened : TreeBuilder, opened.limits = b.limits → opened.pendingText = [] →
      opened.nsStack = e.namespacesDeclaredHere :: b.nsStack →
      (∃ frame, opened.stack = frame :: b.stack) →
      Room opened (rereadChildren (e.namespacesDeclaredHere :: b.nsStack) [] e.children) →
      ∃ read full, opened.feedAll qx events = .ok read ∧ read.flushText = .ok full ∧
        Grown opened full
          (rereadChildren (e.namespacesDeclaredHere :: b.nsStack) [] e.children)) :
    ∃ next element, b.feedAll qx (.ok (.start (startOf (emittedTag b.nsStack e))) ::
        (events ++ [.ok (.endTag (emittedTag b.nsStack e).name)])) =
          next.closeElement element ∧ Finished b next element (reread b.nsStack e) := by
  obtain ⟨idIndex, path, hstart, hkeys⟩ := feed_startTag lawful false hback hcount hroom
  obtain ⟨hnodes, hpaths, hids⟩ := hroom.element
  rw [reread_eq] at hnodes hpaths hids
  have hattrs : idValues (openedElement b.nsStack e 0).attributes = idValues e.attributes :=
    idValues_reread _ _
  rw [hattrs, ← hkeys] at hids
  obtain ⟨opened, hopened⟩ : ∃ opened : TreeBuilder, opened = { b with
      stack := ⟨openedElement b.nsStack e b.paths.length, path⟩ :: b.stack
      totalNodes := b.totalNodes + 1
      nsStack := e.namespacesDeclaredHere :: b.nsStack
      paths := b.paths ++ [path]
      idIndex := idIndex } := ⟨_, rfl⟩
  have hlength : (b.paths ++ [path]).length = b.paths.length + 1 := List.length_append
  have hroomInside : Room opened
      (rereadChildren (e.namespacesDeclaredHere :: b.nsStack) [] e.children) := by
    rw [hopened]
    refine ⟨hnodes, ?_, ?_, hids⟩
    · dsimp only
      rw [hlength]
      exact hpaths
    · intro frame outer hstack
      obtain ⟨rfl, -⟩ := List.cons.inj hstack
      simp only [openedElement, List.length_nil]
      dsimp only at hpaths
      omega
  obtain ⟨read, full, hread, hfull, hgrown⟩ := content opened (by rw [hopened])
    (by rw [hopened]; exact hpending) (by rw [hopened]) ⟨_, by rw [hopened]⟩ hroomInside
  obtain ⟨frame, outer, nodes, hstack, hnext, hadded⟩ := hgrown.stack
  rw [hopened] at hstack
  obtain ⟨rfl, rfl⟩ := List.cons.inj hstack
  have hfed : b.feedAll qx [.ok (.start (startOf (emittedTag b.nsStack e)))] = .ok opened := by
    obtain ⟨counted, hcounted, hopen⟩ := bind_eq_ok_iff.mp hstart
    rw [feedAll_structural (flushText_of_nil hpending) rfl, TreeBuilder.feedStructural, hcounted,
      ok_bind, hopen, ok_bind]
    dsimp only
    rw [if_neg (by simpa using hdepth), if_neg Bool.false_ne_true, hopened]
  have hactual : (QxQName.decompose (emittedTag b.nsStack e).name).1 = e.qname.localName :=
    (resolveQName_eq_ok_iff.mp hback.resolves).1.symm
  have hclosed : read.feedAll qx [.ok (.endTag (emittedTag b.nsStack e).name)] =
      { full with stack := b.stack, nsStack := full.nsStack.tail }.closeElement
        { openedElement b.nsStack e b.paths.length with children := nodes } := by
    rw [feedAll_structural hfull rfl, TreeBuilder.feedStructural, hnext]
    dsimp only
    rw [hactual, if_neg (by simp [openedElement])]
    simp [openedElement]
  have hstackFull : full.limits = b.limits ∧ full.nsStack.tail = b.nsStack ∧
      full.completedRoot = b.completedRoot := by
    refine ⟨by rw [hgrown.limits, hopened], ?_, by rw [hgrown.root, hopened]⟩
    rw [hgrown.scope, hopened]
    rfl
  have hsize : size (reread b.nsStack e) = sizeChildren
      (rereadChildren (e.namespacesDeclaredHere :: b.nsStack) [] e.children) + 1 := by
    rw [reread_eq, size_eq]
  have hall : b.feedAll qx (.ok (.start (startOf (emittedTag b.nsStack e))) ::
      (events ++ [.ok (.endTag (emittedTag b.nsStack e).name)])) =
        { full with stack := b.stack, nsStack := full.nsStack.tail }.closeElement
          { openedElement b.nsStack e b.paths.length with children := nodes } := by
    rw [← List.singleton_append, TreeBuilder.feedAll_append, hfed, ok_bind,
      TreeBuilder.feedAll_append, hread, ok_bind, hclosed]
  refine ⟨_, _, hall, hstackFull.1, hstackFull.2.1, hstackFull.2.2, hgrown.pending, rfl, ?_, ?_,
    ?_, ?_⟩
  · have hcount := hgrown.nodes
    rw [hopened] at hcount
    dsimp only at hcount ⊢
    omega
  · have hcount := hgrown.paths
    rw [hopened] at hcount
    dsimp only at hcount ⊢
    omega
  · have hkept := hgrown.ids
    rw [hopened] at hkept
    rw [reread_eq, idsOf_eq, hattrs]
    dsimp only at hkept ⊢
    rw [hkept, hkeys, List.append_assoc]
  · rw [reread_eq, unnumbered, unnumberedChildren_eq, hadded]
    rfl

/-- A finished element is attached to the innermost open one. -/
theorem Finished.attach {b next : TreeBuilder} {element expected : Element}
    (h : Finished b next element expected) {frame : StackFrame} {outer : List StackFrame}
    (hstack : b.stack = frame :: outer) :
    ∃ full, next.closeElement element = .ok full ∧ Grown b full [.element expected] := by
  have hnext : next.stack = frame :: outer := h.stack.trans hstack
  refine ⟨next.pushChild (.element element), by rw [TreeBuilder.closeElement, hnext], ?_⟩
  rw [TreeBuilder.pushChild, hnext]
  refine ⟨h.limits, h.scope, h.root, h.pending,
    ⟨frame, outer, [.element element], hstack, rfl, ?_⟩, ?_, ?_, ?_⟩
  · rw [List.map_singleton, unnumberedNode, h.element]
  · simpa using h.nodes
  · simpa using h.paths
  · simpa [idsOfChildren, idsOfNode] using h.ids

/-- Step: a comment. -/
theorem feed_comment {b : TreeBuilder} {c : Str} {frame : StackFrame} {outer : List StackFrame}
    (hpending : b.pendingText = []) (hstack : b.stack = frame :: outer)
    (hlength : Text.byteLen c ≤ b.limits.maxTextLength) (hroom : Room b [.comment c]) :
    ∃ full, b.feedAll qx [.ok (.comment c)] = .ok full ∧ Grown b full [.comment c] := by
  have hsize : sizeChildren [.comment c] = 1 := by
    rw [sizeChildren_cons, sizeChildren_nil, sizeNode]
  have hnodes := hroom.nodes
  rw [hsize] at hnodes
  refine ⟨{ b with totalNodes := b.totalNodes + 1 }.pushChild (.comment c), ?_, ?_⟩
  · rw [feedAll_structural (flushText_of_nil hpending) rfl, TreeBuilder.feedStructural,
      if_neg (by omega), TreeBuilder.bumpNodes, if_neg (by omega)]
    rfl
  · rw [TreeBuilder.pushChild, hstack]
    refine ⟨rfl, rfl, rfl, hpending, ⟨frame, outer, [.comment c], hstack, rfl, rfl⟩, ?_, ?_, ?_⟩
    · rw [hsize]
    · rw [hsize]
      exact Nat.le_add_right _ _
    · simp [idsOfChildren, idsOfNode]

/-- Any other token ends the pending run first. -/
theorem feedAll_flushed {b flushed : TreeBuilder} (hflush : b.flushText = .ok flushed)
    (hpending : flushed.pendingText = []) {event : Event} {events : List (Except Str Event)}
    (h : ∀ b : TreeBuilder, b.feed qx event = (do
      let b ← b.flushText
      b.feedStructural qx event)) :
    b.feedAll qx (.ok event :: events) = flushed.feedAll qx (.ok event :: events) := by
  rw [TreeBuilder.feedAll, TreeBuilder.feedAll, h, h, hflush, flushText_of_nil hpending]

/-- The tokens of an element start with its start tag. -/
theorem tokens_marked (nsStack : List NsLayer) (e : Element) :
    (e.children = [] ∧ (Markup.tokens (marked nsStack e)).map eventOf =
      [.ok (.empty (startOf (emittedTag nsStack e)))]) ∨
    (e.children ≠ [] ∧ (Markup.tokens (marked nsStack e)).map eventOf =
      .ok (.start (startOf (emittedTag nsStack e))) ::
        ((Markup.tokensAll (markedChildren (e.namespacesDeclaredHere :: nsStack) e.children)).map
          eventOf ++ [.ok (.endTag (emittedTag nsStack e).name)])) := by
  obtain ⟨qname, sourcePrefix, declared, attributes, children, id⟩ := e
  rw [marked]
  cases children with
  | nil => exact .inl ⟨rfl, rfl⟩
  | cons child rest =>
      refine .inr ⟨by simp, ?_⟩
      simp [Markup.tokens, eventOf]

/-- Run: the tokens of a tree that writes back build the tree again. -/
theorem feedAll_marked (lawful : qx.Lawful) :
    (∀ (e : Element) (b : TreeBuilder), b.pendingText = [] → Scoped WritesBack b.nsStack e →
      Fits b.limits b.stack.length e → Room b [.element (reread b.nsStack e)] →
        ∃ next element, b.feedAll qx ((Markup.tokens (marked b.nsStack e)).map eventOf) =
            next.closeElement element ∧ Finished b next element (reread b.nsStack e)) ∧
    ∀ (nodes : List Node) (b : TreeBuilder),
      (∃ frame outer, b.stack = frame :: outer) →
      (∀ child, Node.element child ∈ nodes → Scoped WritesBack b.nsStack child) →
      FitsChildren b.limits b.stack.length b.pendingText nodes →
      Room b (rereadChildren b.nsStack b.pendingText nodes) →
        ∃ read full, b.feedAll qx
              ((Markup.tokensAll (markedChildren b.nsStack nodes)).map eventOf) = .ok read ∧
            read.flushText = .ok full ∧
            Grown b full (rereadChildren b.nsStack b.pendingText nodes) := by
  apply Element.induct
  case mk =>
    intro e ih b hpending hback hfits hroom
    obtain ⟨hself, hbelow⟩ := scoped_iff.mp hback
    obtain ⟨hcount, hdepth, hcontent⟩ : e.namespacesDeclaredHere.length + e.attributes.length ≤
        b.limits.maxAttributeCount ∧ (e.children ≠ [] → b.stack.length + 1 ≤ b.limits.maxDepth) ∧
        FitsChildren b.limits (b.stack.length + 1) [] e.children := by
      obtain ⟨qname, sourcePrefix, declared, attributes, children, id⟩ := e
      rwa [Fits] at hfits
    rcases tokens_marked b.nsStack e with ⟨hempty, htokens⟩ | ⟨hfull, htokens⟩
    · rw [htokens]
      exact feed_collapsed lawful hpending hempty hself hcount hroom
    · rw [htokens]
      apply feed_element lawful hpending hself hcount (hdepth hfull) hroom
      intro opened hlimits hnone hscope hframe hinside
      obtain ⟨frame, hstack⟩ := hframe
      have hbelow' : ∀ child, Node.element child ∈ e.children →
          Scoped WritesBack opened.nsStack child := by
        intro child hchild
        rw [hscope]
        exact hbelow child (ElementOf.mem_childElements.mpr hchild)
      have hgrown := ih opened ⟨frame, b.stack, hstack⟩ hbelow'
        (by rw [hlimits, hnone, hstack]; exact hcontent) (by rw [hscope, hnone]; exact hinside)
      rwa [hscope, hnone] at hgrown
  case nil =>
    intro b hstack _ _ hroom
    obtain ⟨frame, outer, hstack⟩ := hstack
    rw [rereadChildren] at hroom ⊢
    obtain ⟨full, hflush, hgrown⟩ := flushText_grown hstack hroom.nodes
    refine ⟨b, full, ?_, hflush, hgrown⟩
    rw [markedChildren]
    rfl
  case element =>
    intro e rest he hrest b hstack hback hfits hroom
    obtain ⟨frame, outer, hstack⟩ := hstack
    rw [FitsChildren] at hfits
    rw [rereadChildren, List.append_cons] at hroom ⊢
    obtain ⟨flushed, hflush, hflushed⟩ := flushText_grown hstack hroom.left.left.nodes
    have hscope := hflushed.scope
    have hroomFlushed := hroom.left.grown hflushed
    obtain ⟨next, element, hfed, hfinished⟩ := he flushed hflushed.pending
      (by rw [hscope]; exact hback e List.mem_cons_self)
      (by rw [hflushed.limits, hflushed.length]; exact hfits.1)
      (by rw [hscope]; exact hroomFlushed)
    rw [hscope] at hfed hfinished
    obtain ⟨frame', outer', hstack'⟩ := hflushed.exists_frame
    obtain ⟨closed, hclosed, hattached⟩ := hfinished.attach hstack'
    have hgrown := hflushed.trans hattached
    obtain ⟨read, full, hread, hfull, hgrownRest⟩ := hrest closed hgrown.exists_frame
      (by
        intro child hchild
        rw [hgrown.scope]
        exact hback child (List.mem_cons_of_mem _ hchild))
      (by rw [hgrown.limits, hgrown.length, hgrown.pending]; exact hfits.2)
      (by rw [hgrown.scope, hgrown.pending]; exact hroom.grown hgrown)
    rw [hgrown.scope, hgrown.pending] at hgrownRest
    rw [hgrown.scope] at hread
    refine ⟨read, full, ?_, hfull, hgrown.trans hgrownRest⟩
    have hstart : b.feedAll qx ((Markup.tokens (marked b.nsStack e)).map eventOf) =
        flushed.feedAll qx ((Markup.tokens (marked b.nsStack e)).map eventOf) := by
      rcases tokens_marked b.nsStack e with ⟨_, htokens⟩ | ⟨_, htokens⟩
      · rw [htokens]
        exact feedAll_flushed hflush hflushed.pending fun _ => rfl
      · rw [htokens]
        exact feedAll_flushed hflush hflushed.pending fun _ => rfl
    rw [markedChildren, Markup.tokensAll_cons, List.map_append, TreeBuilder.feedAll_append, hstart,
      hfed, hclosed, ok_bind, hread]
  case text =>
    intro t rest hrest b hstack hback hfits hroom
    rw [FitsChildren] at hfits
    rw [rereadChildren] at hroom ⊢
    obtain ⟨read, full, hread, hfull, hgrown⟩ :=
      hrest { b with pendingText := b.pendingText ++ t } hstack
        (fun child hchild => hback child (List.mem_cons_of_mem _ hchild)) hfits.2
        ⟨hroom.nodes, hroom.paths, hroom.children, hroom.ids⟩
    refine ⟨read, full, ?_, hfull, hgrown.limits, hgrown.scope, hgrown.root, hgrown.pending,
      hgrown.stack, hgrown.nodes, hgrown.paths, hgrown.ids⟩
    rw [markedChildren, Markup.tokensAll_append, List.map_append, TreeBuilder.feedAll_append,
      feedAll_textMarkup lawful b t hfits.1, ok_bind, hread]
  case comment =>
    intro c rest hrest b hstack hback hfits hroom
    obtain ⟨frame, outer, hstack⟩ := hstack
    rw [FitsChildren] at hfits
    rw [rereadChildren, List.append_cons] at hroom ⊢
    obtain ⟨flushed, hflush, hflushed⟩ := flushText_grown hstack hroom.left.left.nodes
    obtain ⟨frame', outer', hstack'⟩ := hflushed.exists_frame
    obtain ⟨noted, hnoted, hadded⟩ := @feed_comment qx _ _ _ _ hflushed.pending hstack'
      (by rw [hflushed.limits]; exact hfits.1) (hroom.left.grown hflushed)
    have hgrown := hflushed.trans hadded
    obtain ⟨read, full, hread, hfull, hgrownRest⟩ := hrest noted hgrown.exists_frame
      (by
        intro child hchild
        rw [hgrown.scope]
        exact hback child (List.mem_cons_of_mem _ hchild))
      (by rw [hgrown.limits, hgrown.length, hgrown.pending]; exact hfits.2)
      (by rw [hgrown.scope, hgrown.pending]; exact hroom.grown hgrown)
    rw [hgrown.scope, hgrown.pending] at hgrownRest
    rw [hgrown.scope] at hread
    refine ⟨read, full, ?_, hfull, hgrown.trans hgrownRest⟩
    have hevent : (Markup.tokensAll (markedChildren b.nsStack (.comment c :: rest))).map eventOf =
        [.ok (.comment c)] ++
          (Markup.tokensAll (markedChildren b.nsStack rest)).map eventOf := by
      rw [markedChildren]
      rfl
    rw [hevent, TreeBuilder.feedAll_append,
      feedAll_flushed hflush hflushed.pending fun _ => rfl, hnoted, ok_bind, hread]

/-- A tree that writes back and stays within the limits is parsed from its
text, up to handles, prefixes and the cutting of character data. -/
theorem parse_emitted (lawful : qx.Lawful) {root : Element} {text : Str}
    (hemit : emitElement root = .ok text) (hback : Scoped WritesBack [] root)
    {limits : XmlLimits} (hfits : Fits limits 0 root)
    (hsize : size (reread [] root) ≤ limits.maxTotalNodes)
    (hbound : limits.maxTotalNodes ≤ U32_BOUND) (hids : (idsOf (reread [] root)).Nodup) :
    ∃ doc, Document.parseWithLimits qx (Text.asBytes text) limits = .ok doc ∧
      unnumbered doc.root = reread [] root := by
  obtain ⟨hread, hreturn⟩ := readEvents_emitted lawful hemit hback
  have hroom : Room (TreeBuilder.new limits) [.element (reread [] root)] := by
    refine ⟨?_, ?_, ?_, ?_⟩
    · simpa [TreeBuilder.new] using hsize
    · simpa [TreeBuilder.new] using hsize.trans hbound
    · intro frame outer hstack
      cases hstack
    · simpa [TreeBuilder.new, idsOfChildren, idsOfNode] using hids
  obtain ⟨next, element, hfed, hfinished⟩ :=
    (feedAll_marked lawful).1 root (TreeBuilder.new limits) rfl hback hfits hroom
  have hclosed : next.closeElement element = .ok { next with completedRoot := some element } := by
    rw [TreeBuilder.closeElement, hfinished.stack, hfinished.root]
    rfl
  refine ⟨⟨element, next.idIndex, next.paths⟩, ?_, hfinished.element⟩
  have hevents : (TreeBuilder.new limits).feedAll qx (qx.readEvents (Text.asBytes text)) =
      .ok { next with completedRoot := some element } := by
    rw [hread, TreeBuilder.feedAll_merge _ (chars_tokens.1 _)]
    exact hfed.trans hclosed
  rw [Document.parseWithLimits,
    normalizeLineEndings_of_notMem (Text.return_notMem_asBytes hreturn), hevents, ok_bind,
    TreeBuilder.finish, hfinished.stack]
  rfl

end

end Saml.Xml
