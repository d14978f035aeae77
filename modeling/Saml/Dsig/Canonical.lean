import Saml.Dsig.Enveloped
import Saml.Dsig.Writable
import Saml.Xml.Plain

/-!
# Canonical text of built trees

Below a table that gives each namespace one prefix, the exclusive canonical
text of a built tree is decided by the tree alone: neither the declarations
around it nor the way over the wire shows in it.
-/

namespace Saml.Dsig.C14n

open Xml Library

/-- A table of prefixes that gives each namespace one prefix. -/
structure Matched (table : List NsDecl) : Prop extends Xml.PrefixTable table where
  injective : ∀ d ∈ table, ∀ d' ∈ table, d.2 = d'.2 → d.1 = d'.1

/-- The bindings in scope are those of a table, the given ones among them. -/
structure Within (table scope inScope : List NsDecl) : Prop where
  covers : scope ⊆ inScope
  tabled : inScope ⊆ table

/-! ## Bindings of a table -/

section

variable {table scope inScope : List NsDecl}

theorem Matched.eq_of_prefix (h : Matched table) {d d' : NsDecl} (hd : d ∈ table)
    (hd' : d' ∈ table) (hpre : d.1 = d'.1) : d = d' :=
  Prod.ext hpre (h.functional d hd d' hd' hpre)

/-- Overlaying a binding of the table takes no other away. -/
theorem mem_mergeRendered (h : Matched table) {out : List NsDecl} (hout : out ⊆ table)
    {d : NsDecl} (hd : d ∈ table) {x : NsDecl} : x ∈ mergeRendered out d ↔ x ∈ out ∨ x = d := by
  induction out with
  | nil => simp [mergeRendered]
  | cons e rest ih =>
      rw [mergeRendered]
      split
      next hpre =>
        obtain rfl := h.eq_of_prefix (hout List.mem_cons_self) hd hpre
        rw [List.mem_cons]
        tauto
      next =>
        rw [List.mem_cons, List.mem_cons, ih (fun y hy => hout (List.mem_cons_of_mem _ hy)),
          or_assoc]

theorem mem_mergeAll (h : Matched table) {out decls : List NsDecl} (hout : out ⊆ table)
    (hdecls : decls ⊆ table) {x : NsDecl} : x ∈ mergeAll out decls ↔ x ∈ out ∨ x ∈ decls := by
  induction decls generalizing out with
  | nil => simp [mergeAll]
  | cons d rest ih =>
      have hd : d ∈ table := hdecls List.mem_cons_self
      have hstep : mergeAll out (d :: rest) = mergeAll (mergeRendered out d) rest := rfl
      have hmerged : mergeRendered out d ⊆ table := by
        intro y hy
        rcases (mem_mergeRendered h hout hd).mp hy with hy | rfl
        · exact hout hy
        · exact hd
      rw [hstep, ih hmerged (fun y hy => hdecls (List.mem_cons_of_mem _ hy)),
        mem_mergeRendered h hout hd, List.mem_cons, or_assoc]

/-- What an element declares comes into scope. -/
theorem Within.mergeAll (h : Matched table) (within : Within table scope inScope)
    {declared : List NsDecl} (hdeclared : declared ⊆ table) :
    Within table (scope ++ declared) (mergeAll inScope declared) := by
  constructor
  · intro d hd
    rw [mem_mergeAll h within.tabled hdeclared]
    rcases List.mem_append.mp hd with hd | hd
    · exact .inl (within.covers hd)
    · exact .inr hd
  · intro d hd
    rcases (mem_mergeAll h within.tabled hdeclared).mp hd with hd | hd
    · exact within.tabled hd
    · exact hdeclared hd

theorem Matched.isNone_false (h : Matched table) {d : NsDecl} (hd : d ∈ table) :
    d.1.isNone = false := by
  obtain ⟨p, hp, -, -⟩ := h.toPrefixTable.exists_prefix hd
  rw [hp]
  rfl

/-- The prefix of a namespace is that of the table, whatever was recorded. -/
theorem prefixForUri_matched (h : Matched table) (hscope : inScope ⊆ table) {d : NsDecl}
    (hd : d ∈ inScope) (isAttribute : Bool) (sourcePrefix : Option Str) :
    prefixForUri inScope (some d.2) isAttribute sourcePrefix = .ok d.1 := by
  have hbinds : ∀ p, binds inScope p d.2 = true → p = d.1 := by
    intro p hp
    obtain ⟨d', hd', hmatch⟩ := List.any_eq_true.mp hp
    obtain ⟨huri, hpre⟩ := Bool.and_eq_true_iff.mp hmatch
    rw [← of_decide_eq_true hpre]
    exact h.injective d' (hscope hd') d (hscope hd) (of_decide_eq_true huri)
  rw [prefixForUri, if_neg (h.uris d (hscope hd)).2]
  split
  next hhint =>
    cases sourcePrefix with
    | none => cases hhint
    | some hint =>
        rw [Option.any_some, Bool.and_eq_true] at hhint
        rw [hbinds _ hhint.2]
  next =>
    split
    next hdefault => rw [hbinds none (Bool.and_eq_true_iff.mp hdefault).2]
    next =>
      split
      next found hfound =>
        have hmem := List.mem_of_find?_eq_some hfound
        have hmatch := List.find?_some hfound
        have huri := (Bool.and_eq_true_iff.mp hmatch).1
        rw [h.injective found (hscope (List.mem_reverse.mp hmem)) d (hscope hd)
          (of_decide_eq_true huri)]
      next hnone =>
        have hnot := List.find?_eq_none.mp hnone d (List.mem_reverse.mpr hd)
        rw [h.isNone_false (hscope hd)] at hnot
        simp at hnot

theorem lookupInScope_matched (h : Matched table) (hscope : inScope ⊆ table) {d : NsDecl}
    (hd : d ∈ inScope) : lookupInScope inScope d.1 = some d.2 := by
  rw [lookupInScope]
  cases hfind : inScope.reverse.find? fun x => x.1 = d.1 with
  | none =>
      have hnot := List.find?_eq_none.mp hfind d (List.mem_reverse.mpr hd)
      simp at hnot
  | some found =>
      have hmem := List.mem_reverse.mp (List.mem_of_find?_eq_some hfind)
      have hpre := List.find?_some hfind
      rw [h.eq_of_prefix (hscope hmem) (hscope hd) (of_decide_eq_true hpre)]
      rfl

/-! ## Start tags -/

/-- The prefix of an attribute in no namespace or in that of `xml`. -/
def plainPrefix (qname : QName) : Option Str :=
  if qname.namespaceUri = none then none else some "xml"

/-- The text of an attribute in no namespace or in that of `xml`. -/
def attributeText (a : Attribute) : Str :=
  emitPair (qualifiedName (plainPrefix a.qname) a.qname.localName) (attrEscaped a.value)

theorem prefixForUri_plain {qname : QName} (h : PlainKey qname) (inScope : List NsDecl)
    (sourcePrefix : Option Str) :
    prefixForUri inScope qname.namespaceUri true sourcePrefix = .ok (plainPrefix qname) := by
  rw [plainPrefix]
  obtain ⟨-, ⟨hnone, -⟩ | hxml⟩ := h
  · rw [hnone, if_pos rfl]
    rfl
  · rw [hxml, if_neg (by simp), prefixForUri]
    exact if_pos rfl

theorem renderAttribute_plain {a : Attribute} (h : PlainKey a.qname) (inScope : List NsDecl) :
    renderAttribute inScope a = .ok (attributeText (plainAttribute a)) := by
  rw [renderAttribute, prefixForUri_plain h]
  rfl

theorem attributePrefix_plain {a : Attribute} (h : PlainKey a.qname) (inScope : List NsDecl) :
    attributePrefix inScope a = .ok none := by
  rw [attributePrefix]
  obtain ⟨-, ⟨hnone, -⟩ | hxml⟩ := h
  · rw [hnone]
  · rw [hxml]
    exact if_pos rfl

theorem mapM_of_ok {α β : Type} {f : α → Result β} {g : α → β} {l : List α}
    (h : ∀ a ∈ l, f a = .ok (g a)) : l.mapM f = .ok (l.map g) := by
  rw [mapM_eq_ok_iff, List.forall₂_map_right_iff, List.forall₂_same]
  exact h

/-- The start tag of an element with a prefix, showing the given bindings. -/
def openingText (pfx : Option Str) (shown : List NsDecl) (e : Element) : Str :=
  "<" ++ qualifiedName pfx e.qname.localName ++ shown.flatMap renderDecl ++
    (((e.attributes.map plainAttribute).insertionSort attrBefore).map attributeText).flatten ++ ">"

/-- The bindings an element shows: its own, unless it is shown around it. -/
def shownBindings (rendered : List NsDecl) (d : NsDecl) : List NsDecl := addRendered rendered [] d

theorem insertionSort_shownBindings (rendered : List NsDecl) (d : NsDecl) :
    (shownBindings rendered d).insertionSort nsBefore = shownBindings rendered d := by
  unfold shownBindings addRendered pushUnique
  split <;> simp

theorem renderAttributes_plain {attributes : List Attribute}
    (h : ∀ a ∈ attributes, PlainKey a.qname) (inScope : List NsDecl) :
    (attributes.insertionSort attrBefore).mapM (renderAttribute inScope) =
      .ok (((attributes.map plainAttribute).insertionSort attrBefore).map attributeText) := by
  rw [← List.map_insertionSort attrBefore attrBefore plainAttribute attributes
    (fun _ _ _ _ => Iff.rfl), List.map_map]
  apply mapM_of_ok
  intro a ha
  exact renderAttribute_plain (h a ((List.mem_insertionSort _).mp ha)) inScope

/-- Spec of one element: its own binding, its attributes in order, and what is
emitted of its children. -/
theorem emitElement_matched {algorithm : C14nAlgorithm} (exclusive : algorithm.isExclusive = true)
    (h : Matched table) {e : Element} (hscope : mergeAll inScope e.namespacesDeclaredHere ⊆ table)
    {d : NsDecl} (hd : d ∈ mergeAll inScope e.namespacesDeclaredHere)
    (huri : e.qname.namespaceUri = some d.2) (keys : ∀ a ∈ e.attributes, PlainKey a.qname)
    (rendered : List NsDecl) (isApex : Bool) :
    emitElement algorithm [] inScope rendered isApex e =
      (emitChildren algorithm [] (mergeAll inScope e.namespacesDeclaredHere)
        (mergeAll rendered (shownBindings rendered d)) e.children).map fun body =>
          openingText d.1 (shownBindings rendered d) e ++ body ++ "</" ++
            qualifiedName d.1 e.qname.localName ++ ">" := by
  have hname := prefixForUri_matched h hscope hd false e.sourcePrefix
  rw [← huri] at hname
  have hutilized : utilizedPrefixes e (mergeAll inScope e.namespacesDeclaredHere) =
      .ok [d.1] := by
    have hattrs : e.attributes.mapM (attributePrefix (mergeAll inScope
        e.namespacesDeclaredHere)) = .ok (e.attributes.map fun _ => none) :=
      mapM_of_ok fun a ha => attributePrefix_plain (keys a ha) _
    rw [utilizedPrefixes, hname, ok_bind, hattrs, ok_bind]
    have hnone : (e.attributes.map fun _ => (none : Option Str)).filter Option.isSome = [] := by
      simp
    rw [hnone]
    rfl
  have hrendered : computeRenderedNamespaces e (mergeAll inScope e.namespacesDeclaredHere)
      rendered isApex algorithm [] = .ok (shownBindings rendered d) := by
    have hbinding : utilizedBinding (mergeAll inScope e.namespacesDeclaredHere) d.1 = .ok d := by
      unfold utilizedBinding
      rw [lookupInScope_matched h hscope hd]
    rw [computeRenderedNamespaces, if_pos exclusive, computeExclusive, hutilized, ok_bind,
      mapM_singleton, hbinding]
    rfl
  rcases e with ⟨qname, sourcePrefix, declared, attributes, children, id⟩
  rw [emitElement]
  dsimp only at hname hrendered keys ⊢
  rw [hrendered, ok_bind, hname, ok_bind, insertionSort_shownBindings,
    renderAttributes_plain keys, ok_bind]
  cases emitChildren algorithm [] (mergeAll inScope declared)
      (mergeAll rendered (shownBindings rendered d)) children with
  | error err => rfl
  | ok body => simp [openingText, ok_bind, Except.map]

end

/-! ## Reading back -/

theorem emitChildren_append {algorithm : C14nAlgorithm} {prefixes : List Str}
    {scope rendered : List NsDecl} {front back : List Node} {f b : Str}
    (hfront : emitChildren algorithm prefixes scope rendered front = .ok f)
    (hback : emitChildren algorithm prefixes scope rendered back = .ok b) :
    emitChildren algorithm prefixes scope rendered (front ++ back) = .ok (f ++ b) := by
  induction front generalizing f with
  | nil =>
      rw [emitChildren] at hfront
      obtain rfl := Except.ok.inj hfront
      exact hback
  | cons node rest ih =>
      rw [emitChildren] at hfront
      obtain ⟨first, hfirst, hfront⟩ := bind_eq_ok_iff.mp hfront
      obtain ⟨others, hothers, hfront⟩ := bind_eq_ok_iff.mp hfront
      obtain rfl := Except.ok.inj hfront
      rw [List.cons_append, emitChildren, hfirst, ok_bind, ih hothers, ok_bind, List.append_assoc]

theorem emitChildren_textNodes (algorithm : C14nAlgorithm) (prefixes : List Str)
    (scope rendered : List NsDecl) (t : Str) :
    emitChildren algorithm prefixes scope rendered (textNodes t) = .ok (textEscaped t) := by
  cases t with
  | nil => rfl
  | cons c rest => simp [textNodes, emitChildren, emitNode, ok_bind]

@[simp] theorem reread_qname (nsStack : List NsLayer) (e : Element) :
    (reread nsStack e).qname = e.qname := by
  rw [reread_eq]
  rfl

@[simp] theorem reread_namespaces (nsStack : List NsLayer) (e : Element) :
    (reread nsStack e).namespacesDeclaredHere = e.namespacesDeclaredHere := by
  rw [reread_eq]
  rfl

theorem reread_attributes (nsStack : List NsLayer) (e : Element) :
    (reread nsStack e).attributes =
      e.attributes.map (rereadAttribute (e.namespacesDeclaredHere :: nsStack)) := by
  rw [reread_eq]
  rfl

theorem reread_children (nsStack : List NsLayer) (e : Element) :
    (reread nsStack e).children =
      rereadChildren (e.namespacesDeclaredHere :: nsStack) [] e.children := by
  rw [reread_eq]

@[simp] theorem plainAttribute_reread (nsStack : List NsLayer) (a : Attribute) :
    plainAttribute (rereadAttribute nsStack a) = plainAttribute a := rfl

theorem openingText_reread (pfx : Option Str) (shown : List NsDecl) (nsStack : List NsLayer)
    (e : Element) : openingText pfx shown (reread nsStack e) = openingText pfx shown e := by
  have hplain : ((reread nsStack e).attributes.map plainAttribute) =
      e.attributes.map plainAttribute := by
    rw [reread_attributes, List.map_map]
    rfl
  rw [openingText, openingText, hplain, reread_qname]

variable {table : List NsDecl} {algorithm : C14nAlgorithm}

/-- The canonical text of an element, in every scope of the table and also
after it was read back. -/
def Settles (table : List NsDecl) (algorithm : C14nAlgorithm) (scope rendered : List NsDecl)
    (e : Element) (t : Str) : Prop :=
  ∀ inScope, Within table scope inScope → ∀ isApex,
    emitElement algorithm [] inScope rendered isApex e = .ok t ∧
      ∀ nsStack, emitElement algorithm [] inScope rendered isApex (reread nsStack e) = .ok t

/-- The canonical text of child nodes, likewise, after pending character data. -/
def SettlesChildren (table : List NsDecl) (algorithm : C14nAlgorithm)
    (scope rendered : List NsDecl) (nodes : List Node) (t : Str) : Prop :=
  ∀ inScope, Within table scope inScope →
    emitChildren algorithm [] inScope rendered nodes = .ok t ∧
      ∀ nsStack pending, emitChildren algorithm [] inScope rendered
        (rereadChildren nsStack pending nodes) = .ok (textEscaped pending ++ t)

/-- Built trees have one canonical text. -/
theorem exists_settles (exclusive : algorithm.isExclusive = true) (matched : Matched table) :
    (∀ (e : Element) (scope rendered : List NsDecl), Writable table scope e →
      ∃ t, Settles table algorithm scope rendered e t) ∧
    ∀ (nodes : List Node) (scope rendered : List NsDecl), (∀ c, .comment c ∉ nodes) →
      (∀ child, .element child ∈ nodes → Writable table scope child) →
        ∃ t, SettlesChildren table algorithm scope rendered nodes t := by
  apply Element.induct
  case mk =>
    intro e ih scope rendered h
    obtain ⟨hdeclared, -, -, ⟨d, hd, huri⟩, hkeys, -, hcomments, hbelow⟩ := h
    obtain ⟨body, hbody⟩ := ih (scope ++ e.namespacesDeclaredHere)
      (mergeAll rendered (shownBindings rendered d)) hcomments hbelow
    refine ⟨openingText d.1 (shownBindings rendered d) e ++ body ++ "</" ++
      qualifiedName d.1 e.qname.localName ++ ">", ?_⟩
    intro inScope within isApex
    have hwithin := within.mergeAll matched hdeclared
    obtain ⟨hbuilt, hreread⟩ := hbody _ hwithin
    constructor
    · rw [emitElement_matched exclusive matched hwithin.tabled (hwithin.covers hd) huri hkeys,
        hbuilt]
      rfl
    · intro nsStack
      have hplain : ∀ a ∈ (reread nsStack e).attributes, PlainKey a.qname := by
        rw [reread_attributes]
        intro a ha
        obtain ⟨b, hb, rfl⟩ := List.mem_map.mp ha
        exact hkeys b hb
      have hdecls := reread_namespaces nsStack e
      rw [emitElement_matched exclusive matched (hdecls ▸ hwithin.tabled)
        (hdecls ▸ hwithin.covers hd) (reread_qname nsStack e ▸ huri) hplain, reread_children,
        hdecls, hreread _ [], openingText_reread, reread_qname]
      rfl
  case nil =>
    intro scope rendered _ _
    refine ⟨[], ?_⟩
    intro inScope _
    refine ⟨rfl, ?_⟩
    intro nsStack pending
    rw [rereadChildren, emitChildren_textNodes, List.append_nil]
  case element =>
    intro child rest ihChild ihRest scope rendered hcomments hbelow
    obtain ⟨first, hfirst⟩ := ihChild scope rendered (hbelow child List.mem_cons_self)
    obtain ⟨others, hothers⟩ := ihRest scope rendered
      (fun c hc => hcomments c (List.mem_cons_of_mem _ hc))
      (fun d hd => hbelow d (List.mem_cons_of_mem _ hd))
    refine ⟨first ++ others, ?_⟩
    intro inScope within
    obtain ⟨hchild, hchildRead⟩ := hfirst inScope within false
    obtain ⟨hrest, hrestRead⟩ := hothers inScope within
    refine ⟨by rw [emitChildren, emitNode, hchild, ok_bind, hrest, ok_bind], ?_⟩
    intro nsStack pending
    rw [rereadChildren]
    apply emitChildren_append (emitChildren_textNodes _ _ _ _ _)
    rw [emitChildren, emitNode, hchildRead, ok_bind, hrestRead nsStack [], ok_bind]
    rfl
  case text =>
    intro t rest ih scope rendered hcomments hbelow
    obtain ⟨others, hothers⟩ := ih scope rendered
      (fun c hc => hcomments c (List.mem_cons_of_mem _ hc))
      (fun d hd => hbelow d (List.mem_cons_of_mem _ hd))
    refine ⟨textEscaped t ++ others, ?_⟩
    intro inScope within
    obtain ⟨hrest, hrestRead⟩ := hothers inScope within
    refine ⟨by rw [emitChildren, emitNode, ok_bind, hrest, ok_bind], ?_⟩
    intro nsStack pending
    rw [rereadChildren, hrestRead, textEscaped, textEscaped, textEscaped, List.flatMap_append,
      List.append_assoc]
  case comment =>
    intro c rest _ scope rendered hcomments _
    exact absurd List.mem_cons_self (hcomments c)

end Saml.Dsig.C14n
