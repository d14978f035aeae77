import Saml.Library.Association
import Saml.Xml.Reparse

/-!
# Built trees write back

A tree whose namespaces are all declared from one table of prefixes, with
plain local names, is read back as it was written.
-/

namespace Saml.Xml

open Library

/-- A table of prefixes: each is a plain name and stands for one namespace. -/
structure PrefixTable (table : List NsDecl) : Prop where
  prefixes : ∀ d ∈ table, d.1.any (fun p => isNcName p && p != ("xml" : Str)) = true
  uris : ∀ d ∈ table, d.2 ≠ [] ∧ d.2 ≠ XML_NS
  functional : ∀ d ∈ table, ∀ d' ∈ table, d.1 = d'.1 → d.2 = d'.2

/-- An attribute name that can be written anywhere: in no namespace or in that
of `xml`. -/
def PlainKey (qname : QName) : Prop :=
  isNcName qname.localName = true ∧
    (qname.namespaceUri = none ∧ qname.localName ≠ ("xmlns" : Str) ∨
      qname.namespaceUri = some XML_NS)

/-- Below the bindings of a scope, a tree declares from a table, its element
names are in declared namespaces, its attribute names are plain and distinct,
and it holds no comment. -/
inductive Writable (table : List NsDecl) : List NsDecl → Element → Prop
  | mk {scope : List NsDecl} {e : Element}
      (declared : ∀ d ∈ e.namespacesDeclaredHere, d ∈ table)
      (fresh : (e.namespacesDeclaredHere.map Prod.fst).Nodup)
      (name : isNcName e.qname.localName = true)
      (bound : ∃ d ∈ scope ++ e.namespacesDeclaredHere, e.qname.namespaceUri = some d.2)
      (keys : ∀ a ∈ e.attributes, PlainKey a.qname)
      (distinct : (e.attributes.map Attribute.qname).Nodup)
      (comments : ∀ c, Node.comment c ∉ e.children)
      (below : ∀ child, Node.element child ∈ e.children →
        Writable table (scope ++ e.namespacesDeclaredHere) child) :
      Writable table scope e

/-! ## Names -/

section

variable {table : List NsDecl} {nsStack : List NsLayer}

/-- A table entry has a plain prefix. -/
theorem PrefixTable.exists_prefix (htable : PrefixTable table) {d : NsDecl} (hd : d ∈ table) :
    ∃ p, d.1 = some p ∧ isNcName p = true ∧ p ≠ ("xml" : Str) := by
  have hany := htable.prefixes d hd
  cases hp : d.1 with
  | none => simp [hp] at hany
  | some p =>
      rw [hp, Option.any_some, Bool.and_eq_true, bne_iff_ne] at hany
      exact ⟨p, rfl, hany⟩

/-- The prefix of a table entry resolves to its namespace where it is declared. -/
theorem resolvePrefix_of_table (htable : PrefixTable table) (hstack : nearestFirst nsStack ⊆ table)
    {d : NsDecl} (hd : d ∈ nearestFirst nsStack) : resolvePrefix nsStack d.1 = some d.2 := by
  obtain ⟨p, hp, -, hxml⟩ := htable.exists_prefix (hstack hd)
  obtain ⟨uri, hlookup⟩ := Option.isSome_iff_exists.mp
    (Association.lookup_isSome_iff.mpr (List.mem_map_of_mem (f := Prod.fst) hd))
  have hmem := Association.mem_of_lookup hlookup
  have huri : uri = d.2 := htable.functional (d.1, uri) (hstack hmem) d (hstack hd) rfl
  rw [resolvePrefix, if_neg, hlookup]
  · dsimp only
    rw [huri, if_neg (htable.uris d (hstack hd)).1]
  · rw [hp]
    intro h
    exact hxml (Option.some.inj h)

/-- The prefix written for a declared namespace is one of a table entry for it. -/
theorem resolvePrefixForEmit_of_table (htable : PrefixTable table)
    (hstack : nearestFirst nsStack ⊆ table) {d : NsDecl} (hd : d ∈ nearestFirst nsStack) :
    ∃ found ∈ nearestFirst nsStack, found.2 = d.2 ∧
      resolvePrefixForEmit (some d.2) nsStack = .ok found.1 := by
  rw [resolvePrefixForEmit, if_neg (htable.uris d (hstack hd)).2]
  cases hfind : (nearestFirst nsStack).find? fun x => x.2 = d.2 with
  | none =>
      rw [List.find?_eq_none] at hfind
      exact absurd (by simp) (hfind d hd)
  | some found =>
      have huri := List.find?_some hfind
      exact ⟨found, List.mem_of_find?_eq_some hfind, of_decide_eq_true huri, rfl⟩

theorem isQName_prefixed {p loc : Str} (hp : isNcName p = true) (hloc : isNcName loc = true) :
    isQName (p ++ ':' :: loc) = true := by
  rw [isQName, QxQName.decompose_prefixed loc (IsNcName.colon hp)]
  simp [hp, hloc]

theorem isQName_plain {loc : Str} (hloc : isNcName loc = true) : isQName loc = true := by
  rw [isQName, QxQName.decompose_unprefixed (IsNcName.colon hloc)]
  simp [hloc]

/-- An element name in a declared namespace reads back. -/
theorem emittedName_readsBack (htable : PrefixTable table) (hstack : nearestFirst nsStack ⊆ table)
    {qname : QName} (hname : isNcName qname.localName = true)
    (hbound : ∃ d ∈ nearestFirst nsStack, qname.namespaceUri = some d.2) :
    isQName (emittedName nsStack qname) = true ∧
      resolveQName (emittedName nsStack qname) nsStack false = .ok qname := by
  obtain ⟨qns, loc⟩ := qname
  obtain ⟨d, hd, huri⟩ := hbound
  obtain ⟨found, hfound, hsame, hpre⟩ := resolvePrefixForEmit_of_table htable hstack hd
  obtain ⟨p, hp, hplain, -⟩ := htable.exists_prefix (hstack hfound)
  have hemitted : emittedName nsStack ⟨qns, loc⟩ = p ++ ':' :: loc := by
    rw [emittedName, huri, hpre, hp]
    rfl
  have hresolves := resolvePrefix_of_table htable hstack hfound
  rw [hp, hsame] at hresolves
  rw [hemitted]
  refine ⟨isQName_prefixed hplain hname, ?_⟩
  rw [resolveQName, QxQName.decompose_prefixed loc (IsNcName.colon hplain)]
  dsimp only at huri ⊢
  rw [hresolves, huri]

theorem asNamespaceBinding_plain {loc : Str} (hloc : isNcName loc = true)
    (hne : loc ≠ ("xmlns" : Str)) : QxQName.asNamespaceBinding loc = none := by
  have hcolon := IsNcName.colon hloc
  unfold QxQName.asNamespaceBinding
  split
  · split
    · exact absurd rfl hne
    · simp at hcolon
    · rfl
  · rfl

/-- A plain attribute name reads back. -/
theorem emittedKey_readsBack (nsStack : List NsLayer) {qname : QName} (h : PlainKey qname) :
    isQName (emittedKey nsStack qname) = true ∧
      QxQName.asNamespaceBinding (emittedKey nsStack qname) = none ∧
      resolveQName (emittedKey nsStack qname) nsStack true = .ok qname := by
  obtain ⟨qns, loc⟩ := qname
  obtain ⟨hloc, ⟨hnone, hxmlns⟩ | hxml⟩ := h
  · obtain rfl : qns = none := hnone
    have hemitted : emittedKey nsStack ⟨none, loc⟩ = loc := rfl
    rw [hemitted]
    refine ⟨isQName_plain hloc, asNamespaceBinding_plain hloc hxmlns, ?_⟩
    rw [resolveQName, QxQName.decompose_unprefixed (IsNcName.colon hloc)]
    rfl
  · obtain rfl : qns = some XML_NS := hxml
    have hemitted : emittedKey nsStack ⟨some XML_NS, loc⟩ = "xml" ++ ':' :: loc := by
      rw [emittedKey, resolvePrefixForAttribute]
      dsimp only
      rw [if_pos rfl]
      rfl
    rw [hemitted]
    refine ⟨isQName_prefixed (by decide) hloc, rfl, ?_⟩
    rw [resolveQName, QxQName.decompose_prefixed loc (by decide)]
    rfl

theorem isQName_declName (htable : PrefixTable table) {d : NsDecl} (hd : d ∈ table) :
    isQName (declName d.1) = true := by
  obtain ⟨p, hp, hplain, -⟩ := htable.exists_prefix hd
  have hname : declName d.1 = "xmlns" ++ ':' :: p := by
    rw [hp]
    rfl
  rw [hname]
  exact isQName_prefixed (by decide) hplain

/-- A built element writes back below declarations from its table. -/
theorem Writable.writesBack_self (htable : PrefixTable table) {scope : List NsDecl} {e : Element}
    (h : Writable table scope e) (hscope : scope ⊆ nearestFirst nsStack)
    (hstack : nearestFirst nsStack ⊆ table) :
    WritesBack nsStack e ∧
      (∀ child ∈ e.childElements, Writable table (scope ++ e.namespacesDeclaredHere) child) ∧
      scope ++ e.namespacesDeclaredHere ⊆ nearestFirst (e.namespacesDeclaredHere :: nsStack) ∧
      nearestFirst (e.namespacesDeclaredHere :: nsStack) ⊆ table := by
  obtain ⟨hdeclared, hfresh, hname, hbound, hkeys, hdistinct, hcomments, hbelow⟩ := h
  have hinner : nearestFirst (e.namespacesDeclaredHere :: nsStack) =
      e.namespacesDeclaredHere.reverse ++ nearestFirst nsStack := rfl
  have hwider : scope ++ e.namespacesDeclaredHere ⊆
      nearestFirst (e.namespacesDeclaredHere :: nsStack) := by
    intro d hd
    rw [hinner, List.mem_append, List.mem_reverse]
    rcases List.mem_append.mp hd with hd | hd
    · exact .inr (hscope hd)
    · exact .inl hd
  have htabled : nearestFirst (e.namespacesDeclaredHere :: nsStack) ⊆ table := by
    intro d hd
    rw [hinner, List.mem_append, List.mem_reverse] at hd
    exact hd.elim (hdeclared d) (fun hd => hstack hd)
  obtain ⟨d, hd, huri⟩ := hbound
  obtain ⟨hqname, hresolves⟩ := emittedName_readsBack htable htabled hname
    ⟨d, hwider hd, huri⟩
  have hattrs := fun a (ha : a ∈ e.attributes) =>
    emittedKey_readsBack (e.namespacesDeclaredHere :: nsStack) (hkeys a ha)
  refine ⟨⟨hqname, ?_, ?_, hresolves, fun a ha => (hattrs a ha).2,
    fun c hc => absurd hc (hcomments c)⟩,
    fun child hchild => hbelow child (ElementOf.mem_childElements.mp hchild), hwider, htabled⟩
  · intro p hp
    obtain ⟨q, hq, rfl⟩ := List.mem_map.mp hp
    rcases List.mem_append.mp hq with hq | hq
    · obtain ⟨d, hd, rfl⟩ := List.mem_map.mp hq
      exact isQName_declName htable (hdeclared d hd)
    · obtain ⟨a, ha, rfl⟩ := List.mem_map.mp hq
      exact (hattrs a ha).1
  · have hkeysList : (emittedTag nsStack e).attributes.map Prod.fst =
        (e.namespacesDeclaredHere.map Prod.fst).map declName ++
          (e.attributes.map Attribute.qname).map
            (emittedKey (e.namespacesDeclaredHere :: nsStack)) := by
      simp [emittedTag, writtenPairs, Function.comp_def]
    rw [hkeysList, List.nodup_append]
    refine ⟨?_, ?_, ?_⟩
    · apply hfresh.map
      intro p q heq
      have hdecoded := congrArg QxQName.asNamespaceBinding heq
      rw [asNamespaceBinding_declName, asNamespaceBinding_declName] at hdecoded
      exact Option.some.inj hdecoded
    · apply List.Nodup.map_on _ hdistinct
      intro q hq q' hq' heq
      obtain ⟨a, ha, rfl⟩ := List.mem_map.mp hq
      obtain ⟨a', ha', rfl⟩ := List.mem_map.mp hq'
      have hread := (hattrs a ha).2.2
      rw [heq, (hattrs a' ha').2.2] at hread
      exact (Except.ok.inj hread).symm
    · rintro key hdecl key' hattr rfl
      obtain ⟨p, -, rfl⟩ := List.mem_map.mp hdecl
      obtain ⟨q, hq, heq⟩ := List.mem_map.mp hattr
      obtain ⟨a, ha, rfl⟩ := List.mem_map.mp hq
      have hbinding := (hattrs a ha).2.1
      rw [heq, asNamespaceBinding_declName] at hbinding
      cases hbinding

end

namespace Writable

variable {table scope : List NsDecl} {e child : Element}

/-- More may be in scope. -/
theorem mono (h : Writable table scope e) {wider : List NsDecl} (hscope : scope ⊆ wider) :
    Writable table wider e := by
  induction h generalizing wider with
  | @mk scope e declared fresh name bound keys distinct comments below ih =>
      obtain ⟨d, hd, huri⟩ := bound
      have hwider : scope ++ e.namespacesDeclaredHere ⊆ wider ++ e.namespacesDeclaredHere :=
        List.append_subset.mpr ⟨List.subset_append_of_subset_left _ hscope,
          List.subset_append_right _ _⟩
      exact mk declared fresh name ⟨d, hwider hd, huri⟩ keys distinct comments
        fun child hchild => ih child hchild hwider

theorem build {d : NsDecl} (hd : d ∈ scope) {loc : Str} (hloc : isNcName loc = true) :
    Writable table scope (ElementOf.build ⟨some d.2, loc⟩) :=
  mk (by simp [ElementOf.build]) (by simp [ElementOf.build]) hloc
    ⟨d, by simp [ElementOf.build, hd], rfl⟩ (by simp [ElementOf.build])
    (by simp [ElementOf.build]) (by simp [ElementOf.build]) (by simp [ElementOf.build])

theorem withAttribute (h : Writable table scope e) {qname : QName} (hkey : PlainKey qname)
    (hnew : qname ∉ e.attributes.map Attribute.qname) (value : Str) :
    Writable table scope (e.withAttribute qname value) := by
  cases h with
  | mk declared fresh name bound keys distinct comments below =>
      refine mk declared fresh name bound ?_ ?_ comments below
      · intro a ha
        rcases List.mem_append.mp ha with ha | ha
        · exact keys a ha
        · obtain rfl := List.mem_singleton.mp ha
          exact hkey
      · simp only [ElementOf.withAttribute, List.map_append, List.map_singleton]
        rw [List.nodup_append]
        refine ⟨distinct, List.nodup_singleton _, ?_⟩
        rintro q hq q' hq' rfl
        obtain rfl := List.mem_singleton.mp hq'
        exact hnew hq

/-- A declaration of the table brings its binding into scope. -/
theorem withNamespace {d : NsDecl} (h : Writable table (scope ++ [d]) e) (hd : d ∈ table)
    (hnew : d.1 ∉ e.namespacesDeclaredHere.map Prod.fst) :
    Writable table scope (e.withNamespace d.1 d.2) := by
  have hscope : scope ++ [d] ++ e.namespacesDeclaredHere ⊆
      scope ++ (e.namespacesDeclaredHere ++ [d]) := by
    intro x hx
    simp only [List.mem_append, List.mem_singleton] at hx ⊢
    tauto
  cases h with
  | mk declared fresh name bound keys distinct comments below =>
      obtain ⟨binding, hbinding, huri⟩ := bound
      refine mk ?_ ?_ name ⟨binding, hscope hbinding, huri⟩ keys distinct comments ?_
      · intro x hx
        rcases List.mem_append.mp hx with hx | hx
        · exact declared x hx
        · obtain rfl := List.mem_singleton.mp hx
          exact hd
      · simp only [ElementOf.withNamespace, List.map_append, List.map_singleton]
        rw [List.nodup_append]
        refine ⟨fresh, List.nodup_singleton _, ?_⟩
        rintro p hp p' hp' rfl
        obtain rfl := List.mem_singleton.mp hp'
        exact hnew hp
      · intro child hchild
        exact (below child hchild).mono hscope

/-- Text, and elements that are writable where they stand, may be put below an
element. -/
theorem withNodes (h : Writable table scope e) {nodes : List Node}
    (hnodes : ∀ node ∈ nodes, node ∈ e.children ∨ (∃ t, node = .text t) ∨
      ∃ child, node = .element child ∧ Writable table scope child) :
    Writable table scope { e with children := nodes } := by
  cases h with
  | mk declared fresh name bound keys distinct comments below =>
      refine mk declared fresh name bound keys distinct ?_ ?_
      · intro c hc
        rcases hnodes _ hc with hc | ⟨t, heq⟩ | ⟨child, heq, _⟩
        · exact comments c hc
        · cases heq
        · cases heq
      · intro d hd
        rcases hnodes _ hd with hd | ⟨t, heq⟩ | ⟨child, heq, hchild⟩
        · exact below d hd
        · cases heq
        · rw [Node.element.inj heq]
          exact hchild.mono (List.subset_append_left _ _)

theorem withText (h : Writable table scope e) (t : Str) :
    Writable table scope (e.withText t) := by
  apply withNodes h
  intro node hnode
  rcases List.mem_append.mp hnode with hnode | hnode
  · exact .inl hnode
  · exact .inr (.inl ⟨t, List.mem_singleton.mp hnode⟩)

theorem withChild (h : Writable table scope e) (hchild : Writable table scope child) :
    Writable table scope (e.withChild (.element child)) := by
  apply withNodes h
  intro node hnode
  rcases List.mem_append.mp hnode with hnode | hnode
  · exact .inl hnode
  · exact .inr (.inr ⟨child, List.mem_singleton.mp hnode, hchild⟩)

theorem insertChild (h : Writable table scope e) (hchild : Writable table scope child)
    (index : Nat) : Writable table scope (e.insertChild index (.element child)) := by
  apply withNodes h
  intro node hnode
  rcases List.eq_or_mem_of_mem_insertIdx hnode with rfl | hnode
  · exact .inr (.inr ⟨child, rfl, hchild⟩)
  · exact .inl hnode

/-- Handles are not written. -/
theorem of_alike (h : Writable table scope e) {d : Element} (halike : Alike d e) :
    Writable table scope d := by
  induction h generalizing d with
  | @mk scope e declared fresh name bound keys distinct comments below ih =>
      have hdecls : d.namespacesDeclaredHere = e.namespacesDeclaredHere := by
        rw [← unnumbered_namespaces, halike, unnumbered_namespaces]
      have hattrs : d.attributes = e.attributes := by
        rw [← unnumbered_attributes, halike, unnumbered_attributes]
      have hnodes : d.children.map unnumberedNode = e.children.map unnumberedNode := by
        rw [← unnumbered_children, halike, unnumbered_children]
      have hnode : ∀ node ∈ d.children, ∃ other ∈ e.children,
          unnumberedNode other = unnumberedNode node := by
        intro node hnode
        rw [← List.mem_map, ← hnodes]
        exact List.mem_map_of_mem hnode
      rw [← halike.qname] at name bound
      rw [← hattrs] at keys distinct
      rw [← hdecls] at declared fresh bound
      refine mk declared fresh name bound keys distinct ?_ ?_
      · intro c hc
        obtain ⟨other, hother, heq⟩ := hnode _ hc
        cases other with
        | element o => cases heq
        | text t => cases heq
        | comment o =>
            rw [Node.comment.inj heq] at hother
            exact comments c hother
      · intro child hchild
        obtain ⟨other, hother, heq⟩ := hnode _ hchild
        rw [hdecls]
        cases other with
        | element o => exact ih o hother (Node.element.inj heq).symm
        | text t => cases heq
        | comment o => cases heq

/-- A document holds a tree as it was built. -/
theorem new {doc : Document} (h : Writable table scope e) (hdoc : Document.new e = .ok doc) :
    Writable table scope doc.root :=
  h.of_alike (Document.new_unnumbered hdoc)

end Writable

/-! ## Building -/

/-- A writable tree, the prefixes that its root declares and the names of the
attributes there, which are in no namespace. -/
structure Composed (table scope : List NsDecl) (prefixes : List (Option Str)) (names : List Str)
    (e : Element) : Prop where
  writable : Writable table scope e
  prefixes : ∀ d ∈ e.namespacesDeclaredHere, d.1 ∈ prefixes
  names : ∀ a ∈ e.attributes, ∃ loc ∈ names, a.qname = ⟨none, loc⟩

/-- A plain name that is not among the names in use. -/
def isFreshName (names : List Str) (loc : Str) : Bool :=
  isNcName loc && loc != ("xmlns" : Str) && !names.contains loc

namespace Composed

variable {table scope : List NsDecl} {prefixes : List (Option Str)} {names : List Str}
  {e child : Element} {loc : Str}

theorem build {d : NsDecl} (hd : d ∈ scope) (hloc : isNcName loc = true) :
    Composed table scope [] [] (ElementOf.build ⟨some d.2, loc⟩) :=
  ⟨.build hd hloc, by simp [ElementOf.build], by simp [ElementOf.build]⟩

theorem withAttribute (h : Composed table scope prefixes names e)
    (hloc : isFreshName names loc = true) (value : Str) :
    Composed table scope prefixes (loc :: names) (e.withAttribute ⟨none, loc⟩ value) := by
  obtain ⟨hplain, hused⟩ := Bool.and_eq_true_iff.mp hloc
  obtain ⟨hncname, hxmlns⟩ := Bool.and_eq_true_iff.mp hplain
  refine ⟨h.writable.withAttribute ⟨hncname, .inl ⟨rfl, bne_iff_ne.mp hxmlns⟩⟩ ?_ value,
    h.prefixes, ?_⟩
  · intro hmem
    obtain ⟨a, ha, hname⟩ := List.mem_map.mp hmem
    obtain ⟨used, hin, heq⟩ := h.names a ha
    obtain rfl : used = loc := congrArg QName.localName (heq.symm.trans hname)
    rw [Bool.not_eq_true', List.contains_eq_mem, decide_eq_false_iff_not] at hused
    exact hused hin
  · intro a ha
    rcases List.mem_append.mp ha with ha | ha
    · obtain ⟨used, hmem, heq⟩ := h.names a ha
      exact ⟨used, List.mem_cons_of_mem _ hmem, heq⟩
    · obtain rfl := List.mem_singleton.mp ha
      exact ⟨loc, List.mem_cons_self, rfl⟩

/-- A declaration of the table brings its binding into scope. -/
theorem withNamespace {d : NsDecl} (h : Composed table (scope ++ [d]) prefixes names e)
    (hd : d ∈ table) (hnew : d.1 ∉ prefixes) :
    Composed table scope (d.1 :: prefixes) names (e.withNamespace d.1 d.2) := by
  refine ⟨h.writable.withNamespace hd ?_, ?_, h.names⟩
  · intro hmem
    obtain ⟨declared, hdeclared, heq⟩ := List.mem_map.mp hmem
    exact hnew (heq ▸ h.prefixes declared hdeclared)
  · intro declared hdeclared
    rcases List.mem_append.mp hdeclared with hdeclared | hdeclared
    · exact List.mem_cons_of_mem _ (h.prefixes declared hdeclared)
    · rw [List.mem_singleton.mp hdeclared]
      exact List.mem_cons_self

theorem withText (h : Composed table scope prefixes names e) (t : Str) :
    Composed table scope prefixes names (e.withText t) :=
  ⟨h.writable.withText t, h.prefixes, h.names⟩

theorem withChild (h : Composed table scope prefixes names e)
    (hchild : Writable table scope child) :
    Composed table scope prefixes names (e.withChild (.element child)) :=
  ⟨h.writable.withChild hchild, h.prefixes, h.names⟩

/-- Children in order. -/
theorem withChildren (h : Composed table scope prefixes names e) {children : List Element}
    (hchildren : ∀ child ∈ children, Writable table scope child) :
    Composed table scope prefixes names
      { e with children := e.children ++ children.map .element } := by
  refine ⟨h.writable.withNodes ?_, h.prefixes, h.names⟩
  intro node hnode
  rcases List.mem_append.mp hnode with hnode | hnode
  · exact .inl hnode
  · obtain ⟨child, hchild, rfl⟩ := List.mem_map.mp hnode
    exact .inr (.inr ⟨child, rfl, hchildren child hchild⟩)

end Composed

/-- A built tree writes back where its scope is declared. -/
theorem Writable.writesBack_within {table : List NsDecl} (htable : PrefixTable table)
    {scope : List NsDecl} {e : Element} (h : Writable table scope e) {nsStack : List NsLayer}
    (hscope : scope ⊆ nearestFirst nsStack) (hstack : nearestFirst nsStack ⊆ table) :
    Scoped WritesBack nsStack e := by
  induction h generalizing nsStack with
  | @mk scope e declared fresh name bound keys distinct comments below ih =>
      obtain ⟨hself, hbelow, hwider, htabled⟩ := Writable.writesBack_self htable
        (.mk declared fresh name bound keys distinct comments below) hscope hstack
      refine scoped_iff.mpr ⟨hself, ?_⟩
      intro child hchild
      exact ih child (ElementOf.mem_childElements.mp hchild) hwider htabled

/-- A built tree that stands by itself writes back. -/
theorem Writable.writesBack {table : List NsDecl} (htable : PrefixTable table) {e : Element}
    (h : Writable table [] e) : Scoped WritesBack [] e :=
  h.writesBack_within htable (List.nil_subset _) (List.nil_subset _)

end Saml.Xml
