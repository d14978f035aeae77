import Saml.Dsig.FirstDeclared

/-!
# Canonical text without the order of start tags

Where the names of a tree are decided and no attribute name is repeated in two
ways, the canonical text of every shuffled tree is the same.
-/

namespace Saml.Dsig.C14n

open Xml Library

/-! ## Elements whose order does not show -/

/-- A name that its prefix or its namespace decides. -/
def NameDecided (layers : List NsLayer) (uri : Option Str) (isAttribute : Bool)
    (pfx : Option Str) : Prop :=
  pfx = some [] → ∀ u, uri = some u → u ≠ XML_NS → Decided layers u isAttribute

/-- An element whose names are decided and which shows each expanded attribute
name with one prefix and one value. -/
structure OrderBlind (scope : List NsLayer) (e : Element) : Prop where
  element : NameDecided (e.namespacesDeclaredHere :: scope) e.qname.namespaceUri false
    e.sourcePrefix
  attributes : ∀ a ∈ e.attributes,
    NameDecided (e.namespacesDeclaredHere :: scope) a.qname.namespaceUri true a.sourcePrefix
  repeated : ∀ a ∈ e.attributes, ∀ b ∈ e.attributes, a.qname = b.qname →
    prefixForUri (scopeList (e.namespacesDeclaredHere :: scope)) a.qname.namespaceUri true
        a.sourcePrefix =
      prefixForUri (scopeList (e.namespacesDeclaredHere :: scope)) b.qname.namespaceUri true
        b.sourcePrefix ∧
    a.value = b.value

/-- An element of a parsed document whose order does not show. -/
structure Steady (scope : List NsLayer) (e : Element) : Prop where
  resolved : Resolved scope e
  once : DeclaredOnce (e.namespacesDeclaredHere :: scope)
  blind : OrderBlind scope e

theorem settled_of_decided {layers : List NsLayer} {uri : Option Str} {isAttribute : Bool}
    {pfx : Option Str} (once : DeclaredOnce layers) (h : uri = prefixUri layers isAttribute pfx)
    (decided : NameDecided layers uri isAttribute pfx) : Settled layers uri isAttribute pfx := by
  by_cases hempty : pfx = some []
  · intro layers' hsimilar
    cases uri with
    | none => rfl
    | some u =>
      by_cases hxml : u = XML_NS
      · rw [prefixForUri, prefixForUri, if_pos hxml, if_pos hxml]
      · have hlast := (decided hempty u rfl hxml).lastBinding_similar hsimilar once
        rw [hempty, prefixForUri_empty hxml, prefixForUri_empty hxml, hlast]
  · exact settled_of_prefix once h hempty

/-- A namespace a name is resolved to is not empty. -/
theorem prefixUri_ne_nil {layers : List NsLayer} {isAttribute : Bool} {pfx : Option Str} :
    prefixUri layers isAttribute pfx ≠ some [] := by
  intro h
  rw [prefixUri] at h
  split at h
  · cases h
  · rcases resolvePrefix_eq_some_iff.mp h with ⟨_, hxml⟩ | ⟨_, _, hne⟩
    · exact absurd hxml (by decide)
    · exact hne rfl

theorem eq_of_getD_nil {u v : Option Str} (hu : u ≠ some []) (hv : v ≠ some [])
    (h : u.getD [] = v.getD []) : u = v := by
  cases u with
  | none =>
    cases v with
    | none => rfl
    | some v => exact absurd (congrArg some h.symm) hv
  | some u =>
    cases v with
    | none => exact absurd (congrArg some h) hu
    | some v => exact congrArg some h

/-- The sort key of resolved attributes is their expanded name. -/
theorem qname_eq_of_attrKey {layers : List NsLayer} {a b : Attribute}
    (ha : a.qname.namespaceUri = prefixUri layers true a.sourcePrefix)
    (hb : b.qname.namespaceUri = prefixUri layers true b.sourcePrefix)
    (h : attrKey a = attrKey b) : a.qname = b.qname := by
  have huri : a.qname.namespaceUri = b.qname.namespaceUri := by
    apply eq_of_getD_nil
    · rw [ha]
      exact prefixUri_ne_nil
    · rw [hb]
      exact prefixUri_ne_nil
    · exact congrArg Prod.fst h
  have hlocal : a.qname.localName = b.qname.localName := congrArg Prod.snd h
  calc a.qname = ⟨a.qname.namespaceUri, a.qname.localName⟩ := rfl
    _ = ⟨b.qname.namespaceUri, b.qname.localName⟩ := by rw [huri, hlocal]
    _ = b.qname := rfl

/-! ## Attributes -/

/-- The attributes are written in the same order with the same prefixes. -/
theorem renderAttributes_shuffled {layers layers' : List NsLayer} {e : Element}
    {declared' : List NsDecl} {attributes' : List Attribute} (h : Steady layers e)
    (hdeclared : e.namespacesDeclaredHere.Perm declared') (hsimilar : Similar layers layers')
    (hperm : e.attributes.Perm attributes') :
    (e.attributes.insertionSort attrBefore).mapM
        (renderAttribute (scopeList (e.namespacesDeclaredHere :: layers))) =
      (attributes'.insertionSort attrBefore).mapM
        (renderAttribute (scopeList (declared' :: layers'))) := by
  apply mapM_congr_map
  have hsorted : (e.attributes.insertionSort attrBefore).map
        (renderAttribute (scopeList (e.namespacesDeclaredHere :: layers))) =
      (attributes'.insertionSort attrBefore).map
        (renderAttribute (scopeList (e.namespacesDeclaredHere :: layers))) := by
    apply Sorting.map_insertionSort_perm (fun _ _ => eq_of_keyBefore) attrKey
      (fun _ _ => keyBefore_of_attrBefore) hperm
    intro a ha b hb hkey
    have hname := qname_eq_of_attrKey (h.resolved.attributes a ha).1
      (h.resolved.attributes b hb).1 hkey
    obtain ⟨hpre, hvalue⟩ := h.blind.repeated a ha b hb hname
    rw [renderAttribute, renderAttribute, hpre, hname, hvalue]
  rw [hsorted]
  apply List.map_congr_left
  intro a ha
  rw [List.mem_insertionSort, ← hperm.mem_iff] at ha
  have hsettled := settled_of_decided h.once (h.resolved.attributes a ha).1
    (h.blind.attributes a ha)
  rw [renderAttribute, renderAttribute, hsettled _ (.cons hdeclared hsimilar)]

/-! ## Rendered bindings -/

theorem foldl_pushUniqueOpt (out prefixes : List (Option Str)) :
    ∃ rest, prefixes.foldl pushUniqueOpt out = out ++ rest ∧
      ∀ p, p ∈ out ++ rest ↔ p ∈ out ∨ p ∈ prefixes := by
  induction prefixes generalizing out with
  | nil => exact ⟨[], by simp, by simp⟩
  | cons first prefixes ih =>
    obtain ⟨rest, hrest, hmem⟩ := ih (pushUniqueOpt out first)
    rw [List.foldl_cons, hrest]
    unfold pushUniqueOpt at hmem ⊢
    split
    next hold =>
      refine ⟨rest, rfl, ?_⟩
      intro p
      rw [if_pos hold] at hmem
      rw [hmem, List.mem_cons]
      constructor
      · rintro (h | h)
        · exact .inl h
        · exact .inr (.inr h)
      · rintro (h | rfl | h)
        · exact .inl h
        · exact .inl hold
        · exact .inr h
    next hnew =>
      refine ⟨first :: rest, List.append_assoc out [first] rest, ?_⟩
      intro p
      rw [if_neg hnew, List.append_assoc] at hmem
      have hstep : p ∈ out ++ first :: rest ↔ p ∈ out ++ [first] ∨ p ∈ prefixes := hmem p
      rw [hstep, List.mem_append, List.mem_singleton, List.mem_cons, or_assoc]

/-- What a utilized prefix is rendered with. -/
theorem utilizedBinding_eq_ok {inScope : List NsDecl} {p : Option Str} {d : NsDecl}
    (h : utilizedBinding inScope p = .ok d) : d = (p, (lookupInScope inScope p).getD []) := by
  unfold utilizedBinding at h
  split at h
  next u hlookup => rw [hlookup, ← Except.ok.inj h, Option.getD_some]
  next hlookup => rw [hlookup, ← Except.ok.inj h, Option.getD_none]
  · cases h

theorem prefixListBinding_eq_some {inScope : List NsDecl} {token : Str} {d : NsDecl}
    (h : prefixListBinding inScope token = some d) :
    d.2 = (lookupInScope inScope d.1).getD [] := by
  unfold prefixListBinding at h
  dsimp only at h
  generalize (if token = ("#default" : Str) then none else some token : Option Str) = p at h
  split at h
  next u hlookup =>
    obtain rfl := Option.some.inj h
    rw [hlookup, Option.getD_some]
  next hlookup =>
    obtain rfl := Option.some.inj h
    rw [hlookup, Option.getD_none]
  · cases h

theorem functional_of_bound (inScope : List NsDecl) {decls : List NsDecl}
    (h : ∀ d ∈ decls, d.2 = (lookupInScope inScope d.1).getD []) : Functional decls := by
  rintro ⟨p, u⟩ hd ⟨q, v⟩ he rfl
  have hu : u = _ := h _ hd
  have hv : v = _ := h _ he
  rw [hu, hv]

/-- The prefix of a resolved attribute is found, and it is bound. -/
theorem attributePrefix_resolved {layers : List NsLayer} {a : Attribute}
    (h : a.qname.namespaceUri = prefixUri layers true a.sourcePrefix) :
    ∃ p, attributePrefix (scopeList layers) a = .ok p ∧
      (p.isSome → ∃ d, utilizedBinding (scopeList layers) p = .ok d) := by
  unfold attributePrefix
  cases huri : a.qname.namespaceUri with
  | none => exact ⟨none, rfl, nofun⟩
  | some u =>
    dsimp only
    by_cases hxml : u = XML_NS
    · rw [if_pos hxml]
      exact ⟨none, rfl, nofun⟩
    · rw [if_neg hxml]
      obtain ⟨p, hp⟩ := exists_prefixForUri (huri ▸ h)
      refine ⟨p, hp, ?_⟩
      intro hsome
      cases p with
      | none => cases hsome
      | some q =>
        have hlookup := lookup_of_prefixForUri hxml hp
        exact ⟨(some q, u), by simp only [utilizedBinding, hlookup]⟩

/-- A prefix the start tag of an element shows. -/
def Utilizes (e : Element) (inScope : List NsDecl) (elemPrefix p : Option Str) : Prop :=
  p = elemPrefix ∨ p.isSome ∧ ∃ a ∈ e.attributes, attributePrefix inScope a = .ok p

theorem utilizedPrefixes_resolved {layers : List NsLayer} {e : Element} (h : Resolved layers e)
    {inScope : List NsDecl} (hscope : inScope = scopeList (e.namespacesDeclaredHere :: layers))
    {elemPrefix : Option Str}
    (helem : prefixForUri inScope e.qname.namespaceUri
      false e.sourcePrefix = .ok elemPrefix) :
    ∃ rest, utilizedPrefixes e inScope =
      .ok (elemPrefix :: rest) ∧ ∀ p, p ∈ elemPrefix :: rest ↔
        Utilizes e inScope elemPrefix p := by
  have hattributes : ∀ a ∈ e.attributes, ∃ p,
      attributePrefix inScope a = .ok p := by
    intro a ha
    obtain ⟨p, hp, _⟩ := attributePrefix_resolved (h.attributes a ha).1
    exact ⟨p, hscope ▸ hp⟩
  obtain ⟨found, hfound⟩ := exists_mapM_ok hattributes
  obtain ⟨rest, hrest, hmem⟩ := foldl_pushUniqueOpt [elemPrefix] (found.filter Option.isSome)
  refine ⟨rest, ?_, ?_⟩
  · rw [utilizedPrefixes, bind_of_ok helem, bind_of_ok hfound, hrest]
    rfl
  · intro p
    have hstep : p ∈ elemPrefix :: rest ↔
        p ∈ [elemPrefix] ∨ p ∈ found.filter Option.isSome := hmem p
    rw [hstep, List.mem_singleton, List.mem_filter, Utilizes]
    apply or_congr_right
    constructor
    · rintro ⟨hp, hsome⟩
      exact ⟨hsome, mem_of_mapM_ok hfound hp⟩
    · rintro ⟨hsome, a, ha, hp⟩
      exact ⟨mem_mapM_ok hfound ha hp, hsome⟩

/-- What exclusive canonicalization renders: the bindings of the prefixes the
start tag shows, and the listed ones. -/
theorem computeExclusive_resolved {layers : List NsLayer} {e : Element} (h : Resolved layers e)
    {inScope : List NsDecl} (hscope : inScope = scopeList (e.namespacesDeclaredHere :: layers))
    {elemPrefix : Option Str}
    (helem : prefixForUri inScope e.qname.namespaceUri
      false e.sourcePrefix = .ok elemPrefix) (rendered : List NsDecl) (prefixes : List Str) :
    (∃ err, utilizedBinding inScope elemPrefix =
        .error err ∧
      computeExclusive e inScope rendered prefixes =
        .error err) ∨
    ∃ bindings, computeExclusive e inScope rendered
        prefixes = .ok ((bindings ++ prefixes.filterMap (prefixListBinding
          inScope)).foldl (addRendered rendered) []) ∧
      (∃ d, utilizedBinding inScope elemPrefix = .ok d) ∧
      ∀ d, d ∈ bindings ↔
        utilizedBinding inScope d.1 = .ok d ∧
        Utilizes e inScope elemPrefix d.1 := by
  obtain ⟨rest, hutilized, hmem⟩ := utilizedPrefixes_resolved h hscope helem
  have hbound : ∀ p, p ≠ elemPrefix →
      Utilizes e inScope elemPrefix p →
      ∃ d, utilizedBinding inScope p = .ok d := by
    rintro p hne (rfl | ⟨hsome, a, ha, hp⟩)
    · exact absurd rfl hne
    · obtain ⟨q, hq, hbinding⟩ := attributePrefix_resolved (h.attributes a ha).1
      rw [← hscope, hp] at hq
      obtain rfl := Except.ok.inj hq
      exact hscope ▸ hbinding hsome
  cases hhead : utilizedBinding inScope elemPrefix with
  | error err =>
    refine .inl ⟨err, rfl, ?_⟩
    rw [computeExclusive, bind_of_ok hutilized, List.mapM_cons, hhead]
    rfl
  | ok first =>
    have hall : ∀ p ∈ elemPrefix :: rest, ∃ d, utilizedBinding inScope p = .ok d := by
      intro p hp
      by_cases hne : p = elemPrefix
      · exact ⟨first, hne ▸ hhead⟩
      · exact hbound p hne ((hmem p).mp hp)
    obtain ⟨bindings, hbindings⟩ := exists_mapM_ok hall
    refine .inr ⟨bindings, ?_, ⟨first, rfl⟩, ?_⟩
    · rw [computeExclusive, bind_of_ok hutilized, bind_of_ok hbindings]
    · intro d
      rw [← hmem]
      constructor
      · intro hd
        obtain ⟨p, hp, hbinding⟩ := mem_of_mapM_ok hbindings hd
        have hfst : d.1 = p := congrArg Prod.fst (utilizedBinding_eq_ok hbinding)
        exact ⟨hfst ▸ hbinding, hfst ▸ hp⟩
      · rintro ⟨hbinding, hp⟩
        exact mem_mapM_ok hbindings hp hbinding

/-! ## The same bindings from either order -/

section Shuffle

variable {layers layers' : List NsLayer} {e : Element} {declared' : List NsDecl}
  {attributes' : List Attribute}

/-- The element with its start tag in another order, and other children. -/
def reordered (e : Element) (declared' : List NsDecl) (attributes' : List Attribute)
    (children' : List Node) : Element :=
  ⟨e.qname, e.sourcePrefix, declared', attributes', children', e.id⟩

theorem Resolved.reordered (h : Resolved layers e)
    (once : DeclaredOnce (e.namespacesDeclaredHere :: layers))
    (hdeclared : e.namespacesDeclaredHere.Perm declared') (hsimilar : Similar layers layers')
    (hperm : e.attributes.Perm attributes') (children' : List Node) :
    Resolved layers' (reordered e declared' attributes' children') := by
  have hsame := prefixUri_similar (.cons hdeclared hsimilar) once
  constructor
  · have helement := h.element
    rw [hsame] at helement
    exact helement
  · intro a ha
    have hattribute := h.attributes a (hperm.mem_iff.mpr ha)
    rw [hsame] at hattribute
    exact hattribute

theorem utilizedBinding_similar (h : Similar layers layers') (once : DeclaredOnce layers)
    (p : Option Str) :
    utilizedBinding (scopeList layers) p = utilizedBinding (scopeList layers') p := by
  unfold utilizedBinding
  rw [lookupInScope_similar h once]

theorem prefixListBinding_similar (h : Similar layers layers') (once : DeclaredOnce layers) :
    prefixListBinding (scopeList layers) = prefixListBinding (scopeList layers') := by
  funext token
  simp only [prefixListBinding, lookupInScope_similar h once]

theorem attributePrefix_settled {a : Attribute} (h : Similar layers layers')
    (settled : Settled layers a.qname.namespaceUri true a.sourcePrefix) :
    attributePrefix (scopeList layers) a = attributePrefix (scopeList layers') a := by
  unfold attributePrefix
  cases huri : a.qname.namespaceUri with
  | none => rfl
  | some u =>
    rw [huri] at settled
    dsimp only
    rw [settled layers' h]

theorem computeExclusive_shuffled (h : Steady layers e)
    (hdeclared : e.namespacesDeclaredHere.Perm declared') (hsimilar : Similar layers layers')
    (hperm : e.attributes.Perm attributes') (children' : List Node)
    (rendered : List NsDecl) (prefixes : List Str) :
    (computeExclusive e (scopeList (e.namespacesDeclaredHere :: layers)) rendered prefixes).map
        (·.insertionSort nsBefore) =
      (computeExclusive (reordered e declared' attributes' children')
        (scopeList (declared' :: layers')) rendered prefixes).map (·.insertionSort nsBefore) := by
  have hlayers : Similar (e.namespacesDeclaredHere :: layers) (declared' :: layers') :=
    .cons hdeclared hsimilar
  have hsettled := settled_of_decided h.once h.resolved.element.1 h.blind.element
  have hbinding := utilizedBinding_similar hlayers h.once
  have hlisted := prefixListBinding_similar hlayers h.once
  obtain ⟨elemPrefix, helem⟩ := exists_prefixForUri h.resolved.element.1
  have helem' := helem
  rw [← hsettled _ hlayers] at helem'
  have hresolved' : Resolved layers' (reordered e declared' attributes' children') :=
    h.resolved.reordered h.once hdeclared hsimilar hperm children'
  have hscope' : scopeList (declared' :: layers') = scopeList
      ((reordered e declared' attributes' children').namespacesDeclaredHere :: layers') := rfl
  have hutilizes (p : Option Str) :
      Utilizes e (scopeList (e.namespacesDeclaredHere :: layers)) elemPrefix p ↔
        Utilizes (reordered e declared' attributes' children') (scopeList (declared' :: layers'))
          elemPrefix p := by
    apply or_congr_right
    apply and_congr_right
    intro _
    constructor
    · rintro ⟨a, ha, hp⟩
      have ha' := settled_of_decided h.once (h.resolved.attributes a ha).1
        (h.blind.attributes a ha)
      exact ⟨a, hperm.mem_iff.mp ha, (attributePrefix_settled hlayers ha').symm.trans hp⟩
    · rintro ⟨a, ha, hp⟩
      have ha := hperm.mem_iff.mpr ha
      have ha' := settled_of_decided h.once (h.resolved.attributes a ha).1
        (h.blind.attributes a ha)
      exact ⟨a, ha, (attributePrefix_settled hlayers ha').trans hp⟩
  rcases computeExclusive_resolved h.resolved rfl helem rendered prefixes with
    ⟨err, hhead, herr⟩ | ⟨bindings, hbindings, ⟨d, hhead⟩, hmem⟩
  · rcases computeExclusive_resolved hresolved' hscope' helem' rendered prefixes with
      ⟨err', hhead', herr'⟩ | ⟨_, _, ⟨d', hhead'⟩, _⟩
    · rw [hbinding, hhead'] at hhead
      rw [herr, ← Except.error.inj hhead]
      exact congrArg (Except.map _) herr'.symm
    · rw [hbinding, hhead'] at hhead
      cases hhead
  · rcases computeExclusive_resolved hresolved' hscope' helem' rendered prefixes with
      ⟨err', hhead', _⟩ | ⟨bindings', hbindings', _, hmem'⟩
    · rw [hbinding, hhead'] at hhead
      cases hhead
    · rw [hbindings, hbindings']
      apply congrArg Except.ok
      apply sort_rendered
      · apply functional_of_bound (scopeList (e.namespacesDeclaredHere :: layers))
        intro b hb
        rcases List.mem_append.mp hb with hb | hb
        · exact congrArg Prod.snd (utilizedBinding_eq_ok ((hmem b).mp hb).1)
        · obtain ⟨token, _, htoken⟩ := List.mem_filterMap.mp hb
          exact prefixListBinding_eq_some htoken
      · intro b
        rw [List.mem_append, List.mem_append, hmem, hmem', hutilizes, hbinding, hlisted]

theorem computeInclusive_shuffled (once : DeclaredOnce (e.namespacesDeclaredHere :: layers))
    (hdeclared : e.namespacesDeclaredHere.Perm declared') (hsimilar : Similar layers layers')
    (attributes' : List Attribute) (children' : List Node) (rendered : List NsDecl)
    (isApex : Bool) :
    (computeInclusive e (scopeList (e.namespacesDeclaredHere :: layers)) rendered
        isApex).insertionSort nsBefore =
      (computeInclusive (reordered e declared' attributes' children')
        (scopeList (declared' :: layers')) rendered isApex).insertionSort nsBefore := by
  have hfunctional {decls : List NsDecl} (hnodup : (decls.map Prod.fst).Nodup) :
      Functional decls := by
    rintro ⟨p, u⟩ hd ⟨q, v⟩ he rfl
    have hu := (Association.lookup_eq_some_iff hnodup).mpr hd
    have hv := (Association.lookup_eq_some_iff hnodup).mpr he
    rw [Prod.mk.injEq]
    exact ⟨rfl, Option.some.inj (hu.symm.trans hv)⟩
  cases isApex with
  | false =>
    apply sort_rendered
    · exact hfunctional (once _ List.mem_cons_self)
    · exact fun d => hdeclared.mem_iff
  | true =>
    have hscope := perm_scopeList (.cons hdeclared hsimilar) once
    apply sort_rendered
    · apply hfunctional
      exact (nodup_scopeList _).sublist (List.filter_sublist.map _)
    · exact fun d => (hscope.filter _).mem_iff

theorem computeRenderedNamespaces_shuffled (h : Steady layers e)
    (hdeclared : e.namespacesDeclaredHere.Perm declared') (hsimilar : Similar layers layers')
    (hperm : e.attributes.Perm attributes') (children' : List Node)
    (rendered : List NsDecl) (isApex : Bool)
    (algorithm : C14nAlgorithm) (prefixes : List Str) :
    (computeRenderedNamespaces e (scopeList (e.namespacesDeclaredHere :: layers)) rendered isApex
        algorithm prefixes).map (·.insertionSort nsBefore) =
      (computeRenderedNamespaces (reordered e declared' attributes' children')
        (scopeList (declared' :: layers')) rendered isApex algorithm prefixes).map
        (·.insertionSort nsBefore) := by
  unfold computeRenderedNamespaces
  split
  · exact computeExclusive_shuffled h hdeclared hsimilar hperm children' rendered prefixes
  · exact congrArg Except.ok
      (computeInclusive_shuffled h.once hdeclared hsimilar attributes' children'
      rendered isApex)

end Shuffle

/-! ## Trees -/

/-- The canonical text reads the rendered bindings in their order only. -/
theorem emitElement_eq (algorithm : C14nAlgorithm) (prefixes : List Str) (layers : List NsLayer)
    (rendered : List NsDecl) (isApex : Bool) (e : Element) :
    emitElement algorithm prefixes (scopeList layers) rendered isApex e = (do
      let nsSorted ← (computeRenderedNamespaces e
        (scopeList (e.namespacesDeclaredHere :: layers)) rendered isApex algorithm prefixes).map
          (·.insertionSort nsBefore)
      let elemPrefix ← prefixForUri (scopeList (e.namespacesDeclaredHere :: layers))
        e.qname.namespaceUri false e.sourcePrefix
      let attrs ← (e.attributes.insertionSort attrBefore).mapM
        (renderAttribute (scopeList (e.namespacesDeclaredHere :: layers)))
      let body ← emitChildren algorithm prefixes (scopeList (e.namespacesDeclaredHere :: layers))
        (mergeAll rendered nsSorted) e.children
      .ok ("<" ++ qualifiedName elemPrefix e.qname.localName ++ nsSorted.flatMap renderDecl ++
        attrs.flatten ++ ">" ++ body ++ "</" ++ qualifiedName elemPrefix e.qname.localName ++
        ">")) := by
  rcases e with ⟨qname, sourcePrefix, declared, attributes, children, id⟩
  rw [emitElement, mergeAll_scopeList]
  cases computeRenderedNamespaces ⟨qname, sourcePrefix, declared, attributes, children, id⟩
    (scopeList (declared :: layers)) rendered isApex algorithm prefixes with
  | error err => rfl
  | ok toRender => rfl

/-- The canonical text of a steady tree does not depend on the order of its
start tags or of those around it. -/
theorem emitElement_shuffled (algorithm : C14nAlgorithm) (prefixes : List Str) :
    (∀ (e e' : Element) (layers layers' : List NsLayer) (rendered : List NsDecl) (isApex : Bool),
      Shuffled e e' → Similar layers layers' → Scoped Steady layers e →
        emitElement algorithm prefixes (scopeList layers) rendered isApex e =
          emitElement algorithm prefixes (scopeList layers') rendered isApex e') ∧
    ∀ (nodes nodes' : List Node) (layers layers' : List NsLayer) (rendered : List NsDecl),
      ShuffledNodes nodes nodes' → Similar layers layers' →
      (∀ e, .element e ∈ nodes → Scoped Steady layers e) →
        emitChildren algorithm prefixes (scopeList layers) rendered nodes =
          emitChildren algorithm prefixes (scopeList layers') rendered nodes' := by
  apply Element.induct
  case mk =>
    rintro ⟨qname, sourcePrefix, declared, attributes, children, id⟩ ih e' layers layers' rendered
      isApex hshuffled hsimilar h
    obtain ⟨hself, hbelow⟩ := scoped_iff.mp h
    cases hshuffled with
    | @mk _ _ _ declared' _ attributes' _ children' _ hdeclared hperm hchildren =>
      have hlayers : Similar (declared :: layers) (declared' :: layers') :=
        .cons hdeclared hsimilar
      have hrendered := computeRenderedNamespaces_shuffled hself hdeclared hsimilar hperm
        children' rendered isApex algorithm prefixes
      have hsettled := settled_of_decided hself.once hself.resolved.element.1 hself.blind.element
      have hattrs := renderAttributes_shuffled hself hdeclared hsimilar hperm
      rw [emitElement_eq, emitElement_eq, hrendered]
      apply bind_congr
      intro nsSorted
      have hbody := ih children' (declared :: layers) (declared' :: layers')
        (mergeAll rendered nsSorted) hchildren hlayers fun child hchild =>
          hbelow child (ElementOf.mem_childElements.mpr hchild)
      dsimp only at hattrs hbody ⊢
      rw [hsettled _ hlayers, hattrs, hbody]
  case nil =>
    intro nodes' layers layers' rendered hshuffled _ _
    cases hshuffled
    rfl
  case element =>
    intro child rest ihChild ihRest nodes' layers layers' rendered hshuffled hsimilar h
    cases hshuffled with
    | element hchild hrest =>
      rw [emitChildren, emitChildren, emitNode, emitNode,
        ihChild _ layers layers' rendered false hchild hsimilar (h child List.mem_cons_self),
        ihRest _ layers layers' rendered hrest hsimilar
          fun e he => h e (List.mem_cons_of_mem _ he)]
  case text =>
    intro t rest ih nodes' layers layers' rendered hshuffled hsimilar h
    cases hshuffled with
    | text hrest =>
      rw [emitChildren, emitChildren, emitNode, emitNode, ih _ layers layers' rendered hrest
        hsimilar fun e he => h e (List.mem_cons_of_mem _ he)]
  case comment =>
    intro c rest ih nodes' layers layers' rendered hshuffled hsimilar h
    cases hshuffled with
    | comment hrest =>
      rw [emitChildren, emitChildren, emitNode, emitNode, ih _ layers layers' rendered hrest
        hsimilar fun e he => h e (List.mem_cons_of_mem _ he)]

end Saml.Dsig.C14n
