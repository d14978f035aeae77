import Saml.Xml.Accepted
import Saml.Dsig.C14n

/-!
# The bindings in scope

The canonicalizer overlays the declarations of the ancestor chain; the parser
looks for the nearest declaration of a prefix. Both read the same bindings, so in
a parsed document the canonicalizer finds the prefix each name was written with.
-/

namespace Saml.Dsig.C14n

open Xml Library.Association

/-! ## Overlaying declarations -/

theorem lookup_mergeRendered (out : List NsDecl) (d : NsDecl) (p : Option Str) :
    (mergeRendered out d).lookup p = if p = d.1 then some d.2 else out.lookup p := by
  induction out with
  | nil => rw [mergeRendered, lookup_cons]
  | cons e rest ih =>
      rw [mergeRendered]
      by_cases he : e.1 = d.1
      · rw [if_pos he, lookup_cons, lookup_cons, he]
        split <;> rfl
      · rw [if_neg he, lookup_cons, lookup_cons, ih]
        by_cases h : p = e.1
        · subst h
          simp [he]
        · simp [h]

theorem keys_mergeRendered (out : List NsDecl) (d : NsDecl) :
    (mergeRendered out d).map Prod.fst =
      if d.1 ∈ out.map Prod.fst then out.map Prod.fst else out.map Prod.fst ++ [d.1] := by
  induction out with
  | nil => simp [mergeRendered]
  | cons e rest ih =>
      rw [mergeRendered]
      by_cases he : e.1 = d.1
      · simp [he]
      · rw [if_neg he, List.map_cons, ih]
        by_cases h : d.1 ∈ rest.map Prod.fst
        · simp [h]
        · rw [if_neg h, if_neg (by simp only [List.map_cons, List.mem_cons]; tauto)]
          rfl

theorem nodup_mergeRendered {out : List NsDecl} (h : (out.map Prod.fst).Nodup) (d : NsDecl) :
    ((mergeRendered out d).map Prod.fst).Nodup := by
  rw [keys_mergeRendered]
  split
  · exact h
  next hnew =>
    rw [List.nodup_append]
    refine ⟨h, List.nodup_singleton _, ?_⟩
    rintro p hp q hq rfl
    obtain rfl := List.mem_singleton.mp hq
    exact hnew hp

theorem nodup_mergeAll {out : List NsDecl} (h : (out.map Prod.fst).Nodup) (decls : List NsDecl) :
    ((mergeAll out decls).map Prod.fst).Nodup := by
  induction decls generalizing out with
  | nil => exact h
  | cons d rest ih => exact ih (nodup_mergeRendered h d)

theorem lookup_mergeAll (out decls : List NsDecl) (p : Option Str) :
    (mergeAll out decls).lookup p = (decls.reverse.lookup p).or (out.lookup p) := by
  induction decls generalizing out with
  | nil => rfl
  | cons d rest ih =>
      have hstep : mergeAll out (d :: rest) = mergeAll (mergeRendered out d) rest := rfl
      rw [hstep, ih, lookup_mergeRendered, List.reverse_cons, List.lookup_append, Option.or_assoc]
      congr 1
      rw [lookup_cons]
      split <;> rfl

theorem mem_iff_lookup {out : List NsDecl} (h : (out.map Prod.fst).Nodup) {d : NsDecl} :
    d ∈ out ↔ out.lookup d.1 = some d.2 := by
  rcases d with ⟨p, u⟩
  exact (lookup_eq_some_iff h).symm

/-! ## Layers -/

/-- The bindings of nested declarations, innermost layer first. -/
def scopeList (layers : List NsLayer) : List NsDecl := mergeAll [] (nearestFirst layers).reverse

theorem nodup_scopeList (layers : List NsLayer) : ((scopeList layers).map Prod.fst).Nodup :=
  nodup_mergeAll (by simp) _

/-- A prefix is bound by its nearest declaration. -/
theorem lookup_scopeList (layers : List NsLayer) (p : Option Str) :
    (scopeList layers).lookup p = (nearestFirst layers).lookup p := by
  rw [scopeList, lookup_mergeAll, List.reverse_reverse]
  exact Option.or_none

theorem mem_scopeList {layers : List NsLayer} {d : NsDecl} :
    d ∈ scopeList layers ↔ (nearestFirst layers).lookup d.1 = some d.2 := by
  rw [mem_iff_lookup (nodup_scopeList layers), lookup_scopeList]

theorem mergeAll_scopeList (layers : List NsLayer) (declared : NsLayer) :
    mergeAll (scopeList layers) declared = scopeList (declared :: layers) := by
  rw [scopeList, scopeList, nearestFirst, nearestFirst, List.flatMap_cons, List.reverse_append,
    List.reverse_reverse, mergeAll, mergeAll, mergeAll, List.foldl_append]

/-- The bindings below a chain of ancestors. -/
theorem namespacesInScope_eq (chain : List Element) :
    namespacesInScope chain = scopeList (chain.map (·.namespacesDeclaredHere)).reverse := by
  induction chain using List.reverseRecOn with
  | nil => rfl
  | append_singleton outer e ih =>
      have hstep : namespacesInScope (outer ++ [e]) =
          mergeAll (namespacesInScope outer) e.namespacesDeclaredHere := by
        rw [namespacesInScope, List.foldl_append]
        rfl
      rw [hstep, ih, mergeAll_scopeList, List.map_append, List.reverse_append]
      rfl

theorem lookupInScope_eq {out : List NsDecl} (h : (out.map Prod.fst).Nodup) (p : Option Str) :
    lookupInScope out p = out.lookup p := by
  unfold lookupInScope
  cases hfind : out.reverse.find? fun d => d.1 = p with
  | none =>
      rw [List.find?_eq_none] at hfind
      have hmissing : ¬ (out.lookup p).isSome = true := by
        rw [lookup_isSome_iff]
        intro hmem
        obtain ⟨d, hd, hkey⟩ := List.mem_map.mp hmem
        exact hfind d (List.mem_reverse.mpr hd) (by simpa using hkey)
      exact (Option.not_isSome_iff_eq_none.mp hmissing).symm
  | some d =>
      have hmem := List.mem_reverse.mp (List.mem_of_find?_eq_some hfind)
      have hkey : d.1 = p := by simpa using List.find?_some hfind
      rw [← hkey, (mem_iff_lookup h).mp hmem]
      rfl

theorem binds_iff {out : List NsDecl} {p : Option Str} {uri : Str} :
    binds out p uri = true ↔ (p, uri) ∈ out := by
  simp only [binds, List.any_eq_true, Bool.and_eq_true, decide_eq_true_eq]
  constructor
  · rintro ⟨⟨q, u⟩, hmem, rfl, rfl⟩
    exact hmem
  · intro hmem
    exact ⟨_, hmem, rfl, rfl⟩

theorem resolvePrefix_eq_some_iff {layers : List NsLayer} {p : Option Str} {uri : Str} :
    resolvePrefix layers p = some uri ↔ (p = some ("xml" : Str) ∧ uri = XML_NS) ∨
      (p ≠ some ("xml" : Str) ∧ (nearestFirst layers).lookup p = some uri ∧ uri ≠ []) := by
  by_cases hxml : p = some ("xml" : Str)
  · have hself : resolvePrefix layers p = some XML_NS := if_pos hxml
    rw [hself, Option.some.injEq]
    constructor
    · intro h
      exact .inl ⟨hxml, h.symm⟩
    · rintro (⟨_, h⟩ | ⟨hne, _⟩)
      · exact h.symm
      · exact absurd hxml hne
  · cases hlookup : (nearestFirst layers).lookup p with
    | none =>
        have hnone : resolvePrefix layers p = none := by
          refine (if_neg hxml).trans ?_
          rw [hlookup]
        rw [hnone]
        constructor
        · intro h
          cases h
        · rintro (⟨heq, _⟩ | ⟨_, h, _⟩)
          · exact absurd heq hxml
          · cases h
    | some u =>
        have hfound : resolvePrefix layers p = if u = [] then none else some u := by
          refine (if_neg hxml).trans ?_
          rw [hlookup]
        rw [hfound]
        constructor
        · intro h
          split at h
          · cases h
          next hu =>
            obtain rfl := Option.some.inj h
            exact .inr ⟨hxml, rfl, hu⟩
        · rintro (⟨heq, _⟩ | ⟨_, h, hu⟩)
          · exact absurd heq hxml
          · obtain rfl := Option.some.inj h
            exact if_neg hu

/-! ## Resolved names -/

/-- The names of an element are those its prefixes are bound to. -/
structure Resolved (scope : List NsLayer) (e : Element) : Prop where
  element : e.qname.namespaceUri =
    prefixUri (e.namespacesDeclaredHere :: scope) false e.sourcePrefix ∧
      (e.sourcePrefix.isSome → e.qname.namespaceUri.isSome)
  attributes : ∀ a ∈ e.attributes, a.qname.namespaceUri =
    prefixUri (e.namespacesDeclaredHere :: scope) true a.sourcePrefix ∧
      (a.sourcePrefix.isSome → a.qname.namespaceUri.isSome)

theorem resolveAttribute_resolved {scope : List NsLayer} {raw : RawAttribute} {a : Attribute}
    (h : resolveAttribute scope raw = .ok a) :
    a.qname.namespaceUri = prefixUri scope true a.sourcePrefix ∧
      (a.sourcePrefix.isSome → a.qname.namespaceUri.isSome) := by
  obtain ⟨qname, hqname, h⟩ := bind_eq_ok_iff.mp h
  obtain rfl := Except.ok.inj h
  exact (resolveQName_eq_ok_iff.mp hqname).2

theorem local_resolved (qx : QuickXml) : TreeBuilder.Local qx (fun _ => True) Resolved := by
  constructor
  · intro b next start selfClosing element path _ h
    obtain ⟨raw, _, hdeclared, hqname, hpre, hattributes, _⟩ := TreeBuilder.openElement_scope h
    refine ⟨?_, ?_⟩
    · rw [hdeclared, hpre]
      exact (resolveQName_eq_ok_iff.mp hqname).2
    · intro a ha
      rw [hdeclared]
      obtain ⟨source, _, hsource⟩ := mem_of_mapM_ok hattributes ha
      exact resolveAttribute_resolved hsource
  · intro scope e children h
    exact ⟨h.element, h.attributes⟩

/-- The names of a parsed document are resolved. -/
theorem resolved_parse {qx : QuickXml} {xml : Octets} {limits : XmlLimits} {doc : Document}
    (h : Document.parseWithLimits qx xml limits = .ok doc) : Scoped Resolved [] doc.root :=
  Document.scoped_parseWithLimits (local_resolved qx) (fun _ _ => trivial) h

/-- The canonicalizer finds a prefix for a resolved name. -/
theorem exists_prefixForUri {layers : List NsLayer} {uri : Option Str} {isAttribute : Bool}
    {pfx : Option Str} (h : uri = prefixUri layers isAttribute pfx) :
    ∃ p, prefixForUri (scopeList layers) uri isAttribute pfx = .ok p := by
  unfold prefixForUri
  cases uri with
  | none => exact ⟨none, rfl⟩
  | some u =>
      dsimp only
      by_cases hxml : u = XML_NS
      · exact ⟨_, if_pos hxml⟩
      · rw [if_neg hxml]
        have hresolve : resolvePrefix layers pfx = some u := by
          rw [prefixUri] at h
          split at h
          · cases h
          · exact h.symm
        have hscope : (pfx, u) ∈ scopeList layers := by
          rw [mem_scopeList]
          rcases resolvePrefix_eq_some_iff.mp hresolve with ⟨_, hu⟩ | ⟨_, hlookup, _⟩
          · exact absurd hu hxml
          · exact hlookup
        split
        · exact ⟨_, rfl⟩
        split
        · exact ⟨_, rfl⟩
        next hhint hdefault =>
          have hfound : ∃ d, (scopeList layers).reverse.find?
              (fun d => d.2 = u && !(isAttribute && d.1.isNone)) = some d := by
            rw [← Option.isSome_iff_exists, List.find?_isSome]
            refine ⟨(pfx, u), List.mem_reverse.mpr hscope, ?_⟩
            cases pfx with
            | some p => simp
            | none =>
                cases isAttribute with
                | false => simp
                | true => simp [prefixUri] at h
          obtain ⟨d, hd⟩ := hfound
          exact ⟨d.1, by rw [hd]⟩

end Saml.Dsig.C14n
