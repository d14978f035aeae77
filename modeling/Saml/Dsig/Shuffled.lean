import Saml.Library.Sorting
import Saml.Dsig.Scope
import Saml.Dsig.AncestorChain

/-!
# The order of a start tag

Two trees that differ in the order of the attributes and of the namespace
declarations of their elements, and what the canonicalizer computes from either.
-/

namespace Saml.Dsig.C14n

open Xml Library

/-! ## The two orders -/

instance : Std.Total nsBefore where
  total := by
    rintro ⟨_ | p, u⟩ ⟨_ | q, v⟩
    · exact .inl trivial
    · exact .inl trivial
    · exact .inr trivial
    · exact le_total p q

instance : IsTrans NsDecl nsBefore where
  trans := by
    rintro ⟨_ | p, u⟩ ⟨_ | q, v⟩ ⟨_ | r, w⟩ hpq hqr
    · trivial
    · trivial
    · trivial
    · trivial
    · cases hpq
    · cases hpq
    · cases hqr
    · exact le_trans hpq hqr

theorem eq_of_nsBefore {a b : NsDecl} (hab : nsBefore a b) (hba : nsBefore b a) : a.1 = b.1 := by
  rcases a with ⟨_ | p, u⟩ <;> rcases b with ⟨_ | q, v⟩
  · rfl
  · cases hba
  · cases hab
  · exact congrArg some (le_antisymm hab hba)

/-- The key attributes are sorted by. -/
def attrKey (a : Attribute) : Str × Str := (attrSortUri a, a.qname.localName)

/-- The order of the keys. -/
def keyBefore (x y : Str × Str) : Prop := x.1 < y.1 ∨ x.1 = y.1 ∧ x.2 ≤ y.2

theorem eq_of_keyBefore {x y : Str × Str} (hxy : keyBefore x y) (hyx : keyBefore y x) : x = y := by
  rcases hxy with hlt | ⟨heq, hle⟩ <;> rcases hyx with hlt' | ⟨heq', hle'⟩
  · exact absurd (lt_trans hlt hlt') (lt_irrefl _)
  · exact absurd (heq' ▸ hlt) (lt_irrefl _)
  · exact absurd (heq ▸ hlt') (lt_irrefl _)
  · exact Prod.ext heq (le_antisymm hle hle')

theorem keyBefore_of_attrBefore {a b : Attribute} (h : attrBefore a b) :
    keyBefore (attrKey a) (attrKey b) := h

instance : Std.Total attrBefore where
  total := by
    intro a b
    rcases lt_trichotomy (attrSortUri a) (attrSortUri b) with hlt | heq | hlt
    · exact .inl (.inl hlt)
    · rcases le_total a.qname.localName b.qname.localName with hle | hle
      · exact .inl (.inr ⟨heq, hle⟩)
      · exact .inr (.inr ⟨heq.symm, hle⟩)
    · exact .inr (.inl hlt)

instance : IsTrans Attribute attrBefore where
  trans := by
    rintro a b c (hab | ⟨hab, hle⟩) (hbc | ⟨hbc, hle'⟩)
    · exact .inl (lt_trans hab hbc)
    · exact .inl (hbc ▸ hab)
    · exact .inl (hab ▸ hbc)
    · exact .inr ⟨hab.trans hbc, le_trans hle hle'⟩

/-! ## Shuffled trees -/

mutual

/-- The same element with its attributes and declarations, and those of the
elements below it, in another order. -/
inductive Shuffled : Element → Element → Prop
  | mk {qname : QName} {sourcePrefix : Option Str} {declared declared' : List NsDecl}
      {attributes attributes' : List Attribute} {children children' : List Node}
      {id : ElementId} : declared.Perm declared' → attributes.Perm attributes' →
      ShuffledNodes children children' →
        Shuffled ⟨qname, sourcePrefix, declared, attributes, children, id⟩
          ⟨qname, sourcePrefix, declared', attributes', children', id⟩

/-- The same nodes with shuffled elements. -/
inductive ShuffledNodes : List Node → List Node → Prop
  | nil : ShuffledNodes [] []
  | element {e e' : Element} {rest rest' : List Node} : Shuffled e e' →
      ShuffledNodes rest rest' → ShuffledNodes (.element e :: rest) (.element e' :: rest')
  | text {t : Str} {rest rest' : List Node} : ShuffledNodes rest rest' →
      ShuffledNodes (.text t :: rest) (.text t :: rest')
  | comment {c : Str} {rest rest' : List Node} : ShuffledNodes rest rest' →
      ShuffledNodes (.comment c :: rest) (.comment c :: rest')

end

/-- Nested declarations, each in another order. -/
def Similar (layers layers' : List NsLayer) : Prop := List.Forall₂ List.Perm layers layers'

/-- No start tag declares a prefix twice. -/
def DeclaredOnce (layers : List NsLayer) : Prop := ∀ layer ∈ layers, (layer.map Prod.fst).Nodup

/-! ## Scopes -/

theorem lookup_perm {l l' : List NsDecl} (h : l.Perm l') (nodup : (l.map Prod.fst).Nodup)
    (p : Option Str) : l.lookup p = l'.lookup p := by
  have nodup' : (l'.map Prod.fst).Nodup := (h.map Prod.fst).nodup_iff.mp nodup
  apply Option.ext
  intro u
  rw [Association.lookup_eq_some_iff nodup, Association.lookup_eq_some_iff nodup', h.mem_iff]

theorem lookup_nearestFirst_similar {layers layers' : List NsLayer} (h : Similar layers layers')
    (once : DeclaredOnce layers) (p : Option Str) :
    (nearestFirst layers).lookup p = (nearestFirst layers').lookup p := by
  induction h with
  | nil => rfl
  | @cons layer layer' rest rest' hperm _ ih =>
    have hlayer : layer.reverse.lookup p = layer'.reverse.lookup p := by
      apply lookup_perm
      · exact (List.reverse_perm layer).trans (hperm.trans (List.reverse_perm layer').symm)
      · rw [List.map_reverse, List.nodup_reverse]
        exact once layer List.mem_cons_self
    have hrest := ih fun inner hinner => once inner (List.mem_cons_of_mem layer hinner)
    rw [nearestFirst, nearestFirst, List.flatMap_cons, List.flatMap_cons, List.lookup_append,
      List.lookup_append, hlayer]
    exact congrArg _ hrest

/-- The bindings in scope are the same, in another order. -/
theorem perm_scopeList {layers layers' : List NsLayer} (h : Similar layers layers')
    (once : DeclaredOnce layers) : (scopeList layers).Perm (scopeList layers') := by
  have hnodup (layers : List NsLayer) : (scopeList layers).Nodup :=
    List.Nodup.of_map _ (nodup_scopeList layers)
  rw [List.perm_ext_iff_of_nodup (hnodup layers) (hnodup layers')]
  intro d
  rw [mem_scopeList, mem_scopeList, lookup_nearestFirst_similar h once]

theorem lookupInScope_similar {layers layers' : List NsLayer} (h : Similar layers layers')
    (once : DeclaredOnce layers) (p : Option Str) :
    lookupInScope (scopeList layers) p = lookupInScope (scopeList layers') p := by
  rw [lookupInScope_eq (nodup_scopeList layers), lookupInScope_eq (nodup_scopeList layers'),
    lookup_scopeList, lookup_scopeList, lookup_nearestFirst_similar h once]

/-! ## Names -/

/-- The prefix found for a name is the same for every order of the declarations. -/
def Settled (layers : List NsLayer) (uri : Option Str) (isAttribute : Bool)
    (sourcePrefix : Option Str) : Prop :=
  ∀ layers', Similar layers layers' → prefixForUri (scopeList layers') uri isAttribute
    sourcePrefix = prefixForUri (scopeList layers) uri isAttribute sourcePrefix

/-- A resolved name is found with the prefix it was written with, unless that
prefix is empty. -/
theorem prefixForUri_written {layers : List NsLayer} {u : Str} {isAttribute : Bool}
    {pfx : Option Str} (h : some u = prefixUri layers isAttribute pfx) (hxml : u ≠ XML_NS)
    (hempty : pfx ≠ some []) : prefixForUri (scopeList layers) (some u) isAttribute pfx =
      .ok pfx := by
  have hresolve : resolvePrefix layers pfx = some u := by
    rw [prefixUri] at h
    split at h
    · cases h
    · exact h.symm
  have hscope : (pfx, u) ∈ scopeList layers := by
    rw [mem_scopeList]
    rcases resolvePrefix_eq_some_iff.mp hresolve with ⟨_, hu⟩ | ⟨_, hlookup, _⟩
    · exact absurd hu hxml
    · exact hlookup
  have hbinds := binds_iff.mpr hscope
  unfold prefixForUri
  dsimp only
  rw [if_neg hxml]
  cases pfx with
  | some hint =>
    have hhint : hint ≠ [] := fun hnil => hempty (congrArg some hnil)
    rw [if_pos (by simp [hhint, hbinds])]
  | none =>
    have hattribute : isAttribute = false := by
      cases isAttribute with
      | false => rfl
      | true => cases h
    rw [if_neg (by simp), if_pos (by simp [hattribute, hbinds])]

/-- The nearest declarations decide what a prefix stands for. -/
theorem resolvePrefix_similar {layers layers' : List NsLayer} (h : Similar layers layers')
    (once : DeclaredOnce layers) (p : Option Str) :
    resolvePrefix layers p = resolvePrefix layers' p := by
  apply Option.ext
  intro u
  rw [resolvePrefix_eq_some_iff, resolvePrefix_eq_some_iff, lookup_nearestFirst_similar h once]

theorem prefixUri_similar {layers layers' : List NsLayer} (h : Similar layers layers')
    (once : DeclaredOnce layers) (isAttribute : Bool) (p : Option Str) :
    prefixUri layers isAttribute p = prefixUri layers' isAttribute p := by
  rw [prefixUri, prefixUri, resolvePrefix_similar h once]

/-- Only a name with an empty prefix can be found in two ways. -/
theorem settled_of_prefix {layers : List NsLayer} {uri : Option Str} {isAttribute : Bool}
    {pfx : Option Str} (once : DeclaredOnce layers) (h : uri = prefixUri layers isAttribute pfx)
    (hempty : pfx ≠ some []) : Settled layers uri isAttribute pfx := by
  intro layers' hsimilar
  cases uri with
  | none => rfl
  | some u =>
    by_cases hxml : u = XML_NS
    · rw [prefixForUri, prefixForUri, if_pos hxml, if_pos hxml]
    · rw [prefixForUri_written h hxml hempty,
        prefixForUri_written (h.trans (prefixUri_similar hsimilar once ..)) hxml hempty]

/-- A prefix that was found is bound to the namespace. -/
theorem lookup_of_prefixForUri {layers : List NsLayer} {u p : Str} {isAttribute : Bool}
    {pfx : Option Str} (hxml : u ≠ XML_NS)
    (h : prefixForUri (scopeList layers) (some u) isAttribute pfx = .ok (some p)) :
    lookupInScope (scopeList layers) (some p) = some u := by
  have hscope : (some p, u) ∈ scopeList layers := by
    unfold prefixForUri at h
    dsimp only at h
    rw [if_neg hxml] at h
    split at h
    next hhint =>
      cases h
      rw [Option.any_some, Bool.and_eq_true] at hhint
      exact binds_iff.mp hhint.2
    · split at h
      · cases h
      · split at h
        next d hd =>
          have hu := List.find?_some hd
          have hmem := List.mem_reverse.mp (List.mem_of_find?_eq_some hd)
          rw [Bool.and_eq_true, decide_eq_true_eq] at hu
          rcases d with ⟨q, v⟩
          obtain rfl : q = some p := Except.ok.inj h
          obtain rfl : v = u := hu.1
          exact hmem
        · cases h
  rw [lookupInScope_eq (nodup_scopeList layers),
    (mem_iff_lookup (nodup_scopeList layers)).mp hscope]

/-! ## Rendered bindings -/

theorem mem_pushUnique {out : List NsDecl} {d e : NsDecl} :
    e ∈ pushUnique out d ↔ e ∈ out ∨ e = d ∧ d.1 ∉ out.map Prod.fst := by
  unfold pushUnique
  split
  next hany =>
    simp only [List.any_eq_true, decide_eq_true_eq] at hany
    obtain ⟨x, hx, hkey⟩ := hany
    constructor
    · exact fun h => .inl h
    · rintro (h | ⟨_, hnew⟩)
      · exact h
      · exact absurd (List.mem_map.mpr ⟨x, hx, hkey⟩) hnew
  next hany =>
    simp only [List.any_eq_true, decide_eq_true_eq, not_exists, not_and] at hany
    have hnew : d.1 ∉ out.map Prod.fst := by
      intro hmem
      obtain ⟨x, hx, hkey⟩ := List.mem_map.mp hmem
      exact hany x hx hkey
    simp [hnew]

theorem nodup_pushUnique {out : List NsDecl} (h : (out.map Prod.fst).Nodup) (d : NsDecl) :
    ((pushUnique out d).map Prod.fst).Nodup := by
  unfold pushUnique
  split
  · exact h
  next hany =>
    simp only [List.any_eq_true, decide_eq_true_eq, not_exists, not_and] at hany
    rw [List.map_append, List.map_singleton, List.nodup_append]
    refine ⟨h, List.nodup_singleton _, ?_⟩
    rintro p hp q hq rfl
    obtain rfl := List.mem_singleton.mp hq
    obtain ⟨x, hx, hkey⟩ := List.mem_map.mp hp
    exact hany x hx hkey

/-- Bindings of a prefix that all have the same namespace. -/
def Functional (decls : List NsDecl) : Prop := ∀ d ∈ decls, ∀ e ∈ decls, d.1 = e.1 → d = e

/-- What the rendered bindings are: those not yet shown, each prefix once. -/
theorem foldl_addRendered_spec (rendered : List NsDecl) (decls : List NsDecl) :
    ∀ out, (out.map Prod.fst).Nodup → Functional (out ++ decls) →
      ((decls.foldl (addRendered rendered) out).map Prod.fst).Nodup ∧
        ∀ d, d ∈ decls.foldl (addRendered rendered) out ↔
          d ∈ out ∨ d ∈ decls ∧ shouldRender d.1 d.2 rendered = true := by
  induction decls with
  | nil => exact fun out hnodup _ => ⟨hnodup, fun d => by simp⟩
  | cons first rest ih =>
    intro out hnodup hfunctional
    have hstep : ∀ d, d ∈ addRendered rendered out first ↔
        d ∈ out ∨ d = first ∧ shouldRender first.1 first.2 rendered = true := by
      intro d
      unfold addRendered
      split
      next hrender =>
        rw [mem_pushUnique]
        constructor
        · rintro (h | ⟨rfl, _⟩)
          · exact .inl h
          · exact .inr ⟨rfl, hrender⟩
        · rintro (h | ⟨rfl, _⟩)
          · exact .inl h
          · by_cases hold : d.1 ∈ out.map Prod.fst
            · obtain ⟨x, hx, hkey⟩ := List.mem_map.mp hold
              have heq := hfunctional x (List.mem_append_left _ hx) d (by simp) hkey
              exact .inl (heq ▸ hx)
            · exact .inr ⟨rfl, hold⟩
      next hrender => simp [hrender]
    have hsubset : ∀ d ∈ addRendered rendered out first ++ rest, d ∈ out ++ first :: rest := by
      intro d hd
      rcases List.mem_append.mp hd with hd | hd
      · rcases (hstep d).mp hd with h | ⟨rfl, _⟩
        · exact List.mem_append_left _ h
        · simp
      · simp [hd]
    have hnodup' : ((addRendered rendered out first).map Prod.fst).Nodup := by
      unfold addRendered
      split
      · exact nodup_pushUnique hnodup first
      · exact hnodup
    obtain ⟨hkeys, hmem⟩ := ih _ hnodup' fun d hd e he =>
      hfunctional d (hsubset d hd) e (hsubset e he)
    refine ⟨hkeys, fun d => ?_⟩
    rw [List.foldl_cons, hmem, hstep, List.mem_cons]
    constructor
    · rintro ((h | ⟨rfl, h⟩) | ⟨h, hrender⟩)
      · exact .inl h
      · exact .inr ⟨.inl rfl, h⟩
      · exact .inr ⟨.inr h, hrender⟩
    · rintro (h | ⟨rfl | h, hrender⟩)
      · exact .inl (.inl h)
      · exact .inl (.inr ⟨rfl, hrender⟩)
      · exact .inr ⟨h, hrender⟩

/-- The same bindings are written in the same order. -/
theorem sort_rendered {rendered decls decls' : List NsDecl} (functional : Functional decls)
    (same : ∀ d, d ∈ decls ↔ d ∈ decls') :
    (decls.foldl (addRendered rendered) []).insertionSort nsBefore =
      (decls'.foldl (addRendered rendered) []).insertionSort nsBefore := by
  have functional' : Functional decls' := fun d hd e he =>
    functional d ((same d).mpr hd) e ((same e).mpr he)
  obtain ⟨hnodup, hmem⟩ := foldl_addRendered_spec rendered decls [] List.nodup_nil functional
  obtain ⟨hnodup', hmem'⟩ := foldl_addRendered_spec rendered decls' [] List.nodup_nil functional'
  have hperm : (decls.foldl (addRendered rendered) []).Perm
      (decls'.foldl (addRendered rendered) []) := by
    rw [List.perm_ext_iff_of_nodup (List.Nodup.of_map _ hnodup) (List.Nodup.of_map _ hnodup')]
    intro d
    rw [hmem, hmem', same]
  have hsorted := ((List.perm_insertionSort nsBefore _).trans hperm).trans
    (List.perm_insertionSort nsBefore _).symm
  refine List.Perm.eq_of_pairwise ?_ (List.pairwise_insertionSort nsBefore _)
    (List.pairwise_insertionSort nsBefore _) hsorted
  intro a b ha hb hab hba
  rw [List.mem_insertionSort, hmem] at ha
  rw [List.mem_insertionSort, hmem', ← same] at hb
  rcases ha with ha | ha
  · cases ha
  · rcases hb with hb | hb
    · cases hb
    · exact functional a ha.1 b hb.1 (eq_of_nsBefore hab hba)

end Saml.Dsig.C14n
