import Saml.Dsig.Shuffled

/-!
# The binding declared last

A name whose written prefix is empty is rendered with the last of the bindings
of its namespace. These stand in the order in which their prefixes are first
declared, from the outermost element inwards, so the order of the declarations
matters only among prefixes first declared by one start tag.
-/

namespace Saml.Dsig.C14n

open Xml Library

/-! ## Positions in scope -/

/-- The prefixes that are declared. -/
def declaredPrefixes (layers : List NsLayer) : List (Option Str) :=
  (nearestFirst layers).map Prod.fst

/-- The position of a prefix among the bindings in scope. -/
def position (layers : List NsLayer) (p : Option Str) : Nat :=
  ((scopeList layers).map Prod.fst).idxOf p

theorem mem_keys_scopeList {layers : List NsLayer} {p : Option Str} :
    p ∈ (scopeList layers).map Prod.fst ↔ p ∈ declaredPrefixes layers := by
  rw [declaredPrefixes, ← Association.lookup_isSome_iff, ← Association.lookup_isSome_iff,
    lookup_scopeList]

theorem keys_mergeAll_prefix (out decls : List NsDecl) :
    ∃ more, (mergeAll out decls).map Prod.fst = out.map Prod.fst ++ more := by
  induction decls generalizing out with
  | nil => exact ⟨[], (List.append_nil _).symm⟩
  | cons d rest ih =>
    obtain ⟨more, hmore⟩ := ih (mergeRendered out d)
    have hstep : mergeAll out (d :: rest) = mergeAll (mergeRendered out d) rest := rfl
    rw [hstep, hmore, keys_mergeRendered]
    split
    · exact ⟨more, rfl⟩
    · exact ⟨d.1 :: more, by simp⟩

/-- Inner declarations come after the outer ones. -/
theorem keys_scopeList_append (inner outer : List NsLayer) :
    ∃ more, (scopeList (inner ++ outer)).map Prod.fst =
      (scopeList outer).map Prod.fst ++ more := by
  have hmerge : scopeList (inner ++ outer) =
      mergeAll (scopeList outer) (nearestFirst inner).reverse := by
    rw [scopeList, scopeList, nearestFirst, nearestFirst, nearestFirst, List.flatMap_append,
      List.reverse_append, mergeAll, mergeAll, mergeAll, List.foldl_append]
  rw [hmerge]
  exact keys_mergeAll_prefix _ _

/-- What stands in an initial part stands before what does not. -/
theorem idxOf_lt_of_append {keys front back : List (Option Str)} (hkeys : keys = front ++ back)
    {p q : Option Str} (hp : p ∈ front) (hq : q ∉ front) : keys.idxOf p < keys.idxOf q := by
  rw [hkeys, List.idxOf_append, List.idxOf_append, if_pos hp, if_neg hq]
  have hlt := List.idxOf_lt_length_of_mem hp
  omega

/-- Some outer elements declare the one prefix and not the other. -/
def DeclaredOutside (layers : List NsLayer) (p q : Option Str) : Prop :=
  ∃ n, p ∈ declaredPrefixes (layers.drop n) ∧ q ∉ declaredPrefixes (layers.drop n)

theorem position_lt_of_declaredOutside {layers : List NsLayer} {p q : Option Str}
    (h : DeclaredOutside layers p q) : position layers p < position layers q := by
  obtain ⟨n, hp, hq⟩ := h
  obtain ⟨more, hmore⟩ := keys_scopeList_append (layers.take n) (layers.drop n)
  rw [List.take_append_drop] at hmore
  apply idxOf_lt_of_append hmore
  · exact mem_keys_scopeList.mpr hp
  · exact fun hmem => hq (mem_keys_scopeList.mp hmem)

theorem mem_declaredPrefixes_similar {layers layers' : List NsLayer} (h : Similar layers layers')
    (p : Option Str) : p ∈ declaredPrefixes layers ↔ p ∈ declaredPrefixes layers' := by
  induction h with
  | nil => rfl
  | @cons layer layer' rest rest' hperm _ ih =>
    have hsplit (layer : NsLayer) (rest : List NsLayer) :
        p ∈ declaredPrefixes (layer :: rest) ↔
          p ∈ layer.map Prod.fst ∨ p ∈ declaredPrefixes rest := by
      rw [declaredPrefixes, nearestFirst, List.flatMap_cons, List.map_append, List.mem_append,
        List.map_reverse, List.mem_reverse]
      rfl
    rw [hsplit, hsplit, ih, (hperm.map Prod.fst).mem_iff]

theorem DeclaredOutside.similar {layers layers' : List NsLayer} {p q : Option Str}
    (h : DeclaredOutside layers p q) (hsimilar : Similar layers layers') :
    DeclaredOutside layers' p q := by
  obtain ⟨n, hp, hq⟩ := h
  have hdrop : Similar (layers.drop n) (layers'.drop n) := List.forall₂_drop n hsimilar
  exact ⟨n, (mem_declaredPrefixes_similar hdrop p).mp hp,
    fun hmem => hq ((mem_declaredPrefixes_similar hdrop q).mpr hmem)⟩

/-! ## The last binding of a namespace -/

/-- A prefix that is bound to a namespace and can be written on the name. -/
def Candidate (layers : List NsLayer) (uri : Str) (isAttribute : Bool) (p : Option Str) : Prop :=
  (nearestFirst layers).lookup p = some uri ∧ ¬ (isAttribute = true ∧ p = none)

theorem candidate_similar {layers layers' : List NsLayer} (h : Similar layers layers')
    (once : DeclaredOnce layers) {uri : Str} {isAttribute : Bool} {p : Option Str} :
    Candidate layers uri isAttribute p ↔ Candidate layers' uri isAttribute p := by
  rw [Candidate, Candidate, lookup_nearestFirst_similar h once]

/-- The last binding of a namespace, as `prefix_for_uri` looks for it. -/
def lastBinding (layers : List NsLayer) (uri : Str) (isAttribute : Bool) : Option NsDecl :=
  (scopeList layers).reverse.find? fun d => d.2 = uri && !(isAttribute && d.1.isNone)

theorem prefixForUri_empty {layers : List NsLayer} {uri : Str} (hxml : uri ≠ XML_NS)
    (isAttribute : Bool) : prefixForUri (scopeList layers) (some uri) isAttribute (some []) =
      match lastBinding layers uri isAttribute with
      | some d => .ok d.1
      | none => .error (.xmlEmit ("no namespace prefix in scope for URI " ++ uri)) := by
  unfold prefixForUri lastBinding
  dsimp only
  rw [if_neg hxml, if_neg (by simp)]
  exact if_neg (by simp)

theorem position_lt_of_lastBinding {layers : List NsLayer} {uri : Str} {isAttribute : Bool}
    {d : NsDecl} (h : lastBinding layers uri isAttribute = some d) :
    Candidate layers uri isAttribute d.1 ∧ d.2 = uri ∧
      ∀ q, Candidate layers uri isAttribute q → q ≠ d.1 →
        position layers q < position layers d.1 := by
  obtain ⟨hshows, inner, outer, hsplit, hnone⟩ := List.find?_eq_some_iff_append.mp h
  rw [Bool.and_eq_true, decide_eq_true_eq, Bool.not_eq_true', Bool.and_eq_false_iff,
    Option.isNone_eq_false_iff] at hshows
  obtain ⟨huri, hattribute⟩ := hshows
  have hscope : scopeList layers = outer.reverse ++ d :: inner.reverse := by
    rw [← List.reverse_reverse (scopeList layers), hsplit]
    simp
  have hmem : d ∈ scopeList layers := by simp [hscope]
  refine ⟨⟨huri ▸ mem_scopeList.mp hmem, ?_⟩, huri, ?_⟩
  · rintro ⟨hset, hpre⟩
    rcases hattribute with hunset | hsome
    · rw [hset] at hunset
      cases hunset
    · rw [hpre] at hsome
      cases hsome
  · intro q hq hne
    have hq' : (q, uri) ∈ scopeList layers := mem_scopeList.mpr hq.1
    rw [hscope, List.mem_append, List.mem_cons] at hq'
    have hkeys : (scopeList layers).map Prod.fst =
        outer.reverse.map Prod.fst ++ (d :: inner.reverse).map Prod.fst := by
      rw [hscope, List.map_append]
    rcases hq' with hbefore | heq | hafter
    · apply idxOf_lt_of_append hkeys
      · exact List.mem_map_of_mem hbefore
      · have hnodup := nodup_scopeList layers
        rw [hkeys, List.nodup_append] at hnodup
        exact fun hd => hnodup.2.2 d.1 hd d.1 (by simp) rfl
    · exact absurd (congrArg Prod.fst heq) hne
    · have hshows := hnone (q, uri) (List.mem_reverse.mp hafter)
      cases hset : isAttribute with
      | false => simp [hset] at hshows
      | true =>
        cases q with
        | none => exact absurd ⟨hset, rfl⟩ hq.2
        | some q => simp at hshows

theorem exists_lastBinding {layers : List NsLayer} {uri : Str} {isAttribute : Bool}
    {p : Option Str} (h : Candidate layers uri isAttribute p) :
    ∃ d, lastBinding layers uri isAttribute = some d := by
  rw [← Option.isSome_iff_exists, lastBinding, List.find?_isSome]
  refine ⟨(p, uri), List.mem_reverse.mpr (mem_scopeList.mpr h.1), ?_⟩
  cases p with
  | some p => simp
  | none =>
    cases hset : isAttribute with
    | false => simp
    | true => exact absurd ⟨hset, rfl⟩ h.2

/-- The last binding is the one whose prefix stands last. -/
theorem lastBinding_eq_some_iff {layers : List NsLayer} {uri : Str} {isAttribute : Bool}
    {p : Option Str} : lastBinding layers uri isAttribute = some (p, uri) ↔
      Candidate layers uri isAttribute p ∧ ∀ q, Candidate layers uri isAttribute q → q ≠ p →
        position layers q < position layers p := by
  constructor
  · intro h
    obtain ⟨hcandidate, _, hlast⟩ := position_lt_of_lastBinding h
    exact ⟨hcandidate, hlast⟩
  · rintro ⟨hcandidate, hlast⟩
    obtain ⟨⟨q, v⟩, hd⟩ := exists_lastBinding hcandidate
    obtain ⟨hq, rfl, hlater⟩ := position_lt_of_lastBinding hd
    by_cases hne : q = p
    · rw [hd, hne]
    · exact absurd (hlater p hcandidate (Ne.symm hne)) (Nat.lt_asymm (hlast q hq hne))

/-! ## Decided names -/

/-- One of the prefixes of a namespace is first declared further in than all the
others. -/
def Decided (layers : List NsLayer) (uri : Str) (isAttribute : Bool) : Prop :=
  ∃ p, Candidate layers uri isAttribute p ∧
    ∀ q, Candidate layers uri isAttribute q → q ≠ p → DeclaredOutside layers q p

theorem Decided.lastBinding_similar {layers layers' : List NsLayer} {uri : Str}
    {isAttribute : Bool} (h : Decided layers uri isAttribute) (hsimilar : Similar layers layers')
    (once : DeclaredOnce layers) :
    lastBinding layers' uri isAttribute = lastBinding layers uri isAttribute := by
  obtain ⟨p, hp, houtside⟩ := h
  have hlast : lastBinding layers uri isAttribute = some (p, uri) := by
    rw [lastBinding_eq_some_iff]
    exact ⟨hp, fun q hq hne => position_lt_of_declaredOutside (houtside q hq hne)⟩
  rw [hlast, lastBinding_eq_some_iff]
  refine ⟨(candidate_similar hsimilar once).mp hp, ?_⟩
  intro q hq hne
  have hq' := (candidate_similar hsimilar once).mpr hq
  exact position_lt_of_declaredOutside ((houtside q hq' hne).similar hsimilar)

/-- Prefixes that no outer elements tell apart are first declared by one start tag. -/
theorem exists_sharedLayer {layers : List NsLayer} {p q : Option Str}
    (hp : p ∈ declaredPrefixes layers) (hpq : ¬ DeclaredOutside layers p q)
    (hqp : ¬ DeclaredOutside layers q p) :
    ∃ inner layer outer, layers = inner ++ layer :: outer ∧ p ∈ layer.map Prod.fst ∧
      q ∈ layer.map Prod.fst ∧ q ∉ declaredPrefixes outer := by
  induction layers with
  | nil => cases hp
  | cons layer rest ih =>
    have htogether (n : Nat) : p ∈ declaredPrefixes ((layer :: rest).drop n) ↔
        q ∈ declaredPrefixes ((layer :: rest).drop n) := by
      constructor
      · exact fun h => by_contra fun hq => hpq ⟨n, h, hq⟩
      · exact fun h => by_contra fun hp => hqp ⟨n, h, hp⟩
    have hown {r : Option Str} (hr : r ∈ declaredPrefixes (layer :: rest))
        (hrest : r ∉ declaredPrefixes rest) : r ∈ layer.map Prod.fst := by
      rw [declaredPrefixes, nearestFirst, List.flatMap_cons, List.map_append, List.mem_append,
        List.map_reverse, List.mem_reverse] at hr
      exact hr.resolve_right hrest
    by_cases hrest : p ∈ declaredPrefixes rest
    · have hpq' : ¬ DeclaredOutside rest p q := by
        rintro ⟨n, h⟩
        exact hpq ⟨n + 1, h⟩
      have hqp' : ¬ DeclaredOutside rest q p := by
        rintro ⟨n, h⟩
        exact hqp ⟨n + 1, h⟩
      obtain ⟨inner, shared, outer, rfl, hshared⟩ := ih hrest hpq' hqp'
      exact ⟨layer :: inner, shared, outer, rfl, hshared⟩
    · have hrest' : q ∉ declaredPrefixes rest := fun hq => hrest ((htogether 1).mpr hq)
      exact ⟨[], layer, rest, rfl, hown hp hrest, hown ((htogether 0).mp hp) hrest', hrest'⟩

/-- A declaration moved to the end of the start tag that first declares its
prefix puts the prefix behind the others of that tag. -/
theorem position_lt_of_moved (inner : List NsLayer) {outer : List NsLayer} {layer : NsLayer}
    {p q : Option Str} {v : Str} (hnodup : (layer.map Prod.fst).Nodup) (hp : p ∈ layer.map Prod.fst)
    (hq : (q, v) ∈ layer) (houter : q ∉ declaredPrefixes outer) (hne : p ≠ q) :
    position (inner ++ (layer.erase (q, v) ++ [(q, v)]) :: outer) p <
      position (inner ++ (layer.erase (q, v) ++ [(q, v)]) :: outer) q := by
  obtain ⟨more, hmore⟩ :=
    keys_scopeList_append inner ((layer.erase (q, v) ++ [(q, v)]) :: outer)
  have hperm := List.perm_cons_erase hq
  have hothers : q ∉ (layer.erase (q, v)).map Prod.fst := by
    rw [(hperm.map Prod.fst).nodup_iff, List.map_cons, List.nodup_cons] at hnodup
    exact hnodup.1
  have hscope : scopeList ((layer.erase (q, v) ++ [(q, v)]) :: outer) =
      mergeRendered (scopeList (layer.erase (q, v) :: outer)) (q, v) := by
    rw [← mergeAll_scopeList, ← mergeAll_scopeList, mergeAll, mergeAll, List.foldl_append]
    rfl
  have hmem (r : Option Str) : r ∈ (scopeList (layer.erase (q, v) :: outer)).map Prod.fst ↔
      r ∈ (layer.erase (q, v)).map Prod.fst ∨ r ∈ declaredPrefixes outer := by
    rw [mem_keys_scopeList, declaredPrefixes, nearestFirst, List.flatMap_cons, List.map_append,
      List.mem_append, List.map_reverse, List.mem_reverse]
    rfl
  have hqnew : q ∉ (scopeList (layer.erase (q, v) :: outer)).map Prod.fst := by
    rw [hmem]
    exact fun h => h.elim hothers houter
  rw [hscope, keys_mergeRendered, if_neg hqnew, List.append_assoc] at hmore
  apply idxOf_lt_of_append hmore
  · rw [hmem]
    rw [(hperm.map Prod.fst).mem_iff, List.map_cons, List.mem_cons] at hp
    exact .inl (hp.resolve_left hne)
  · exact hqnew

/-- The order of the declarations decides a name that nothing else decides. -/
theorem exists_similar_of_not_decided {layers : List NsLayer} {uri : Str} {isAttribute : Bool}
    {p : Option Str} (once : DeclaredOnce layers) (hp : Candidate layers uri isAttribute p)
    (h : ¬ Decided layers uri isAttribute) : ∃ layers', Similar layers layers' ∧
      ∃ d d', lastBinding layers uri isAttribute = some d ∧
        lastBinding layers' uri isAttribute = some d' ∧ d.1 ≠ d'.1 := by
  obtain ⟨⟨last, v⟩, hd⟩ := exists_lastBinding hp
  obtain ⟨hlast, rfl, hlater⟩ := position_lt_of_lastBinding hd
  have hrival : ∃ q, Candidate layers v isAttribute q ∧ q ≠ last ∧
      ¬ DeclaredOutside layers q last := by
    by_contra hnone
    push Not at hnone
    exact h ⟨last, hlast, hnone⟩
  obtain ⟨q, hq, hne, houtside⟩ := hrival
  have houtside' : ¬ DeclaredOutside layers last q := by
    intro hout
    exact Nat.lt_asymm (position_lt_of_declaredOutside hout) (hlater q hq hne)
  have hdeclared : last ∈ declaredPrefixes layers :=
    Association.lookup_isSome_iff.mp (by rw [hlast.1]; rfl)
  obtain ⟨inner, layer, outer, rfl, hown, hq', houter⟩ :=
    exists_sharedLayer hdeclared houtside' houtside
  obtain ⟨⟨r, w⟩, hmem, hkey⟩ := List.mem_map.mp hq'
  obtain rfl : q = r := hkey.symm
  have hperm : layer.Perm (layer.erase (q, w) ++ [(q, w)]) :=
    (List.perm_cons_erase hmem).trans (List.perm_append_singleton _ _).symm
  have hsimilar : Similar (inner ++ layer :: outer)
      (inner ++ (layer.erase (q, w) ++ [(q, w)]) :: outer) := by
    apply List.rel_append
    · exact List.forall₂_same.mpr fun _ _ => .refl _
    · exact .cons hperm (List.forall₂_same.mpr fun _ _ => .refl _)
  obtain ⟨d', hd'⟩ := exists_lastBinding ((candidate_similar hsimilar once).mp hp)
  refine ⟨_, hsimilar, _, d', hd, hd', ?_⟩
  intro hsame
  obtain ⟨_, _, hlater'⟩ := position_lt_of_lastBinding hd'
  have hgt := hlater' q ((candidate_similar hsimilar once).mp hq) (hsame ▸ hne)
  have hlt := position_lt_of_moved inner (once layer (by simp)) hown hmem houter
    (Ne.symm hne)
  rw [← hsame] at hgt
  exact Nat.lt_asymm hlt hgt

end Saml.Dsig.C14n
