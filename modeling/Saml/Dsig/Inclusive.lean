import Saml.Dsig.Scope
import Saml.Dsig.AncestorChain

/-!
# Inclusive canonicalization of a subtree

Canonical XML has the apex of a subtree carry the namespaces in scope and the
`xml:` attributes of its ancestors. The canonicalizer writes the bindings in
scope and the apex's own attributes, so the two agree unless an ancestor has an
`xml:` attribute the apex lacks, or a prefix was undeclared.
-/

namespace Saml.Dsig.C14n

open Xml Library.Association

/-! ## The start tag of the apex -/

/-- What the start tag of the apex shows. -/
structure ApexTag where
  declarations : List NsDecl
  attributes : List Attribute

/-- The start tag inclusive canonicalization writes for the apex, below the
declarations of its ancestors. -/
def apexTag (layers : List NsLayer) (e : Element) : ApexTag where
  declarations := (computeInclusive e (scopeList (e.namespacesDeclaredHere :: layers)) []
    true).insertionSort nsBefore
  attributes := e.attributes.insertionSort attrBefore

/-- A text that opens with a start tag, its names written with prefixes in scope. -/
def OpensWith (layers : List NsLayer) (e : Element) (tag : ApexTag) (text : Str) : Prop :=
  ∃ pfx attributes content,
    prefixForUri (scopeList (e.namespacesDeclaredHere :: layers)) e.qname.namespaceUri false
      e.sourcePrefix = .ok pfx ∧
    tag.attributes.mapM (renderAttribute (scopeList (e.namespacesDeclaredHere :: layers))) =
      .ok attributes ∧
    text = "<" ++ qualifiedName pfx e.qname.localName ++ tag.declarations.flatMap renderDecl ++
      attributes.flatten ++ ">" ++ content

theorem renderAttribute_resolved {layers : List NsLayer} {a : Attribute}
    (h : a.qname.namespaceUri = prefixUri layers true a.sourcePrefix) :
    ∃ text, renderAttribute (scopeList layers) a = .ok text := by
  obtain ⟨pfx, hpfx⟩ := exists_prefixForUri h
  exact ⟨_, bind_eq_ok_iff.mpr ⟨pfx, hpfx, rfl⟩⟩

theorem renderAttributes_resolved {layers : List NsLayer} {e : Element}
    (h : Resolved layers e) : ∃ texts, (e.attributes.insertionSort attrBefore).mapM
      (renderAttribute (scopeList (e.namespacesDeclaredHere :: layers))) = .ok texts := by
  apply exists_mapM_ok
  intro a ha
  rw [List.mem_insertionSort] at ha
  exact renderAttribute_resolved (h.attributes a ha).1

/-- Inclusive canonicalization of resolved trees succeeds. -/
theorem emitElement_inclusive {algorithm : C14nAlgorithm}
    (inclusive : algorithm.isExclusive = false)
    (prefixes : List Str) :
    (∀ (e : Element) (layers : List NsLayer) (rendered : List NsDecl) (isApex : Bool),
      Scoped Resolved layers e → ∃ text,
        emitElement algorithm prefixes (scopeList layers) rendered isApex e = .ok text) ∧
    ∀ (nodes : List Node) (layers : List NsLayer) (rendered : List NsDecl),
      (∀ e, .element e ∈ nodes → Scoped Resolved layers e) → ∃ text,
        emitChildren algorithm prefixes (scopeList layers) rendered nodes = .ok text := by
  apply Element.induct
  case mk =>
    rintro ⟨qname, sourcePrefix, declared, attributes, children, id⟩ ih layers rendered isApex h
    obtain ⟨hself, hbelow⟩ := scoped_iff.mp h
    obtain ⟨pfx, hpfx⟩ := exists_prefixForUri hself.element.1
    obtain ⟨attrs, hattrs⟩ := renderAttributes_resolved hself
    rw [emitElement, computeRenderedNamespaces, if_neg (by simp [inclusive]), mergeAll_scopeList]
    refine exists_bind_ok rfl (exists_bind_ok hpfx (exists_bind_ok hattrs ?_))
    obtain ⟨body, hbody⟩ := ih (declared :: layers) _ fun e he =>
      hbelow e (ElementOf.mem_childElements.mpr he)
    exact exists_bind_ok hbody ⟨_, rfl⟩
  case nil =>
    intro layers rendered _
    exact ⟨[], rfl⟩
  case element =>
    intro child rest ihChild ihRest layers rendered h
    obtain ⟨text, htext⟩ := ihChild layers rendered false (h child List.mem_cons_self)
    obtain ⟨texts, htexts⟩ := ihRest layers rendered fun e he => h e (List.mem_cons_of_mem _ he)
    rw [emitChildren, emitNode]
    exact exists_bind_ok htext (exists_bind_ok htexts ⟨_, rfl⟩)
  case text =>
    intro t rest ih layers rendered h
    obtain ⟨texts, htexts⟩ := ih layers rendered fun e he => h e (List.mem_cons_of_mem _ he)
    rw [emitChildren, emitNode]
    exact exists_bind_ok rfl (exists_bind_ok htexts ⟨_, rfl⟩)
  case comment =>
    intro c rest ih layers rendered h
    obtain ⟨texts, htexts⟩ := ih layers rendered fun e he => h e (List.mem_cons_of_mem _ he)
    rw [emitChildren, emitNode]
    exact exists_bind_ok rfl (exists_bind_ok htexts ⟨_, rfl⟩)

/-- The canonical text of a resolved apex opens with its start tag. -/
theorem canonicalText_inclusive {algorithm : C14nAlgorithm}
    (inclusive : algorithm.isExclusive = false) (prefixes : List Str) {chain : List Element}
    {e : Element} (h : Scoped Resolved (chain.map (·.namespacesDeclaredHere)).reverse e) :
    ∃ text, canonicalText e chain algorithm prefixes = .ok text ∧
      OpensWith (chain.map (·.namespacesDeclaredHere)).reverse e
        (apexTag (chain.map (·.namespacesDeclaredHere)).reverse e) text := by
  rw [canonicalText, namespacesInScope_eq]
  generalize (chain.map (·.namespacesDeclaredHere)).reverse = layers at h ⊢
  obtain ⟨text, htext⟩ := (emitElement_inclusive inclusive prefixes).1 e layers [] true h
  refine ⟨text, htext, ?_⟩
  rcases e with ⟨qname, sourcePrefix, declared, attributes, children, id⟩
  rw [emitElement, computeRenderedNamespaces, if_neg (by simp [inclusive]), mergeAll_scopeList]
    at htext
  obtain ⟨toRender, hrender, htext⟩ := bind_eq_ok_iff.mp htext
  obtain rfl := Except.ok.inj hrender
  obtain ⟨pfx, hpfx, htext⟩ := bind_eq_ok_iff.mp htext
  obtain ⟨attrs, hattrs, htext⟩ := bind_eq_ok_iff.mp htext
  obtain ⟨body, hbody, htext⟩ := bind_eq_ok_iff.mp htext
  obtain rfl := Except.ok.inj htext
  refine ⟨pfx, attrs, body ++ "</" ++ qualifiedName pfx qname.localName ++ ">", hpfx, hattrs, ?_⟩
  simp [apexTag]

/-! ## The rule -/

/-- A namespace in scope: the nearest declaration of its prefix, unless that
undeclares it or is the implicit one of `xml`. -/
def InAxis (layers : List NsLayer) (p : Option Str) (uri : Str) : Prop :=
  (nearestFirst layers).lookup p = some uri ∧ uri ≠ [] ∧ ¬ (p = some ("xml" : Str) ∧ uri = XML_NS)

/-- The value of an attribute on the nearest ancestor that carries it. -/
def nearestAttribute (chain : List Element) (name : QName) : Option Str :=
  chain.reverse.findSome? fun e => e.attr name.namespaceUri name.localName

/-- An `xml:` attribute of the ancestors that the apex does not carry. -/
def Inherited (chain : List Element) (e : Element) (name : QName) (value : Str) : Prop :=
  name.namespaceUri = some XML_NS ∧ (∀ a ∈ e.attributes, a.qname ≠ name) ∧
    nearestAttribute chain name = some value

/-- The start tag canonical XML asks for: each namespace in scope once, the
attributes of the apex, the inherited ones, and nothing more. -/
structure FollowsRule (chain : List Element) (e : Element) (tag : ApexTag) : Prop where
  declarations : ∀ p uri, (p, uri) ∈ tag.declarations ↔
    InAxis (e.namespacesDeclaredHere :: (chain.map (·.namespacesDeclaredHere)).reverse) p uri
  declaredOnce : (tag.declarations.map Prod.fst).Nodup
  attributes : ∀ name value, (∃ a ∈ tag.attributes, a.qname = name ∧ a.value = value) ↔
    (∃ a ∈ e.attributes, a.qname = name ∧ a.value = value) ∨ Inherited chain e name value

/-- Nothing on the ancestors that the apex would have to take over, and no
undeclared prefix. -/
structure NothingToInherit (chain : List Element) (e : Element) : Prop where
  attributes : ∀ ancestor ∈ chain, ∀ a ∈ ancestor.attributes,
    a.qname.namespaceUri = some XML_NS → ∃ b ∈ e.attributes, b.qname = a.qname
  prefixes : ∀ p, (nearestFirst (e.namespacesDeclaredHere ::
    (chain.map (·.namespacesDeclaredHere)).reverse)).lookup (some p) ≠ some []

/-- Which bindings the apex shows. -/
theorem shouldRender_nil {p : Option Str} {uri : Str} :
    shouldRender p uri [] = true ↔
      ¬ (p = some ("xml" : Str) ∧ uri = XML_NS) ∧ ¬ (p = none ∧ uri = []) := by
  unfold shouldRender
  by_cases hxml : p = some ("xml" : Str) ∧ uri = XML_NS
  · simp [hxml]
  · have hnone : lookupInScope [] p = none := rfl
    rw [if_neg hxml, hnone]
    cases p with
    | none => simp
    | some p =>
        simp only [Option.isNone_some, Bool.false_and, Bool.not_false, reduceCtorEq, false_and,
          not_false_eq_true, and_true, true_iff]
        exact hxml

theorem foldl_addRendered {decls out : List NsDecl} (h : ((out ++ decls).map Prod.fst).Nodup) :
    decls.foldl (addRendered []) out = out ++ decls.filter fun d => shouldRender d.1 d.2 [] := by
  induction decls generalizing out with
  | nil => simp
  | cons d rest ih =>
      have hfresh : ¬ (out.any fun e => e.1 = d.1) = true := by
        rw [List.map_append, List.nodup_append] at h
        simp only [List.any_eq_true, decide_eq_true_eq, not_exists, not_and]
        intro e he heq
        exact h.2.2 e.1 (List.mem_map_of_mem he) d.1 (by simp) heq
      rw [List.foldl_cons, addRendered]
      by_cases hshow : shouldRender d.1 d.2 [] = true
      · rw [if_pos hshow, pushUnique, if_neg hfresh, ih (by simpa using h), List.filter_cons,
          if_pos hshow, List.append_assoc, List.singleton_append]
      · have hskip : ((out ++ rest).map Prod.fst).Nodup := by
          refine h.sublist (List.Sublist.map _ ?_)
          exact (List.sublist_cons_self d rest).append_left out
        rw [if_neg hshow, ih hskip, List.filter_cons, if_neg hshow]

theorem mem_apexTag_declarations {layers : List NsLayer} {e : Element} {p : Option Str}
    {uri : Str} : (p, uri) ∈ (apexTag layers e).declarations ↔
      (nearestFirst (e.namespacesDeclaredHere :: layers)).lookup p = some uri ∧
        ¬ (p = some ("xml" : Str) ∧ uri = XML_NS) ∧ ¬ (p = none ∧ uri = []) := by
  have hnodup : ((([] : List NsDecl) ++ (scopeList (e.namespacesDeclaredHere :: layers)).filter
      fun d => !(d.1.isNone && d.2.isEmpty)).map Prod.fst).Nodup :=
    (nodup_scopeList _).sublist (List.filter_sublist.map _)
  have hempty : (p.isNone && uri.isEmpty) = true ↔ p = none ∧ uri = [] := by simp
  rw [apexTag, List.mem_insertionSort, computeInclusive, if_pos rfl, foldl_addRendered hnodup,
    List.nil_append, List.mem_filter, List.mem_filter, mem_scopeList, shouldRender_nil]
  simp only [Bool.not_eq_true', ← Bool.not_eq_true, hempty]
  tauto

theorem nodup_apexTag_declarations (layers : List NsLayer) (e : Element) :
    ((apexTag layers e).declarations.map Prod.fst).Nodup := by
  have hnodup : ((([] : List NsDecl) ++ (scopeList (e.namespacesDeclaredHere :: layers)).filter
      fun d => !(d.1.isNone && d.2.isEmpty)).map Prod.fst).Nodup :=
    (nodup_scopeList _).sublist (List.filter_sublist.map _)
  have hperm := List.perm_insertionSort nsBefore (computeInclusive e
    (scopeList (e.namespacesDeclaredHere :: layers)) [] true)
  refine (hperm.map Prod.fst).nodup_iff.mpr ?_
  rw [computeInclusive, if_pos rfl, foldl_addRendered hnodup, List.nil_append]
  exact (nodup_scopeList _).sublist ((List.filter_sublist.trans List.filter_sublist).map _)

theorem attr_isSome_iff {e : Element} {name : QName} :
    (e.attr name.namespaceUri name.localName).isSome ↔ ∃ a ∈ e.attributes, a.qname = name := by
  rcases name with ⟨uri, loc⟩
  rw [ElementOf.attr, Option.isSome_map, List.find?_isSome]
  refine exists_congr fun a => and_congr_right fun _ => ?_
  rcases hname : a.qname with ⟨u, l⟩
  simp [and_comm]

theorem nearestAttribute_isSome_iff {chain : List Element} {name : QName} :
    (nearestAttribute chain name).isSome ↔
      ∃ ancestor ∈ chain, ∃ a ∈ ancestor.attributes, a.qname = name := by
  rw [nearestAttribute, List.findSome?_isSome_iff]
  constructor
  · rintro ⟨ancestor, hmem, hattr⟩
    exact ⟨ancestor, List.mem_reverse.mp hmem, attr_isSome_iff.mp hattr⟩
  · rintro ⟨ancestor, hmem, hattr⟩
    exact ⟨ancestor, List.mem_reverse.mpr hmem, attr_isSome_iff.mpr hattr⟩

/-- The start tag is the one canonical XML asks for exactly when there is
nothing to inherit. -/
theorem followsRule_iff {chain : List Element} {e : Element} :
    FollowsRule chain e (apexTag (chain.map (·.namespacesDeclaredHere)).reverse e) ↔
      NothingToInherit chain e := by
  have hattributes (name : QName) (value : Str) :
      (∃ a ∈ (apexTag (chain.map (·.namespacesDeclaredHere)).reverse e).attributes,
        a.qname = name ∧ a.value = value) ↔
          ∃ a ∈ e.attributes, a.qname = name ∧ a.value = value := by
    simp only [apexTag, List.mem_insertionSort]
  constructor
  · intro h
    refine ⟨?_, ?_⟩
    · intro ancestor hancestor a ha huri
      by_contra hmissing
      have hsome := nearestAttribute_isSome_iff.mpr ⟨ancestor, hancestor, a, ha, rfl⟩
      obtain ⟨value, hvalue⟩ := Option.isSome_iff_exists.mp hsome
      have hinherited : Inherited chain e a.qname value :=
        ⟨huri, fun b hb heq => hmissing ⟨b, hb, heq⟩, hvalue⟩
      obtain ⟨b, hb, heq, _⟩ := (hattributes _ _).mp ((h.attributes _ _).mpr (.inr hinherited))
      exact hmissing ⟨b, hb, heq⟩
    · intro p hlookup
      have hshown := mem_apexTag_declarations.mpr
        ⟨hlookup, fun h => absurd h.2 (by decide), fun h => by cases h.1⟩
      exact ((h.declarations _ _).mp hshown).2.1 rfl
  · intro h
    refine ⟨?_, nodup_apexTag_declarations _ e, ?_⟩
    · intro p uri
      rw [mem_apexTag_declarations, InAxis]
      constructor
      · rintro ⟨hlookup, hxml, hnone⟩
        refine ⟨hlookup, ?_, hxml⟩
        rintro rfl
        cases p with
        | none => exact hnone ⟨rfl, rfl⟩
        | some p => exact h.prefixes p hlookup
      · rintro ⟨hlookup, hne, hxml⟩
        exact ⟨hlookup, hxml, fun h => hne h.2⟩
    · intro name value
      rw [hattributes]
      refine ⟨Or.inl, ?_⟩
      rintro (hown | ⟨huri, hmissing, hnearest⟩)
      · exact hown
      · obtain ⟨ancestor, hancestor, a, ha, rfl⟩ :=
          nearestAttribute_isSome_iff.mp (by rw [hnearest]; rfl)
        obtain ⟨b, hb, heq⟩ := h.attributes ancestor hancestor a ha huri
        exact absurd heq (hmissing b hb)

/-- Inclusive canonicalization of an element of a parsed document succeeds and
opens with the apex tag, which is the one canonical XML asks for exactly when
there is nothing to inherit. -/
theorem inclusive_apex_iff {qx : QuickXml} {xml : Octets} {limits : XmlLimits} {doc : Document}
    (parsed : Document.parseWithLimits qx xml limits = .ok doc) {path : ElementPath} {e : Element}
    (hwalk : doc.root.walk path = some e) {algorithm : C14nAlgorithm}
    (inclusive : algorithm.isExclusive = false) (prefixes : List Str) :
    ∃ chain text, ancestorChain doc e.id = some chain ∧
      canonicalize e chain algorithm prefixes = .ok (Text.asBytes text) ∧
      OpensWith (chain.map (·.namespacesDeclaredHere)).reverse e
        (apexTag (chain.map (·.namespacesDeclaredHere)).reverse e) text ∧
      (FollowsRule chain e (apexTag (chain.map (·.namespacesDeclaredHere)).reverse e) ↔
        NothingToInherit chain e) := by
  have indexed := Document.wellIndexed_parseWithLimits parsed
  obtain ⟨chain, hchain, _⟩ := ancestorChain_of_walk indexed hwalk
  have hpath : chainTo doc.root path = some chain := by
    rw [ancestorChain, indexed.paths_walk hwalk, Option.bind_some] at hchain
    exact hchain
  have hscope : Scoped Resolved (chain.map (·.namespacesDeclaredHere)).reverse e := by
    have hsub := (resolved_parse parsed).walk hwalk
    rwa [layersTo_of_chainTo hwalk hpath, List.append_nil] at hsub
  obtain ⟨text, htext, hopens⟩ := canonicalText_inclusive inclusive prefixes hscope
  refine ⟨chain, text, hchain, ?_, hopens, followsRule_iff⟩
  rw [canonicalize, htext]
  rfl

/-! ## An inherited language -/

namespace Sample

/-- An element below one that sets the language. -/
def language : Str := "<r xml:lang=\"en\"><a/></r>"

/-- The inner element of the parsed text, with its ancestors. -/
def languageRead : Option (Document × Element × List Element) := do
  let doc ← (Scanning.parseText language).toOption
  let inner ← doc.root.walk [0]
  let chain ← ancestorChain doc inner.id
  some (doc, inner, chain)

theorem exists_language : ∃ doc inner chain,
    Document.parseWithLimits Scanning.reader (Text.asBytes language) .default = .ok doc ∧
      doc.root.walk [0] = some inner ∧ ancestorChain doc inner.id = some chain ∧
      inner.attributes = [] ∧ nearestAttribute chain ⟨some XML_NS, "lang"⟩ = some "en" := by
  have hread : languageRead.any (fun (_, inner, chain) => inner.attributes = [] ∧
      nearestAttribute chain ⟨some XML_NS, "lang"⟩ = some "en") = true := by decide +kernel
  cases hsome : languageRead with
  | none =>
      rw [hsome] at hread
      cases hread
  | some found =>
      rcases found with ⟨doc, inner, chain⟩
      rw [hsome, Option.any_some, decide_eq_true_eq] at hread
      simp only [languageRead, Option.bind_eq_bind, Option.bind_eq_some_iff] at hsome
      obtain ⟨_, hdoc, _, hinner, _, hchain, hsame⟩ := hsome
      obtain ⟨rfl, rfl, rfl⟩ := Prod.mk.injEq .. ▸ Option.some.inj hsame
      exact ⟨_, _, _, (Scanning.parse_asBytes (by decide)).trans (ok_of_toOption hdoc),
        hinner, hchain, hread⟩

end Sample

/-- The inner element does not take over the language of the one around it. -/
theorem language_not_inherited : ∃ doc inner chain,
    Document.parseWithLimits Scanning.reader (Text.asBytes Sample.language) .default = .ok doc ∧
      doc.root.walk [0] = some inner ∧ ancestorChain doc inner.id = some chain ∧
      ¬ FollowsRule chain inner (apexTag (chain.map (·.namespacesDeclaredHere)).reverse inner) := by
  obtain ⟨doc, inner, chain, hdoc, hinner, hchain, hnone, hnearest⟩ := Sample.exists_language
  refine ⟨doc, inner, chain, hdoc, hinner, hchain, ?_⟩
  intro hrule
  have hinherited : Inherited chain inner ⟨some XML_NS, "lang"⟩ "en" := by
    refine ⟨rfl, ?_, hnearest⟩
    rw [hnone]
    exact nofun
  obtain ⟨a, ha, _⟩ := (hrule.attributes _ _).mpr (.inr hinherited)
  rw [apexTag, List.mem_insertionSort, hnone] at ha
  cases ha

theorem inclusive_apex_iff_language : ∃ doc inner chain text,
    Document.parseWithLimits Scanning.reader (Text.asBytes Sample.language) .default = .ok doc ∧
      doc.root.walk [0] = some inner ∧ ancestorChain doc inner.id = some chain ∧
      canonicalize inner chain .inclusiveCanonical [] = .ok (Text.asBytes text) := by
  obtain ⟨doc, inner, _, hdoc, hinner, _⟩ := Sample.exists_language
  have hinclusive : C14nAlgorithm.inclusiveCanonical.isExclusive = false := rfl
  obtain ⟨chain, text, hchain, htext, _⟩ := inclusive_apex_iff hdoc hinner hinclusive []
  exact ⟨doc, inner, chain, text, hdoc, hinner, hchain, htext⟩

end Saml.Dsig.C14n
