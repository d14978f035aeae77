import Saml.Dsig.OrderFree
import Saml.Dsig.Inclusive

/-!
# When the order of start tags shows

A document has the same canonical octets for every order of its start tags
exactly when its elements are all order-blind: from the text of a start tag the
prefix of each name and the order of its attributes can be read back.
-/

namespace Saml.Dsig.C14n

open Xml Library

/-! ## Reading a start tag back -/

theorem quote_notMem_attrEscaped (value : Str) : '"' ∉ attrEscaped value := by
  rw [attrEscaped, List.mem_flatMap]
  rintro ⟨c, _, hc⟩
  unfold attrEscape at hc
  split at hc
  · exact absurd hc (by decide)
  · exact absurd hc (by decide)
  · exact absurd hc (by decide)
  · exact absurd hc (by decide)
  · exact absurd hc (by decide)
  · exact absurd hc (by decide)
  next hquote _ _ _ =>
    exact hquote (List.mem_singleton.mp hc).symm

/-- The unescaper takes the escaping of a value back. -/
theorem unescape_attrEscaped (value : Str) :
    Scanning.reader.unescape (attrEscaped value) = .ok value := by
  have href := Scanning.lawful.unescape_ref
  induction value with
  | nil => rfl
  | cons c rest ih =>
    rw [attrEscaped, List.flatMap_cons, ← attrEscaped]
    unfold attrEscape
    split
    · exact href "amp" '&' _ _ (by decide) ih
    · exact href "lt" '<' _ _ (by decide) ih
    · exact href "quot" '"' _ _ (by decide) ih
    · exact href "#x9" '\t' _ _ (by decide) ih
    · exact href "#xA" '\n' _ _ (by decide) ih
    · exact href "#xD" '\r' _ _ (by decide) ih
    next hamp _ _ _ _ _ => exact Scanning.lawful.unescape_char _ _ _ hamp ih

theorem attrEscaped_injective {v w : Str} (h : attrEscaped v = attrEscaped w) : v = w := by
  have hv := unescape_attrEscaped v
  rw [h, unescape_attrEscaped w] at hv
  exact (Except.ok.inj hv).symm

theorem qualifiedName_injective {p q : Option Str} {loc : Str}
    (h : qualifiedName p loc = qualifiedName q loc) : p = q := by
  have hlen := congrArg List.length h
  cases p with
  | none =>
    cases q with
    | none => rfl
    | some q =>
      simp only [qualifiedName, List.length_append, List.length_cons] at hlen
      omega
  | some p =>
    cases q with
    | none =>
      simp only [qualifiedName, List.length_append, List.length_cons] at hlen
      omega
    | some q => exact congrArg some (List.append_cancel_right h)

/-- Two texts cut at the first occurrence of a character. -/
theorem cut_inj {c : Char} {s t rest rest' : Str} (hs : c ∉ s) (ht : c ∉ t)
    (h : s ++ c :: rest = t ++ c :: rest') : s = t ∧ rest = rest' := by
  induction s generalizing t with
  | nil =>
    cases t with
    | nil => exact ⟨rfl, (List.cons.inj h).2⟩
    | cons d t => exact absurd (by simp [(List.cons.inj h).1]) ht
  | cons d s ih =>
    cases t with
    | nil => exact absurd (by simp [(List.cons.inj h).1]) hs
    | cons e t =>
      obtain ⟨rfl, htail⟩ := List.cons.inj h
      obtain ⟨rfl, hrest⟩ := ih (fun hc => hs (List.mem_cons_of_mem _ hc))
        (fun hc => ht (List.mem_cons_of_mem _ hc)) htail
      exact ⟨rfl, hrest⟩

/-- A rendered attribute is read back from what follows the attributes before it. -/
theorem emitPair_append_inj {name name' value value' rest rest' : Str} (hname : '=' ∉ name)
    (hname' : '=' ∉ name')
    (h : emitPair name (attrEscaped value) ++ rest =
      emitPair name' (attrEscaped value') ++ rest') :
    name = name' ∧ value = value' ∧ rest = rest' := by
  have hpair (name value rest : Str) : emitPair name (attrEscaped value) ++ rest =
      ' ' :: (name ++ '=' :: '"' :: (attrEscaped value ++ '"' :: rest)) := by
    unfold emitPair
    simp only [List.append_assoc]
    rfl
  rw [hpair, hpair] at h
  obtain ⟨hnames, hvalues⟩ := cut_inj hname hname' (List.cons.inj h).2
  obtain ⟨hescaped, hrest⟩ := cut_inj (quote_notMem_attrEscaped value)
    (quote_notMem_attrEscaped value') (List.cons.inj hvalues).2
  exact ⟨hnames, attrEscaped_injective hescaped, hrest⟩

/-! ## Plain names -/

/-- What the reader's names are cut by: a name ends at a blank, and the key of an
attribute at the latest before the equals sign. -/
def TagPlain (s : BytesStart) : Prop :=
  ' ' ∉ s.name ∧ ∀ a, .ok a ∈ s.attributes → ' ' ∉ a.key ∧ '=' ∉ a.key

/-- A reader that cuts names so. -/
def CutsNames (qx : QuickXml) : Prop :=
  ∀ octets s, Reports (qx.readEvents octets) s → TagPlain s

theorem qname_plain {name : Str} (h : isQName name = true) : ' ' ∉ name ∧ '=' ∉ name := by
  have hpart : ∀ s : Str, isNcName s = true → ' ' ∉ s ∧ '=' ∉ s := by
    intro s hs
    have hall := (isNcName_iff.mp hs).2
    exact ⟨fun hc => absurd (hall _ hc).1 (by decide), fun hc => absurd (hall _ hc).1 (by decide)⟩
  unfold isQName at h
  dsimp only at h
  rw [Bool.and_eq_true] at h
  obtain ⟨hlocal, hpre⟩ := h
  rw [← qualifiedName_decompose name]
  cases hp : (QxQName.decompose name).2 with
  | none => exact hpart _ hlocal
  | some p =>
    rw [hp, Option.all_some] at hpre
    simp [qualifiedName, hpart _ hlocal, hpart _ hpre]

/-- The scanning reader cuts names at these characters. -/
theorem cutsNames_scanning : CutsNames Scanning.reader := by
  intro octets s hs
  obtain ⟨hname, hkeys⟩ := Scanning.lawful.names octets s hs
  exact ⟨(qname_plain hname).1, fun a ha => qname_plain (hkeys a ha)⟩

/-- The names of an element hold nothing that ends a name. -/
structure PlainNamed (_ : List NsLayer) (e : Element) : Prop where
  element : ' ' ∉ e.qname.localName
  attributes : ∀ a ∈ e.attributes, '=' ∉ a.qname.localName
  declared : ∀ p ∈ e.namespacesDeclaredHere.map Prod.fst, ∀ q, p = some q → ' ' ∉ q ∧ '=' ∉ q

theorem mem_of_mem_decompose {name : Str} {c : Char} (h : c ∈ (QxQName.decompose name).1) :
    c ∈ name := by
  rw [← qualifiedName_decompose name]
  cases (QxQName.decompose name).2 with
  | none => exact h
  | some p => exact List.mem_append_right _ (List.mem_cons_of_mem _ h)

theorem local_plainNamed (qx : QuickXml) : TreeBuilder.Local qx TagPlain PlainNamed := by
  constructor
  · intro b next start selfClosing element path tag h
    obtain ⟨raw, hraw, hdeclared, hqname, _, hattributes, _⟩ := TreeBuilder.openElement_scope h
    obtain ⟨_, hsub⟩ := collectAttributes_ok hraw
    have hkeys : ∀ key ∈ (start.attributes.filterMap Except.toOption).map RawAttribute.key,
        ' ' ∉ key ∧ '=' ∉ key := by
      intro key hkey
      obtain ⟨a, ha, rfl⟩ := List.mem_map.mp hkey
      obtain ⟨item, hitem, hsome⟩ := List.mem_filterMap.mp ha
      cases item with
      | error e => cases hsome
      | ok read =>
        obtain rfl := Option.some.inj hsome
        exact tag.2 read hitem
    constructor
    · rw [(resolveQName_eq_ok_iff.mp hqname).1]
      exact fun hmem => tag.1 (mem_of_mem_decompose hmem)
    · intro a ha
      obtain ⟨source, hsource, hresolved⟩ := mem_of_mapM_ok hattributes ha
      have hlocal : a.qname.localName = (QxQName.decompose source.key).1 :=
        congrArg Prod.fst (writtenName_resolveAttribute hresolved)
      rw [hlocal]
      intro hmem
      exact (hkeys _ (hsub.subset (List.mem_map_of_mem hsource))).2 (mem_of_mem_decompose hmem)
    · rintro p hp q rfl
      rw [hdeclared, collectAttributes_declared hraw, List.mem_filterMap] at hp
      obtain ⟨key, hkey, hbinding⟩ := hp
      have hplain := hkeys key hkey
      rw [key_of_asNamespaceBinding hbinding] at hplain
      constructor
      · exact fun hmem => hplain.1 (List.mem_append_right _ (List.mem_cons_of_mem _ hmem))
      · exact fun hmem => hplain.2 (List.mem_append_right _ (List.mem_cons_of_mem _ hmem))
  · intro scope e children h
    exact ⟨h.element, h.attributes, h.declared⟩

/-- The declared prefixes hold nothing that ends a name. -/
def PlainLayers (layers : List NsLayer) : Prop :=
  ∀ layer ∈ layers, ∀ p ∈ layer.map Prod.fst, ∀ q, p = some q → ' ' ∉ q ∧ '=' ∉ q

/-- A prefix that is shown is a declared one, or `xml`. -/
theorem shown_plain {layers : List NsLayer} (plain : PlainLayers layers)
    {uri : Option Str} {isAttribute : Bool} {pfx : Option Str} {q : Str}
    (h : prefixForUri (scopeList layers) uri isAttribute pfx = .ok (some q)) :
    ' ' ∉ q ∧ '=' ∉ q := by
  cases uri with
  | none => cases h
  | some u =>
    by_cases hxml : u = XML_NS
    · rw [prefixForUri, if_pos hxml] at h
      obtain rfl := Option.some.inj (Except.ok.inj h)
      decide
    · have hlookup := lookup_of_prefixForUri hxml h
      rw [lookupInScope_eq (nodup_scopeList layers), lookup_scopeList] at hlookup
      obtain ⟨layer, hlayer, hmem⟩ := List.mem_flatMap.mp (Association.mem_of_lookup hlookup)
      exact plain layer hlayer _ (List.mem_map_of_mem (List.mem_reverse.mp hmem)) q rfl

theorem PlainLayers.similar {layers layers' : List NsLayer} (plain : PlainLayers layers)
    (h : Similar layers layers') : PlainLayers layers' := by
  induction h with
  | nil => exact nofun
  | @cons layer layer' rest rest' hperm _ ih =>
    intro found hfound p hp
    rcases List.mem_cons.mp hfound with rfl | hfound
    · exact plain layer List.mem_cons_self p ((hperm.map Prod.fst).mem_iff.mpr hp)
    · exact ih (fun inner hinner => plain inner (List.mem_cons_of_mem _ hinner)) found hfound p hp

/-! ## Reordered documents -/

theorem Shuffled.refl : (∀ e, Shuffled e e) ∧ ∀ nodes, ShuffledNodes nodes nodes := by
  apply Element.induct
  case mk =>
    rintro ⟨qname, sourcePrefix, declared, attributes, children, id⟩ ih
    exact .mk (.refl _) (.refl _) ih
  case nil => exact .nil
  case element => exact fun e rest he hrest => .element he hrest
  case text => exact fun t rest hrest => .text hrest
  case comment => exact fun c rest hrest => .comment hrest

/-- One of the elements below is shuffled. -/
theorem ShuffledNodes.set {nodes : List Node} {index : Nat} {e e' : Element}
    (h : nodes[index]? = some (.element e)) (hshuffled : Shuffled e e') :
    ShuffledNodes nodes (nodes.set index (.element e')) := by
  induction nodes generalizing index with
  | nil => cases h
  | cons node rest ih =>
    cases index with
    | zero =>
      obtain rfl := Option.some.inj h
      exact .element hshuffled (Shuffled.refl.2 rest)
    | succ index =>
      have hget : rest[index]? = some (.element e) := h
      have hrest := ih hget
      cases node with
      | element first => exact .element (Shuffled.refl.1 first) hrest
      | text t => exact .text hrest
      | comment c => exact .comment hrest

theorem exists_of_similar_append {layers layers' : List NsLayer} {layer : NsLayer}
    (h : Similar (layers ++ [layer]) layers') : ∃ inner outer, layers' = inner ++ [outer] ∧
      Similar layers inner ∧ layer.Perm outer := by
  have hreverse := List.forall₂_reverse_iff.mpr h
  rw [List.reverse_append] at hreverse
  obtain ⟨outer, inner, houter, hinner, heq⟩ := List.forall₂_cons_left_iff.mp hreverse
  refine ⟨inner.reverse, outer, ?_, ?_, houter⟩
  · rw [← List.reverse_reverse layers', heq, List.reverse_cons]
  · rw [Similar, ← List.forall₂_reverse_iff, List.reverse_reverse]
    exact hinner

/-- The declarations around an element and its own can be put in any order, and
its attributes too. -/
theorem exists_shuffled {root d : Element} {path : ElementPath} {layers' : List NsLayer}
    {attributes' : List Attribute} (hwalk : root.walk path = some d)
    (hsimilar : Similar (d.namespacesDeclaredHere :: layersTo root path) layers')
    (hperm : d.attributes.Perm attributes') :
    ∃ root' declared', Shuffled root root' ∧
      root'.walk path = some (reordered d declared' attributes' d.children) ∧
      declared' :: layersTo root' path = layers' := by
  induction path generalizing root layers' with
  | nil =>
    obtain rfl := Option.some.inj hwalk
    rcases root with ⟨qname, sourcePrefix, declared, attributes, children, id⟩
    obtain ⟨declared', rest, hdeclared, hrest, rfl⟩ := List.forall₂_cons_left_iff.mp hsimilar
    obtain rfl := List.forall₂_nil_left_iff.mp hrest
    exact ⟨⟨qname, sourcePrefix, declared', attributes', children, id⟩, declared',
      .mk hdeclared hperm (Shuffled.refl.2 children), rfl, rfl⟩
  | cons index rest ih =>
    rcases root with ⟨qname, sourcePrefix, declared, attributes, children, id⟩
    rw [ElementOf.walk] at hwalk
    split at hwalk
    next child hchild =>
      rw [layersTo, hchild] at hsimilar
      have hsplit : Similar ((d.namespacesDeclaredHere :: layersTo child rest) ++ [declared])
          layers' := hsimilar
      obtain ⟨inner, outer, rfl, hinner, houter⟩ := exists_of_similar_append hsplit
      obtain ⟨child', declared', hshuffled, hwalk', hlayers⟩ := ih hwalk hinner
      have hchild' : (children.set index (.element child'))[index]? = some (.element child') := by
        rw [List.getElem?_set_self (List.getElem?_eq_some_iff.mp hchild).1]
      refine ⟨⟨qname, sourcePrefix, outer, attributes, children.set index (.element child'), id⟩,
        declared', .mk houter (.refl _) (ShuffledNodes.set hchild hshuffled), ?_, ?_⟩
      · rw [ElementOf.walk, hchild']
        exact hwalk'
      · rw [layersTo, hchild', ← hlayers]
        rfl
    next => cases hwalk

theorem ShuffledNodes.getElem? {nodes nodes' : List Node} (h : ShuffledNodes nodes nodes')
    {index : Nat} {e : Element} (hget : nodes[index]? = some (.element e)) :
    ∃ e', nodes'[index]? = some (.element e') ∧ Shuffled e e' := by
  induction nodes generalizing nodes' index with
  | nil => cases hget
  | cons node rest ih =>
    cases index with
    | zero =>
      obtain rfl := Option.some.inj hget
      cases h with
      | element he _ => exact ⟨_, rfl, he⟩
    | succ index =>
      have hrest : rest[index]? = some (.element e) := hget
      cases h with
      | element _ hnodes => exact ih hnodes hrest
      | text hnodes => exact ih hnodes hrest
      | comment hnodes => exact ih hnodes hrest

/-- The element at the same place of a shuffled tree. -/
theorem Shuffled.walk {root root' d : Element} {path : ElementPath} (h : Shuffled root root')
    (hwalk : root.walk path = some d) : ∃ d', root'.walk path = some d' ∧ Shuffled d d' ∧
      Similar (layersTo root path) (layersTo root' path) := by
  induction path generalizing root root' with
  | nil =>
    obtain rfl := Option.some.inj hwalk
    exact ⟨root', rfl, h, .nil⟩
  | cons index rest ih =>
    rw [ElementOf.walk] at hwalk
    split at hwalk
    next child hchild =>
      cases h with
      | @mk _ _ declared declared' _ _ children children' _ hdeclared _ hchildren =>
        obtain ⟨child', hchild', hshuffled⟩ := hchildren.getElem? hchild
        obtain ⟨d', hd', hsame, hlayers⟩ := ih hshuffled hwalk
        refine ⟨d', ?_, hsame, ?_⟩
        · rw [ElementOf.walk, hchild']
          exact hd'
        · rw [layersTo, layersTo, hchild, hchild']
          exact List.rel_append hlayers (.cons hdeclared .nil)
    next => cases hwalk

theorem Shuffled.id_eq {e e' : Element} (h : Shuffled e e') : e'.id = e.id := by
  cases h
  rfl

/-- The canonical octets of every element are the same for every order of the
start tags of a document. -/
def OrderFree (doc : Document) : Prop :=
  ∀ root', Shuffled doc.root root' → ∀ path d, doc.root.walk path = some d →
    ∃ d' chain chain', root'.walk path = some d' ∧ ancestorChain doc d.id = some chain ∧
      ancestorChain { doc with root := root' } d'.id = some chain' ∧
      ∀ algorithm prefixes,
        canonicalize d' chain' algorithm prefixes = canonicalize d chain algorithm prefixes

/-- An element is canonicalized below the declarations on the way to it. -/
theorem canonicalText_eq {root d : Element} {path : ElementPath} {chain : List Element}
    (hwalk : root.walk path = some d) (hchain : chainTo root path = some chain)
    (algorithm : C14nAlgorithm) (prefixes : List Str) :
    canonicalText d chain algorithm prefixes =
      emitElement algorithm prefixes (scopeList (layersTo root path)) [] true d := by
  rw [canonicalText, namespacesInScope_eq, layersTo_of_chainTo hwalk hchain]

theorem exists_chain {doc : Document} (indexed : doc.WellIndexed) {root' d d' : Element}
    {path : ElementPath} (hwalk : doc.root.walk path = some d)
    (hwalk' : root'.walk path = some d') (hid : d'.id = d.id) :
    ∃ chain, ancestorChain { doc with root := root' } d'.id = some chain ∧
      chainTo root' path = some chain := by
  obtain ⟨chain, hchain, _⟩ := chainTo_of_walk hwalk'
  refine ⟨chain, ?_, hchain⟩
  rw [ancestorChain, hid, indexed.paths_walk hwalk]
  exact hchain

/-- Where no order shows, the canonical octets do not depend on it. -/
theorem orderFree_of_steady {doc : Document} (indexed : doc.WellIndexed)
    (steady : Scoped Steady [] doc.root) : OrderFree doc := by
  intro root' hshuffled path d hwalk
  obtain ⟨d', hwalk', hsame, hlayers⟩ := hshuffled.walk hwalk
  obtain ⟨chain, hchain, hpath⟩ := exists_chain indexed hwalk hwalk rfl
  obtain ⟨chain', hchain', hpath'⟩ := exists_chain indexed hwalk hwalk' hsame.id_eq
  refine ⟨d', chain, chain', hwalk', hchain, hchain', ?_⟩
  intro algorithm prefixes
  have hbelow := steady.walk hwalk
  rw [List.append_nil] at hbelow
  rw [canonicalize, canonicalize, canonicalText_eq hwalk hpath, canonicalText_eq hwalk' hpath',
    (emitElement_shuffled algorithm prefixes).1 d d' _ _ [] true hsame hlayers hbelow]

/-! ## What the text of an element shows -/

theorem canonicalText_of_canonicalize {d d' : Element} {chain chain' : List Element}
    {algorithm : C14nAlgorithm} {prefixes : List Str}
    (h : canonicalize d' chain' algorithm prefixes = canonicalize d chain algorithm prefixes) :
    canonicalText d' chain' algorithm prefixes = canonicalText d chain algorithm prefixes := by
  unfold canonicalize at h
  cases hd : canonicalText d chain algorithm prefixes with
  | ok text =>
    cases hd' : canonicalText d' chain' algorithm prefixes with
    | ok text' =>
      rw [hd, hd'] at h
      exact congrArg Except.ok (Text.asBytes_injective (Except.ok.inj h))
    | error err' =>
      rw [hd, hd'] at h
      cases h
  | error err =>
    cases hd' : canonicalText d' chain' algorithm prefixes with
    | ok text' =>
      rw [hd, hd'] at h
      cases h
    | error err' =>
      rw [hd, hd'] at h
      exact congrArg Except.error (Except.error.inj h)

/-- In an order-free document the text of an element is that of each reordering
of its start tag and of those around it. -/
theorem emitElement_of_orderFree {doc : Document} (indexed : doc.WellIndexed)
    (h : OrderFree doc) {path : ElementPath} {d : Element} (hwalk : doc.root.walk path = some d)
    {declared' : List NsDecl} {layers' : List NsLayer} {attributes' : List Attribute}
    (hdeclared : d.namespacesDeclaredHere.Perm declared')
    (hsimilar : Similar (layersTo doc.root path) layers')
    (hperm : d.attributes.Perm attributes') (algorithm : C14nAlgorithm) (prefixes : List Str) :
    emitElement algorithm prefixes (scopeList layers') [] true
        (reordered d declared' attributes' d.children) =
      emitElement algorithm prefixes (scopeList (layersTo doc.root path)) [] true d := by
  obtain ⟨root', declared'', hshuffled, hwalk', heq⟩ :=
    exists_shuffled hwalk (.cons hdeclared hsimilar) hperm
  obtain ⟨rfl, rfl⟩ := List.cons.inj heq
  obtain ⟨d', chain, chain', hd', hchain, hchain', hsame⟩ := h root' hshuffled path d hwalk
  rw [hwalk'] at hd'
  obtain rfl := Option.some.inj hd'
  have hpath : chainTo doc.root path = some chain := by
    rw [ancestorChain, indexed.paths_walk hwalk] at hchain
    exact hchain
  have hpath' : chainTo root' path = some chain' := by
    rw [ancestorChain] at hchain'
    have hid : (reordered d declared'' attributes' d.children).id = d.id := rfl
    rw [hid, indexed.paths_walk hwalk] at hchain'
    exact hchain'
  rw [← canonicalText_eq hwalk hpath, ← canonicalText_eq hwalk' hpath']
  exact canonicalText_of_canonicalize (hsame algorithm prefixes)

/-- The text of an inclusively canonicalized element opens with its start tag. -/
theorem opensWith_of_emitElement {layers : List NsLayer} {e : Element} {text : Str}
    (h : emitElement .inclusiveCanonical [] (scopeList layers) [] true e = .ok text) :
    OpensWith layers e (apexTag layers e) text := by
  rw [emitElement_eq] at h
  obtain ⟨nsSorted, hsorted, h⟩ := bind_eq_ok_iff.mp h
  obtain ⟨pfx, hpfx, h⟩ := bind_eq_ok_iff.mp h
  obtain ⟨attrs, hattrs, h⟩ := bind_eq_ok_iff.mp h
  obtain ⟨body, _, h⟩ := bind_eq_ok_iff.mp h
  obtain rfl := Except.ok.inj hsorted
  refine ⟨pfx, attrs, body ++ "</" ++ qualifiedName pfx e.qname.localName ++ ">", hpfx, hattrs,
    ?_⟩
  rw [← Except.ok.inj h]
  simp [apexTag]

/-- What the names of an element need for its start tag to be read back. -/
structure ReadsBack (layers : List NsLayer) (e : Element) : Prop where
  resolved : Resolved layers e
  once : DeclaredOnce (e.namespacesDeclaredHere :: layers)
  named : PlainNamed layers e
  plain : PlainLayers (e.namespacesDeclaredHere :: layers)

/-- The declarations in scope of a name in a namespace are not empty. -/
theorem exists_blank {layers : List NsLayer} {e : Element} {u : Str} (h : Resolved layers e)
    (huri : e.qname.namespaceUri = some u) (hxml : u ≠ XML_NS) :
    ∃ rest, (apexTag layers e).declarations.flatMap renderDecl = ' ' :: rest := by
  have hname := h.element.1
  rw [huri, prefixUri, Bool.false_and, if_neg Bool.false_ne_true] at hname
  rcases resolvePrefix_eq_some_iff.mp hname.symm with ⟨_, heq⟩ | ⟨_, hlookup, hne⟩
  · exact absurd heq hxml
  · have hmem := mem_apexTag_declarations.mpr
      ⟨hlookup, fun heq => hxml heq.2, fun heq => hne heq.2⟩
    cases hdecls : (apexTag layers e).declarations with
    | nil =>
      rw [hdecls] at hmem
      cases hmem
    | cons first others => exact ⟨_, rfl⟩

/-- The name of an element, cut off at the first blank of its start tag. -/
theorem elementPrefix_eq {layers layers' : List NsLayer} {e : Element} (h : ReadsBack layers e)
    {declared' : List NsDecl} (hdeclared : e.namespacesDeclaredHere.Perm declared')
    (hsimilar : Similar layers layers') {p p' : Option Str} {rest rest' : Str}
    (hp : prefixForUri (scopeList (e.namespacesDeclaredHere :: layers)) e.qname.namespaceUri false
      e.sourcePrefix = .ok p)
    (hp' : prefixForUri (scopeList (declared' :: layers')) e.qname.namespaceUri false
      e.sourcePrefix = .ok p')
    (htext : qualifiedName p e.qname.localName ++
        ((apexTag layers e).declarations.flatMap renderDecl ++ rest) =
      qualifiedName p' e.qname.localName ++
        ((apexTag layers e).declarations.flatMap renderDecl ++ rest')) : p = p' := by
  cases huri : e.qname.namespaceUri with
  | none =>
    rw [huri] at hp hp'
    exact (Except.ok.inj hp).symm.trans (Except.ok.inj hp')
  | some u =>
    by_cases hxml : u = XML_NS
    · rw [huri, prefixForUri, if_pos hxml] at hp hp'
      exact (Except.ok.inj hp).symm.trans (Except.ok.inj hp')
    · obtain ⟨more, hblank⟩ := exists_blank h.resolved huri hxml
      have hname (layers : List NsLayer) (plain : PlainLayers layers) {p : Option Str}
          (hp : prefixForUri (scopeList layers) e.qname.namespaceUri false e.sourcePrefix =
            .ok p) : ' ' ∉ qualifiedName p e.qname.localName := by
        cases p with
        | none => exact h.named.element
        | some q =>
          have hplain := (shown_plain plain hp).1
          simp [qualifiedName, hplain, h.named.element]
      have hplain' := h.plain.similar (.cons hdeclared hsimilar)
      rw [hblank] at htext
      exact qualifiedName_injective
        (cut_inj (hname _ h.plain hp) (hname _ hplain' hp') htext).1

/-- The names of attributes are read back from their texts. -/
theorem attributePrefixes_eq {scope scope' : List NsDecl} {attributes : List Attribute}
    {texts texts' : List Str} {rest rest' : Str}
    (plain : ∀ a ∈ attributes, ∀ p,
      prefixForUri scope a.qname.namespaceUri true a.sourcePrefix = .ok p ∨
        prefixForUri scope' a.qname.namespaceUri true a.sourcePrefix = .ok p →
          '=' ∉ qualifiedName p a.qname.localName)
    (h : attributes.mapM (renderAttribute scope) = .ok texts)
    (h' : attributes.mapM (renderAttribute scope') = .ok texts')
    (htext : texts.flatten ++ rest = texts'.flatten ++ rest') :
    ∀ a ∈ attributes, prefixForUri scope a.qname.namespaceUri true a.sourcePrefix =
      prefixForUri scope' a.qname.namespaceUri true a.sourcePrefix := by
  induction attributes generalizing texts texts' with
  | nil => exact nofun
  | cons a others ih =>
    rw [List.mapM_cons] at h h'
    obtain ⟨first, hfirst, h⟩ := bind_eq_ok_iff.mp h
    obtain ⟨first', hfirst', h'⟩ := bind_eq_ok_iff.mp h'
    obtain ⟨more, hmore, h⟩ := bind_eq_ok_iff.mp h
    obtain ⟨more', hmore', h'⟩ := bind_eq_ok_iff.mp h'
    obtain rfl := Except.ok.inj h
    obtain rfl := Except.ok.inj h'
    obtain ⟨p, hp, hfirst⟩ := bind_eq_ok_iff.mp hfirst
    obtain ⟨p', hp', hfirst'⟩ := bind_eq_ok_iff.mp hfirst'
    obtain rfl := Except.ok.inj hfirst
    obtain rfl := Except.ok.inj hfirst'
    rw [List.flatten_cons, List.flatten_cons, List.append_assoc, List.append_assoc] at htext
    obtain ⟨hname, _, htail⟩ := emitPair_append_inj
      (plain a List.mem_cons_self p (.inl hp)) (plain a List.mem_cons_self p' (.inr hp')) htext
    intro b hb
    rcases List.mem_cons.mp hb with rfl | hb
    · rw [hp, hp', qualifiedName_injective hname]
    · exact ih (fun c hc => plain c (List.mem_cons_of_mem _ hc)) hmore hmore' htail b hb

/-- The attribute names as they are shown hold no equals sign. -/
theorem attributeName_plain {layers layers' : List NsLayer} {e : Element} (h : ReadsBack layers e)
    (hsimilar : Similar (e.namespacesDeclaredHere :: layers) layers') {a : Attribute}
    (ha : a ∈ e.attributes) {p : Option Str}
    (hp : prefixForUri (scopeList layers') a.qname.namespaceUri true a.sourcePrefix = .ok p) :
    '=' ∉ qualifiedName p a.qname.localName := by
  have hlocal := h.named.attributes a ha
  cases p with
  | none => exact hlocal
  | some q =>
    have hplain := (shown_plain (h.plain.similar hsimilar) hp).2
    simp [qualifiedName, hplain, hlocal]

/-- When the text stays the same for an order of the declarations, so do the
prefixes of all names. -/
theorem prefixes_eq_of_emitElement {layers layers' : List NsLayer} {e : Element}
    (h : ReadsBack layers e) {declared' : List NsDecl}
    (hdeclared : e.namespacesDeclaredHere.Perm declared') (hsimilar : Similar layers layers')
    {text : Str}
    (htext : emitElement .inclusiveCanonical [] (scopeList layers) [] true e = .ok text)
    (htext' : emitElement .inclusiveCanonical [] (scopeList layers') [] true
      (reordered e declared' e.attributes e.children) = .ok text) :
    prefixForUri (scopeList (declared' :: layers')) e.qname.namespaceUri false e.sourcePrefix =
      prefixForUri (scopeList (e.namespacesDeclaredHere :: layers)) e.qname.namespaceUri false
        e.sourcePrefix ∧
    ∀ a ∈ e.attributes, prefixForUri (scopeList (declared' :: layers')) a.qname.namespaceUri true
        a.sourcePrefix =
      prefixForUri (scopeList (e.namespacesDeclaredHere :: layers)) a.qname.namespaceUri true
        a.sourcePrefix := by
  have hlayers : Similar (e.namespacesDeclaredHere :: layers) (declared' :: layers') :=
    .cons hdeclared hsimilar
  have hdecls : (apexTag layers' (reordered e declared' e.attributes e.children)).declarations =
      (apexTag layers e).declarations :=
    (computeInclusive_shuffled h.once hdeclared hsimilar e.attributes e.children [] true).symm
  obtain ⟨p, texts, content, hp, htexts, heq⟩ := opensWith_of_emitElement htext
  obtain ⟨p', texts', content', hp', htexts', heq'⟩ := opensWith_of_emitElement htext'
  have hp'' : prefixForUri (scopeList (declared' :: layers')) e.qname.namespaceUri false
      e.sourcePrefix = .ok p' := hp'
  rw [hdecls] at heq'
  have hopen : qualifiedName p e.qname.localName ++
        ((apexTag layers e).declarations.flatMap renderDecl ++ (texts.flatten ++ '>' :: content)) =
      qualifiedName p' e.qname.localName ++ ((apexTag layers e).declarations.flatMap renderDecl ++
        (texts'.flatten ++ '>' :: content')) := by
    have hsame := heq.symm.trans heq'
    simp only [List.append_assoc] at hsame
    exact List.append_cancel_left hsame
  obtain rfl := elementPrefix_eq h hdeclared hsimilar hp hp'' hopen
  have htail := List.append_cancel_left (List.append_cancel_left hopen)
  refine ⟨hp''.trans hp.symm, ?_⟩
  intro a ha
  have hmem (a : Attribute) : a ∈ e.attributes.insertionSort attrBefore ↔ a ∈ e.attributes :=
    List.mem_insertionSort _
  refine (attributePrefixes_eq ?_ htexts htexts' htail a ((hmem a).mpr ha)).symm
  intro b hb q hq
  rcases hq with hq | hq
  · exact attributeName_plain h (List.forall₂_same.mpr fun _ _ => .refl _) ((hmem b).mp hb) hq
  · exact attributeName_plain h hlayers ((hmem b).mp hb) hq

/-- A name whose prefix no order of the declarations changes is decided. -/
theorem nameDecided_of_settled {layers : List NsLayer} {uri : Option Str} {isAttribute : Bool}
    {pfx : Option Str} (once : DeclaredOnce layers) (h : uri = prefixUri layers isAttribute pfx)
    (settled : Settled layers uri isAttribute pfx) : NameDecided layers uri isAttribute pfx := by
  rintro rfl u rfl hxml
  by_contra hundecided
  have hcandidate : Candidate layers u isAttribute (some []) := by
    rw [prefixUri, Option.isNone_some, Bool.and_false, if_neg Bool.false_ne_true] at h
    rcases resolvePrefix_eq_some_iff.mp h.symm with ⟨_, heq⟩ | ⟨_, hlookup, _⟩
    · exact absurd heq hxml
    · exact ⟨hlookup, fun hnone => by cases hnone.2⟩
  obtain ⟨layers', hsimilar, d, d', hd, hd', hne⟩ :=
    exists_similar_of_not_decided once hcandidate hundecided
  have hsame := settled layers' hsimilar
  rw [prefixForUri_empty hxml, prefixForUri_empty hxml, hd, hd'] at hsame
  exact hne (Except.ok.inj hsame).symm

theorem attrBefore_of_qname {a b : Attribute} (h : a.qname = b.qname) : attrBefore a b := by
  rw [attrBefore, attrSortUri, attrSortUri, h]
  exact .inr ⟨rfl, le_refl _⟩

/-- Two attributes of one expanded name that can change places without changing
the text are shown alike. -/
theorem shownAlike_of_emitElement {layers : List NsLayer} {e : Element} (h : ReadsBack layers e)
    {a b : Attribute} {others : List Attribute} (hperm : e.attributes.Perm (a :: b :: others))
    (hname : a.qname = b.qname) {text : Str}
    (htext : emitElement .inclusiveCanonical [] (scopeList layers) [] true
      (reordered e e.namespacesDeclaredHere (a :: b :: others) e.children) = .ok text)
    (htext' : emitElement .inclusiveCanonical [] (scopeList layers) [] true
      (reordered e e.namespacesDeclaredHere (b :: a :: others) e.children) = .ok text) :
    prefixForUri (scopeList (e.namespacesDeclaredHere :: layers)) a.qname.namespaceUri true
        a.sourcePrefix =
      prefixForUri (scopeList (e.namespacesDeclaredHere :: layers)) b.qname.namespaceUri true
        b.sourcePrefix ∧
    a.value = b.value := by
  have hlayers : Similar (e.namespacesDeclaredHere :: layers)
      (e.namespacesDeclaredHere :: layers) := List.forall₂_same.mpr fun _ _ => .refl _
  have ha : a ∈ e.attributes := hperm.mem_iff.mpr List.mem_cons_self
  have hb : b ∈ e.attributes := hperm.mem_iff.mpr (by simp)
  obtain ⟨front, back, hsort, hsort'⟩ := Sorting.insertionSort_twins (attrBefore_of_qname hname)
    (attrBefore_of_qname hname.symm)
    (fun c => by simp only [attrBefore, attrSortUri, hname]) others
  obtain ⟨p, texts, content, hp, htexts, heq⟩ := opensWith_of_emitElement htext
  obtain ⟨p', texts', content', hp', htexts', heq'⟩ := opensWith_of_emitElement htext'
  obtain rfl : p = p' := Except.ok.inj (hp.symm.trans hp')
  have htail : texts.flatten ++ '>' :: content = texts'.flatten ++ '>' :: content' := by
    have hsame := heq.symm.trans heq'
    simp only [List.append_assoc] at hsame
    exact List.append_cancel_left (List.append_cancel_left (List.append_cancel_left hsame))
  have htexts : (front ++ a :: b :: back).mapM
      (renderAttribute (scopeList (e.namespacesDeclaredHere :: layers))) = .ok texts :=
    hsort ▸ htexts
  have htexts' : (front ++ b :: a :: back).mapM
      (renderAttribute (scopeList (e.namespacesDeclaredHere :: layers))) = .ok texts' :=
    hsort' ▸ htexts'
  rw [List.mapM_append, List.mapM_cons, List.mapM_cons] at htexts htexts'
  obtain ⟨before, hbefore, htexts⟩ := bind_eq_ok_iff.mp htexts
  obtain ⟨before', hbefore', htexts'⟩ := bind_eq_ok_iff.mp htexts'
  obtain rfl : before = before' := Except.ok.inj (hbefore.symm.trans hbefore')
  obtain ⟨after, hafter, htexts⟩ := bind_eq_ok_iff.mp htexts
  obtain ⟨after', hafter', htexts'⟩ := bind_eq_ok_iff.mp htexts'
  obtain rfl := Except.ok.inj htexts
  obtain rfl := Except.ok.inj htexts'
  obtain ⟨first, hfirst, hafter⟩ := bind_eq_ok_iff.mp hafter
  obtain ⟨first', hfirst', hafter'⟩ := bind_eq_ok_iff.mp hafter'
  obtain ⟨rest, _, hafter⟩ := bind_eq_ok_iff.mp hafter
  obtain ⟨rest', _, hafter'⟩ := bind_eq_ok_iff.mp hafter'
  obtain rfl := Except.ok.inj hafter
  obtain rfl := Except.ok.inj hafter'
  obtain ⟨q, hq, hfirst⟩ := bind_eq_ok_iff.mp hfirst
  obtain ⟨q', hq', hfirst'⟩ := bind_eq_ok_iff.mp hfirst'
  obtain rfl := Except.ok.inj hfirst
  obtain rfl := Except.ok.inj hfirst'
  simp only [List.flatten_append, List.flatten_cons, List.append_assoc] at htail
  obtain ⟨hnames, hvalues, _⟩ := emitPair_append_inj (attributeName_plain h hlayers ha hq)
    (attributeName_plain h hlayers hb hq') (List.append_cancel_left htail)
  rw [← hname] at hnames
  exact ⟨by rw [hq, hq', qualifiedName_injective hnames], hvalues⟩

/-- In an order-free document an element whose start tag reads back is order-blind. -/
theorem orderBlind_of_orderFree {doc : Document} (indexed : doc.WellIndexed)
    (resolved : Scoped Resolved [] doc.root) (h : OrderFree doc) {path : ElementPath}
    {d : Element} (hwalk : doc.root.walk path = some d)
    (hreads : ReadsBack (layersTo doc.root path) d) : OrderBlind (layersTo doc.root path) d := by
  have hbelow := resolved.walk hwalk
  rw [List.append_nil] at hbelow
  have hinclusive : C14nAlgorithm.inclusiveCanonical.isExclusive = false := rfl
  obtain ⟨text, htext⟩ :=
    (emitElement_inclusive hinclusive []).1 d (layersTo doc.root path) [] true hbelow
  have hsettled {declared' : List NsDecl} {layers' : List NsLayer}
      (hdeclared : d.namespacesDeclaredHere.Perm declared')
      (hsimilar : Similar (layersTo doc.root path) layers') :=
    prefixes_eq_of_emitElement hreads hdeclared hsimilar htext
      ((emitElement_of_orderFree indexed h hwalk hdeclared hsimilar (.refl _) _ _).trans htext)
  constructor
  · apply nameDecided_of_settled hreads.once hreads.resolved.element.1
    intro layers' hsimilar
    obtain ⟨declared', rest, hdeclared, hrest, rfl⟩ := List.forall₂_cons_left_iff.mp hsimilar
    exact (hsettled hdeclared hrest).1
  · intro a ha
    apply nameDecided_of_settled hreads.once (hreads.resolved.attributes a ha).1
    intro layers' hsimilar
    obtain ⟨declared', rest, hdeclared, hrest, rfl⟩ := List.forall₂_cons_left_iff.mp hsimilar
    exact (hsettled hdeclared hrest).2 a ha
  · intro a ha b hb hname
    by_cases hab : a = b
    · rw [hab]
      exact ⟨rfl, rfl⟩
    · have hb' : b ∈ d.attributes.erase a := (List.mem_erase_of_ne (Ne.symm hab)).mpr hb
      have hperm : d.attributes.Perm (a :: b :: (d.attributes.erase a).erase b) :=
        (List.perm_cons_erase ha).trans ((List.perm_cons_erase hb').cons a)
      have hsimilar : Similar (layersTo doc.root path) (layersTo doc.root path) :=
        List.forall₂_same.mpr fun _ _ => .refl _
      apply shownAlike_of_emitElement hreads hperm hname
      · exact (emitElement_of_orderFree indexed h hwalk (.refl _) hsimilar hperm _ _).trans htext
      · exact (emitElement_of_orderFree indexed h hwalk (.refl _) hsimilar
          (hperm.trans (.swap b a _)) _ _).trans htext

/-! ## Parsed documents -/

theorem mem_layersTo {root d : Element} {path : ElementPath} (hwalk : root.walk path = some d)
    {layer : NsLayer} (h : layer ∈ d.namespacesDeclaredHere :: layersTo root path) :
    ∃ above e, root.walk above = some e ∧ e.namespacesDeclaredHere = layer := by
  induction path generalizing root with
  | nil =>
    obtain rfl := Option.some.inj hwalk
    obtain rfl := List.mem_singleton.mp h
    exact ⟨[], root, rfl, rfl⟩
  | cons index rest ih =>
    rw [ElementOf.walk] at hwalk
    split at hwalk
    next child hchild =>
      rw [layersTo, hchild] at h
      have hsplit : layer ∈ (d.namespacesDeclaredHere :: layersTo child rest) ++
          [root.namespacesDeclaredHere] := h
      rcases List.mem_append.mp hsplit with hinner | houter
      · obtain ⟨above, e, he, hlayer⟩ := ih hwalk hinner
        refine ⟨index :: above, e, ?_, hlayer⟩
        rw [ElementOf.walk, hchild]
        exact he
      · obtain rfl := List.mem_singleton.mp houter
        exact ⟨[], root, rfl, rfl⟩
    next => cases hwalk

/-- The start tags of a parsed document read back. -/
theorem readsBack_parse {qx : QuickXml} (checks : qx.ChecksKeys) (cuts : CutsNames qx)
    {xml : Octets} {limits : XmlLimits} {doc : Document}
    (h : Document.parseWithLimits qx xml limits = .ok doc) {path : ElementPath} {d : Element}
    (hwalk : doc.root.walk path = some d) : ReadsBack (layersTo doc.root path) d := by
  have hplain := Document.scoped_parseWithLimits (local_plainNamed qx) (cuts _) h
  constructor
  · have hresolved := resolved_parse h path d hwalk
    rwa [List.append_nil] at hresolved
  · intro layer hlayer
    obtain ⟨above, e, he, rfl⟩ := mem_layersTo hwalk hlayer
    exact Document.declaredDistinct checks h he
  · have hnamed := hplain path d hwalk
    rwa [List.append_nil] at hnamed
  · intro layer hlayer
    obtain ⟨above, e, he, rfl⟩ := mem_layersTo hwalk hlayer
    exact (hplain above e he).declared

/-- The canonical octets of a parsed document do not depend on the order of its
start tags exactly when all its elements are order-blind. -/
theorem orderFree_iff {qx : QuickXml} (checks : qx.ChecksKeys) (cuts : CutsNames qx)
    {xml : Octets} {limits : XmlLimits} {doc : Document}
    (parsed : Document.parseWithLimits qx xml limits = .ok doc) :
    OrderFree doc ↔ Scoped OrderBlind [] doc.root := by
  have indexed := Document.wellIndexed_parseWithLimits parsed
  have resolved := resolved_parse parsed
  constructor
  · intro h path d hwalk
    rw [List.append_nil]
    exact orderBlind_of_orderFree indexed resolved h hwalk
      (readsBack_parse checks cuts parsed hwalk)
  · intro h
    apply orderFree_of_steady indexed
    intro path d hwalk
    have hreads := readsBack_parse checks cuts parsed hwalk
    have hblind := h path d hwalk
    rw [List.append_nil] at hblind ⊢
    exact ⟨hreads.resolved, hreads.once, hblind⟩

/-- Distinct expanded names and no empty prefix: no order shows. -/
theorem orderBlind_of_distinct {scope : List NsLayer} {e : Element}
    (helement : e.sourcePrefix ≠ some [])
    (hattributes : ∀ a ∈ e.attributes, a.sourcePrefix ≠ some [])
    (hdistinct : (e.attributes.map Attribute.qname).Nodup) : OrderBlind scope e := by
  constructor
  · exact fun hempty => absurd hempty helement
  · exact fun a ha hempty => absurd hempty (hattributes a ha)
  · intro a ha b hb hname
    obtain rfl := List.inj_on_of_nodup_map hdistinct ha hb hname
    exact ⟨rfl, rfl⟩

/-! ## Two documents -/

/-- Attributes of one expanded name and two values appear in the order they are
written in. -/
theorem order_shows : ∃ doc,
    Document.parseWithLimits Scanning.reader (Text.asBytes Sample.twoPrefixes) .default =
      .ok doc ∧ ¬ OrderFree doc := by
  obtain ⟨doc, hparse, hdoc⟩ := Sample.exists_twoPrefixes
  refine ⟨doc, hparse, ?_⟩
  intro hfree
  have hwalk : doc.root.walk [] = some doc.root := rfl
  have hblind := orderBlind_of_orderFree (Document.wellIndexed_parseWithLimits hparse)
    (resolved_parse hparse) hfree hwalk
    (readsBack_parse Scanning.checksKeys cutsNames_scanning hparse hwalk)
  have hread : ((Scanning.parseText Sample.twoPrefixes).toOption.map fun doc =>
      decide (∃ a ∈ doc.root.attributes, ∃ b ∈ doc.root.attributes,
        a.qname = b.qname ∧ a.value ≠ b.value)) = some true := by decide +kernel
  rw [hdoc] at hread
  obtain ⟨a, ha, b, hb, hname, hvalue⟩ := of_decide_eq_true (Option.some.inj hread)
  exact hvalue (hblind.repeated a ha b hb hname).2

namespace Sample

/-- Two declarations of one namespace, a prefixed attribute and a plain one. -/
def mixed : Str := "<a:r xmlns:b=\"urn:u\" xmlns:a=\"urn:u\" b:y=\"1\" x=\"2\"/>"

theorem exists_mixed : ∃ doc,
    Document.parseWithLimits Scanning.reader (Text.asBytes mixed) .default = .ok doc ∧
      Scoped OrderBlind [] doc.root := by
  have hread : ((Scanning.parseText mixed).toOption.map fun doc =>
      decide (doc.root.childElements = [] ∧ doc.root.sourcePrefix ≠ some [] ∧
        (∀ a ∈ doc.root.attributes, a.sourcePrefix ≠ some []) ∧
        (doc.root.attributes.map Attribute.qname).Nodup)) = some true := by decide +kernel
  obtain ⟨doc, hdoc, hfacts⟩ := Option.map_eq_some_iff.mp hread
  obtain ⟨hchildren, helement, hattributes, hdistinct⟩ := of_decide_eq_true hfacts
  refine ⟨doc, (Scanning.parse_asBytes (by decide)).trans (ok_of_toOption hdoc), ?_⟩
  rw [scoped_iff, hchildren]
  exact ⟨orderBlind_of_distinct helement hattributes hdistinct, nofun⟩

end Sample

theorem orderFree_iff_mixed : ∃ doc,
    Document.parseWithLimits Scanning.reader (Text.asBytes Sample.mixed) .default = .ok doc ∧
      OrderFree doc := by
  obtain ⟨doc, hparse, hblind⟩ := Sample.exists_mixed
  exact ⟨doc, hparse, (orderFree_iff Scanning.checksKeys cutsNames_scanning hparse).mpr hblind⟩

end Saml.Dsig.C14n
