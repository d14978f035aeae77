import Saml.Xml.Accepted
import Saml.Dsig.Reference

/-!
# Ancestor chains

`dsig::reference`: the chain of an element, looked up through the path index, is
the way to it from the root. With the names and `ID` values of its elements this
is what an accepted document promises to the signature code.
-/

namespace Saml.Dsig

open Xml

/-- The chain along a path that leads to an element. -/
theorem chainTo_of_walk {e d : Element} {path : ElementPath} (h : e.walk path = some d) :
    ∃ chain, chainTo e path = some chain ∧ chain.length = path.length ∧
      ∀ i < path.length, chain[i]? = e.walk (path.take i) := by
  induction path generalizing e with
  | nil => exact ⟨[], rfl, rfl, nofun⟩
  | cons i rest ih =>
      cases rest with
      | nil =>
          refine ⟨[e], rfl, rfl, ?_⟩
          intro k hk
          obtain rfl : k = 0 := by simpa using hk
          rfl
      | cons j rest =>
          rw [ElementOf.walk] at h
          rw [chainTo]
          split at h
          next child hchild =>
            obtain ⟨chain, hchain, hlen, hwalk⟩ := ih h
            refine ⟨e :: chain, by simp [hchild, hchain], by simp [hlen], ?_⟩
            intro k hk
            cases k with
            | zero => rfl
            | succ k =>
                rw [List.getElem?_cons_succ, hwalk k (by simpa using hk), List.take_succ_cons,
                  ElementOf.walk, hchild]
          next => cases h

/-- The chain of an element is its path from the root to its parent. -/
theorem ancestorChain_of_walk {doc : Document} (indexed : doc.WellIndexed) {path : ElementPath}
    {d : Element} (h : doc.root.walk path = some d) :
    ∃ chain, ancestorChain doc d.id = some chain ∧ chain.length = path.length ∧
      ∀ i < path.length, chain[i]? = doc.root.walk (path.take i) := by
  rw [ancestorChain, indexed.paths_walk h, Option.bind_some]
  exact chainTo_of_walk h

/-- The declarations of the chain are the scope of the element. -/
theorem layersTo_of_chainTo {e d : Element} {path : ElementPath} {chain : List Element}
    (h : e.walk path = some d) (hchain : chainTo e path = some chain) :
    layersTo e path = (chain.map (·.namespacesDeclaredHere)).reverse := by
  induction path generalizing e chain with
  | nil =>
      obtain rfl := Option.some.inj hchain
      rfl
  | cons i rest ih =>
      rw [ElementOf.walk] at h
      split at h
      next child hchild =>
        cases rest with
        | nil =>
            obtain rfl := Option.some.inj hchain
            rw [layersTo, hchild]
            rfl
        | cons j rest =>
            rw [chainTo, hchild] at hchain
            obtain ⟨inner, hinner, rfl⟩ := Option.map_eq_some_iff.mp hchain
            rw [layersTo, hchild, List.map_cons, List.reverse_cons]
            exact congrArg (· ++ [e.namespacesDeclaredHere]) (ih h hinner)
      next => cases h

/-- What the parser promises of every document it accepts: attributes written
with distinct names, unique `ID` values, handles and ancestor chains that lead
where they say. -/
theorem parsed_wellFormed {qx : QuickXml} (checks : qx.ChecksKeys) {xml : Octets}
    {limits : XmlLimits} {doc : Document} (h : Document.parseWithLimits qx xml limits = .ok doc) :
    (∀ path d, doc.root.walk path = some d → (d.attributes.map writtenName).Nodup) ∧
    (∀ (p q : ElementPath) (d e : Element) (i j : Nat) (a b : Attribute),
      doc.root.walk p = some d → doc.root.walk q = some e → d.attributes[i]? = some a →
        e.attributes[j]? = some b → isIdAttr a = true → isIdAttr b = true →
          a.value = b.value → p = q ∧ i = j) ∧
    (∀ path d, doc.root.walk path = some d →
      doc.paths[d.id]? = some path ∧ doc.element d.id = some d ∧
        ∃ chain, ancestorChain doc d.id = some chain ∧ chain.length = path.length ∧
          ∀ i < path.length, chain[i]? = doc.root.walk (path.take i)) ∧
    ∀ id path, doc.paths[id]? = some path → ∃ d, doc.root.walk path = some d ∧ d.id = id := by
  have indexed := Document.wellIndexed_parseWithLimits h
  refine ⟨?_, ?_, ?_, ?_⟩
  · intro path d hwalk
    exact Document.writtenDistinct checks h hwalk
  · intro p q d e i j a b hp hq ha hb ida idb heq
    exact indexed.idAttr_unique hp hq ha hb ida idb heq
  · intro path d hwalk
    exact ⟨indexed.paths_walk hwalk, indexed.element_iff.mpr ⟨path, hwalk, rfl⟩,
      ancestorChain_of_walk indexed hwalk⟩
  · intro id path hpath
    exact indexed.walk_paths hpath

/-! ## A repeated expanded name -/

namespace Sample

/-- Two prefixes for one namespace, and one attribute name under each. -/
def twoPrefixes : Str := "<r xmlns:a=\"urn:u\" xmlns:b=\"urn:u\" a:x=\"1\" b:x=\"2\"/>"

theorem exists_twoPrefixes : ∃ doc,
    Document.parseWithLimits Scanning.reader (Text.asBytes twoPrefixes) .default = .ok doc ∧
      Scanning.parseText twoPrefixes = .ok doc := by
  have hread : (Scanning.parseText twoPrefixes).isOk = true := by decide +kernel
  obtain ⟨doc, hdoc⟩ := exists_of_isOk hread
  exact ⟨doc, (Scanning.parse_asBytes (by decide)).trans hdoc, hdoc⟩

end Sample

/-- The parser accepts an element with two attributes of one expanded name. -/
theorem accepts_repeatedExpandedName : ∃ doc,
    Document.parseWithLimits Scanning.reader (Text.asBytes Sample.twoPrefixes) .default =
      .ok doc ∧ ¬ (doc.root.attributes.map Attribute.qname).Nodup := by
  obtain ⟨doc, hparse, hdoc⟩ := Sample.exists_twoPrefixes
  refine ⟨doc, hparse, ?_⟩
  have hread : ((Scanning.parseText Sample.twoPrefixes).toOption.map fun doc =>
      decide (doc.root.attributes.map Attribute.qname).Nodup) = some false := by decide +kernel
  rw [hdoc] at hread
  obtain ⟨read, heq, hnodup⟩ := Option.map_eq_some_iff.mp hread
  obtain rfl := Option.some.inj heq
  exact of_decide_eq_false hnodup

/-- The same document keeps what the parser promises. -/
theorem parsed_wellFormed_twoPrefixes : ∃ doc,
    Document.parseWithLimits Scanning.reader (Text.asBytes Sample.twoPrefixes) .default =
      .ok doc ∧ (doc.root.attributes.map writtenName).Nodup ∧
        doc.element doc.root.id = some doc.root := by
  obtain ⟨doc, hparse, _⟩ := Sample.exists_twoPrefixes
  obtain ⟨hnames, _, hhandles, _⟩ := parsed_wellFormed Scanning.checksKeys hparse
  exact ⟨doc, hparse, hnames [] doc.root rfl, (hhandles [] doc.root rfl).2.1⟩

end Saml.Dsig
