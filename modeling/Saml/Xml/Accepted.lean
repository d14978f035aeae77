import Saml.Xml.Scoped
import Mathlib.Data.List.Nodup

/-!
# What an accepted document looks like

The parser leaves the comparison of attribute names to the reader, which compares
them as written: prefix and local name. `ID` values are unique in the whole
document.
-/

namespace Saml.Xml

/-- What the parser relies on from the attribute iterator: without an error the
keys of a start tag are distinct. -/
def QuickXml.ChecksKeys (qx : QuickXml) : Prop :=
  ∀ octets s, Reports (qx.readEvents octets) s → (∀ e, .error e ∉ s.attributes) →
    ((s.attributes.filterMap Except.toOption).map RawAttribute.key).Nodup

namespace Scanning

theorem checkAttributes_keys (seen : List Str) (attributes : List (Str × Str)) :
    (((checkAttributes seen attributes).filterMap Except.toOption).map RawAttribute.key).Nodup ∧
      ∀ k ∈ ((checkAttributes seen attributes).filterMap Except.toOption).map RawAttribute.key,
        k ∉ seen := by
  induction attributes generalizing seen with
  | nil => simp [checkAttributes]
  | cons a rest ih =>
      rw [checkAttributes]
      split
      · exact ih seen
      next hfresh =>
        obtain ⟨hnodup, hseen⟩ := ih (a.1 :: seen)
        have hcons : (rawAttribute a :: checkAttributes (a.1 :: seen) rest).filterMap
            Except.toOption =
              ⟨a.1, a.2⟩ :: (checkAttributes (a.1 :: seen) rest).filterMap Except.toOption := rfl
        rw [hcons, List.map_cons, List.nodup_cons]
        refine ⟨⟨?_, hnodup⟩, ?_⟩
        · intro hmem
          exact hseen _ hmem List.mem_cons_self
        · intro k hk
          rcases List.mem_cons.mp hk with rfl | hk
          · exact hfresh
          · intro hold
            exact hseen k hk (List.mem_cons_of_mem _ hold)

/-- The scanning reader reports start tags with distinct keys. -/
theorem checksKeys : reader.ChecksKeys := by
  intro octets s hs _
  unfold reader at hs
  dsimp only at hs
  split at hs
  · obtain ⟨_, _, tag, _, _, rfl⟩ := reports_event hs
    exact (checkAttributes_keys [] tag.attributes).1
  · rcases hs with hs | hs <;> simp at hs

end Scanning

/-! ## Attribute names as written -/

/-- The name an attribute was written with: the local name and the prefix. -/
def writtenName (a : Attribute) : Str × Option Str := (a.qname.localName, a.sourcePrefix)

theorem qualifiedName_decompose (name : Str) :
    qualifiedName (QxQName.decompose name).2 (QxQName.decompose name).1 = name := by
  unfold QxQName.decompose
  cases hdrop : name.dropWhile (· != ':') with
  | nil => rfl
  | cons c loc =>
      have hhead := List.head?_dropWhile_not (· != ':') name
      rw [hdrop] at hhead
      obtain rfl : c = ':' := by simpa using hhead
      simp only [qualifiedName]
      rw [← hdrop, List.takeWhile_append_dropWhile]

theorem decompose_injective {first second : Str}
    (h : QxQName.decompose first = QxQName.decompose second) : first = second := by
  rw [← qualifiedName_decompose first, h, qualifiedName_decompose]

/-- The namespace of a name with the given prefix: an attribute without one is
in none. -/
def prefixUri (scope : List NsLayer) (isAttribute : Bool) (pfx : Option Str) : Option Str :=
  if isAttribute && pfx.isNone then none else resolvePrefix scope pfx

/-- What a name is resolved to. -/
theorem resolveQName_eq_ok_iff {name : Str} {scope : List NsLayer} {isAttribute : Bool}
    {qname : QName} : resolveQName name scope isAttribute = .ok qname ↔
      qname.localName = (QxQName.decompose name).1 ∧
      qname.namespaceUri = prefixUri scope isAttribute (QxQName.decompose name).2 ∧
      ((QxQName.decompose name).2.isSome → qname.namespaceUri.isSome) := by
  rcases qname with ⟨uri, loc⟩
  unfold resolveQName prefixUri
  rcases QxQName.decompose name with ⟨l, _ | p⟩
  · cases isAttribute
    · simp only [Bool.false_and, Bool.false_eq_true, if_false, Except.ok.injEq, QName.mk.injEq,
        Option.isSome_none, false_implies, and_true]
      exact ⟨fun h => ⟨h.2.symm, h.1.symm⟩, fun h => ⟨h.2.symm, h.1.symm⟩⟩
    · simp only [Option.isNone_none, Bool.and_self, if_true, Except.ok.injEq, QName.mk.injEq,
        Option.isSome_none, Bool.false_eq_true, false_implies, and_true]
      exact ⟨fun h => ⟨h.2.symm, h.1.symm⟩, fun h => ⟨h.2.symm, h.1.symm⟩⟩
  · cases hp : resolvePrefix scope (some p) with
    | none => simp [hp]
    | some u =>
        simp only [hp, Except.ok.injEq, QName.mk.injEq, Option.isNone_some, Bool.and_false,
          Bool.false_eq_true, if_false, Option.isSome_some, forall_const]
        constructor
        · rintro ⟨rfl, rfl⟩
          exact ⟨rfl, rfl, rfl⟩
        · rintro ⟨rfl, rfl, _⟩
          exact ⟨rfl, rfl⟩

theorem writtenName_resolveAttribute {scope : List NsLayer} {raw : RawAttribute} {a : Attribute}
    (h : resolveAttribute scope raw = .ok a) : writtenName a = QxQName.decompose raw.key := by
  obtain ⟨qname, hqname, h⟩ := bind_eq_ok_iff.mp h
  obtain rfl := Except.ok.inj h
  rw [writtenName, (resolveQName_eq_ok_iff.mp hqname).1]
  rfl

theorem writtenName_resolved {scope : List NsLayer} {raw : List RawAttribute}
    {attributes : List Attribute} (h : raw.mapM (resolveAttribute scope) = .ok attributes) :
    attributes.map writtenName = raw.map fun a => QxQName.decompose a.key := by
  induction raw generalizing attributes with
  | nil =>
      obtain rfl := Except.ok.inj h
      rfl
  | cons a rest ih =>
      rw [List.mapM_cons] at h
      obtain ⟨first, hfirst, h⟩ := bind_eq_ok_iff.mp h
      obtain ⟨others, hothers, h⟩ := bind_eq_ok_iff.mp h
      obtain rfl := Except.ok.inj h
      rw [List.map_cons, List.map_cons, writtenName_resolveAttribute hfirst, ih hothers]

/-- The collected attributes are some of the reported ones, and none of these is
an error. -/
theorem collectAttributes_ok {qx : QuickXml} {limits : XmlLimits} {count : Nat}
    {attributes : List (Except Str RawAttribute)} {raw : RawAttributes}
    (h : collectAttributes qx limits count attributes = .ok raw) :
    (∀ e, .error e ∉ attributes) ∧ (raw.rawAttrs.map RawAttribute.key).Sublist
      ((attributes.filterMap Except.toOption).map RawAttribute.key) := by
  induction attributes generalizing count raw with
  | nil =>
      obtain rfl := Except.ok.inj h
      simp
  | cons item rest ih =>
      cases item with
      | error e => cases h
      | ok a =>
          rw [collectAttributes] at h
          obtain ⟨_, h⟩ := ite_error_eq_ok_iff.mp h
          obtain ⟨value, _, h⟩ := bind_eq_ok_iff.mp h
          obtain ⟨tail, htail, h⟩ := bind_eq_ok_iff.mp h
          obtain ⟨hnone, hsub⟩ := ih htail
          refine ⟨by simpa using hnone, ?_⟩
          have hcons : (Except.ok a :: rest : List (Except Str RawAttribute)).filterMap
              Except.toOption = a :: rest.filterMap Except.toOption := rfl
          rw [hcons, List.map_cons]
          split at h
          · obtain rfl := Except.ok.inj h
            exact hsub.cons _
          · obtain rfl := Except.ok.inj h
            exact hsub.cons_cons _

/-- The attributes of an element are written with distinct names. -/
def WrittenDistinct (_ : List NsLayer) (e : Element) : Prop := (e.attributes.map writtenName).Nodup

/-- A start tag without repeated keys. -/
def KeysDistinct (s : BytesStart) : Prop :=
  (∀ e, .error e ∉ s.attributes) →
    ((s.attributes.filterMap Except.toOption).map RawAttribute.key).Nodup

theorem local_writtenDistinct (qx : QuickXml) :
    TreeBuilder.Local qx KeysDistinct WrittenDistinct := by
  constructor
  · intro b next start selfClosing element path tag h
    obtain ⟨raw, hraw, _, _, _, hattributes, _⟩ := TreeBuilder.openElement_scope h
    obtain ⟨hnone, hsub⟩ := collectAttributes_ok hraw
    have hkeys : (raw.rawAttrs.map RawAttribute.key).Nodup := (tag hnone).sublist hsub
    have hwritten := writtenName_resolved hattributes
    have hinjective : Function.Injective QxQName.decompose := fun _ _ => decompose_injective
    have hnames := List.Nodup.map hinjective hkeys
    rw [List.map_map] at hnames
    rw [WrittenDistinct, hwritten]
    exact hnames
  · intro scope e children h
    exact h

/-- Every element of a parsed document has attributes written with distinct names. -/
theorem Document.writtenDistinct {qx : QuickXml} (checks : qx.ChecksKeys) {xml : Octets}
    {limits : XmlLimits} {doc : Document} (h : parseWithLimits qx xml limits = .ok doc)
    {path : ElementPath} {d : Element} (hwalk : doc.root.walk path = some d) :
    (d.attributes.map writtenName).Nodup :=
  Document.scoped_parseWithLimits (local_writtenDistinct qx) (checks _) h path d hwalk

/-! ## Declarations -/

/-- The key of a namespace declaration. -/
theorem key_of_asNamespaceBinding {key : Str} {p : Option Str}
    (h : QxQName.asNamespaceBinding key = some p) :
    key = "xmlns" ++ p.elim [] (':' :: ·) := by
  unfold QxQName.asNamespaceBinding at h
  split at h
  · split at h
    · obtain rfl := Option.some.inj h
      rfl
    · obtain rfl := Option.some.inj h
      rfl
    · cases h
  · cases h

/-- The collected declarations are those among the reported keys. -/
theorem collectAttributes_declared {qx : QuickXml} {limits : XmlLimits} {count : Nat}
    {attributes : List (Except Str RawAttribute)} {raw : RawAttributes}
    (h : collectAttributes qx limits count attributes = .ok raw) :
    raw.declared.map Prod.fst = ((attributes.filterMap Except.toOption).map
      RawAttribute.key).filterMap QxQName.asNamespaceBinding := by
  induction attributes generalizing count raw with
  | nil =>
      obtain rfl := Except.ok.inj h
      rfl
  | cons item rest ih =>
      cases item with
      | error e => cases h
      | ok a =>
          rw [collectAttributes] at h
          obtain ⟨_, h⟩ := ite_error_eq_ok_iff.mp h
          obtain ⟨value, _, h⟩ := bind_eq_ok_iff.mp h
          obtain ⟨tail, htail, h⟩ := bind_eq_ok_iff.mp h
          have hcons : (Except.ok a :: rest : List (Except Str RawAttribute)).filterMap
              Except.toOption = a :: rest.filterMap Except.toOption := rfl
          rw [hcons, List.map_cons, List.filterMap_cons, ← ih htail]
          split at h
          next pfx hbinding =>
            obtain rfl := Except.ok.inj h
            rw [hbinding]
            rfl
          next hbinding =>
            obtain rfl := Except.ok.inj h
            rw [hbinding]

/-- An element declares each prefix once. -/
def DeclaredDistinct (_ : List NsLayer) (e : Element) : Prop :=
  (e.namespacesDeclaredHere.map Prod.fst).Nodup

theorem local_declaredDistinct (qx : QuickXml) :
    TreeBuilder.Local qx KeysDistinct DeclaredDistinct := by
  constructor
  · intro b next start selfClosing element path tag h
    obtain ⟨raw, hraw, hdeclared, _⟩ := TreeBuilder.openElement_scope h
    obtain ⟨hnone, _⟩ := collectAttributes_ok hraw
    rw [DeclaredDistinct, hdeclared, collectAttributes_declared hraw]
    apply (tag hnone).filterMap
    intro first second p hfirst hsecond
    rw [key_of_asNamespaceBinding hfirst, key_of_asNamespaceBinding hsecond]
  · intro scope e children h
    exact h

/-- Every element of a parsed document declares each prefix once. -/
theorem Document.declaredDistinct {qx : QuickXml} (checks : qx.ChecksKeys) {xml : Octets}
    {limits : XmlLimits} {doc : Document} (h : parseWithLimits qx xml limits = .ok doc)
    {path : ElementPath} {d : Element} (hwalk : doc.root.walk path = some d) :
    (d.namespacesDeclaredHere.map Prod.fst).Nodup :=
  Document.scoped_parseWithLimits (local_declaredDistinct qx) (checks _) h path d hwalk

/-! ## `ID` values -/

/-- Two positions of a list whose marked entries have distinct values. -/
theorem position_unique {α β : Type} {l : List α} {p : α → Bool} {f : α → β}
    (nodup : ((l.filter p).map f).Nodup) {i j : Nat} {a b : α} (ha : l[i]? = some a)
    (hb : l[j]? = some b) (hpa : p a = true) (hpb : p b = true) (heq : f a = f b) : i = j := by
  rw [List.Nodup, List.pairwise_map, List.pairwise_filter, List.pairwise_iff_getElem] at nodup
  obtain ⟨hi, rfl⟩ := List.getElem?_eq_some_iff.mp ha
  obtain ⟨hj, rfl⟩ := List.getElem?_eq_some_iff.mp hb
  rcases lt_trichotomy i j with hlt | rfl | hlt
  · exact absurd heq (nodup i j hi hj hlt hpa hpb)
  · rfl
  · exact absurd heq.symm (nodup j i hj hi hlt hpb hpa)

/-- No two attributes of a well indexed document carry the same `ID` value. -/
theorem Document.WellIndexed.idAttr_unique {doc : Document} (h : doc.WellIndexed)
    {p q : ElementPath} {d e : Element} (hp : doc.root.walk p = some d)
    (hq : doc.root.walk q = some e) {i j : Nat} {a b : Attribute} (ha : d.attributes[i]? = some a)
    (hb : e.attributes[j]? = some b) (ida : isIdAttr a = true) (idb : isIdAttr b = true)
    (heq : a.value = b.value) : p = q ∧ i = j := by
  have hindexA := h.elementByIdAttr_iff.mpr ⟨p, d, hp, rfl, a, List.mem_of_getElem? ha, ida, rfl⟩
  have hindexB := h.elementByIdAttr_iff.mpr
    ⟨q, e, hq, rfl, b, List.mem_of_getElem? hb, idb, heq.symm⟩
  have hpath := h.path_unique hp hq (Option.some.inj (hindexA.symm.trans hindexB))
  subst hpath
  obtain rfl := Option.some.inj (hp.symm.trans hq)
  refine ⟨rfl, ?_⟩
  have hentry : (⟨p, d.id, d.attributes⟩ : Entry) ∈ entries [] doc.root :=
    (mem_entries.1 doc.root [] _).mpr ⟨p, d, hp, by simp⟩
  have hnodup := h.nodup
  rw [h.index_eq, List.map_flatMap] at hnodup
  have hvalues := (List.nodup_flatMap.mp hnodup).1 _ hentry
  rw [Entry.idPairs, List.map_map] at hvalues
  exact position_unique (f := Attribute.value) hvalues ha hb ida idb heq

end Saml.Xml
