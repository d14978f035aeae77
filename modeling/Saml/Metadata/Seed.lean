import Saml.Metadata.Stream
import Saml.Xml.Accepted
import Saml.Xml.Lifted

/-!
# The seed of a lifted entity

The scan keeps the declarations of the open wrappers as they are written and
merges them into one layer. Below that layer a prefix means what it means in the
document.
-/

namespace Saml.Metadata

open Xml Library

variable {qx : QuickXml} {sr : StreamReader}

/-- A written declaration and what it declares. -/
def Declares (qx : QuickXml) (written : Str × Str) (declared : NsDecl) : Prop :=
  QxQName.asNamespaceBinding written.1 = some declared.1 ∧
    unescapeValue qx written.2 = .ok declared.2

theorem Declares.key {written other : Str × Str} {declared d : NsDecl}
    (h : Declares qx written declared) (h' : Declares qx other d) :
    written.1 = other.1 ↔ declared.1 = d.1 := by
  constructor
  · intro heq
    have hsame := h.1
    rw [heq, h'.1] at hsame
    exact (Option.some.inj hsame).symm
  · intro heq
    rw [key_of_asNamespaceBinding h.1, key_of_asNamespaceBinding h'.1, heq]

/-- Merging what was written merges what is declared. -/
theorem declares_merged {written : List (Str × Str)} {declared : List NsDecl}
    (h : List.Forall₂ (Declares qx) written declared) :
    List.Forall₂ (Declares qx) (written.foldl Association.assign [])
      (declared.foldl Association.assign []) := by
  have hstep : ∀ {entries : List (Str × Str)} {others : List NsDecl},
      List.Forall₂ (Declares qx) entries others →
      List.Forall₂ (Declares qx) (written.foldl Association.assign entries)
        (declared.foldl Association.assign others) := by
    induction h with
    | nil => exact fun hdone => hdone
    | @cons first d rest others hfirst hrest ih =>
        intro entries declarations hdone
        apply ih
        exact Association.forall₂_assign (fun _ _ _ _ => Declares.key)
          (fun _ _ _ _ hsame hvalue _ => ⟨hsame.1, hvalue.2⟩) hdone hfirst
  exact hstep .nil

/-- The layer of a seed. -/
theorem seedLayer_declares {written : List (Str × Str)} {declared : List NsDecl}
    (h : List.Forall₂ (Declares qx) written declared) :
    TreeBuilder.seedLayer qx written = .ok declared := by
  induction h with
  | nil => rfl
  | @cons first d rest others hfirst hrest ih =>
      obtain ⟨key, value⟩ := first
      rw [TreeBuilder.seedLayer, hfirst.2, ok_bind, ih, ok_bind, hfirst.1]

/-! ## What a start tag declares -/

/-- The unchecked iteration over a start tag that the checked one finds nothing
wrong with yields the same attributes. -/
def StreamReader.Faithful (sr : StreamReader) : Prop :=
  ∀ start : BytesStart, (∀ item ∈ start.attributes, item.isOk = true) →
    sr.uncheckedAttributes start = start.attributes

/-- The attributes of an accepted tag are all there. -/
theorem isOk_of_collectAttributes {limits : XmlLimits} {count : Nat}
    {attributes : List (Except Str RawAttribute)} {raw : RawAttributes}
    (h : collectAttributes qx limits count attributes = .ok raw) :
    ∀ item ∈ attributes, item.isOk = true := by
  induction attributes generalizing count raw with
  | nil => exact fun item hitem => absurd hitem List.not_mem_nil
  | cons item rest ih =>
      cases item with
      | error err => cases h
      | ok a =>
          rw [collectAttributes] at h
          obtain ⟨-, h⟩ := ite_error_eq_ok_iff.mp h
          obtain ⟨value, -, h⟩ := bind_eq_ok_iff.mp h
          obtain ⟨tail, htail, -⟩ := bind_eq_ok_iff.mp h
          intro other hother
          rcases List.mem_cons.mp hother with rfl | hrest
          · rfl
          · exact ih htail other hrest

/-- The written declarations among the attributes of an accepted tag. -/
theorem declares_collected {limits : XmlLimits} {count : Nat}
    {attributes : List (Except Str RawAttribute)} {raw : RawAttributes}
    (h : collectAttributes qx limits count attributes = .ok raw) :
    List.Forall₂ (Declares qx) (((attributes.filterMap Except.toOption).filter fun a =>
      (QxQName.asNamespaceBinding a.key).isSome).map fun a => (a.key, a.value)) raw.declared := by
  induction attributes generalizing count raw with
  | nil =>
      obtain rfl := Except.ok.inj h
      exact .nil
  | cons item rest ih =>
      cases item with
      | error err => cases h
      | ok a =>
          rw [collectAttributes] at h
          obtain ⟨-, h⟩ := ite_error_eq_ok_iff.mp h
          obtain ⟨value, hvalue, h⟩ := bind_eq_ok_iff.mp h
          obtain ⟨tail, htail, h⟩ := bind_eq_ok_iff.mp h
          have hrest := ih htail
          have hitem : (Except.ok a :: rest : List (Except Str RawAttribute)).filterMap
              Except.toOption = a :: rest.filterMap Except.toOption := rfl
          rw [hitem]
          cases hbinding : QxQName.asNamespaceBinding a.key with
          | none =>
              rw [hbinding] at h
              obtain rfl := Except.ok.inj h
              rw [List.filter_cons_of_neg (by simp [hbinding])]
              exact hrest
          | some pfx =>
              rw [hbinding] at h
              obtain rfl := Except.ok.inj h
              rw [List.filter_cons_of_pos (by simp [hbinding]), List.map_cons]
              exact .cons ⟨hbinding, hvalue⟩ hrest

/-- The scan collects what the builder declares. -/
theorem declares_collectNamespaceDecls (faithful : StreamReader.Faithful sr) {start : BytesStart}
    {limits : XmlLimits} {raw : RawAttributes}
    (h : collectAttributes sr.toQuickXml limits 0 start.attributes = .ok raw) :
    List.Forall₂ (Declares sr.toQuickXml) (collectNamespaceDecls sr start) raw.declared := by
  rw [collectNamespaceDecls, faithful start (isOk_of_collectAttributes h)]
  exact declares_collected h

/-! ## What the seed means -/

/-- The layers of a scope merged into one, the outermost first. -/
def merged (layers : List NsLayer) : NsLayer :=
  layers.reverse.flatten.foldl Association.assign []

/-- A prefix means the same below the merged layer. -/
theorem sameScope_merged (layers : List NsLayer) : SameScope layers [merged layers] := by
  intro pfx
  have hnearest : (nearestFirst [merged layers]).lookup pfx = (nearestFirst layers).lookup pfx := by
    have hone : nearestFirst [merged layers] = (merged layers).reverse := by
      simp [nearestFirst]
    have hall : layers.reverse.flatten.reverse = nearestFirst layers := by
      rw [List.reverse_flatten, List.map_reverse, List.reverse_reverse]
      rfl
    calc (nearestFirst [merged layers]).lookup pfx
        = (merged layers).reverse.lookup pfx := by rw [hone]
      _ = (merged layers).lookup pfx :=
          Association.lookup_reverse (Association.nodup_foldl_assign _) pfx
      _ = layers.reverse.flatten.reverse.lookup pfx := Association.lookup_foldl_assign _ pfx
      _ = (nearestFirst layers).lookup pfx := by rw [hall]
  rw [resolvePrefix_def, resolvePrefix_def, hnearest]

/-- The builder of an entity: the written declarations of the wrappers become one
layer, in which every prefix means what it means below the wrappers. -/
theorem newEntityBuilder_declares {frames : List NsFrame} {layers : List NsLayer}
    (h : List.Forall₂ (fun frame layer => List.Forall₂ (Declares qx) frame.decls layer) frames
      layers) :
    newEntityBuilder qx frames =
      .ok { TreeBuilder.new .aggregate with nsStack := [merged layers] } := by
  have hflat : List.Forall₂ (Declares qx) (frames.reverse.flatMap NsFrame.decls)
      layers.reverse.flatten := by
    induction h with
    | nil => exact .nil
    | @cons frame layer rest others hfirst hrest ih =>
        rw [List.reverse_cons, List.flatMap_append, List.reverse_cons, List.flatten_append]
        refine List.rel_append ih ?_
        simpa using hfirst
  rw [newEntityBuilder, TreeBuilder.withSeedScope, seedLayer_declares (declares_merged hflat)]
  rfl

end Saml.Metadata
