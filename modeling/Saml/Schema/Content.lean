import Saml.Schema.Declared
import Saml.Xml.Emit
import Mathlib.Logic.Relation

/-!
# The declared content model

A shape declares a language over the names of the children, and its slots refer
to further shapes. When the slots of every shape in reach have distinct names,
the walker decides exactly what the shapes declare, over the whole tree and
round every cycle of references.
-/

namespace Saml.Schema

open Xml Library

variable {σ : Type}

/-! ## Declaration -/

/-- The names of the slots, in order. -/
def slotNames (slots : List (ChildShapeOf σ)) : List QName := slots.map ChildShapeOf.qname

/-- A shape a slot of another refers to. -/
def Refers (deref : σ → ElementShapeOf σ) (shape other : ElementShapeOf σ) : Prop :=
  ∃ s ∈ shape.slots, ∃ ref, s.shape = some ref ∧ other = deref ref

/-- The slots have distinct names in a shape and in every shape in its reach. -/
def DistinctSlots (deref : σ → ElementShapeOf σ) (shape : ElementShapeOf σ) : Prop :=
  ∀ other, Relation.ReflTransGen (Refers deref) shape other → (slotNames other.slots).Nodup

/-- Names without a slot have a namespace that is let through. -/
def OthersAdmitted (shape : ElementShapeOf σ) (names : List QName) : Prop :=
  ∀ name ∈ names, name ∉ slotNames shape.slots →
    ∃ uri ∈ shape.wildcardNamespaces, name.namespaceUri = some uri

/-- What a shape declares of the names of the children: in a sequence the listed
names run through the slots in order, each often enough; in a choice one name is
listed, unless none is offered. -/
def DeclaredContent (shape : ElementShapeOf σ) (names : List QName) : Prop :=
  match shape.children with
  | .any => True
  | .sequence slots =>
      names.filter (· ∈ slotNames slots) ∈ (ContentModel.runs (slotNames slots)).matches' ∧
        (∀ s ∈ slots, s.minOccurs.toNat ≤ names.count s.qname) ∧ OthersAdmitted shape names
  | .choice slots =>
      (slots ≠ [] → ∃ name ∈ names, name ∈ slotNames slots) ∧ OthersAdmitted shape names

/-- An element is as its shape declares it, and so is every child whose slot
refers to a shape. -/
inductive Satisfies (deref : σ → ElementShapeOf σ) : ElementShapeOf σ → Element → Prop
  | mk {shape : ElementShapeOf σ} {element : Element} (name : element.qname = shape.qname)
      (attrs : ∀ a ∈ shape.attrs, a.presence = .required →
        (element.attr a.qname.namespaceUri a.qname.localName).isSome = true)
      (content : DeclaredContent shape (childNames element))
      (nested : ∀ child ∈ element.childElements, ∀ s ∈ shape.slots, s.qname = child.qname →
        ∀ ref, s.shape = some ref → Satisfies deref (deref ref) child) :
      Satisfies deref shape element

variable {deref : σ → ElementShapeOf σ}

theorem satisfies_iff {shape : ElementShapeOf σ} {element : Element} :
    Satisfies deref shape element ↔
      element.qname = shape.qname ∧ (∀ a ∈ shape.attrs, lacks element a = false) ∧
        DeclaredContent shape (childNames element) ∧
          ∀ child ∈ element.childElements, ∀ s ∈ shape.slots, s.qname = child.qname →
            ∀ ref, s.shape = some ref → Satisfies deref (deref ref) child := by
  simp only [lacks_eq_false_iff]
  constructor
  · rintro ⟨name, attrs, content, nested⟩
    exact ⟨name, attrs, content, nested⟩
  · rintro ⟨name, attrs, content, nested⟩
    exact ⟨name, attrs, content, nested⟩

theorem DistinctSlots.nodup {shape : ElementShapeOf σ} (h : DistinctSlots deref shape) :
    (slotNames shape.slots).Nodup :=
  h shape .refl

theorem DistinctSlots.of_ref {shape : ElementShapeOf σ} (h : DistinctSlots deref shape)
    {s : ChildShapeOf σ} (hs : s ∈ shape.slots) {ref : σ} (href : s.shape = some ref) :
    DistinctSlots deref (deref ref) := by
  intro other hreach
  exact h other (.head ⟨s, hs, ref, href, rfl⟩ hreach)

/-- What holds of the shapes of a table and asks for distinct names holds in reach of each. -/
theorem distinctSlots_of_invariant {P : ElementShapeOf σ → Prop}
    (nodup : ∀ shape, P shape → (slotNames shape.slots).Nodup)
    (refers : ∀ shape other, P shape → Refers deref shape other → P other)
    {shape : ElementShapeOf σ} (h : P shape) : DistinctSlots deref shape := by
  intro other hreach
  apply nodup
  induction hreach with
  | refl => exact h
  | tail _ hstep ih => exact refers _ _ ih hstep

/-! ## Slots with distinct names -/

theorem position_eq_none_iff {slots : List (ChildShapeOf σ)} {name : QName} :
    position slots name = none ↔ name ∉ slotNames slots := by
  simp only [position, slotNames, List.findIdx?_eq_none_iff, List.mem_map, not_exists, not_and,
    decide_eq_false_iff_not]

theorem position_eq_idxOf {slots : List (ChildShapeOf σ)} {name : QName}
    (h : name ∈ slotNames slots) :
    position slots name = some ((slotNames slots).idxOf name) := by
  have hposition : position slots name = (slotNames slots).findIdx? (· == name) := by
    simp only [position, slotNames, List.findIdx?_map, Function.comp_def]
    congr 1
  rw [hposition, List.findIdx?_eq_some_iff_findIdx_eq]
  exact ⟨List.idxOf_lt_length_of_mem h, rfl⟩

/-- With distinct names the position of a name is that of the slot that bears it. -/
theorem position_eq_some_iff {slots : List (ChildShapeOf σ)} (distinct : (slotNames slots).Nodup)
    {idx : Nat} {s : ChildShapeOf σ} (hs : slots[idx]? = some s) {name : QName} :
    position slots name = some idx ↔ name = s.qname := by
  constructor
  · intro h
    exact (qname_of_position h hs).symm
  · rintro rfl
    have hname : (slotNames slots)[idx]? = some s.qname := by
      rw [slotNames, List.getElem?_map, hs, Option.map_some]
    obtain ⟨hlt, hget⟩ := List.getElem?_eq_some_iff.mp hname
    rw [position_eq_idxOf (List.mem_of_getElem? hname), ← hget, distinct.idxOf_getElem]

theorem inSlot_eq_count {slots : List (ChildShapeOf σ)} (distinct : (slotNames slots).Nodup)
    {idx : Nat} {s : ChildShapeOf σ} (hs : slots[idx]? = some s) (names : List QName) :
    inSlot slots idx names = names.count s.qname := by
  apply List.countP_congr
  intro name _
  simp only [decide_eq_true_eq, beq_iff_eq]
  exact position_eq_some_iff distinct hs

/-- Names in the order of the slots form a word of the slots' runs. -/
theorem pairwise_precedes_iff {slots : List (ChildShapeOf σ)}
    (distinct : (slotNames slots).Nodup) {names : List QName} :
    (names.Pairwise fun a b => precedes slots a b = true) ↔
      names.filter (· ∈ slotNames slots) ∈ (ContentModel.runs (slotNames slots)).matches' := by
  have hlisted : ∀ a ∈ names.filter (· ∈ slotNames slots), a ∈ slotNames slots := by
    intro a ha
    exact of_decide_eq_true (List.mem_filter.mp ha).2
  rw [ContentModel.mem_runs_iff distinct, and_iff_right hlisted, List.pairwise_filter]
  apply List.Pairwise.iff
  intro a b
  rw [precedes_eq_true_iff]
  simp only [decide_eq_true_eq]
  constructor
  · intro h ha hb
    exact h _ (position_eq_idxOf ha) _ (position_eq_idxOf hb)
  · intro h i hi j hj
    have ha : a ∈ slotNames slots := by
      by_contra hnone
      rw [position_eq_none_iff.mpr hnone] at hi
      cases hi
    have hb : b ∈ slotNames slots := by
      by_contra hnone
      rw [position_eq_none_iff.mpr hnone] at hj
      cases hj
    obtain rfl := Option.some.inj ((position_eq_idxOf ha).symm.trans hi)
    obtain rfl := Option.some.inj ((position_eq_idxOf hb).symm.trans hj)
    exact h ha hb

theorem counts_iff {slots : List (ChildShapeOf σ)} (distinct : (slotNames slots).Nodup)
    {names : List QName} :
    (∀ (idx : Nat) (s : ChildShapeOf σ), slots[idx]? = some s →
      s.minOccurs.toNat ≤ inSlot slots idx names) ↔
        ∀ s ∈ slots, s.minOccurs.toNat ≤ names.count s.qname := by
  constructor
  · intro h s hs
    obtain ⟨idx, hidx⟩ := List.mem_iff_getElem?.mp hs
    have hle := h idx s hidx
    rwa [inSlot_eq_count distinct hidx] at hle
  · intro h idx s hs
    rw [inSlot_eq_count distinct hs]
    exact h s (List.mem_of_getElem? hs)

theorem allowWildcard_iff {name : QName} {wildcardNamespaces : List Str} :
    allowWildcard name wildcardNamespaces = true ↔
      ∃ uri ∈ wildcardNamespaces, name.namespaceUri = some uri := by
  cases h : name.namespaceUri <;> simp [allowWildcard, h]

theorem admitted_iff {slots : List (ChildShapeOf σ)} {wildcardNamespaces : List Str}
    {name : QName} :
    admitted slots wildcardNamespaces name = true ↔
      (name ∉ slotNames slots → ∃ uri ∈ wildcardNamespaces, name.namespaceUri = some uri) := by
  rw [admitted, Bool.or_eq_true, allowWildcard_iff, ← position_eq_none_iff]
  cases position slots name <;> simp

theorem slotShape_eq_some_iff {slots : List (ChildShapeOf σ)}
    (distinct : (slotNames slots).Nodup) {name : QName} {ref : σ} :
    slotShape slots name = some ref ↔ ∃ s ∈ slots, s.qname = name ∧ s.shape = some ref := by
  constructor
  · intro h
    obtain ⟨idx, hidx, hshape⟩ := Option.bind_eq_some_iff.mp h
    obtain ⟨s, hs, href⟩ := Option.bind_eq_some_iff.mp hshape
    exact ⟨s, List.mem_of_getElem? hs, qname_of_position hidx hs, href⟩
  · rintro ⟨s, hs, rfl, href⟩
    obtain ⟨idx, hidx⟩ := List.mem_iff_getElem?.mp hs
    rw [slotShape, (position_eq_some_iff distinct hidx).mpr rfl, Option.bind_some, hidx,
      Option.bind_some, href]

/-- The children fit their slots if the others are admitted and each passes the
shape its slot refers to. -/
theorem forall_fitsSlot_iff {shape : ElementShapeOf σ} (distinct : (slotNames shape.slots).Nodup)
    {element : Element} :
    (∀ child ∈ element.childElements,
      FitsSlot deref shape.slots shape.wildcardNamespaces child) ↔
        OthersAdmitted shape (childNames element) ∧
          ∀ child ∈ element.childElements, ∀ s ∈ shape.slots, s.qname = child.qname →
            ∀ ref, s.shape = some ref →
              validateAgainstShape deref (deref ref) child = .ok () := by
  constructor
  · intro h
    refine ⟨?_, ?_⟩
    · intro name hname
      obtain ⟨child, hchild, rfl⟩ := List.mem_map.mp hname
      exact admitted_iff.mp (h child hchild).admitted
    · intro child hchild s hs hname ref href
      exact (h child hchild).shape ref
        ((slotShape_eq_some_iff distinct).mpr ⟨s, hs, hname, href⟩)
  · rintro ⟨hothers, hshapes⟩ child hchild
    refine ⟨admitted_iff.mpr (hothers _ (qname_mem_childNames hchild)), ?_⟩
    intro ref href
    obtain ⟨s, hs, hname, hshape⟩ := (slotShape_eq_some_iff distinct).mp href
    exact hshapes child hchild s hs hname ref hshape

/-! ## The walker decides the declaration -/

/-- Step: the walk accepts an element whose own content is declared so, provided
the children pass the shapes their slots refer to. -/
theorem validateAgainstShape_step {shape : ElementShapeOf σ}
    (distinct : (slotNames shape.slots).Nodup) {element : Element} :
    validateAgainstShape deref shape element = .ok () ↔
      element.qname = shape.qname ∧ (∀ a ∈ shape.attrs, lacks element a = false) ∧
        DeclaredContent shape (childNames element) ∧
          ∀ child ∈ element.childElements, ∀ s ∈ shape.slots, s.qname = child.qname →
            ∀ ref, s.shape = some ref →
              validateAgainstShape deref (deref ref) child = .ok () := by
  have hfits := @forall_fitsSlot_iff σ deref shape distinct element
  rcases shape with ⟨name, attrs, _ | _ | _, wildcardNamespaces⟩
  case sequence slots =>
    rw [validateAgainstShape_sequence]
    constructor
    · intro h
      obtain ⟨hothers, hnested⟩ := hfits.mp h.children
      exact ⟨h.name, h.attrs, ⟨(pairwise_precedes_iff distinct).mp h.order,
        (counts_iff distinct).mp h.counts, hothers⟩, hnested⟩
    · rintro ⟨hname, hattrs, ⟨horder, hcounts, hothers⟩, hnested⟩
      exact ⟨hname, hattrs, hfits.mpr ⟨hothers, hnested⟩,
        (pairwise_precedes_iff distinct).mpr horder, (counts_iff distinct).mpr hcounts⟩
  case choice slots =>
    have hlisted (name : QName) : (position slots name).isSome = true ↔ name ∈ slotNames slots := by
      rw [← not_iff_not, ← position_eq_none_iff, Option.not_isSome_iff_eq_none]
    rw [validateAgainstShape_choice]
    constructor
    · intro h
      obtain ⟨hothers, hnested⟩ := hfits.mp h.children
      exact ⟨h.name, h.attrs, ⟨by simpa only [hlisted] using h.some, hothers⟩, hnested⟩
    · rintro ⟨hname, hattrs, ⟨hsome, hothers⟩, hnested⟩
      exact ⟨hname, hattrs, hfits.mpr ⟨hothers, hnested⟩, by simpa only [hlisted] using hsome⟩
  case any =>
    rw [validateAgainstShape_any]
    constructor
    · rintro ⟨hname, hattrs⟩
      exact ⟨hname, hattrs, trivial, fun _ _ _ hs => absurd hs List.not_mem_nil⟩
    · rintro ⟨hname, hattrs, -, -⟩
      exact ⟨hname, hattrs⟩

/-- Run: over the whole tree, the walker accepts exactly the elements that
satisfy their shape. -/
theorem validate_iff_satisfies :
    (∀ (element : Element) (shape : ElementShapeOf σ), DistinctSlots deref shape →
      (validateAgainstShape deref shape element = .ok () ↔ Satisfies deref shape element)) ∧
    ∀ (nodes : List Node) (child : Element), Node.element child ∈ nodes →
      ∀ shape : ElementShapeOf σ, DistinctSlots deref shape →
        (validateAgainstShape deref shape child = .ok () ↔ Satisfies deref shape child) := by
  apply Element.induct
  case mk =>
    intro element ih shape distinct
    rw [validateAgainstShape_step distinct.nodup, satisfies_iff]
    refine and_congr_right fun _ => and_congr_right fun _ => and_congr_right fun _ => ?_
    refine forall₂_congr fun child hchild => forall₂_congr fun s hs => ?_
    refine forall_congr' fun _ => forall₂_congr fun ref href => ?_
    exact ih child (ElementOf.mem_childElements.mp hchild) _ (distinct.of_ref hs href)
  case nil =>
    intro child hchild
    cases hchild
  case element =>
    intro e rest he hrest child hchild
    cases List.mem_cons.mp hchild with
    | inl h =>
        cases h
        exact he
    | inr h => exact hrest child h
  case text =>
    intro t rest hrest child hchild
    exact hrest child (by simpa using hchild)
  case comment =>
    intro c rest hrest child hchild
    exact hrest child (by simpa using hchild)

/-- The walker decides the declared content model. -/
theorem validateAgainstShape_iff_satisfies {shape : ElementShapeOf σ}
    (distinct : DistinctSlots deref shape) (element : Element) :
    validateAgainstShape deref shape element = .ok () ↔ Satisfies deref shape element :=
  validate_iff_satisfies.1 element shape distinct

namespace Sample

/-- The names of a table of two shapes that refer to each other. -/
inductive Part where
  | folder
  | file

/-- A folder holds folders and files, one of them at least; a file holds a title,
two pages or more and then folders, with notes anywhere between. -/
def parts : Part → ElementShapeOf Part
  | .folder =>
      ⟨⟨none, "folder"⟩, [⟨⟨none, "id"⟩, .required⟩],
        .choice [⟨⟨none, "folder"⟩, 0, some .folder⟩, ⟨⟨none, "file"⟩, 0, some .file⟩], []⟩
  | .file =>
      ⟨⟨none, "file"⟩, [⟨⟨some "urn:x", "lang"⟩, .optional⟩],
        .sequence
          [⟨⟨none, "title"⟩, 1, none⟩, ⟨⟨none, "page"⟩, 2, none⟩,
            ⟨⟨none, "folder"⟩, 0, some .folder⟩],
        ["urn:x"]⟩

theorem distinct_parts (part : Part) : DistinctSlots parts (parts part) := by
  apply distinctSlots_of_invariant (P := fun shape => ∃ part, shape = parts part)
  · rintro _ ⟨part, rfl⟩
    cases part <;> decide
  · rintro _ _ _ ⟨_, _, ref, _, rfl⟩
    exact ⟨ref, rfl⟩
  · exact ⟨part, rfl⟩

def page : Node := .element (ElementOf.build ⟨none, "page"⟩)

/-- A folder in a folder, with a file that has a note between its pages. -/
def folder : Element :=
  let file := ((((ElementOf.build ⟨none, "file"⟩).withChild
    (.element (ElementOf.build ⟨none, "title"⟩))).withChild page).withChild
    (.element (ElementOf.build ⟨some "urn:x", "note"⟩))).withChild page
  let inner := ((ElementOf.build ⟨none, "folder"⟩).withAttribute ⟨none, "id"⟩ "b").withChild
    (.element file)
  ((ElementOf.build ⟨none, "folder"⟩).withAttribute ⟨none, "id"⟩ "a").withChild (.element inner)

end Sample

theorem validateAgainstShape_iff_satisfies_folder :
    validateAgainstShape Sample.parts (Sample.parts .folder) Sample.folder = .ok () ∧
      Satisfies Sample.parts (Sample.parts .folder) Sample.folder := by
  have haccepts :
      validateAgainstShape Sample.parts (Sample.parts .folder) Sample.folder = .ok () := by
    decide +kernel
  have hiff := validateAgainstShape_iff_satisfies (Sample.distinct_parts .folder) Sample.folder
  exact ⟨haccepts, hiff.mp haccepts⟩

/-! ## The catalog -/

namespace Declared

theorem slotNames_nodup (d : Declared) : (slotNames d.shape.deref.slots).Nodup := by
  cases d <;> decide +kernel

/-- The slots of the catalog have distinct names. -/
theorem distinctSlots (d : Declared) : DistinctSlots ElementShape.deref d.shape.deref := by
  apply distinctSlots_of_invariant
    (P := fun shape => (∃ d : Declared, shape = d.shape.deref) ∨ shape.slots = [])
  · rintro shape (⟨d, rfl⟩ | hnone)
    · exact d.slotNames_nodup
    · rw [hnone]
      exact List.nodup_nil
  · rintro shape _ (⟨d, rfl⟩ | hnone) ⟨s, hs, ref, href, rfl⟩
    · rw [ref_eq hs href, slotted]
      split
      next other _ => exact .inl ⟨other, rfl⟩
      next => exact .inr rfl
    · rw [hnone] at hs
      cases hs
  · exact .inl ⟨d, rfl⟩

end Declared

/-- Every entry point of the gate decides the content its shape declares. -/
theorem gate_iff_satisfies {d : Declared} {gate : Element → Result Unit}
    (hgate : (d, gate) ∈ gates) (element : Element) :
    gate element = .ok () ↔ Satisfies ElementShape.deref d.shape.deref element := by
  rw [gates_shape hgate, ← validate_iff_satisfies.1 element _ d.distinctSlots]
  rfl

end Saml.Schema
