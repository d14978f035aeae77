import Saml.Schema
import Mathlib.Data.List.Pairwise

/-!
# What the walker accepts

The walk keeps a cursor into the slots and one counter a slot. Its verdict
depends on the children one by one, on their order and on their number.
-/

namespace Saml.Schema

open Xml

variable {σ : Type}

/-- The slot a child falls into. -/
def position (slots : List (ChildShapeOf σ)) (qname : QName) : Option Nat :=
  slots.findIdx? fun s => s.qname = qname

/-- The shape a child is validated against. -/
def slotShape (slots : List (ChildShapeOf σ)) (qname : QName) : Option σ :=
  (position slots qname).bind fun idx => (slots[idx]?).bind ChildShapeOf.shape

/-- Whether a child name has a slot or is let through by its namespace. -/
def admitted (slots : List (ChildShapeOf σ)) (wildcardNamespaces : List Str) (qname : QName) : Bool :=
  (position slots qname).isSome || allowWildcard qname wildcardNamespaces

/-- Whether the slots let one child name stand before another. -/
def precedes (slots : List (ChildShapeOf σ)) (a b : QName) : Bool :=
  match position slots a, position slots b with
  | some i, some j => decide (i ≤ j)
  | _, _ => true

/-- A child is admitted, and it passes the shape of its slot if that has one. -/
structure FitsSlot (deref : σ → ElementShapeOf σ) (slots : List (ChildShapeOf σ))
    (wildcardNamespaces : List Str) (child : Element) : Prop where
  admitted : admitted slots wildcardNamespaces child.qname = true
  shape : ∀ shape ∈ slotShape slots child.qname,
    validateAgainstShape deref (deref shape) child = .ok ()

/-- The names of the elements among the nodes. -/
def elementNames (nodes : List Node) : List QName :=
  (nodes.filterMap Node.asElement).map ElementOf.qname

@[simp] theorem elementNames_nil : elementNames [] = [] := rfl

@[simp] theorem elementNames_element (child : Element) (rest : List Node) :
    elementNames (.element child :: rest) = child.qname :: elementNames rest := rfl

@[simp] theorem elementNames_text (t : Str) (rest : List Node) :
    elementNames (.text t :: rest) = elementNames rest := rfl

@[simp] theorem elementNames_comment (c : Str) (rest : List Node) :
    elementNames (.comment c :: rest) = elementNames rest := rfl

/-- The counters after one more child. -/
def bump (slots : List (ChildShapeOf σ)) (counts : List UInt32) (qname : QName) : List UInt32 :=
  match position slots qname with
  | some idx => counts.modify idx saturatingSucc
  | none => counts

/-- The number of the children that fell into a slot. -/
def inSlot (slots : List (ChildShapeOf σ)) (idx : Nat) (names : List QName) : Nat :=
  names.countP fun name => position slots name = some idx

theorem inSlot_cons (slots : List (ChildShapeOf σ)) (idx : Nat) (name : QName) (names : List QName) :
    inSlot slots idx (name :: names) =
      (if position slots name = some idx then 1 else 0) + inSlot slots idx names := by
  simp only [inSlot, List.countP_cons, decide_eq_true_eq]
  apply Nat.add_comm

theorem toNat_saturatingSucc (n : UInt32) :
    (saturatingSucc n).toNat = min (n.toNat + 1) (UInt32.size - 1) := by
  have hlt := n.toNat_lt
  have hsize : UInt32.size = 2 ^ 32 := rfl
  unfold saturatingSucc
  split
  next h =>
    have hsum : (n + 1).toNat = n.toNat + 1 := by
      rw [UInt32.toNat_add]
      exact Nat.mod_eq_of_lt h
    omega
  next h => omega

theorem bump_getElem? (slots : List (ChildShapeOf σ)) (counts : List UInt32) (qname : QName)
    (idx : Nat) :
    (bump slots counts qname)[idx]? =
      counts[idx]?.map fun n => if position slots qname = some idx then saturatingSucc n else n := by
  unfold bump
  cases hpos : position slots qname with
  | none => cases counts[idx]? <;> simp
  | some i =>
      rw [List.getElem?_modify]
      by_cases hi : i = idx
      · simp [hi]
      · cases counts[idx]? <;> simp [hi]

/-- The counters after the children with the given names. -/
def tally (slots : List (ChildShapeOf σ)) (counts : List UInt32) (names : List QName) :
    List UInt32 :=
  names.foldl (bump slots) counts

/-- A counter shows the number of the children in its slot, up to its greatest value. -/
theorem tally_getElem? (slots : List (ChildShapeOf σ)) (names : List QName)
    (counts : List UInt32) (idx : Nat) :
    (tally slots counts names)[idx]?.map UInt32.toNat =
      counts[idx]?.map fun n => min (n.toNat + inSlot slots idx names) (UInt32.size - 1) := by
  induction names generalizing counts with
  | nil =>
      cases h : counts[idx]? with
      | none => simp [tally, h]
      | some n =>
          have hlt := n.toNat_lt
          have hsize : UInt32.size = 2 ^ 32 := rfl
          have hmin : min (n.toNat + 0) (UInt32.size - 1) = n.toNat := by omega
          simp only [tally, List.foldl_nil, h, Option.map_some, Option.some.injEq]
          exact hmin.symm
  | cons name rest ih =>
      have hstep : tally slots counts (name :: rest) = tally slots (bump slots counts name) rest :=
        rfl
      rw [hstep, ih, bump_getElem?, inSlot_cons]
      cases counts[idx]? with
      | none => rfl
      | some n =>
          simp only [Option.map_some, Option.some.injEq]
          split
          · rw [toNat_saturatingSucc]
            omega
          · rw [Nat.zero_add]

theorem checkCounts_eq_ok_iff {parent : QName} {slots : List (ChildShapeOf σ)}
    {counts : List UInt32} :
    checkCounts parent slots counts = .ok () ↔
      ∀ (idx : Nat) (s : ChildShapeOf σ) (n : UInt32), slots[idx]? = some s →
        counts[idx]? = some n → s.minOccurs.toNat ≤ n.toNat := by
  unfold checkCounts
  cases hfind : (slots.zip counts).find? (fun p => p.2 < p.1.minOccurs) with
  | some p =>
      have hlt := List.find?_some hfind
      obtain ⟨idx, hidx⟩ := List.getElem?_of_mem (List.mem_of_find?_eq_some hfind)
      rw [List.getElem?_zip_eq_some] at hidx
      simp only [decide_eq_true_eq, UInt32.lt_iff_toNat_lt] at hlt
      constructor
      · intro h
        cases h
      · intro h
        have hge := h idx _ _ hidx.1 hidx.2
        exact absurd hlt (Nat.not_lt.mpr hge)
  | none =>
      rw [List.find?_eq_none] at hfind
      constructor
      · intro _ idx s n hs hn
        have hmem : (s, n) ∈ slots.zip counts :=
          List.mem_of_getElem? (List.getElem?_zip_eq_some.mpr ⟨hs, hn⟩)
        have hge := hfind (s, n) hmem
        simpa [UInt32.lt_iff_toNat_lt] using hge
      · intro _
        rfl

/-- Counting from zero, every slot has to be filled often enough. No slot asks
for more children than a counter can show. -/
theorem checkCounts_tally {parent : QName} {slots : List (ChildShapeOf σ)}
    {names : List QName} :
    checkCounts parent slots (tally slots (slots.map fun _ => 0) names) = .ok () ↔
      ∀ (idx : Nat) (s : ChildShapeOf σ), slots[idx]? = some s →
        s.minOccurs.toNat ≤ inSlot slots idx names := by
  have hcount : ∀ (idx : Nat) (s : ChildShapeOf σ), slots[idx]? = some s →
      ∃ n, (tally slots (slots.map fun _ => 0) names)[idx]? = some n ∧
        n.toNat = min (inSlot slots idx names) (UInt32.size - 1) := by
    intro idx s hs
    have htally := tally_getElem? slots names (slots.map fun _ => 0) idx
    rw [List.getElem?_map, hs] at htally
    obtain ⟨n, hn, heq⟩ := Option.map_eq_some_iff.mp htally
    exact ⟨n, hn, by simpa using heq⟩
  rw [checkCounts_eq_ok_iff]
  constructor
  · intro h idx s hs
    obtain ⟨n, hn, heq⟩ := hcount idx s hs
    have hle := h idx s n hs hn
    omega
  · intro h idx s n hs hn
    obtain ⟨m, hm, heq⟩ := hcount idx s hs
    obtain rfl := Option.some.inj (hn.symm.trans hm)
    have hle := h idx s hs
    have hlt := s.minOccurs.toNat_lt
    have hsize : UInt32.size = 2 ^ 32 := rfl
    omega

variable {deref : σ → ElementShapeOf σ}

/-- Step: a child is accepted if it fits its slot and the slot is not behind the cursor. -/
theorem validateChild_eq_ok_iff {parent : QName} {slots : List (ChildShapeOf σ)}
    {wildcardNamespaces : List Str} {cursor : Nat} {counts : List UInt32} {child : Element}
    {next : Nat × List UInt32} :
    validateChild deref parent slots wildcardNamespaces cursor counts (.element child) = .ok next ↔
      FitsSlot deref slots wildcardNamespaces child ∧
        (∀ idx ∈ position slots child.qname, cursor ≤ idx) ∧
        next = ((position slots child.qname).getD cursor, bump slots counts child.qname) := by
  obtain ⟨qname, sourcePrefix, declared, attributes, children, id⟩ := child
  rw [validateChild]
  cases hpos : position slots qname with
  | none =>
      have hfind : slots.findIdx? (fun s => s.qname = qname) = none := hpos
      simp only [hfind, bump, hpos, Option.getD_none, Option.mem_def, reduceCtorEq,
        false_implies, implies_true, true_and]
      by_cases hwild : allowWildcard qname wildcardNamespaces = true
      · have hfits : FitsSlot deref slots wildcardNamespaces
            ⟨qname, sourcePrefix, declared, attributes, children, id⟩ :=
          ⟨by simp [admitted, hwild], by simp [slotShape, hpos]⟩
        simp [hwild, hfits, eq_comm]
      · constructor
        · intro h
          simp [hwild, violation] at h
        · intro h
          have hadmitted := h.1.admitted
          simp [admitted, hpos, hwild] at hadmitted
  | some idx =>
      have hfind : slots.findIdx? (fun s => s.qname = qname) = some idx := hpos
      simp only [hfind, bump, hpos, Option.getD_some, Option.mem_def, Option.some.injEq,
        forall_eq']
      by_cases hlt : idx < cursor
      · constructor
        · intro h
          simp [hlt, violation] at h
        · intro h
          exact absurd h.2.1 (by omega)
      · have hshape : slotShape slots qname = (slots[idx]?).bind ChildShapeOf.shape := by
          simp [slotShape, hpos]
        have hadmitted : admitted slots wildcardNamespaces qname = true := by
          simp [admitted, hpos]
        rw [if_neg hlt]
        cases hsub : (slots[idx]?).bind ChildShapeOf.shape with
        | none =>
            have hfits : FitsSlot deref slots wildcardNamespaces
                ⟨qname, sourcePrefix, declared, attributes, children, id⟩ :=
              ⟨hadmitted, by simp [hshape, hsub]⟩
            simp only [ok_bind, Except.ok.injEq]
            constructor
            · intro h
              exact ⟨hfits, by omega, h.symm⟩
            · intro h
              exact h.2.2.symm
        | some shape =>
            rw [bind_eq_ok_iff]
            constructor
            · rintro ⟨_, hok, hnext⟩
              refine ⟨⟨hadmitted, ?_⟩, by omega, (Except.ok.inj hnext).symm⟩
              intro shape' hmem
              rw [Option.mem_def, hshape, hsub] at hmem
              cases hmem
              exact hok
            · rintro ⟨hfits, -, rfl⟩
              exact ⟨(), hfits.shape shape (by rw [Option.mem_def, hshape, hsub]), rfl⟩

theorem precedes_eq_true_iff {slots : List (ChildShapeOf σ)} {a b : QName} :
    precedes slots a b = true ↔
      ∀ i ∈ position slots a, ∀ j ∈ position slots b, i ≤ j := by
  unfold precedes
  cases position slots a <;> cases position slots b <;> simp

/-- Moving the cursor to a slot puts it before a later one exactly if it was
before that one already and the two slots are in order. -/
theorem getD_le_iff {slot : Option Nat} {cursor : Nat} (h : ∀ i ∈ slot, cursor ≤ i) (j : Nat) :
    slot.getD cursor ≤ j ↔ cursor ≤ j ∧ ∀ i ∈ slot, i ≤ j := by
  cases slot with
  | none => simp
  | some i =>
      have hi := h i rfl
      simp only [Option.getD_some, Option.mem_def, Option.some.injEq, forall_eq']
      omega

/-- Run: the walk accepts the children if each fits, none falls behind the
cursor or a child before it, and the counters end high enough. -/
theorem walkSequence_eq_ok_iff {parent : QName} {slots : List (ChildShapeOf σ)}
    {wildcardNamespaces : List Str} {cursor : Nat} {counts : List UInt32} {nodes : List Node} :
    walkSequence deref parent slots wildcardNamespaces cursor counts nodes = .ok () ↔
      (∀ child, Node.element child ∈ nodes → FitsSlot deref slots wildcardNamespaces child) ∧
        (∀ name ∈ elementNames nodes, ∀ idx ∈ position slots name, cursor ≤ idx) ∧
        ((elementNames nodes).Pairwise fun a b => precedes slots a b = true) ∧
        checkCounts parent slots (tally slots counts (elementNames nodes)) = .ok () := by
  induction nodes generalizing cursor counts with
  | nil => simp [walkSequence, tally]
  | cons node rest ih =>
      rw [walkSequence, bind_eq_ok_iff]
      cases node with
      | text t => simp [validateChild, ih]
      | comment c => simp [validateChild, ih]
      | element child =>
          have htally : tally slots counts (elementNames (.element child :: rest)) =
              tally slots (bump slots counts child.qname) (elementNames rest) := rfl
          rw [htally, elementNames_element]
          simp only [List.pairwise_cons, List.mem_cons, forall_eq_or_imp, Node.element.injEq,
            precedes_eq_true_iff]
          constructor
          · rintro ⟨next, hchild, hrest⟩
            obtain ⟨hfits, hcursor, rfl⟩ := validateChild_eq_ok_iff.mp hchild
            obtain ⟨hall, hbehind, horder, hcounts⟩ := ih.mp hrest
            have hsplit := fun name hname j hj =>
              (getD_le_iff hcursor j).mp (hbehind name hname j hj)
            refine ⟨⟨hfits, hall⟩, ⟨hcursor, ?_⟩, ⟨?_, ?_⟩, hcounts⟩
            · intro name hname j hj
              exact (hsplit name hname j hj).1
            · intro name hname i hi j hj
              exact (hsplit name hname j hj).2 i hi
            · simpa only [precedes_eq_true_iff] using horder
          · rintro ⟨⟨hfits, hall⟩, ⟨hcursor, hbehind⟩, ⟨hfirst, horder⟩, hcounts⟩
            refine ⟨_, validateChild_eq_ok_iff.mpr ⟨hfits, hcursor, rfl⟩, ih.mpr ?_⟩
            refine ⟨hall, ?_, by simpa only [precedes_eq_true_iff] using horder, hcounts⟩
            intro name hname j hj
            apply (getD_le_iff hcursor j).mpr
            exact ⟨hbehind name hname j hj, fun i hi => hfirst name hname i hi j hj⟩

theorem position_lt {slots : List (ChildShapeOf σ)} {qname : QName} {idx : Nat}
    (h : position slots qname = some idx) : idx < slots.length :=
  (List.findIdx?_eq_some_iff_getElem.mp h).1

theorem qname_of_position {slots : List (ChildShapeOf σ)} {qname : QName} {idx : Nat}
    {s : ChildShapeOf σ} (h : position slots qname = some idx) (hs : slots[idx]? = some s) :
    s.qname = qname := by
  obtain ⟨_, hq, -⟩ := List.findIdx?_eq_some_iff_getElem.mp h
  obtain ⟨_, rfl⟩ := List.getElem?_eq_some_iff.mp hs
  exact of_decide_eq_true hq

/-- Step: a child of a choice is accepted if it fits its slot, and noted if it has one. -/
theorem validateAlternative_eq_ok_iff {parent : QName} {slots : List (ChildShapeOf σ)}
    {wildcardNamespaces : List Str} {anyMatched next : Bool} {child : Element} :
    validateAlternative deref parent slots wildcardNamespaces anyMatched (.element child) =
        .ok next ↔
      FitsSlot deref slots wildcardNamespaces child ∧
        next = (anyMatched || (position slots child.qname).isSome) := by
  obtain ⟨qname, sourcePrefix, declared, attributes, children, id⟩ := child
  have hfind : slots.find? (fun s => s.qname = qname) = (position slots qname).bind (slots[·]?) :=
    List.find?_eq_bind_findIdx?_getElem?
  rw [validateAlternative, hfind]
  cases hpos : position slots qname with
  | none =>
      simp only [Option.bind_none, Option.isSome_none, Bool.or_false]
      by_cases hwild : allowWildcard qname wildcardNamespaces = true
      · have hfits : FitsSlot deref slots wildcardNamespaces
            ⟨qname, sourcePrefix, declared, attributes, children, id⟩ :=
          ⟨by simp [admitted, hwild], by simp [slotShape, hpos]⟩
        simp [hwild, hfits, eq_comm]
      · constructor
        · intro h
          simp [hwild, violation] at h
        · intro h
          have hadmitted := h.1.admitted
          simp [admitted, hpos, hwild] at hadmitted
  | some idx =>
      obtain ⟨s, hslot⟩ : ∃ s, slots[idx]? = some s :=
        ⟨_, List.getElem?_eq_getElem (position_lt hpos)⟩
      have hshape : slotShape slots qname = s.shape := by
        simp [slotShape, hpos, hslot]
      have hadmitted : admitted slots wildcardNamespaces qname = true := by
        simp [admitted, hpos]
      simp only [Option.bind_some, hslot, Option.isSome_some, Bool.or_true]
      cases hsub : s.shape with
      | none =>
          have hfits : FitsSlot deref slots wildcardNamespaces
              ⟨qname, sourcePrefix, declared, attributes, children, id⟩ :=
            ⟨hadmitted, by simp [hshape, hsub]⟩
          simp only [ok_bind, Except.ok.injEq]
          constructor
          · intro h
            exact ⟨hfits, h.symm⟩
          · intro h
            exact h.2.symm
      | some shape =>
          simp only [bind_eq_ok_iff]
          constructor
          · rintro ⟨_, hok, hnext⟩
            refine ⟨⟨hadmitted, ?_⟩, (Except.ok.inj hnext).symm⟩
            intro shape' hmem
            rw [Option.mem_def, hshape, hsub] at hmem
            cases hmem
            exact hok
          · rintro ⟨hfits, rfl⟩
            exact ⟨(), hfits.shape shape (hshape.trans hsub), rfl⟩

/-- Run: the walk of a choice accepts the children if each fits, and one of
them has a slot where there are slots. -/
theorem walkChoice_eq_ok_iff {parent : QName} {slots : List (ChildShapeOf σ)}
    {wildcardNamespaces : List Str} {anyMatched : Bool} {nodes : List Node} :
    walkChoice deref parent slots wildcardNamespaces anyMatched nodes = .ok () ↔
      (∀ child, Node.element child ∈ nodes → FitsSlot deref slots wildcardNamespaces child) ∧
        (slots ≠ [] → anyMatched = true ∨
          ∃ name ∈ elementNames nodes, (position slots name).isSome = true) := by
  induction nodes generalizing anyMatched with
  | nil =>
      rw [walkChoice, checkChoice]
      cases anyMatched <;> cases slots <;> simp [violation]
  | cons node rest ih =>
      rw [walkChoice, bind_eq_ok_iff]
      cases node with
      | text t => simp [validateAlternative, ih]
      | comment c => simp [validateAlternative, ih]
      | element child =>
          simp only [validateAlternative_eq_ok_iff, ih, elementNames_element, List.mem_cons,
            forall_eq_or_imp, Node.element.injEq, exists_eq_or_imp]
          constructor
          · rintro ⟨_, ⟨hfits, rfl⟩, hall, hsome⟩
            exact ⟨⟨hfits, hall⟩, by simpa [or_assoc] using hsome⟩
          · rintro ⟨⟨hfits, hall⟩, hsome⟩
            exact ⟨_, ⟨hfits, rfl⟩, hall, by simpa [or_assoc] using hsome⟩

theorem checkAttrs_eq_ok_iff {element : Element} {attrs : List AttrShape} :
    checkAttrs element attrs = .ok () ↔ ∀ a ∈ attrs, lacks element a = false := by
  unfold checkAttrs
  cases hfind : attrs.find? (lacks element) with
  | some a =>
      have hlacks := List.find?_some hfind
      constructor
      · intro h
        cases h
      · intro h
        rw [h a (List.mem_of_find?_eq_some hfind)] at hlacks
        cases hlacks
  | none =>
      rw [List.find?_eq_none] at hfind
      constructor
      · intro _ a ha
        exact Bool.eq_false_iff.mpr (hfind a ha)
      · intro _
        rfl

theorem lacks_eq_false_iff {element : Element} {a : AttrShape} :
    lacks element a = false ↔
      (a.presence = .required →
        (element.attr a.qname.namespaceUri a.qname.localName).isSome = true) := by
  cases h : element.attr a.qname.namespaceUri a.qname.localName <;> simp [lacks, h]

/-- The names of the child elements. -/
def childNames (element : Element) : List QName := elementNames element.children

/-- The slots of a shape. -/
def ElementShapeOf.slots (shape : ElementShapeOf σ) : List (ChildShapeOf σ) :=
  match shape.children with
  | .sequence slots => slots
  | .choice slots => slots
  | .any => []

/-- What a shape with a sequence of slots asks of an element. -/
structure Conforms (deref : σ → ElementShapeOf σ) (name : QName) (attrs : List AttrShape)
    (slots : List (ChildShapeOf σ)) (wildcardNamespaces : List Str) (element : Element) :
    Prop where
  name : element.qname = name
  attrs : ∀ a ∈ attrs, lacks element a = false
  children : ∀ child ∈ element.childElements, FitsSlot deref slots wildcardNamespaces child
  order : (childNames element).Pairwise fun a b => precedes slots a b = true
  counts : ∀ (idx : Nat) (s : ChildShapeOf σ), slots[idx]? = some s →
    s.minOccurs.toNat ≤ inSlot slots idx (childNames element)

/-- What a shape with a choice of slots asks of an element. -/
structure Chooses (deref : σ → ElementShapeOf σ) (name : QName) (attrs : List AttrShape)
    (slots : List (ChildShapeOf σ)) (wildcardNamespaces : List Str) (element : Element) :
    Prop where
  name : element.qname = name
  attrs : ∀ a ∈ attrs, lacks element a = false
  children : ∀ child ∈ element.childElements, FitsSlot deref slots wildcardNamespaces child
  some : slots ≠ [] → ∃ name ∈ childNames element, (position slots name).isSome = true

/-- The name and the attributes come first, and then the walk of the model. -/
theorem validateAgainstShape_eq_ok_iff {shape : ElementShapeOf σ} {element : Element} :
    validateAgainstShape deref shape element = .ok () ↔
      element.qname = shape.qname ∧ (∀ a ∈ shape.attrs, lacks element a = false) ∧
        (match shape.children with
          | .any => Except.ok ()
          | .sequence slots =>
              walkSequence deref element.qname slots shape.wildcardNamespaces 0
                (slots.map fun _ => 0) element.children
          | .choice slots =>
              walkChoice deref element.qname slots shape.wildcardNamespaces false
                element.children) = .ok () := by
  obtain ⟨qname, sourcePrefix, declared, attributes, children, id⟩ := element
  rw [validateAgainstShape]
  by_cases hname : qname = shape.qname
  · rw [if_neg (not_not_intro hname), bind_eq_ok_iff]
    constructor
    · rintro ⟨_, hattrs, hwalk⟩
      exact ⟨hname, checkAttrs_eq_ok_iff.mp hattrs, hwalk⟩
    · rintro ⟨-, hattrs, hwalk⟩
      exact ⟨(), checkAttrs_eq_ok_iff.mpr hattrs, hwalk⟩
  · rw [if_pos hname]
    constructor
    · intro h
      cases h
    · intro h
      exact absurd h.1 hname

theorem validateAgainstShape_sequence {name : QName} {attrs : List AttrShape}
    {slots : List (ChildShapeOf σ)} {wildcardNamespaces : List Str} {element : Element} :
    validateAgainstShape deref ⟨name, attrs, .sequence slots, wildcardNamespaces⟩ element =
        .ok () ↔
      Conforms deref name attrs slots wildcardNamespaces element := by
  rw [validateAgainstShape_eq_ok_iff]
  constructor
  · rintro ⟨hname, hattrs, hwalk⟩
    obtain ⟨hall, -, horder, hcounts⟩ := walkSequence_eq_ok_iff.mp hwalk
    exact ⟨hname, hattrs,
      fun child hchild => hall child (ElementOf.mem_childElements.mp hchild), horder,
      checkCounts_tally.mp hcounts⟩
  · intro h
    refine ⟨h.name, h.attrs, walkSequence_eq_ok_iff.mpr ?_⟩
    refine ⟨fun child hchild => h.children child (ElementOf.mem_childElements.mpr hchild), ?_,
      h.order, checkCounts_tally.mpr h.counts⟩
    intro _ _ idx _
    apply Nat.zero_le

theorem validateAgainstShape_choice {name : QName} {attrs : List AttrShape}
    {slots : List (ChildShapeOf σ)} {wildcardNamespaces : List Str} {element : Element} :
    validateAgainstShape deref ⟨name, attrs, .choice slots, wildcardNamespaces⟩ element =
        .ok () ↔
      Chooses deref name attrs slots wildcardNamespaces element := by
  rw [validateAgainstShape_eq_ok_iff]
  constructor
  · rintro ⟨hname, hattrs, hwalk⟩
    obtain ⟨hall, hsome⟩ := walkChoice_eq_ok_iff.mp hwalk
    exact ⟨hname, hattrs,
      fun child hchild => hall child (ElementOf.mem_childElements.mp hchild), fun hne =>
        (hsome hne).resolve_left Bool.false_ne_true⟩
  · intro h
    refine ⟨h.name, h.attrs, walkChoice_eq_ok_iff.mpr ?_⟩
    exact ⟨fun child hchild => h.children child (ElementOf.mem_childElements.mpr hchild),
      fun hne => .inr (h.some hne)⟩

theorem validateAgainstShape_any {name : QName} {attrs : List AttrShape}
    {wildcardNamespaces : List Str} {element : Element} :
    validateAgainstShape deref ⟨name, attrs, .any, wildcardNamespaces⟩ element = .ok () ↔
      element.qname = name ∧ ∀ a ∈ attrs, lacks element a = false := by
  rw [validateAgainstShape_eq_ok_iff]
  simp

/-- An unqualified list of attributes asks for the required ones. -/
theorem lacks_unqualifiedAttrs {element : Element} {requiredAttrs optionalAttrs : List Str} :
    (∀ a ∈ unqualifiedAttrs requiredAttrs optionalAttrs, lacks element a = false) ↔
      ∀ loc ∈ requiredAttrs, (element.attr none loc).isSome = true := by
  simp [unqualifiedAttrs, or_imp, forall_and, lacks_eq_false_iff]

theorem validateShape_sequence {name : QName} {requiredAttrs optionalAttrs : List Str}
    {slots : List ChildShape} {wildcardNamespaces : List Str} {element : Element} :
    validateShape (shapeOf name requiredAttrs optionalAttrs (.sequence slots) wildcardNamespaces)
        element = .ok () ↔
      Conforms ElementShape.deref name (unqualifiedAttrs requiredAttrs optionalAttrs) slots
        wildcardNamespaces element :=
  validateAgainstShape_sequence

/-- A free shape looks at the name only. -/
theorem validateShape_freeShape {qname : QName} {optionalAttrs : List Str} {element : Element}
    (h : element.qname = qname) :
    validateShape (freeShape qname optionalAttrs) element = .ok () :=
  validateAgainstShape_any.mpr ⟨h, lacks_unqualifiedAttrs.mpr (by simp)⟩

end Saml.Schema
