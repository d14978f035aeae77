import Saml.Xml.Index
import Saml.Dsig.Reference

/-!
# The element without its signature

Excluding a handle of a document while an element is copied removes the one
node at the position of that handle, and nothing when the position is not below
the element.
-/

namespace Saml.Xml.ElementOf

/-- An element without the node that a path leads to. -/
def without (e : Element) : ElementPath → Element
  | [] => e
  | [i] => { e with children := e.children.eraseIdx i }
  | i :: j :: rest =>
      match e.children[i]? with
      | some (.element child) =>
          { e with children := e.children.set i (.element (without child (j :: rest))) }
      | _ => e

end Saml.Xml.ElementOf

namespace Saml.Dsig

open Xml

variable {excluded : ElementId}

theorem cloneExcludingId_eq (excluded : ElementId) (e : Element) :
    cloneExcludingId excluded e = { e with children := cloneChildren excluded e.children } := by
  rcases e with ⟨qname, sourcePrefix, declared, attributes, children, id⟩
  rw [cloneExcludingId]

theorem cloneNode_excluded {e : Element} (h : e.id = excluded) :
    cloneNode excluded (.element e) = [] := by
  rcases e with ⟨qname, sourcePrefix, declared, attributes, children, id⟩
  rw [cloneNode, if_pos h]

theorem cloneNode_other {e : Element} (h : e.id ≠ excluded) :
    cloneNode excluded (.element e) = [.element (cloneExcludingId excluded e)] := by
  rcases e with ⟨qname, sourcePrefix, declared, attributes, children, id⟩
  rw [cloneNode, if_neg h]

theorem cloneChildren_append (front back : List Node) :
    cloneChildren excluded (front ++ back) =
      cloneChildren excluded front ++ cloneChildren excluded back := by
  induction front with
  | nil => rw [cloneChildren, List.nil_append, List.nil_append]
  | cons child rest ih =>
    rw [List.cons_append, cloneChildren, cloneChildren, ih, List.append_assoc]

/-- The excluded handle is not that of an element nor of one below it. -/
def Absent (excluded : ElementId) (e : Element) : Prop :=
  ∀ path d, e.walk path = some d → d.id ≠ excluded

/-- A copy of an element that has nothing to exclude below it is the element. -/
theorem clone_absent :
    (∀ e : Element, (∀ child ∈ e.childElements, Absent excluded child) →
      cloneExcludingId excluded e = e) ∧
    ∀ nodes : List Node, (∀ child, Node.element child ∈ nodes → Absent excluded child) →
      cloneChildren excluded nodes = nodes := by
  apply Element.induct
  case mk =>
    intro e ih h
    rw [cloneExcludingId_eq,
      ih fun child hchild => h child (ElementOf.mem_childElements.mpr hchild)]
  case nil =>
    intro _
    rw [cloneChildren]
  case element =>
    intro e rest ihe ihrest h
    have hself := h e List.mem_cons_self
    have hbelow : ∀ child ∈ e.childElements, Absent excluded child := by
      intro child hchild path d hd
      obtain ⟨i, hi⟩ := List.mem_iff_getElem?.mp (ElementOf.mem_childElements.mp hchild)
      apply hself (i :: path) d
      rw [ElementOf.walk, hi]
      exact hd
    rw [cloneChildren, cloneNode_other (hself [] e rfl), ihe hbelow,
      ihrest fun child hchild => h child (List.mem_cons_of_mem _ hchild)]
    rfl
  case text =>
    intro t rest ih h
    rw [cloneChildren, cloneNode, ih fun child hchild => h child (List.mem_cons_of_mem _ hchild)]
    rfl
  case comment =>
    intro c rest ih h
    rw [cloneChildren, cloneNode, ih fun child hchild => h child (List.mem_cons_of_mem _ hchild)]
    rfl

/-- Copying around the one child at a position. -/
theorem cloneChildren_at {children : List Node} {i : Nat} {child : Element}
    (hi : children[i]? = some (.element child))
    (others : ∀ j d, j ≠ i → children[j]? = some (.element d) → Absent excluded d) :
    cloneChildren excluded children =
      children.take i ++ (cloneNode excluded (.element child) ++ children.drop (i + 1)) := by
  obtain ⟨hlt, hget⟩ := List.getElem?_eq_some_iff.mp hi
  have hsplit : children = children.take i ++ .element child :: children.drop (i + 1) := by
    rw [← hget, ← List.drop_eq_getElem_cons hlt, List.take_append_drop]
  have hfront : cloneChildren excluded (children.take i) = children.take i := by
    apply clone_absent.2
    intro d hd
    obtain ⟨j, hj⟩ := List.mem_iff_getElem?.mp hd
    rw [List.getElem?_take] at hj
    split at hj
    next hji => exact others j d (by omega) hj
    next => cases hj
  have hback : cloneChildren excluded (children.drop (i + 1)) = children.drop (i + 1) := by
    apply clone_absent.2
    intro d hd
    obtain ⟨j, hj⟩ := List.mem_iff_getElem?.mp hd
    rw [List.getElem?_drop] at hj
    exact others (i + 1 + j) d (by omega) hj
  conv_lhs => rw [hsplit]
  rw [cloneChildren_append, cloneChildren, hfront, hback]

/-- Excluding the handle of one element below another removes it and nothing else. -/
theorem clone_eq_without {e d : Element} {path : ElementPath} (hne : path ≠ [])
    (hwalk : e.walk path = some d) (hid : d.id = excluded)
    (hunique : ∀ other f, other ≠ [] → other ≠ path → e.walk other = some f → f.id ≠ excluded) :
    cloneExcludingId excluded e = e.without path := by
  induction path generalizing e with
  | nil => exact absurd rfl hne
  | cons i rest ih =>
    rw [ElementOf.walk] at hwalk
    split at hwalk
    next child hi =>
      have hchildren := @cloneChildren_at excluded e.children i child hi (by
        intro j f hj hf path g hg
        refine hunique (j :: path) g (List.cons_ne_nil _ _) ?_ ?_
        · intro heq
          exact hj (List.cons.inj heq).1
        · rw [ElementOf.walk, hf]
          exact hg)
      rw [cloneExcludingId_eq, hchildren]
      cases rest with
      | nil =>
        obtain rfl := Option.some.inj hwalk
        rw [cloneNode_excluded hid, ElementOf.without, List.nil_append,
          ← List.eraseIdx_eq_take_drop_succ]
      | cons j rest =>
        have hchild : child.id ≠ excluded := by
          refine hunique [i] child (List.cons_ne_nil _ _) ?_ ?_
          · intro heq
            exact List.cons_ne_nil _ _ (List.cons.inj heq).2.symm
          · rw [ElementOf.walk, hi]
            rfl
        have hbelow := @ih child (List.cons_ne_nil _ _) hwalk (by
          intro other f hother hdiffer hf
          refine hunique (i :: other) f (List.cons_ne_nil _ _) ?_ ?_
          · intro heq
            exact hdiffer (List.cons.inj heq).2
          · rw [ElementOf.walk, hi]
            exact hf)
        rw [cloneNode_other hchild, hbelow, ElementOf.without, hi]
        dsimp only
        rw [List.set_eq_take_append_cons_drop, if_pos (List.getElem?_eq_some_iff.mp hi).1]
        rfl
    next => cases hwalk

/-- An element without the node at a position of the document; one that is not
below the element is not in it. -/
def withoutAt (e : Element) (path position : ElementPath) : Element :=
  if path <+: position then e.without (position.drop path.length) else e

/-- In a document the copy is the element without the position of the excluded
handle. -/
theorem clone_eq_withoutAt {doc : Document} (indexed : doc.WellIndexed)
    {path position : ElementPath} {e d : Element} (he : doc.root.walk path = some e)
    (hd : doc.root.walk position = some d) :
    cloneExcludingId d.id e = withoutAt e path position := by
  have below : ∀ other f, e.walk other = some f → f.id = d.id → path ++ other = position := by
    intro other f hf hid
    apply indexed.path_unique _ hd hid
    rw [ElementOf.walk_append, he]
    exact hf
  have absent (hnone : ∀ other, other ≠ [] → path ++ other ≠ position) :
      cloneExcludingId d.id e = e := by
    apply clone_absent.1
    intro child hchild other f hf hid
    obtain ⟨i, hi⟩ := List.mem_iff_getElem?.mp (ElementOf.mem_childElements.mp hchild)
    apply hnone (i :: other) (List.cons_ne_nil _ _)
    apply below (i :: other) f _ hid
    rw [ElementOf.walk, hi]
    exact hf
  unfold withoutAt
  split
  next hpre =>
    obtain ⟨rest, rfl⟩ := hpre
    rw [List.drop_left]
    cases rest with
    | nil =>
      rw [ElementOf.without]
      apply absent
      intro other hother heq
      exact hother (List.append_cancel_left heq)
    | cons i rest =>
      have hrest : e.walk (i :: rest) = some d := by
        rw [ElementOf.walk_append, he] at hd
        exact hd
      apply clone_eq_without (List.cons_ne_nil _ _) hrest rfl
      intro other f _ hdiffer hf hid
      exact hdiffer (List.append_cancel_left (below other f hf hid))
  next hpre =>
    apply absent
    rintro other - rfl
    exact hpre (List.prefix_append _ _)

end Saml.Dsig
