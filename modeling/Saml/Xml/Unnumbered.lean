import Saml.Xml.Emit

/-!
# Trees without their numbers

Numbering an element changes nothing but the handles in it. What only looks at
names, attributes and content therefore sees the same tree before and after.
-/

namespace Saml.Xml

mutual

/-- An element with every handle in it forgotten. -/
def unnumbered : Element → Element
  | ⟨qname, sourcePrefix, declared, attributes, children, _⟩ =>
      ⟨qname, sourcePrefix, declared, attributes, unnumberedChildren children, 0⟩

/-- A node with every handle in it forgotten. -/
def unnumberedNode : Node → Node
  | .element e => .element (unnumbered e)
  | .text t => .text t
  | .comment c => .comment c

/-- The nodes with every handle in them forgotten. -/
def unnumberedChildren : List Node → List Node
  | [] => []
  | child :: rest => unnumberedNode child :: unnumberedChildren rest

end

theorem unnumberedChildren_eq (nodes : List Node) :
    unnumberedChildren nodes = nodes.map unnumberedNode := by
  induction nodes with
  | nil => rfl
  | cons child rest ih => rw [unnumberedChildren, ih, List.map_cons]

@[simp] theorem unnumbered_qname (e : Element) : (unnumbered e).qname = e.qname := by
  rw [unnumbered]

@[simp] theorem unnumbered_attributes (e : Element) :
    (unnumbered e).attributes = e.attributes := by
  rw [unnumbered]

theorem unnumbered_children (e : Element) :
    (unnumbered e).children = e.children.map unnumberedNode := by
  rw [unnumbered, ← unnumberedChildren_eq]

@[simp] theorem unnumbered_textContent (e : Element) :
    (unnumbered e).textContent = e.textContent := by
  rw [ElementOf.textContent, unnumbered_children, List.map_map]
  congr 2
  funext node
  cases node <;> rfl

theorem unnumbered_childElements (e : Element) :
    (unnumbered e).childElements = e.childElements.map unnumbered := by
  rw [ElementOf.childElements, unnumbered_children, ElementOf.childElements, List.filterMap_map,
    List.map_filterMap]
  congr 1
  funext node
  cases node <;> rfl

@[simp] theorem unnumbered_namespaces (e : Element) :
    (unnumbered e).namespacesDeclaredHere = e.namespacesDeclaredHere := by
  rw [unnumbered]

@[simp] theorem unnumbered_hasName (e : Element) (ns : Option Str) (loc : Str) :
    (unnumbered e).hasName ns loc = e.hasName ns loc := by
  rw [ElementOf.hasName, unnumbered_qname, ElementOf.hasName]

@[simp] theorem unnumbered_attr (e : Element) (ns : Option Str) (loc : Str) :
    (unnumbered e).attr ns loc = e.attr ns loc := by
  rw [ElementOf.attr, unnumbered_attributes, ElementOf.attr]

@[simp] theorem unnumbered_childElement (e : Element) (ns : Option Str) (loc : Str) :
    (unnumbered e).childElement ns loc = (e.childElement ns loc).map unnumbered := by
  rw [ElementOf.childElement, unnumbered_childElements, List.find?_map, ElementOf.childElement]
  congr 2
  funext child
  exact unnumbered_hasName child ns loc

@[simp] theorem unnumbered_allChildElements (e : Element) (ns : Option Str) (loc : Str) :
    (unnumbered e).allChildElements ns loc = (e.allChildElements ns loc).map unnumbered := by
  rw [ElementOf.allChildElements, unnumbered_childElements, List.filter_map,
    ElementOf.allChildElements]
  congr 2
  funext child
  exact unnumbered_hasName child ns loc

theorem unnumbered_append (e : Element) (nodes : List Node) :
    unnumbered { e with children := e.children ++ nodes } =
      { unnumbered e with
        children := (unnumbered e).children ++ nodes.map unnumberedNode } := by
  rcases e with ⟨qname, sourcePrefix, declared, attributes, children, id⟩
  simp [unnumbered, unnumberedChildren_eq]

/-- Two trees that differ in handles only. -/
abbrev Alike (e d : Element) : Prop := unnumbered e = unnumbered d

theorem Alike.qname {e d : Element} (h : Alike e d) : e.qname = d.qname := by
  rw [← unnumbered_qname, h, unnumbered_qname]

theorem Alike.children_length {e d : Element} (h : Alike e d) :
    e.children.length = d.children.length := by
  have hchildren := congrArg (fun e : Element => e.children.length) h
  simpa only [unnumbered_children, List.length_map] using hchildren

/-- The child elements of trees that differ in handles only stand at the same positions. -/
theorem Alike.exists_child {e d child : Element} (h : Alike e d) {i : Nat}
    (hchild : d.children[i]? = some (.element child)) :
    ∃ other, e.children[i]? = some (.element other) ∧ Alike other child := by
  have hnodes := congrArg (fun e : Element => e.children[i]?) h
  simp only [unnumbered_children, List.getElem?_map, hchild, Option.map_some] at hnodes
  obtain ⟨node, hnode, heq⟩ := Option.map_eq_some_iff.mp hnodes
  cases node with
  | element other => exact ⟨other, hnode, Node.element.inj heq⟩
  | text t => cases heq
  | comment c => cases heq

theorem Alike.append {e d : Element} (h : Alike e d) {node other : Node}
    (hnode : unnumberedNode node = unnumberedNode other) :
    Alike { e with children := e.children ++ [node] }
      { d with children := d.children ++ [other] } := by
  rw [Alike, unnumbered_append, unnumbered_append, h, List.map_singleton, List.map_singleton,
    hnode]

/-- Numbering only changes the handles. -/
theorem renumber_unnumbered :
    (∀ (e : Element) (path : ElementPath) (st next : Numbering) (numbered : Element),
      renumber path st e = .ok (numbered, next) → unnumbered numbered = unnumbered e) ∧
    ∀ (nodes : List Node) (path : ElementPath) (index : Nat) (st next : Numbering)
      (numbered : List Node), renumberChildren path index st nodes = .ok (numbered, next) →
        unnumberedChildren numbered = unnumberedChildren nodes := by
  apply Element.induct
  case mk =>
    rintro ⟨qname, sourcePrefix, declared, attributes, children, id⟩ ih path st next numbered h
    rw [renumber] at h
    split at h
    · obtain ⟨idIndex, _, h⟩ := bind_eq_ok_iff.mp h
      obtain ⟨⟨kids, final⟩, hkids, h⟩ := bind_eq_ok_iff.mp h
      obtain ⟨rfl, rfl⟩ := Prod.mk.inj (Except.ok.inj h)
      have hchildren : unnumberedChildren kids = unnumberedChildren children := ih _ _ _ _ _ hkids
      rw [unnumbered, unnumbered, hchildren]
    · cases h
  case nil =>
    intro path index st next numbered h
    rw [renumberChildren] at h
    obtain ⟨rfl, rfl⟩ := Prod.mk.inj (Except.ok.inj h)
    rfl
  case element =>
    intro child rest ihChild ihRest path index st next numbered h
    rw [renumberChildren, renumberNode] at h
    obtain ⟨⟨node, mid⟩, hnode, h⟩ := bind_eq_ok_iff.mp h
    obtain ⟨⟨kids, final⟩, hkids, h⟩ := bind_eq_ok_iff.mp h
    obtain ⟨rfl, rfl⟩ := Prod.mk.inj (Except.ok.inj h)
    split at hnode
    · obtain ⟨⟨e, mid⟩, he, hnode⟩ := bind_eq_ok_iff.mp hnode
      obtain ⟨rfl, rfl⟩ := Prod.mk.inj (Except.ok.inj hnode)
      rw [unnumberedChildren, unnumberedNode, ihChild _ _ _ _ he, ihRest _ _ _ _ _ hkids,
        unnumberedChildren, unnumberedNode]
    · cases hnode
  case text =>
    intro t rest ih path index st next numbered h
    rw [renumberChildren, renumberNode] at h
    obtain ⟨⟨node, mid⟩, hnode, h⟩ := bind_eq_ok_iff.mp h
    obtain ⟨rfl, rfl⟩ := Prod.mk.inj (Except.ok.inj hnode)
    obtain ⟨⟨kids, final⟩, hkids, h⟩ := bind_eq_ok_iff.mp h
    obtain ⟨rfl, rfl⟩ := Prod.mk.inj (Except.ok.inj h)
    rw [unnumberedChildren, ih _ _ _ _ _ hkids, unnumberedChildren]
  case comment =>
    intro c rest ih path index st next numbered h
    rw [renumberChildren, renumberNode] at h
    obtain ⟨⟨node, mid⟩, hnode, h⟩ := bind_eq_ok_iff.mp h
    obtain ⟨rfl, rfl⟩ := Prod.mk.inj (Except.ok.inj hnode)
    obtain ⟨⟨kids, final⟩, hkids, h⟩ := bind_eq_ok_iff.mp h
    obtain ⟨rfl, rfl⟩ := Prod.mk.inj (Except.ok.inj h)
    rw [unnumberedChildren, ih _ _ _ _ _ hkids, unnumberedChildren]

/-- A built document holds the tree it was built from. -/
theorem Document.new_unnumbered {root : Element} {doc : Document}
    (h : Document.new root = .ok doc) : unnumbered doc.root = unnumbered root := by
  obtain ⟨⟨numbered, st⟩, hst, h⟩ := bind_eq_ok_iff.mp h
  obtain rfl := Except.ok.inj h
  exact renumber_unnumbered.1 root [] _ st numbered hst

/-! ## Properties of every element -/

/-- A property of an element and of every element below it. -/
def Everywhere (P : Element → Prop) (e : Element) : Prop :=
  ∀ path d, e.walk path = some d → P d

theorem everywhere_iff {P : Element → Prop} {e : Element} :
    Everywhere P e ↔ P e ∧ ∀ child ∈ e.childElements, Everywhere P child := by
  constructor
  · intro h
    refine ⟨h [] e rfl, ?_⟩
    intro child hchild path d hd
    obtain ⟨index, hlt, hindex⟩ := List.getElem_of_mem (ElementOf.mem_childElements.mp hchild)
    refine h (index :: path) d ?_
    rw [ElementOf.walk, List.getElem?_eq_getElem hlt, hindex]
    exact hd
  · rintro ⟨hself, hbelow⟩ path d hd
    cases path with
    | nil =>
      obtain rfl := Option.some.inj hd
      exact hself
    | cons index rest =>
      rw [ElementOf.walk] at hd
      split at hd
      next child hindex =>
        exact hbelow child (ElementOf.mem_childElements.mpr (List.mem_of_getElem? hindex)) rest d hd
      next => cases hd

/-- What does not look at handles holds everywhere before numbering if it does after. -/
theorem everywhere_unnumbered {P : Element → Prop} (hP : ∀ d, P (unnumbered d) ↔ P d) :
    (∀ e, Everywhere P (unnumbered e) ↔ Everywhere P e) ∧
      ∀ nodes : List Node, ∀ e : Element, .element e ∈ nodes →
        (Everywhere P (unnumbered e) ↔ Everywhere P e) := by
  apply Element.induct
  case mk =>
    intro e ih
    rw [everywhere_iff, everywhere_iff, hP, unnumbered_childElements, List.forall_mem_map]
    refine and_congr_right fun _ => forall₂_congr fun child hchild => ?_
    exact ih child (ElementOf.mem_childElements.mp hchild)
  case nil =>
    intro e he
    cases he
  case element =>
    intro child rest hchild ih e he
    rcases List.mem_cons.mp he with heq | he
    · rw [Node.element.inj heq]
      exact hchild
    · exact ih e he
  case text =>
    intro t rest ih e he
    rcases List.mem_cons.mp he with heq | he
    · cases heq
    · exact ih e he
  case comment =>
    intro c rest ih e he
    rcases List.mem_cons.mp he with heq | he
    · cases heq
    · exact ih e he

theorem everywhere_new {P : Element → Prop} (hP : ∀ d, P (unnumbered d) ↔ P d) {e : Element}
    {doc : Document} (h : Document.new e = .ok doc) : Everywhere P doc.root ↔ Everywhere P e := by
  rw [← (everywhere_unnumbered hP).1 doc.root, Document.new_unnumbered h,
    (everywhere_unnumbered hP).1 e]

end Saml.Xml
