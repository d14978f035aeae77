import Saml.Xml.Index
import Saml.Xml.Unnumbered
import Mathlib.Data.List.InsertIdx

/-!
# Built trees

What the element builders put together: every namespace in use is declared
around its use, from one table of prefixes. Such a tree can be numbered and
written, whatever its texts and values are.
-/

namespace Saml.Xml

open Library

/-! ## Sizes -/

mutual

/-- The number of nodes of an element, itself included. -/
def size : Element → Nat
  | ⟨_, _, _, _, children, _⟩ => sizeChildren children + 1

/-- The number of nodes of a node. -/
def sizeNode : Node → Nat
  | .element e => size e
  | .text _ => 1
  | .comment _ => 1

/-- The number of nodes in a child list. -/
def sizeChildren : List Node → Nat
  | [] => 0
  | child :: rest => sizeNode child + sizeChildren rest

end

theorem size_eq (e : Element) : size e = sizeChildren e.children + 1 := by
  rcases e with ⟨qname, sourcePrefix, declared, attributes, children, id⟩
  rw [size]

@[simp] theorem sizeChildren_nil : sizeChildren [] = 0 := by
  rw [sizeChildren]

@[simp] theorem sizeChildren_cons (child : Node) (rest : List Node) :
    sizeChildren (child :: rest) = sizeNode child + sizeChildren rest := by
  rw [sizeChildren]

@[simp] theorem sizeNode_element (e : Element) : sizeNode (.element e) = size e := by
  rw [sizeNode]

@[simp] theorem sizeNode_text (t : Str) : sizeNode (.text t) = 1 := by
  rw [sizeNode]

@[simp] theorem sizeChildren_append (front back : List Node) :
    sizeChildren (front ++ back) = sizeChildren front + sizeChildren back := by
  induction front with
  | nil => simp
  | cons child rest ih =>
      rw [List.cons_append, sizeChildren_cons, sizeChildren_cons, ih, Nat.add_assoc]

theorem sizeChildren_elements (children : List Element) :
    sizeChildren (children.map .element) = (children.map size).sum := by
  induction children with
  | nil => simp
  | cons child rest ih => simp [ih]

theorem one_le_sizeNode (node : Node) : 1 ≤ sizeNode node := by
  cases node with
  | element e => rw [sizeNode_element, size_eq]; exact Nat.le_add_left 1 _
  | text t => rw [sizeNode]
  | comment c => rw [sizeNode]

@[simp] theorem size_build (qname : QName) : size (ElementOf.build qname) = 1 := by
  simp [size_eq, ElementOf.build]

@[simp] theorem size_withAttribute (e : Element) (name : QName) (value : Str) :
    size (e.withAttribute name value) = size e := by
  rw [size_eq, size_eq]
  rfl

@[simp] theorem size_withNamespace (e : Element) (pfx : Option Str) (uri : Str) :
    size (e.withNamespace pfx uri) = size e := by
  rw [size_eq, size_eq]
  rfl

@[simp] theorem size_withChild (e child : Element) :
    size (e.withChild (.element child)) = size e + size child := by
  have h : size (e.withChild (.element child)) =
      sizeChildren (e.children ++ [.element child]) + 1 := size_eq _
  rw [h, size_eq e, sizeChildren_append, sizeChildren_cons, sizeChildren_nil, sizeNode_element]
  omega

@[simp] theorem size_withText (e : Element) (t : Str) : size (e.withText t) = size e + 1 := by
  have h : size (e.withText t) = sizeChildren (e.children ++ [.text t]) + 1 := size_eq _
  rw [h, size_eq e, sizeChildren_append, sizeChildren_cons, sizeChildren_nil, sizeNode_text]

theorem sizeChildren_insertIdx (nodes : List Node) (index : Nat) (node : Node) :
    sizeChildren (nodes.insertIdx index node) ≤ sizeChildren nodes + sizeNode node := by
  induction nodes generalizing index with
  | nil => cases index <;> simp
  | cons child rest ih =>
      cases index with
      | zero =>
          rw [List.insertIdx_zero, sizeChildren_cons]
          omega
      | succ index =>
          rw [List.insertIdx_succ_cons, sizeChildren_cons, sizeChildren_cons]
          have := ih index
          omega

theorem size_insertChild (e child : Element) (index : Nat) :
    size (e.insertChild index (.element child)) ≤ size e + size child := by
  have hchildren := sizeChildren_insertIdx e.children index (.element child)
  rw [sizeNode_element] at hchildren
  have h : size (e.insertChild index (.element child)) =
      sizeChildren (e.children.insertIdx index (.element child)) + 1 := size_eq _
  rw [h, size_eq e]
  omega

/-- Numbering keeps the number of nodes. -/
theorem size_unnumbered :
    (∀ e : Element, size (unnumbered e) = size e) ∧
      ∀ nodes : List Node, sizeChildren (unnumberedChildren nodes) = sizeChildren nodes := by
  apply Element.induct
  case mk =>
    rintro ⟨qname, sourcePrefix, declared, attributes, children, id⟩ ih
    rw [unnumbered, size, size, ih]
  case nil => rfl
  case element =>
    intro e rest he hrest
    rw [unnumberedChildren, unnumberedNode, sizeChildren, sizeChildren, sizeNode, sizeNode, he,
      hrest]
  case text =>
    intro t rest hrest
    rw [unnumberedChildren, unnumberedNode, sizeChildren, sizeChildren, hrest]
  case comment =>
    intro c rest hrest
    rw [unnumberedChildren, unnumberedNode, sizeChildren, sizeChildren, hrest]

/-! ## Numbering -/

/-- The `ID` values in a list of attributes. -/
def idValues (attributes : List Attribute) : List Str :=
  (attributes.filter isIdAttr).map Attribute.value

mutual

/-- The `ID` values of an element and its descendants, in document order. -/
def idsOf : Element → List Str
  | ⟨_, _, _, attributes, children, _⟩ => idValues attributes ++ idsOfChildren children

/-- The `ID` values below one node. -/
def idsOfNode : Node → List Str
  | .element e => idsOf e
  | .text _ => []
  | .comment _ => []

/-- The `ID` values below a child list. -/
def idsOfChildren : List Node → List Str
  | [] => []
  | child :: rest => idsOfNode child ++ idsOfChildren rest

end

theorem idsOf_eq (e : Element) : idsOf e = idValues e.attributes ++ idsOfChildren e.children := by
  rcases e with ⟨qname, sourcePrefix, declared, attributes, children, id⟩
  rw [idsOf]

/-- Numbering keeps the `ID` values. -/
theorem idsOf_unnumbered :
    (∀ e : Element, idsOf (unnumbered e) = idsOf e) ∧
      ∀ nodes : List Node, idsOfChildren (unnumberedChildren nodes) = idsOfChildren nodes := by
  apply Element.induct
  case mk =>
    rintro ⟨qname, sourcePrefix, declared, attributes, children, id⟩ ih
    rw [unnumbered, idsOf, idsOf, ih]
  case nil => rfl
  case element =>
    intro e rest he hrest
    rw [unnumberedChildren, unnumberedNode, idsOfChildren, idsOfChildren, idsOfNode, idsOfNode, he,
      hrest]
  case text =>
    intro t rest hrest
    rw [unnumberedChildren, unnumberedNode, idsOfChildren, idsOfChildren, hrest]
  case comment =>
    intro c rest hrest
    rw [unnumberedChildren, unnumberedNode, idsOfChildren, idsOfChildren, hrest]

@[simp] theorem idsOfChildren_append (front back : List Node) :
    idsOfChildren (front ++ back) = idsOfChildren front ++ idsOfChildren back := by
  induction front with
  | nil => simp [idsOfChildren]
  | cons child rest ih =>
      rw [List.cons_append, idsOfChildren, idsOfChildren, ih, List.append_assoc]

theorem idsOfChildren_elements (children : List Element) :
    idsOfChildren (children.map .element) = children.flatMap idsOf := by
  induction children with
  | nil => simp [idsOfChildren]
  | cons child rest ih => simp [idsOfChildren, idsOfNode, ih]

@[simp] theorem idsOf_build (qname : QName) : idsOf (ElementOf.build qname) = [] := by
  simp [idsOf_eq, ElementOf.build, idsOfChildren, idValues]

/-- Only an `ID` attribute registers a value. -/
theorem idsOf_withAttribute (e : Element) {loc : Str} (hloc : loc ≠ "ID") (value : Str) :
    idsOf (e.withAttribute ⟨none, loc⟩ value) = idsOf e := by
  have hid : isIdAttr ⟨⟨none, loc⟩, none, value⟩ = false := by
    simpa [isIdAttr] using hloc
  rw [idsOf_eq, idsOf_eq]
  simp [ElementOf.withAttribute, idValues, hid]

@[simp] theorem idsOf_withNamespace (e : Element) (pfx : Option Str) (uri : Str) :
    idsOf (e.withNamespace pfx uri) = idsOf e := by
  rw [idsOf_eq, idsOf_eq]
  rfl

@[simp] theorem idsOf_withChild (e child : Element) :
    idsOf (e.withChild (.element child)) = idsOf e ++ idsOf child := by
  have h : idsOf (e.withChild (.element child)) =
      idValues e.attributes ++ idsOfChildren (e.children ++ [.element child]) := idsOf_eq _
  rw [h, idsOf_eq e, idsOfChildren_append, List.append_assoc]
  simp [idsOfChildren, idsOfNode]

@[simp] theorem idsOf_withText (e : Element) (t : Str) : idsOf (e.withText t) = idsOf e := by
  have h : idsOf (e.withText t) =
      idValues e.attributes ++ idsOfChildren (e.children ++ [.text t]) := idsOf_eq _
  rw [h, idsOf_eq e, idsOfChildren_append]
  simp [idsOfChildren, idsOfNode]

/-- A child without `ID` values may stand anywhere. -/
theorem idsOf_insertChild (e : Element) {child : Element} (hchild : idsOf child = [])
    (index : Nat) : idsOf (e.insertChild index (.element child)) = idsOf e := by
  have hnodes : ∀ (nodes : List Node) (index : Nat),
      idsOfChildren (nodes.insertIdx index (.element child)) = idsOfChildren nodes := by
    intro nodes
    induction nodes with
    | nil =>
        intro index
        cases index with
        | zero => simp [idsOfChildren, idsOfNode, hchild]
        | succ index => simp
    | cons node rest ih =>
        intro index
        cases index with
        | zero => simp [idsOfChildren, idsOfNode, hchild]
        | succ index => rw [List.insertIdx_succ_cons, idsOfChildren, idsOfChildren, ih]
  have h : idsOf (e.insertChild index (.element child)) =
      idValues e.attributes ++ idsOfChildren (e.children.insertIdx index (.element child)) :=
    idsOf_eq _
  rw [h, idsOf_eq e, hnodes]

/-- Distinct new `ID` values can be registered. -/
theorem exists_registerIds {id : ElementId} {attributes : List Attribute}
    {index : List (Str × ElementId)}
    (nodup : (index.map Prod.fst ++ idValues attributes).Nodup) :
    ∃ next, registerIds id attributes index = .ok next ∧
      next.map Prod.fst = index.map Prod.fst ++ idValues attributes := by
  induction attributes generalizing index with
  | nil => exact ⟨index, by simp [registerIds], by simp [idValues]⟩
  | cons a rest ih =>
      rw [registerIds]
      by_cases hid : isIdAttr a = true
      · have hvalues : idValues (a :: rest) = a.value :: idValues rest := by
          simp [idValues, hid]
        rw [hvalues] at nodup ⊢
        have hnew : ¬ (index.lookup a.value).isSome = true := by
          rw [Association.lookup_isSome_iff]
          intro hmem
          exact (List.disjoint_of_nodup_append nodup) hmem List.mem_cons_self
        have hnodup : ((index ++ [(a.value, id)]).map Prod.fst ++ idValues rest).Nodup := by
          simpa using nodup
        obtain ⟨next, hnext, hkeys⟩ := ih hnodup
        refine ⟨next, ?_, ?_⟩
        · rw [if_pos hid, if_neg hnew]
          exact hnext
        · simpa using hkeys
      · have hvalues : idValues (a :: rest) = idValues rest := by
          simp [idValues, hid]
        rw [hvalues] at nodup ⊢
        rw [if_neg hid]
        exact ih nodup

/-- A tree of few nodes with new and distinct `ID` values can be numbered. -/
theorem exists_renumber :
    (∀ (e : Element) (path : ElementPath) (st : Numbering),
      st.paths.length + size e ≤ U32_BOUND → (st.idIndex.map Prod.fst ++ idsOf e).Nodup →
        ∃ numbered next, renumber path st e = .ok (numbered, next) ∧
          next.paths.length ≤ st.paths.length + size e ∧
          next.idIndex.map Prod.fst = st.idIndex.map Prod.fst ++ idsOf e) ∧
    ∀ (nodes : List Node) (path : ElementPath) (index : Nat) (st : Numbering),
      index + sizeChildren nodes ≤ U32_BOUND →
      st.paths.length + sizeChildren nodes ≤ U32_BOUND →
      (st.idIndex.map Prod.fst ++ idsOfChildren nodes).Nodup →
        ∃ numbered next, renumberChildren path index st nodes = .ok (numbered, next) ∧
          next.paths.length ≤ st.paths.length + sizeChildren nodes ∧
          next.idIndex.map Prod.fst = st.idIndex.map Prod.fst ++ idsOfChildren nodes := by
  apply Element.induct
  case mk =>
    rintro ⟨qname, sourcePrefix, declared, attributes, children, id⟩ ih path st hsize hnodup
    rw [size] at hsize
    rw [idsOf, ← List.append_assoc] at hnodup
    obtain ⟨idIndex, hids, hkeys⟩ :=
      @exists_registerIds st.paths.length _ _ (List.Nodup.of_append_left hnodup)
    rw [← hkeys] at hnodup
    have hlength : (st.paths ++ [path]).length = st.paths.length + 1 := List.length_append
    obtain ⟨numbered, next, hnumbered, hpaths, hindex⟩ :=
      ih path 0 ⟨st.paths ++ [path], idIndex⟩ (by dsimp only; omega) (by dsimp only; omega) hnodup
    refine ⟨⟨qname, sourcePrefix, declared, attributes, numbered, st.paths.length⟩, next, ?_, ?_,
      ?_⟩
    · rw [renumber, if_pos (by omega)]
      exact bind_eq_ok_iff.mpr ⟨idIndex, hids, bind_eq_ok_iff.mpr ⟨_, hnumbered, rfl⟩⟩
    · rw [size]
      dsimp only at hpaths
      omega
    · rw [idsOf, hindex, hkeys, List.append_assoc]
  case nil =>
    intro path index st _ _ _
    exact ⟨[], st, by rw [renumberChildren], by simp, by simp [idsOfChildren]⟩
  case element =>
    intro e rest he hrest path index st hindex hsize hnodup
    rw [sizeChildren_cons, sizeNode_element] at hindex hsize
    rw [idsOfChildren, idsOfNode, ← List.append_assoc] at hnodup
    have hone : 1 ≤ size e := by rw [size_eq]; omega
    obtain ⟨child, mid, hchild, hmid, hkeys⟩ :=
      he (path ++ [index]) st (by omega) (List.Nodup.of_append_left hnodup)
    rw [← hkeys] at hnodup
    obtain ⟨kids, next, hkids, hnext, hfinal⟩ :=
      hrest path (index + 1) mid (by omega) (by omega) hnodup
    refine ⟨.element child :: kids, next, ?_, ?_, ?_⟩
    · rw [renumberChildren, renumberNode, if_pos (by omega)]
      exact bind_eq_ok_iff.mpr ⟨_, bind_eq_ok_iff.mpr ⟨_, hchild, rfl⟩,
        bind_eq_ok_iff.mpr ⟨_, hkids, rfl⟩⟩
    · rw [sizeChildren_cons, sizeNode_element]
      omega
    · rw [idsOfChildren, idsOfNode, hfinal, hkeys, List.append_assoc]
  case text =>
    intro t rest hrest path index st hindex hsize hnodup
    rw [sizeChildren_cons, sizeNode_text] at hindex hsize
    rw [idsOfChildren, idsOfNode, List.nil_append] at hnodup
    obtain ⟨kids, next, hkids, hnext, hfinal⟩ :=
      hrest path (index + 1) st (by omega) (by omega) hnodup
    refine ⟨.text t :: kids, next, ?_, ?_, ?_⟩
    · rw [renumberChildren, renumberNode]
      exact bind_eq_ok_iff.mpr ⟨_, rfl, bind_eq_ok_iff.mpr ⟨_, hkids, rfl⟩⟩
    · rw [sizeChildren_cons, sizeNode_text]
      omega
    · rw [idsOfChildren, idsOfNode, hfinal, List.nil_append]
  case comment =>
    intro c rest hrest path index st hindex hsize hnodup
    rw [sizeChildren_cons, sizeNode] at hindex hsize
    rw [idsOfChildren, idsOfNode, List.nil_append] at hnodup
    obtain ⟨kids, next, hkids, hnext, hfinal⟩ :=
      hrest path (index + 1) st (by omega) (by omega) hnodup
    refine ⟨.comment c :: kids, next, ?_, ?_, ?_⟩
    · rw [renumberChildren, renumberNode]
      exact bind_eq_ok_iff.mpr ⟨_, rfl, bind_eq_ok_iff.mpr ⟨_, hkids, rfl⟩⟩
    · rw [sizeChildren_cons, sizeNode]
      omega
    · rw [idsOfChildren, idsOfNode, hfinal, List.nil_append]

/-- A document can be made of a tree of few nodes with distinct `ID` values. -/
theorem Document.exists_new {root : Element} (hsize : size root ≤ U32_BOUND)
    (hnodup : (idsOf root).Nodup) : ∃ doc, Document.new root = .ok doc := by
  obtain ⟨numbered, next, h, _, _⟩ := exists_renumber.1 root [] ⟨[], []⟩ (by simpa using hsize)
    (by simpa using hnodup)
  exact ⟨_, bind_eq_ok_iff.mpr ⟨_, h, rfl⟩⟩

/-- A document has the nodes and the `ID` values of the tree it was built from. -/
theorem Document.new_size {root : Element} {doc : Document} (h : Document.new root = .ok doc) :
    size doc.root = size root ∧ idsOf doc.root = idsOf root := by
  have hroot := Document.new_unnumbered h
  constructor
  · rw [← size_unnumbered.1, hroot, size_unnumbered.1]
  · rw [← idsOf_unnumbered.1, hroot, idsOf_unnumbered.1]

/-! ## Declared namespaces -/

/-- Below the bindings of a scope, every element name of a tree is in a declared
namespace and every attribute name in none; what the tree declares itself is
taken from one table, and it holds no comment. -/
inductive Declared (table : List NsDecl) : List NsDecl → Element → Prop
  | mk {scope : List NsDecl} {e : Element}
      (declared : ∀ d ∈ e.namespacesDeclaredHere, d ∈ table)
      (name : ∃ d ∈ scope ++ e.namespacesDeclaredHere, e.qname.namespaceUri = some d.2)
      (attributes : ∀ a ∈ e.attributes, a.qname.namespaceUri = none)
      (comments : ∀ c, Node.comment c ∉ e.children)
      (below : ∀ child, Node.element child ∈ e.children →
        Declared table (scope ++ e.namespacesDeclaredHere) child) :
      Declared table scope e

namespace Declared

variable {table scope : List NsDecl} {e child : Element}

/-- More may be in scope. -/
theorem mono (h : Declared table scope e) {wider : List NsDecl} (hscope : scope ⊆ wider) :
    Declared table wider e := by
  induction h generalizing wider with
  | @mk scope e declared name attributes comments below ih =>
      obtain ⟨d, hd, hname⟩ := name
      have hwider : scope ++ e.namespacesDeclaredHere ⊆ wider ++ e.namespacesDeclaredHere :=
        List.append_subset.mpr ⟨List.subset_append_of_subset_left _ hscope,
          List.subset_append_right _ _⟩
      exact mk declared ⟨d, hwider hd, hname⟩ attributes comments
        fun child hchild => ih child hchild hwider

theorem build {d : NsDecl} (hd : d ∈ scope) (loc : Str) :
    Declared table scope (ElementOf.build ⟨some d.2, loc⟩) :=
  mk (by simp [ElementOf.build]) ⟨d, by simp [ElementOf.build, hd], rfl⟩
    (by simp [ElementOf.build]) (by simp [ElementOf.build]) (by simp [ElementOf.build])

theorem withAttribute (h : Declared table scope e) (loc value : Str) :
    Declared table scope (e.withAttribute ⟨none, loc⟩ value) := by
  cases h with
  | mk declared name attributes comments below =>
      refine mk declared name ?_ comments below
      intro a ha
      rcases List.mem_append.mp ha with ha | ha
      · exact attributes a ha
      · obtain rfl := List.mem_singleton.mp ha
        rfl

/-- A declaration of the table brings its binding into scope. -/
theorem declare {d : NsDecl} (h : Declared table (scope ++ [d]) e) (hd : d ∈ table)
    {declarations : List NsDecl}
    (hmem : ∀ x, x ∈ declarations ↔ x = d ∨ x ∈ e.namespacesDeclaredHere) :
    Declared table scope { e with namespacesDeclaredHere := declarations } := by
  have hscope : scope ++ [d] ++ e.namespacesDeclaredHere ⊆ scope ++ declarations := by
    intro x hx
    simp only [List.mem_append, List.mem_singleton, hmem] at hx ⊢
    tauto
  cases h with
  | mk declared name attributes comments below =>
      obtain ⟨binding, hbinding, hname⟩ := name
      refine mk ?_ ⟨binding, hscope hbinding, hname⟩ attributes comments ?_
      · intro x hx
        rcases (hmem x).mp hx with rfl | hx
        · exact hd
        · exact declared x hx
      · intro child hchild
        exact (below child hchild).mono hscope

theorem withNamespace {d : NsDecl} (h : Declared table (scope ++ [d]) e) (hd : d ∈ table) :
    Declared table scope (e.withNamespace d.1 d.2) := by
  apply h.declare hd
  intro x
  rw [List.mem_append, List.mem_singleton, or_comm]

theorem withText (h : Declared table scope e) (t : Str) :
    Declared table scope (e.withText t) := by
  cases h with
  | mk declared name attributes comments below =>
      refine mk declared name attributes ?_ ?_
      · intro c hc
        rcases List.mem_append.mp hc with hc | hc
        · exact comments c hc
        · cases List.mem_singleton.mp hc
      · intro child hchild
        rcases List.mem_append.mp hchild with hchild | hchild
        · exact below child hchild
        · cases List.mem_singleton.mp hchild

/-- Elements that are declared where they stand may be put below an element. -/
theorem withNodes (h : Declared table scope e) {nodes : List Node}
    (hnodes : ∀ node ∈ nodes, node ∈ e.children ∨
      ∃ child, node = .element child ∧ Declared table scope child) :
    Declared table scope { e with children := nodes } := by
  cases h with
  | mk declared name attributes comments below =>
      refine mk declared name attributes ?_ ?_
      · intro c hc
        rcases hnodes _ hc with hc | ⟨child, heq, _⟩
        · exact comments c hc
        · cases heq
      · intro d hd
        rcases hnodes _ hd with hd | ⟨child, heq, hchild⟩
        · exact below d hd
        · rw [Node.element.inj heq]
          exact hchild.mono (List.subset_append_left _ _)

theorem withChild (h : Declared table scope e) (hchild : Declared table scope child) :
    Declared table scope (e.withChild (.element child)) := by
  refine withNodes h ?_
  intro node hnode
  rcases List.mem_append.mp hnode with hnode | hnode
  · exact .inl hnode
  · exact .inr ⟨child, List.mem_singleton.mp hnode, hchild⟩

theorem insertChild (h : Declared table scope e) (hchild : Declared table scope child)
    (index : Nat) : Declared table scope (e.insertChild index (.element child)) := by
  refine withNodes h ?_
  intro node hnode
  rcases List.eq_or_mem_of_mem_insertIdx hnode with rfl | hnode
  · exact .inr ⟨child, rfl, hchild⟩
  · exact .inl hnode

end Declared

/-- Declarations do not look at handles. -/
theorem declared_unnumbered {table : List NsDecl} :
    (∀ (e : Element) (scope : List NsDecl),
      Declared table scope (unnumbered e) ↔ Declared table scope e) ∧
    ∀ (nodes : List Node) (scope : List NsDecl), ∀ e : Element, .element e ∈ nodes →
      (Declared table scope (unnumbered e) ↔ Declared table scope e) := by
  apply Element.induct
  case mk =>
    rintro ⟨qname, sourcePrefix, declared, attributes, children, id⟩ ih scope
    have hchildren : unnumberedChildren children = children.map unnumberedNode :=
      unnumberedChildren_eq children
    have hcomments : ∀ c, Node.comment c ∈ children.map unnumberedNode ↔
        Node.comment c ∈ children := by
      intro c
      rw [List.mem_map]
      constructor
      · rintro ⟨node, hnode, heq⟩
        cases node with
        | element e => cases heq
        | text t => cases heq
        | comment d => rwa [← Node.comment.inj heq]
      · intro hc
        exact ⟨_, hc, rfl⟩
    rw [unnumbered, hchildren]
    constructor
    · rintro ⟨hdeclared, hname, hattributes, hnone, hbelow⟩
      refine .mk hdeclared hname hattributes (fun c hc => hnone c ((hcomments c).mpr hc)) ?_
      intro child hchild
      exact (ih _ child hchild).mp (hbelow _ (List.mem_map.mpr ⟨_, hchild, rfl⟩))
    · rintro ⟨hdeclared, hname, hattributes, hnone, hbelow⟩
      refine .mk hdeclared hname hattributes (fun c hc => hnone c ((hcomments c).mp hc)) ?_
      intro child hchild
      obtain ⟨node, hnode, heq⟩ := List.mem_map.mp hchild
      cases node with
      | element e =>
          rw [← Node.element.inj heq]
          exact (ih _ e hnode).mpr (hbelow e hnode)
      | text t => cases heq
      | comment c => cases heq
  case nil =>
    intro scope e he
    cases he
  case element =>
    intro child rest hchild ih scope e he
    rcases List.mem_cons.mp he with heq | he
    · rw [Node.element.inj heq]
      exact hchild scope
    · exact ih scope e he
  case text =>
    intro t rest ih scope e he
    rcases List.mem_cons.mp he with heq | he
    · cases heq
    · exact ih scope e he
  case comment =>
    intro c rest ih scope e he
    rcases List.mem_cons.mp he with heq | he
    · cases heq
    · exact ih scope e he

/-- A document holds a tree as it was built. -/
theorem Declared.new {table scope : List NsDecl} {root : Element} {doc : Document}
    (h : Declared table scope root) (hdoc : Document.new root = .ok doc) :
    Declared table scope doc.root := by
  rw [← declared_unnumbered.1, Document.new_unnumbered hdoc, declared_unnumbered.1]
  exact h

/-! ## Writing -/

theorem exists_emitChildren {nsStack : List NsLayer} {nodes : List Node}
    (elements : ∀ e, Node.element e ∈ nodes → ∃ text, emitElementInner nsStack e = .ok text)
    (comments : ∀ c, Node.comment c ∉ nodes) :
    ∃ text, emitChildren nsStack nodes = .ok text := by
  induction nodes with
  | nil => exact ⟨[], by rw [emitChildren]⟩
  | cons node rest ih =>
      obtain ⟨others, hothers⟩ := ih (fun e he => elements e (List.mem_cons_of_mem _ he))
        (fun c hc => comments c (List.mem_cons_of_mem _ hc))
      have hnode : ∃ text, emitNode nsStack node = .ok text := by
        cases node with
        | element e =>
            rw [emitNode]
            exact elements e List.mem_cons_self
        | text t => exact ⟨_, by rw [emitNode]⟩
        | comment c => exact absurd List.mem_cons_self (comments c)
      obtain ⟨text, htext⟩ := hnode
      rw [emitChildren]
      exact ⟨_, bind_eq_ok_iff.mpr ⟨_, htext, bind_eq_ok_iff.mpr ⟨_, hothers, rfl⟩⟩⟩

/-- A namespace that is declared somewhere around an element has a prefix there. -/
theorem exists_resolvePrefixForEmit {nsStack : List NsLayer} {d : NsDecl}
    (hd : d ∈ nearestFirst nsStack) :
    ∃ pfx, resolvePrefixForEmit (some d.2) nsStack = .ok pfx := by
  simp only [resolvePrefixForEmit]
  split
  · exact ⟨_, rfl⟩
  · cases hfind : (nearestFirst nsStack).find? fun x => x.2 = d.2 with
    | some found => exact ⟨_, rfl⟩
    | none =>
        rw [List.find?_eq_none] at hfind
        exact absurd (by simp) (hfind d hd)

/-- A tree whose namespaces are declared can be written. -/
theorem Declared.exists_emit {table scope : List NsDecl} {e : Element}
    (h : Declared table scope e) {nsStack : List NsLayer} (hscope : scope ⊆ nearestFirst nsStack) :
    ∃ text, emitElementInner nsStack e = .ok text := by
  induction h generalizing nsStack with
  | @mk scope e declared name attributes comments below ih =>
      rcases e with ⟨qname, sourcePrefix, decls, attrs, children, id⟩
      have hwider : scope ++ decls ⊆ nearestFirst (decls :: nsStack) := by
        intro d hd
        rw [nearestFirst, List.flatMap_cons, List.mem_append, List.mem_reverse]
        rcases List.mem_append.mp hd with hd | hd
        · exact .inr (hscope hd)
        · exact .inl hd
      obtain ⟨d, hd, hname⟩ := name
      obtain ⟨pfx, hpfx⟩ := exists_resolvePrefixForEmit (hwider hd)
      rw [← hname] at hpfx
      have hattrs : ∀ a ∈ attrs, ∃ text, emitAttribute (decls :: nsStack) a = .ok text := by
        intro a ha
        rw [emitAttribute, attributes a ha]
        exact ⟨_, rfl⟩
      obtain ⟨texts, htexts⟩ := exists_mapM_ok hattrs
      obtain ⟨body, hbody⟩ := exists_emitChildren
        (fun child hchild => ih child hchild hwider) comments
      rw [emitElementInner]
      refine exists_bind_ok hpfx (exists_bind_ok htexts ?_)
      split
      · exact ⟨_, rfl⟩
      · exact exists_bind_ok hbody ⟨_, rfl⟩

theorem Declared.exists_emitElement {table : List NsDecl} {e : Element}
    (h : Declared table [] e) : ∃ text, emitElement e = .ok text := by
  have hscope : ([] : List NsDecl) ⊆ nearestFirst [] := List.nil_subset _
  exact h.exists_emit hscope

end Saml.Xml
