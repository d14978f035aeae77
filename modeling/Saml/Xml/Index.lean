import Saml.Library.Association
import Saml.Xml.Emit

/-!
# Document indices

The handles and `ID` values of a document are recorded in document order. The
parser and the document constructor keep the record exact, so a handle leads
to one element and an `ID` value to one handle.
-/

namespace Saml.Xml

open Library

/-- What the indices of a document record about one element. -/
structure Entry where
  path : ElementPath
  id : ElementId
  attributes : List Attribute

mutual

/-- The entries of an element and its descendants, in document order. -/
def entries (path : ElementPath) : Element → List Entry
  | ⟨_, _, _, attributes, children, id⟩ =>
      ⟨path, id, attributes⟩ :: entriesChildren path 0 children

/-- The entries below one node. -/
def entriesNode (path : ElementPath) : Node → List Entry
  | .element e => entries path e
  | .text _ => []
  | .comment _ => []

/-- The entries below the children from a position on. -/
def entriesChildren (path : ElementPath) (index : Nat) : List Node → List Entry
  | [] => []
  | child :: rest => entriesNode (path ++ [index]) child ++ entriesChildren path (index + 1) rest

end

theorem entries_eq (path : ElementPath) (e : Element) :
    entries path e = ⟨path, e.id, e.attributes⟩ :: entriesChildren path 0 e.children := by
  rcases e with ⟨qname, sourcePrefix, declared, attributes, children, id⟩
  rw [entries]

theorem entriesChildren_append (path : ElementPath) (index : Nat) (front back : List Node) :
    entriesChildren path index (front ++ back) =
      entriesChildren path index front ++ entriesChildren path (index + front.length) back := by
  induction front generalizing index with
  | nil => simp [entriesChildren]
  | cons child rest ih =>
      rw [List.cons_append, entriesChildren, entriesChildren, ih, List.append_assoc,
        List.length_cons, Nat.add_right_comm, Nat.add_assoc]

/-- Appending a child appends its entries. -/
theorem entries_withChild (path : ElementPath) (e : Element) (node : Node) :
    entries path { e with children := e.children ++ [node] } =
      entries path e ++ entriesNode (path ++ [e.children.length]) node := by
  simp [entries_eq, entriesChildren_append, entriesChildren]

/-- The entries are the elements the paths lead to. -/
theorem mem_entries :
    (∀ (e : Element) (path : ElementPath) (entry : Entry), entry ∈ entries path e ↔
      ∃ rest d, e.walk rest = some d ∧ entry = ⟨path ++ rest, d.id, d.attributes⟩) ∧
    ∀ (nodes : List Node) (path : ElementPath) (index : Nat) (entry : Entry),
      entry ∈ entriesChildren path index nodes ↔
        ∃ i child rest d, nodes[i]? = some (.element child) ∧ child.walk rest = some d ∧
          entry = ⟨path ++ (index + i) :: rest, d.id, d.attributes⟩ := by
  apply Element.induct
  case mk =>
    intro e ih path entry
    rw [entries_eq, List.mem_cons, ih]
    constructor
    · rintro (rfl | ⟨i, child, rest, d, hchild, hwalk, rfl⟩)
      · exact ⟨[], e, rfl, by simp⟩
      · refine ⟨i :: rest, d, ?_, by simp⟩
        rw [ElementOf.walk, hchild]
        exact hwalk
    · rintro ⟨rest, d, hwalk, rfl⟩
      cases rest with
      | nil =>
          obtain rfl : e = d := by simpa using hwalk
          exact .inl (by simp)
      | cons i rest =>
          rw [ElementOf.walk] at hwalk
          cases hchild : e.children[i]? with
          | none => simp [hchild] at hwalk
          | some node =>
              cases node with
              | element child =>
                  rw [hchild] at hwalk
                  exact .inr ⟨i, child, rest, d, hchild, hwalk, by simp⟩
              | text t => simp [hchild] at hwalk
              | comment c => simp [hchild] at hwalk
  case nil =>
    intro path index entry
    simp [entriesChildren]
  case element =>
    intro child nodes ihChild ihNodes path index entry
    rw [entriesChildren, entriesNode, List.mem_append, ihChild, ihNodes]
    constructor
    · rintro (⟨rest, d, hwalk, rfl⟩ | ⟨i, other, rest, d, hother, hwalk, rfl⟩)
      · exact ⟨0, child, rest, d, rfl, hwalk, by simp⟩
      · exact ⟨i + 1, other, rest, d, by simpa using hother, hwalk, by simp; omega⟩
    · rintro ⟨i, other, rest, d, hother, hwalk, rfl⟩
      cases i with
      | zero =>
          obtain rfl : child = other := by simpa using hother
          exact .inl ⟨rest, d, hwalk, by simp⟩
      | succ i =>
          exact .inr ⟨i, other, rest, d, by simpa using hother, hwalk, by simp; omega⟩
  case text =>
    intro t nodes ih path index entry
    rw [entriesChildren, entriesNode, List.nil_append, ih]
    constructor
    · rintro ⟨i, other, rest, d, hother, hwalk, rfl⟩
      exact ⟨i + 1, other, rest, d, by simpa using hother, hwalk, by simp; omega⟩
    · rintro ⟨i, other, rest, d, hother, hwalk, rfl⟩
      cases i with
      | zero => simp at hother
      | succ i => exact ⟨i, other, rest, d, by simpa using hother, hwalk, by simp; omega⟩
  case comment =>
    intro c nodes ih path index entry
    rw [entriesChildren, entriesNode, List.nil_append, ih]
    constructor
    · rintro ⟨i, other, rest, d, hother, hwalk, rfl⟩
      exact ⟨i + 1, other, rest, d, by simpa using hother, hwalk, by simp; omega⟩
    · rintro ⟨i, other, rest, d, hother, hwalk, rfl⟩
      cases i with
      | zero => simp at hother
      | succ i => exact ⟨i, other, rest, d, by simpa using hother, hwalk, by simp; omega⟩

/-- The `ID` registrations of one element. -/
def Entry.idPairs (entry : Entry) : List (Str × ElementId) :=
  (entry.attributes.filter isIdAttr).map fun a => (a.value, entry.id)

/-- Indices that record exactly the given entries, numbered in order, with
distinct `ID` values. -/
structure Indexed (recorded : List Entry) (paths : List ElementPath)
    (idIndex : List (Str × ElementId)) : Prop where
  paths_eq : paths = recorded.map Entry.path
  ids_eq : recorded.map Entry.id = List.range recorded.length
  index_eq : idIndex = recorded.flatMap Entry.idPairs
  nodup : (idIndex.map Prod.fst).Nodup

theorem indexed_nil : Indexed [] [] [] := ⟨rfl, rfl, rfl, List.nodup_nil⟩

/-- What registering one element does to the `ID` index. -/
theorem registerIds_ok {id : ElementId} {attributes : List Attribute}
    {index next : List (Str × ElementId)} (h : registerIds id attributes index = .ok next)
    (nodup : (index.map Prod.fst).Nodup) :
    next = index ++ (attributes.filter isIdAttr).map (fun a => (a.value, id)) ∧
      (next.map Prod.fst).Nodup := by
  induction attributes generalizing index with
  | nil =>
      obtain rfl : index = next := by simpa [registerIds] using h
      exact ⟨by simp, nodup⟩
  | cons a rest ih =>
      rw [registerIds] at h
      by_cases hid : isIdAttr a = true
      · rw [if_pos hid, ite_error_eq_ok_iff, Association.lookup_isSome_iff] at h
        obtain ⟨hnew, hrest⟩ := h
        have hnodup : ((index ++ [(a.value, id)]).map Prod.fst).Nodup := by
          rw [List.map_append, List.nodup_append]
          refine ⟨nodup, by simp, ?_⟩
          rintro v hv w hw rfl
          obtain rfl : v = a.value := by simpa using hw
          exact hnew hv
        obtain ⟨heq, hfinal⟩ := ih hrest hnodup
        refine ⟨?_, hfinal⟩
        rw [heq, List.filter_cons_of_pos hid]
        simp
      · rw [if_neg hid] at h
        obtain ⟨heq, hfinal⟩ := ih h nodup
        refine ⟨?_, hfinal⟩
        rw [heq, List.filter_cons_of_neg hid]

/-- Opening an element records one more entry. -/
theorem Indexed.register {recorded : List Entry} {paths : List ElementPath}
    {idIndex next : List (Str × ElementId)} (h : Indexed recorded paths idIndex)
    {attributes : List Attribute} (path : ElementPath)
    (hids : registerIds paths.length attributes idIndex = .ok next) :
    Indexed (recorded ++ [⟨path, paths.length, attributes⟩]) (paths ++ [path]) next := by
  have hlen : paths.length = recorded.length := by rw [h.paths_eq, List.length_map]
  obtain ⟨heq, hnodup⟩ := registerIds_ok hids h.nodup
  refine ⟨by simp [h.paths_eq], ?_, ?_, hnodup⟩
  · rw [List.map_append, h.ids_eq, List.length_append, List.length_singleton, List.range_succ]
    simp [hlen]
  · rw [heq, List.flatMap_append, ← h.index_eq]
    simp [Entry.idPairs]

namespace Document

/-- The indices of a document record exactly its elements. -/
def WellIndexed (doc : Document) : Prop :=
  Indexed (entries [] doc.root) doc.paths doc.idIndex

variable {doc : Document}

/-- The element a path leads to is recorded under its handle. -/
theorem WellIndexed.paths_walk (h : doc.WellIndexed) {path : ElementPath} {d : Element}
    (hwalk : doc.root.walk path = some d) : doc.paths[d.id]? = some path := by
  have hmem : (⟨path, d.id, d.attributes⟩ : Entry) ∈ entries [] doc.root :=
    (mem_entries.1 doc.root [] _).mpr ⟨path, d, hwalk, by simp⟩
  obtain ⟨i, hi⟩ := List.mem_iff_getElem?.mp hmem
  have hid : ((entries [] doc.root).map Entry.id)[i]? = some d.id := by simp [hi]
  have hlt : i < (entries [] doc.root).length := (List.getElem?_eq_some_iff.mp hi).1
  rw [h.ids_eq, List.getElem?_range hlt] at hid
  obtain rfl : i = d.id := by simpa using hid
  simp [h.paths_eq, hi]

/-- Every handle of the index leads to an element with that number. -/
theorem WellIndexed.walk_paths (h : doc.WellIndexed) {id : ElementId} {path : ElementPath}
    (hpath : doc.paths[id]? = some path) : ∃ d, doc.root.walk path = some d ∧ d.id = id := by
  rw [h.paths_eq, List.getElem?_map, Option.map_eq_some_iff] at hpath
  obtain ⟨entry, hentry, rfl⟩ := hpath
  have hlt : id < (entries [] doc.root).length := (List.getElem?_eq_some_iff.mp hentry).1
  have hid : ((entries [] doc.root).map Entry.id)[id]? = some entry.id := by simp [hentry]
  rw [h.ids_eq, List.getElem?_range hlt] at hid
  obtain ⟨rest, d, hwalk, rfl⟩ :=
    (mem_entries.1 doc.root [] entry).mp (List.mem_of_getElem? hentry)
  exact ⟨d, by simpa using hwalk, by simpa using hid.symm⟩

/-- A handle resolves to the one element that carries it. -/
theorem WellIndexed.element_iff (h : doc.WellIndexed) {id : ElementId} {d : Element} :
    doc.element id = some d ↔ ∃ path, doc.root.walk path = some d ∧ d.id = id := by
  unfold element
  constructor
  · intro hd
    cases hpath : doc.paths[id]? with
    | none => simp [hpath] at hd
    | some path =>
        rw [hpath] at hd
        obtain ⟨e, hwalk, hid⟩ := h.walk_paths hpath
        obtain rfl : e = d := Option.some.inj (hwalk.symm.trans hd)
        exact ⟨path, hwalk, hid⟩
  · rintro ⟨path, hwalk, rfl⟩
    rw [h.paths_walk hwalk]
    exact hwalk

/-- Two positions with one handle are the same position. -/
theorem WellIndexed.path_unique (h : doc.WellIndexed) {p q : ElementPath} {d e : Element}
    (hp : doc.root.walk p = some d) (hq : doc.root.walk q = some e) (hid : d.id = e.id) :
    p = q := by
  have hpaths := h.paths_walk hp
  rw [hid, h.paths_walk hq] at hpaths
  exact (Option.some.inj hpaths).symm

theorem WellIndexed.element_root (h : doc.WellIndexed) : doc.element doc.root.id = some doc.root :=
  h.element_iff.mpr ⟨[], rfl, rfl⟩

/-- An `ID` value resolves to the one element that declares it. -/
theorem WellIndexed.elementByIdAttr_iff (h : doc.WellIndexed) {v : Str} {id : ElementId} :
    doc.elementByIdAttr v = some id ↔
      ∃ path d, doc.root.walk path = some d ∧ d.id = id ∧
        ∃ a ∈ d.attributes, isIdAttr a = true ∧ a.value = v := by
  rw [elementByIdAttr, Association.lookup_eq_some_iff h.nodup, h.index_eq, List.mem_flatMap]
  constructor
  · rintro ⟨entry, hentry, hpair⟩
    obtain ⟨rest, d, hwalk, rfl⟩ := (mem_entries.1 doc.root [] entry).mp hentry
    obtain ⟨a, ha, heq⟩ := List.mem_map.mp hpair
    obtain ⟨rfl, rfl⟩ := Prod.mk.inj heq
    obtain ⟨ha, hid⟩ := List.mem_filter.mp ha
    exact ⟨rest, d, hwalk, rfl, a, ha, hid, rfl⟩
  · rintro ⟨path, d, hwalk, rfl, a, ha, hid, rfl⟩
    refine ⟨⟨path, d.id, d.attributes⟩,
      (mem_entries.1 doc.root [] _).mpr ⟨path, d, hwalk, by simp⟩, ?_⟩
    exact List.mem_map.mpr ⟨a, List.mem_filter.mpr ⟨ha, hid⟩, rfl⟩

end Document

end Saml.Xml
