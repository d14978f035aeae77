import Saml.Xml.Scoped
import Mathlib.Data.List.Infix

/-!
# Measures of a document

What the parse-time limits promise about an accepted document, and the event
sequences that keep to them where the parser does not look: at self-closing tags
for the depth, and across the pieces of a run of character data.
-/

namespace Saml.Xml

/-! ## Measures of a tree -/

mutual

/-- The nodes of an element: itself and all below it. -/
def nodeCount : Element → Nat
  | ⟨_, _, _, _, children, _⟩ => nodesCount children + 1

/-- The nodes of one node. -/
def nodeCountOf : Node → Nat
  | .element e => nodeCount e
  | .text _ => 1
  | .comment _ => 1

/-- The nodes of a child list. -/
def nodesCount : List Node → Nat
  | [] => 0
  | node :: rest => nodeCountOf node + nodesCount rest

end

theorem nodeCount_eq (e : Element) : nodeCount e = nodesCount e.children + 1 := by
  rcases e with ⟨qname, sourcePrefix, declared, attributes, children, id⟩
  rw [nodeCount]

theorem nodesCount_append (front back : List Node) :
    nodesCount (front ++ back) = nodesCount front + nodesCount back := by
  induction front with
  | nil => rw [List.nil_append, nodesCount, Nat.zero_add]
  | cons node rest ih => rw [List.cons_append, nodesCount, nodesCount, ih, Nat.add_assoc]

theorem nodeCount_withChild (e : Element) (node : Node) :
    nodeCount { e with children := e.children ++ [node] } = nodeCount e + nodeCountOf node := by
  rw [nodeCount_eq, nodeCount_eq, nodesCount_append, nodesCount, nodesCount]
  omega

/-- Adjacent text nodes hold so much text together. -/
def RunsWithin (limit : Nat) (nodes : List Node) : Prop :=
  ∀ run : List Str, run.map Node.text <:+: nodes → (run.map Text.byteLen).sum ≤ limit

/-- Whether a node is text. -/
def Node.isText : Node → Bool
  | .text _ => true
  | _ => false

/-- The length of the text nodes at the end of a child list. -/
def lastRun (nodes : List Node) : Nat :=
  ((nodes.reverse.takeWhile Node.isText).map fun node => Text.byteLen node.textOf).sum

theorem lastRun_append_text (nodes : List Node) (t : Str) :
    lastRun (nodes ++ [.text t]) = lastRun nodes + Text.byteLen t := by
  simp only [lastRun, List.reverse_append, List.reverse_singleton, List.singleton_append]
  rw [List.takeWhile_cons_of_pos rfl, List.map_cons, List.sum_cons, Node.textOf_text, Nat.add_comm]

theorem lastRun_append_other (nodes : List Node) {node : Node} (h : node.isText = false) :
    lastRun (nodes ++ [node]) = 0 := by
  simp only [lastRun, List.reverse_append, List.reverse_singleton, List.singleton_append]
  rw [List.takeWhile_cons_of_neg (by rw [h]; exact Bool.false_ne_true)]
  rfl

/-- A run ends with its last text. -/
theorem run_suffix_text {run : List Str} {nodes : List Node} {t : Str}
    (h : run.map Node.text <:+ nodes ++ [.text t]) :
    run = [] ∨ ∃ init, run = init ++ [t] ∧ init.map Node.text <:+ nodes := by
  rcases List.suffix_concat_iff.mp h with hnil | ⟨front, hfront, hsuffix⟩
  · exact .inl (List.map_eq_nil_iff.mp hnil)
  · obtain ⟨init, last, rfl, hinit, hlast⟩ := List.map_eq_append_iff.mp hfront
    obtain ⟨t', rfl, ht'⟩ := List.map_eq_singleton_iff.mp hlast
    cases ht'
    exact .inr ⟨init, rfl, hinit ▸ hsuffix⟩

theorem run_suffix_other {run : List Str} {nodes : List Node} {node : Node}
    (hnode : node.isText = false) (h : run.map Node.text <:+ nodes ++ [node]) : run = [] := by
  rcases List.suffix_concat_iff.mp h with hnil | ⟨front, hfront, -⟩
  · exact List.map_eq_nil_iff.mp hnil
  · obtain ⟨init, last, rfl, -, hlast⟩ := List.map_eq_append_iff.mp hfront
    obtain ⟨t', rfl, rfl⟩ := List.map_eq_singleton_iff.mp hlast
    cases hnode

theorem sum_byteLen_concat (run : List Str) (t : Str) :
    ((run ++ [t]).map Text.byteLen).sum = (run.map Text.byteLen).sum + Text.byteLen t := by
  rw [List.map_append, List.sum_append, List.map_singleton, List.sum_singleton]

theorem eq_text_of_isText {node : Node} (h : node.isText = true) : ∃ t, node = .text t := by
  cases node with
  | text t => exact ⟨t, rfl⟩
  | element e => cases h
  | comment c => cases h

/-- The run at the end is the longest one there. -/
theorem lastRun_spec (nodes : List Node) :
    (∀ run : List Str, run.map Node.text <:+ nodes → (run.map Text.byteLen).sum ≤ lastRun nodes) ∧
      ∃ run : List Str, run.map Node.text <:+ nodes ∧
        (run.map Text.byteLen).sum = lastRun nodes := by
  induction nodes using List.reverseRecOn with
  | nil =>
    refine ⟨?_, [], List.nil_suffix, rfl⟩
    intro run hrun
    rw [List.suffix_nil, List.map_eq_nil_iff] at hrun
    rw [hrun]
    rfl
  | append_singleton nodes node ih =>
    obtain ⟨hmax, run, hrun, hsum⟩ := ih
    by_cases hnode : node.isText = true
    · obtain ⟨t, rfl⟩ := eq_text_of_isText hnode
      rw [lastRun_append_text]
      constructor
      · intro other hother
        rcases run_suffix_text hother with rfl | ⟨init, rfl, hinit⟩
        · exact Nat.zero_le _
        · rw [sum_byteLen_concat]
          exact Nat.add_le_add_right (hmax init hinit) _
      · refine ⟨run ++ [t], ?_, by rw [sum_byteLen_concat, hsum]⟩
        rw [List.map_append]
        exact List.suffix_concat_iff.mpr (.inr ⟨_, rfl, hrun⟩)
    · rw [Bool.not_eq_true] at hnode
      rw [lastRun_append_other nodes hnode]
      refine ⟨?_, [], List.nil_suffix, rfl⟩
      intro other hother
      rw [run_suffix_other hnode hother]
      rfl

theorem runsWithin_nil (limit : Nat) : RunsWithin limit [] := by
  intro run hrun
  rw [List.infix_nil, List.map_eq_nil_iff] at hrun
  rw [hrun]
  exact Nat.zero_le _

theorem RunsWithin.lastRun_le {limit : Nat} {nodes : List Node} (h : RunsWithin limit nodes) :
    lastRun nodes ≤ limit := by
  obtain ⟨-, run, hrun, hsum⟩ := lastRun_spec nodes
  exact hsum ▸ h run hrun.isInfix

/-- Another text node makes the run at the end longer. -/
theorem runsWithin_append_text {limit : Nat} {nodes : List Node} {t : Str} :
    RunsWithin limit (nodes ++ [.text t]) ↔
      RunsWithin limit nodes ∧ lastRun nodes + Text.byteLen t ≤ limit := by
  constructor
  · intro h
    refine ⟨fun run hrun => h run (List.infix_concat_iff.mpr (.inr hrun)), ?_⟩
    have hlast := h.lastRun_le
    rwa [lastRun_append_text] at hlast
  · rintro ⟨h, hlast⟩ run hrun
    rcases List.infix_concat_iff.mp hrun with hsuffix | hinfix
    · calc
        (run.map Text.byteLen).sum ≤ lastRun (nodes ++ [.text t]) := (lastRun_spec _).1 run hsuffix
        _ = lastRun nodes + Text.byteLen t := lastRun_append_text nodes t
        _ ≤ limit := hlast
    · exact h run hinfix

/-- Any other node ends the run. -/
theorem runsWithin_append_other {limit : Nat} {nodes : List Node} {node : Node}
    (hnode : node.isText = false) :
    RunsWithin limit (nodes ++ [node]) ↔ RunsWithin limit nodes := by
  constructor
  · intro h run hrun
    exact h run (List.infix_concat_iff.mpr (.inr hrun))
  · intro h run hrun
    rcases List.infix_concat_iff.mp hrun with hsuffix | hinfix
    · rw [run_suffix_other hnode hsuffix]
      exact Nat.zero_le _
    · exact h run hinfix

/-! ## The limits of a document -/

/-- What the limits say about an element and the number of its ancestors. -/
def ElementWithin (limits : XmlLimits) (scope : List NsLayer) (e : Element) : Prop :=
  scope.length < limits.maxDepth ∧
    e.attributes.length + e.namespacesDeclaredHere.length ≤ limits.maxAttributeCount ∧
    RunsWithin limits.maxTextLength e.children

/-- A document within the limits: its depth, its nodes, the attributes and
declarations of each element, and each run of adjacent text. -/
structure Document.Within (limits : XmlLimits) (doc : Document) : Prop where
  depth : ∀ path d, doc.root.walk path = some d → path.length + 1 ≤ limits.maxDepth
  nodes : nodeCount doc.root ≤ limits.maxTotalNodes
  attributes : ∀ path d, doc.root.walk path = some d →
    d.attributes.length + d.namespacesDeclaredHere.length ≤ limits.maxAttributeCount
  text : ∀ path d, doc.root.walk path = some d → RunsWithin limits.maxTextLength d.children

theorem length_layersTo {e d : Element} {path : ElementPath} (h : e.walk path = some d) :
    (layersTo e path).length = path.length := by
  induction path generalizing e with
  | nil => rfl
  | cons i rest ih =>
    rw [ElementOf.walk] at h
    split at h
    next child hchild =>
      rw [layersTo, hchild]
      dsimp only
      rw [List.length_append, ih h]
      rfl
    next => cases h

theorem Document.within_iff {limits : XmlLimits} {doc : Document} :
    doc.Within limits ↔
      Scoped (ElementWithin limits) [] doc.root ∧ nodeCount doc.root ≤ limits.maxTotalNodes := by
  constructor
  · intro h
    refine ⟨?_, h.nodes⟩
    intro path d hd
    rw [List.append_nil]
    refine ⟨?_, h.attributes path d hd, h.text path d hd⟩
    rw [length_layersTo hd]
    exact h.depth path d hd
  · rintro ⟨h, hnodes⟩
    refine ⟨?_, hnodes, fun path d hd => (h path d hd).2.1, fun path d hd => (h path d hd).2.2⟩
    intro path d hd
    have hdepth := (h path d hd).1
    rw [List.append_nil, length_layersTo hd] at hdepth
    exact hdepth

/-! ## The events -/

/-- The character data that an event stands for. -/
def charData (qx : QuickXml) : Event → Option Str
  | .text t => some t
  | .cData t => some t
  | .generalRef name => (qx.unescape ("&" ++ name ++ ";")).toOption
  | _ => none

/-- The elements that are open after an event. -/
def openAfter (opened : Nat) : Event → Nat
  | .start _ => opened + 1
  | .endTag _ => opened - 1
  | _ => opened

/-- The length of the run of character data after an event inside an element;
a tag or a comment begins a new one. -/
def runAfter (qx : QuickXml) (opened run : Nat) (event : Event) : Nat :=
  match charData qx event with
  | some data => if opened = 0 then 0 else run + Text.byteLen data
  | none =>
      match event with
      | .decl => run
      | _ => 0

/-- The events keep to the limits where the parser does not look: a self-closing
tag leaves room for its element, and no run of character data is too long. -/
def EventsFit (qx : QuickXml) (limits : XmlLimits) : Nat → Nat → List (Except Str Event) → Prop
  | _, _, [] => True
  | _, _, .error _ :: _ => True
  | opened, run, .ok event :: rest =>
      ((∀ s, event = .empty s → opened < limits.maxDepth) ∧
        runAfter qx opened run event ≤ limits.maxTextLength) ∧
      EventsFit qx limits (openAfter opened event) (runAfter qx opened run event) rest

end Saml.Xml
