import Saml.Number
import Saml.Xml.Accepted

/-!
# Attribute values as stored

The values that an accepted document holds, against those of the start tags they
were read from and against the normalization of attribute values of XML 1.0.
-/

namespace Saml.Xml

/-! ## References -/

/-- The value of a hexadecimal digit. -/
def hexDigit (c : Char) : Option Nat :=
  if 'a' ≤ c ∧ c ≤ 'f' then some (c.toNat - 'a'.toNat + 10)
  else if 'A' ≤ c ∧ c ≤ 'F' then some (c.toNat - 'A'.toNat + 10)
  else Number.digit c

/-- The number that digits of a base are written for, after a first value. -/
def numberFrom (base : Nat) (digit : Char → Option Nat) : Nat → Str → Option Nat
  | value, [] => some value
  | value, c :: rest => (digit c).bind fun d => numberFrom base digit (base * value + d) rest

/-- The character of a code point; there is none of number zero. -/
def characterOf (code : Nat) : Option Char :=
  if code ≠ 0 ∧ code.isValidChar then some (Char.ofNat code) else none

/-- The predefined entities. -/
def predefined : List (Str × Char) :=
  [("amp", '&'), ("lt", '<'), ("gt", '>'), ("quot", '"'), ("apos", '\'')]

/-- The character that a reference stands for. -/
def referenced : Str → Option Char
  | '#' :: 'x' :: digits => (numberFrom 16 hexDigit 0 digits).bind characterOf
  | '#' :: digits => (numberFrom 10 Number.digit 0 digits).bind characterOf
  | name => predefined.lookup name

/-- The white space that normalization turns into spaces. -/
def IsBreak (c : Char) : Prop := c = '\t' ∨ c = '\n' ∨ c = '\r'

instance (c : Char) : Decidable (IsBreak c) := instDecidableOr

theorem not_isBreak_of_isDigit {c : Char} {d : Nat} (h : Number.digit c = some d) :
    ¬ IsBreak c := by
  rintro (rfl | rfl | rfl) <;> cases h

theorem not_isBreak_of_hexDigit {c : Char} {d : Nat} (h : hexDigit c = some d) :
    ¬ IsBreak c := by
  rintro (rfl | rfl | rfl) <;> cases h

theorem not_isBreak_of_numberFrom {base : Nat} {digit : Char → Option Nat}
    (hdigit : ∀ c d, digit c = some d → ¬ IsBreak c) {digits : Str} {value number : Nat}
    (h : numberFrom base digit value digits = some number) : ∀ c ∈ digits, ¬ IsBreak c := by
  induction digits generalizing value with
  | nil => nofun
  | cons c rest ih =>
    obtain ⟨d, hd, hrest⟩ := Option.bind_eq_some_iff.mp h
    rw [List.forall_mem_cons]
    exact ⟨hdigit c d hd, ih hrest⟩

/-- No name of a reference holds white space. -/
theorem not_isBreak_of_referenced {name : Str} {d : Char} (h : referenced name = some d) :
    ∀ c ∈ name, ¬ IsBreak c := by
  fun_cases referenced name with
  | case1 digits =>
    obtain ⟨number, hnumber, -⟩ := Option.bind_eq_some_iff.mp h
    have hdigits := not_isBreak_of_numberFrom (fun c d => not_isBreak_of_hexDigit) hnumber
    rw [List.forall_mem_cons, List.forall_mem_cons]
    exact ⟨by decide, by decide, hdigits⟩
  | case2 digits hnot =>
    rw [referenced] at h
    · obtain ⟨number, hnumber, -⟩ := Option.bind_eq_some_iff.mp h
      have hdigits := not_isBreak_of_numberFrom (fun c d => not_isBreak_of_isDigit) hnumber
      rw [List.forall_mem_cons]
      exact ⟨by decide, hdigits⟩
    · exact hnot
  | case3 name hhex hdecimal =>
    rw [referenced] at h
    · have hkeys : ∀ p ∈ predefined, ∀ c ∈ p.1, ¬ IsBreak c := by decide
      exact hkeys _ (Library.Association.mem_of_lookup h)
    · exact hhex
    · exact hdecimal

/-! ## Values -/

/-- The value written by a raw one, its literal characters read one by one; the
first argument is the reference being read. -/
def readValue (literal : Char → Char) : Option Str → Str → Option Str
  | none, [] => some []
  | some _, [] => none
  | none, c :: rest =>
    if c = '&' then readValue literal (some []) rest
    else (readValue literal none rest).map (literal c :: ·)
  | some name, c :: rest =>
    if c = ';' then
      (referenced name).bind fun d => (readValue literal none rest).map (d :: ·)
    else readValue literal (some (name ++ [c])) rest

/-- A space in place of literal white space. -/
def toSpace (c : Char) : Char := if IsBreak c then ' ' else c

/-- The attribute value of XML 1.0 for a raw value: references replaced, literal
white space turned into spaces. -/
def attributeValue (raw : Str) : Option Str := readValue toSpace none raw

theorem toSpace_eq_self_iff {c : Char} : toSpace c = c ↔ ¬ IsBreak c := by
  unfold toSpace
  constructor
  · intro h hbreak
    rw [if_pos hbreak] at h
    subst h
    exact absurd hbreak (by decide)
  · intro h
    rw [if_neg h]

/-- A reference that is read to its end has a name without white space. -/
theorem not_isBreak_of_readValue {literal : Char → Char} {name raw value : Str}
    (h : readValue literal (some name) raw = some value) : ∀ c ∈ name, ¬ IsBreak c := by
  induction raw generalizing name with
  | nil => cases h
  | cons c rest ih =>
    rw [readValue] at h
    split at h
    · obtain ⟨d, hd, -⟩ := Option.bind_eq_some_iff.mp h
      exact not_isBreak_of_referenced hd
    · intro d hd
      exact ih h d (List.mem_append_left _ hd)

/-- Reading a value with its white space kept differs from its normalization
exactly where the raw value holds white space. -/
theorem readValue_toSpace_iff {name : Option Str} {raw value : Str}
    (h : readValue id name raw = some value) :
    readValue toSpace name raw = some value ↔ ∀ c ∈ raw, ¬ IsBreak c := by
  fun_induction readValue id name raw generalizing value with
  | case1 =>
    obtain rfl := Option.some.inj h
    simp [readValue]
  | case2 => cases h
  | case3 rest ih =>
    rw [readValue, if_pos rfl, ih h, List.forall_mem_cons]
    exact (and_iff_right (by decide)).symm
  | case4 c rest hc ih =>
    obtain ⟨tail, htail, rfl⟩ := Option.map_eq_some_iff.mp h
    rw [readValue, if_neg hc, List.forall_mem_cons, ← ih htail, ← toSpace_eq_self_iff]
    constructor
    · intro hvalue
      obtain ⟨tail', htail', heq⟩ := Option.map_eq_some_iff.mp hvalue
      obtain ⟨hhead, rfl⟩ := List.cons.inj heq
      exact ⟨hhead, htail'⟩
    · rintro ⟨hhead, hvalue⟩
      rw [hvalue, hhead]
      rfl
  | case5 name rest ih =>
    obtain ⟨d, hd, hrest⟩ := Option.bind_eq_some_iff.mp h
    obtain ⟨tail, htail, rfl⟩ := Option.map_eq_some_iff.mp hrest
    rw [readValue, if_pos rfl, hd, Option.bind_some, List.forall_mem_cons, ← ih htail]
    constructor
    · intro hvalue
      obtain ⟨tail', htail', heq⟩ := Option.map_eq_some_iff.mp hvalue
      obtain ⟨-, rfl⟩ := List.cons.inj heq
      exact ⟨by decide, htail'⟩
    · rintro ⟨-, hvalue⟩
      rw [hvalue]
      rfl
  | case6 name c rest hc ih =>
    rw [readValue, if_neg hc, ih h, List.forall_mem_cons]
    have hname := not_isBreak_of_readValue h c (by simp)
    exact (and_iff_right hname).symm

/-- What the parser relies on from the unescaper: it replaces each reference by
the character that it stands for and keeps all others. -/
def QuickXml.Resolves (qx : QuickXml) : Prop :=
  ∀ raw value, qx.unescape raw = .ok value → readValue id none raw = some value

/-! ## Start tags -/

/-- The start tags among the events, in order. -/
def startTags (events : List (Except Str Event)) : List BytesStart :=
  events.filterMap fun
    | .ok (.start s) => some s
    | .ok (.empty s) => some s
    | _ => none

/-- The attributes of a start tag as they are written. -/
def BytesStart.written (s : BytesStart) : List RawAttribute :=
  s.attributes.filterMap Except.toOption

/-- An element read from a start tag: its name, its attributes and its
declarations are those of the tag in order, the values in a relation. -/
structure ReadFrom (R : Str → Str → Prop) (tag : BytesStart) (e : Element) : Prop where
  name : (e.qname.localName, e.sourcePrefix) = QxQName.decompose tag.name
  clean : ∀ err, .error err ∉ tag.attributes
  attributes : List.Forall₂
    (fun raw a => writtenName a = QxQName.decompose raw.key ∧ R raw.value a.value)
    (tag.written.filter fun raw => (QxQName.asNamespaceBinding raw.key).isNone) e.attributes
  declared : List.Forall₂
    (fun raw decl => QxQName.asNamespaceBinding raw.key = some decl.1 ∧ R raw.value decl.2)
    (tag.written.filter fun raw => (QxQName.asNamespaceBinding raw.key).isSome)
    e.namespacesDeclaredHere

theorem ReadFrom.imp {R R' : Str → Str → Prop} (himp : ∀ raw value, R raw value → R' raw value)
    {tag : BytesStart} {e : Element} (h : ReadFrom R tag e) : ReadFrom R' tag e where
  name := h.name
  clean := h.clean
  attributes := h.attributes.imp fun _ _ hvalue => hvalue.imp_right (himp _ _)
  declared := h.declared.imp fun _ _ hvalue => hvalue.imp_right (himp _ _)

variable {qx : QuickXml}

theorem unescapeValue_eq_ok_iff {raw value : Str} :
    unescapeValue qx raw = .ok value ↔ qx.unescape raw = .ok value := by
  unfold unescapeValue
  cases qx.unescape raw <;> simp

/-- The first pass sorts the attributes of a tag and unescapes their values. -/
theorem collectAttributes_read {limits : XmlLimits} {count : Nat}
    {attributes : List (Except Str RawAttribute)} {raw : RawAttributes}
    (h : collectAttributes qx limits count attributes = .ok raw) :
    List.Forall₂ (fun first a => a.key = first.key ∧ qx.unescape first.value = .ok a.value)
      ((attributes.filterMap Except.toOption).filter fun first =>
        (QxQName.asNamespaceBinding first.key).isNone) raw.rawAttrs ∧
    List.Forall₂ (fun first decl => QxQName.asNamespaceBinding first.key = some decl.1 ∧
        qx.unescape first.value = .ok decl.2)
      ((attributes.filterMap Except.toOption).filter fun first =>
        (QxQName.asNamespaceBinding first.key).isSome) raw.declared := by
  induction attributes generalizing count raw with
  | nil =>
    obtain rfl := Except.ok.inj h
    exact ⟨.nil, .nil⟩
  | cons item rest ih =>
    cases item with
    | error e => cases h
    | ok a =>
      rw [collectAttributes] at h
      obtain ⟨_, h⟩ := ite_error_eq_ok_iff.mp h
      obtain ⟨value, hvalue, h⟩ := bind_eq_ok_iff.mp h
      obtain ⟨tail, htail, h⟩ := bind_eq_ok_iff.mp h
      obtain ⟨hplain, hdeclared⟩ := ih htail
      rw [unescapeValue_eq_ok_iff] at hvalue
      have hcons : (Except.ok a :: rest : List (Except Str RawAttribute)).filterMap
          Except.toOption = a :: rest.filterMap Except.toOption := rfl
      rw [hcons]
      split at h
      next pfx hbinding =>
        obtain rfl := Except.ok.inj h
        rw [List.filter_cons_of_neg (by simp [hbinding]),
          List.filter_cons_of_pos (by simp [hbinding])]
        exact ⟨hplain, .cons ⟨hbinding, hvalue⟩ hdeclared⟩
      next hbinding =>
        obtain rfl := Except.ok.inj h
        rw [List.filter_cons_of_pos (by simp [hbinding]),
          List.filter_cons_of_neg (by simp [hbinding])]
        exact ⟨.cons ⟨rfl, hvalue⟩ hplain, hdeclared⟩

/-- Relations composed along three lists. -/
theorem forall₂_comp {α β γ : Type} {R : α → β → Prop} {S : β → γ → Prop} {l : List α}
    {m : List β} {r : List γ} (h : List.Forall₂ R l m) (h' : List.Forall₂ S m r) :
    List.Forall₂ (fun a c => ∃ b, R a b ∧ S b c) l r := by
  induction h generalizing r with
  | nil =>
    cases h'
    exact .nil
  | cons hhead _ ih =>
    cases h' with
    | cons hhead' htail' => exact .cons ⟨_, hhead, hhead'⟩ (ih htail')

/-- Step: what a start tag opens is read from it, under the next handle. -/
theorem readFrom_openElement {b next : TreeBuilder} {start : BytesStart} {selfClosing : Bool}
    {element : Element} {path : ElementPath}
    (h : b.openElement qx start selfClosing = .ok (element, path, next)) :
    ReadFrom (fun raw value => qx.unescape raw = .ok value) start element := by
  obtain ⟨raw, hraw, hdeclared, hname, hpre, hattributes, -⟩ := TreeBuilder.openElement_scope h
  obtain ⟨hplain, hdecl⟩ := collectAttributes_read hraw
  obtain ⟨hlocal, -, -⟩ := resolveQName_eq_ok_iff.mp hname
  refine ⟨?_, (collectAttributes_ok hraw).1, ?_, ?_⟩
  · rw [hlocal, hpre]
    rfl
  · refine (forall₂_comp hplain (mapM_eq_ok_iff.mp hattributes)).imp ?_
    rintro first a ⟨collected, ⟨hkey, hvalue⟩, hresolved⟩
    refine ⟨?_, ?_⟩
    · rw [writtenName_resolveAttribute hresolved, hkey]
    · obtain ⟨qname, -, hresolved⟩ := bind_eq_ok_iff.mp hresolved
      obtain rfl := Except.ok.inj hresolved
      exact hvalue
  · rw [hdeclared]
    exact hdecl

/-! ## The read loop -/

/-- Every element is read from the start tag that its handle counts. -/
def FromTags (qx : QuickXml) (tags : List BytesStart) (_ : List NsLayer) (e : Element) : Prop :=
  ∃ tag, tags[e.id]? = some tag ∧ ReadFrom (fun raw value => qx.unescape raw = .ok value) tag e

theorem FromTags.append {tags : List BytesStart} {scope : List NsLayer} {e : Element}
    (h : FromTags qx tags scope e) (more : List BytesStart) :
    FromTags qx (tags ++ more) scope e := by
  obtain ⟨tag, htag, hread⟩ := h
  obtain ⟨hlt, -⟩ := List.getElem?_eq_some_iff.mp htag
  exact ⟨tag, by rw [List.getElem?_append_left hlt]; exact htag, hread⟩

theorem FramesHold.imp {P P' : List NsLayer → Element → Prop} (himp : ∀ scope e, P scope e →
    P' scope e) {base : List NsLayer} {stack : List StackFrame} (h : FramesHold P base stack) :
    FramesHold P' base stack := by
  induction stack with
  | nil => trivial
  | cons frame outer ih =>
    refine ⟨⟨himp _ _ h.1.1, ?_⟩, ih h.2⟩
    intro child hchild path d hd
    exact himp _ _ (h.1.2 child hchild path d hd)

namespace TreeBuilder

/-- The handles count the start tags fed so far, and every element built is read
from its own. -/
structure Sourced (qx : QuickXml) (tags : List BytesStart) (b : TreeBuilder) : Prop where
  count : b.paths.length = tags.length
  holds : b.Holds (FromTags qx tags) []

variable {tags : List BytesStart} {b next : TreeBuilder}

theorem local_fromTags (qx : QuickXml) (tags : List BytesStart) :
    Local qx (fun _ => False) (FromTags qx tags) where
  opened := nofun
  attached := by
    rintro scope e children ⟨tag, htag, hread⟩
    exact ⟨tag, htag, hread.name, hread.clean, hread.attributes, hread.declared⟩

theorem paths_closeElement {element : Element} (h : b.closeElement element = .ok next) :
    next.paths = b.paths := by
  unfold TreeBuilder.closeElement at h
  split at h
  next frame outer hstack =>
    obtain rfl := Except.ok.inj h
    rw [pushChild, hstack]
  next =>
    split at h
    · cases h
    · obtain rfl := Except.ok.inj h
      rfl

/-- Step: a move that opens nothing. -/
theorem Sourced.move (h : b.Sourced qx tags) (hmove : Move qx (fun _ => False) b next) :
    next.Sourced qx tags := by
  refine ⟨?_, h.holds.move (local_fromTags qx tags) hmove⟩
  cases hmove with
  | count root stack scope paths idIndex => rw [paths, h.count]
  | leaf hnode =>
    unfold TreeBuilder.pushChild
    split
    · exact h.count
    · exact h.count
  | opening tag hopen => cases tag
  | closing stack hclose =>
    rw [paths_closeElement hclose]
    exact h.count
  | collapsed tag hopen hclose => cases tag

theorem Sourced.moves (h : b.Sourced qx tags) (hmoves : Moves qx (fun _ => False) b next) :
    next.Sourced qx tags :=
  Moves.invariant (fun _ _ => Sourced.move) hmoves h

/-- Step: an element is opened and not yet attached. -/
theorem Sourced.openElement {start : BytesStart} {selfClosing : Bool} {element : Element}
    {path : ElementPath} (h : b.Sourced qx tags)
    (hopen : b.openElement qx start selfClosing = .ok (element, path, next)) :
    next.paths.length = (tags ++ [start]).length ∧
      FramesHold (FromTags qx (tags ++ [start])) [] b.stack ∧
      (∀ e, b.completedRoot = some e → Scoped (FromTags qx (tags ++ [start])) [] e) ∧
      ∀ scope, FromTags qx (tags ++ [start]) scope element := by
  obtain ⟨-, -, hid, -, -, hpaths, -⟩ := openElement_ok hopen
  refine ⟨?_, ?_, ?_, ?_⟩
  · rw [hpaths, List.length_append, List.length_append, h.count]
    rfl
  · exact h.holds.frames.imp fun _ _ hread => hread.append [start]
  · intro e he path d hd
    exact (h.holds.root e he path d hd).append [start]
  · intro scope
    refine ⟨start, ?_, readFrom_openElement hopen⟩
    rw [hid, h.count, List.getElem?_concat_length]

/-- Step: a start tag whose element stays open. -/
theorem Sourced.start {start : BytesStart} (h : b.Sourced qx tags)
    (hfeed : b.feedStructural qx (.start start) = .ok next) :
    next.Sourced qx (tags ++ [start]) := by
  obtain ⟨counted, hcounted, hfeed⟩ := bind_eq_ok_iff.mp hfeed
  obtain ⟨⟨element, path, opened⟩, hopen, hfeed⟩ := bind_eq_ok_iff.mp hfeed
  obtain ⟨-, hfeed⟩ := ite_error_eq_ok_iff.mp hfeed
  obtain rfl := Except.ok.inj hfeed
  have hc := h.move (bumpNodes_move hcounted)
  obtain ⟨hcount, hframes, hroots, hself⟩ := hc.openElement hopen
  obtain ⟨raw, -, hdeclared, -, -, -, hscope⟩ := openElement_scope hopen
  obtain ⟨-, hchildren, -, hstack, hroot, -, -⟩ := openElement_ok hopen
  refine ⟨hcount, ?_, ⟨⟨hself _, ?_⟩, ?_⟩, ?_⟩
  · dsimp only
    rw [hscope, if_neg Bool.false_ne_true, hstack, hc.holds.scope, ← hdeclared]
    rfl
  · intro child hchild
    rw [ElementOf.childElements, hchildren] at hchild
    cases hchild
  · rw [hstack]
    exact hframes
  · dsimp only
    rw [hroot]
    exact hroots

/-- Step: a self-closing tag. -/
theorem Sourced.empty {start : BytesStart} (h : b.Sourced qx tags)
    (hfeed : b.feedStructural qx (.empty start) = .ok next) :
    next.Sourced qx (tags ++ [start]) := by
  obtain ⟨counted, hcounted, hfeed⟩ := bind_eq_ok_iff.mp hfeed
  obtain ⟨⟨element, path, opened⟩, hopen, hclose⟩ := bind_eq_ok_iff.mp hfeed
  have hc := h.move (bumpNodes_move hcounted)
  obtain ⟨hcount, hframes, hroots, hself⟩ := hc.openElement hopen
  obtain ⟨raw, -, -, -, -, -, hscope⟩ := openElement_scope hopen
  obtain ⟨-, hchildren, -, hstack, hroot, -, -⟩ := openElement_ok hopen
  have hopened : opened.Holds (FromTags qx (tags ++ [start])) [] := by
    refine ⟨?_, ?_, ?_⟩
    · rw [hscope, if_pos rfl, hstack, hc.holds.scope]
    · rw [hstack]
      exact hframes
    · rw [hroot]
      exact hroots
  refine ⟨?_, hopened.closeElement (local_fromTags qx _) ?_ hclose⟩
  · rw [paths_closeElement hclose, hcount]
  · rw [scoped_iff]
    refine ⟨hself _, ?_⟩
    intro child hchild
    rw [ElementOf.childElements, hchildren] at hchild
    cases hchild

/-- The step lemma: an event adds its start tag, if it is one. -/
theorem Sourced.feed {event : Event} (h : b.Sourced qx tags) (hfeed : b.feed qx event = .ok next) :
    next.Sourced qx (tags ++ startTags [.ok event]) := by
  have other (htags : startTags [.ok event] = []) (tag : TagOf (fun _ => False) event) :
      next.Sourced qx (tags ++ startTags [.ok event]) := by
    rw [htags, List.append_nil]
    exact h.moves (feed_moves tag hfeed)
  cases event with
  | start s =>
    obtain ⟨flushed, hflushed, hfeed⟩ := bind_eq_ok_iff.mp hfeed
    exact (h.moves (flushText_moves hflushed)).start hfeed
  | empty s =>
    obtain ⟨flushed, hflushed, hfeed⟩ := bind_eq_ok_iff.mp hfeed
    exact (h.moves (flushText_moves hflushed)).empty hfeed
  | text t => exact other rfl trivial
  | generalRef name => exact other rfl trivial
  | endTag name => exact other rfl trivial
  | cData t => exact other rfl trivial
  | comment t => exact other rfl trivial
  | decl => exact other rfl trivial
  | docType => exact other rfl trivial
  | pi => exact other rfl trivial

/-- The run lemma: every element is read from the start tag its handle counts. -/
theorem Sourced.feedAll {events : List (Except Str Event)} (h : b.Sourced qx tags)
    (hfeed : b.feedAll qx events = .ok next) : next.Sourced qx (tags ++ startTags events) := by
  induction events generalizing b tags with
  | nil =>
    obtain rfl := Except.ok.inj hfeed
    rw [startTags, List.filterMap_nil, List.append_nil]
    exact h
  | cons item rest ih =>
    cases item with
    | error err => cases hfeed
    | ok event =>
      obtain ⟨mid, hmid, hrest⟩ := bind_eq_ok_iff.mp hfeed
      have hnext := ih (h.feed hmid) hrest
      rwa [List.append_assoc, startTags, startTags, ← List.filterMap_append] at hnext

end TreeBuilder

namespace Document

/-- Every element of an accepted document is read from the start tag that its
handle counts. -/
theorem readFrom_startTag {xml : Octets} {limits : XmlLimits} {doc : Document}
    (h : parseWithLimits qx xml limits = .ok doc) {path : ElementPath} {d : Element}
    (hd : doc.root.walk path = some d) :
    ∃ tag, (startTags (qx.readEvents (normalizeLineEndings xml)))[d.id]? = some tag ∧
      ReadFrom (fun raw value => qx.unescape raw = .ok value) tag d := by
  obtain ⟨b, hb, h⟩ := bind_eq_ok_iff.mp h
  have hnew : (TreeBuilder.new limits).Sourced qx [] :=
    ⟨rfl, TreeBuilder.holds_new _ limits⟩
  have hsourced := hnew.feedAll hb
  unfold TreeBuilder.finish at h
  split at h
  · cases h
  · split at h
    · cases h
    next root hroot =>
      obtain rfl := Except.ok.inj h
      exact hsourced.holds.root root hroot path d hd

/-- A stored value is the normalized one exactly where the value that was
written holds no literal tab, newline or carriage return. -/
theorem attributeValue_normalized_iff (resolves : qx.Resolves) {xml : Octets} {limits : XmlLimits}
    {doc : Document} (h : parseWithLimits qx xml limits = .ok doc) {path : ElementPath}
    {d : Element} (hd : doc.root.walk path = some d) :
    ∃ tag, (startTags (qx.readEvents (normalizeLineEndings xml)))[d.id]? = some tag ∧
      ReadFrom (fun raw value => attributeValue raw = some value ↔
        ∀ c ∈ raw, ¬ IsBreak c) tag d := by
  obtain ⟨tag, htag, hread⟩ := readFrom_startTag h hd
  refine ⟨tag, htag, hread.imp ?_⟩
  intro raw value hvalue
  exact readValue_toSpace_iff (resolves raw value hvalue)

end Document

/-! ## A tab as written -/

namespace Scanning

theorem readValue_of_unescapeFrom {name : Option Str} {raw value : Str}
    (h : unescapeFrom name raw = .ok value) : readValue id name raw = some value := by
  have htable : ∀ p ∈ references, referenced p.1 = some p.2 := by decide
  fun_induction unescapeFrom name raw generalizing value with
  | case1 =>
    obtain rfl := Except.ok.inj h
    rfl
  | case2 => cases h
  | case3 rest ih =>
    rw [readValue, if_pos rfl]
    exact ih h
  | case4 c rest hc ih =>
    obtain ⟨tail, htail, rfl⟩ := exists_of_map_ok h
    rw [readValue, if_neg hc, ih htail]
    rfl
  | case5 name rest d hd ih =>
    obtain ⟨tail, htail, rfl⟩ := exists_of_map_ok h
    rw [readValue, if_pos rfl, htable _ (Library.Association.mem_of_lookup hd), Option.bind_some,
      ih htail]
    rfl
  | case6 name rest hd => cases h
  | case7 name c rest hc ih =>
    rw [readValue, if_neg hc]
    exact ih h

theorem resolves : reader.Resolves := fun _ _ h => readValue_of_unescapeFrom h

end Scanning

namespace Document

/-- A document with a literal tab in an attribute value. -/
def tabbed : Str := "<a b=\"x\ty\"/>"

theorem exists_tabbed :
    ∃ doc, parseWithLimits Scanning.reader (Text.asBytes tabbed) .default = .ok doc ∧
      doc.root.id = 0 ∧ doc.root.attributes.map Attribute.value = [("x\ty" : Str)] := by
  have hdoc : (Scanning.parseText tabbed).toOption.map (fun doc =>
      decide (doc.root.id = 0 ∧ doc.root.attributes.map Attribute.value = [("x\ty" : Str)])) =
        some true := by
    decide +kernel
  rw [← Scanning.parse_asBytes (by decide)] at hdoc
  obtain ⟨doc, hparse, hroot⟩ := Option.map_eq_some_iff.mp hdoc
  exact ⟨doc, ok_of_toOption hparse, of_decide_eq_true hroot⟩

/-- The tab is stored as it is. -/
theorem tab_not_normalized :
    ∃ doc, parseWithLimits Scanning.reader (Text.asBytes tabbed) .default = .ok doc ∧
      ¬ ∃ tag, (startTags (Scanning.reader.readEvents
          (normalizeLineEndings (Text.asBytes tabbed))))[doc.root.id]? = some tag ∧
        ReadFrom (fun raw value => attributeValue raw = some value) tag doc.root := by
  obtain ⟨doc, hparse, hid, hvalues⟩ := exists_tabbed
  refine ⟨doc, hparse, ?_⟩
  rintro ⟨tag, htag, hread⟩
  rw [hid, normalizeLineEndings_of_notMem (Text.return_notMem_asBytes (by decide))] at htag
  simp only [Scanning.reader, Text.fromUtf8_asBytes] at htag
  have htags : (startTags ((Library.Markup.scanText tabbed).map Scanning.event))[0]? =
      some ⟨"a", [.ok ⟨"b", "x\ty"⟩]⟩ := rfl
  obtain rfl := Option.some.inj (htags.symm.trans htag)
  have hvalue := hread.attributes
  have hwritten : BytesStart.written ⟨"a", [.ok ⟨"b", "x\ty"⟩]⟩ = [⟨"b", "x\ty"⟩] := rfl
  rw [hwritten, List.filter_cons_of_pos (by decide), List.filter_nil] at hvalue
  obtain ⟨a, rest, hhead, hrest, hcons⟩ := List.forall₂_cons_left_iff.mp hvalue
  rw [hcons, List.map_cons] at hvalues
  rw [(List.cons.inj hvalues).1] at hhead
  exact absurd hhead.2 (by decide)

theorem attributeValue_normalized_iff_tabbed :
    ∃ doc tag, parseWithLimits Scanning.reader (Text.asBytes tabbed) .default = .ok doc ∧
      (startTags (Scanning.reader.readEvents
          (normalizeLineEndings (Text.asBytes tabbed))))[doc.root.id]? = some tag ∧
      ReadFrom (fun raw value => attributeValue raw = some value ↔ ∀ c ∈ raw, ¬ IsBreak c)
        tag doc.root := by
  obtain ⟨doc, hparse, -, -⟩ := exists_tabbed
  obtain ⟨tag, htag, hread⟩ := attributeValue_normalized_iff Scanning.resolves hparse
    (show doc.root.walk [] = some doc.root from rfl)
  exact ⟨doc, tag, hparse, htag, hread⟩

end Document

end Saml.Xml
