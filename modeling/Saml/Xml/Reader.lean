import Saml.Library.Markup
import Saml.Xml.Parse

/-!
# What the parser relies on from the reader

The documented behaviour of the event reader and of its unescaper, stated for
the text of markup trees, and a scanning reader that behaves so.
-/

namespace Saml.Xml

open Library

/-! ## Line endings -/

/-- Normalization leaves octets without a carriage return alone. -/
theorem normalizeLineEndings_of_notMem {octets : Octets} (h : (13 : UInt8) ∉ octets) :
    normalizeLineEndings octets = octets := by
  induction octets with
  | nil => rfl
  | cons b rest ih =>
      rw [List.mem_cons, not_or] at h
      have hne : ¬ b = 13 := Ne.symm h.1
      simp [normalizeLineEndings, hne, ih h.2]

/-! ## Names -/

/-- A name without a colon: not empty, and free of delimiters. -/
def isNcName (s : Str) : Bool := !s.isEmpty && s.all fun c => Markup.isNameChar c && c != ':'

/-- A qualified name: a local name, with or without a prefix. -/
def isQName (s : Str) : Bool :=
  let (loc, pfx) := QxQName.decompose s
  isNcName loc && pfx.all isNcName

theorem isNcName_iff {s : Str} :
    isNcName s = true ↔ s ≠ [] ∧ ∀ c ∈ s, Markup.isNameChar c = true ∧ c ≠ ':' := by
  simp [isNcName]

theorem IsNcName.isName {s : Str} (h : isNcName s = true) : Markup.IsName s := by
  obtain ⟨hne, hall⟩ := isNcName_iff.mp h
  exact ⟨hne, fun c hc => (hall c hc).1⟩

theorem IsNcName.colon {s : Str} (h : isNcName s = true) : ':' ∉ s := fun hmem =>
  ((isNcName_iff.mp h).2 _ hmem).2 rfl

/-! ## Events -/

/-- A written attribute as the reader hands it out. -/
def rawAttribute (a : Str × Str) : Except Str RawAttribute := .ok ⟨a.1, a.2⟩

/-- The start tag the reader reports for a tag with distinct keys. -/
def startOf (tag : Tag) : BytesStart := ⟨tag.name, tag.attributes.map rawAttribute⟩

/-- The event the reader reports for a token. -/
def eventOf : Token → Except Str Event
  | .opening tag => .ok (.start (startOf tag))
  | .collapsed tag => .ok (.empty (startOf tag))
  | .closing name => .ok (.endTag name)
  | .chars text => .ok (.text text)
  | .ref name => .ok (.generalRef name)
  | .comment text => .ok (.comment text)
  | .invalid => .error "ill-formed markup"

/-- The keys of a tag are distinct. -/
def TagDistinct (tag : Tag) : Prop := (tag.attributes.map Prod.fst).Nodup

/-- The keys and the name of a tag are qualified names. -/
def TagNamed (tag : Tag) : Prop :=
  isQName tag.name = true ∧ ∀ a ∈ tag.attributes, isQName a.1 = true

/-- A tree that can stand for a document. -/
def IsRoot : Markup → Prop
  | .element _ _ => True
  | .empty _ => True
  | _ => False

/-- A document the reader takes apart: well-formed, with qualified names. -/
structure Readable (m : Markup) : Prop where
  root : IsRoot m
  wellFormed : Markup.WellFormed m
  named : Markup.EveryTag TagNamed m

/-- The references the unescaper resolves, with the characters they stand for. -/
def references : List (Str × Char) :=
  [("amp", '&'), ("lt", '<'), ("gt", '>'), ("quot", '"'), ("apos", '\''),
    ("#9", '\t'), ("#10", '\n'), ("#13", '\r'), ("#x9", '\t'), ("#xA", '\n'), ("#xD", '\r')]

/-- A start tag among the events of a reader. -/
def Reports (events : List (Except Str Event)) (s : BytesStart) : Prop :=
  .ok (.start s) ∈ events ∨ .ok (.empty s) ∈ events

/-- The behaviour the parser relies on: the reader reports the pieces of
well-formed markup in order, refuses a repeated key, and hands out qualified
names; the unescaper resolves references and keeps other characters. -/
structure QuickXml.Lawful (qx : QuickXml) : Prop where
  reads : ∀ m, Readable m → Markup.EveryTag TagDistinct m →
    qx.readEvents (Text.asBytes (Markup.render m)) =
      (Markup.merge (Markup.tokens m)).map eventOf
  repeated : ∀ m, Readable m → ¬ Markup.EveryTag TagDistinct m →
    ∃ s, Reports (qx.readEvents (Text.asBytes (Markup.render m))) s ∧ ∃ e, .error e ∈ s.attributes
  names : ∀ octets s, Reports (qx.readEvents octets) s →
    isQName s.name = true ∧ ∀ a, .ok a ∈ s.attributes → isQName a.key = true
  unescape_nil : qx.unescape [] = .ok []
  unescape_char : ∀ c s v, c ≠ '&' → qx.unescape s = .ok v → qx.unescape (c :: s) = .ok (c :: v)
  unescape_ref : ∀ name c s v, (name, c) ∈ references → qx.unescape s = .ok v →
    qx.unescape ('&' :: (name ++ ';' :: s)) = .ok (c :: v)

/-! ## A scanning reader -/

namespace Scanning

/-- The attribute iterator: a key that repeats an earlier one is an error. -/
def checkAttributes : List Str → List (Str × Str) → List (Except Str RawAttribute)
  | _, [] => []
  | seen, a :: rest =>
      if a.1 ∈ seen then .error "duplicated attribute" :: checkAttributes seen rest
      else rawAttribute a :: checkAttributes (a.1 :: seen) rest

instance (tag : Tag) : Decidable (TagNamed tag) := instDecidableAnd

/-- The start tag of a tag. -/
def start (tag : Tag) : BytesStart := ⟨tag.name, checkAttributes [] tag.attributes⟩

/-- The event of a token. -/
def event : Token → Except Str Event
  | .opening tag => if TagNamed tag then .ok (.start (start tag)) else .error "ill-formed name"
  | .collapsed tag => if TagNamed tag then .ok (.empty (start tag)) else .error "ill-formed name"
  | token => eventOf token

/-- Resolve references; the first argument is the reference being read. -/
def unescapeFrom : Option Str → Str → Except Str Str
  | none, [] => .ok []
  | some _, [] => .error "unterminated reference"
  | none, c :: rest =>
      if c = '&' then unescapeFrom (some []) rest else (unescapeFrom none rest).map (c :: ·)
  | some name, c :: rest =>
      if c = ';' then
        match references.lookup name with
        | some d => (unescapeFrom none rest).map (d :: ·)
        | none => .error "unrecognized reference"
      else unescapeFrom (some (name ++ [c])) rest

/-- The scanning reader. -/
def reader : QuickXml where
  readEvents octets :=
    match Text.fromUtf8 octets with
    | some text => (Markup.scanText text).map event
    | none => [.error "not UTF-8"]
  unescape := unescapeFrom none

theorem checkAttributes_nodup {attributes : List (Str × Str)} {seen : List Str}
    (nodup : (attributes.map Prod.fst).Nodup) (fresh : ∀ a ∈ attributes, a.1 ∉ seen) :
    checkAttributes seen attributes = attributes.map rawAttribute := by
  induction attributes generalizing seen with
  | nil => rfl
  | cons a rest ih =>
      rw [List.map_cons, List.nodup_cons] at nodup
      rw [checkAttributes, if_neg (fresh a List.mem_cons_self), List.map_cons,
        ih nodup.2]
      intro b hb
      rw [List.mem_cons, not_or]
      refine ⟨?_, fresh b (List.mem_cons_of_mem a hb)⟩
      intro heq
      exact nodup.1 (List.mem_map.mpr ⟨b, hb, heq⟩)

theorem checkAttributes_repeated {attributes : List (Str × Str)} {seen : List Str}
    (noErrors : ∀ e, .error e ∉ checkAttributes seen attributes) :
    (attributes.map Prod.fst).Nodup ∧ ∀ a ∈ attributes, a.1 ∉ seen := by
  induction attributes generalizing seen with
  | nil => simp
  | cons a rest ih =>
      rw [checkAttributes] at noErrors
      by_cases hseen : a.1 ∈ seen
      · rw [if_pos hseen] at noErrors
        exact absurd List.mem_cons_self (noErrors _)
      · rw [if_neg hseen] at noErrors
        obtain ⟨hnodup, hfresh⟩ := ih fun e he => noErrors e (List.mem_cons_of_mem _ he)
        refine ⟨?_, ?_⟩
        · rw [List.map_cons, List.nodup_cons]
          refine ⟨?_, hnodup⟩
          rintro hmem
          obtain ⟨b, hb, heq⟩ := List.mem_map.mp hmem
          exact hfresh b hb (heq ▸ List.mem_cons_self)
        · intro b hb
          rcases List.mem_cons.mp hb with rfl | hb
          · exact hseen
          · exact fun h => hfresh b hb (List.mem_cons_of_mem _ h)

theorem mem_checkAttributes {attributes : List (Str × Str)} {seen : List Str} {a : RawAttribute}
    (h : .ok a ∈ checkAttributes seen attributes) : ∃ b ∈ attributes, b.1 = a.key := by
  induction attributes generalizing seen with
  | nil => cases h
  | cons b rest ih =>
      rw [checkAttributes] at h
      split at h
      · obtain ⟨c, hc, hkey⟩ := ih (by simpa using h)
        exact ⟨c, List.mem_cons_of_mem b hc, hkey⟩
      · rcases List.mem_cons.mp h with heq | h
        · obtain rfl := Except.ok.inj heq
          exact ⟨b, List.mem_cons_self, rfl⟩
        · obtain ⟨c, hc, hkey⟩ := ih h
          exact ⟨c, List.mem_cons_of_mem b hc, hkey⟩

theorem readEvents_render {m : Markup} (wf : Markup.WellFormed m) :
    reader.readEvents (Text.asBytes (Markup.render m)) =
      (Markup.merge (Markup.tokens m)).map event := by
  simp only [reader, Text.fromUtf8_asBytes, Markup.scanText_render wf]

/-- A reported start tag comes from a token with qualified names. -/
theorem reports_event {ts : List Token} {s : BytesStart} (h : Reports (ts.map event) s) :
    ∃ token ∈ ts, ∃ tag, Markup.Opens tag token ∧ TagNamed tag ∧ s = start tag := by
  have key : ∀ token, event token = .ok (.start s) ∨ event token = .ok (.empty s) →
      ∃ tag, Markup.Opens tag token ∧ TagNamed tag ∧ s = start tag := by
    intro token htoken
    cases token with
    | opening tag =>
        by_cases hnamed : TagNamed tag
        · simp only [event, if_pos hnamed] at htoken
          exact ⟨tag, .inl rfl, hnamed, by simpa [eq_comm] using htoken⟩
        · simp [event, hnamed] at htoken
    | collapsed tag =>
        by_cases hnamed : TagNamed tag
        · simp only [event, if_pos hnamed] at htoken
          exact ⟨tag, .inr rfl, hnamed, by simpa [eq_comm] using htoken⟩
        · simp [event, hnamed] at htoken
    | _ => simp [event, eventOf] at htoken
  rcases h with h | h
  · obtain ⟨token, hmem, heq⟩ := List.mem_map.mp h
    exact ⟨token, hmem, key token (.inl heq)⟩
  · obtain ⟨token, hmem, heq⟩ := List.mem_map.mp h
    exact ⟨token, hmem, key token (.inr heq)⟩

theorem unescapeFrom_name {acc name : Str} (h : ';' ∉ name) (s : Str) :
    unescapeFrom (some acc) (name ++ ';' :: s) =
      unescapeFrom (some (acc ++ name)) (';' :: s) := by
  induction name generalizing acc with
  | nil => simp
  | cons c rest ih =>
      rw [List.mem_cons, not_or] at h
      rw [List.cons_append, unescapeFrom, if_neg (Ne.symm h.1), ih h.2]
      simp

/-- The scanning reader behaves as the parser relies on. -/
theorem lawful : reader.Lawful where
  reads := by
    intro m readable distinct
    rw [readEvents_render readable.wellFormed]
    refine List.map_congr_left fun token htoken => ?_
    have hnamed := Markup.everyTag_iff.1 m |>.mp readable.named
    have hdistinct := Markup.everyTag_iff.1 m |>.mp distinct
    have tags : ∀ tag, Markup.Opens tag token →
        TagNamed tag ∧ start tag = startOf tag := by
      intro tag hopens
      have hmem := (Markup.mem_mergeWith_opens hopens [] (Markup.tokens m)).mp htoken
      refine ⟨hnamed token hmem tag hopens, ?_⟩
      rw [start, startOf, checkAttributes_nodup (hdistinct token hmem tag hopens) (by simp)]
    cases token with
    | opening tag =>
        obtain ⟨hn, hs⟩ := tags tag (.inl rfl)
        simp only [event, eventOf, if_pos hn, hs]
    | collapsed tag =>
        obtain ⟨hn, hs⟩ := tags tag (.inr rfl)
        simp only [event, eventOf, if_pos hn, hs]
    | _ => rfl
  repeated := by
    intro m readable hrepeated
    rw [readEvents_render readable.wellFormed]
    rw [Markup.everyTag_iff.1 m] at hrepeated
    push Not at hrepeated
    obtain ⟨token, hmem, tag, hopens, hdup⟩ := hrepeated
    have hnamed := (Markup.everyTag_iff.1 m).mp readable.named token hmem tag hopens
    have hmerged := (Markup.mem_mergeWith_opens hopens [] (Markup.tokens m)).mpr hmem
    have hevent : Reports ((Markup.merge (Markup.tokens m)).map event) (start tag) := by
      rcases hopens with rfl | rfl
      · exact .inl (List.mem_map.mpr ⟨_, hmerged, by rw [event, if_pos hnamed]⟩)
      · exact .inr (List.mem_map.mpr ⟨_, hmerged, by rw [event, if_pos hnamed]⟩)
    refine ⟨start tag, hevent, ?_⟩
    by_contra hnone
    push Not at hnone
    exact hdup (checkAttributes_repeated hnone).1
  names := by
    intro octets s hreports
    simp only [reader] at hreports
    cases htext : Text.fromUtf8 octets with
    | none => simp [htext, Reports] at hreports
    | some text =>
        rw [htext] at hreports
        obtain ⟨_, _, tag, _, hnamed, rfl⟩ := reports_event hreports
        refine ⟨hnamed.1, fun a ha => ?_⟩
        obtain ⟨b, hb, hkey⟩ := mem_checkAttributes ha
        exact hkey ▸ hnamed.2 b hb
  unescape_nil := rfl
  unescape_char := by
    intro c s v hc hs
    change unescapeFrom none (c :: s) = _
    have hs' : unescapeFrom none s = .ok v := hs
    rw [unescapeFrom, if_neg hc, hs']
    rfl
  unescape_ref := by
    intro name c s v hmem hs
    have hs' : unescapeFrom none s = .ok v := hs
    have htable : ∀ p ∈ references, ';' ∉ p.1 ∧ references.lookup p.1 = some p.2 := by decide
    obtain ⟨hfree, hlookup⟩ := htable _ hmem
    change unescapeFrom none ('&' :: (name ++ ';' :: s)) = _
    rw [unescapeFrom, if_pos rfl, unescapeFrom_name hfree, unescapeFrom, if_pos rfl,
      List.nil_append, hlookup]
    simp only [hs']
    rfl

/-- Parsing a text through the scanning reader, without the detour over its
octets. -/
def parseText (text : Str) : Result Document := do
  let b ← (TreeBuilder.new .default).feedAll reader ((Markup.scanText text).map event)
  b.finish

theorem parse_asBytes {text : Str} (h : '\r' ∉ text) :
    Document.parse reader (Text.asBytes text) = parseText text := by
  rw [Document.parse, Document.parseWithLimits,
    normalizeLineEndings_of_notMem (Text.return_notMem_asBytes h)]
  simp only [reader, Text.fromUtf8_asBytes, parseText]

end Scanning

end Saml.Xml
