import Mathlib.Data.List.Basic
import Mathlib.Data.List.Infix

/-!
# Markup and its scanner

Trees of tags, characters, references and comments, their textual form, and the
tokens a reader reports for that form. A scanner recovers the tokens from the
text, so the text of a well-formed tree determines its tokens.
-/

namespace Saml.Library

/-- A tag: a name, and attributes with their values as written. -/
structure Tag where
  name : List Char
  attributes : List (List Char × List Char)
deriving DecidableEq

/-- A markup tree. References and attribute values are as written. -/
inductive Markup where
  | element (tag : Tag) (content : List Markup)
  | empty (tag : Tag)
  | char (c : Char)
  | ref (name : List Char)
  | comment (text : List Char)

/-- What a reader reports, piece by piece. -/
inductive Token where
  | opening (tag : Tag)
  | collapsed (tag : Tag)
  | closing (name : List Char)
  | chars (text : List Char)
  | ref (name : List Char)
  | comment (text : List Char)
  | invalid
deriving DecidableEq

namespace Markup

/-- Induction over a markup tree and the lists of nodes below it. -/
theorem induct {P : Markup → Prop} {Q : List Markup → Prop}
    (element : ∀ tag content, Q content → P (.element tag content))
    (empty : ∀ tag, P (.empty tag)) (char : ∀ c, P (.char c)) (ref : ∀ name, P (.ref name))
    (comment : ∀ text, P (.comment text)) (nil : Q [])
    (cons : ∀ m rest, P m → Q rest → Q (m :: rest)) :
    (∀ m, P m) ∧ ∀ ms, Q ms := by
  have key : ∀ m, P m := fun m =>
    @Markup.rec P Q element empty char ref comment nil cons m
  have all : ∀ ms, Q ms := by
    intro ms
    induction ms with
    | nil => exact nil
    | cons m rest ih => exact cons m rest (key m) ih
  exact ⟨key, all⟩

/-! ## Text -/

/-- One attribute as written, with its leading blank. -/
def renderAttribute (a : List Char × List Char) : List Char :=
  ' ' :: (a.1 ++ '=' :: '"' :: (a.2 ++ ['"']))

/-- The inside of a tag. -/
def renderTag (tag : Tag) : List Char :=
  tag.name ++ tag.attributes.flatMap renderAttribute

mutual

/-- The text of a markup tree. -/
def render : Markup → List Char
  | .element tag content =>
      '<' :: (renderTag tag ++ '>' :: (renderAll content ++ '<' :: '/' :: (tag.name ++ ['>'])))
  | .empty tag => '<' :: (renderTag tag ++ ['/', '>'])
  | .char c => [c]
  | .ref name => '&' :: (name ++ [';'])
  | .comment text => '<' :: '!' :: '-' :: '-' :: (text ++ ['-', '-', '>'])

/-- The text of a list of nodes. -/
def renderAll : List Markup → List Char
  | [] => []
  | m :: rest => render m ++ renderAll rest

end

mutual

/-- The tokens of a markup tree, one for each character. -/
def tokens : Markup → List Token
  | .element tag content => .opening tag :: (tokensAll content ++ [.closing tag.name])
  | .empty tag => [.collapsed tag]
  | .char c => [.chars [c]]
  | .ref name => [.ref name]
  | .comment text => [.comment text]

/-- The tokens of a list of nodes. -/
def tokensAll : List Markup → List Token
  | [] => []
  | m :: rest => tokens m ++ tokensAll rest

end

@[simp] theorem renderAll_nil : renderAll [] = [] := rfl

@[simp] theorem renderAll_cons (m : Markup) (rest : List Markup) :
    renderAll (m :: rest) = render m ++ renderAll rest := rfl

@[simp] theorem tokensAll_nil : tokensAll [] = [] := rfl

@[simp] theorem tokensAll_cons (m : Markup) (rest : List Markup) :
    tokensAll (m :: rest) = tokens m ++ tokensAll rest := rfl

theorem renderAll_append (ms ns : List Markup) :
    renderAll (ms ++ ns) = renderAll ms ++ renderAll ns := by
  induction ms with
  | nil => rfl
  | cons m rest ih => simp [ih]

theorem tokensAll_append (ms ns : List Markup) :
    tokensAll (ms ++ ns) = tokensAll ms ++ tokensAll ns := by
  induction ms with
  | nil => rfl
  | cons m rest ih => simp [ih]

/-! ## Well-formedness -/

/-- A character that can stand in a name. -/
def isNameChar (c : Char) : Bool :=
  !(c ∈ [' ', '\t', '\n', '\r', '<', '>', '/', '=', '"', '\'', '&', '!', '?', ';'])

/-- A name: not empty, and free of delimiters. -/
def IsName (s : List Char) : Prop := s ≠ [] ∧ ∀ c ∈ s, isNameChar c = true

/-- A character that can stand in a written attribute value. -/
def isValueChar (c : Char) : Bool := !(c ∈ ['"', '<', '\r'])

/-- A character that can stand between tags. -/
def isTextChar (c : Char) : Bool := !(c ∈ ['<', '&', '\r'])

/-- A tag with names for its keys and writable values. -/
structure TagWellFormed (tag : Tag) : Prop where
  name : IsName tag.name
  keys : ∀ a ∈ tag.attributes, IsName a.1
  values : ∀ a ∈ tag.attributes, ∀ c ∈ a.2, isValueChar c = true

/-- A comment without a double hyphen, that does not end in a hyphen. -/
structure CommentWellFormed (text : List Char) : Prop where
  noDouble : ¬ ['-', '-'] <:+: text
  last : text.getLast? ≠ some '-'
  noReturn : '\r' ∉ text

mutual

/-- A markup tree whose text can be read back. -/
def WellFormed : Markup → Prop
  | .element tag content => TagWellFormed tag ∧ AllWellFormed content
  | .empty tag => TagWellFormed tag
  | .char c => isTextChar c = true
  | .ref name => IsName name
  | .comment text => CommentWellFormed text

/-- Well-formedness of a list of nodes. -/
def AllWellFormed : List Markup → Prop
  | [] => True
  | m :: rest => WellFormed m ∧ AllWellFormed rest

end

theorem allWellFormed_append {ms ns : List Markup} :
    AllWellFormed (ms ++ ns) ↔ AllWellFormed ms ∧ AllWellFormed ns := by
  induction ms with
  | nil => simp [AllWellFormed]
  | cons m rest ih => simp [AllWellFormed, ih, and_assoc]

mutual

/-- A property of every tag of a tree. -/
def EveryTag (P : Tag → Prop) : Markup → Prop
  | .element tag content => P tag ∧ EveryTagIn P content
  | .empty tag => P tag
  | .char _ => True
  | .ref _ => True
  | .comment _ => True

/-- A property of every tag of a list of nodes. -/
def EveryTagIn (P : Tag → Prop) : List Markup → Prop
  | [] => True
  | m :: rest => EveryTag P m ∧ EveryTagIn P rest

end

theorem everyTagIn_append {P : Tag → Prop} {ms ns : List Markup} :
    EveryTagIn P (ms ++ ns) ↔ EveryTagIn P ms ∧ EveryTagIn P ns := by
  induction ms with
  | nil => simp [EveryTagIn]
  | cons m rest ih => simp [EveryTagIn, ih, and_assoc]

/-- A token that opens an element with the given tag. -/
def Opens (tag : Tag) (token : Token) : Prop := token = .opening tag ∨ token = .collapsed tag

/-- A property holds of every tag when it holds of every tag the tokens open. -/
theorem everyTag_iff {P : Tag → Prop} :
    (∀ m : Markup, EveryTag P m ↔ ∀ token ∈ tokens m, ∀ tag, Opens tag token → P tag) ∧
      ∀ ms : List Markup,
        EveryTagIn P ms ↔ ∀ token ∈ tokensAll ms, ∀ tag, Opens tag token → P tag := by
  apply induct
  case element =>
    intro tag content ih
    simp [EveryTag, tokens, Opens, ih, or_imp, forall_and, and_assoc]
  case empty => simp [EveryTag, tokens, Opens]
  case char => simp [EveryTag, tokens, Opens]
  case ref => simp [EveryTag, tokens, Opens]
  case comment => simp [EveryTag, tokens, Opens]
  case nil => simp [EveryTagIn]
  case cons =>
    intro m rest ihm ihrest
    simp [EveryTagIn, ihm, ihrest, or_imp, forall_and]

/-! ## Runs of characters -/

/-- A pending run of characters as a token, when there is one. -/
def flush : List Char → List Token
  | [] => []
  | text => [.chars text]

/-- Tokens with adjacent runs of characters joined; the last run is handed to a
continuation. -/
def mergeWith (next : List Char → List Token) : List Char → List Token → List Token
  | pending, [] => next pending
  | pending, .chars text :: rest => mergeWith next (pending ++ text) rest
  | pending, token :: rest => flush pending ++ token :: mergeWith next [] rest

/-- Tokens with adjacent runs of characters joined. -/
def merge (ts : List Token) : List Token := mergeWith flush [] ts

theorem mergeWith_append (next : List Char → List Token) (pending : List Char)
    (ts us : List Token) :
    mergeWith next pending (ts ++ us) = mergeWith (fun p => mergeWith next p us) pending ts := by
  induction ts generalizing pending with
  | nil => rfl
  | cons token rest ih =>
      cases token <;> simp [mergeWith, ih]

/-- Joining runs of characters keeps every token that opens an element. -/
theorem mem_mergeWith_opens {tag : Tag} {token : Token} (opens : Opens tag token)
    (pending : List Char) (ts : List Token) :
    token ∈ mergeWith flush pending ts ↔ token ∈ ts := by
  have hflush : ∀ p, token ∉ flush p := by
    intro p
    rcases opens with rfl | rfl <;> cases p <;> simp [flush]
  induction ts generalizing pending with
  | nil => simp [mergeWith, hflush]
  | cons first rest ih =>
      cases first with
      | chars text =>
          have hne : token ≠ .chars text := by
            rcases opens with rfl | rfl <;> simp
          simp [mergeWith, ih, hne]
      | _ => simp [mergeWith, ih, hflush]

/-! ## Scanner -/

/-- The state of the scanner, with what it has read of the current piece. -/
inductive Mode where
  | content (text : List Char)
  | angle
  | declaration
  | hyphen
  | comment (text : List Char)
  | closing (name : List Char)
  | name (name : List Char)
  | inTag (tag : Tag)
  | key (tag : Tag) (key : List Char)
  | equals (tag : Tag) (key : List Char)
  | value (tag : Tag) (key value : List Char)
  | slash (tag : Tag)
  | ref (name : List Char)
  | invalid

/-- A tag with one more attribute. -/
def Tag.add (tag : Tag) (key value : List Char) : Tag :=
  { tag with attributes := tag.attributes ++ [(key, value)] }

/-- A scanner step inside a tag. -/
def stepTag (tag : Tag) (c : Char) : Mode × List Token :=
  if c = ' ' then (.inTag tag, [])
  else if c = '/' then (.slash tag, [])
  else if c = '>' then (.content [], [.opening tag])
  else (.key tag [c], [])

/-- The scanner's reaction to one character. -/
def step : Mode → Char → Mode × List Token
  | .content text, c =>
      if c = '<' then (.angle, flush text)
      else if c = '&' then (.ref [], flush text)
      else (.content (text ++ [c]), [])
  | .angle, c =>
      if c = '/' then (.closing [], [])
      else if c = '!' then (.declaration, [])
      else if c = '?' then (.invalid, [.invalid])
      else (.name [c], [])
  | .declaration, c => if c = '-' then (.hyphen, []) else (.invalid, [.invalid])
  | .hyphen, c => if c = '-' then (.comment [], []) else (.invalid, [.invalid])
  | .comment text, c =>
      if c = '>' ∧ ['-', '-'] <:+ text then
        (.content [], [.comment text.dropLast.dropLast])
      else (.comment (text ++ [c]), [])
  | .closing name, c =>
      if c = '>' then (.content [], [.closing name]) else (.closing (name ++ [c]), [])
  | .name name, c =>
      if isNameChar c then (.name (name ++ [c]), []) else stepTag ⟨name, []⟩ c
  | .inTag tag, c => stepTag tag c
  | .key tag key, c =>
      if c = '=' then (.equals tag key, []) else (.key tag (key ++ [c]), [])
  | .equals tag key, c => if c = '"' then (.value tag key [], []) else (.invalid, [.invalid])
  | .value tag key value, c =>
      if c = '"' then (.inTag (Tag.add tag key value), []) else (.value tag key (value ++ [c]), [])
  | .slash tag, c =>
      if c = '>' then (.content [], [.collapsed tag]) else (.invalid, [.invalid])
  | .ref name, c =>
      if c = ';' then (.content [], [.ref name]) else (.ref (name ++ [c]), [])
  | .invalid, _ => (.invalid, [])

/-- What the scanner reports at the end of the text. -/
def finish : Mode → List Token
  | .content text => flush text
  | .invalid => []
  | _ => [.invalid]

/-- The tokens of a text, from a scanner state on. -/
def scan : Mode → List Char → List Token
  | mode, [] => finish mode
  | mode, c :: rest => (step mode c).2 ++ scan (step mode c).1 rest

theorem scan_cons {mode : Mode} {c : Char} (next : Mode) (out : List Token)
    (h : step mode c = (next, out)) (rest : List Char) :
    scan mode (c :: rest) = out ++ scan next rest := by
  rw [scan, h]

/-- Reading a stretch of characters that the scanner only collects. -/
theorem scan_collect (mode : List Char → Mode) (p : Char → Prop)
    (collects : ∀ text c, p c → step (mode text) c = (mode (text ++ [c]), []))
    {stretch : List Char} (h : ∀ c ∈ stretch, p c) (text rest : List Char) :
    scan (mode text) (stretch ++ rest) = scan (mode (text ++ stretch)) rest := by
  induction stretch generalizing text with
  | nil => simp
  | cons c stretch ih =>
      rw [List.cons_append, scan_cons _ _ (collects text c (h c List.mem_cons_self)),
        List.nil_append,
        ih fun d hd => h d (List.mem_cons_of_mem c hd)]
      simp

theorem ne_of_isNameChar {c : Char} (h : isNameChar c = true) (d : Char)
    (hd : d ∈ [' ', '\t', '\n', '\r', '<', '>', '/', '=', '"', '\'', '&', '!', '?', ';']) :
    c ≠ d := by
  rintro rfl
  simp [isNameChar, hd] at h

/-- Reading one attribute. -/
theorem scan_attribute {tag : Tag} {a : List Char × List Char} (key : IsName a.1)
    (value : ∀ c ∈ a.2, isValueChar c = true) (rest : List Char) :
    scan (.inTag tag) (renderAttribute a ++ rest) = scan (.inTag (Tag.add tag a.1 a.2)) rest := by
  rcases a with ⟨k, v⟩
  obtain ⟨hne, hchars⟩ := key
  cases k with
  | nil => exact absurd rfl hne
  | cons c k =>
      have hc := hchars c List.mem_cons_self
      have hk : ∀ d ∈ k, d ≠ '=' := fun d hd =>
        ne_of_isNameChar (hchars d (List.mem_cons_of_mem c hd)) '=' (by decide)
      have hv : ∀ d ∈ v, d ≠ '"' := by
        intro d hd
        have := value d hd
        rintro rfl
        simp [isValueChar] at this
      have hfirst : step (.inTag tag) c = (.key tag [c], []) := by
        simp [step, stepTag, ne_of_isNameChar hc ' ' (by decide),
          ne_of_isNameChar hc '/' (by decide), ne_of_isNameChar hc '>' (by decide)]
      have hblank : step (.inTag tag) ' ' = (.inTag tag, []) := rfl
      simp only [renderAttribute, List.cons_append, List.append_assoc, List.nil_append]
      rw [scan_cons _ _ hblank, scan_cons _ _ hfirst,
        scan_collect (Mode.key tag) (· ≠ '=')
          (fun text d hd => by simp [step, hd]) hk,
        scan_cons (.equals tag (c :: k)) [] (by simp [step]),
        scan_cons (.value tag (c :: k) []) [] rfl,
        scan_collect (Mode.value tag (c :: k)) (· ≠ '"')
          (fun text d hd => by simp [step, hd]) hv,
        scan_cons (.inTag (Tag.add tag (c :: k) v)) [] (by simp [step])]
      simp

theorem scan_attributes (tag : Tag) {attributes : List (List Char × List Char)}
    (keys : ∀ a ∈ attributes, IsName a.1)
    (values : ∀ a ∈ attributes, ∀ c ∈ a.2, isValueChar c = true) (rest : List Char) :
    scan (.inTag tag) (attributes.flatMap renderAttribute ++ rest) =
      scan (.inTag { tag with attributes := tag.attributes ++ attributes }) rest := by
  induction attributes generalizing tag with
  | nil => simp
  | cons a more ih =>
      rw [List.flatMap_cons, List.append_assoc,
        scan_attribute (keys a List.mem_cons_self) (values a List.mem_cons_self),
        ih _ (fun b hb => keys b (List.mem_cons_of_mem a hb))
          (fun b hb => values b (List.mem_cons_of_mem a hb))]
      simp [Tag.add]

/-- Reading the inside of a tag up to a character that ends it. -/
theorem scan_tag {tag : Tag} (wf : TagWellFormed tag) {c : Char} (ends : c = '/' ∨ c = '>')
    (rest : List Char) :
    scan .angle (renderTag tag ++ c :: rest) = scan (.inTag tag) (c :: rest) := by
  rcases tag with ⟨name, attributes⟩
  obtain ⟨hname, hkeys, hvalues⟩ := wf
  obtain ⟨hne, hchars⟩ := hname
  cases name with
  | nil => exact absurd rfl hne
  | cons first name =>
      have hfirst := hchars first List.mem_cons_self
      have hname : ∀ d ∈ name, isNameChar d = true := fun d hd =>
        hchars d (List.mem_cons_of_mem first hd)
      have hstart : step .angle first = (.name [first], []) := by
        simp [step, ne_of_isNameChar hfirst '/' (by decide),
          ne_of_isNameChar hfirst '!' (by decide),
          ne_of_isNameChar hfirst '?' (by decide)]
      simp only [renderTag, List.cons_append, List.append_assoc]
      rw [scan_cons _ _ hstart, List.nil_append,
        scan_collect Mode.name (isNameChar · = true)
          (fun text d hd => by simp [step, hd]) hname]
      -- The name ends at a blank or at the end of the tag.
      have hswitch : ∀ (d : Char) (tail : List Char), isNameChar d = false →
          scan (.name ([first] ++ name)) (d :: tail) =
            scan (.inTag ⟨first :: name, []⟩) (d :: tail) := by
        intro d tail hd
        rw [scan, scan]
        simp [step, hd]
      cases attributes with
      | nil =>
          rw [List.flatMap_nil, List.nil_append]
          refine hswitch c rest ?_
          rcases ends with rfl | rfl <;> decide
      | cons a more =>
          have hblank := hswitch ' ' (a.1 ++ '=' :: '"' :: (a.2 ++ ['"']) ++
            (more.flatMap renderAttribute ++ c :: rest)) (by decide)
          have hall := scan_attributes ⟨first :: name, []⟩ hkeys hvalues (c :: rest)
          simp only [List.flatMap_cons, renderAttribute, List.cons_append, List.append_assoc,
            List.nil_append] at hblank hall ⊢
          rw [hblank, hall]

/-- Reading a comment. -/
theorem scan_comment {text : List Char} (wf : CommentWellFormed text) (rest : List Char) :
    scan (.comment []) (text ++ '-' :: '-' :: '>' :: rest) =
      .comment text :: scan (.content []) rest := by
  have collects : ∀ done more : List Char, done ++ more = text →
      scan (.comment done) (more ++ '-' :: '-' :: '>' :: rest) =
        .comment text :: scan (.content []) rest := by
    intro done more
    induction more generalizing done with
    | nil =>
        intro h
        obtain rfl : done = text := by simpa using h
        have hhyphen : ∀ t : List Char, step (.comment t) '-' = (.comment (t ++ ['-']), []) := by
          intro t
          simp [step]
        have hend : step (.comment (done ++ ['-'] ++ ['-'])) '>' =
            (.content [], [.comment done]) := by
          simp [step]
        rw [List.nil_append, scan_cons _ _ (hhyphen done),
          scan_cons _ _ (hhyphen _), scan_cons _ _ hend]
        simp
    | cons c more ih =>
        intro h
        have hno : ¬ ['-', '-'] <:+ done := by
          rintro ⟨front, hfront⟩
          exact wf.noDouble ⟨front, c :: more, by rw [hfront, h]⟩
        have hstep : step (.comment done) c = (.comment (done ++ [c]), []) := by
          simp [step, hno]
        rw [List.cons_append, scan_cons _ _ hstep, List.nil_append]
        exact ih (done ++ [c]) (by simpa using h)
  exact collects [] text rfl

/-- Reading a closing tag. -/
theorem scan_closing {name : List Char} (wf : IsName name) (rest : List Char) :
    scan (.closing []) (name ++ '>' :: rest) = .closing name :: scan (.content []) rest := by
  have hname : ∀ d ∈ name, d ≠ '>' := fun d hd => ne_of_isNameChar (wf.2 d hd) '>' (by decide)
  rw [scan_collect Mode.closing (· ≠ '>')
      (fun text d hd => by simp [step, hd]) hname,
    scan_cons (.content []) [.closing ([] ++ name)] (by simp [step])]
  rfl

/-- Reading a reference. -/
theorem scan_ref {name : List Char} (wf : IsName name) (rest : List Char) :
    scan (.ref []) (name ++ ';' :: rest) = .ref name :: scan (.content []) rest := by
  have hname : ∀ d ∈ name, d ≠ ';' := fun d hd => ne_of_isNameChar (wf.2 d hd) ';' (by decide)
  rw [scan_collect Mode.ref (· ≠ ';')
      (fun text d hd => by simp [step, hd]) hname,
    scan_cons (.content []) [.ref ([] ++ name)] (by simp [step])]
  rfl

/-- The scanner reads the text of a well-formed tree as its tokens, joined with
the characters before and after it. -/
theorem scan_render :
    (∀ (m : Markup), WellFormed m → ∀ (pending rest : List Char),
      scan (.content pending) (render m ++ rest) =
        mergeWith (fun p => scan (.content p) rest) pending (tokens m)) ∧
    ∀ (ms : List Markup), AllWellFormed ms → ∀ (pending rest : List Char),
      scan (.content pending) (renderAll ms ++ rest) =
        mergeWith (fun p => scan (.content p) rest) pending (tokensAll ms) := by
  have hangle : ∀ pending : List Char, step (.content pending) '<' = (.angle, flush pending) :=
    fun _ => rfl
  apply induct
  case element =>
    intro tag content ih wf pending rest
    obtain ⟨htag, hcontent⟩ := wf
    simp only [render, tokens, List.cons_append, List.append_assoc, List.nil_append]
    rw [scan_cons _ _ (hangle pending), scan_tag htag (.inr rfl),
      scan_cons (.content []) [.opening tag] rfl,
      ih hcontent]
    simp only [mergeWith, mergeWith_append, List.cons_append, List.nil_append]
    congr 3
    funext p
    rw [scan_cons _ _ (hangle p), scan_cons (.closing []) [] rfl, List.nil_append,
      scan_closing htag.name]
  case empty =>
    intro tag wf pending rest
    simp only [render, tokens, List.cons_append, List.append_assoc, List.nil_append]
    rw [scan_cons _ _ (hangle pending), scan_tag wf (.inl rfl),
      scan_cons (.slash tag) [] rfl,
      scan_cons (.content []) [.collapsed tag] rfl]
    rfl
  case char =>
    intro c wf pending rest
    have hne : c ≠ '<' ∧ c ≠ '&' := by
      constructor <;> (rintro rfl; simp [WellFormed, isTextChar] at wf)
    have hstep : step (.content pending) c = (.content (pending ++ [c]), []) := by
      simp [step, hne]
    simp only [render, tokens, List.cons_append, List.nil_append]
    rw [scan_cons _ _ hstep]
    rfl
  case ref =>
    intro name wf pending rest
    simp only [render, tokens, List.cons_append, List.append_assoc, List.nil_append]
    rw [scan_cons (.ref []) (flush pending) (by simp [step]), scan_ref wf]
    rfl
  case comment =>
    intro text wf pending rest
    simp only [render, tokens, List.cons_append, List.append_assoc, List.nil_append]
    rw [scan_cons _ _ (hangle pending), scan_cons (.declaration) [] rfl,
      scan_cons (.hyphen) [] rfl,
      scan_cons (.comment []) [] rfl]
    simp only [List.nil_append]
    rw [scan_comment wf]
    rfl
  case nil =>
    intro _ pending rest
    rfl
  case cons =>
    intro m ms ihm ihms wf pending rest
    obtain ⟨hm, hms⟩ := wf
    rw [renderAll_cons, tokensAll_cons, List.append_assoc, ihm hm, mergeWith_append]
    congr 1
    funext p
    exact ihms hms p rest

/-- The tokens of a text. -/
def scanText (text : List Char) : List Token := scan (.content []) text

/-- Scanning inverts rendering. -/
theorem scanText_render {m : Markup} (wf : WellFormed m) :
    scanText (render m) = merge (tokens m) := by
  have h := scan_render.1 m wf [] []
  rw [List.append_nil] at h
  exact h

/-- The text of a well-formed tree has no carriage return. -/
theorem noReturn_render :
    (∀ m, WellFormed m → '\r' ∉ render m) ∧ ∀ ms, AllWellFormed ms → '\r' ∉ renderAll ms := by
  have hname : ∀ {s : List Char}, IsName s → '\r' ∉ s := fun hs hmem =>
    absurd (hs.2 _ hmem) (by decide)
  have htag : ∀ {tag : Tag}, TagWellFormed tag → '\r' ∉ renderTag tag := by
    intro tag wf hmem
    rcases List.mem_append.mp hmem with hmem | hmem
    · exact hname wf.name hmem
    · obtain ⟨a, ha, hmem⟩ := List.mem_flatMap.mp hmem
      simp only [renderAttribute, List.mem_cons, List.mem_append, List.not_mem_nil, or_false,
        Char.reduceEq, false_or] at hmem
      rcases hmem with hmem | hmem
      · exact hname (wf.keys a ha) hmem
      · exact absurd (wf.values a ha _ hmem) (by decide)
  apply induct
  case element =>
    intro tag content ih wf
    have := htag wf.1
    have := ih wf.2
    have := hname wf.1.name
    simp_all [render]
  case empty =>
    intro tag wf
    have := htag wf
    simp_all [render]
  case char =>
    intro c wf hmem
    obtain rfl : '\r' = c := by simpa [render] using hmem
    simp [WellFormed, isTextChar] at wf
  case ref =>
    intro name wf
    have := hname wf
    simp_all [render]
  case comment =>
    intro text wf
    have := wf.noReturn
    simp_all [render]
  case nil => simp
  case cons =>
    intro m ms ihm ihms wf
    have := ihm wf.1
    have := ihms wf.2
    simp_all

/-! ## Unique reading -/

/-- A token cut into one piece for each character. -/
def cut : Token → List Token
  | .chars text => text.map fun c => .chars [c]
  | token => [token]

theorem cut_flush (pending : List Char) :
    (flush pending).flatMap cut = pending.map fun c => Token.chars [c] := by
  cases pending <;> simp [flush, cut]

theorem cut_mergeWith (pending : List Char) (ts : List Token) :
    (mergeWith flush pending ts).flatMap cut =
      pending.map (fun c => Token.chars [c]) ++ ts.flatMap cut := by
  induction ts generalizing pending with
  | nil => simp [mergeWith, cut_flush]
  | cons token rest ih =>
      cases token <;> simp [mergeWith, ih, cut_flush, cut]

theorem cut_tokens :
    (∀ m : Markup, (tokens m).flatMap cut = tokens m) ∧
      ∀ ms : List Markup, (tokensAll ms).flatMap cut = tokensAll ms := by
  apply induct
  case element =>
    intro tag content ih
    simp [tokens, cut, ih]
  case empty => intro tag; rfl
  case char => intro c; rfl
  case ref => intro name; rfl
  case comment => intro text; rfl
  case nil => rfl
  case cons =>
    intro m rest ihm ihrest
    simp [ihm, ihrest]

/-- Joining runs of characters loses nothing of a tree. -/
theorem merge_tokens_injective {m n : Markup} (h : merge (tokens m) = merge (tokens n)) :
    tokens m = tokens n := by
  have hcut := congrArg (List.flatMap cut) h
  simpa only [merge, cut_mergeWith, List.map_nil, List.nil_append, cut_tokens.1] using hcut

/-- No tree starts with a closing token. -/
theorem tokens_ne_closing (m : Markup) (name : List Char) (r s : List Token) :
    tokens m ++ r ≠ .closing name :: s := by
  cases m <;> simp [tokens]

/-- The tokens of a tree are those of no other, whatever follows them. -/
theorem tokens_unique :
    (∀ (m n : Markup) (r s : List Token), tokens m ++ r = tokens n ++ s → m = n ∧ r = s) ∧
      ∀ (ms ns : List Markup) (name name' : List Char) (r s : List Token),
        tokensAll ms ++ .closing name :: r = tokensAll ns ++ .closing name' :: s →
          ms = ns ∧ r = s := by
  apply induct
  case element =>
    intro tag content ih n r s h
    cases n with
    | element tag' content' =>
        simp only [tokens, List.cons_append, List.append_assoc, List.nil_append,
          List.cons.injEq, Token.opening.injEq] at h
        obtain ⟨rfl, hrest⟩ := h
        obtain ⟨rfl, rfl⟩ := ih _ _ _ _ _ hrest
        exact ⟨rfl, rfl⟩
    | _ => simp [tokens] at h
  case empty =>
    intro tag n r s h
    cases n <;> simp_all [tokens]
  case char =>
    intro c n r s h
    cases n <;> simp_all [tokens]
  case ref =>
    intro name n r s h
    cases n <;> simp_all [tokens]
  case comment =>
    intro text n r s h
    cases n <;> simp_all [tokens]
  case nil =>
    intro ns name name' r s h
    cases ns with
    | nil =>
        simp only [tokensAll_nil, List.nil_append, List.cons.injEq] at h
        exact ⟨rfl, h.2⟩
    | cons n ns =>
        rw [tokensAll_cons, List.append_assoc] at h
        exact absurd h.symm (tokens_ne_closing n _ _ _)
  case cons =>
    intro m ms ihm ihms ns name name' r s h
    cases ns with
    | nil =>
        rw [tokensAll_cons, List.append_assoc] at h
        exact absurd h (tokens_ne_closing m _ _ _)
    | cons n ns =>
        simp only [tokensAll_cons, List.append_assoc] at h
        obtain ⟨rfl, htail⟩ := ihm _ _ _ h
        obtain ⟨rfl, rfl⟩ := ihms _ _ _ _ _ htail
        exact ⟨rfl, rfl⟩

/-- Two well-formed trees with one text are the same tree. -/
theorem render_injective {m n : Markup} (hm : WellFormed m) (hn : WellFormed n)
    (h : render m = render n) : m = n := by
  have htokens : merge (tokens m) = merge (tokens n) := by
    rw [← scanText_render hm, ← scanText_render hn, h]
  have happend : tokens m ++ [] = tokens n ++ [] := by
    rw [merge_tokens_injective htokens]
  exact (tokens_unique.1 m n [] [] happend).1

end Markup

end Saml.Library
