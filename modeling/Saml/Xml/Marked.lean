import Saml.Xml.Reader
import Saml.Xml.Accepted

/-!
# The markup an element is written as

The serializer puts out the text of a markup tree. When every name reads back
in its scope as the name it was written for, a reader takes that text apart
into the tokens of the tree.
-/

namespace Saml.Xml

open Library

/-! ## The markup -/

/-- The markup of one character of character data. -/
def textMarkup : Char → Markup
  | '&' => .ref "amp"
  | '<' => .ref "lt"
  | '>' => .ref "gt"
  | '\r' => .ref "#13"
  | c => .char c

/-- The name an element is written with. -/
def emittedName (nsStack : List NsLayer) (qname : QName) : Str :=
  qualifiedName (resolvePrefixForEmit qname.namespaceUri nsStack).toOption.join qname.localName

/-- The name an attribute is written with. -/
def emittedKey (nsStack : List NsLayer) (qname : QName) : Str :=
  qualifiedName (resolvePrefixForAttribute qname.namespaceUri nsStack).toOption.join
    qname.localName

/-- The declarations and attributes of an element by their written names, with
the values they stand for. -/
def writtenPairs (nsStack : List NsLayer) (e : Element) : List (Str × Str) :=
  e.namespacesDeclaredHere.map (fun d => (declName d.1, d.2)) ++
    e.attributes.map fun a => (emittedKey nsStack a.qname, a.value)

/-- The tag of an element below the given declarations. -/
def emittedTag (nsStack : List NsLayer) (e : Element) : Tag where
  name := emittedName (e.namespacesDeclaredHere :: nsStack) e.qname
  attributes := (writtenPairs (e.namespacesDeclaredHere :: nsStack) e).map fun p =>
    (p.1, attrEscaped p.2)

mutual

/-- The markup of an element below the given declarations. -/
def marked (nsStack : List NsLayer) : Element → Markup
  | ⟨qname, sourcePrefix, declared, attributes, children, id⟩ =>
      if children.isEmpty then
        .empty (emittedTag nsStack ⟨qname, sourcePrefix, declared, attributes, children, id⟩)
      else
        .element (emittedTag nsStack ⟨qname, sourcePrefix, declared, attributes, children, id⟩)
          (markedChildren (declared :: nsStack) children)

/-- The markup of a list of nodes. -/
def markedChildren (nsStack : List NsLayer) : List Node → List Markup
  | [] => []
  | .element e :: rest => marked nsStack e :: markedChildren nsStack rest
  | .text t :: rest => t.map textMarkup ++ markedChildren nsStack rest
  | .comment c :: rest => .comment c :: markedChildren nsStack rest

end

theorem render_textMarkup (c : Char) : Markup.render (textMarkup c) = textEscape c := by
  fun_cases textMarkup c with
  | case1 => rfl
  | case2 => rfl
  | case3 => rfl
  | case4 => rfl
  | case5 c hamp hlt hgt hcr => exact (textEscape.eq_5 c hamp hlt hgt hcr).symm

theorem renderAll_textMarkup (t : Str) :
    Markup.renderAll (t.map textMarkup) = textEscaped t := by
  induction t with
  | nil => rfl
  | cons c rest ih =>
      rw [List.map_cons, Markup.renderAll_cons, render_textMarkup, ih]
      rfl

theorem renderAttribute_eq_emitPair (name escaped : Str) :
    Markup.renderAttribute (name, escaped) = emitPair name escaped := by
  simp [emitPair, Markup.renderAttribute]

theorem toOption_ok_join {pfx : Option Str} {x : Result (Option Str)} (h : x = .ok pfx) :
    x.toOption.join = pfx := by
  rw [h]
  rfl

theorem emitAttribute_eq {nsStack : List NsLayer} {a : Attribute} {text : Str}
    (h : emitAttribute nsStack a = .ok text) :
    text = emitPair (emittedKey nsStack a.qname) (attrEscaped a.value) := by
  obtain ⟨pfx, hpfx, h⟩ := bind_eq_ok_iff.mp h
  obtain rfl := Except.ok.inj h
  rw [emittedKey, toOption_ok_join hpfx]

theorem flatten_emitAttributes {nsStack : List NsLayer} {attributes : List Attribute}
    {texts : List Str} (h : attributes.mapM (emitAttribute nsStack) = .ok texts) :
    texts.flatten = attributes.flatMap fun a =>
      emitPair (emittedKey nsStack a.qname) (attrEscaped a.value) := by
  have hall := mapM_eq_ok_iff.mp h
  clear h
  induction hall with
  | nil => rfl
  | cons hfirst _ ih => rw [List.flatten_cons, List.flatMap_cons, emitAttribute_eq hfirst, ih]

/-- The inside of a tag is its declarations followed by its attributes. -/
theorem renderTag_emittedTag (nsStack : List NsLayer) (e : Element) :
    Markup.renderTag (emittedTag nsStack e) =
      emittedName (e.namespacesDeclaredHere :: nsStack) e.qname ++
        (e.namespacesDeclaredHere.flatMap emitDecl ++ e.attributes.flatMap fun a =>
          emitPair (emittedKey (e.namespacesDeclaredHere :: nsStack) a.qname)
            (attrEscaped a.value)) := by
  simp only [Markup.renderTag, emittedTag, writtenPairs, List.map_append, List.map_map,
    List.flatMap_append, List.flatMap_map, Function.comp_def, renderAttribute_eq_emitPair]
  rfl

/-- What the serializer puts out is the text of the markup. -/
theorem render_marked :
    (∀ (e : Element) (nsStack : List NsLayer) (text : Str),
      emitElementInner nsStack e = .ok text → Markup.render (marked nsStack e) = text) ∧
    ∀ (nodes : List Node) (nsStack : List NsLayer) (text : Str),
      emitChildren nsStack nodes = .ok text →
        Markup.renderAll (markedChildren nsStack nodes) = text := by
  apply Element.induct
  case mk =>
    rintro ⟨qname, sourcePrefix, declared, attributes, children, id⟩ ih nsStack text h
    rw [emitElementInner] at h
    obtain ⟨pfx, hpfx, h⟩ := bind_eq_ok_iff.mp h
    obtain ⟨attrs, hattrs, h⟩ := bind_eq_ok_iff.mp h
    have htag := renderTag_emittedTag nsStack
      ⟨qname, sourcePrefix, declared, attributes, children, id⟩
    have hname : emittedName (declared :: nsStack) qname = qualifiedName pfx qname.localName := by
      rw [emittedName, toOption_ok_join hpfx]
    dsimp only at htag
    rw [hname, ← flatten_emitAttributes hattrs] at htag
    rw [marked]
    by_cases hempty : children.isEmpty = true
    · rw [if_pos hempty] at h ⊢
      obtain rfl := Except.ok.inj h
      simp [Markup.render, htag]
    · rw [if_neg hempty] at h ⊢
      obtain ⟨body, hbody, h⟩ := bind_eq_ok_iff.mp h
      obtain rfl := Except.ok.inj h
      have hclosing : (emittedTag nsStack
          ⟨qname, sourcePrefix, declared, attributes, children, id⟩).name =
            qualifiedName pfx qname.localName := hname
      simp [Markup.render, htag, hclosing, ih _ _ hbody]
  case nil =>
    intro nsStack text h
    rw [emitChildren] at h
    obtain rfl := Except.ok.inj h
    rw [markedChildren]
    rfl
  case element =>
    intro e rest he hrest nsStack text h
    rw [emitChildren, emitNode] at h
    obtain ⟨first, hfirst, h⟩ := bind_eq_ok_iff.mp h
    obtain ⟨others, hothers, h⟩ := bind_eq_ok_iff.mp h
    obtain rfl := Except.ok.inj h
    rw [markedChildren, Markup.renderAll_cons, he _ _ hfirst, hrest _ _ hothers]
  case text =>
    intro t rest hrest nsStack text h
    rw [emitChildren, emitNode, ok_bind] at h
    obtain ⟨others, hothers, h⟩ := bind_eq_ok_iff.mp h
    obtain rfl := Except.ok.inj h
    rw [markedChildren, Markup.renderAll_append, renderAll_textMarkup, hrest _ _ hothers]
  case comment =>
    intro c rest hrest nsStack text h
    rw [emitChildren, emitNode] at h
    obtain ⟨first, hfirst, h⟩ := bind_eq_ok_iff.mp h
    obtain ⟨_, hfirst⟩ := ite_error_eq_ok_iff.mp hfirst
    obtain rfl := Except.ok.inj hfirst
    obtain ⟨others, hothers, h⟩ := bind_eq_ok_iff.mp h
    obtain rfl := Except.ok.inj h
    rw [markedChildren, Markup.renderAll_cons, hrest _ _ hothers]
    simp [Markup.render]

/-! ## Names that read back -/

/-- The written names of an element read back, below the given declarations,
as the names they were written for; its comments can be written. -/
structure WritesBack (nsStack : List NsLayer) (e : Element) : Prop where
  name : isQName (emittedTag nsStack e).name = true
  keys : ∀ p ∈ (emittedTag nsStack e).attributes, isQName p.1 = true
  distinct : ((emittedTag nsStack e).attributes.map Prod.fst).Nodup
  resolves : resolveQName (emittedTag nsStack e).name (e.namespacesDeclaredHere :: nsStack) false =
    .ok e.qname
  attributes : ∀ a ∈ e.attributes,
    QxQName.asNamespaceBinding (emittedKey (e.namespacesDeclaredHere :: nsStack) a.qname) = none ∧
      resolveQName (emittedKey (e.namespacesDeclaredHere :: nsStack) a.qname)
        (e.namespacesDeclaredHere :: nsStack) true = .ok a.qname
  comments : ∀ c, Node.comment c ∈ e.children → Markup.CommentWellFormed c

theorem isValueChar_attrEscape (d : Char) : ∀ c ∈ attrEscape d, Markup.isValueChar c = true := by
  fun_cases attrEscape d with
  | case8 c hamp hlt hgt hquot htab hnl hcr =>
      intro d hd
      obtain rfl := List.mem_singleton.mp hd
      simpa [Markup.isValueChar] using ⟨hquot, hlt, hcr⟩
  | _ => decide

theorem isName_of_isQName {name : Str} (h : isQName name = true) : Markup.IsName name := by
  simp only [isQName, Bool.and_eq_true] at h
  have hlocal := IsNcName.isName h.1
  rw [← qualifiedName_decompose name]
  cases hp : (QxQName.decompose name).2 with
  | none => exact hlocal
  | some p =>
      have hpre := IsNcName.isName (s := p) (by simpa [hp] using h.2)
      refine ⟨by simp [qualifiedName], ?_⟩
      intro c hc
      rcases List.mem_append.mp hc with hc | hc
      · exact hpre.2 c hc
      · rcases List.mem_cons.mp hc with rfl | hc
        · decide
        · exact hlocal.2 c hc

theorem tagWellFormed_emittedTag {nsStack : List NsLayer} {e : Element}
    (h : WritesBack nsStack e) : Markup.TagWellFormed (emittedTag nsStack e) := by
  refine ⟨isName_of_isQName h.name, fun p hp => isName_of_isQName (h.keys p hp), ?_⟩
  intro p hp
  obtain ⟨q, -, rfl⟩ := List.mem_map.mp hp
  intro c hc
  obtain ⟨d, -, hd⟩ := List.mem_flatMap.mp hc
  exact isValueChar_attrEscape d c hd

theorem wellFormed_textMarkup (c : Char) : Markup.WellFormed (textMarkup c) := by
  fun_cases textMarkup c with
  | case5 c hamp hlt hgt hcr => simpa [Markup.WellFormed, Markup.isTextChar] using ⟨hlt, hamp, hcr⟩
  | _ => exact ⟨by decide, by decide⟩

theorem allWellFormed_textMarkup (t : Str) : Markup.AllWellFormed (t.map textMarkup) := by
  induction t with
  | nil => trivial
  | cons c rest ih => exact ⟨wellFormed_textMarkup c, ih⟩

/-- The tags of the markup are those the elements are written with. -/
theorem everyTag_textMarkup {P : Tag → Prop} (t : Str) :
    Markup.EveryTagIn P (t.map textMarkup) := by
  induction t with
  | nil => trivial
  | cons c rest ih =>
      refine ⟨?_, ih⟩
      fun_cases textMarkup c <;> trivial

theorem everyTag_marked {P : Tag → Prop} :
    (∀ (e : Element) (nsStack : List NsLayer),
      Scoped (fun scope d => P (emittedTag scope d)) nsStack e →
        Markup.EveryTag P (marked nsStack e)) ∧
    ∀ (nodes : List Node) (nsStack : List NsLayer),
      (∀ child, Node.element child ∈ nodes →
        Scoped (fun scope d => P (emittedTag scope d)) nsStack child) →
      Markup.EveryTagIn P (markedChildren nsStack nodes) := by
  apply Element.induct
  case mk =>
    rintro ⟨qname, sourcePrefix, declared, attributes, children, id⟩ ih nsStack h
    obtain ⟨hself, hbelow⟩ := scoped_iff.mp h
    rw [marked]
    split
    · exact hself
    · refine ⟨hself, ih _ ?_⟩
      intro child hchild
      exact hbelow child (ElementOf.mem_childElements.mpr hchild)
  case nil =>
    intro nsStack _
    rw [markedChildren]
    trivial
  case element =>
    intro e rest he hrest nsStack h
    rw [markedChildren]
    exact ⟨he _ (h e List.mem_cons_self),
      hrest _ fun child hchild => h child (List.mem_cons_of_mem _ hchild)⟩
  case text =>
    intro t rest hrest nsStack h
    rw [markedChildren, Markup.everyTagIn_append]
    exact ⟨everyTag_textMarkup t,
      hrest _ fun child hchild => h child (List.mem_cons_of_mem _ hchild)⟩
  case comment =>
    intro c rest hrest nsStack h
    rw [markedChildren]
    exact ⟨trivial, hrest _ fun child hchild => h child (List.mem_cons_of_mem _ hchild)⟩

theorem wellFormed_marked :
    (∀ (e : Element) (nsStack : List NsLayer), Scoped WritesBack nsStack e →
      Markup.WellFormed (marked nsStack e)) ∧
    ∀ (nodes : List Node) (nsStack : List NsLayer),
      (∀ child, Node.element child ∈ nodes → Scoped WritesBack nsStack child) →
      (∀ c, Node.comment c ∈ nodes → Markup.CommentWellFormed c) →
      Markup.AllWellFormed (markedChildren nsStack nodes) := by
  apply Element.induct
  case mk =>
    rintro ⟨qname, sourcePrefix, declared, attributes, children, id⟩ ih nsStack h
    obtain ⟨hself, hbelow⟩ := scoped_iff.mp h
    rw [marked]
    split
    · exact tagWellFormed_emittedTag hself
    · refine ⟨tagWellFormed_emittedTag hself, ih _ ?_ hself.comments⟩
      intro child hchild
      exact hbelow child (ElementOf.mem_childElements.mpr hchild)
  case nil =>
    intro nsStack _ _
    rw [markedChildren]
    trivial
  case element =>
    intro e rest he hrest nsStack h hcomments
    rw [markedChildren]
    exact ⟨he _ (h e List.mem_cons_self),
      hrest _ (fun child hchild => h child (List.mem_cons_of_mem _ hchild))
        fun c hc => hcomments c (List.mem_cons_of_mem _ hc)⟩
  case text =>
    intro t rest hrest nsStack h hcomments
    rw [markedChildren, Markup.allWellFormed_append]
    exact ⟨allWellFormed_textMarkup t,
      hrest _ (fun child hchild => h child (List.mem_cons_of_mem _ hchild))
        fun c hc => hcomments c (List.mem_cons_of_mem _ hc)⟩
  case comment =>
    intro c rest hrest nsStack h hcomments
    rw [markedChildren]
    exact ⟨hcomments c List.mem_cons_self,
      hrest _ (fun child hchild => h child (List.mem_cons_of_mem _ hchild))
        fun c hc => hcomments c (List.mem_cons_of_mem _ hc)⟩

/-- A property that follows element by element follows for the tree. -/
theorem Scoped.imp {P Q : List NsLayer → Element → Prop} {scope : List NsLayer} {e : Element}
    (h : Scoped P scope e) (himp : ∀ scope e, P scope e → Q scope e) : Scoped Q scope e :=
  fun path d hd => himp _ _ (h path d hd)

/-- A reader takes the text of a tree that writes back apart into its tokens. -/
theorem readEvents_emitted {qx : QuickXml} (lawful : qx.Lawful) {root : Element} {text : Str}
    (hemit : emitElement root = .ok text) (hback : Scoped WritesBack [] root) :
    qx.readEvents (Text.asBytes text) =
        (Markup.merge (Markup.tokens (marked [] root))).map eventOf ∧
      '\r' ∉ text := by
  have hrender := render_marked.1 root [] text hemit
  have hwf := wellFormed_marked.1 root [] hback
  have hroot : IsRoot (marked [] root) := by
    obtain ⟨qname, sourcePrefix, declared, attributes, children, id⟩ := root
    rw [marked]
    split <;> trivial
  have hnamed : Markup.EveryTag TagNamed (marked [] root) :=
    everyTag_marked.1 root [] (hback.imp fun _ _ h => ⟨h.name, h.keys⟩)
  have hdistinct : Markup.EveryTag TagDistinct (marked [] root) :=
    everyTag_marked.1 root [] (hback.imp fun _ _ h => h.distinct)
  rw [← hrender]
  exact ⟨lawful.reads _ ⟨hroot, hwf, hnamed⟩ hdistinct, Markup.noReturn_render.1 _ hwf⟩

end Saml.Xml
