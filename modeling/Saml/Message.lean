import Saml.Idp.Logout
import Saml.Response.Accepted

/-!
# Protocol messages

A request or a logout message is a root whose first child is its issuer. Written,
signed and parsed again it is read as it was built, and the signature verifies.
-/

namespace Saml

open Xml Crypto Dsig Response Logout

variable {crypto : Primitives} {qx : QuickXml}

/-! ## Optional attributes -/

/-- Optional attributes in order. -/
def withAttributes (e : Element) (attrs : List (Str × Option Str)) : Element :=
  attrs.foldl (fun e a => withOptionalAttribute e a.1 a.2) e

/-- The first value that is given for a name. -/
def given (attrs : List (Str × Option Str)) (loc : Str) : Option Str :=
  attrs.findSome? fun a => if a.1 = loc then a.2 else none

/-- Names that are new one after the other. -/
def allFresh (names : List Str) : List Str → Bool
  | [] => true
  | loc :: rest => isFreshName names loc && allFresh (loc :: names) rest

theorem allFresh_spec {names locs : List Str} (h : allFresh names locs = true) :
    locs.Nodup ∧ ∀ loc ∈ locs, loc ∉ names := by
  induction locs generalizing names with
  | nil => exact ⟨List.nodup_nil, fun loc hloc => absurd hloc List.not_mem_nil⟩
  | cons loc rest ih =>
      obtain ⟨hname, hrest⟩ := Bool.and_eq_true_iff.mp h
      obtain ⟨hnodup, hnew⟩ := ih hrest
      have hfresh : loc ∉ names := by
        simpa using (Bool.and_eq_true_iff.mp hname).2
      refine ⟨List.nodup_cons.mpr ⟨fun hmem => hnew loc hmem List.mem_cons_self, hnodup⟩, ?_⟩
      intro other hother
      rcases List.mem_cons.mp hother with rfl | hother
      · exact hfresh
      · exact fun hmem => hnew other hother (List.mem_cons_of_mem _ hmem)

theorem given_cons (a : Str × Option Str) (rest : List (Str × Option Str)) (name : Str) :
    given (a :: rest) name = (if a.1 = name then a.2 else none).or (given rest name) := by
  rw [given, List.findSome?_cons]
  cases (if a.1 = name then a.2 else none) <;> rfl

theorem given_of_notMem {attrs : List (Str × Option Str)} {name : Str}
    (h : name ∉ attrs.map Prod.fst) : given attrs name = none := by
  induction attrs with
  | nil => rfl
  | cons a rest ih =>
      rw [List.map_cons, List.mem_cons, not_or] at h
      rw [given_cons, if_neg (Ne.symm h.1), ih h.2]
      rfl

/-- Distinct names have the values they are listed with. -/
theorem given_of_mem {attrs : List (Str × Option Str)} (distinct : (attrs.map Prod.fst).Nodup)
    {name : Str} {value : Option Str} (h : (name, value) ∈ attrs) : given attrs name = value := by
  induction attrs with
  | nil => exact absurd h List.not_mem_nil
  | cons a rest ih =>
      obtain ⟨hnew, hrest⟩ := List.nodup_cons.mp distinct
      rw [given_cons]
      rcases List.mem_cons.mp h with rfl | h
      · rw [if_pos rfl, given_of_notMem hnew, Option.or_none]
      · have hother : a.1 ≠ name := by
          rintro rfl
          exact hnew (List.mem_map.mpr ⟨_, h, rfl⟩)
        rw [if_neg hother, ih hrest h, Option.none_or]

section

variable (e : Element) (attrs : List (Str × Option Str))

theorem attr_withOptionalAttribute (loc name : Str) (value : Option Str) :
    (withOptionalAttribute e loc value).attr none name =
      (e.attr none name).or (if loc = name then value else none) := by
  cases value with
  | none => simp [withOptionalAttribute]
  | some v =>
      simp only [withOptionalAttribute, ElementOf.attr, ElementOf.withAttribute, Response.plain,
        List.find?_append, Option.map_or]
      congr 1
      by_cases hname : loc = name
      · simp [hname]
      · simp [hname]

theorem attr_withAttributes (name : Str) :
    (withAttributes e attrs).attr none name = (e.attr none name).or (given attrs name) := by
  induction attrs generalizing e with
  | nil => rw [given, List.findSome?_nil, Option.or_none]; rfl
  | cons a rest ih =>
      have hstep : withAttributes e (a :: rest) =
          withAttributes (withOptionalAttribute e a.1 a.2) rest := rfl
      rw [hstep, ih, attr_withOptionalAttribute, given_cons, Option.or_assoc]

theorem qname_withAttributes : (withAttributes e attrs).qname = e.qname := by
  induction attrs generalizing e with
  | nil => rfl
  | cons a rest ih => exact (ih _).trans (qname_withOptionalAttribute _ _ _)

theorem children_withAttributes : (withAttributes e attrs).children = e.children := by
  induction attrs generalizing e with
  | nil => rfl
  | cons a rest ih =>
      have hstep : (withOptionalAttribute e a.1 a.2).children = e.children := by
        cases a.2 <;> rfl
      exact (ih _).trans hstep

theorem withNamespace_withAttributes (pfx : Option Str) (uri : Str) :
    (withAttributes e attrs).withNamespace pfx uri =
      withAttributes (e.withNamespace pfx uri) attrs := by
  induction attrs generalizing e with
  | nil => rfl
  | cons a rest ih =>
      have hstep : (withOptionalAttribute e a.1 a.2).withNamespace pfx uri =
          withOptionalAttribute (e.withNamespace pfx uri) a.1 a.2 := by
        cases a.2 <;> rfl
      exact (ih _).trans (congrArg (withAttributes · rest) hstep)

variable {e attrs}

theorem exists_composed_withAttributes {table scope : List NsDecl} {prefixes : List (Option Str)}
    {names : List Str} (h : Composed table scope prefixes names e)
    (hfresh : allFresh names (attrs.map Prod.fst) = true) :
    ∃ used, Composed table scope prefixes used (withAttributes e attrs) := by
  induction attrs generalizing e names with
  | nil => exact ⟨names, h⟩
  | cons a rest ih =>
      obtain ⟨hname, hrest⟩ := Bool.and_eq_true_iff.mp hfresh
      exact ih (composed_withOptionalAttribute h hname a.2) hrest

end

/-! ## Built messages -/

/-- The prefixes that the root of a message declares. -/
def MESSAGE_SCOPE : List NsDecl := [] ++ [samlDecl] ++ [samlpDecl]

/-- A protocol message before it is signed: its root, its issuer, and the elements
behind the issuer. They write back from the prefixes of the builders, and a
reference can name the identifier. -/
structure Message where
  loc : Str
  id : Str
  issueInstant : Str
  attrs : List (Str × Option Str)
  issuerEntityId : Str
  rest : List Element
  name : isNcName loc = true
  fresh : allFresh ["IssueInstant", "Version", "ID"] (attrs.map Prod.fst) = true
  below : ∀ e ∈ rest, Writable PREFIXES MESSAGE_SCOPE e
  unsigned : ds "Signature" ∉ rest.map ElementOf.qname
  referable : Referable id

namespace Message

variable {m : Message}

/-- The root before its children. -/
def base (m : Message) : Element :=
  withAttributes (messageElement m.loc m.id m.issueInstant) m.attrs

/-- The issuer. -/
def issuer (m : Message) : Element := issuerElement m.issuerEntityId

/-- The message with the signature that was put behind its issuer. -/
def signed (m : Message) (signature : Option Element) : Element :=
  spliced m.base m.issuer signature.toList m.rest

/-- The message without a signature. -/
def element (m : Message) : Element := m.signed none

/-- A document has the message, with or without a signature. -/
def ReadIn (m : Message) (doc : Document) : Prop :=
  ∃ signature : Option Element, (∀ s ∈ signature, s.qname = ds "Signature") ∧
    Xml.plain doc.root = Xml.plain (m.signed signature)

/-- An element is the message, up to handles and prefixes. -/
structure Standing (m : Message) (e : Element) : Prop where
  writable : Writable PREFIXES [] e
  children : ∃ below : List Element, e.children = below.map .element
  plain : Xml.plain e = Xml.plain m.element

theorem bare (m : Message) : m.base.children = [] :=
  (children_withAttributes _ _).trans rfl

theorem named (m : Message) : m.issuer.qname = Schema.saml "Issuer" := rfl

theorem writable (m : Message) : Writable PREFIXES [] m.element := by
  have hself : Composed PREFIXES MESSAGE_SCOPE [] ["IssueInstant", "Version", "ID"] _ :=
    (((composed_samlp (by decide) m.name).withAttribute (by decide) m.id).withAttribute
      (by decide : isFreshName ["ID"] "Version" = true) "2.0").withAttribute
      (by decide : isFreshName ["Version", "ID"] "IssueInstant" = true) m.issueInstant
  obtain ⟨used, hall⟩ := exists_composed_withAttributes hself m.fresh
  have hbelow : ∀ child ∈ m.issuer :: m.rest, Writable PREFIXES MESSAGE_SCOPE child := by
    intro child hchild
    rcases List.mem_cons.mp hchild with rfl | hchild
    · exact writable_issuerElement (by decide) m.issuerEntityId
    · exact m.below child hchild
  have hdeclared := ((composed_withElements hall hbelow).withNamespace (d := samlpDecl) (by decide)
    (by simp)).withNamespace (d := samlDecl) (by decide) (by decide)
  have hroot : m.element = ((withElements (withAttributes ((((samlp m.loc).withAttribute
      (Response.plain "ID") m.id).withAttribute (Response.plain "Version") "2.0").withAttribute
      (Response.plain "IssueInstant") m.issueInstant) m.attrs) (m.issuer :: m.rest)).withNamespace
      samlpDecl.1 samlpDecl.2).withNamespace samlDecl.1 samlDecl.2 := by
    have hcommute (e : Element) (d : NsDecl) : (withElements (withAttributes e m.attrs)
        (m.issuer :: m.rest)).withNamespace d.1 d.2 =
        withElements (withAttributes (e.withNamespace d.1 d.2) m.attrs) (m.issuer :: m.rest) :=
      congrArg (withElements · (m.issuer :: m.rest))
        (withNamespace_withAttributes e m.attrs d.1 d.2)
    rw [hcommute, hcommute]
    rfl
  rw [hroot]
  exact hdeclared.writable

theorem childElements_bare (m : Message) : m.base.childElements = [] := by
  rw [ElementOf.childElements, m.bare]
  rfl

theorem children_signed (m : Message) (signature : Option Element) :
    (m.signed signature).children =
      (m.issuer :: signature.toList ++ m.rest).map .element := by
  rw [signed, spliced, withElements, m.bare]
  rfl

theorem attr_signed (m : Message) (signature : Option Element) (ns : Option Str) (loc : Str) :
    (m.signed signature).attr ns loc = m.base.attr ns loc := rfl

theorem attr_id (m : Message) (signature : Option Element) :
    (m.signed signature).attr none "ID" = some m.id := by
  rw [attr_signed, base, attr_withAttributes]
  rfl

theorem isIssuer_issuer (m : Message) : isIssuer (.element m.issuer) = true :=
  ElementOf.hasName_iff.mpr m.named

theorem signature_element (m : Message) :
    m.element.childElement (some DS_NS) "Signature" = none := by
  have hnames : m.element.childElements.map ElementOf.qname =
      Schema.saml "Issuer" :: m.rest.map ElementOf.qname := by
    rw [element, signed, childElements_spliced m.childElements_bare, List.map_cons, m.named]
    rfl
  apply childElement_eq_none
  rw [hnames, List.mem_cons, not_or]
  exact ⟨by decide, m.unsigned⟩

/-- What is read of an element that has only elements below it. -/
theorem plain_of_elements {e : Element} {below : List Element}
    (h : e.children = below.map .element) :
    Xml.plain e = ⟨e.qname, none, [], e.attributes.map plainAttribute,
      below.map fun c => .element (Xml.plain c), 0⟩ := by
  have htext : e.textContent = [] := by
    rw [ElementOf.textContent, h]
    simp
  have hbelow : e.childElements = below := by
    rw [ElementOf.childElements, h, List.filterMap_map]
    exact List.filterMap_some
  rw [plain_eq, htext, hbelow]
  rfl

/-- Signing puts a signature behind the issuer of a message. -/
theorem Standing.plain_signElement {e : Element} (h : m.Standing e)
    {opts : SignOptions} {signed : Element} (hsigned : signElement crypto e opts = .ok signed) :
    ∃ s : Element, s.qname = ds "Signature" ∧ Xml.plain signed = Xml.plain (m.signed (some s)) := by
  obtain ⟨below, hbelow⟩ := h.children
  obtain ⟨_, _, _, signature, hsignature, rfl⟩ := signElement_ok crypto hsigned
  have hplain := h.plain
  rw [element, plain_of_elements hbelow, plain_of_elements (m.children_signed none)] at hplain
  obtain ⟨hname, -, -, hattributes, hchildren, -⟩ := ElementOf.mk.inj hplain
  obtain ⟨issuer, rest, rfl, hissuer, hrest⟩ := List.map_eq_cons_iff.mp hchildren
  have hindex : signatureInsertionIndex e = 1 := by
    have hself : isIssuer (.element issuer) = true := by
      rw [isIssuer, hasName_of_plain (Node.element.inj hissuer)]
      exact m.isIssuer_issuer
    rw [signatureInsertionIndex, hbelow, List.map_cons, List.findIdx?_cons, if_pos hself]
  have hspliced : (e.insertChild 1 (.element signature)).children =
      (issuer :: signature :: rest).map .element := by
    rw [ElementOf.insertChild, hbelow]
    rfl
  refine ⟨signature, buildSignatureElement_qname hsignature, ?_⟩
  rw [hindex, plain_of_elements hspliced, plain_of_elements (m.children_signed (some signature))]
  refine ElementOf.mk.injEq .. |>.mpr ⟨hname, rfl, rfl, hattributes, ?_, rfl⟩
  rw [List.map_cons, List.map_cons, hissuer, hrest]
  rfl

end Message

/-! ## Messages read back -/

theorem mem_rereadChildren_comment {nsStack : List NsLayer} {pending : Str} {nodes : List Node}
    {c : Str} (h : Node.comment c ∈ rereadChildren nsStack pending nodes) :
    Node.comment c ∈ nodes := by
  have htext : ∀ t, Node.comment c ∉ textNodes t := by
    intro t ht
    cases t with
    | nil => cases ht
    | cons d rest => cases List.mem_singleton.mp ht
  induction nodes generalizing pending with
  | nil =>
      rw [rereadChildren] at h
      exact absurd h (htext pending)
  | cons node rest ih =>
      cases node with
      | element e =>
          rw [rereadChildren, List.mem_append, List.mem_cons] at h
          rcases h with h | heq | h
          · exact absurd h (htext pending)
          · cases heq
          · exact List.mem_cons_of_mem _ (ih h)
      | text t =>
          rw [rereadChildren] at h
          exact List.mem_cons_of_mem _ (ih h)
      | comment d =>
          rw [rereadChildren, List.mem_append, List.mem_cons] at h
          rcases h with h | heq | h
          · exact absurd h (htext pending)
          · rw [heq]
            exact List.mem_cons_self
          · exact List.mem_cons_of_mem _ (ih h)

/-- What was read back can be written and read back again. -/
theorem writable_reread {table scope : List NsDecl} {e : Element} (h : Writable table scope e)
    (nsStack : List NsLayer) : Writable table scope (reread nsStack e) := by
  induction h generalizing nsStack with
  | @mk scope e declared fresh name bound keys distinct comments below ih =>
      have hkeys : ∀ l : List Attribute,
          (l.map (rereadAttribute (e.namespacesDeclaredHere :: nsStack))).map Attribute.qname =
            l.map Attribute.qname := by
        intro l
        rw [List.map_map]
        rfl
      apply Writable.mk
      · rw [C14n.reread_namespaces]
        exact declared
      · rw [C14n.reread_namespaces]
        exact fresh
      · rw [C14n.reread_qname]
        exact name
      · rw [C14n.reread_namespaces, C14n.reread_qname]
        exact bound
      · intro a ha
        rw [C14n.reread_attributes] at ha
        obtain ⟨b, hb, rfl⟩ := List.mem_map.mp ha
        exact keys b hb
      · rw [C14n.reread_attributes, hkeys]
        exact distinct
      · intro c hc
        rw [C14n.reread_children] at hc
        exact comments c (mem_rereadChildren_comment hc)
      · intro child hchild
        rw [C14n.reread_children] at hchild
        obtain ⟨c, hc, rfl⟩ := mem_rereadChildren hchild
        rw [C14n.reread_namespaces]
        exact ih c hc _

theorem unnumbered_unnumbered :
    (∀ e : Element, unnumbered (unnumbered e) = unnumbered e) ∧
      ∀ nodes : List Node,
        unnumberedChildren (unnumberedChildren nodes) = unnumberedChildren nodes := by
  apply Element.induct
  case mk =>
    intro e ih
    obtain ⟨qname, sourcePrefix, declared, attributes, children, id⟩ := e
    rw [unnumbered, unnumbered, ih]
  case nil => rw [unnumberedChildren, unnumberedChildren]
  case element =>
    intro e rest he hrest
    rw [unnumberedChildren, unnumberedNode, unnumberedChildren, unnumberedNode, he, hrest]
  case text =>
    intro t rest hrest
    rw [unnumberedChildren, unnumberedNode, unnumberedChildren, unnumberedNode, hrest]
  case comment =>
    intro c rest hrest
    rw [unnumberedChildren, unnumberedNode, unnumberedChildren, unnumberedNode, hrest]

theorem exists_elements {nodes : List Node} {below : List Element}
    (h : nodes.map unnumberedNode = below.map .element) :
    ∃ elements : List Element, nodes = elements.map .element := by
  induction nodes generalizing below with
  | nil => exact ⟨[], rfl⟩
  | cons node rest ih =>
      obtain ⟨c, below', rfl, hnode, hrest⟩ := List.map_eq_cons_iff.mp h.symm
      obtain ⟨elements, rfl⟩ := ih hrest.symm
      cases node with
      | element e => exact ⟨e :: elements, rfl⟩
      | text t => cases hnode
      | comment c => cases hnode

theorem rereadChildren_elements (nsStack : List NsLayer) (below : List Element) :
    rereadChildren nsStack [] (below.map .element) =
      (below.map (reread nsStack)).map .element := by
  induction below with
  | nil => rw [List.map_nil, rereadChildren]; rfl
  | cons e rest ih =>
      rw [List.map_cons, rereadChildren, ih]
      rfl

namespace Message

variable {m : Message}

/-- A message stands in a document that it was read from. -/
theorem Standing.of_read {doc : Document} (h : ReadBack PREFIXES m.element doc) :
    m.Standing doc.root := by
  have halike : Alike doc.root (reread [] m.element) := by
    rw [Alike, ← h.same, unnumbered_unnumbered.1]
  refine ⟨(writable_reread h.writable []).of_alike halike, ?_, h.plain⟩
  have hchildren := congrArg ElementOf.children h.same
  rw [unnumbered_children, C14n.reread_children, element, m.children_signed,
    rereadChildren_elements] at hchildren
  exact exists_elements hchildren

/-- Octets that are read as the message: the signature inside verifies, and there
is none where none was made. -/
structure Enclosed (crypto : Primitives) (qx : QuickXml) (m : Message)
    (signing : Option SignOptions) (xml : Octets) : Prop where
  readIn : ∀ doc, Document.parse qx xml = .ok doc → m.ReadIn doc
  verified : ∀ doc, Document.parse qx xml = .ok doc → ∀ opts ∈ signing, ∀ certs policy,
    Trusts crypto certs policy opts →
      EnvelopeVerified crypto doc doc.root doc.root.id certs policy
  unsigned : ∀ doc, Document.parse qx xml = .ok doc → signing = none →
    doc.root.childElement (some DS_NS) "Signature" = none

/-- What `serialize_element` writes is read back. -/
theorem readBack_of_serializeElement (lawful : qx.Lawful) {e : Element}
    (he : Writable PREFIXES [] e) {xml : Octets} (hxml : serializeElement e = .ok xml)
    {doc : Document} (hdoc : Document.parse qx xml = .ok doc) : ReadBack PREFIXES e doc := by
  obtain ⟨built, hbuilt, hxml⟩ := bind_eq_ok_iff.mp hxml
  obtain ⟨text, htext, hxml⟩ := bind_eq_ok_iff.mp hxml
  obtain rfl := Except.ok.inj hxml
  exact ReadBack.of_emitDocument lawful plainPrefixes he hbuilt htext hdoc

theorem readIn_of_serializeElement (lawful : qx.Lawful) {xml : Octets}
    (hxml : serializeElement m.element = .ok xml) {doc : Document}
    (hdoc : Document.parse qx xml = .ok doc) : m.ReadIn doc :=
  ⟨none, fun _ hs => (nomatch hs), (readBack_of_serializeElement lawful m.writable hxml hdoc).plain⟩

/-- A message that is written as it was built. -/
theorem enclosed_of_serializeElement (lawful : qx.Lawful) {xml : Octets}
    (hxml : serializeElement m.element = .ok xml) : m.Enclosed crypto qx none xml := by
  constructor
  · intro doc hdoc
    exact readIn_of_serializeElement lawful hxml hdoc
  · intro doc hdoc opts hopts
    cases hopts
  · intro doc hdoc _
    exact childElement_eq_none_of_plain
      (readBack_of_serializeElement lawful m.writable hxml hdoc).plain m.signature_element

/-- A message that is signed and written. -/
theorem Standing.enclosed (correct : SignsCorrectly crypto) (lawful : qx.Lawful) {e : Element}
    (h : m.Standing e) {opts : SignOptions} (exclusive : Exclusive opts) {signed : Element}
    (hsigned : signElement crypto e opts = .ok signed) {xml : Octets}
    (hxml : serializeElement signed = .ok xml) : m.Enclosed crypto qx (some opts) xml := by
  have hwritable : Writable PREFIXES [] signed :=
    writable_signElement (by decide) (by decide) h.writable hsigned
  obtain ⟨s, hs, hplain⟩ := h.plain_signElement hsigned
  constructor
  · intro doc hdoc
    have hread := readBack_of_serializeElement lawful hwritable hxml hdoc
    exact ⟨some s, fun t ht => Option.some.inj ht ▸ hs, hread.plain.trans hplain⟩
  · intro doc hdoc other hother certs policy trusts
    obtain rfl := Option.some.inj hother
    have hread := readBack_of_serializeElement lawful hwritable hxml hdoc
    have hid : ∀ id, e.attr none "ID" = some id → Referable id := by
      intro id hid
      rw [attr_of_plain h.plain, element, m.attr_id] at hid
      exact Option.some.inj hid ▸ m.referable
    obtain ⟨found, verified, hfound, hverified, hcovers⟩ := verifySignature_read correct
      matched_prefixes (by decide) (by decide) hread.indexed hread.tabled exclusive h.writable
      (childElement_eq_none_of_plain h.plain m.signature_element) hid hsigned
      (rfl : doc.root.walk [] = some doc.root) hread.same trusts.certificate trusts.allowed
    exact ⟨found, verified, hfound, hverified, hcovers⟩
  · intro doc hdoc hnone
    cases hnone

/-! ## What is read of a message -/

namespace ReadIn

variable {doc : Document}

theorem attr (h : m.ReadIn doc) (name : Str) :
    doc.root.attr none name =
      ((messageElement m.loc m.id m.issueInstant).attr none name).or (given m.attrs name) := by
  obtain ⟨signature, -, hplain⟩ := h
  rw [attr_of_plain hplain, attr_signed, base, attr_withAttributes]

/-- An attribute of the builder is read as it was given. -/
theorem attr_of_mem (h : m.ReadIn doc) {name : Str} {value : Option Str}
    (hmem : (name, value) ∈ m.attrs) : doc.root.attr none name = value := by
  obtain ⟨distinct, hnew⟩ := allFresh_spec m.fresh
  have hother := hnew name (List.mem_map.mpr ⟨_, hmem, rfl⟩)
  have hnone : (messageElement m.loc m.id m.issueInstant).attr none name = none := by
    simp only [List.mem_cons, List.not_mem_nil, or_false, not_or] at hother
    obtain ⟨hissued, hversion, hid⟩ := hother
    have hbase : messageElement m.loc m.id m.issueInstant = withAttributes
        (((samlp m.loc).withNamespace (some "samlp") SAMLP_NS).withNamespace (some "saml") SAML_NS)
        [("ID", some m.id), ("Version", some ("2.0" : Str)),
          ("IssueInstant", some m.issueInstant)] := rfl
    rw [hbase, attr_withAttributes, given_of_notMem]
    · rfl
    · simp only [List.map_cons, List.map_nil, List.mem_cons, List.not_mem_nil, or_false, not_or]
      exact ⟨hid, hversion, hissued⟩
  rw [h.attr, hnone, given_of_mem distinct hmem, Option.none_or]

theorem hasName (h : m.ReadIn doc) : doc.root.hasName (some SAMLP_NS) m.loc = true := by
  obtain ⟨signature, -, hplain⟩ := h
  rw [hasName_of_plain hplain]
  exact ElementOf.hasName_iff.mpr (qname_withAttributes _ _)

/-- The issuer is read as it was written. -/
theorem exists_issuer (h : m.ReadIn doc) :
    ∃ e, doc.root.childElement (some SAML_NS) "Issuer" = some e ∧
      e.textContent = m.issuerEntityId := by
  obtain ⟨signature, -, hplain⟩ := h
  have hissuer : (m.signed signature).childElement (some SAML_NS) "Issuer" = some m.issuer :=
    issuer_spliced m.childElements_bare m.named
  obtain ⟨e, he, hsame⟩ := exists_childElement_of_plain hplain hissuer
  refine ⟨e, he, ?_⟩
  rw [textContent_of_plain hsame]
  exact List.append_nil _

theorem hasName_issuer (m : Message) {ns loc : Str}
    (hissuer : (⟨some ns, loc⟩ : QName) ≠ Schema.saml "Issuer") :
    m.issuer.hasName (some ns) loc = false := by
  rw [← Bool.not_eq_true, ElementOf.hasName_iff]
  exact fun h => hissuer (h.symm.trans m.named)

/-- A child behind the issuer is read as it was written. -/
theorem childElement (h : m.ReadIn doc) {ns loc : Str} (hns : ns ≠ DS_NS)
    (hissuer : (⟨some ns, loc⟩ : QName) ≠ Schema.saml "Issuer") :
    (doc.root.childElement (some ns) loc).map Xml.plain =
      (m.rest.find? (·.hasName (some ns) loc)).map Xml.plain := by
  obtain ⟨signature, hsignature, hplain⟩ := h
  calc (doc.root.childElement (some ns) loc).map Xml.plain
      = (Xml.plain doc.root).childElement (some ns) loc := (plain_childElement _ _ _).symm
    _ = ((m.signed signature).childElement (some ns) loc).map Xml.plain := by
        rw [hplain, plain_childElement]
    _ = (m.rest.find? (·.hasName (some ns) loc)).map Xml.plain :=
        congrArg _ (childElement_spliced m.childElements_bare hsignature hns
          (hasName_issuer m hissuer))

theorem allChildElements (h : m.ReadIn doc) {ns loc : Str} (hns : ns ≠ DS_NS)
    (hissuer : (⟨some ns, loc⟩ : QName) ≠ Schema.saml "Issuer") :
    (doc.root.allChildElements (some ns) loc).map Xml.plain =
      (m.rest.filter (·.hasName (some ns) loc)).map Xml.plain := by
  obtain ⟨signature, hsignature, hplain⟩ := h
  calc (doc.root.allChildElements (some ns) loc).map Xml.plain
      = (Xml.plain doc.root).allChildElements (some ns) loc := (plain_allChildElements _ _ _).symm
    _ = ((m.signed signature).allChildElements (some ns) loc).map Xml.plain := by
        rw [hplain, plain_allChildElements]
    _ = (m.rest.filter (·.hasName (some ns) loc)).map Xml.plain :=
        congrArg _ (allChildElements_spliced m.childElements_bare hsignature hns
          (hasName_issuer m hissuer))

/-- The names of the children of a message. -/
def names (signs : Bool) (behind : List QName) : List QName :=
  Schema.saml "Issuer" :: ((if signs then [ds "Signature"] else []) ++ behind)

/-- The gate lets a message through whose parts fit the slots and stand in their
order, with a signature and without. -/
theorem validateShape (h : m.ReadIn doc) {optionalAttrs wildcardNamespaces : List Str}
    {slots : List Schema.ChildShape}
    (issuer : Schema.slotShape slots (Schema.saml "Issuer") = some Schema.SHAPE_ISSUER)
    (signature : (Schema.position slots (ds "Signature")).isSome = true)
    (free : Schema.slotShape slots (ds "Signature") = none)
    (fits : ∀ child ∈ m.rest,
      Schema.FitsSlot Schema.ElementShape.deref slots wildcardNamespaces child)
    (order : ∀ signs, (names signs (m.rest.map ElementOf.qname)).Pairwise fun a b =>
      Schema.precedes slots a b = true)
    (distinct : (Schema.slotNames slots).Nodup)
    (counts : ∀ signs, ∀ s ∈ slots,
      s.minOccurs.toNat ≤ (names signs (m.rest.map ElementOf.qname)).count s.qname) :
    Schema.validateShape (Schema.shapeOf (Schema.samlp m.loc) Schema.MESSAGE_ATTRS optionalAttrs
      (.sequence slots) wildcardNamespaces) doc.root = .ok () := by
  have hattrs : ∀ loc ∈ Schema.MESSAGE_ATTRS, (doc.root.attr none loc).isSome = true := by
    intro loc hloc
    rw [h.attr]
    simp only [Schema.MESSAGE_ATTRS, List.mem_cons, List.not_mem_nil, or_false] at hloc
    rcases hloc with rfl | rfl | rfl <;> rfl
  obtain ⟨s, hs, hplain⟩ := h
  have hsigned : s.toList.map ElementOf.qname =
      if s.isSome then [ds "Signature"] else [] := by
    cases s with
    | none => rfl
    | some s => exact congrArg (fun q => [q]) (hs s rfl)
  have hbelow : (m.signed s).childElements = m.issuer :: (s.toList ++ m.rest) :=
    childElements_spliced m.childElements_bare
  rw [← Schema.validateShape_plain, hplain, Schema.validateShape_plain]
  apply Schema.validateShape_of_names (names s.isSome (m.rest.map ElementOf.qname))
  · exact qname_withAttributes _ _
  · intro loc hloc
    rw [← attr_of_plain hplain]
    exact hattrs loc hloc
  · rw [hbelow, List.map_cons, List.map_append, hsigned, m.named]
    rfl
  · rw [hbelow]
    intro child hchild
    rcases List.mem_cons.mp hchild with rfl | hchild
    · exact Schema.fitsSlot_of_shape Schema.SHAPE_ISSUER (m.named ▸ issuer) rfl
    rcases List.mem_append.mp hchild with hchild | hchild
    · have hname := hs child (Option.mem_toList.mp hchild)
      exact Schema.fitsSlot_of_opaque (hname ▸ signature) (hname ▸ free)
    · exact fits child hchild
  · exact order s.isSome
  · exact distinct
  · exact counts s.isSome

end ReadIn

end Message

end Saml
