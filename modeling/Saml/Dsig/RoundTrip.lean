import Saml.Dsig.Canonical
import Saml.Xml.Plain
import Saml.Xml.Sound
import Saml.Dsig.Verify
import Saml.Xmlenc.RoundTrip

/-!
# Signed messages over the wire

What `sign_element` signs, `verify_signature` accepts: a built element that was
signed, written, and read back as part of any built document verifies under a
certificate of the signing key.
-/

namespace Saml.Dsig

open Xml Crypto C14n

/-! ## What the verifier reads -/

theorem parseC14nMethod_plain (signedInfo : Element) (allowed : List C14nAlgorithm) :
    parseC14nMethod (plain signedInfo) allowed = parseC14nMethod signedInfo allowed := by
  unfold parseC14nMethod
  rw [plain_childElement]
  cases signedInfo.childElement (some DS_NS) "CanonicalizationMethod" with
  | none => rfl
  | some elem => simp only [Option.map_some, okOr_some, ok_bind, plain_attr]

theorem parseSignatureMethod_plain (signedInfo : Element) (allowed : List SignatureAlgorithm) :
    parseSignatureMethod (plain signedInfo) allowed = parseSignatureMethod signedInfo allowed := by
  unfold parseSignatureMethod
  rw [plain_childElement]
  cases signedInfo.childElement (some DS_NS) "SignatureMethod" with
  | none => rfl
  | some elem => simp only [Option.map_some, okOr_some, ok_bind, plain_attr]

theorem singleReference_plain (signedInfo : Element) :
    singleReference (plain signedInfo) = (singleReference signedInfo).map plain := by
  unfold singleReference
  rw [plain_allChildElements]
  rcases signedInfo.allChildElements (some DS_NS) "Reference" with _ | ⟨first, _ | ⟨second, rest⟩⟩
  · rfl
  · rfl
  · rfl

theorem parseTransform_plain (transform : Element) :
    parseTransform (plain transform) = parseTransform transform := by
  unfold parseTransform
  rw [plain_attr, plain_childElement, Option.bind_map]
  simp only [Function.comp_def, plain_attr]

theorem parseTransforms_plain (reference : Element) :
    parseTransforms (plain reference) = parseTransforms reference := by
  unfold parseTransforms
  rw [plain_childElement]
  cases reference.childElement (some DS_NS) "Transforms" with
  | none => rfl
  | some transforms =>
      simp only [Option.map_some, plain_allChildElements, List.mapM_map, Function.comp_def,
        parseTransform_plain]

theorem parseReference_plain (document : Document) (reference : Element)
    (allowedDigests : List DigestAlgorithm) (allowedC14n : List C14nAlgorithm) :
    parseReference document (plain reference) allowedDigests allowedC14n =
      parseReference document reference allowedDigests allowedC14n := by
  unfold parseReference
  rw [plain_attr, parseTransforms_plain, plain_childElement, plain_childElement, okOr_map,
    okOr_map]
  simp only [bind_of_map, plain_attr, plain_textContent]

/-! ## The signature that was built -/

theorem decodeBase64Lenient_encode (octets : Octets) :
    decodeBase64Lenient (base64Encode octets) = .ok octets := by
  have hkept : (base64Encode octets).filter (fun c =>
      !(c == ' ' || c == '\t' || c == '\n' || c == '\r' || c == '\x0b' || c == '\x0c')) =
      base64Encode octets := by
    apply List.filter_eq_self.mpr
    intro c hc
    have hsymbol := Xmlenc.not_isWhitespace_of_isSymbol
      (Library.Base64.isSymbol_encode octets c hc)
    rw [Bool.not_eq_true', ← Bool.not_eq_true]
    intro hblank
    simp only [Bool.or_eq_true, beq_iff_eq] at hblank
    rcases hblank with ((((rfl | rfl) | rfl) | rfl) | rfl) | rfl <;> cases hsymbol
  rw [decodeBase64Lenient, hkept, base64Decode, base64Encode, Library.Base64.decode_encode]
  rfl

/-- The `ds:Reference` of a signed element. -/
def referenceElement (digest : DigestAlgorithm) (c14n : C14nAlgorithm)
    (idValue digestB64 : Str) : Element :=
  let transforms := ((ElementOf.build (ds "Transforms")).withChild
    (.element (algorithmElement "Transform" ENVELOPED_SIGNATURE_URI))).withChild
    (.element (algorithmElement "Transform" c14n.uri))
  let digestValue := (ElementOf.build (ds "DigestValue")).withText digestB64
  ((((ElementOf.build (ds "Reference")).withAttribute ⟨none, "URI"⟩
    ('#' :: idValue)).withChild (.element transforms)).withChild
    (.element (algorithmElement "DigestMethod" digest.uri))).withChild (.element digestValue)

section

variable (sigAlg : SignatureAlgorithm) (digest : DigestAlgorithm) (c14n : C14nAlgorithm)
  (idValue digestB64 : Str)

theorem c14nTransform_nil : c14nTransform c14n [] = algorithmElement "Transform" c14n.uri := by
  unfold c14nTransform
  simp

theorem buildSignedInfo_nil : buildSignedInfo sigAlg digest c14n idValue digestB64 [] =
    (((ElementOf.build (ds "SignedInfo")).withChild
      (.element (algorithmElement "CanonicalizationMethod" c14n.uri))).withChild
      (.element (algorithmElement "SignatureMethod" sigAlg.uri))).withChild
      (.element (referenceElement digest c14n idValue digestB64)) := by
  unfold buildSignedInfo
  rw [c14nTransform_nil]
  rfl

theorem parseC14nMethod_signedInfo {allowed : List C14nAlgorithm} (h : c14n ∈ allowed) :
    parseC14nMethod (buildSignedInfo sigAlg digest c14n idValue digestB64 []) allowed =
      .ok c14n := by
  have hmethod : (buildSignedInfo sigAlg digest c14n idValue digestB64 []).childElement
      (some DS_NS) "CanonicalizationMethod" =
      some (algorithmElement "CanonicalizationMethod" c14n.uri) := by
    rw [buildSignedInfo_nil]
    rfl
  have huri : (algorithmElement "CanonicalizationMethod" c14n.uri).attr none "Algorithm" =
    some c14n.uri := rfl
  rw [parseC14nMethod, hmethod, okOr_some, ok_bind, huri, okOr_some, ok_bind,
    C14nAlgorithm.fromUri_uri, ok_bind, if_neg (not_not_intro h)]

theorem parseSignatureMethod_signedInfo {allowed : List SignatureAlgorithm}
    (h : sigAlg ∈ allowed) :
    parseSignatureMethod (buildSignedInfo sigAlg digest c14n idValue digestB64 []) allowed =
      .ok sigAlg := by
  have hmethod : (buildSignedInfo sigAlg digest c14n idValue digestB64 []).childElement
      (some DS_NS) "SignatureMethod" = some (algorithmElement "SignatureMethod" sigAlg.uri) := by
    rw [buildSignedInfo_nil]
    rfl
  have huri : (algorithmElement "SignatureMethod" sigAlg.uri).attr none "Algorithm" =
    some sigAlg.uri := rfl
  rw [parseSignatureMethod, hmethod, okOr_some, ok_bind, huri, okOr_some, ok_bind,
    SignatureAlgorithm.fromUri_uri, ok_bind, if_neg (not_not_intro h)]

theorem singleReference_signedInfo :
    singleReference (buildSignedInfo sigAlg digest c14n idValue digestB64 []) =
      .ok (referenceElement digest c14n idValue digestB64) := by
  have hreferences : (buildSignedInfo sigAlg digest c14n idValue digestB64 []).allChildElements
      (some DS_NS) "Reference" = [referenceElement digest c14n idValue digestB64] := by
    rw [buildSignedInfo_nil]
    rfl
  rw [singleReference, hreferences]

theorem AllowedTransform.fromUri_c14n :
    AllowedTransform.fromUri c14n.uri = .ok (.c14n c14n) := by
  have hother : c14n.uri ≠ ENVELOPED_SIGNATURE_URI := by
    cases c14n <;> decide
  rw [AllowedTransform.fromUri, if_neg hother, C14nAlgorithm.fromUri_uri]

theorem parseTransform_algorithm {uri : Str} {kind : AllowedTransform}
    (h : AllowedTransform.fromUri uri = .ok kind) :
    parseTransform (algorithmElement "Transform" uri) = .ok (kind, []) := by
  have huri : (algorithmElement "Transform" uri).attr none "Algorithm" = some uri := rfl
  rw [parseTransform, huri, okOr_some, ok_bind, h, ok_bind]
  rfl

theorem parseTransforms_reference :
    parseTransforms (referenceElement digest c14n idValue digestB64) =
      .ok [(.envelopedSignature, []), (.c14n c14n, [])] := by
  have hchild : (referenceElement digest c14n idValue digestB64).childElement (some DS_NS)
      "Transforms" = some (((ElementOf.build (ds "Transforms")).withChild
        (.element (algorithmElement "Transform" ENVELOPED_SIGNATURE_URI))).withChild
        (.element (algorithmElement "Transform" c14n.uri))) := rfl
  have hall : (((ElementOf.build (ds "Transforms")).withChild
      (.element (algorithmElement "Transform" ENVELOPED_SIGNATURE_URI))).withChild
      (.element (algorithmElement "Transform" c14n.uri))).allChildElements (some DS_NS)
      "Transform" = [algorithmElement "Transform" ENVELOPED_SIGNATURE_URI,
        algorithmElement "Transform" c14n.uri] := rfl
  rw [parseTransforms, hchild]
  dsimp only
  rw [hall, mapM_eq_ok_iff]
  exact .cons (parseTransform_algorithm rfl)
    (.cons (parseTransform_algorithm (AllowedTransform.fromUri_c14n c14n)) .nil)

/-- What the reference of a signed element is parsed as. -/
theorem parseReference_reference {document : Document} {target : ElementId} (octets : Octets)
    (htarget : resolveUri document ('#' :: idValue) = .ok target)
    {allowedDigests : List DigestAlgorithm} {allowedC14n : List C14nAlgorithm}
    (hdigest : digest ∈ allowedDigests) (hc14n : c14n ∈ allowedC14n) :
    parseReference document (referenceElement digest c14n idValue (base64Encode octets))
        allowedDigests allowedC14n =
      .ok ⟨target, [.envelopedSignature, .c14n c14n], digest, octets, []⟩ := by
  have huri : (referenceElement digest c14n idValue (base64Encode octets)).attr none "URI" =
    some ('#' :: idValue) := rfl
  have hmethod : (referenceElement digest c14n idValue (base64Encode octets)).childElement
    (some DS_NS) "DigestMethod" = some (algorithmElement "DigestMethod" digest.uri) := rfl
  have halgorithm : (algorithmElement "DigestMethod" digest.uri).attr none "Algorithm" =
    some digest.uri := rfl
  have hvalue : (referenceElement digest c14n idValue (base64Encode octets)).childElement
    (some DS_NS) "DigestValue" =
      some ((ElementOf.build (ds "DigestValue")).withText (base64Encode octets)) := rfl
  have htext : ((ElementOf.build (ds "DigestValue")).withText (base64Encode octets)).textContent =
      base64Encode octets :=
    List.append_nil _
  have hchecked : checkTransforms [.envelopedSignature, .c14n c14n] = .ok () := rfl
  have hchosen : (([.envelopedSignature, .c14n c14n] : List AllowedTransform).findSome?
    AllowedTransform.asC14nAlgorithm).getD .exclusiveCanonical = c14n := rfl
  rw [parseReference, huri, Option.getD_some, htarget, ok_bind, parseTransforms_reference, ok_bind]
  simp only [List.map_cons, List.map_nil]
  rw [hchecked, ok_bind, hchosen, if_neg (not_not_intro hc14n), hmethod, okOr_some, ok_bind,
    halgorithm, okOr_some, ok_bind, DigestAlgorithm.fromUri_uri, ok_bind,
    if_neg (not_not_intro hdigest), hvalue, okOr_some, ok_bind, htext,
    decodeBase64Lenient_encode]
  rfl

end

/-! ## The tree that was read back -/

theorem insertIdx_eq_split {α : Type} (l : List α) {i : Nat} (hi : i ≤ l.length) (a : α) :
    l.insertIdx i a = l.take i ++ a :: l.drop i := by
  induction i generalizing l with
  | zero => rfl
  | succ i ih =>
      cases l with
      | nil => cases hi
      | cons b rest =>
          rw [List.insertIdx_succ_cons, ih rest (Nat.le_of_succ_le_succ hi)]
          rfl

theorem rereadChildren_split (nsStack : List NsLayer) (pending : Str) (front back : List Node)
    (s : Element) :
    rereadChildren nsStack pending (front ++ .element s :: back) =
      rereadChildren nsStack pending front ++
        .element (reread nsStack s) :: rereadChildren nsStack [] back := by
  induction front generalizing pending with
  | nil => rw [List.nil_append, rereadChildren, rereadChildren]
  | cons node rest ih =>
      cases node with
      | element e => simp [rereadChildren, ih]
      | text t => simp [rereadChildren, ih]
      | comment c => simp [rereadChildren, ih]

theorem mem_rereadChildren {nsStack : List NsLayer} {pending : Str} {nodes : List Node}
    {e : Element} (h : .element e ∈ rereadChildren nsStack pending nodes) :
    ∃ c, .element c ∈ nodes ∧ e = reread nsStack c := by
  have htext : ∀ t, Node.element e ∉ textNodes t := by
    intro t ht
    cases t with
    | nil => cases ht
    | cons c rest => cases List.mem_singleton.mp ht
  induction nodes generalizing pending with
  | nil =>
      rw [rereadChildren] at h
      exact absurd h (htext _)
  | cons node rest ih =>
      cases node with
      | element c =>
          rw [rereadChildren, List.mem_append, List.mem_cons] at h
          rcases h with h | heq | h
          · exact absurd h (htext _)
          · exact ⟨c, List.mem_cons_self, Node.element.inj heq⟩
          · obtain ⟨d, hd, heq⟩ := ih h
            exact ⟨d, List.mem_cons_of_mem _ hd, heq⟩
      | text t =>
          rw [rereadChildren] at h
          obtain ⟨d, hd, heq⟩ := ih h
          exact ⟨d, List.mem_cons_of_mem _ hd, heq⟩
      | comment c =>
          rw [rereadChildren, List.mem_append, List.mem_cons] at h
          rcases h with h | heq | h
          · exact absurd h (htext _)
          · cases heq
          · obtain ⟨d, hd, heq⟩ := ih h
            exact ⟨d, List.mem_cons_of_mem _ hd, heq⟩

/-- Every element declares its namespaces from a table. -/
def Tabled (table : List NsDecl) : Element → Prop :=
  Everywhere fun f => f.namespacesDeclaredHere ⊆ table

theorem tabled_reread {table scope : List NsDecl} {e : Element} (h : Writable table scope e)
    (nsStack : List NsLayer) : Tabled table (reread nsStack e) := by
  induction h generalizing nsStack with
  | @mk scope e declared fresh name bound keys distinct comments below ih =>
      refine everywhere_iff.mpr ⟨(reread_namespaces nsStack e).symm ▸ declared, ?_⟩
      intro child hchild
      rw [ElementOf.mem_childElements, reread_children] at hchild
      obtain ⟨c, hc, rfl⟩ := mem_rereadChildren hchild
      exact ih c hc _

/-- A document that was read back declares from the table. -/
theorem tabled_of_read {table : List NsDecl} {root : Element} (h : Writable table [] root)
    {nsStack : List NsLayer} {d : Element} (hread : unnumbered d = reread nsStack root) :
    Tabled table d := by
  rw [Tabled, ← (everywhere_unnumbered fun f => by rw [unnumbered_namespaces]).1 d, hread]
  exact tabled_reread h nsStack

theorem childElement_of_split {e s : Element} {front back : List Node} {ns : Option Str}
    {loc : Str} (hchildren : e.children = front ++ .element s :: back)
    (hfront : ∀ child, .element child ∈ front → child.hasName ns loc = false)
    (hs : s.hasName ns loc = true) : e.childElement ns loc = some s := by
  have hnone : (front.filterMap Node.asElement).find? (·.hasName ns loc) = none := by
    rw [List.find?_eq_none]
    intro child hchild
    obtain ⟨node, hnode, heq⟩ := List.mem_filterMap.mp hchild
    cases node with
    | element c =>
        obtain rfl := Option.some.inj heq
        rw [hfront c hnode]
        exact Bool.false_ne_true
    | text t => cases heq
    | comment c => cases heq
  rw [ElementOf.childElement, ElementOf.childElements, hchildren, List.filterMap_append,
    List.find?_append, hnone, Option.none_or]
  simp [hs]

/-- The bindings in scope below a chain of elements of one table. -/
theorem mem_namespacesInScope {table : List NsDecl} (matched : Matched table)
    {chain : List Element} (hchain : ∀ f ∈ chain, f.namespacesDeclaredHere ⊆ table) {x : NsDecl} :
    x ∈ namespacesInScope chain ↔ ∃ f ∈ chain, x ∈ f.namespacesDeclaredHere := by
  have hfold : ∀ out : List NsDecl, out ⊆ table →
      (x ∈ chain.foldl (fun out e => mergeAll out e.namespacesDeclaredHere) out ↔
        x ∈ out ∨ ∃ f ∈ chain, x ∈ f.namespacesDeclaredHere) := by
    induction chain with
    | nil => simp
    | cons e rest ih =>
        intro out hout
        have hdecls := hchain e List.mem_cons_self
        have hmerged : mergeAll out e.namespacesDeclaredHere ⊆ table := by
          intro y hy
          rcases (mem_mergeAll matched hout hdecls).mp hy with hy | hy
          · exact hout hy
          · exact hdecls hy
        rw [List.foldl_cons, ih (fun f hf => hchain f (List.mem_cons_of_mem _ hf)) _ hmerged,
          mem_mergeAll matched hout hdecls, or_assoc, List.exists_mem_cons_iff]
  rw [namespacesInScope, hfold [] (List.nil_subset _)]
  simp

/-- The chain of an element of a document is made of elements of the document. -/
theorem mem_ancestorChain {doc : Document} (indexed : doc.WellIndexed) {path : ElementPath}
    {d : Element} (hwalk : doc.root.walk path = some d) {chain : List Element}
    (hchain : ancestorChain doc d.id = some chain) {f : Element} :
    f ∈ chain ↔ ∃ i < path.length, doc.root.walk (path.take i) = some f := by
  obtain ⟨found, hfound, hlength, hget⟩ := ancestorChain_of_walk indexed hwalk
  obtain rfl : found = chain := Option.some.inj (hfound.symm.trans hchain)
  rw [List.mem_iff_getElem?]
  constructor
  · rintro ⟨i, hi⟩
    have hlt : i < path.length := hlength ▸ (List.getElem?_eq_some_iff.mp hi).1
    exact ⟨i, hlt, (hget i hlt).symm.trans hi⟩
  · rintro ⟨i, hlt, hi⟩
    exact ⟨i, (hget i hlt).trans hi⟩

theorem reread_childElements (nsStack : List NsLayer) (e : Element) :
    (reread nsStack e).childElements =
      e.childElements.map (reread (e.namespacesDeclaredHere :: nsStack)) := by
  have htext : ∀ t, (textNodes t).filterMap Node.asElement = [] := asElement_textNodes
  have hnodes : ∀ (nodes : List Node) (stack : List NsLayer) (pending : Str),
      (rereadChildren stack pending nodes).filterMap Node.asElement =
        (nodes.filterMap Node.asElement).map (reread stack) := by
    intro nodes stack
    induction nodes with
    | nil =>
        intro pending
        rw [rereadChildren, htext]
        rfl
    | cons node rest ih =>
        intro pending
        cases node with
        | element c => simp [rereadChildren, htext, ih]
        | text t => simp [rereadChildren, ih, List.filterMap_cons]
        | comment c => simp [rereadChildren, htext, ih, List.filterMap_cons]
  rw [ElementOf.childElements, reread_children, hnodes]
  rfl

theorem reread_childElement (nsStack : List NsLayer) (e : Element) (ns : Option Str) (loc : Str) :
    (reread nsStack e).childElement ns loc =
      (e.childElement ns loc).map (reread (e.namespacesDeclaredHere :: nsStack)) := by
  rw [ElementOf.childElement, reread_childElements, List.find?_map, ElementOf.childElement]
  congr 2
  funext child
  simp only [Function.comp_apply, ElementOf.hasName, reread_qname]

/-- A child element that was read back. -/
theorem exists_childElement_read {e d child : Element} {nsStack : List NsLayer}
    (hread : unnumbered d = reread nsStack e) {ns : Option Str} {loc : Str}
    (hchild : e.childElement ns loc = some child) :
    ∃ c, d.childElement ns loc = some c ∧
      unnumbered c = reread (e.namespacesDeclaredHere :: nsStack) child := by
  have hfound := congrArg (fun f => ElementOf.childElement f ns loc) hread
  simp only [unnumbered_childElement, reread_childElement, hchild, Option.map_some] at hfound
  exact Option.map_eq_some_iff.mp hfound

theorem exists_position {d c : Element} {ns : Option Str} {loc : Str}
    (h : d.childElement ns loc = some c) : ∃ k : Nat, d.children[k]? = some (.element c) :=
  List.mem_iff_getElem?.mp (ElementOf.mem_childElements.mp (ElementOf.childElement_mem h))

theorem walk_concat {root d c : Element} {path : ElementPath} {k : Nat}
    (hwalk : root.walk path = some d) (hchild : d.children[k]? = some (.element c)) :
    root.walk (path ++ [k]) = some c := by
  rw [ElementOf.walk_append, hwalk, Option.bind_some, ElementOf.walk, hchild]
  rfl

/-- The children of an element that was read back, around one that is known. -/
theorem exists_split_read {e d c : Element} {front back : List Node} {nsStack : List NsLayer}
    (hread : unnumbered d = reread nsStack { e with children := front ++ .element c :: back }) :
    ∃ front' c' back', d.children = front' ++ .element c' :: back' ∧
      front'.map unnumberedNode =
        rereadChildren (e.namespacesDeclaredHere :: nsStack) [] front ∧
      unnumbered c' = reread (e.namespacesDeclaredHere :: nsStack) c ∧
      back'.map unnumberedNode = rereadChildren (e.namespacesDeclaredHere :: nsStack) [] back := by
  have hnodes : d.children.map unnumberedNode =
      rereadChildren (e.namespacesDeclaredHere :: nsStack) [] front ++
        .element (reread (e.namespacesDeclaredHere :: nsStack) c) ::
          rereadChildren (e.namespacesDeclaredHere :: nsStack) [] back := by
    rw [← unnumbered_children, hread, reread_children, rereadChildren_split]
  obtain ⟨front', rest', hchildren, hfront, hrest⟩ := List.map_eq_append_iff.mp hnodes
  obtain ⟨node, back', rfl, hnode, hback⟩ := List.map_eq_cons_iff.mp hrest
  cases node with
  | element c' => exact ⟨front', c', back', hchildren, hfront, Node.element.inj hnode, hback⟩
  | text t => cases hnode
  | comment t => cases hnode

/-- Every element of a tree is found again where the tree was read back. -/
theorem exists_walk_read {e d c : Element} {path : ElementPath} {nsStack : List NsLayer}
    (hread : unnumbered d = reread nsStack e) (hwalk : e.walk path = some c) :
    ∃ path' c' stack', d.walk path' = some c' ∧ unnumbered c' = reread stack' c := by
  induction path generalizing e d nsStack with
  | nil =>
      obtain rfl := Option.some.inj hwalk
      exact ⟨[], d, nsStack, rfl, hread⟩
  | cons i rest ih =>
      rw [ElementOf.walk] at hwalk
      split at hwalk
      next child hchild =>
        obtain ⟨hlt, hget⟩ := List.getElem?_eq_some_iff.mp hchild
        have hsplit : e = { e with
            children := e.children.take i ++ .element child :: e.children.drop (i + 1) } := by
          rw [← hget, List.getElem_cons_drop, List.take_append_drop]
        rw [hsplit] at hread
        obtain ⟨front', c', back', hchildren, -, hc', -⟩ := exists_split_read hread
        obtain ⟨path', found, stack', hfound, hsame⟩ := ih hc' hwalk
        refine ⟨front'.length :: path', found, stack', ?_, hsame⟩
        rw [ElementOf.walk, hchildren, List.getElem?_append_right (Nat.le_refl _), Nat.sub_self]
        exact hfound
      next => cases hwalk

/-! ## The digest -/

section

variable {table : List NsDecl} {algorithm : C14nAlgorithm} {doc : Document}

/-- Where a signed element was read back, its signature can be taken out again,
and what is left has the canonical octets of the element before it was signed. -/
theorem signature_read (matched : Matched table) (exclusive : algorithm.isExclusive = true)
    (indexed : doc.WellIndexed) {e signature d : Element} {front back : List Node}
    (he : Writable table [] e) (hsplit : e.children = front ++ back)
    (hname : signature.qname = ds "Signature")
    (hunsigned : e.childElement (some DS_NS) "Signature" = none) {path : ElementPath}
    (hwalk : doc.root.walk path = some d) {nsStack : List NsLayer}
    (hread : unnumbered d =
      reread nsStack { e with children := front ++ .element signature :: back })
    {octets : Octets} (hoctets : canonicalize e [] algorithm [] = .ok octets) :
    ∃ (k : Nat) (s : Element), d.childElement (some DS_NS) "Signature" = some s ∧
      d.children[k]? = some (.element s) ∧
      unnumbered s = reread (e.namespacesDeclaredHere :: nsStack) signature ∧
      ∀ chain, namespacesInScope chain ⊆ table →
        canonicalize (cloneExcludingId s.id d) chain algorithm [] = .ok octets := by
  obtain ⟨hdeclared, -, -, ⟨b, hb, huri⟩, hkeys, -, hcomments, hbelow⟩ := he
  obtain ⟨front', s, back', hchildren, hfront, hs, hback⟩ := exists_split_read hread
  have hposition : d.children[front'.length]? = some (.element s) := by
    rw [hchildren, List.getElem?_append_right (Nat.le_refl _), Nat.sub_self]
    rfl
  refine ⟨front'.length, s, ?first, hposition, hs, ?octets⟩
  case first =>
    apply childElement_of_split hchildren
    · intro child hchild
      have hmem : unnumberedNode (.element child) ∈
          rereadChildren (e.namespacesDeclaredHere :: nsStack) [] front := by
        rw [← hfront]
        exact List.mem_map_of_mem hchild
      obtain ⟨c, hc, heq⟩ := mem_rereadChildren hmem
      have hsame : child.qname = c.qname := by
        rw [← unnumbered_qname, heq, reread_qname]
      have hin : c ∈ e.childElements := by
        rw [ElementOf.mem_childElements, hsplit]
        exact List.mem_append_left _ hc
      have hother := List.find?_eq_none.mp hunsigned c hin
      rw [ElementOf.hasName, hsame, ← ElementOf.hasName]
      exact Bool.not_eq_true _ ▸ hother
    · rw [← unnumbered_hasName, hs, ElementOf.hasName, reread_qname, hname]
      rfl
  case octets =>
    intro chain hchain
    have hqname : d.qname = e.qname := by
      rw [← unnumbered_qname, hread, reread_qname]
    have hdecls : d.namespacesDeclaredHere = e.namespacesDeclaredHere := by
      rw [← unnumbered_namespaces, hread, reread_namespaces]
    have hattrs : d.attributes =
        e.attributes.map (rereadAttribute (e.namespacesDeclaredHere :: nsStack)) := by
      rw [← unnumbered_attributes, hread, reread_attributes]
    have hclone : cloneExcludingId s.id d = { d with children := front' ++ back' } := by
      rw [clone_eq_withoutAt indexed hwalk (walk_concat hwalk hposition), withoutAt,
        if_pos (List.prefix_append _ _), List.drop_left]
      have herase : d.children.eraseIdx front'.length = front' ++ back' := by
        rw [hchildren, List.eraseIdx_append_of_length_le (Nat.le_refl _), Nat.sub_self]
        rfl
      exact congrArg (fun nodes => { d with children := nodes }) herase
    -- both parts of the children have one canonical text
    obtain ⟨f, hf⟩ := (exists_settles exclusive matched).2 front ([] ++ e.namespacesDeclaredHere)
      (mergeAll [] (shownBindings [] b))
      (fun c hc => hcomments c (hsplit ▸ List.mem_append_left _ hc))
      (fun c hc => hbelow c (hsplit ▸ List.mem_append_left _ hc))
    obtain ⟨g, hg⟩ := (exists_settles exclusive matched).2 back ([] ++ e.namespacesDeclaredHere)
      (mergeAll [] (shownBindings [] b))
      (fun c hc => hcomments c (hsplit ▸ List.mem_append_right _ hc))
      (fun c hc => hbelow c (hsplit ▸ List.mem_append_right _ hc))
    have hempty : Within table [] [] := ⟨List.nil_subset _, List.nil_subset _⟩
    have hchained : Within table [] (namespacesInScope chain) := ⟨List.nil_subset _, hchain⟩
    have hbefore := hempty.mergeAll matched hdeclared
    have hafter := hchained.mergeAll matched hdeclared
    have hbody : emitChildren algorithm [] (mergeAll (namespacesInScope chain)
        e.namespacesDeclaredHere) (mergeAll [] (shownBindings [] b)) (front' ++ back') =
        .ok (f ++ g) := by
      rw [← emitElement_unnumbered.2, unnumberedChildren_eq, List.map_append, hfront, hback]
      exact emitChildren_append ((hf _ hafter).2 _ []) ((hg _ hafter).2 _ [])
    have hplain : (d.attributes.map plainAttribute) = e.attributes.map plainAttribute := by
      rw [hattrs, List.map_map]
      rfl
    have hkept : ∀ a ∈ d.attributes, PlainKey a.qname := by
      rw [hattrs]
      intro a ha
      obtain ⟨a', ha', rfl⟩ := List.mem_map.mp ha
      exact hkeys a' ha'
    have hnoChain : namespacesInScope [] = [] := rfl
    rw [canonicalize, canonicalText, hnoChain, emitElement_matched exclusive matched hbefore.tabled
      (hbefore.covers hb) huri hkeys, hsplit, emitChildren_append (hf _ hbefore).1
      (hg _ hbefore).1] at hoctets
    have hleft := @emitElement_matched _ _ _ exclusive matched
      { d with children := front' ++ back' } (hdecls ▸ hafter.tabled) b
      (hdecls ▸ hafter.covers hb) (hqname ▸ huri) hkept [] true
    dsimp only at hleft
    rw [hclone, canonicalize, canonicalText, hleft, hdecls, hbody, ← hoctets, openingText,
      openingText, hplain, hqname]

end

/-! ## Verification -/

/-- An identifier that a fragment can name. -/
structure Referable (id : Str) : Prop where
  nonempty : id ≠ []
  fragment : ¬ ("xpointer" : Str) <+: id
  plain : '(' ∉ id

/-- What a policy has to allow of signatures made with the given options. -/
structure PolicyAllows (policy : PeerCryptoPolicy) (opts : SignOptions) : Prop where
  signature : opts.sigAlg ∈ policy.allowedSignatureAlgorithms
  digest : opts.digestAlg ∈ policy.allowedDigestAlgorithms
  c14n : opts.c14nAlg ∈ policy.allowedC14nAlgorithms

/-- Options with exclusive canonicalization and without listed prefixes. -/
structure Exclusive (opts : SignOptions) : Prop where
  c14n : opts.c14nAlg.isExclusive = true
  prefixes : opts.inclusiveNamespaces = []

theorem childElement_buildSignatureElement {signedInfo signature : Element} {signatureB64 : Str}
    {includeX509Cert : Bool} {signingKey : KeyPair}
    (hname : signedInfo.qname = ds "SignedInfo")
    (h : buildSignatureElement signedInfo signatureB64 includeX509Cert signingKey =
      .ok signature) :
    signature.childElement (some DS_NS) "SignedInfo" = some signedInfo ∧
      signature.childElement (some DS_NS) "SignatureValue" =
        some ((ElementOf.build (ds "SignatureValue")).withText signatureB64) ∧
      signature.namespacesDeclaredHere = [dsDecl] := by
  have hself : signedInfo.hasName (some DS_NS) "SignedInfo" = true :=
    ElementOf.hasName_iff.mpr hname
  have hother : signedInfo.hasName (some DS_NS) "SignatureValue" = false := by
    rw [ElementOf.hasName, hname]
    rfl
  have hread : ∀ nodes : List Node,
      signature = { ((ElementOf.build (ds "Signature")).withNamespace (some "ds") DS_NS) with
        children := .element signedInfo :: .element
          ((ElementOf.build (ds "SignatureValue")).withText signatureB64) :: nodes } →
      signature.childElement (some DS_NS) "SignedInfo" = some signedInfo ∧
        signature.childElement (some DS_NS) "SignatureValue" =
          some ((ElementOf.build (ds "SignatureValue")).withText signatureB64) ∧
        signature.namespacesDeclaredHere = [dsDecl] := by
    rintro nodes rfl
    refine ⟨childElement_of_split (List.nil_append _).symm (by simp) hself,
      childElement_of_split (List.singleton_append).symm ?_ rfl, rfl⟩
    intro child hchild
    rw [Node.element.inj (List.mem_singleton.mp hchild)]
    exact hother
  unfold buildSignatureElement at h
  dsimp only at h
  split at h
  · split at h
    next cert hcert =>
      obtain rfl := Except.ok.inj h
      exact hread _ rfl
    next => cases h
  · obtain rfl := Except.ok.inj h
    exact hread _ rfl

/-- The canonical octets of `ds:SignedInfo` do not depend on where its prefix is
declared. -/
theorem canonicalize_signedInfo {table : List NsDecl} (matched : Matched table)
    (hds : dsDecl ∈ table) (hec : ecDecl ∈ table) {algorithm : C14nAlgorithm}
    (exclusive : algorithm.isExclusive = true) (sigAlg : SignatureAlgorithm)
    (digest : DigestAlgorithm) (c14n : C14nAlgorithm) (idValue digestB64 : Str)
    {signedInfoDoc : Document}
    (hdoc : Document.new (cloneWithNamespace
      (buildSignedInfo sigAlg digest c14n idValue digestB64 []) (some "ds") DS_NS) =
      .ok signedInfoDoc) :
    ∃ octets, canonicalize signedInfoDoc.root [] algorithm [] = .ok octets ∧
      ∀ (read : Element) (nsStack : List NsLayer) (chain : List Element),
        unnumbered read =
          reread nsStack (buildSignedInfo sigAlg digest c14n idValue digestB64 []) →
        Within table [dsDecl] (namespacesInScope chain) →
        canonicalize read chain algorithm [] = .ok octets := by
  have hwritable : Writable table [dsDecl]
      (buildSignedInfo sigAlg digest c14n idValue digestB64 []) :=
    writable_buildSignedInfo hec (List.mem_singleton.mpr rfl) _ _ _ _ _ _
  obtain ⟨t, ht⟩ := (exists_settles exclusive matched).1 _ [dsDecl] [] hwritable
  have hdeclared : Within table [dsDecl] [dsDecl] :=
    ⟨List.Subset.refl _, List.cons_subset.mpr ⟨hds, List.nil_subset _⟩⟩
  have hclone : C14n.emitElement algorithm [] [] [] true (cloneWithNamespace
      (buildSignedInfo sigAlg digest c14n idValue digestB64 []) (some "ds") DS_NS) = .ok t := by
    rw [← (ht _ hdeclared true).1, cloneWithNamespace, buildSignedInfo_nil, C14n.emitElement,
      C14n.emitElement]
    simp only [computeRenderedNamespaces, if_pos exclusive]
    rfl
  refine ⟨Text.asBytes t, ?_, ?_⟩
  · rw [canonicalize_alike (Document.new_unnumbered hdoc), canonicalize, canonicalText]
    exact congrArg (Except.map Text.asBytes) hclone
  · intro read nsStack chain hread hwithin
    rw [canonicalize, canonicalText, ← emitElement_unnumbered.1, hread,
      (ht _ hwithin true).2 nsStack]
    rfl

theorem resolveUri_fragment {doc : Document} (indexed : doc.WellIndexed) {id : Str}
    (referable : Referable id) {path : ElementPath} {d : Element}
    (hwalk : doc.root.walk path = some d)
    (hid : ∃ a ∈ d.attributes, isIdAttr a = true ∧ a.value = id) :
    resolveUri doc ('#' :: id) = .ok d.id := by
  have hindex := indexed.elementByIdAttr_iff.mpr ⟨path, d, hwalk, rfl, hid⟩
  rw [resolveUri, if_neg, hindex]
  · rfl
  · rintro (hnil | hxpointer | hparen)
    · exact referable.nonempty hnil
    · exact referable.fragment hxpointer
    · exact referable.plain hparen

/-- An element that was built and signed verifies wherever it was read back in a
document of the same prefixes, under a certificate of the key. -/
theorem verifySignature_read {crypto : Primitives} (correct : SignsCorrectly crypto)
    {table : List NsDecl} (matched : Matched table) (hds : dsDecl ∈ table) (hec : ecDecl ∈ table)
    {doc : Document} (indexed : doc.WellIndexed) (tabled : Tabled table doc.root)
    {e signed d : Element} {opts : SignOptions} (exclusive : Exclusive opts)
    (he : Writable table [] e) (hunsigned : e.childElement (some DS_NS) "Signature" = none)
    (hid : ∀ id, e.attr none "ID" = some id → Referable id)
    (signs : signElement crypto e opts = .ok signed) {path : ElementPath}
    (hwalk : doc.root.walk path = some d) {nsStack : List NsLayer}
    (hread : unnumbered d = reread nsStack signed) {certs : List X509Certificate}
    (hcert : ∃ cert ∈ certs, cert.publicKey = opts.signingKey.publicKey crypto)
    {policy : PeerCryptoPolicy} (allowed : PolicyAllows policy opts) :
    ∃ s verified, d.childElement (some DS_NS) "Signature" = some s ∧
      verifySignature crypto doc s certs policy = .ok verified ∧
      verified.signedElement = d.id := by
  obtain ⟨idValue, hidValue, signs⟩ := bind_eq_ok_iff.mp signs
  obtain ⟨octets, hoctets, signs⟩ := bind_eq_ok_iff.mp signs
  obtain ⟨signedInfoDoc, hdoc, signs⟩ := bind_eq_ok_iff.mp signs
  obtain ⟨infoOctets, hinfoOctets, signs⟩ := bind_eq_ok_iff.mp signs
  obtain ⟨signatureBytes, hsign, signs⟩ := bind_eq_ok_iff.mp signs
  obtain ⟨signature, hsignature, signs⟩ := bind_eq_ok_iff.mp signs
  obtain rfl := Except.ok.inj signs
  rw [exclusive.prefixes] at hoctets hinfoOctets hdoc hsignature
  have hinsert : e.insertChild (signatureInsertionIndex e) (.element signature) =
      { e with children := e.children.take (signatureInsertionIndex e) ++
        .element signature :: e.children.drop (signatureInsertionIndex e) } := by
    rw [ElementOf.insertChild, insertIdx_eq_split _ (signatureInsertionIndex_le e)]
  rw [hinsert] at hread
  -- the signature stands among the children, and without it the element is what was digested
  obtain ⟨k, s, hs, hposition, hsRead, hdigested⟩ := signature_read matched exclusive.c14n indexed
    he (List.take_append_drop _ _).symm (buildSignatureElement_qname hsignature) hunsigned hwalk
    hread hoctets
  obtain ⟨hinfo, hvalue, hdeclared⟩ := childElement_buildSignatureElement rfl hsignature
  obtain ⟨si, hsi, hsiRead⟩ := exists_childElement_read hsRead hinfo
  obtain ⟨sv, hsv, hsvRead⟩ := exists_childElement_read hsRead hvalue
  obtain ⟨j, hj⟩ := exists_position hsi
  have hsWalk := walk_concat hwalk hposition
  have hsiWalk := walk_concat hsWalk hj
  -- its parts are read as they were built
  have hsiPlain := plain_of_unnumbered hsiRead
  have hc14n := parseC14nMethod_signedInfo opts.sigAlg opts.digestAlg opts.c14nAlg idValue
    (base64Encode (crypto.digest opts.digestAlg octets)) allowed.c14n
  have hmethod := parseSignatureMethod_signedInfo opts.sigAlg opts.digestAlg opts.c14nAlg idValue
    (base64Encode (crypto.digest opts.digestAlg octets)) allowed.signature
  rw [← parseC14nMethod_plain, ← hsiPlain, parseC14nMethod_plain] at hc14n
  rw [← parseSignatureMethod_plain, ← hsiPlain, parseSignatureMethod_plain] at hmethod
  have hreference := singleReference_plain si
  rw [hsiPlain, singleReference_plain, singleReference_signedInfo] at hreference
  obtain ⟨reference, hsingle, hreference⟩ := exists_of_map_ok hreference.symm
  have hattribute : ∃ a ∈ d.attributes, isIdAttr a = true ∧ a.value = idValue := by
    have hattrs : d.attributes = e.attributes.map
        (rereadAttribute (e.namespacesDeclaredHere :: nsStack)) := by
      rw [← unnumbered_attributes, hread, reread_attributes]
    obtain ⟨a, ha, rfl⟩ := Option.map_eq_some_iff.mp (okOr_eq_ok_iff.mp hidValue)
    refine ⟨rereadAttribute (e.namespacesDeclaredHere :: nsStack) a, ?_, ?_, rfl⟩
    · rw [hattrs]
      exact List.mem_map_of_mem (List.mem_of_find?_eq_some ha)
    · have hfound := List.find?_some ha
      rw [Bool.and_comm] at hfound
      exact Bool.or_eq_true_iff.mpr (.inl hfound)
  have htarget := resolveUri_fragment indexed (hid idValue (okOr_eq_ok_iff.mp hidValue)) hwalk
    hattribute
  have hparsed := parseReference_reference opts.digestAlg opts.c14nAlg idValue
    (crypto.digest opts.digestAlg octets) htarget allowed.digest allowed.c14n
  rw [← parseReference_plain, ← hreference, parseReference_plain] at hparsed
  -- the digest
  obtain ⟨chain, hchain, -⟩ := ancestorChain_of_walk indexed hwalk
  have hchainTabled : ∀ f ∈ chain, f.namespacesDeclaredHere ⊆ table := by
    intro f hf
    obtain ⟨i, -, hi⟩ := (mem_ancestorChain indexed hwalk hchain).mp hf
    exact tabled _ f hi
  have hchainScope : namespacesInScope chain ⊆ table := by
    intro x hx
    obtain ⟨f, hf, hx⟩ := (mem_namespacesInScope matched hchainTabled).mp hx
    exact hchainTabled f hf hx
  have hdigest : computeReferenceDigest crypto doc
      ⟨d.id, [.envelopedSignature, .c14n opts.c14nAlg], opts.digestAlg,
        crypto.digest opts.digestAlg octets, []⟩ s.id =
      .ok (crypto.digest opts.digestAlg octets) := by
    rw [computeReferenceDigest, referenceOctets,
      indexed.element_iff.mpr ⟨path, hwalk, rfl⟩, hchain, okOr_some, ok_bind, okOr_some, ok_bind,
      if_pos List.mem_cons_self]
    exact congrArg (Except.map _) (hdigested chain hchainScope)
  -- the octets that were signed
  obtain ⟨infoChain, hinfoChain, -⟩ := ancestorChain_of_walk indexed hsiWalk
  have hinfoTabled : ∀ f ∈ infoChain, f.namespacesDeclaredHere ⊆ table := by
    intro f hf
    obtain ⟨i, -, hi⟩ := (mem_ancestorChain indexed hsiWalk hinfoChain).mp hf
    exact tabled _ f hi
  have hinfoScope : Within table [dsDecl] (namespacesInScope infoChain) := by
    constructor
    · intro x hx
      obtain rfl := List.mem_singleton.mp hx
      refine (mem_namespacesInScope matched hinfoTabled).mpr ⟨s, ?_, ?_⟩
      · refine (mem_ancestorChain indexed hsiWalk hinfoChain).mpr
          ⟨(path ++ [k]).length, by simp, ?_⟩
        rw [List.take_left]
        exact hsWalk
      · rw [← unnumbered_namespaces, hsRead, reread_namespaces, hdeclared]
        exact List.mem_singleton.mpr rfl
    · intro x hx
      obtain ⟨f, hf, hx⟩ := (mem_namespacesInScope matched hinfoTabled).mp hx
      exact hinfoTabled f hf hx
  obtain ⟨covered, hcovered, hsame⟩ := canonicalize_signedInfo matched hds hec exclusive.c14n _ _ _
    _ _ hdoc
  obtain rfl : covered = infoOctets := Except.ok.inj (hcovered.symm.trans hinfoOctets)
  have hsigned := hsame si _ infoChain hsiRead hinfoScope
  have htext : sv.textContent = base64Encode signatureBytes := by
    rw [← plain_textContent, plain_of_unnumbered hsvRead, plain_textContent]
    exact List.append_nil _
  -- and the key
  obtain ⟨cert, hmem, hkey⟩ := hcert
  have hverifies := correct opts.signingKey opts.sigAlg covered signatureBytes hsign
  rw [← hkey] at hverifies
  obtain ⟨vmatch, hvmatch⟩ := verify_of_candidate crypto (extractKeyInfo s) allowed.signature hmem
    hverifies
  refine ⟨s, ⟨d.id, vmatch.certFingerprint, vmatch.algorithm⟩, hs, ?_, rfl⟩
  rw [verifySignature, hsi, okOr_some, ok_bind, hc14n, ok_bind, hmethod, ok_bind, hsingle, ok_bind,
    hparsed, ok_bind, hdigest, ok_bind, if_neg (not_not_intro rfl), hinfoChain, okOr_some, ok_bind,
    hsigned, ok_bind, hsv, okOr_some, ok_bind, htext, decodeBase64Lenient_encode, ok_bind]
  dsimp only
  rw [hvmatch, ok_bind]

/-- Handles are not written. -/
theorem reread_unnumbered :
    (∀ (e : Element) (nsStack : List NsLayer), reread nsStack (unnumbered e) = reread nsStack e) ∧
    ∀ (nodes : List Node) (nsStack : List NsLayer) (pending : Str),
      rereadChildren nsStack pending (unnumberedChildren nodes) =
        rereadChildren nsStack pending nodes := by
  apply Element.induct
  case mk =>
    rintro ⟨qname, sourcePrefix, declared, attributes, children, id⟩ ih nsStack
    rw [unnumbered, reread, reread, ih]
  case nil =>
    intro nsStack pending
    rw [unnumberedChildren]
  case element =>
    intro e rest he hrest nsStack pending
    rw [unnumberedChildren, unnumberedNode, rereadChildren, rereadChildren, he, hrest]
  case text =>
    intro t rest hrest nsStack pending
    rw [unnumberedChildren, unnumberedNode, rereadChildren, rereadChildren, hrest]
  case comment =>
    intro c rest hrest nsStack pending
    rw [unnumberedChildren, unnumberedNode, rereadChildren, rereadChildren, hrest]

/-- A signature survives the wire: wherever a signed element was placed in a
built document, the document that is parsed of the emitted text holds the
element with a signature that verifies and covers it. -/
theorem signature_survives_wire {crypto : Primitives} (correct : SignsCorrectly crypto)
    {qx : QuickXml} (lawful : qx.Lawful) {table : List NsDecl} (matched : Matched table)
    (hds : dsDecl ∈ table) (hec : ecDecl ∈ table) {root : Element}
    (hroot : Writable table [] root) {built : Document} (hbuilt : Document.new root = .ok built)
    {text : Str} (hemit : emitDocument built = .ok text) {limits : XmlLimits} {doc : Document}
    (hparsed : Document.parseWithLimits qx (Text.asBytes text) limits = .ok doc)
    {e signed placed : Element} {opts : SignOptions} (exclusive : Exclusive opts)
    (he : Writable table [] e) (hunsigned : e.childElement (some DS_NS) "Signature" = none)
    (hid : ∀ id, e.attr none "ID" = some id → Referable id)
    (signs : signElement crypto e opts = .ok signed) {path : ElementPath}
    (hwalk : built.root.walk path = some placed) (halike : Alike placed signed)
    {certs : List X509Certificate}
    (hcert : ∃ cert ∈ certs, cert.publicKey = opts.signingKey.publicKey crypto)
    {policy : PeerCryptoPolicy} (allowed : PolicyAllows policy opts) :
    ∃ path' d s verified, doc.root.walk path' = some d ∧ plain d = plain signed ∧
      d.childElement (some DS_NS) "Signature" = some s ∧
      verifySignature crypto doc s certs policy = .ok verified ∧
      verified.signedElement = d.id ∧ doc.element d.id = some d := by
  have hwritable := hroot.new hbuilt
  have hread := unnumbered_of_parse_emitted lawful hemit
    (hwritable.writesBack matched.toPrefixTable) hparsed
  have indexed := Document.wellIndexed_parseWithLimits hparsed
  obtain ⟨path', d, stack, hd, hsame⟩ := exists_walk_read hread hwalk
  rw [← reread_unnumbered.1, halike, reread_unnumbered.1] at hsame
  obtain ⟨s, verified, hs, hverified, hcovers⟩ := verifySignature_read correct matched hds hec
    indexed (tabled_of_read hwritable hread) exclusive he hunsigned hid signs hd hsame hcert allowed
  exact ⟨path', d, s, verified, hd, plain_of_unnumbered hsame, hs, hverified, hcovers,
    indexed.element_iff.mpr ⟨path', hd, rfl⟩⟩

/-- The prefixes of the builders stand for one namespace each. -/
theorem matched_prefixes : Matched PREFIXES where
  toPrefixTable := plainPrefixes
  injective := by decide

namespace Carried

/-- An assertion with its issuer. -/
def assertion : Element :=
  (((ElementOf.build ⟨some SAML_NS, "Assertion"⟩).withAttribute ⟨none, "ID"⟩ "a").withChild
    (.element ((ElementOf.build ⟨some SAML_NS, "Issuer"⟩).withText "idp & co"))).withNamespace
    (some "saml") SAML_NS

/-- A response that declares a prefix of its own around the assertion. -/
def message (signed : Element) : Element :=
  (((ElementOf.build ⟨some SAMLP_NS, "Response"⟩).withAttribute ⟨none, "ID"⟩ "r").withChild
    (.element signed)).withNamespace (some "samlp") SAMLP_NS

def options : SignOptions where
  signingKey := ⟨.rsa, [7], none⟩
  sigAlg := .rsaSha256
  digestAlg := .sha256
  c14nAlg := .exclusiveCanonical
  inclusiveNamespaces := []
  includeX509Cert := false

def cert : X509Certificate where
  der := []
  spkiDer := []
  publicKey := options.signingKey.publicKey Transparent.primitives

theorem writable_assertion {scope : List NsDecl} : Writable PREFIXES scope assertion := by
  have hdecl : (some ("saml" : Str), SAML_NS) ∈ scope ++ [(some ("saml" : Str), SAML_NS)] :=
    List.mem_append_right _ List.mem_cons_self
  have hissuer : Composed PREFIXES (scope ++ [(some ("saml" : Str), SAML_NS)]) [] [] _ :=
    (Composed.build hdecl (by decide : isNcName "Issuer" = true)).withText "idp & co"
  exact ((((Composed.build hdecl (by decide : isNcName "Assertion" = true)).withAttribute
    (by decide : isFreshName [] "ID" = true) "a").withChild hissuer.writable).withNamespace
    (by decide) (by simp)).writable

theorem writable_message {signed : Element}
    (h : signElement Transparent.primitives assertion options = .ok signed) :
    Writable PREFIXES [] (message signed) := by
  have hdecl : (some ("samlp" : Str), SAMLP_NS) ∈ [] ++ [(some ("samlp" : Str), SAMLP_NS)] :=
    List.mem_append_right _ List.mem_cons_self
  exact ((((Composed.build hdecl (by decide : isNcName "Response" = true)).withAttribute
    (by decide : isFreshName [] "ID" = true) "r").withChild
    (writable_signElement (by decide) (by decide) writable_assertion h)).withNamespace
    (by decide) (by simp)).writable

/-- Sign, build, emit and parse. -/
def carried : Result (Element × Document × Str × Document) := do
  let signed ← signElement Transparent.primitives assertion options
  let built ← Document.new (message signed)
  let text ← emitDocument built
  let doc ← Scanning.parseText text
  if '\r' ∈ text then .error .inflate else .ok (signed, built, text, doc)

set_option maxRecDepth 20000 in
theorem carried_isOk : carried.isOk = true := by decide +kernel

end Carried

theorem signature_survives_wire_sample : ∃ signed built text doc path d s verified,
    signElement Transparent.primitives Carried.assertion Carried.options = .ok signed ∧
      Document.new (Carried.message signed) = .ok built ∧ emitDocument built = .ok text ∧
      Document.parseWithLimits Scanning.reader (Text.asBytes text) .default = .ok doc ∧
      doc.root.walk path = some d ∧ plain d = plain signed ∧
      d.childElement (some DS_NS) "Signature" = some s ∧
      verifySignature Transparent.primitives doc s [Carried.cert] .strongDefaults =
        .ok verified ∧ verified.signedElement = d.id := by
  obtain ⟨⟨signed, built, text, doc⟩, hcarried⟩ := exists_of_isOk Carried.carried_isOk
  obtain ⟨message, hsigned, hcarried⟩ := bind_eq_ok_iff.mp hcarried
  obtain ⟨document, hbuilt, hcarried⟩ := bind_eq_ok_iff.mp hcarried
  obtain ⟨emitted, hemit, hcarried⟩ := bind_eq_ok_iff.mp hcarried
  obtain ⟨received, hparsed, hcarried⟩ := bind_eq_ok_iff.mp hcarried
  obtain ⟨hreturn, hcarried⟩ := ite_error_eq_ok_iff.mp hcarried
  cases hcarried
  rw [← Scanning.parse_asBytes hreturn] at hparsed
  have hroot : Alike built.root (Carried.message signed) := Document.new_unnumbered hbuilt
  obtain ⟨placed, hplaced, halike⟩ := hroot.exists_child (i := 0) rfl
  have hwalk : built.root.walk [0] = some placed := by
    rw [ElementOf.walk, hplaced]
    rfl
  have hid : ∀ id, Carried.assertion.attr none "ID" = some id → Referable id := by
    rintro id hid
    obtain rfl : "a" = id := Option.some.inj hid
    exact ⟨by decide, by decide, by decide⟩
  have allowed : PolicyAllows .strongDefaults Carried.options :=
    ⟨by decide, by decide, by decide⟩
  obtain ⟨path, d, s, verified, hd, hplain, hs, hverified, hcovers, -⟩ :=
    signature_survives_wire Transparent.signsCorrectly Scanning.lawful matched_prefixes (by decide)
      (by decide) (Carried.writable_message hsigned) hbuilt hemit hparsed ⟨rfl, rfl⟩
      Carried.writable_assertion rfl hid hsigned hwalk halike
      ⟨Carried.cert, List.mem_cons_self, rfl⟩ allowed
  exact ⟨signed, built, text, doc, path, d, s, verified, hsigned, hbuilt, hemit, hparsed, hd,
    hplain, hs, hverified, hcovers⟩

end Saml.Dsig
