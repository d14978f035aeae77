import Saml.Dsig.AncestorChain
import Saml.Dsig.Pruned
import Saml.Dsig.Sign
import Saml.Xml.Unnumbered
import Saml.Xml.WellIndexed
import Mathlib.Data.List.InsertIdx

/-!
# The enveloped signature

Signing splices one node into the children of an element, and the
enveloped-signature transform takes it out again. The handles of the document
tell which node that is; neither canonicalization nor the rest of the tree
depends on them.
-/

namespace Saml.Dsig

open Xml

/-! ## Canonicalization and handles -/

namespace C14n

@[simp] theorem utilizedPrefixes_unnumbered (e : Element) (inScope : List NsDecl) :
    utilizedPrefixes (unnumbered e) inScope = utilizedPrefixes e inScope := by
  rcases e with ⟨qname, sourcePrefix, declared, attributes, children, id⟩
  rw [unnumbered]
  rfl

@[simp] theorem computeRenderedNamespaces_unnumbered (e : Element) (inScope rendered : List NsDecl)
    (isApex : Bool) (algorithm : C14nAlgorithm) (prefixes : List Str) :
    computeRenderedNamespaces (unnumbered e) inScope rendered isApex algorithm prefixes =
      computeRenderedNamespaces e inScope rendered isApex algorithm prefixes := by
  simp only [computeRenderedNamespaces, computeExclusive, computeInclusive,
    utilizedPrefixes_unnumbered, unnumbered_namespaces]

theorem emitElement_unnumbered {algorithm : C14nAlgorithm} {prefixes : List Str} :
    (∀ (e : Element) (scope rendered : List NsDecl) (isApex : Bool),
      emitElement algorithm prefixes scope rendered isApex (unnumbered e) =
        emitElement algorithm prefixes scope rendered isApex e) ∧
    ∀ (nodes : List Node) (scope rendered : List NsDecl),
      emitChildren algorithm prefixes scope rendered (unnumberedChildren nodes) =
        emitChildren algorithm prefixes scope rendered nodes := by
  apply Element.induct
  case mk =>
    intro e ih scope rendered isApex
    have hrendered := computeRenderedNamespaces_unnumbered e
    rcases e with ⟨qname, sourcePrefix, declared, attributes, children, id⟩
    simp only [unnumbered] at hrendered
    simp only [unnumbered, emitElement, hrendered, ih]
  case nil =>
    intro scope rendered
    rw [unnumberedChildren]
  case element =>
    intro child rest ihChild ihRest scope rendered
    rw [unnumberedChildren, unnumberedNode, emitChildren, emitChildren, emitNode, emitNode,
      ihChild, ihRest]
  case text =>
    intro t rest ih scope rendered
    rw [unnumberedChildren, unnumberedNode, emitChildren, emitChildren, ih]
  case comment =>
    intro c rest ih scope rendered
    rw [unnumberedChildren, unnumberedNode, emitChildren, emitChildren, ih]

/-- Trees that differ in handles only have the same canonical octets. -/
theorem canonicalize_alike {e d : Element} (h : Alike e d) (chain : List Element)
    (algorithm : C14nAlgorithm) (prefixes : List Str) :
    canonicalize e chain algorithm prefixes = canonicalize d chain algorithm prefixes := by
  unfold canonicalize canonicalText
  rw [← emitElement_unnumbered.1 e, h, emitElement_unnumbered.1 d]

end C14n

/-! ## Positions around a removed node -/

/-- Where the node at a path stood before a node was removed. -/
def past : ElementPath → ElementPath → ElementPath
  | [i], k :: rest => (if k < i then k else k + 1) :: rest
  | i :: j :: position, k :: rest =>
      if k = i then k :: past (j :: position) rest else k :: rest
  | _, path => path

@[simp] theorem past_nil (position : ElementPath) : past position [] = [] := by
  rcases position with _ | ⟨i, _ | ⟨j, position⟩⟩ <;> rfl

theorem getElem?_removed (nodes : List Node) (i k : Nat) :
    (nodes.eraseIdx i)[k]? = nodes[if k < i then k else k + 1]? := by
  rw [List.getElem?_eraseIdx]
  split <;> rfl

theorem withoutAt_cons (f : Element) (i : Nat) (path position : ElementPath) :
    withoutAt f (i :: path) (i :: position) = withoutAt f path position := by
  simp only [withoutAt, List.cons_prefix_cons, true_and, List.length_cons, List.drop_succ_cons]

theorem withoutAt_of_not_prefix {path position : ElementPath} (h : ¬ path <+: position)
    (f : Element) : withoutAt f path position = f :=
  if_neg h

theorem withoutAt_cons_of_ne {i k : Nat} (h : k ≠ i) (path position : ElementPath) (f : Element) :
    withoutAt f (k :: path) (i :: position) = f := by
  apply withoutAt_of_not_prefix
  intro hpre
  exact h (List.cons_prefix_cons.mp hpre).1

/-- An element of the pruned tree is the one that stood there, pruned itself. -/
theorem walk_without {e : Element} {position : ElementPath} (hne : position ≠ [])
    (path : ElementPath) :
    (e.without position).walk path =
      (e.walk (past position path)).map fun f => withoutAt f (past position path) position := by
  induction position generalizing e path with
  | nil => exact absurd rfl hne
  | cons i position ih =>
    cases path with
    | nil => simp [withoutAt]
    | cons k rest =>
      cases position with
      | nil =>
        have hk : (if k < i then k else k + 1) ≠ i := by split <;> omega
        simp only [past, withoutAt_cons_of_ne hk, Option.map_id', ElementOf.without,
          ElementOf.walk, getElem?_removed]
      | cons j position =>
        by_cases hk : k = i
        · subst hk
          rw [past, if_pos rfl, ElementOf.without, ElementOf.walk]
          simp only [withoutAt_cons]
          cases hchild : e.children[k]? with
          | none => simp [ElementOf.walk, hchild]
          | some node =>
            cases node with
            | element child =>
              have hlt := (List.getElem?_eq_some_iff.mp hchild).1
              simpa only [ElementOf.walk, hchild, List.getElem?_set_self hlt] using
                ih (List.cons_ne_nil _ _) rest
            | text t => simp [ElementOf.walk, hchild]
            | comment c => simp [ElementOf.walk, hchild]
        · rw [past, if_neg hk, ElementOf.without]
          simp only [withoutAt_cons_of_ne hk, Option.map_id']
          split
          · rw [ElementOf.walk, ElementOf.walk, List.getElem?_set_ne (Ne.symm hk)]
          · rfl

/-- The declarations around an element of the pruned tree are those around it before. -/
theorem layersTo_without {e : Element} {position : ElementPath} (hne : position ≠ [])
    (path : ElementPath) :
    layersTo (e.without position) path = layersTo e (past position path) := by
  induction position generalizing e path with
  | nil => exact absurd rfl hne
  | cons i position ih =>
    cases path with
    | nil => simp [layersTo]
    | cons k rest =>
      cases position with
      | nil =>
        simp only [past, ElementOf.without, layersTo, getElem?_removed]
      | cons j position =>
        by_cases hk : k = i
        · subst hk
          rw [past, if_pos rfl, ElementOf.without]
          split
          next child hchild =>
            have hlt := (List.getElem?_eq_some_iff.mp hchild).1
            rw [layersTo, layersTo, hchild, List.getElem?_set_self hlt]
            exact congrArg (· ++ [e.namespacesDeclaredHere]) (ih (List.cons_ne_nil _ _) rest)
          next hchild =>
            rw [layersTo, layersTo]
            split
            next child heq => exact absurd heq (hchild child)
            next => rfl
        · rw [past, if_neg hk, ElementOf.without]
          split
          · rw [layersTo, layersTo, List.getElem?_set_ne (Ne.symm hk)]
          · rfl

/-! ## The element before signing -/

theorem alike_eraseChild {d e : Element} (h : Alike d e) (i : Nat) :
    Alike { d with children := d.children.eraseIdx i }
      { e with children := e.children.eraseIdx i } := by
  rcases d with ⟨qname, sourcePrefix, declared, attributes, children, id⟩
  rcases e with ⟨qname', sourcePrefix', declared', attributes', children', id'⟩
  simp only [Alike, unnumbered, unnumberedChildren_eq, ElementOf.mk.injEq, and_true,
    ← List.eraseIdx_map] at h ⊢
  obtain ⟨hqname, hprefix, hdeclared, hattributes, hchildren⟩ := h
  exact ⟨hqname, hprefix, hdeclared, hattributes, congrArg (List.eraseIdx · i) hchildren⟩

/-- What removing the signature `s` at position `i` of the element `d` leaves: the
tree `e` again, with its octets, and every other node of the document where it
stood, in the scope it had. -/
structure Unsigned (doc : Document) (path : ElementPath) (i : Nat) (e d s : Element) : Prop where
  inserted : d.children[i]? = some (.element s)
  named : s.qname = ds "Signature"
  restored : Alike (cloneExcludingId s.id d) e
  octets : ∀ chain algorithm prefixes,
    C14n.canonicalize (cloneExcludingId s.id d) chain algorithm prefixes =
      C14n.canonicalize e chain algorithm prefixes
  covered : ∀ parsed : ParsedReference, parsed.target = d.id →
    .envelopedSignature ∈ parsed.transforms →
      ∃ chain, ancestorChain doc d.id = some chain ∧
        referenceOctets doc parsed s.id =
          C14n.canonicalize e chain parsed.c14nAlgorithm parsed.inclusiveNamespacePrefixes
  children : (cloneExcludingId s.id d).children = d.children.eraseIdx i
  outside : ∀ p f, doc.root.walk p = some f → ¬ p <+: path → cloneExcludingId s.id f = f
  around : ∀ p f, doc.root.walk p = some f → p <+: path →
    cloneExcludingId s.id f = f.without ((path ++ [i]).drop p.length)
  nodes : ∀ p, (cloneExcludingId s.id doc.root).walk p =
    (doc.root.walk (past (path ++ [i]) p)).map (cloneExcludingId s.id)
  context : ∀ p, layersTo (cloneExcludingId s.id doc.root) p =
    layersTo doc.root (past (path ++ [i]) p)

/-- Wherever a signed element stands in a document, removing its signature undoes
the signing and touches nothing else. -/
theorem unsigned_of_signElement {crypto : Crypto.Primitives} {e signed d : Element}
    {opts : SignOptions} {doc : Document} {path : ElementPath} (indexed : doc.WellIndexed)
    (signs : signElement crypto e opts = .ok signed) (hwalk : doc.root.walk path = some d)
    (alike : Alike d signed) : ∃ s, Unsigned doc path (signatureInsertionIndex e) e d s := by
  obtain ⟨_, _, _, signature, hsignature, rfl⟩ := signElement_ok crypto signs
  have hle := signatureInsertionIndex_le e
  generalize signatureInsertionIndex e = i at *
  -- The signature stands where it was put, under the handle the document gave it.
  have hinserted : (e.insertChild i (.element signature)).children[i]? =
      some (.element signature) := by
    rw [ElementOf.insertChild, List.getElem?_insertIdx_self, if_pos hle]
  obtain ⟨s, hs, hsame⟩ := alike.exists_child hinserted
  have hposition : doc.root.walk (path ++ [i]) = some s := by
    rw [ElementOf.walk_append, hwalk, Option.bind_some, ElementOf.walk, hs]
    rfl
  have hne : path ++ [i] ≠ [] := by simp
  have hclone (p : ElementPath) (f : Element) (hf : doc.root.walk p = some f) :
      cloneExcludingId s.id f = withoutAt f p (path ++ [i]) :=
    clone_eq_withoutAt indexed hf hposition
  have hself : cloneExcludingId s.id d = { d with children := d.children.eraseIdx i } := by
    rw [hclone path d hwalk, withoutAt, if_pos (List.prefix_append _ _), List.drop_left]
    rfl
  have hroot : cloneExcludingId s.id doc.root = doc.root.without (path ++ [i]) := by
    rw [hclone [] doc.root rfl, withoutAt, if_pos (List.nil_prefix)]
    rfl
  have hrestored : Alike (cloneExcludingId s.id d) e := by
    have herased := alike_eraseChild alike i
    rw [ElementOf.insertChild, List.eraseIdx_insertIdx_self] at herased
    rw [hself]
    exact herased
  refine ⟨s, hs, hsame.qname.trans (buildSignatureElement_qname hsignature), hrestored,
    C14n.canonicalize_alike hrestored, ?covered, congrArg ElementOf.children hself, ?outside,
    ?around, ?nodes, ?context⟩
  case covered =>
    intro parsed htarget henveloped
    obtain ⟨chain, hchain, -⟩ := ancestorChain_of_walk indexed hwalk
    have helement : doc.element d.id = some d := indexed.element_iff.mpr ⟨path, hwalk, rfl⟩
    refine ⟨chain, hchain, ?_⟩
    rw [referenceOctets, htarget, helement, hchain]
    simp only [okOr, ok_bind, if_pos henveloped]
    exact C14n.canonicalize_alike hrestored _ _ _
  case outside =>
    intro p f hf hout
    rw [hclone p f hf]
    by_cases hp : p <+: path ++ [i]
    · -- Only the signature itself is left, and it does not contain itself.
      obtain rfl := (List.prefix_concat_iff.mp hp).resolve_right hout
      rw [withoutAt, if_pos hp, List.drop_length]
      rfl
    · exact withoutAt_of_not_prefix hp f
  case around =>
    intro p f hf hin
    rw [hclone p f hf, withoutAt, if_pos (hin.trans (List.prefix_append _ _))]
  case nodes =>
    intro p
    rw [hroot, walk_without hne]
    cases hf : doc.root.walk (past (path ++ [i]) p) with
    | none => rfl
    | some f => exact congrArg some (hclone _ f hf).symm
  case context =>
    intro p
    rw [hroot, layersTo_without hne]

namespace Unsigned

/-- An assertion with text around its issuer and a comment below it. -/
def assertion : Element :=
  ((((((ElementOf.build ⟨some SAML_NS, "Assertion"⟩).withNamespace (some "saml")
    SAML_NS).withAttribute ⟨none, "ID"⟩ "a").withChild (.text "\n  ")).withChild
    (.element ((ElementOf.build ⟨some SAML_NS, "Issuer"⟩).withText "idp"))).withChild
    (.text "\n  ")).withChild
    (.element ((ElementOf.build ⟨some SAML_NS, "Subject"⟩).withChild (.comment "empty")))

/-- A message with the signed assertion in it. -/
def message (signed : Element) : Element :=
  (ElementOf.build ⟨none, "message"⟩).withChild (.text "\n") |>.withChild (.element signed)

def options : SignOptions where
  signingKey := ⟨.rsa, [7], none⟩
  sigAlg := .rsaSha256
  digestAlg := .sha256
  c14nAlg := .exclusiveCanonical
  inclusiveNamespaces := []
  includeX509Cert := false

/-- Sign the assertion and build the document that holds it. -/
def built : Result (Element × Document) := do
  let signed ← signElement Crypto.Transparent.primitives assertion options
  let doc ← Document.new (message signed)
  .ok (signed, doc)

theorem built_isOk : built.isOk = true := by decide +kernel

end Unsigned

theorem unsigned_of_signElement_built : ∃ signed doc d s,
    signElement Crypto.Transparent.primitives Unsigned.assertion Unsigned.options = .ok signed ∧
      Document.new (Unsigned.message signed) = .ok doc ∧
      Unsigned doc [1] 2 Unsigned.assertion d s := by
  obtain ⟨_, hbuilt⟩ := exists_of_isOk Unsigned.built_isOk
  obtain ⟨signed, hsigned, hbuilt⟩ := bind_eq_ok_iff.mp hbuilt
  obtain ⟨doc, hdoc, -⟩ := bind_eq_ok_iff.mp hbuilt
  have hroot : Alike doc.root (Unsigned.message signed) := Document.new_unnumbered hdoc
  obtain ⟨d, hd, halike⟩ := hroot.exists_child (i := 1) rfl
  have hwalk : doc.root.walk [1] = some d := by
    rw [ElementOf.walk, hd]
    rfl
  obtain ⟨s, hs⟩ :=
    unsigned_of_signElement (Document.wellIndexed_new hdoc) hsigned hwalk halike
  exact ⟨signed, doc, d, s, hsigned, hdoc, hs⟩

end Saml.Dsig
