import Saml.Dsig.RoundTrip
import Saml.Response.Encrypted

/-!
# Messages read back

The two ends of a message meet in one description: the document a receiver
parsed is the tree the sender built, up to handles, prefixes and the cutting of
character data. What the sender signed of that tree verifies in it.
-/

namespace Saml.Dsig

open Xml Crypto C14n Response

/-- The document is read back from a built tree. -/
structure ReadBack (table : List NsDecl) (root : Element) (doc : Document) : Prop where
  writable : Writable table [] root
  indexed : doc.WellIndexed
  same : unnumbered doc.root = reread [] root

namespace ReadBack

variable {table : List NsDecl} {qx : QuickXml} {root : Element} {doc : Document}

theorem plain (h : ReadBack table root doc) : Xml.plain doc.root = Xml.plain root :=
  plain_of_unnumbered h.same

theorem tabled (h : ReadBack table root doc) : Tabled table doc.root :=
  tabled_of_read h.writable h.same

/-- What is parsed of an emitted tree is read back from it. -/
theorem of_emitElement (lawful : qx.Lawful) (htable : Xml.PrefixTable table)
    (hroot : Writable table [] root) {text : Str} (hemit : Xml.emitElement root = .ok text)
    {limits : XmlLimits}
    (hparsed : Document.parseWithLimits qx (Text.asBytes text) limits = .ok doc) :
    ReadBack table root doc :=
  ⟨hroot, Document.wellIndexed_parseWithLimits hparsed,
    unnumbered_of_parse_emitted lawful hemit (hroot.writesBack htable) hparsed⟩

/-- What is parsed of an emitted document is read back from its tree. -/
theorem of_emitDocument (lawful : qx.Lawful) (htable : Xml.PrefixTable table)
    (hroot : Writable table [] root) {built : Document} (hbuilt : Document.new root = .ok built)
    {text : Str} (hemit : emitDocument built = .ok text) {limits : XmlLimits}
    (hparsed : Document.parseWithLimits qx (Text.asBytes text) limits = .ok doc) :
    ReadBack table root doc := by
  have hread := of_emitElement lawful htable (hroot.new hbuilt) hemit hparsed
  refine ⟨hroot, hread.indexed, ?_⟩
  have halike : Alike built.root root := Document.new_unnumbered hbuilt
  rw [hread.same, ← reread_unnumbered.1, halike, reread_unnumbered.1]

/-- A document that is made of the tree of another is read back as that one is. -/
theorem new (h : ReadBack table root doc) {fresh : Document}
    (hfresh : Document.new doc.root = .ok fresh) : ReadBack table root fresh :=
  ⟨h.writable, Document.wellIndexed_new hfresh, (Document.new_unnumbered hfresh).trans h.same⟩

end ReadBack

/-! ## Signed messages -/

/-- The receiver holds a certificate of the signer's key and allows the
algorithms that were used. -/
structure Trusts (crypto : Primitives) (certs : List X509Certificate) (policy : PeerCryptoPolicy)
    (opts : SignOptions) : Prop where
  certificate : ∃ cert ∈ certs, cert.publicKey = opts.signingKey.publicKey crypto
  allowed : PolicyAllows policy opts

variable {crypto : Primitives}

/-- A signed element verifies wherever it stands in a document that was read
back. -/
theorem ReadBack.exists_verifySignature (correct : SignsCorrectly crypto) {root : Element}
    {doc : Document} (h : ReadBack PREFIXES root doc) {e signed d : Element} {opts : SignOptions}
    (exclusive : Exclusive opts) (he : Writable PREFIXES [] e)
    (hunsigned : e.childElement (some DS_NS) "Signature" = none)
    (hid : ∀ id, e.attr none "ID" = some id → Referable id)
    (signs : maybeSign crypto e true opts = .ok signed) {path : ElementPath}
    (hwalk : doc.root.walk path = some d) {nsStack : List NsLayer}
    (hread : unnumbered d = reread nsStack signed) {certs : List X509Certificate}
    {policy : PeerCryptoPolicy} (trusts : Trusts crypto certs policy opts) :
    ∃ s verified, d.childElement (some DS_NS) "Signature" = some s ∧
      verifySignature crypto doc s certs policy = .ok verified ∧
      verified.signedElement = d.id := by
  obtain ⟨stash, hstash, signs⟩ := bind_eq_ok_iff.mp signs
  have halike : Alike stash.root e := Document.new_unnumbered hstash
  refine verifySignature_read correct matched_prefixes (by decide) (by decide) h.indexed h.tabled
    exclusive (he.new hstash) ?_ ?_ signs hwalk hread trusts.certificate trusts.allowed
  · have hfound := congrArg (fun f => ElementOf.childElement f (some DS_NS) "Signature") halike
    simpa only [unnumbered_childElement, hunsigned, Option.map_none,
      Option.map_eq_none_iff] using hfound
  · intro id hattr
    apply hid id
    rw [← unnumbered_attr, ← halike, unnumbered_attr]
    exact hattr

/-! ## What signing adds -/

theorem isIssuer_unnumberedNode (node : Node) : isIssuer (unnumberedNode node) = isIssuer node := by
  cases node with
  | element e => simp [unnumberedNode, isIssuer]
  | text t => rfl
  | comment c => rfl

theorem signatureInsertionIndex_alike {d e : Element} (h : Alike d e) :
    signatureInsertionIndex d = signatureInsertionIndex e := by
  have hfind : ∀ f : Element, (unnumbered f).children.findIdx? isIssuer =
      f.children.findIdx? isIssuer := by
    intro f
    rw [unnumbered_children, List.findIdx?_map]
    congr 1
    funext node
    exact isIssuer_unnumberedNode node
  rw [signatureInsertionIndex, ← hfind d, h, hfind e, signatureInsertionIndex]

theorem alike_insertChild {d e : Element} (h : Alike d e) (index : Nat) (node : Node) :
    Alike (d.insertChild index node) (e.insertChild index node) := by
  rcases d with ⟨qname, sourcePrefix, declared, attributes, children, id⟩
  rcases e with ⟨qname', sourcePrefix', declared', attributes', children', id'⟩
  simp only [Alike, unnumbered, unnumberedChildren_eq, ElementOf.insertChild, ElementOf.mk.injEq,
    and_true, List.map_insertIdx] at h ⊢
  obtain ⟨hqname, hprefix, hdeclared, hattributes, hchildren⟩ := h
  exact ⟨hqname, hprefix, hdeclared, hattributes, by rw [hchildren]⟩

section

variable {base issuer : Element} {rest : List Element}

/-- A message whose first child is its issuer, with what stands between the
issuer and the rest. -/
def spliced (base issuer : Element) (between rest : List Element) : Element :=
  withElements base (issuer :: between ++ rest)

/-- `maybe_sign` puts the signature behind the issuer, and that is all that it
changes. -/
theorem maybeSign_spliced (hbase : base.children = []) (hissuer : isIssuer (.element issuer) = true)
    {shouldSign : Bool} {opts : SignOptions} {signed : Element}
    (h : maybeSign crypto (spliced base issuer [] rest) shouldSign opts = .ok signed) :
    ∃ signature : Option Element, signature.isSome = shouldSign ∧
      (∀ s ∈ signature, s.qname = ds "Signature") ∧
      Alike signed (spliced base issuer signature.toList rest) := by
  cases shouldSign with
  | false =>
      obtain rfl := Except.ok.inj h
      exact ⟨none, rfl, by simp, rfl⟩
  | true =>
      obtain ⟨stash, hstash, h⟩ := bind_eq_ok_iff.mp h
      obtain ⟨_, _, _, signature, hsignature, rfl⟩ := signElement_ok crypto h
      have halike : Alike stash.root (spliced base issuer [] rest) :=
        Document.new_unnumbered hstash
      have hindex : signatureInsertionIndex stash.root = 1 := by
        rw [signatureInsertionIndex_alike halike, signatureInsertionIndex, spliced, withElements,
          hbase]
        simp [List.findIdx?_cons, hissuer]
      refine ⟨some signature, rfl, ?_, ?_⟩
      · intro s hs
        rw [← Option.some.inj hs]
        exact buildSignatureElement_qname hsignature
      · have hspliced : (spliced base issuer [] rest).insertChild 1 (.element signature) =
            spliced base issuer [signature] rest := by
          simp [spliced, withElements, hbase, ElementOf.insertChild]
        rw [hindex, Option.toList_some, ← hspliced]
        exact alike_insertChild halike 1 _

end

end Saml.Dsig
