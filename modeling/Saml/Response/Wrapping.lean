import Saml.Response.Soundness

/-!
# No signature wrapping

The element an identity is built from lies below the element whose digest the
accepted signature carries, in the document that was verified. Handles and
`ID` values of a document belong to one element each, so nothing can stand in
for either of the two.
-/

namespace Saml.Response

open Xml Crypto Dsig

variable {crypto : Primitives} {qx : QuickXml}

/-! ## The digested copy -/

/-- The tree whose canonical octets a reference digests: the target, without
the enclosing signature when the reference declares that transform. -/
def digestedTree {document : Document} {signature : Element} {certs : List X509Certificate}
    {policy : PeerCryptoPolicy} (coverage : Coverage crypto document signature certs policy) :
    Element :=
  if .envelopedSignature ∈ coverage.parsed.transforms then
    cloneExcludingId signature.id coverage.target
  else coverage.target

theorem mem_cloneChildren {excluded : ElementId} {children : List Node} {e : Element}
    (mem : Node.element e ∈ children) (other : e.id ≠ excluded) :
    Node.element (cloneExcludingId excluded e) ∈ cloneChildren excluded children := by
  induction children with
  | nil => cases mem
  | cons child rest ih =>
      rw [cloneChildren, List.mem_append]
      rcases List.mem_cons.mp mem with rfl | hrest
      · left
        rcases e with ⟨qname, sourcePrefix, declared, attributes, nodes, id⟩
        rw [cloneNode, if_neg other]
        exact List.mem_singleton_self _
      · exact .inr (ih hrest)

/-- A child other than the excluded one is still a child of the copy. -/
theorem walk_cloneExcludingId {excluded : ElementId} {target e : Element}
    (mem : Node.element e ∈ target.children) (other : e.id ≠ excluded) :
    ∃ i, (cloneExcludingId excluded target).walk [i] = some (cloneExcludingId excluded e) := by
  rcases target with ⟨qname, sourcePrefix, declared, attributes, children, id⟩
  obtain ⟨i, hi⟩ := List.mem_iff_getElem?.mp (mem_cloneChildren mem other)
  refine ⟨i, ?_⟩
  rw [cloneExcludingId, ElementOf.walk, hi]
  rfl

theorem walk_child {e child : Element} {i : Nat} (h : e.children[i]? = some (.element child)) :
    e.walk [i] = some child := by
  rw [ElementOf.walk, h]
  rfl

/-- A child element other than the signature survives in the digested tree. -/
theorem digestedTree_child {document : Document} {signature : Element}
    {certs : List X509Certificate} {policy : PeerCryptoPolicy}
    (coverage : Coverage crypto document signature certs policy) {e : Element}
    (mem : e ∈ coverage.target.childElements) (other : e.id ≠ signature.id) :
    ∃ path copy, (digestedTree coverage).walk path = some copy ∧
      (copy = e ∨ copy = cloneExcludingId signature.id e) := by
  have hmem := ElementOf.mem_childElements.mp mem
  unfold digestedTree
  split
  · obtain ⟨i, hi⟩ := walk_cloneExcludingId hmem other
    exact ⟨[i], _, hi, .inr rfl⟩
  · obtain ⟨i, hi⟩ := List.mem_iff_getElem?.mp hmem
    exact ⟨[i], e, walk_child hi, .inl rfl⟩

/-! ## Coverage of an element -/

/-- An element lies below the target of a verified signature: its copy is in
the digested tree, and the target is the only element of the document with its
handle and with the `ID` the reference names. -/
structure CoveredBy (crypto : Primitives) (document : Document) (idp : IdpDescriptor)
    (policy : PeerCryptoPolicy) (e target : Element) : Prop where
  evidence : ∃ signature, signatureOf target = some signature ∧
    ∃ coverage : Coverage crypto document signature idp.signingCerts policy,
      coverage.target = target ∧
      (∃ path copy, (digestedTree coverage).walk path = some copy ∧
        (copy = e ∨ copy = cloneExcludingId signature.id e)) ∧
      ∀ fragment path d, coverage.reference.attr none "URI" = some ('#' :: fragment) →
        document.root.walk path = some d →
        (∃ a ∈ d.attributes, isIdAttr a = true ∧ a.value = fragment) → d = target
  below : ∃ targetPath rest, document.root.walk targetPath = some target ∧
    target.walk rest = some e
  unique : ∀ path d, document.root.walk path = some d → d.id = target.id → d = target

theorem unique_of_id {document : Document} (indexed : document.WellIndexed)
    {path : ElementPath} {target : Element} (hwalk : document.root.walk path = some target) :
    ∀ other d, document.root.walk other = some d → d.id = target.id → d = target := by
  intro other d hd hid
  obtain rfl := indexed.path_unique hd hwalk hid
  exact Option.some.inj (hd.symm.trans hwalk)

/-- A fragment reference resolves to every element that declares the `ID`. -/
theorem target_of_fragment {document : Document} (indexed : document.WellIndexed)
    {signature : Element} {certs : List X509Certificate} {policy : PeerCryptoPolicy}
    (coverage : Coverage crypto document signature certs policy) {fragment : Str}
    {path : ElementPath} {d : Element}
    (uri : coverage.reference.attr none "URI" = some ('#' :: fragment))
    (hwalk : document.root.walk path = some d)
    (declares : ∃ a ∈ d.attributes, isIdAttr a = true ∧ a.value = fragment) :
    d = coverage.target := by
  have hresolve := parseReference_target coverage.parse
  rw [uri, Option.getD_some, resolveUri] at hresolve
  obtain ⟨_, hresolve⟩ := ite_error_eq_ok_iff.mp hresolve
  have hindex := indexed.elementByIdAttr_iff.mpr ⟨path, d, hwalk, rfl, declares⟩
  rw [okOr_eq_ok_iff.mp hresolve] at hindex
  have hresolved := coverage.resolves
  rw [Option.some.inj hindex, indexed.element_iff.mpr ⟨path, hwalk, rfl⟩] at hresolved
  exact Option.some.inj hresolved

/-- The signed element itself is covered. -/
theorem coveredBy_self {document : Document} (indexed : document.WellIndexed)
    {idp : IdpDescriptor} {policy : PeerCryptoPolicy} {e : Element} {fingerprint : Octets}
    (signed : SignedBy crypto document idp policy e fingerprint) :
    CoveredBy crypto document idp policy e e := by
  obtain ⟨signature, hsig, coverage, rfl, _⟩ := signed
  obtain ⟨path, hwalk, _⟩ := indexed.element_iff.mp coverage.resolves
  refine ⟨⟨signature, hsig, coverage, rfl, ⟨[], digestedTree coverage, rfl, ?_⟩,
    fun _ _ _ => target_of_fragment indexed coverage⟩, ⟨path, [], hwalk, rfl⟩,
    unique_of_id indexed hwalk⟩
  unfold digestedTree
  split
  · exact .inr rfl
  · exact .inl rfl

theorem signature_qname {e signature : Element} (h : signatureOf e = some signature) :
    signature.qname = ⟨some DS_NS, "Signature"⟩ :=
  ElementOf.childElement_qname h

/-- A child of the signed root other than its signature is covered. -/
theorem coveredBy_root {document : Document} (indexed : document.WellIndexed)
    {idp : IdpDescriptor} {policy : PeerCryptoPolicy} {e : Element} {fingerprint : Octets}
    (signed : SignedBy crypto document idp policy document.root fingerprint)
    (mem : e ∈ document.root.childElements)
    (name : e.qname ≠ ⟨some DS_NS, "Signature"⟩) :
    CoveredBy crypto document idp policy e document.root := by
  obtain ⟨signature, hsig, coverage, htarget, _⟩ := signed
  obtain ⟨i, hi⟩ := List.mem_iff_getElem?.mp (ElementOf.mem_childElements.mp mem)
  obtain ⟨j, hj⟩ := List.mem_iff_getElem?.mp
    (ElementOf.mem_childElements.mp (ElementOf.childElement_mem hsig))
  have hother : e.id ≠ signature.id := by
    intro hid
    have hpath := indexed.path_unique (walk_child hi) (walk_child hj) hid
    rw [(List.cons.inj hpath).1, hj] at hi
    obtain rfl : signature = e := by simpa using hi
    exact name (signature_qname hsig)
  exact ⟨⟨signature, hsig, coverage, htarget,
    digestedTree_child coverage (by rw [htarget]; exact mem) hother,
    fun _ _ _ huri hwalk hdeclares =>
      (target_of_fragment indexed coverage huri hwalk hdeclares).trans htarget⟩,
    ⟨[], [i], rfl, walk_child hi⟩, unique_of_id indexed (ElementOf.walk_nil document.root)⟩

/-! ## The assertion of a response -/

theorem parseResponse_wrappers {document : Document} {parsed : ParsedResponse}
    {rootId : ElementId} (h : parseResponse document = .ok (parsed, rootId)) :
    (document.root.childElements.filterMap assertionWrapper).length ≤ 1 ∧
      parsed.assertion = (document.root.childElements.filterMap assertionWrapper).getLast? := by
  obtain ⟨_, h⟩ := ite_error_eq_ok_iff.mp h
  obtain ⟨_, _, h⟩ := bind_eq_ok_iff.mp h
  obtain ⟨_, _, h⟩ := bind_eq_ok_iff.mp h
  obtain ⟨_, _, h⟩ := bind_eq_ok_iff.mp h
  obtain ⟨_, h⟩ := ite_error_eq_ok_iff.mp h
  obtain ⟨_, _, h⟩ := bind_eq_ok_iff.mp h
  obtain ⟨_, _, h⟩ := bind_eq_ok_iff.mp h
  obtain ⟨_, _, h⟩ := bind_eq_ok_iff.mp h
  obtain ⟨_, _, h⟩ := bind_eq_ok_iff.mp h
  obtain ⟨_, _, h⟩ := bind_eq_ok_iff.mp h
  obtain ⟨hlen, h⟩ := ite_error_eq_ok_iff.mp h
  obtain ⟨rfl, _⟩ := Prod.mk.inj (Except.ok.inj h)
  exact ⟨not_lt.mp hlen, rfl⟩

/-- The handle an assertion wrapper carries. -/
def AssertionWrapper.id : AssertionWrapper → ElementId
  | .cleartext id => id
  | .encrypted id => id

theorem assertionWrapper_some {child : Element} {wrapper : AssertionWrapper}
    (h : assertionWrapper child = some wrapper) :
    wrapper.id = child.id ∧ child.qname ≠ ⟨some DS_NS, "Signature"⟩ := by
  unfold assertionWrapper at h
  split at h
  · rename_i hname
    obtain rfl := Option.some.inj h
    refine ⟨rfl, ?_⟩
    rw [ElementOf.hasName_iff.mp hname]
    exact fun heq => absurd (congrArg QName.localName heq) (by decide)
  · split at h
    · rename_i hname
      obtain rfl := Option.some.inj h
      refine ⟨rfl, ?_⟩
      rw [ElementOf.hasName_iff.mp hname]
      exact fun heq => absurd (congrArg QName.localName heq) (by decide)
    · cases h

/-- The element an accepted wrapper names: a child of the root, not a
signature, and the only assertion there. -/
theorem wrapper_element {document : Document} (indexed : document.WellIndexed)
    {parsed : ParsedResponse} {rootId : ElementId}
    (h : parseResponse document = .ok (parsed, rootId)) {wrapper : AssertionWrapper}
    (hwrapper : parsed.assertion = some wrapper) {e : Element}
    (he : document.element wrapper.id = some e) :
    e ∈ document.root.childElements ∧ e.qname ≠ ⟨some DS_NS, "Signature"⟩ ∧
      ∀ other ∈ document.root.childElements, (assertionWrapper other).isSome = true →
        other = e := by
  obtain ⟨hlen, hlast⟩ := parseResponse_wrappers h
  rw [hwrapper] at hlast
  have resolved : ∀ child ∈ document.root.childElements, child.id = wrapper.id → child = e := by
    intro child hchild hid
    obtain ⟨i, hi⟩ := List.mem_iff_getElem?.mp (ElementOf.mem_childElements.mp hchild)
    have helem := indexed.element_iff.mpr ⟨[i], walk_child hi, hid⟩
    exact Option.some.inj (helem.symm.trans he)
  have hmem := List.mem_of_getLast? hlast.symm
  obtain ⟨child, hchild, hwrap⟩ := List.mem_filterMap.mp hmem
  obtain ⟨hid, hname⟩ := assertionWrapper_some hwrap
  obtain rfl := resolved child hchild hid.symm
  refine ⟨hchild, hname, ?_⟩
  intro other hother hsome
  obtain ⟨otherWrapper, hotherWrap⟩ := Option.isSome_iff_exists.mp hsome
  have hotherMem := List.mem_filterMap.mpr ⟨other, hother, hotherWrap⟩
  have hsame : otherWrapper = wrapper := by
    have hle : ∀ (l : List AssertionWrapper), l.length ≤ 1 → ∀ v ∈ l, ∀ w ∈ l, v = w := by
      rintro (_ | ⟨x, _ | ⟨y, rest⟩⟩) hl v hv w hw
      · cases hv
      · exact (List.mem_singleton.mp hv).trans (List.mem_singleton.mp hw).symm
      · simp at hl
    exact hle _ hlen _ hotherMem _ hmem
  exact resolved other hother (by rw [← (assertionWrapper_some hotherWrap).1, hsame])

/-- What the identity was built from, in every branch: an assertion of the
response covered by the response signature or by its own, or a decrypted
assertion covered by its own signature or decrypted from an element that the
response signature covers. -/
inductive Unwrapped (crypto : Primitives) (qx : QuickXml) (input : ValidateResponse)
    (located : LocatedAssertion) : Prop where
  | cleartext (child : located.element ∈ input.document.root.childElements)
      (only : ∀ other ∈ input.document.root.childElements,
        (assertionWrapper other).isSome = true → other = located.element)
      (covered : CoveredBy crypto input.document input.idp input.peerCryptoPolicy located.element
          input.document.root ∨
        CoveredBy crypto input.document input.idp input.peerCryptoPolicy located.element
          located.element)
  | decrypted (enc cleartext : Element) (doc : Document)
      (child : enc ∈ input.document.root.childElements)
      (only : ∀ other ∈ input.document.root.childElements,
        (assertionWrapper other).isSome = true → other = enc)
      (decrypts : Xmlenc.decryptEncryptedAssertion crypto qx enc input.decryptionKeys
        input.peerCryptoPolicy = .ok cleartext)
      (wraps : Document.new cleartext = .ok doc) (root : located.element = doc.root)
      (covered : CoveredBy crypto input.document input.idp input.peerCryptoPolicy enc
          input.document.root ∨
        CoveredBy crypto doc input.idp input.peerCryptoPolicy located.element doc.root)

/-- No signature wrapping: the identity is built from an element that lies
below the target of a verified signature reference. -/
theorem validateResponse_unwrapped {octets : Octets} {input : ValidateResponse}
    {rootId : ElementId} {identity : Identity}
    (parsed : Document.parse qx octets = .ok input.document)
    (response : parseResponse input.document = .ok (input.parsed, rootId))
    (accepted : validateResponse crypto qx input = .ok identity) :
    ∃ located, locateAssertion crypto qx input = .ok located ∧
      extractIdentity crypto qx input located = .ok identity ∧
      Unwrapped crypto qx input located := by
  have hindexed := Document.wellIndexed_parse parsed
  obtain ⟨_, _, located, hlocated, hextract⟩ := validateResponse_ok accepted
  obtain ⟨hsource, hvouched⟩ := locateAssertion_ok hindexed hlocated
  refine ⟨located, hlocated, hextract, ?_⟩
  cases hsource with
  | cleartext id wrapper element decrypted =>
      obtain ⟨hchild, hname, honly⟩ := wrapper_element hindexed response wrapper element
      refine .cleartext hchild honly ?_
      rcases hvouched.some_signature with hroot | hself
      · exact .inl (coveredBy_root hindexed hroot hchild hname)
      · rw [LocatedAssertion.document, decrypted] at hself
        exact .inr (coveredBy_self hindexed hself)
  | encrypted id enc cleartext doc wrapper element decrypts wraps decrypted root =>
      obtain ⟨hchild, hname, honly⟩ := wrapper_element hindexed response wrapper element
      refine .decrypted enc cleartext doc hchild honly decrypts wraps root ?_
      rcases hvouched.some_signature with hroot | hself
      · exact .inl (coveredBy_root hindexed hroot hchild hname)
      · rw [LocatedAssertion.document, decrypted, Option.getD_some, root] at hself
        rw [root]
        exact .inr (coveredBy_self (Document.wellIndexed_new wraps) hself)

/-- The sample exchange succeeds, and nothing in it is wrapped. -/
theorem validateResponse_unwrapped_sample : ∃ text input identity,
    Sample.exchange = .ok (text, input, identity) ∧ ∃ located,
      locateAssertion Transparent.primitives Scanning.reader input = .ok located ∧
        extractIdentity Transparent.primitives Scanning.reader input located = .ok identity ∧
        Unwrapped Transparent.primitives Scanning.reader input located := by
  obtain ⟨⟨text, input, identity⟩, hexchange⟩ := exists_of_isOk Sample.exchange_isOk
  obtain ⟨hparsed, ⟨rootId, hresponse⟩, haccepted⟩ := Sample.exchange_ok hexchange
  exact ⟨text, input, identity, hexchange,
    validateResponse_unwrapped hparsed hresponse haccepted⟩

end Saml.Response
