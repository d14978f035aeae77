import Saml.Response.Accepted
import Saml.Response.Positions
import Saml.Xml.Limits

/-!
# The assertion that is found

`enforce_signature_positions` and `locate_assertion` on a response that was read
back: the signatures stand where they may, those that were made count, an
encrypted assertion is opened, and what is found reads like the assertion that
was issued.
-/

namespace Saml.Xml

/-! ## Documents made anew -/

/-- The two counts of the nodes of a tree agree. -/
theorem nodeCount_eq_size :
    (∀ e : Element, nodeCount e = size e) ∧
      ∀ nodes : List Node, nodesCount nodes = sizeChildren nodes := by
  apply Element.induct
  case mk =>
    intro e ih
    rw [nodeCount_eq, size_eq, ih]
  case nil => rfl
  case element =>
    intro e rest he hrest
    rw [nodesCount, nodeCountOf, he, hrest, sizeChildren_cons, sizeNode_element]
  case text =>
    intro t rest hrest
    rw [nodesCount, nodeCountOf, hrest, sizeChildren_cons, sizeNode_text]
  case comment =>
    intro c rest hrest
    rw [nodesCount, nodeCountOf, hrest, sizeChildren_cons, sizeNode]

/-- The entries of a tree register the `ID` values of the tree. -/
theorem idPairs_entries :
    (∀ (e : Element) (path : ElementPath),
      ((entries path e).flatMap Entry.idPairs).map Prod.fst = idsOf e) ∧
    ∀ (nodes : List Node) (path : ElementPath) (index : Nat),
      ((entriesChildren path index nodes).flatMap Entry.idPairs).map Prod.fst =
        idsOfChildren nodes := by
  apply Element.induct
  case mk =>
    intro e ih path
    rw [entries_eq, List.flatMap_cons, List.map_append, ih, idsOf_eq, Entry.idPairs, idValues,
      List.map_map]
    rfl
  case nil =>
    intro path index
    rfl
  case element =>
    intro e rest he hrest path index
    rw [entriesChildren, entriesNode, List.flatMap_append, List.map_append, he, hrest,
      idsOfChildren, idsOfNode]
  case text =>
    intro t rest hrest path index
    rw [entriesChildren, entriesNode, List.nil_append, hrest, idsOfChildren, idsOfNode,
      List.nil_append]
  case comment =>
    intro c rest hrest path index
    rw [entriesChildren, entriesNode, List.nil_append, hrest, idsOfChildren, idsOfNode,
      List.nil_append]

namespace Document

variable {qx : QuickXml} {xml : Octets} {limits : XmlLimits} {doc : Document}

theorem WellIndexed.nodup_idsOf (h : doc.WellIndexed) : (idsOf doc.root).Nodup := by
  have hnodup := h.nodup
  rwa [h.index_eq, idPairs_entries.1] at hnodup

/-- A parsed document has no more nodes than the limit. -/
theorem size_parseWithLimits (h : parseWithLimits qx xml limits = .ok doc) :
    size doc.root ≤ limits.maxTotalNodes := by
  obtain ⟨b, hb, h⟩ := bind_eq_ok_iff.mp h
  obtain ⟨hlimits, hcounted, -⟩ := TreeBuilder.bounded_feedAll hb
  have hcount := hcounted ⟨Nat.le_refl 0, Nat.zero_le _⟩
  have hle := hcount.built_le.trans hcount.total_le
  unfold TreeBuilder.finish at h
  split at h
  · cases h
  · split at h
    · cases h
    next root hroot =>
      obtain rfl := Except.ok.inj h
      rw [TreeBuilder.built, hroot, hlimits] at hle
      rw [← nodeCount_eq_size.1]
      exact (Nat.le_add_left _ _).trans hle

/-- The tree of a parsed document makes a document again. -/
theorem exists_new_parseWithLimits (h : parseWithLimits qx xml limits = .ok doc)
    (hlimits : limits.maxTotalNodes ≤ U32_BOUND) : ∃ fresh, Document.new doc.root = .ok fresh :=
  exists_new ((size_parseWithLimits h).trans hlimits)
    (wellIndexed_parseWithLimits h).nodup_idsOf

end Document

end Saml.Xml

namespace Saml.Response

open Xml Crypto Dsig Xmlenc

variable {crypto : Primitives} {qx : QuickXml}

/-! ## Signature positions -/

/-- The walk passes an element that is no signature when it passes the children. -/
theorem walk_wrapper {parent : Option QName} {e : Element} (name : QName) (hname : e.qname = name)
    (hother : name ≠ ds "Signature")
    (hbelow : ∀ child ∈ e.childElements, walkSignatures (some name) child = .ok ()) :
    walkSignatures parent e = .ok () := by
  rw [walkSignatures_ok_iff, hname, if_neg hother]
  exact hbelow

theorem walk_signature {parent : QName} {s : Element} (hname : s.qname = ds "Signature")
    (hallowed : signatureAllowedUnder (some parent) = true) :
    walkSignatures (some parent) s = .ok () := by
  rw [walkSignatures_ok_iff, if_pos hname]
  exact hallowed

section

variable {parent : Option QName}

theorem walk_nameIdElement (nameId : NameId) (spEntityId : Str) :
    walkSignatures parent (nameIdElement nameId spEntityId) = .ok () := by
  rcases nameId with ⟨value, format, nameQualifier, spNameQualifier, spProvidedId⟩
  unfold nameIdElement
  generalize issuedSpNameQualifier _ spEntityId = qualifier
  cases nameQualifier <;> cases qualifier <;> cases spProvidedId <;> rfl

theorem walk_subjectConfirmationElement (acsUrl : Str) (inResponseTo : Option Str)
    (holderOfKeyCert : Option X509Certificate) (instants : IssuanceInstants) :
    walkSignatures parent (subjectConfirmationElement acsUrl inResponseTo holderOfKeyCert
      instants) = .ok () := by
  cases inResponseTo <;> cases holderOfKeyCert <;> rfl

theorem walk_authnStatementElement (sessionIndex : Str) (classRef : AuthnContextClassRef)
    (instants : IssuanceInstants) :
    walkSignatures parent (authnStatementElement sessionIndex classRef instants) = .ok () := by
  rcases instants with ⟨_, _, _, _, _, sessionEnd⟩
  cases sessionEnd <;> rfl

theorem walk_attributeStatement {attributes : List SamlAttribute} {e : Element}
    (h : e ∈ attributeStatementElements attributes) : walkSignatures parent e = .ok () := by
  unfold attributeStatementElements at h
  split at h
  · cases h
  · rw [List.mem_singleton.mp h]
    refine walk_wrapper (Schema.saml "AttributeStatement") rfl (by decide) fun child hchild => ?_
    rw [childElements_withElements, childElements_saml, List.nil_append] at hchild
    obtain ⟨attr, -, rfl⟩ := List.mem_map.mp hchild
    refine walk_wrapper _ (qname_buildAttribute attr) (by decide) fun value hvalue => ?_
    simp only [buildAttribute, childElements_withElements, childElements_withOptionalAttribute,
      childElements_withAttribute, childElements_saml, List.nil_append] at hvalue
    obtain ⟨text, -, rfl⟩ := List.mem_map.mp hvalue
    rfl

theorem walk_assertionElement (assertionId : Str) (input : IssueResponseInputs)
    (instants : IssuanceInstants) {signature : Option Element}
    (hsignature : ∀ s ∈ signature, s.qname = ds "Signature") :
    walkSignatures parent (assertionElement assertionId input instants signature) = .ok () := by
  refine walk_wrapper (Schema.saml "Assertion") rfl (by decide) ?_
  rw [assertionElement, childElements_spliced rfl]
  intro child hchild
  simp only [assertionParts, subjectElement, List.mem_cons, List.mem_append, Option.mem_toList,
    List.not_mem_nil, or_false] at hchild
  rcases hchild with rfl | hs | (rfl | rfl | rfl) | hstatement
  · rfl
  · exact walk_signature (hsignature child hs) rfl
  · refine walk_wrapper (Schema.saml "Subject") rfl (by decide) fun d hd => ?_
    simp only [childElements_withElements, childElements_saml, List.nil_append, List.mem_cons,
      List.not_mem_nil, or_false] at hd
    rcases hd with rfl | rfl
    · exact walk_nameIdElement _ _
    · exact walk_subjectConfirmationElement _ _ _ _
  · rfl
  · exact walk_authnStatementElement _ _ _
  · exact walk_attributeStatement hstatement

theorem walk_buildEncryptedAssertionElement (dataAlgorithm : DataEncryptionAlgorithm)
    (keyTransport : KeyTransportAlgorithm) (wrappedKeyB64 dataCipherB64 : Str) :
    walkSignatures parent (buildEncryptedAssertionElement dataAlgorithm keyTransport wrappedKeyB64
      dataCipherB64) = .ok () := by
  cases keyTransport <;> rfl

theorem walk_responseElement {responseId idpEntityId destination : Str}
    {inResponseTo : Option Str} {issueInstant : Str} {wrapped : Element}
    {signature : Option Element} (hsignature : ∀ s ∈ signature, s.qname = ds "Signature")
    (hwrapped : walkSignatures (some (Schema.samlp "Response")) wrapped = .ok ()) :
    walkSignatures parent (responseElement responseId idpEntityId destination inResponseTo
      issueInstant wrapped signature) = .ok () := by
  have hname : (responseElement responseId idpEntityId destination inResponseTo issueInstant
      wrapped signature).qname = Schema.samlp "Response" := by
    cases inResponseTo <;> rfl
  refine walk_wrapper _ hname (by decide) ?_
  rw [childElements_responseElement]
  intro child hchild
  simp only [List.mem_cons, List.mem_append, Option.mem_toList, List.not_mem_nil,
    or_false] at hchild
  rcases hchild with rfl | hs | rfl | rfl
  · rfl
  · exact walk_signature (hsignature child hs) rfl
  · rfl
  · exact hwrapped

end

/-! ## The signatures that count -/

section

variable {doc : Document} {idp : IdpDescriptor} {policy : PeerCryptoPolicy} {w : Element}
  {signResponses signAssertions wantResponseSigned wantAssertionsSigned : Bool}

/-- Of a cleartext assertion one signature counts where one was made and every
one that is wanted was made. -/
theorem exists_verifyResponseAndOrAssertion
    (response : Carries crypto doc idp policy doc.root signResponses)
    (assertion : Carries crypto doc idp policy w signAssertions) (found : doc.element w.id = some w)
    (signed : signResponses = true ∨ signAssertions = true)
    (wantResponse : wantResponseSigned = true → signResponses = true)
    (wantAssertion : wantAssertionsSigned = true → signAssertions = true) :
    ∃ verified, verifyResponseAndOrAssertion crypto doc doc.root.id w.id idp policy
      wantResponseSigned wantAssertionsSigned = .ok (verified, w.id) := by
  have hresponse : signResponses = true → ∃ s, signatureOf doc.root = some s ∧ ∃ verified,
      verifyCovering crypto doc idp policy doc.root.id
        "signature does not cover Response root" s = .ok verified := by
    intro hsigns
    obtain ⟨s, verified, hs, hverified⟩ := response.made hsigns
    exact ⟨s, hs, verified, hverified _⟩
  have hassertion : signAssertions = true → ∃ s, signatureOf w = some s ∧ ∃ verified,
      verifyCovering crypto doc idp policy w.id
        "signature does not cover Assertion" s = .ok verified := by
    intro hsigns
    obtain ⟨s, verified, hs, hverified⟩ := assertion.made hsigns
    exact ⟨s, hs, verified, hverified _⟩
  rw [verifyResponseAndOrAssertion, found, okOr_some, ok_bind]
  cases wantResponseSigned with
  | true =>
      obtain ⟨s, hs, verified, hverified⟩ := hresponse (wantResponse rfl)
      rw [if_pos rfl, hs, okOr_some, ok_bind, hverified, ok_bind]
      cases wantAssertionsSigned with
      | true =>
          obtain ⟨t, ht, inner, hinner⟩ := hassertion (wantAssertion rfl)
          refine ⟨inner, ?_⟩
          rw [if_pos rfl, ht, okOr_some, ok_bind, hinner, ok_bind]
      | false => exact ⟨verified, rfl⟩
  | false =>
      rw [if_neg Bool.false_ne_true]
      cases wantAssertionsSigned with
      | true =>
          obtain ⟨t, ht, inner, hinner⟩ := hassertion (wantAssertion rfl)
          refine ⟨inner, ?_⟩
          rw [if_pos rfl, ht, okOr_some, ok_bind, hinner, ok_bind]
      | false =>
          rw [if_neg Bool.false_ne_true]
          cases signResponses with
          | true =>
              obtain ⟨s, hs, verified, hverified⟩ := hresponse rfl
              refine ⟨verified, ?_⟩
              rw [hs]
              dsimp only
              rw [hverified, ok_bind]
          | false =>
              obtain ⟨t, ht, inner, hinner⟩ := hassertion (signed.resolve_left Bool.false_ne_true)
              refine ⟨inner, ?_⟩
              rw [response.unmade rfl, ht]
              dsimp only
              rw [hinner, ok_bind]

theorem exists_verifyOuterSignature
    (response : Carries crypto doc idp policy doc.root signResponses)
    (wantResponse : wantResponseSigned = true → signResponses = true) :
    ∃ outer : Option Octets, outer.isSome = signResponses ∧
      verifyOuterSignature crypto doc doc.root.id idp policy wantResponseSigned = .ok outer := by
  cases signResponses with
  | true =>
      obtain ⟨s, verified, hs, hverified⟩ := response.made rfl
      refine ⟨some verified.verifyingCertFingerprint, rfl, ?_⟩
      rw [verifyOuterSignature, hs]
      dsimp only
      rw [hverified, ok_bind]
  | false =>
      refine ⟨none, rfl, ?_⟩
      rw [verifyOuterSignature, response.unmade rfl]
      dsimp only
      rw [if_neg fun hwant => Bool.false_ne_true (wantResponse hwant)]

/-- Of an opened assertion the signature inside counts, or else the one around
it. -/
theorem exists_handleEncrypted {enc cleartext : Element} {opened : Document} {keys : List KeyPair}
    (response : Carries crypto doc idp policy doc.root signResponses)
    (found : doc.element enc.id = some enc)
    (decrypted : decryptEncryptedAssertion crypto qx enc keys policy = .ok cleartext)
    (renewed : Document.new cleartext = .ok opened)
    (assertion : Carries crypto opened idp policy opened.root signAssertions)
    (signed : signResponses = true ∨ signAssertions = true)
    (wantResponse : wantResponseSigned = true → signResponses = true)
    (wantAssertion : wantAssertionsSigned = true → signAssertions = true) :
    ∃ fingerprint, handleEncrypted crypto qx doc doc.root.id enc.id idp policy keys
      wantResponseSigned wantAssertionsSigned =
        .ok ⟨fingerprint, opened.root, some opened⟩ := by
  obtain ⟨outer, houter, hverified⟩ := exists_verifyOuterSignature response wantResponse
  have hinner : signAssertions = true → ∃ s fingerprint, signatureOf opened.root = some s ∧
      verifyInner crypto opened idp policy s = .ok ⟨fingerprint, opened.root, some opened⟩ := by
    intro hsigns
    obtain ⟨s, verified, hs, hcovers⟩ := assertion.made hsigns
    have hroot : opened.element verified.signedElement = some opened.root := by
      rw [(verifyCovering_ok (hcovers [])).2]
      exact (Document.wellIndexed_new renewed).element_iff.mpr ⟨[], rfl, rfl⟩
    refine ⟨s, verified.verifyingCertFingerprint, hs, ?_⟩
    rw [verifyInner, hcovers, ok_bind, hroot, okOr_some, ok_bind]
  rw [handleEncrypted, hverified, ok_bind, found, okOr_some, ok_bind, decrypted, ok_bind, renewed,
    ok_bind]
  cases wantAssertionsSigned with
  | true =>
      obtain ⟨s, fingerprint, hs, hinner⟩ := hinner (wantAssertion rfl)
      refine ⟨fingerprint, ?_⟩
      rw [if_pos rfl, hs, okOr_some, ok_bind, hinner]
  | false =>
      rw [if_neg Bool.false_ne_true]
      cases signAssertions with
      | true =>
          obtain ⟨s, fingerprint, hs, hinner⟩ := hinner rfl
          refine ⟨fingerprint, ?_⟩
          rw [hs]
          exact hinner
      | false =>
          obtain ⟨fingerprint, rfl⟩ := Option.isSome_iff_exists.mp
            (houter.trans (signed.resolve_right Bool.false_ne_true))
          refine ⟨fingerprint, ?_⟩
          rw [assertion.unmade rfl]

end

/-! ## The issued parts -/

/-- What an issuance puts together on the way to its text. -/
structure Assembled (crypto : Primitives) (input : IssueResponseInputs) (draws : IssueDraws)
    (responseId assertionId : Str) (instants : IssuanceInstants)
    (assertion wrapped response : Element) : Prop where
  drawnResponse : randomXmlId draws.responseId = .ok responseId
  drawnAssertion : randomXmlId draws.assertionId = .ok assertionId
  scheduled : issuanceInstants input.now input.assertionLifetime input.subjectConfirmationLifetime
    input.authnInstant input.sessionNotOnOrAfter = .ok instants
  signedAssertion : maybeSign crypto (buildAssertion assertionId input instants) input.signAssertions
    input.signOptions = .ok assertion
  wrapping : maybeEncrypt crypto input draws.encryption assertion = .ok wrapped
  signedResponse : maybeSign crypto (buildResponse responseId input.idpEntityId input.acsEndpoint.url
    input.inResponseTo instants.now .success (some wrapped)) input.signResponses
    input.signOptions = .ok response

theorem issuedXml_ok {input : IssueResponseInputs} {draws : IssueDraws} {xml : Str}
    (h : issuedXml crypto input draws = .ok xml) :
    ∃ responseId assertionId instants assertion wrapped response doc,
      Assembled crypto input draws responseId assertionId instants assertion wrapped response ∧
        Document.new response = .ok doc ∧ emitDocument doc = .ok xml := by
  obtain ⟨_, -, h⟩ := bind_eq_ok_iff.mp h
  obtain ⟨responseId, hresponseId, h⟩ := bind_eq_ok_iff.mp h
  obtain ⟨assertionId, hassertionId, h⟩ := bind_eq_ok_iff.mp h
  obtain ⟨instants, hinstants, h⟩ := bind_eq_ok_iff.mp h
  obtain ⟨assertion, hassertion, h⟩ := bind_eq_ok_iff.mp h
  obtain ⟨wrapped, hwrapped, h⟩ := bind_eq_ok_iff.mp h
  obtain ⟨response, hresponse, h⟩ := bind_eq_ok_iff.mp h
  obtain ⟨doc, hdoc, h⟩ := bind_eq_ok_iff.mp h
  exact ⟨responseId, assertionId, instants, assertion, wrapped, response, doc,
    ⟨hresponseId, hassertionId, hinstants, hassertion, hwrapped, hresponse⟩, hdoc, h⟩

namespace Assembled

variable {input : IssueResponseInputs} {draws : IssueDraws} {responseId assertionId : Str}
  {instants : IssuanceInstants} {assertion wrapped response : Element}

/-- The assertion is the built one with the signature behind the issuer. -/
theorem exists_signature
    (h : Assembled crypto input draws responseId assertionId instants assertion wrapped response) :
    ∃ signature : Option Element, (∀ s ∈ signature, s.qname = ds "Signature") ∧
      Alike assertion (assertionElement assertionId input instants signature) := by
  have hsigned : maybeSign crypto (spliced (assertionBase assertionId instants)
      (issuerElement input.idpEntityId) [] (assertionParts input instants)) input.signAssertions
      input.signOptions = .ok assertion :=
    h.signedAssertion
  obtain ⟨signature, -, hname, halike⟩ := maybeSign_spliced rfl rfl hsigned
  exact ⟨signature, hname, halike⟩

theorem qname_assertion
    (h : Assembled crypto input draws responseId assertionId instants assertion wrapped response) :
    assertion.qname = Schema.saml "Assertion" := by
  obtain ⟨signature, -, halike⟩ := h.exists_signature
  have hname := congrArg ElementOf.qname halike
  rw [unnumbered_qname, unnumbered_qname] at hname
  exact hname

/-- An assertion that is not encrypted stands in the response itself. -/
theorem wrapped_eq
    (h : Assembled crypto input draws responseId assertionId instants assertion wrapped response)
    (plainly : input.shouldEncrypt crypto = false) : wrapped = assertion := by
  have hwrapped := h.wrapping
  rw [maybeEncrypt, plainly] at hwrapped
  exact (Except.ok.inj hwrapped).symm

theorem exists_encrypted
    (h : Assembled crypto input draws responseId assertionId instants assertion wrapped response)
    (encrypts : input.shouldEncrypt crypto = true) :
    ∃ cert, input.sp.encryptionCert crypto = some cert ∧
      encryptAssertion crypto assertion cert input.outboundDataEncryptionAlgorithm
        input.outboundKeyTransportAlgorithm draws.encryption = .ok wrapped := by
  have hwrapped := h.wrapping
  rw [maybeEncrypt, encrypts] at hwrapped
  obtain ⟨cert, hcert, hwrapped⟩ := bind_eq_ok_iff.mp hwrapped
  exact ⟨cert, okOr_eq_ok_iff.mp hcert, hwrapped⟩

theorem qname_encrypted
    (h : Assembled crypto input draws responseId assertionId instants assertion wrapped response)
    (encrypts : input.shouldEncrypt crypto = true) :
    wrapped.qname = Schema.saml "EncryptedAssertion" := by
  obtain ⟨cert, -, hwrapped⟩ := h.exists_encrypted encrypts
  obtain ⟨wrappedKeyB64, dataCipherB64, rfl⟩ := encryptAssertion_built hwrapped
  exact qname_buildEncryptedAssertionElement _ _ _ _

theorem writable_assertion
    (h : Assembled crypto input draws responseId assertionId instants assertion wrapped response) :
    Writable PREFIXES [] assertion :=
  writable_maybeSign (List.Subset.refl _) (writable_buildAssertion _ _ _) h.signedAssertion

theorem holdable
    (h : Assembled crypto input draws responseId assertionId instants assertion wrapped response) :
    Holdable wrapped := by
  cases hencrypt : input.shouldEncrypt crypto with
  | false =>
      rw [h.wrapped_eq hencrypt]
      obtain ⟨signature, hname, halike⟩ := h.exists_signature
      refine ⟨.inl h.qname_assertion, fun _ => ?_⟩
      rw [Schema.validateAssertion, ← Schema.validateShape_plain, plain_of_alike halike,
        Schema.validateShape_plain]
      exact validateAssertion_assertionElement input instants assertionId hname
  | true =>
      have hname := h.qname_encrypted hencrypt
      refine ⟨.inr hname, fun hassertion => ?_⟩
      rw [hname] at hassertion
      exact absurd hassertion (by decide)

theorem writable_wrapped
    (h : Assembled crypto input draws responseId assertionId instants assertion wrapped response) :
    Writable PREFIXES [] wrapped := by
  cases hencrypt : input.shouldEncrypt crypto with
  | false =>
      rw [h.wrapped_eq hencrypt]
      exact h.writable_assertion
  | true =>
      obtain ⟨cert, -, hwrapped⟩ := h.exists_encrypted hencrypt
      obtain ⟨wrappedKeyB64, dataCipherB64, rfl⟩ := encryptAssertion_built hwrapped
      exact writable_buildEncryptedAssertionElement (List.Subset.refl _) _ _ _ _

/-- The response is the built one with the signature behind the issuer. -/
theorem exists_responseSignature
    (h : Assembled crypto input draws responseId assertionId instants assertion wrapped response) :
    ∃ signature : Option Element, (∀ s ∈ signature, s.qname = ds "Signature") ∧
      Alike response (responseElement responseId input.idpEntityId input.acsEndpoint.url
        input.inResponseTo instants.now wrapped signature) := by
  have hbuilt := h.signedResponse
  rw [← responseElement_none] at hbuilt
  obtain ⟨signature, -, hname, halike⟩ := maybeSign_spliced children_responseBase rfl hbuilt
  exact ⟨signature, hname, halike⟩

/-- The signatures of the response stand where they may. -/
theorem enforceSignaturePositions_read
    (h : Assembled crypto input draws responseId assertionId instants assertion wrapped response)
    {doc : Document} (hread : ReadBack PREFIXES response doc) :
    enforceSignaturePositions doc = .ok () := by
  obtain ⟨signature, hname, halike⟩ := h.exists_responseSignature
  rw [enforceSignaturePositions, ← walkSignatures_plain.1, hread.plain, plain_of_alike halike,
    walkSignatures_plain.1]
  apply walk_responseElement hname
  cases hencrypt : input.shouldEncrypt crypto with
  | false =>
      rw [h.wrapped_eq hencrypt]
      obtain ⟨inner, hinner, halike⟩ := h.exists_signature
      rw [← walkSignatures_plain.1, plain_of_alike halike, walkSignatures_plain.1]
      exact walk_assertionElement assertionId input instants hinner
  | true =>
      obtain ⟨cert, -, hwrapped⟩ := h.exists_encrypted hencrypt
      obtain ⟨wrappedKeyB64, dataCipherB64, rfl⟩ := encryptAssertion_built hwrapped
      exact walk_buildEncryptedAssertionElement _ _ _ _

/-- The signature of the response is found. -/
theorem carries_response (correct : SignsCorrectly crypto)
    (h : Assembled crypto input draws responseId assertionId instants assertion wrapped response)
    {doc : Document} (hread : ReadBack PREFIXES response doc)
    (exclusive : Exclusive input.signOptions) {idp : IdpDescriptor} {policy : PeerCryptoPolicy}
    (trusts : Trusts crypto idp.signingCerts policy input.signOptions) :
    Carries crypto doc idp policy doc.root input.signResponses := by
  have hwalk : doc.root.walk [] = some doc.root := rfl
  refine carries_read correct hread exclusive ?_ ?_ ?_ h.signedResponse hwalk hread.same trusts
  · exact writable_buildResponse (by decide) (by decide) _ _ _ _ _ _ fun child hchild =>
      Option.some.inj hchild ▸ h.writable_wrapped
  · apply childElement_eq_none
    have hnames : (buildResponse responseId input.idpEntityId input.acsEndpoint.url
        input.inResponseTo instants.now .success (some wrapped)).childElements.map
          ElementOf.qname = [Schema.saml "Issuer", Schema.samlp "Status", wrapped.qname] := by
      rw [← responseElement_none, childElements_responseElement]
      rfl
    rw [hnames]
    rcases h.holdable.name with hname | hname <;> rw [hname] <;> decide
  · intro id hid
    have hown : some responseId = some id := by
      rw [← hid, ← responseElement_none]
      cases input.inResponseTo <;> rfl
    rw [← Option.some.inj hown]
    exact referable_randomXmlId h.drawnResponse

/-- The signature of the assertion is found wherever the assertion was read
back. -/
theorem carries_assertion (correct : SignsCorrectly crypto)
    (h : Assembled crypto input draws responseId assertionId instants assertion wrapped response)
    {root : Element} {doc : Document} (hread : ReadBack PREFIXES root doc)
    (exclusive : Exclusive input.signOptions) {idp : IdpDescriptor} {policy : PeerCryptoPolicy}
    (trusts : Trusts crypto idp.signingCerts policy input.signOptions) {path : ElementPath}
    {w : Element} {nsStack : List NsLayer} (hwalk : doc.root.walk path = some w)
    (hsame : unnumbered w = reread nsStack assertion) :
    Carries crypto doc idp policy w input.signAssertions := by
  refine carries_read correct hread exclusive (writable_buildAssertion _ _ _) ?_ ?_
    h.signedAssertion hwalk hsame trusts
  · apply childElement_eq_none
    rw [← assertionElement_none, names_assertionElement input instants assertionId (by simp)]
    cases input.attributes.isEmpty <;> decide
  · intro id hid
    have hown : some assertionId = some id := hid
    rw [← Option.some.inj hown]
    exact referable_randomXmlId h.drawnAssertion

end Assembled

/-! ## Locating the assertion -/

/-- The receiver can open the assertions of an issuance: it holds the key, it
allows the algorithms, and an assertion is within the limits of its parser. -/
structure Opens (crypto : Primitives) (qx : QuickXml) (input : IssueResponseInputs)
    (draws : IssueDraws) (v : ValidateResponse) : Prop where
  key : ∀ cert ∈ input.sp.encryptionCert crypto,
    (∃ key ∈ v.decryptionKeys, key.publicKey crypto = cert.publicKey) ∧
      WrongKeysFail crypto cert.publicKey v.decryptionKeys
  allowed : Allows v.peerCryptoPolicy input.outboundDataEncryptionAlgorithm
    input.outboundKeyTransportAlgorithm
  parses : ∀ assertion plaintext, issuedAssertion crypto input draws = .ok assertion →
    emitElement assertion = .ok plaintext →
      ∃ payload, Document.parse qx (Text.asBytes plaintext) = .ok payload

/-- Some part is signed, every part that has to be is, and with a key that the
receiver trusts. -/
structure Vouches (crypto : Primitives) (input : IssueResponseInputs) (v : ValidateResponse) :
    Prop where
  some_part : input.signResponses = true ∨ input.signAssertions = true
  response : v.wantResponseSigned = true → input.signResponses = true
  assertion : v.wantAssertionsSigned = true → input.signAssertions = true
  trusts : Trusts crypto v.idp.signingCerts v.peerCryptoPolicy input.signOptions

section

variable {input : IssueResponseInputs} {draws : IssueDraws} {responseId assertionId : Str}
  {instants : IssuanceInstants} {assertion wrapped response : Element}

/-- What is opened of an encrypted assertion is the assertion, read back. -/
theorem Assembled.exists_opened (lawful : qx.Lawful) (sealed : EncryptsCorrectly crypto)
    (h : Assembled crypto input draws responseId assertionId instants assertion wrapped response)
    (encrypts : input.shouldEncrypt crypto = true) {v : ValidateResponse}
    (opens : Opens crypto qx input draws v) {w : Element} {nsStack : List NsLayer}
    (hsame : unnumbered w = reread nsStack wrapped) :
    ∃ cleartext opened,
      decryptEncryptedAssertion crypto qx w v.decryptionKeys v.peerCryptoPolicy =
        .ok cleartext ∧
      Document.new cleartext = .ok opened ∧ ReadBack PREFIXES assertion opened := by
  obtain ⟨cert, hcert, hwrapped⟩ := h.exists_encrypted encrypts
  obtain ⟨hkey, hwrong⟩ := opens.key cert hcert
  obtain ⟨plaintext, hplaintext, hpayload⟩ :=
    decryptPayload_encryptAssertion sealed hwrapped hkey hwrong opens.allowed
  have hissued : issuedAssertion crypto input draws = .ok assertion :=
    bind_eq_ok_iff.mpr ⟨assertionId, h.drawnAssertion,
      bind_eq_ok_iff.mpr ⟨instants, h.scheduled, h.signedAssertion⟩⟩
  obtain ⟨payload, hpayloadDoc⟩ := opens.parses assertion plaintext hissued hplaintext
  have hread := ReadBack.of_emitElement lawful plainPrefixes h.writable_assertion hplaintext
    hpayloadDoc
  obtain ⟨opened, hopened⟩ := Document.exists_new_parseWithLimits hpayloadDoc (by decide)
  refine ⟨payload.root, opened, ?_, hopened, hread.new hopened⟩
  have hsealed : decryptPayload crypto w v.decryptionKeys v.peerCryptoPolicy =
      .ok (Text.asBytes plaintext) := by
    rw [← decryptPayload_plain, plain_of_unnumbered hsame, decryptPayload_plain, hpayload]
  rw [decryptEncryptedAssertion, hsealed, ok_bind, hpayloadDoc, ok_bind]

/-- What is located in a response that was read back reads like the assertion
that was issued. -/
theorem Assembled.exists_locateAssertion (correct : SignsCorrectly crypto) (lawful : qx.Lawful)
    (sealed : EncryptsCorrectly crypto)
    (h : Assembled crypto input draws responseId assertionId instants assertion wrapped response)
    (exclusive : Exclusive input.signOptions) {v : ValidateResponse}
    (hread : ReadBack PREFIXES response v.document) (vouches : Vouches crypto input v)
    (opens : input.shouldEncrypt crypto = true → Opens crypto qx input draws v) {k : Nat}
    {w : Element} {nsStack : List NsLayer} (hwalk : v.document.root.walk [k] = some w)
    (hsame : unnumbered w = reread nsStack wrapped)
    (hwrapper : v.parsed.assertion = assertionWrapper w) :
    ∃ located, locateAssertion crypto qx v = .ok located ∧
      Xml.plain located.element = Xml.plain assertion := by
  have hresponse := h.carries_response correct hread exclusive vouches.trusts
  have hfound : v.document.element w.id = some w :=
    hread.indexed.element_iff.mpr ⟨[k], hwalk, rfl⟩
  have hname : w.qname = wrapped.qname := by
    have hnames := congrArg ElementOf.qname (plain_of_unnumbered hsame)
    rwa [plain_qname, plain_qname] at hnames
  cases hencrypt : input.shouldEncrypt crypto with
  | false =>
      obtain rfl := h.wrapped_eq hencrypt
      have hcleartext : v.parsed.assertion = some (.cleartext w.id) := by
        rw [hwrapper, assertionWrapper, if_pos]
        exact ElementOf.hasName_iff.mpr (hname.trans h.qname_assertion)
      obtain ⟨verified, hverified⟩ := exists_verifyResponseAndOrAssertion hresponse
        (h.carries_assertion correct hread exclusive vouches.trusts hwalk hsame) hfound
        vouches.some_part vouches.response vouches.assertion
      refine ⟨⟨verified.verifyingCertFingerprint, w, none⟩, ?_, plain_of_unnumbered hsame⟩
      rw [locateAssertion, hcleartext, okOr_some, ok_bind]
      dsimp only
      rw [hverified, ok_bind]
      dsimp only
      rw [hfound, okOr_some, ok_bind]
  | true =>
      obtain ⟨cleartext, opened, hdecrypted, hopened, hreadOpened⟩ :=
        h.exists_opened lawful sealed hencrypt (opens hencrypt) hsame
      have hencrypted : v.parsed.assertion = some (.encrypted w.id) := by
        have hqname := hname.trans (h.qname_encrypted hencrypt)
        rw [hwrapper, assertionWrapper, if_neg, if_pos (ElementOf.hasName_iff.mpr hqname)]
        rw [ElementOf.hasName_iff, hqname]
        decide
      have hwalkOpened : opened.root.walk [] = some opened.root := rfl
      obtain ⟨fingerprint, hhandled⟩ := exists_handleEncrypted hresponse hfound hdecrypted hopened
        (h.carries_assertion correct hreadOpened exclusive vouches.trusts hwalkOpened
          hreadOpened.same) vouches.some_part vouches.response vouches.assertion
      refine ⟨⟨fingerprint, opened.root, some opened⟩, ?_, hreadOpened.plain⟩
      rw [locateAssertion, hencrypted, okOr_some, ok_bind]
      exact hhandled

end

end Saml.Response
