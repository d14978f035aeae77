import Saml.Response.Content
import Saml.Response.Confirmation
import Saml.Response.Positions

/-!
# What was issued is accepted

`issue_response` against `validate_response`: whichever parts are signed and
whether the assertion is encrypted, the service provider that was addressed
accepts the response and takes out of it what the identity provider put in.
-/

namespace Saml.Response

open Xml Crypto Dsig Xmlenc Time

/-! ## Issued assertions write back -/

section

variable {scope : List NsDecl}

theorem writable_nameIdElement (hscope : samlDecl ∈ scope) (nameId : NameId) (spEntityId : Str) :
    Writable PREFIXES scope (nameIdElement nameId spEntityId) := by
  have hname : Composed PREFIXES scope [] ["Format"] _ :=
    ((composed_saml hscope (by decide : isNcName "NameID" = true)).withAttribute
      (by decide : isFreshName [] "Format" = true) nameId.format.asUri).withText nameId.value
  exact (composed_withOptionalAttribute (composed_withOptionalAttribute
    (composed_withOptionalAttribute hname (by decide) _) (by decide) _) (by decide) _).writable

theorem writable_subjectConfirmationElement (hscope : samlDecl ∈ scope) (acsUrl : Str)
    (inResponseTo : Option Str) (holderOfKeyCert : Option X509Certificate)
    (instants : IssuanceInstants) :
    Writable PREFIXES scope
      (subjectConfirmationElement acsUrl inResponseTo holderOfKeyCert instants) := by
  have hself : Composed PREFIXES scope [] _ _ := composed_withOptionalAttribute
    (((composed_saml hscope (by decide : isNcName "SubjectConfirmationData" = true)).withAttribute
      (by decide : isFreshName [] "Recipient" = true) acsUrl).withAttribute
      (by decide : isFreshName _ "NotOnOrAfter" = true)
      instants.subjectConfirmationNotOnOrAfter)
    (by decide : isFreshName _ "InResponseTo" = true) inResponseTo
  have hkeyInfo : ∀ child ∈ (holderOfKeyCert.map buildHokKeyInfo).toList,
      Writable PREFIXES scope child := by
    intro child hchild
    obtain ⟨cert, -, rfl⟩ := Option.map_eq_some_iff.mp (Option.mem_toList.mp hchild)
    exact writable_buildX509KeyInfo (by decide) cert true (.inl rfl)
  have hconfirmation (method : Str) : Composed PREFIXES scope [] ["Method"] _ :=
    (composed_saml hscope (by decide : isNcName "SubjectConfirmation" = true)).withAttribute
      (by decide) method
  refine (composed_withElements (hconfirmation _) ?_).writable
  intro child hchild
  rw [List.mem_singleton.mp hchild]
  exact (composed_withElements hself hkeyInfo).writable

theorem writable_conditionsElement (hscope : samlDecl ∈ scope) (spEntityId : Str)
    (instants : IssuanceInstants) :
    Writable PREFIXES scope (conditionsElement spEntityId instants) := by
  have haudience : Composed PREFIXES scope [] [] _ :=
    (composed_saml hscope (by decide : isNcName "Audience" = true)).withText spEntityId
  have hrestriction : Composed PREFIXES scope [] [] _ :=
    composed_withElements (composed_saml hscope (by decide : isNcName "AudienceRestriction" = true))
      (List.forall_mem_singleton.mpr haudience.writable)
  have hself : Composed PREFIXES scope [] _ _ :=
    ((composed_saml hscope (by decide : isNcName "Conditions" = true)).withAttribute
      (by decide : isFreshName [] "NotBefore" = true) instants.conditionsNotBefore).withAttribute
      (by decide : isFreshName _ "NotOnOrAfter" = true) instants.conditionsNotOnOrAfter
  exact (composed_withElements hself (List.forall_mem_singleton.mpr hrestriction.writable)).writable

theorem writable_authnStatementElement (hscope : samlDecl ∈ scope) (sessionIndex : Str)
    (classRef : AuthnContextClassRef) (instants : IssuanceInstants) :
    Writable PREFIXES scope (authnStatementElement sessionIndex classRef instants) := by
  have hreference : Composed PREFIXES scope [] [] _ :=
    (composed_saml hscope (by decide : isNcName "AuthnContextClassRef" = true)).withText
      classRef.asUri
  have hcontext : Composed PREFIXES scope [] [] _ :=
    composed_withElements (composed_saml hscope (by decide : isNcName "AuthnContext" = true))
      (List.forall_mem_singleton.mpr hreference.writable)
  have hself : Composed PREFIXES scope [] _ _ :=
    ((composed_saml hscope (by decide : isNcName "AuthnStatement" = true)).withAttribute
      (by decide : isFreshName [] "AuthnInstant" = true) instants.authnInstant).withAttribute
      (by decide : isFreshName _ "SessionIndex" = true) sessionIndex
  exact (composed_withElements (composed_withOptionalAttribute hself (by decide) _)
    (List.forall_mem_singleton.mpr hcontext.writable)).writable

theorem writable_buildAttribute (hscope : samlDecl ∈ scope) (attr : SamlAttribute) :
    Writable PREFIXES scope (buildAttribute attr) := by
  have hself : Composed PREFIXES scope [] _ _ := composed_withOptionalAttribute
    (composed_withOptionalAttribute
      ((composed_saml hscope (by decide : isNcName "Attribute" = true)).withAttribute
        (by decide : isFreshName [] "Name" = true) attr.name)
      (by decide : isFreshName _ "NameFormat" = true) attr.nameFormat)
    (by decide : isFreshName _ "FriendlyName" = true) attr.friendlyName
  refine (composed_withElements hself ?_).writable
  intro child hchild
  obtain ⟨value, -, rfl⟩ := List.mem_map.mp hchild
  exact ((composed_saml hscope (by decide)).withText value).writable

theorem writable_attributeStatement (hscope : samlDecl ∈ scope) {attributes : List SamlAttribute} :
    ∀ e ∈ attributeStatementElements attributes, Writable PREFIXES scope e := by
  intro e he
  unfold attributeStatementElements at he
  split at he
  · cases he
  · rw [List.mem_singleton.mp he]
    refine (composed_withElements (composed_saml hscope (by decide)) ?_).writable
    intro child hchild
    obtain ⟨attr, -, rfl⟩ := List.mem_map.mp hchild
    exact writable_buildAttribute hscope attr

/-- An issued assertion stands by itself. -/
theorem writable_buildAssertion (assertionId : Str) (input : IssueResponseInputs)
    (instants : IssuanceInstants) :
    Writable PREFIXES [] (buildAssertion assertionId input instants) := by
  have hscope : samlDecl ∈ ([] ++ [samlDecl] : List NsDecl) := List.mem_cons_self
  have hself : Composed PREFIXES ([] ++ [samlDecl]) [] _ _ :=
    (((composed_saml hscope (by decide : isNcName "Assertion" = true)).withAttribute
      (by decide : isFreshName [] "ID" = true) assertionId).withAttribute
      (by decide : isFreshName _ "Version" = true) "2.0").withAttribute
      (by decide : isFreshName _ "IssueInstant" = true) instants.now
  have hsubject : Writable PREFIXES ([] ++ [samlDecl]) (subjectElement input instants) := by
    refine (composed_withElements (composed_saml hscope (by decide)) ?_).writable
    intro child hchild
    simp only [List.mem_cons, List.not_mem_nil, or_false] at hchild
    rcases hchild with rfl | rfl
    · exact writable_nameIdElement hscope _ _
    · exact writable_subjectConfirmationElement hscope _ _ _ _
  have hbelow : ∀ child ∈ issuerElement input.idpEntityId :: assertionParts input instants,
      Writable PREFIXES ([] ++ [samlDecl]) child := by
    intro child hchild
    simp only [assertionParts, List.mem_cons, List.mem_append, List.not_mem_nil,
      or_false] at hchild
    rcases hchild with rfl | (rfl | rfl | rfl) | hchild
    · exact writable_issuerElement hscope _
    · exact hsubject
    · exact writable_conditionsElement hscope _ _
    · exact writable_authnStatementElement hscope _ _ _
    · exact writable_attributeStatement hscope child hchild
  exact ((composed_withElements hself hbelow).withNamespace (d := samlDecl) (by decide)
    (by simp)).writable

end

/-! ## Signatures that were read back -/

theorem referable_randomXmlId {draw : Draw 16} {id : Str} (h : randomXmlId draw = .ok id) :
    Referable id := by
  obtain ⟨bytes, -, rfl⟩ := randomXmlId_ok h
  refine ⟨List.cons_ne_nil _ _, ?_, ?_⟩
  · intro hpre
    exact absurd (List.cons_prefix_cons.mp hpre).1 (by decide)
  · intro hmem
    have hdigit : ∀ n < 16, Nat.digitChar n ≠ '(' := by decide
    rcases List.mem_cons.mp hmem with heq | hmem
    · exact absurd heq (by decide)
    · obtain ⟨b, -, hb⟩ := List.mem_flatMap.mp hmem
      have hlt := b.toNat_lt
      simp only [hexOctet, List.mem_cons, List.not_mem_nil, or_false] at hb
      rcases hb with heq | heq
      · exact hdigit _ (by omega) heq.symm
      · exact hdigit _ (by omega) heq.symm

theorem childElement_eq_none {e : Element} {ns : Option Str} {loc : Str}
    (h : (⟨ns, loc⟩ : QName) ∉ e.childElements.map ElementOf.qname) :
    e.childElement ns loc = none := by
  rw [ElementOf.childElement, List.find?_eq_none]
  intro child hchild hname
  exact h (List.mem_map.mpr ⟨child, hchild, ElementOf.hasName_iff.mp hname⟩)

section

variable {crypto : Primitives} {root : Element} {doc : Document} {e signed d : Element}
  {opts : SignOptions} {path : ElementPath} {nsStack : List NsLayer} {shouldSign : Bool}

/-- What a receiver finds of the signature of an element: one that verifies and
covers the element, or none where none was made. -/
structure Carries (crypto : Primitives) (doc : Document) (idp : IdpDescriptor)
    (policy : PeerCryptoPolicy) (e : Element) (signs : Bool) : Prop where
  made : signs = true → ∃ s verified, signatureOf e = some s ∧
    ∀ mismatch, verifyCovering crypto doc idp policy e.id mismatch s = .ok verified
  unmade : signs = false → signatureOf e = none

/-- The signature of a message is found wherever the message was read back. -/
theorem carries_read (correct : SignsCorrectly crypto) (h : ReadBack PREFIXES root doc)
    (exclusive : Exclusive opts) (he : Writable PREFIXES [] e)
    (hunsigned : e.childElement (some DS_NS) "Signature" = none)
    (hid : ∀ id, e.attr none "ID" = some id → Referable id)
    (signs : maybeSign crypto e shouldSign opts = .ok signed)
    (hwalk : doc.root.walk path = some d) (hread : unnumbered d = reread nsStack signed)
    {idp : IdpDescriptor} {policy : PeerCryptoPolicy}
    (trusts : Trusts crypto idp.signingCerts policy opts) :
    Carries crypto doc idp policy d shouldSign := by
  constructor
  · rintro rfl
    obtain ⟨s, verified, hs, hverified, hcovers⟩ :=
      h.exists_verifySignature correct exclusive he hunsigned hid signs hwalk hread trusts
    refine ⟨s, verified, hs, fun mismatch => ?_⟩
    rw [verifyCovering, hverified, ok_bind, if_neg (not_not_intro hcovers)]
  · rintro rfl
    obtain rfl := Except.ok.inj signs
    have hfound := congrArg (fun f => ElementOf.childElement f (some DS_NS) "Signature") hread
    rw [signatureOf]
    simpa only [unnumbered_childElement, reread_childElement, hunsigned, Option.map_none,
      Option.map_eq_none_iff] using hfound

end

/-! ## The response around an assertion -/

/-- The `samlp:Response` before its children. -/
def responseBase (responseId destination : Str) (inResponseTo : Option Str) (issueInstant : Str) :
    Element :=
  let e := ((samlp "Response").withNamespace (some "samlp") SAMLP_NS).withNamespace (some "saml")
    SAML_NS
  withOptionalAttribute ((((e.withAttribute (plain "ID") responseId).withAttribute
    (plain "Version") "2.0").withAttribute (plain "IssueInstant") issueInstant).withAttribute
    (plain "Destination") destination) "InResponseTo" inResponseTo

/-- A successful response with the signature that was put behind its issuer. -/
def responseElement (responseId idpEntityId destination : Str) (inResponseTo : Option Str)
    (issueInstant : Str) (wrapped : Element) (signature : Option Element) : Element :=
  spliced (responseBase responseId destination inResponseTo issueInstant)
    (issuerElement idpEntityId) signature.toList [statusElement .success, wrapped]

section

variable {responseId idpEntityId destination : Str} {inResponseTo : Option Str}
  {issueInstant : Str} {wrapped : Element} {signature : Option Element}

theorem responseElement_none : responseElement responseId idpEntityId destination inResponseTo
    issueInstant wrapped none = buildResponse responseId idpEntityId destination inResponseTo
      issueInstant .success (some wrapped) := rfl

theorem children_responseBase :
    (responseBase responseId destination inResponseTo issueInstant).children = [] := by
  cases inResponseTo <;> rfl

theorem childElements_responseBase :
    (responseBase responseId destination inResponseTo issueInstant).childElements = [] := by
  rw [ElementOf.childElements, children_responseBase]
  rfl

theorem childElements_responseElement :
    (responseElement responseId idpEntityId destination inResponseTo issueInstant wrapped
      signature).childElements =
      issuerElement idpEntityId :: (signature.toList ++ [statusElement .success, wrapped]) :=
  childElements_spliced childElements_responseBase

/-- An element that a response may hold: an assertion that passes the gate, or an
encrypted one. -/
structure Holdable (wrapped : Element) : Prop where
  name : wrapped.qname = Schema.saml "Assertion" ∨ wrapped.qname = Schema.saml "EncryptedAssertion"
  valid : wrapped.qname = Schema.saml "Assertion" → Schema.validateAssertion wrapped = .ok ()

/-- The gate lets an issued response through. -/
theorem validateResponse_responseElement (holdable : Holdable wrapped)
    (hsignature : ∀ s ∈ signature, s.qname = ds "Signature") :
    Schema.validateResponse (responseElement responseId idpEntityId destination inResponseTo
      issueInstant wrapped signature) = .ok () := by
  have hsigned : signature.toList.map ElementOf.qname =
      if signature.isSome then [ds "Signature"] else [] := by
    cases signature with
    | none => rfl
    | some s => exact congrArg (fun q => [q]) (hsignature s rfl)
  apply Schema.validateShape_of_names ([Schema.saml "Issuer"] ++
    (if signature.isSome then [ds "Signature"] else []) ++ [Schema.samlp "Status", wrapped.qname])
  · cases inResponseTo <;> rfl
  · intro loc hloc
    simp only [Schema.MESSAGE_ATTRS, List.mem_cons, List.not_mem_nil, or_false] at hloc
    rcases hloc with rfl | rfl | rfl <;> cases inResponseTo <;> rfl
  · rw [childElements_responseElement, List.map_cons, List.map_append, hsigned]
    rfl
  · rw [childElements_responseElement]
    intro child hchild
    rcases List.mem_cons.mp hchild with rfl | hchild
    · exact Schema.fitsSlot_of_shape Schema.SHAPE_ISSUER rfl rfl
    rcases List.mem_append.mp hchild with hchild | hchild
    · have hname := hsignature child (Option.mem_toList.mp hchild)
      apply Schema.fitsSlot_of_opaque
      · rw [hname]
        rfl
      · rw [hname]
        rfl
    simp only [List.mem_cons, List.not_mem_nil, or_false] at hchild
    rcases hchild with rfl | rfl
    · exact Schema.fitsSlot_of_shape Schema.SHAPE_STATUS rfl rfl
    · rcases holdable.name with hname | hname
      · refine Schema.fitsSlot_of_shape Schema.SHAPE_ASSERTION ?_ (holdable.valid hname)
        rw [hname]
        rfl
      · apply Schema.fitsSlot_of_opaque
        · rw [hname]
          rfl
        · rw [hname]
          rfl
  · rcases holdable.name with hname | hname <;> rw [hname] <;> cases signature.isSome <;> decide
  · decide
  · rcases holdable.name with hname | hname <;> rw [hname] <;> cases signature.isSome <;> decide

theorem rereadChildren_nil (stack : List NsLayer) {nodes : List Node}
    (h : nodes.map unnumberedNode = rereadChildren stack [] []) : nodes = [] := by
  rw [rereadChildren] at h
  exact List.map_eq_nil_iff.mp h

theorem assertionWrapper_eq_none {child : Element}
    (h : child.qname ∈ [Schema.saml "Issuer", ds "Signature", Schema.samlp "Status"]) :
    assertionWrapper child = none := by
  have hother (loc : Str) (hloc : (⟨some SAML_NS, loc⟩ : QName) ∉
      [Schema.saml "Issuer", ds "Signature", Schema.samlp "Status"]) :
      ¬ child.hasName (some SAML_NS) loc = true := by
    rw [ElementOf.hasName_iff]
    intro hname
    exact hloc (hname ▸ h)
  rw [assertionWrapper, if_neg (hother _ (by decide)), if_neg (hother _ (by decide))]

/-- What a receiver finds in a response that was read back: the element the
response was built around, alone, and what the response says of itself. -/
theorem exists_parseResponse {root : Element} {doc : Document} (h : ReadBack PREFIXES root doc)
    (halike : Alike root (responseElement responseId idpEntityId destination inResponseTo
      issueInstant wrapped signature))
    (holdable : Holdable wrapped) (hsignature : ∀ s ∈ signature, s.qname = ds "Signature")
    {instant : SystemTime} (hinstant : parseXsDatetime issueInstant = .ok instant) :
    ∃ k w stack, doc.root.walk [k] = some w ∧ unnumbered w = reread stack wrapped ∧
      parseResponse doc = .ok (⟨some destination, inResponseTo, some (Text.trim idpEntityId),
        STATUS_SUCCESS, none, assertionWrapper w⟩, doc.root.id) := by
  have hread : unnumbered doc.root = reread [] (responseElement responseId idpEntityId destination
      inResponseTo issueInstant wrapped signature) := by
    rw [h.same, ← reread_unnumbered.1, halike, reread_unnumbered.1]
  have hplain := plain_of_unnumbered hread
  have hsplit : responseElement responseId idpEntityId destination inResponseTo issueInstant
      wrapped signature = { responseBase responseId destination inResponseTo issueInstant with
        children := (issuerElement idpEntityId :: (signature.toList ++
          [statusElement .success])).map .element ++ .element wrapped :: [] } := by
    rw [responseElement, spliced, withElements, children_responseBase]
    simp
  rw [hsplit] at hread
  obtain ⟨front, w, back, hchildren, hfront, hw, hback⟩ := exists_split_read hread
  obtain rfl := rereadChildren_nil _ hback
  refine ⟨front.length, w, _, ?_, hw, ?_⟩
  · rw [ElementOf.walk, hchildren, List.getElem?_append_right (Nat.le_refl _), Nat.sub_self]
    rfl
  have hname : doc.root.hasName (some SAMLP_NS) "Response" = true := by
    rw [hasName_of_plain hplain]
    cases inResponseTo <;> rfl
  have hvalid : Schema.validateResponse doc.root = .ok () := by
    rw [Schema.validateResponse, ← Schema.validateShape_plain, hplain, Schema.validateShape_plain]
    exact validateResponse_responseElement holdable hsignature
  have hattrs : (∃ id, doc.root.attr none "ID" = some id) ∧
      doc.root.attr none "Version" = some ("2.0" : Str) ∧
      doc.root.attr none "IssueInstant" = some issueInstant ∧
      doc.root.attr none "Destination" = some destination ∧
      doc.root.attr none "InResponseTo" = inResponseTo := by
    simp only [attr_of_plain hplain]
    cases inResponseTo <;> exact ⟨⟨responseId, rfl⟩, rfl, rfl, rfl, rfl⟩
  obtain ⟨⟨id, hid⟩, hversion, hissueInstant, hdestination, hinResponseTo⟩ := hattrs
  have hissuerBuilt : (responseElement responseId idpEntityId destination inResponseTo
      issueInstant wrapped signature).childElement (some SAML_NS) "Issuer" =
        some (issuerElement idpEntityId) :=
    issuer_spliced childElements_responseBase rfl
  obtain ⟨issuer, hissuer, hissuerPlain⟩ := exists_childElement_of_plain hplain hissuerBuilt
  have hissuerText : trimmedText issuer = Text.trim idpEntityId := by
    rw [trimmedText, textContent_of_plain hissuerPlain]
    exact congrArg Text.trim (List.append_nil _)
  have hstatusBuilt : (responseElement responseId idpEntityId destination inResponseTo
      issueInstant wrapped signature).childElement (some SAMLP_NS) "Status" =
        some (statusElement .success) :=
    (childElement_spliced childElements_responseBase hsignature (by decide) rfl).trans
      (List.find?_cons_of_pos rfl)
  have hcodeBuilt : (statusElement .success).childElement (some SAMLP_NS) "StatusCode" =
      some (withElements ((samlp "StatusCode").withAttribute (plain "Value") STATUS_SUCCESS) []) :=
    rfl
  obtain ⟨status, hstatus, hstatusPlain⟩ := exists_childElement_of_plain hplain hstatusBuilt
  obtain ⟨code, hcode, hcodePlain⟩ := exists_childElement_of_plain hstatusPlain hcodeBuilt
  have hvalue : code.attr none "Value" = some STATUS_SUCCESS := by
    rw [attr_of_plain hcodePlain]
    rfl
  have hmessage : status.childElement (some SAMLP_NS) "StatusMessage" = none :=
    childElement_eq_none_of_plain hstatusPlain rfl
  have hwrappers : doc.root.childElements.filterMap assertionWrapper =
      (assertionWrapper w).toList := by
    have hbelow : doc.root.childElements = front.filterMap Node.asElement ++ [w] := by
      rw [ElementOf.childElements, hchildren, List.filterMap_append]
      rfl
    have hnames : (front.filterMap Node.asElement).map ElementOf.qname =
        Schema.saml "Issuer" ::
          (signature.toList.map ElementOf.qname ++ [Schema.samlp "Status"]) := by
      have hall := names_of_plain hplain
      have hsplit : issuerElement idpEntityId :: (signature.toList ++
          [statusElement .success, wrapped]) =
          (issuerElement idpEntityId :: (signature.toList ++ [statusElement .success])) ++
            [wrapped] := by
        simp
      rw [hbelow, childElements_responseElement, hsplit, List.map_append, List.map_append,
        List.map_singleton, List.map_cons, List.map_append] at hall
      exact (List.append_inj' hall rfl).1
    rw [hbelow, List.filterMap_append, List.filterMap_eq_nil_iff.mpr]
    · rw [List.nil_append, List.filterMap_cons]
      cases assertionWrapper w <;> rfl
    · intro child hchild
      have hmem := List.mem_map_of_mem (f := ElementOf.qname) hchild
      simp only [hnames, List.mem_cons, List.mem_append, List.mem_map, Option.mem_toList,
        List.not_mem_nil, or_false] at hmem
      have hqname : child.qname ∈
          [Schema.saml "Issuer", ds "Signature", Schema.samlp "Status"] := by
        rcases hmem with hname | ⟨s, hs, hname⟩ | hname
        · simp [hname]
        · simp [← hname, hsignature s hs]
        · simp [hname]
      exact assertionWrapper_eq_none hqname
  rw [parseResponse, hname]
  simp only [Bool.not_true, Bool.false_eq_true, if_false]
  rw [hvalid, ok_bind, hid, okOr_some, ok_bind, hversion, okOr_some, ok_bind,
    if_neg (not_not_intro rfl), hissueInstant, okOr_some, ok_bind, hinstant, ok_bind, hstatus,
    okOr_some, ok_bind, hcode, okOr_some, ok_bind, hvalue, okOr_some, ok_bind, hwrappers,
    hissuer, hmessage, hdestination, hinResponseTo]
  cases assertionWrapper w <;> simp [hissuerText]

end

end Saml.Response
