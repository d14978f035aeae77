import Saml.Response.Issue
import Saml.Xml.Unnumbered
import Mathlib.Data.List.InsertIdx

/-!
# The issued assertion

Which assertion an issued response carries, and what stands on the elements of
that assertion: the few elements with a deadline or a class, and the rest.
-/

namespace Saml.Response

open Xml Crypto Dsig Xmlenc

variable (crypto : Primitives)

/-- The assertion of an issuance, signed when it has to be. -/
def issuedAssertion (input : IssueResponseInputs) (draws : IssueDraws) : Result Element := do
  let assertionId ← randomXmlId draws.assertionId
  let instants ← issuanceInstants input.now input.assertionLifetime
    input.subjectConfirmationLifetime input.authnInstant input.sessionNotOnOrAfter
  maybeSign crypto (buildAssertion assertionId input instants) input.signAssertions
    input.signOptions

/-- The assertion in the response that a dispatch carries, encrypted there when
it has to be. -/
structure EmittedAssertion (input : IssueResponseInputs) (draws : IssueDraws)
    (dispatch : SsoResponseDispatch) (assertion : Element) : Prop where
  issued : issuedAssertion crypto input draws = .ok assertion
  carried : ∃ responseId issueInstant wrapped response doc xml,
    maybeEncrypt crypto input draws.encryption assertion = .ok wrapped ∧
      maybeSign crypto (buildResponse responseId input.idpEntityId input.acsEndpoint.url
        input.inResponseTo issueInstant .success (some wrapped)) input.signResponses
        input.signOptions = .ok response ∧
      Document.new response = .ok doc ∧ emitDocument doc = .ok xml ∧
      dispatch.responseXml = some (Text.asBytes xml)

variable {crypto}

/-- An issued response carries one issued assertion. -/
theorem issueResponse_emitted {web : Web} {input : IssueResponseInputs} {draws : IssueDraws}
    {dispatch : SsoResponseDispatch} (h : issueResponse crypto web input draws = .ok dispatch) :
    ∃ assertion, EmittedAssertion crypto input draws dispatch assertion := by
  obtain ⟨xml, hxml, hdispatch⟩ := issueResponse_responseXml crypto h
  obtain ⟨_, _, hxml⟩ := bind_eq_ok_iff.mp hxml
  obtain ⟨responseId, _, hxml⟩ := bind_eq_ok_iff.mp hxml
  obtain ⟨assertionId, hid, hxml⟩ := bind_eq_ok_iff.mp hxml
  obtain ⟨instants, hinstants, hxml⟩ := bind_eq_ok_iff.mp hxml
  obtain ⟨assertion, hassertion, hxml⟩ := bind_eq_ok_iff.mp hxml
  obtain ⟨wrapped, hwrapped, hxml⟩ := bind_eq_ok_iff.mp hxml
  obtain ⟨response, hresponse, hxml⟩ := bind_eq_ok_iff.mp hxml
  obtain ⟨doc, hdoc, hxml⟩ := bind_eq_ok_iff.mp hxml
  refine ⟨assertion, ?_, responseId, instants.now, wrapped, response, doc, xml, hwrapped,
    hresponse, hdoc, hxml, hdispatch⟩
  exact bind_eq_ok_iff.mpr ⟨assertionId, hid, bind_eq_ok_iff.mpr ⟨instants, hinstants, hassertion⟩⟩

/-! ## The elements of an assertion -/

@[simp] theorem childElements_saml (loc : Str) : (saml loc).childElements = [] := rfl

@[simp] theorem childElements_build (qname : QName) :
    (ElementOf.build qname : Element).childElements = [] := rfl

@[simp] theorem childElements_withAttribute (e : Element) (name : QName) (value : Str) :
    (e.withAttribute name value).childElements = e.childElements := rfl

@[simp] theorem childElements_withNamespace (e : Element) (pfx : Option Str) (uri : Str) :
    (e.withNamespace pfx uri).childElements = e.childElements := rfl

@[simp] theorem childElements_withText (e : Element) (t : Str) :
    (e.withText t).childElements = e.childElements := by
  simp [ElementOf.withText, ElementOf.withChild, ElementOf.childElements]

@[simp] theorem childElements_withChild (e child : Element) :
    (e.withChild (.element child)).childElements = e.childElements ++ [child] := by
  simp [ElementOf.withChild, ElementOf.childElements]

@[simp] theorem childElements_withElements (e : Element) (children : List Element) :
    (withElements e children).childElements = e.childElements ++ children := by
  simp only [withElements, ElementOf.childElements, List.filterMap_append, List.filterMap_map]
  congr 1
  exact List.filterMap_some

@[simp] theorem childElements_withOptionalAttribute (e : Element) (loc : Str)
    (value : Option Str) : (withOptionalAttribute e loc value).childElements = e.childElements := by
  cases value <;> rfl

theorem allChildElements_withElements (e : Element) (children : List Element) (ns : Option Str)
    (loc : Str) : (withElements e children).allChildElements ns loc =
      e.allChildElements ns loc ++ children.filter (·.hasName ns loc) := by
  rw [ElementOf.allChildElements, childElements_withElements, List.filter_append,
    ElementOf.allChildElements]

theorem filter_hasName_of_ne {e : Element} {name loc : Str} (h : e.qname = Schema.saml name)
    (other : name ≠ loc) (rest : List Element) :
    (e :: rest).filter (·.hasName (some SAML_NS) loc) =
      rest.filter (·.hasName (some SAML_NS) loc) := by
  apply List.filter_cons_of_neg
  rw [ElementOf.hasName_iff, h]
  intro heq
  exact other (QName.mk.inj heq).2

theorem filter_hasName_of_eq {e : Element} {loc : Str} (h : e.qname = Schema.saml loc)
    (rest : List Element) :
    (e :: rest).filter (·.hasName (some SAML_NS) loc) =
      e :: rest.filter (·.hasName (some SAML_NS) loc) :=
  List.filter_cons_of_pos (ElementOf.hasName_iff.mpr h)

@[simp] theorem qname_withOptionalAttribute (e : Element) (loc : Str) (value : Option Str) :
    (withOptionalAttribute e loc value).qname = e.qname := by
  cases value <;> rfl

theorem filterMap_insertIdx {α β : Type} {f : α → Option β} {a : α} (skipped : f a = none)
    (l : List α) (index : Nat) : (l.insertIdx index a).filterMap f = l.filterMap f := by
  induction l generalizing index with
  | nil => cases index <;> simp [skipped]
  | cons b rest ih =>
      cases index with
      | zero => simp [skipped]
      | succ index => rw [List.insertIdx_succ_cons, List.filterMap_cons, List.filterMap_cons, ih]

theorem allChildElements_insertChild (e : Element) (index : Nat) {s : Element} {ns : Option Str}
    {loc : Str} (other : s.hasName ns loc = false) :
    (e.insertChild index (.element s)).allChildElements ns loc = e.allChildElements ns loc := by
  unfold ElementOf.allChildElements ElementOf.childElements ElementOf.insertChild
  rw [List.filter_filterMap, List.filter_filterMap]
  apply filterMap_insertIdx
  simp [other]

/-- An element that states no deadline, no class and no restriction. -/
structure Neutral (d : Element) : Prop where
  name : d.qname ≠ Schema.saml "AuthnContextClassRef" ∧ d.qname ≠ Schema.saml "ProxyRestriction"
  attributes : ∀ a ∈ d.attributes,
    a.qname ≠ plain "NotOnOrAfter" ∧ a.qname ≠ plain "SessionNotOnOrAfter"

theorem Neutral.insertChild {d : Element} (h : Neutral d) (index : Nat) (node : Node) :
    Neutral (d.insertChild index node) := ⟨h.name, h.attributes⟩

theorem neutral_unnumbered {d : Element} : Neutral (unnumbered d) ↔ Neutral d := by
  constructor
  · rintro ⟨hname, hattributes⟩
    rw [unnumbered_qname] at hname
    rw [unnumbered_attributes] at hattributes
    exact ⟨hname, hattributes⟩
  · rintro ⟨hname, hattributes⟩
    exact ⟨by rwa [unnumbered_qname], by rwa [unnumbered_attributes]⟩

/-- The attribute names of the deadlines. -/
def DEADLINES : List Str := ["NotOnOrAfter", "SessionNotOnOrAfter"]

theorem neutral_build {qname : QName} (hclass : qname ≠ Schema.saml "AuthnContextClassRef")
    (hrestriction : qname ≠ Schema.saml "ProxyRestriction") :
    Neutral (ElementOf.build qname) :=
  ⟨⟨hclass, hrestriction⟩, fun _ ha => by cases ha⟩

theorem neutral_saml {loc : Str} (hclass : Schema.saml loc ≠ Schema.saml "AuthnContextClassRef")
    (hrestriction : Schema.saml loc ≠ Schema.saml "ProxyRestriction") : Neutral (saml loc) :=
  neutral_build hclass hrestriction

theorem neutral_ds (loc : Str) : Neutral (ElementOf.build (ds loc)) := by
  have hns : some DS_NS ≠ some SAML_NS := by decide
  exact neutral_build (fun h => hns (QName.mk.inj h).1) (fun h => hns (QName.mk.inj h).1)

theorem Neutral.withAttribute {d : Element} (h : Neutral d) {loc : Str} (hloc : loc ∉ DEADLINES)
    (value : Str) : Neutral (d.withAttribute (plain loc) value) := by
  refine ⟨h.name, fun a ha => ?_⟩
  rcases List.mem_append.mp ha with ha | ha
  · exact h.attributes a ha
  · rw [List.mem_singleton.mp ha]
    simp only [DEADLINES, List.mem_cons, List.not_mem_nil, or_false, not_or] at hloc
    exact ⟨fun heq => hloc.1 (QName.mk.inj heq).2, fun heq => hloc.2 (QName.mk.inj heq).2⟩

theorem Neutral.withOptionalAttribute {d : Element} (h : Neutral d) {loc : Str}
    (hloc : loc ∉ DEADLINES) (value : Option Str) :
    Neutral (withOptionalAttribute d loc value) := by
  cases value with
  | none => exact h
  | some v => exact h.withAttribute hloc v

theorem Neutral.withNamespace {d : Element} (h : Neutral d) (pfx : Option Str) (uri : Str) :
    Neutral (d.withNamespace pfx uri) := ⟨h.name, h.attributes⟩

theorem Neutral.withText {d : Element} (h : Neutral d) (t : Str) : Neutral (d.withText t) :=
  ⟨h.name, h.attributes⟩

theorem Neutral.withChild {d : Element} (h : Neutral d) (node : Node) :
    Neutral (d.withChild node) := ⟨h.name, h.attributes⟩

theorem Neutral.withElements {d : Element} (h : Neutral d) (children : List Element) :
    Neutral (withElements d children) := ⟨h.name, h.attributes⟩

/-! ## Elements that say nothing -/

theorem everywhere_leaf {P : Element → Prop} {e : Element} (h : P e)
    (hleaf : e.childElements = []) :
    Everywhere P e := by
  rw [everywhere_iff, hleaf]
  exact ⟨h, fun _ hmem => by cases hmem⟩

theorem everywhere_withElements {P : Element → Prop} {e : Element} {children : List Element}
    (h : P (withElements e children)) (hleaf : e.childElements = [])
    (hchildren : ∀ child ∈ children, Everywhere P child) :
    Everywhere P (withElements e children) := by
  rw [everywhere_iff, childElements_withElements, hleaf, List.nil_append]
  exact ⟨h, hchildren⟩

/-- Every element of the subtree is neutral. -/
abbrev NeutralTree (e : Element) : Prop := Everywhere Neutral e

theorem NeutralTree.withChild {e child : Element} (h : NeutralTree e) (hchild : NeutralTree child) :
    NeutralTree (e.withChild (.element child)) := by
  obtain ⟨hself, hbelow⟩ := everywhere_iff.mp h
  refine everywhere_iff.mpr ⟨hself.withChild _, ?_⟩
  intro d hd
  rw [childElements_withChild] at hd
  rcases List.mem_append.mp hd with hd | hd
  · exact hbelow d hd
  · rw [List.mem_singleton.mp hd]
    exact hchild

theorem NeutralTree.withText {e : Element} (h : NeutralTree e) (t : Str) :
    NeutralTree (e.withText t) := by
  obtain ⟨hself, hbelow⟩ := everywhere_iff.mp h
  refine everywhere_iff.mpr ⟨hself.withText t, ?_⟩
  rwa [childElements_withText]

theorem NeutralTree.withNamespace {e : Element} (h : NeutralTree e) (pfx : Option Str)
    (uri : Str) : NeutralTree (e.withNamespace pfx uri) := by
  obtain ⟨hself, hbelow⟩ := everywhere_iff.mp h
  exact everywhere_iff.mpr ⟨hself.withNamespace pfx uri, hbelow⟩

theorem NeutralTree.withAttribute {e : Element} (h : NeutralTree e) {loc : Str}
    (hloc : loc ∉ DEADLINES) (value : Str) : NeutralTree (e.withAttribute (plain loc) value) := by
  obtain ⟨hself, hbelow⟩ := everywhere_iff.mp h
  exact everywhere_iff.mpr ⟨hself.withAttribute hloc value, hbelow⟩

theorem neutralTree_ds (loc : Str) : NeutralTree (ElementOf.build (ds loc)) :=
  everywhere_leaf (neutral_ds loc) rfl

/-- The declared key of a certificate. -/
theorem neutralTree_keyInfo (cert : X509Certificate) (declared : Bool) :
    NeutralTree (buildX509KeyInfo cert declared) := by
  have hcertificate := (neutralTree_ds "X509Certificate").withText cert.toBase64X509
  have hdata := (neutralTree_ds "X509Data").withChild hcertificate
  unfold buildX509KeyInfo
  cases declared with
  | false => exact (neutralTree_ds "KeyInfo").withChild hdata
  | true => exact ((neutralTree_ds "KeyInfo").withNamespace (some "ds") DS_NS).withChild hdata

theorem neutralTree_algorithm (loc uri : Str) : NeutralTree (Dsig.algorithmElement loc uri) :=
  (neutralTree_ds loc).withAttribute (by decide) uri

theorem neutralTree_c14nTransform (c14n : C14nAlgorithm) (prefixes : List Str) :
    NeutralTree (c14nTransform c14n prefixes) := by
  unfold c14nTransform
  dsimp only
  split
  · have hlist : NeutralTree (ElementOf.build (ec "InclusiveNamespaces")) :=
      everywhere_leaf (neutral_build (by decide) (by decide)) rfl
    exact (neutralTree_algorithm _ _).withChild
      ((hlist.withNamespace (some "ec") EC_NS).withAttribute (by decide) _)
  · exact neutralTree_algorithm _ _

theorem neutralTree_signedInfo (algorithm : SignatureAlgorithm) (digest : DigestAlgorithm)
    (c14n : C14nAlgorithm) (idValue digestB64 : Str) (prefixes : List Str) :
    NeutralTree (buildSignedInfo algorithm digest c14n idValue digestB64 prefixes) := by
  have htransforms := ((neutralTree_ds "Transforms").withChild
    (neutralTree_algorithm "Transform" ENVELOPED_SIGNATURE_URI)).withChild
    (neutralTree_c14nTransform c14n prefixes)
  have hdigest := (neutralTree_ds "DigestValue").withText digestB64
  have hreference := ((((neutralTree_ds "Reference").withAttribute
    (by decide : ("URI" : Str) ∉ DEADLINES) ('#' :: idValue)).withChild htransforms).withChild
    (neutralTree_algorithm "DigestMethod" digest.uri)).withChild hdigest
  exact (((neutralTree_ds "SignedInfo").withChild
    (neutralTree_algorithm "CanonicalizationMethod" c14n.uri)).withChild
    (neutralTree_algorithm "SignatureMethod" algorithm.uri)).withChild hreference

theorem neutralTree_signature {signedInfo signature : Element} {signatureB64 : Str}
    {includeX509Cert : Bool} {signingKey : KeyPair} (hsigned : NeutralTree signedInfo)
    (h : buildSignatureElement signedInfo signatureB64 includeX509Cert signingKey =
      .ok signature) : NeutralTree signature := by
  have hvalue := (neutralTree_ds "SignatureValue").withText signatureB64
  have hbare := (((neutralTree_ds "Signature").withNamespace (some "ds") DS_NS).withChild
    hsigned).withChild hvalue
  unfold buildSignatureElement at h
  dsimp only at h
  split at h
  · split at h
    · obtain rfl := Except.ok.inj h
      exact hbare.withChild (neutralTree_keyInfo _ _)
    · cases h
  · obtain rfl := Except.ok.inj h
    exact hbare

theorem mem_childElements_insertChild {e child d : Element} {index : Nat}
    (h : d ∈ (e.insertChild index (.element child)).childElements) :
    d = child ∨ d ∈ e.childElements := by
  have hmem : Node.element d ∈ e.children.insertIdx index (.element child) :=
    ElementOf.mem_childElements.mp h
  rcases List.eq_or_mem_of_mem_insertIdx hmem with heq | hmem
  · exact .inl (Node.element.inj heq)
  · exact .inr (ElementOf.mem_childElements.mpr hmem)

/-- Signing a neutral element adds neutral elements below it. -/
theorem everywhere_signElement {P : Element → Prop} (neutral : ∀ d, Neutral d → P d)
    {e signed : Element} {opts : SignOptions} (hself : Neutral e)
    (hbelow : ∀ child ∈ e.childElements, Everywhere P child)
    (h : signElement crypto e opts = .ok signed) : Everywhere P signed := by
  obtain ⟨_, _, _, signature, hsignature, rfl⟩ := signElement_ok crypto h
  have hinfo := neutralTree_signature (neutralTree_signedInfo _ _ _ _ _ _) hsignature
  refine everywhere_iff.mpr ⟨neutral _ (hself.insertChild _ _), ?_⟩
  intro d hd
  rcases mem_childElements_insertChild hd with rfl | hd
  · exact fun path d hwalk => neutral d (hinfo path d hwalk)
  · exact hbelow d hd

theorem everywhere_maybeSign {P : Element → Prop} (neutral : ∀ d, Neutral d → P d)
    (numbers : ∀ d, P (unnumbered d) ↔ P d) {e signed : Element} {shouldSign : Bool}
    {opts : SignOptions} (hself : Neutral e)
    (hbelow : ∀ child ∈ e.childElements, Everywhere P child)
    (h : maybeSign crypto e shouldSign opts = .ok signed) : Everywhere P signed := by
  have he : Everywhere P e := everywhere_iff.mpr ⟨neutral e hself, hbelow⟩
  unfold maybeSign at h
  split at h
  · obtain rfl := Except.ok.inj h
    exact he
  · obtain ⟨stash, hstash, h⟩ := bind_eq_ok_iff.mp h
    have hroot : Neutral stash.root := by
      rw [← neutral_unnumbered, Document.new_unnumbered hstash, neutral_unnumbered]
      exact hself
    exact everywhere_signElement neutral hroot
      (everywhere_iff.mp ((everywhere_new numbers hstash).mpr he)).2 h

/-- Signing numbers an element and adds one signature below it. -/
theorem maybeSign_cases {e signed : Element} {shouldSign : Bool} {opts : SignOptions}
    (h : maybeSign crypto e shouldSign opts = .ok signed) :
    signed = e ∨ ∃ stash index signature, unnumbered stash = unnumbered e ∧
      signature.qname = ds "Signature" ∧
      signed = stash.insertChild index (.element signature) := by
  unfold maybeSign at h
  split at h
  · exact .inl (Except.ok.inj h).symm
  · obtain ⟨stash, hstash, h⟩ := bind_eq_ok_iff.mp h
    obtain ⟨_, _, h⟩ := bind_eq_ok_iff.mp h
    obtain ⟨_, _, h⟩ := bind_eq_ok_iff.mp h
    obtain ⟨_, _, h⟩ := bind_eq_ok_iff.mp h
    obtain ⟨_, _, h⟩ := bind_eq_ok_iff.mp h
    obtain ⟨_, _, h⟩ := bind_eq_ok_iff.mp h
    obtain ⟨signature, hsignature, h⟩ := bind_eq_ok_iff.mp h
    refine .inr ⟨stash.root, _, signature, Document.new_unnumbered hstash, ?_,
      (Except.ok.inj h).symm⟩
    unfold buildSignatureElement at hsignature
    dsimp only at hsignature
    split at hsignature
    · split at hsignature
      · rw [← Except.ok.inj hsignature]
        rfl
      · cases hsignature
    · rw [← Except.ok.inj hsignature]
      rfl

/-! ## Elements that say something -/

/-- The `saml:SubjectConfirmationData` of an assertion. -/
def subjectConfirmationDataElement (acsUrl : Str) (inResponseTo : Option Str)
    (holderOfKeyCert : Option X509Certificate) (instants : IssuanceInstants) : Element :=
  withElements (withOptionalAttribute (((saml "SubjectConfirmationData").withAttribute
    (plain "Recipient") acsUrl).withAttribute (plain "NotOnOrAfter")
    instants.subjectConfirmationNotOnOrAfter) "InResponseTo" inResponseTo)
    (holderOfKeyCert.map buildHokKeyInfo).toList

/-- The `saml:AuthnContextClassRef` of an assertion. -/
def classRefElement (classRef : AuthnContextClassRef) : Element :=
  (saml "AuthnContextClassRef").withText classRef.asUri

theorem neutral_buildAssertion (assertionId : Str) (input : IssueResponseInputs)
    (instants : IssuanceInstants) : Neutral (buildAssertion assertionId input instants) := by
  have hself : Neutral (saml "Assertion") := neutral_saml (by decide) (by decide)
  exact Neutral.withElements ((((hself.withNamespace (some "saml") SAML_NS).withAttribute
    (by decide) _).withAttribute (by decide) _).withAttribute (by decide) _) _

section

variable {P : Element → Prop} (neutral : ∀ d, Neutral d → P d)
include neutral

theorem everywhere_of_neutralTree {e : Element} (h : NeutralTree e) : Everywhere P e :=
  fun path d hwalk => neutral d (h path d hwalk)

/-- An element that only holds others. -/
theorem everywhere_wrapper {e : Element} {children : List Element} (hself : Neutral e)
    (hleaf : e.childElements = []) (hchildren : ∀ child ∈ children, Everywhere P child) :
    Everywhere P (withElements e children) :=
  everywhere_withElements (neutral _ (hself.withElements children)) hleaf hchildren

/-- An element that only holds text. -/
theorem everywhere_textElement {loc : Str} (t : Str) (hself : Neutral (saml loc)) :
    Everywhere P ((saml loc).withText t) :=
  everywhere_leaf (neutral _ (hself.withText t)) (by simp)

theorem everywhere_nameIdElement (nameId : NameId) (spEntityId : Str) :
    Everywhere P (nameIdElement nameId spEntityId) := by
  have hself : Neutral (saml "NameID") := neutral_saml (by decide) (by decide)
  have hformat := (hself.withAttribute (by decide : ("Format" : Str) ∉ DEADLINES)
    nameId.format.asUri).withText nameId.value
  refine everywhere_leaf (neutral _ ?_) (by simp [nameIdElement])
  exact ((hformat.withOptionalAttribute (by decide) _).withOptionalAttribute (by decide)
    _).withOptionalAttribute (by decide) _

theorem everywhere_subjectConfirmationElement {acsUrl : Str} {inResponseTo : Option Str}
    {holderOfKeyCert : Option X509Certificate} {instants : IssuanceInstants}
    (data : P (subjectConfirmationDataElement acsUrl inResponseTo holderOfKeyCert instants)) :
    Everywhere P (subjectConfirmationElement acsUrl inResponseTo holderOfKeyCert instants) := by
  have hdata : Everywhere P
      (subjectConfirmationDataElement acsUrl inResponseTo holderOfKeyCert instants) := by
    refine everywhere_withElements data (by simp) ?_
    intro child hchild
    obtain ⟨cert, _, rfl⟩ := Option.map_eq_some_iff.mp (Option.mem_toList.mp hchild)
    exact everywhere_of_neutralTree neutral (neutralTree_keyInfo _ _)
  have hself : Neutral (saml "SubjectConfirmation") := neutral_saml (by decide) (by decide)
  exact everywhere_wrapper neutral (hself.withAttribute (by decide) _) (by simp)
    (List.forall_mem_singleton.mpr hdata)

theorem everywhere_conditionsElement {spEntityId : Str} {instants : IssuanceInstants}
    (conditions : P (conditionsElement spEntityId instants)) :
    Everywhere P (conditionsElement spEntityId instants) := by
  have haudience : Everywhere P ((saml "Audience").withText spEntityId) :=
    everywhere_textElement neutral _ (neutral_saml (by decide) (by decide))
  have hrestriction := everywhere_wrapper neutral
    (neutral_saml (by decide : Schema.saml "AudienceRestriction" ≠ _) (by decide)) rfl
    (List.forall_mem_singleton.mpr haudience)
  exact everywhere_withElements conditions (by simp) (List.forall_mem_singleton.mpr hrestriction)

theorem everywhere_authnStatementElement {sessionIndex : Str} {classRef : AuthnContextClassRef}
    {instants : IssuanceInstants}
    (statement : P (authnStatementElement sessionIndex classRef instants))
    (reference : P (classRefElement classRef)) :
    Everywhere P (authnStatementElement sessionIndex classRef instants) := by
  have hreference : Everywhere P (classRefElement classRef) :=
    everywhere_leaf reference (by simp [classRefElement])
  have hcontext := everywhere_wrapper neutral
    (neutral_saml (by decide : Schema.saml "AuthnContext" ≠ _) (by decide)) rfl
    (List.forall_mem_singleton.mpr hreference)
  exact everywhere_withElements statement (by simp) (List.forall_mem_singleton.mpr hcontext)

theorem everywhere_buildAttribute (attr : SamlAttribute) : Everywhere P (buildAttribute attr) := by
  have hself : Neutral (saml "Attribute") := neutral_saml (by decide) (by decide)
  have hnamed := hself.withAttribute (by decide : ("Name" : Str) ∉ DEADLINES) attr.name
  refine everywhere_wrapper neutral ((hnamed.withOptionalAttribute (by decide)
    _).withOptionalAttribute (by decide) _) (by simp) ?_
  intro child hchild
  obtain ⟨value, _, rfl⟩ := List.mem_map.mp hchild
  exact everywhere_textElement neutral _ (neutral_saml (by decide) (by decide))

theorem everywhere_attributeStatementElements {attributes : List SamlAttribute} :
    ∀ child ∈ attributeStatementElements attributes, Everywhere P child := by
  intro child hchild
  unfold attributeStatementElements at hchild
  split at hchild
  · cases hchild
  · rw [List.mem_singleton.mp hchild]
    refine everywhere_wrapper neutral (neutral_saml (by decide) (by decide)) rfl ?_
    intro d hd
    obtain ⟨attr, _, rfl⟩ := List.mem_map.mp hd
    exact everywhere_buildAttribute neutral attr

/-- A property holds everywhere in a built assertion when it holds of the
neutral elements and of the four that say something. -/
theorem everywhere_buildAssertion {assertionId : Str} {input : IssueResponseInputs}
    {instants : IssuanceInstants}
    (data : P (subjectConfirmationDataElement input.acsEndpoint.url input.inResponseTo
      input.holderOfKeyCert instants))
    (conditions : P (conditionsElement input.sp.entityId instants))
    (statement : P (authnStatementElement input.sessionIndex input.authnContextClassRef instants))
    (reference : P (classRefElement input.authnContextClassRef)) :
    ∀ child ∈ (buildAssertion assertionId input instants).childElements,
      Everywhere P child := by
  have hissuer : Everywhere P (issuerElement input.idpEntityId) :=
    everywhere_textElement neutral _ (neutral_saml (by decide) (by decide))
  have hsubject := everywhere_wrapper neutral
    (neutral_saml (by decide : Schema.saml "Subject" ≠ _) (by decide)) rfl
    (List.forall_mem_cons.mpr ⟨everywhere_nameIdElement neutral input.nameId input.sp.entityId,
      List.forall_mem_singleton.mpr (everywhere_subjectConfirmationElement neutral data)⟩)
  intro child hchild
  simp only [buildAssertion, childElements_withElements, childElements_withAttribute,
    childElements_withNamespace, childElements_saml, List.nil_append, List.mem_append,
    List.mem_cons, List.not_mem_nil, or_false] at hchild
  rcases hchild with (rfl | rfl | rfl | rfl) | hchild
  · exact hissuer
  · exact hsubject
  · exact everywhere_conditionsElement neutral conditions
  · exact everywhere_authnStatementElement neutral statement reference
  · exact everywhere_attributeStatementElements neutral child hchild

/-- A property of an issued assertion, signed or not. -/
theorem everywhere_issuedAssertion (numbers : ∀ d, P (unnumbered d) ↔ P d)
    {input : IssueResponseInputs} {draws : IssueDraws} {assertion : Element}
    (h : issuedAssertion crypto input draws = .ok assertion)
    (said : ∀ instants, issuanceInstants input.now input.assertionLifetime
      input.subjectConfirmationLifetime input.authnInstant input.sessionNotOnOrAfter =
        .ok instants →
      P (subjectConfirmationDataElement input.acsEndpoint.url input.inResponseTo
        input.holderOfKeyCert instants) ∧
      P (conditionsElement input.sp.entityId instants) ∧
      P (authnStatementElement input.sessionIndex input.authnContextClassRef instants))
    (reference : P (classRefElement input.authnContextClassRef)) : Everywhere P assertion := by
  obtain ⟨assertionId, _, h⟩ := bind_eq_ok_iff.mp h
  obtain ⟨instants, hinstants, h⟩ := bind_eq_ok_iff.mp h
  obtain ⟨data, conditions, statement⟩ := said instants hinstants
  exact everywhere_maybeSign neutral numbers (neutral_buildAssertion assertionId input instants)
    (everywhere_buildAssertion neutral data conditions statement reference) h

end

/-! ## The class of an issued assertion -/

theorem qname_subjectConfirmationDataElement (acsUrl : Str) (inResponseTo : Option Str)
    (holderOfKeyCert : Option X509Certificate) (instants : IssuanceInstants) :
    (subjectConfirmationDataElement acsUrl inResponseTo holderOfKeyCert instants).qname =
      Schema.saml "SubjectConfirmationData" := by
  cases inResponseTo <;> rfl

theorem qname_authnStatementElement (sessionIndex : Str) (classRef : AuthnContextClassRef)
    (instants : IssuanceInstants) : (authnStatementElement sessionIndex classRef instants).qname =
      Schema.saml "AuthnStatement" := by
  rcases instants with ⟨_, _, _, _, _, sessionEnd⟩
  cases sessionEnd <;> rfl

/-- A property of an issued assertion that only the names of the elements with
a deadline decide. -/
theorem everywhere_issuedAssertion_of_name {P : Element → Prop} (neutral : ∀ d, Neutral d → P d)
    (numbers : ∀ d, P (unnumbered d) ↔ P d) {input : IssueResponseInputs} {draws : IssueDraws}
    {assertion : Element} (h : issuedAssertion crypto input draws = .ok assertion)
    (named : ∀ d : Element, d.qname = Schema.saml "SubjectConfirmationData" ∨
      d.qname = Schema.saml "Conditions" ∨ d.qname = Schema.saml "AuthnStatement" → P d)
    (reference : P (classRefElement input.authnContextClassRef)) : Everywhere P assertion := by
  refine everywhere_issuedAssertion neutral numbers h (fun instants _ => ⟨?_, ?_, ?_⟩) reference
  · exact named _ (.inl (qname_subjectConfirmationDataElement _ _ _ _))
  · exact named _ (.inr (.inl rfl))
  · exact named _ (.inr (.inr (qname_authnStatementElement _ _ _)))

theorem mem_childElements_signElement {e signed child : Element} {opts : SignOptions}
    (h : signElement crypto e opts = .ok signed) (hchild : child ∈ e.childElements) :
    child ∈ signed.childElements := by
  obtain ⟨_, _, _, signature, -, rfl⟩ := signElement_ok crypto h
  exact ElementOf.mem_childElements.mpr
    (List.subset_insertIdx _ _ _ (ElementOf.mem_childElements.mp hchild))

/-- What holds everywhere in a signed element holds everywhere in the element. -/
theorem everywhere_of_maybeSign {P : Element → Prop} (numbers : ∀ d, P (unnumbered d) ↔ P d)
    {e signed : Element} {shouldSign : Bool} {opts : SignOptions} (hself : P e)
    (h : maybeSign crypto e shouldSign opts = .ok signed) (hsigned : Everywhere P signed) :
    Everywhere P e := by
  unfold maybeSign at h
  split at h
  · obtain rfl := Except.ok.inj h
    exact hsigned
  · obtain ⟨stash, hstash, h⟩ := bind_eq_ok_iff.mp h
    rw [← everywhere_new numbers hstash]
    refine everywhere_iff.mpr ⟨?_, fun child hchild =>
      (everywhere_iff.mp hsigned).2 child (mem_childElements_signElement h hchild)⟩
    rw [← numbers, Document.new_unnumbered hstash, numbers]
    exact hself

/-- An issued assertion states its class. -/
theorem exists_classRef {input : IssueResponseInputs} {draws : IssueDraws} {assertion : Element}
    (h : issuedAssertion crypto input draws = .ok assertion) :
    ∃ path d, assertion.walk path = some d ∧ d.qname = Schema.saml "AuthnContextClassRef" := by
  by_contra hnone
  have hsigned : Everywhere (·.qname ≠ Schema.saml "AuthnContextClassRef") assertion :=
    fun path d hwalk hname => hnone ⟨path, d, hwalk, hname⟩
  obtain ⟨assertionId, _, h⟩ := bind_eq_ok_iff.mp h
  obtain ⟨instants, _, h⟩ := bind_eq_ok_iff.mp h
  have hself : (buildAssertion assertionId input instants).qname ≠
      Schema.saml "AuthnContextClassRef" :=
    (neutral_buildAssertion assertionId input instants).name.1
  have hbuilt := everywhere_of_maybeSign (fun d => by rw [unnumbered_qname]) hself h hsigned
  have hstatement := (everywhere_iff.mp hbuilt).2
    (authnStatementElement input.sessionIndex input.authnContextClassRef instants)
    (by simp [buildAssertion])
  obtain ⟨context, hcontext, hreference⟩ : ∃ context,
      context ∈ (authnStatementElement input.sessionIndex input.authnContextClassRef
        instants).childElements ∧
      classRefElement input.authnContextClassRef ∈ context.childElements :=
    ⟨withElements (saml "AuthnContext") [classRefElement input.authnContextClassRef],
      by simp [authnStatementElement, classRefElement], by simp⟩
  exact (everywhere_iff.mp ((everywhere_iff.mp hstatement).2 context hcontext)).2 _ hreference [] _
    rfl rfl

/-- Every class an issued assertion states is the class of the issuance. -/
theorem classRef_issuedAssertion {input : IssueResponseInputs} {draws : IssueDraws}
    {assertion : Element} (h : issuedAssertion crypto input draws = .ok assertion) :
    Everywhere (fun d => d.qname = Schema.saml "AuthnContextClassRef" →
      d.textContent = input.authnContextClassRef.asUri) assertion := by
  have hdata : Schema.saml "SubjectConfirmationData" ≠ Schema.saml "AuthnContextClassRef" := by
    decide
  have hconditions : Schema.saml "Conditions" ≠ Schema.saml "AuthnContextClassRef" := by decide
  have hstatement : Schema.saml "AuthnStatement" ≠ Schema.saml "AuthnContextClassRef" := by decide
  refine everywhere_issuedAssertion_of_name (fun d hd hname => absurd hname hd.name.1)
    (fun d => by rw [unnumbered_qname, unnumbered_textContent]) h ?_ fun _ => List.append_nil _
  rintro d (heq | heq | heq) hname
  · exact absurd (heq.symm.trans hname) hdata
  · exact absurd (heq.symm.trans hname) hconditions
  · exact absurd (heq.symm.trans hname) hstatement

/-- No issued assertion carries a proxy restriction. -/
theorem noRestriction_issuedAssertion {input : IssueResponseInputs} {draws : IssueDraws}
    {assertion : Element} (h : issuedAssertion crypto input draws = .ok assertion) :
    Everywhere (·.qname ≠ Schema.saml "ProxyRestriction") assertion := by
  have hdata : Schema.saml "SubjectConfirmationData" ≠ Schema.saml "ProxyRestriction" := by decide
  have hconditions : Schema.saml "Conditions" ≠ Schema.saml "ProxyRestriction" := by decide
  have hstatement : Schema.saml "AuthnStatement" ≠ Schema.saml "ProxyRestriction" := by decide
  have hclass : Schema.saml "AuthnContextClassRef" ≠ Schema.saml "ProxyRestriction" := by decide
  refine everywhere_issuedAssertion_of_name (fun d hd => hd.name.2)
    (fun d => by rw [unnumbered_qname]) h ?_ hclass
  rintro d (heq | heq | heq) hname
  · exact absurd (heq.symm.trans hname) hdata
  · exact absurd (heq.symm.trans hname) hconditions
  · exact absurd (heq.symm.trans hname) hstatement

end Saml.Response
