import Saml.Dsig.ReadBack
import Saml.Response.Readers
import Saml.Schema.Content
import Saml.Time.Millis

/-!
# What is read of an issued assertion

`build_assertion` against `parse_assertion`: the gate lets the built assertion
through, signed or not, and the parser takes out of it what was put in.
-/

namespace Saml.Schema

open Xml

/-! ## The gate on built elements -/

variable {slots : List ChildShape} {wildcardNamespaces : List Str}

theorem fitsSlot_of_shape {child : Element} (shape : ElementShape)
    (hslot : slotShape slots child.qname = some shape) (h : validateShape shape child = .ok ()) :
    FitsSlot ElementShape.deref slots wildcardNamespaces child := by
  obtain ⟨idx, hidx, -⟩ := Option.bind_eq_some_iff.mp hslot
  refine ⟨?_, ?_⟩
  · rw [admitted, hidx]
    rfl
  · intro other hother
    rw [Option.mem_def, hslot] at hother
    obtain rfl := Option.some.inj hother
    exact h

theorem fitsSlot_of_opaque {child : Element}
    (hslot : (position slots child.qname).isSome = true)
    (hfree : slotShape slots child.qname = none) :
    FitsSlot ElementShape.deref slots wildcardNamespaces child := by
  refine ⟨?_, ?_⟩
  · rw [admitted, hslot]
    rfl
  · intro other hother
    rw [Option.mem_def, hfree] at hother
    cases hother

/-- A sequence accepts an element whose children have the names of a list that
is in order and complete, and fit their slots. -/
theorem validateShape_of_names {name : QName} {requiredAttrs optionalAttrs : List Str}
    {element : Element} (names : List QName) (hname : element.qname = name)
    (hattrs : ∀ loc ∈ requiredAttrs, (element.attr none loc).isSome = true)
    (hnames : element.childElements.map ElementOf.qname = names)
    (hfits : ∀ child ∈ element.childElements,
      FitsSlot ElementShape.deref slots wildcardNamespaces child)
    (horder : names.Pairwise fun a b => precedes slots a b = true)
    (distinct : (slotNames slots).Nodup)
    (hcounts : ∀ s ∈ slots, s.minOccurs.toNat ≤ names.count s.qname) :
    validateShape (shapeOf name requiredAttrs optionalAttrs (.sequence slots) wildcardNamespaces)
      element = .ok () := by
  have hchildNames : childNames element = names := hnames
  rw [validateShape_sequence]
  refine ⟨hname, lacks_unqualifiedAttrs.mpr hattrs, hfits, ?_, ?_⟩
  · rw [hchildNames]
    exact horder
  · rw [hchildNames]
    exact (counts_iff distinct).mpr hcounts

end Saml.Schema

namespace Saml.Response

open Xml Crypto Dsig Time

/-! ## Looking up children -/

theorem find?_hasName_of_ne {e : Element} {name loc : Str} (h : e.qname = Schema.saml name)
    (other : name ≠ loc) (rest : List Element) :
    (e :: rest).find? (·.hasName (some SAML_NS) loc) =
      rest.find? (·.hasName (some SAML_NS) loc) := by
  apply List.find?_cons_of_neg
  rw [ElementOf.hasName_iff, h]
  intro heq
  exact other (QName.mk.inj heq).2

theorem find?_hasName_of_eq {e : Element} {loc : Str} (h : e.qname = Schema.saml loc)
    (rest : List Element) : (e :: rest).find? (·.hasName (some SAML_NS) loc) = some e :=
  List.find?_cons_of_pos (ElementOf.hasName_iff.mpr h)

section

variable {base issuer : Element} {signature : Option Element} {rest : List Element}

theorem childElements_spliced (hbase : base.childElements = []) :
    (spliced base issuer signature.toList rest).childElements =
      issuer :: (signature.toList ++ rest) := by
  rw [spliced, childElements_withElements, hbase]
  rfl

theorem issuer_spliced (hbase : base.childElements = [])
    (hissuer : issuer.qname = Schema.saml "Issuer") :
    (spliced base issuer signature.toList rest).childElement (some SAML_NS) "Issuer" =
      some issuer := by
  rw [ElementOf.childElement, childElements_spliced hbase]
  exact find?_hasName_of_eq hissuer _

theorem hasName_signature {s : Element} (hs : s.qname = ds "Signature") {ns loc : Str}
    (hns : ns ≠ DS_NS) : s.hasName (some ns) loc = false := by
  rw [← Bool.not_eq_true, ElementOf.hasName_iff, hs]
  intro heq
  exact hns (Option.some.inj (QName.mk.inj heq).1).symm

/-- A signature and the issuer are not among the other children. -/
theorem allChildElements_spliced (hbase : base.childElements = [])
    (hsignature : ∀ s ∈ signature, s.qname = ds "Signature") {ns loc : Str} (hns : ns ≠ DS_NS)
    (hissuer : issuer.hasName (some ns) loc = false) :
    (spliced base issuer signature.toList rest).allChildElements (some ns) loc =
      rest.filter (·.hasName (some ns) loc) := by
  have hnone : signature.toList.filter (·.hasName (some ns) loc) = [] := by
    rw [List.filter_eq_nil_iff]
    intro s hs
    rw [hasName_signature (hsignature s (Option.mem_toList.mp hs)) hns]
    exact Bool.false_ne_true
  rw [ElementOf.allChildElements, childElements_spliced hbase,
    List.filter_cons_of_neg (by simp [hissuer]), List.filter_append, hnone, List.nil_append]

theorem childElement_spliced (hbase : base.childElements = [])
    (hsignature : ∀ s ∈ signature, s.qname = ds "Signature") {ns loc : Str} (hns : ns ≠ DS_NS)
    (hissuer : issuer.hasName (some ns) loc = false) :
    (spliced base issuer signature.toList rest).childElement (some ns) loc =
      rest.find? (·.hasName (some ns) loc) := by
  have hnone : signature.toList.find? (·.hasName (some ns) loc) = none := by
    rw [List.find?_eq_none]
    intro s hs
    rw [hasName_signature (hsignature s (Option.mem_toList.mp hs)) hns]
    exact Bool.false_ne_true
  rw [ElementOf.childElement, childElements_spliced hbase,
    List.find?_cons_of_neg (by simp [hissuer]), List.find?_append, hnone, Option.none_or]

end

/-! ## The parts of an assertion -/

/-- The `saml:Assertion` before its children. -/
def assertionBase (assertionId : Str) (instants : IssuanceInstants) : Element :=
  ((((saml "Assertion").withNamespace (some "saml") SAML_NS).withAttribute (plain "ID")
    assertionId).withAttribute (plain "Version") "2.0").withAttribute (plain "IssueInstant")
    instants.now

/-- The `saml:Subject` of an assertion. -/
def subjectElement (input : IssueResponseInputs) (instants : IssuanceInstants) : Element :=
  withElements (saml "Subject")
    [nameIdElement input.nameId input.sp.entityId,
      subjectConfirmationElement input.acsEndpoint.url input.inResponseTo input.holderOfKeyCert
        instants]

/-- The children of an assertion behind its issuer. -/
def assertionParts (input : IssueResponseInputs) (instants : IssuanceInstants) : List Element :=
  [subjectElement input instants, conditionsElement input.sp.entityId instants,
    authnStatementElement input.sessionIndex input.authnContextClassRef instants] ++
    attributeStatementElements input.attributes

/-- An assertion with the signature that was put behind its issuer. -/
def assertionElement (assertionId : Str) (input : IssueResponseInputs)
    (instants : IssuanceInstants) (signature : Option Element) : Element :=
  spliced (assertionBase assertionId instants) (issuerElement input.idpEntityId)
    signature.toList (assertionParts input instants)

theorem assertionElement_none (assertionId : Str) (input : IssueResponseInputs)
    (instants : IssuanceInstants) :
    assertionElement assertionId input instants none = buildAssertion assertionId input instants :=
  rfl

theorem qname_nameIdElement (nameId : NameId) (spEntityId : Str) :
    (nameIdElement nameId spEntityId).qname = Schema.saml "NameID" := by
  simp only [nameIdElement, qname_withOptionalAttribute]
  rfl

theorem qname_attributeStatement {attributes : List SamlAttribute} {e : Element}
    (h : e ∈ attributeStatementElements attributes) :
    e.qname = Schema.saml "AttributeStatement" := by
  unfold attributeStatementElements at h
  split at h
  · cases h
  · rw [List.mem_singleton.mp h]
    rfl

theorem qname_buildAttribute (attr : SamlAttribute) :
    (buildAttribute attr).qname = Schema.saml "Attribute" := by
  unfold buildAttribute
  simp only [withElements, qname_withOptionalAttribute]
  rfl

/-! ## The gate -/

section

variable (input : IssueResponseInputs) (instants : IssuanceInstants)

theorem validate_subjectConfirmation (acsUrl : Str) (inResponseTo : Option Str)
    (holderOfKeyCert : Option X509Certificate) :
    Schema.validateShape Schema.SHAPE_SUBJECT_CONFIRMATION
      (subjectConfirmationElement acsUrl inResponseTo holderOfKeyCert instants) = .ok () := by
  cases inResponseTo <;> cases holderOfKeyCert <;> rfl

theorem validate_subject :
    Schema.validateShape Schema.SHAPE_SUBJECT (subjectElement input instants) = .ok () := by
  have hnameId := qname_nameIdElement input.nameId input.sp.entityId
  have hbelow : (subjectElement input instants).childElements =
      [nameIdElement input.nameId input.sp.entityId,
        subjectConfirmationElement input.acsEndpoint.url input.inResponseTo input.holderOfKeyCert
          instants] := by
    simp [subjectElement]
  apply Schema.validateShape_of_names [Schema.saml "NameID", Schema.saml "SubjectConfirmation"]
  · rfl
  · simp
  · rw [hbelow, List.map_cons, hnameId]
    rfl
  · rw [hbelow]
    intro child hchild
    rcases List.mem_cons.mp hchild with rfl | hchild
    · refine Schema.fitsSlot_of_shape Schema.SHAPE_NAMEID ?_
        (Schema.validateShape_freeShape hnameId)
      rw [hnameId]
      rfl
    · rw [List.mem_singleton.mp hchild]
      exact Schema.fitsSlot_of_shape Schema.SHAPE_SUBJECT_CONFIRMATION rfl
        (validate_subjectConfirmation instants _ _ _)
  · decide
  · decide
  · decide

theorem validate_conditions (spEntityId : Str) :
    Schema.validateShape Schema.SHAPE_CONDITIONS (conditionsElement spEntityId instants) =
      .ok () := by
  rfl

theorem validate_authnStatement (sessionIndex : Str) (classRef : AuthnContextClassRef) :
    Schema.validateShape Schema.SHAPE_AUTHN_STATEMENT
      (authnStatementElement sessionIndex classRef instants) = .ok () := by
  rcases instants with ⟨_, _, _, _, _, sessionEnd⟩
  cases sessionEnd <;> rfl

theorem validate_attribute (attr : SamlAttribute) :
    Schema.validateShape Schema.SHAPE_ATTRIBUTE (buildAttribute attr) = .ok () := by
  have hbelow : (buildAttribute attr).childElements =
      attr.values.map fun value => (saml "AttributeValue").withText value := by
    simp [buildAttribute]
  apply Schema.validateShape_of_names
    (List.replicate attr.values.length (Schema.saml "AttributeValue"))
  · exact qname_buildAttribute attr
  · intro loc hloc
    rw [List.mem_singleton.mp hloc]
    rcases attr with ⟨name, nameFormat, friendlyName, values⟩
    cases nameFormat <;> cases friendlyName <;> rfl
  · rw [hbelow, List.map_map]
    exact List.map_const'
  · rw [hbelow]
    intro child hchild
    obtain ⟨value, -, rfl⟩ := List.mem_map.mp hchild
    exact Schema.fitsSlot_of_shape Schema.SHAPE_ATTRIBUTE_VALUE rfl rfl
  · rw [List.pairwise_replicate]
    exact .inr (by decide)
  · decide
  · simp [Schema.slot]

theorem validate_attributeStatement {attributes : List SamlAttribute} {e : Element}
    (h : e ∈ attributeStatementElements attributes) :
    Schema.validateShape Schema.SHAPE_ATTRIBUTE_STATEMENT e = .ok () := by
  unfold attributeStatementElements at h
  split at h
  next => cases h
  next hne =>
    rw [List.mem_singleton.mp h]
    have hbelow : (withElements (saml "AttributeStatement")
        (attributes.map buildAttribute)).childElements = attributes.map buildAttribute := by
      simp
    have hlength : 1 ≤ attributes.length := by
      rw [List.isEmpty_iff] at hne
      exact List.length_pos_of_ne_nil hne
    apply Schema.validateShape_of_names
      (List.replicate attributes.length (Schema.saml "Attribute"))
    · rfl
    · simp
    · rw [hbelow, List.map_map, Function.comp_def]
      simp only [qname_buildAttribute]
      exact List.map_const'
    · rw [hbelow]
      intro child hchild
      obtain ⟨attr, -, rfl⟩ := List.mem_map.mp hchild
      refine Schema.fitsSlot_of_shape Schema.SHAPE_ATTRIBUTE ?_ (validate_attribute attr)
      rw [qname_buildAttribute]
      rfl
    · rw [List.pairwise_replicate]
      exact .inr (by decide)
    · decide
    · intro s hs
      rcases List.mem_cons.mp hs with rfl | hs
      · have hcount : (List.replicate attributes.length (Schema.saml "Attribute")).count
            (Schema.slot Schema.SHAPE_ATTRIBUTE 1).qname = attributes.length :=
          List.count_replicate_self
        rw [hcount]
        exact hlength
      · rw [List.mem_singleton.mp hs]
        exact Nat.zero_le _

/-- The names of the children of an assertion. -/
def assertionNames (signed attributed : Bool) : List QName :=
  [Schema.saml "Issuer"] ++ (if signed then [ds "Signature"] else []) ++
    [Schema.saml "Subject", Schema.saml "Conditions", Schema.saml "AuthnStatement"] ++
    (if attributed then [Schema.saml "AttributeStatement"] else [])

theorem names_assertionElement (assertionId : Str) {signature : Option Element}
    (hsignature : ∀ s ∈ signature, s.qname = ds "Signature") :
    (assertionElement assertionId input instants signature).childElements.map ElementOf.qname =
      assertionNames signature.isSome (!input.attributes.isEmpty) := by
  have hsigned : signature.toList.map ElementOf.qname =
      if signature.isSome then [ds "Signature"] else [] := by
    cases signature with
    | none => rfl
    | some s => exact congrArg (fun q => [q]) (hsignature s rfl)
  have hattributed : (attributeStatementElements input.attributes).map ElementOf.qname =
      if !input.attributes.isEmpty then [Schema.saml "AttributeStatement"] else [] := by
    unfold attributeStatementElements
    cases input.attributes.isEmpty <;> rfl
  rw [assertionElement, childElements_spliced rfl, List.map_cons, List.map_append, hsigned,
    assertionParts, List.map_append, hattributed, List.map_cons, List.map_cons, List.map_singleton,
    qname_authnStatementElement, assertionNames]
  simp only [List.append_assoc]
  rfl

/-- The gate lets an issued assertion through, with a signature or without. -/
theorem validateAssertion_assertionElement (assertionId : Str) {signature : Option Element}
    (hsignature : ∀ s ∈ signature, s.qname = ds "Signature") :
    Schema.validateAssertion (assertionElement assertionId input instants signature) = .ok () := by
  have hstatement := qname_authnStatementElement input.sessionIndex input.authnContextClassRef
    instants
  apply Schema.validateShape_of_names
    (assertionNames signature.isSome (!input.attributes.isEmpty))
  · rfl
  · intro loc hloc
    simp only [Schema.MESSAGE_ATTRS, List.mem_cons, List.not_mem_nil, or_false] at hloc
    rcases hloc with rfl | rfl | rfl <;> rfl
  · exact names_assertionElement input instants assertionId hsignature
  · rw [assertionElement, childElements_spliced rfl]
    intro child hchild
    rcases List.mem_cons.mp hchild with rfl | hchild
    · exact Schema.fitsSlot_of_shape Schema.SHAPE_ISSUER rfl rfl
    rcases List.mem_append.mp hchild with hchild | hchild
    · have hname := hsignature child (Option.mem_toList.mp hchild)
      apply Schema.fitsSlot_of_opaque
      · rw [hname]
        rfl
      · rw [hname]
        rfl
    rcases List.mem_append.mp hchild with hchild | hchild
    · simp only [List.mem_cons, List.not_mem_nil, or_false] at hchild
      rcases hchild with rfl | rfl | rfl
      · exact Schema.fitsSlot_of_shape Schema.SHAPE_SUBJECT rfl (validate_subject input instants)
      · exact Schema.fitsSlot_of_shape Schema.SHAPE_CONDITIONS rfl
          (validate_conditions instants input.sp.entityId)
      · refine Schema.fitsSlot_of_shape Schema.SHAPE_AUTHN_STATEMENT ?_
          (validate_authnStatement instants input.sessionIndex input.authnContextClassRef)
        rw [hstatement]
        rfl
    · refine Schema.fitsSlot_of_shape Schema.SHAPE_ATTRIBUTE_STATEMENT ?_
        (validate_attributeStatement hchild)
      rw [qname_attributeStatement hchild]
      rfl
  · cases signature.isSome <;> cases !input.attributes.isEmpty <;> decide
  · decide
  · cases signature.isSome <;> cases !input.attributes.isEmpty <;> decide

end

/-! ## The instants -/

/-- The first instant of the year 10000, which a reader does not take. -/
def YEAR_10000 : Int := (LAST_DAY + 1) * 86400 * NANOS

/-- The instants of an issuance lie before the year 10000. -/
structure IssuanceDated (input : IssueResponseInputs) : Prop where
  assertion : input.now.nanos + input.assertionLifetime.nanos < YEAR_10000
  confirmation : input.now.nanos + input.subjectConfirmationLifetime.nanos < YEAR_10000
  authnInstant : input.authnInstant.nanos < YEAR_10000
  session : ∀ t ∈ input.sessionNotOnOrAfter, t.nanos < YEAR_10000

/-- The instants that an issuance computes. -/
structure Scheduled (input : IssueResponseInputs)
    (notBefore notOnOrAfter confirmationEnd : SystemTime) : Prop where
  notBefore : notBefore.nanos = input.now.nanos - MINUTE.nanos
  notOnOrAfter : notOnOrAfter.nanos = input.now.nanos + input.assertionLifetime.nanos
  confirmationEnd :
    confirmationEnd.nanos = input.now.nanos + input.subjectConfirmationLifetime.nanos

/-- What the formatted instants are read as. -/
structure InstantsRead (input : IssueResponseInputs) (instants : IssuanceInstants)
    (notBefore notOnOrAfter confirmationEnd : SystemTime) : Prop where
  now : parseXsDatetime instants.now = .ok input.now.millis
  notBefore : parseXsDatetime instants.conditionsNotBefore = .ok notBefore.millis
  notOnOrAfter : parseXsDatetime instants.conditionsNotOnOrAfter = .ok notOnOrAfter.millis
  confirmationEnd :
    parseXsDatetime instants.subjectConfirmationNotOnOrAfter = .ok confirmationEnd.millis
  authnInstant : parseXsDatetime instants.authnInstant = .ok input.authnInstant.millis
  session : mapTranspose parseXsDatetime instants.sessionNotOnOrAfter =
    .ok (input.sessionNotOnOrAfter.map SystemTime.millis)

theorem issuanceInstants_read {input : IssueResponseInputs} {instants : IssuanceInstants}
    (dated : IssuanceDated input)
    (h : issuanceInstants input.now input.assertionLifetime input.subjectConfirmationLifetime
      input.authnInstant input.sessionNotOnOrAfter = .ok instants) :
    ∃ notBefore notOnOrAfter confirmationEnd,
      Scheduled input notBefore notOnOrAfter confirmationEnd ∧
        InstantsRead input instants notBefore notOnOrAfter confirmationEnd := by
  obtain ⟨notBefore, hnotBefore, h⟩ := bind_eq_ok_iff.mp h
  obtain ⟨notOnOrAfter, hnotOnOrAfter, h⟩ := bind_eq_ok_iff.mp h
  obtain ⟨confirmationEnd, hconfirmationEnd, h⟩ := bind_eq_ok_iff.mp h
  obtain ⟨nowText, hnowText, h⟩ := bind_eq_ok_iff.mp h
  obtain ⟨notBeforeText, hnotBeforeText, h⟩ := bind_eq_ok_iff.mp h
  obtain ⟨notOnOrAfterText, hnotOnOrAfterText, h⟩ := bind_eq_ok_iff.mp h
  obtain ⟨confirmationEndText, hconfirmationEndText, h⟩ := bind_eq_ok_iff.mp h
  obtain ⟨authnInstantText, hauthnInstantText, h⟩ := bind_eq_ok_iff.mp h
  obtain ⟨sessionText, hsessionText, h⟩ := bind_eq_ok_iff.mp h
  obtain rfl := Except.ok.inj h
  have scheduled : Scheduled input notBefore notOnOrAfter confirmationEnd :=
    ⟨SystemTime.checkedSub_eq_some_iff.mp (okOr_eq_ok_iff.mp hnotBefore),
      SystemTime.checkedAdd_eq_some_iff.mp (okOr_eq_ok_iff.mp hnotOnOrAfter),
      SystemTime.checkedAdd_eq_some_iff.mp (okOr_eq_ok_iff.mp hconfirmationEnd)⟩
  have hassertion : notOnOrAfter.Dated := scheduled.notOnOrAfter.trans_lt dated.assertion
  have hconfirmation : confirmationEnd.Dated :=
    scheduled.confirmationEnd.trans_lt dated.confirmation
  have hnow : input.now.Dated := by
    have hle := scheduled.notOnOrAfter
    unfold SystemTime.Dated at hassertion ⊢
    omega
  have hstart : notBefore.Dated := by
    have hle := scheduled.notBefore
    unfold SystemTime.Dated at hnow ⊢
    omega
  exact ⟨notBefore, notOnOrAfter, confirmationEnd, scheduled, parse_of_format hnow hnowText,
    parse_of_format hstart hnotBeforeText, parse_of_format hassertion hnotOnOrAfterText,
    parse_of_format hconfirmation hconfirmationEndText,
    parse_of_format dated.authnInstant hauthnInstantText,
    mapTranspose_parse_of_format dated.session hsessionText⟩

/-! ## The content -/

/-- The identifier a reader takes out of an assertion. -/
def readNameId (nameId : NameId) (spEntityId : Str) : NameId where
  value := Text.trim nameId.value
  format := NameIdFormat.fromUri nameId.format.asUri
  nameQualifier := nameId.nameQualifier
  spNameQualifier := issuedSpNameQualifier nameId spEntityId
  spProvidedId := nameId.spProvidedId

theorem parseNameId_nameIdElement (nameId : NameId) (spEntityId : Str) :
    parseNameId (nameIdElement nameId spEntityId) = readNameId nameId spEntityId := by
  have htext : (nameIdElement nameId spEntityId).textContent = nameId.value := by
    rcases nameId with ⟨value, format, nameQualifier, spNameQualifier, spProvidedId⟩
    unfold nameIdElement
    generalize issuedSpNameQualifier _ spEntityId = qualifier
    cases nameQualifier <;> cases qualifier <;> cases spProvidedId <;> exact List.append_nil _
  rw [parseNameId, trimmedText, htext, readNameId]
  rcases nameId with ⟨value, format, nameQualifier, spNameQualifier, spProvidedId⟩
  unfold nameIdElement
  generalize issuedSpNameQualifier _ spEntityId = qualifier
  cases nameQualifier <;> cases qualifier <;> cases spProvidedId <;> rfl

theorem parseAttribute_buildAttribute (attr : SamlAttribute) :
    parseAttribute (buildAttribute attr) = attr := by
  have hbelow : (buildAttribute attr).allChildElements (some SAML_NS) "AttributeValue" =
      attr.values.map fun value => (saml "AttributeValue").withText value := by
    rw [buildAttribute, allChildElements_withElements, List.filter_eq_self.mpr]
    · simp [ElementOf.allChildElements]
    · intro child hchild
      obtain ⟨value, -, rfl⟩ := List.mem_map.mp hchild
      rfl
  have hvalues : ((attr.values.map fun value => (saml "AttributeValue").withText value).map
      ElementOf.textContent) = attr.values := by
    rw [List.map_map]
    have hid : (ElementOf.textContent ∘ fun value => (saml "AttributeValue").withText value) =
        id := funext fun value => List.append_nil value
    rw [hid, List.map_id]
  rw [parseAttribute, hbelow, hvalues]
  rcases attr with ⟨name, nameFormat, friendlyName, values⟩
  cases nameFormat <;> cases friendlyName <;> rfl

variable (crypto : Primitives)

/-- The confirmation a reader takes out of an assertion. -/
def readConfirmation (input : IssueResponseInputs) (confirmationEnd : SystemTime) :
    SubjectConfirmation where
  method :=
    if input.holderOfKeyCert.isSome then SUBJECT_CONFIRMATION_HOLDER_OF_KEY
    else SUBJECT_CONFIRMATION_BEARER
  recipient := some input.acsEndpoint.url
  notOnOrAfter := some confirmationEnd.millis
  notBefore := none
  inResponseTo := input.inResponseTo
  keyInfoCerts := (input.holderOfKeyCert.bind fun cert => crypto.fromDer cert.der).toList

/-- What a reader takes out of an assertion. -/
def readContent (assertionId : Str) (input : IssueResponseInputs)
    (notBefore notOnOrAfter confirmationEnd : SystemTime) : ParsedAssertion where
  id := assertionId
  issueInstant := input.now.millis
  issuer := Text.trim input.idpEntityId
  subjectNameId := readNameId input.nameId input.sp.entityId
  subjectConfirmations := [readConfirmation crypto input confirmationEnd]
  conditions :=
    ⟨some notBefore.millis, some notOnOrAfter.millis, [[Text.trim input.sp.entityId]], false,
      none, []⟩
  authnStatements :=
    [⟨input.authnInstant.millis, some input.sessionIndex,
      input.sessionNotOnOrAfter.map SystemTime.millis,
      some (Text.trim input.authnContextClassRef.asUri)⟩]
  attributes := input.attributes

variable {crypto}

theorem fromBase64X509_toBase64X509 (cert : X509Certificate) :
    X509Certificate.fromBase64X509 crypto cert.toBase64X509 =
      okOr (crypto.fromDer cert.der) .x509Parse := by
  have hkept : (base64Encode cert.der).filter (fun c => !Text.isWhitespace c) =
      base64Encode cert.der := by
    apply List.filter_eq_self.mpr
    intro c hc
    rw [Xmlenc.not_isWhitespace_of_isSymbol (Library.Base64.isSymbol_encode cert.der c hc)]
    rfl
  rw [X509Certificate.fromBase64X509, X509Certificate.toBase64X509, hkept, base64Decode,
    base64Encode, Library.Base64.decode_encode]
  rfl

theorem extractSubjectConfirmationCerts_built (acsUrl : Str) (inResponseTo : Option Str)
    (cert : X509Certificate) (instants : IssuanceInstants) :
    extractSubjectConfirmationCerts crypto
      (subjectConfirmationDataElement acsUrl inResponseTo (some cert) instants) =
      (crypto.fromDer cert.der).toList := by
  have hkeyInfo : (subjectConfirmationDataElement acsUrl inResponseTo (some cert)
      instants).childElement (some DS_NS) "KeyInfo" = some (buildHokKeyInfo cert) := by
    cases inResponseTo <;> rfl
  have hcerts : (parseKeyInfoElement (buildHokKeyInfo cert)).x509CertificatesBase64 =
      [cert.toBase64X509] := by
    have htext : ((ElementOf.build (ds "X509Certificate")).withText
        cert.toBase64X509).textContent = cert.toBase64X509 := List.append_nil _
    exact congrArg (fun t => [t]) htext
  rw [extractSubjectConfirmationCerts, hkeyInfo]
  dsimp only
  rw [hcerts, List.filterMap_cons, fromBase64X509_toBase64X509]
  cases crypto.fromDer cert.der <;> rfl

theorem parseSubjectConfirmation_built {input : IssueResponseInputs} {instants : IssuanceInstants}
    {confirmationEnd : SystemTime}
    (hend : parseXsDatetime instants.subjectConfirmationNotOnOrAfter =
      .ok confirmationEnd.millis) :
    parseSubjectConfirmation crypto (subjectConfirmationElement input.acsEndpoint.url
      input.inResponseTo input.holderOfKeyCert instants) =
      .ok (readConfirmation crypto input confirmationEnd) := by
  rw [readConfirmation]
  generalize input.acsEndpoint.url = acsUrl
  generalize input.inResponseTo = inResponseTo
  generalize input.holderOfKeyCert = holderOfKeyCert
  have hmethod : (subjectConfirmationElement acsUrl inResponseTo holderOfKeyCert
      instants).attr none "Method" =
      some (if holderOfKeyCert.isSome then SUBJECT_CONFIRMATION_HOLDER_OF_KEY
        else SUBJECT_CONFIRMATION_BEARER) := rfl
  have hdata : (subjectConfirmationElement acsUrl inResponseTo holderOfKeyCert
      instants).childElement (some SAML_NS) "SubjectConfirmationData" =
      some (subjectConfirmationDataElement acsUrl inResponseTo holderOfKeyCert instants) := by
    have hbelow : (subjectConfirmationElement acsUrl inResponseTo holderOfKeyCert
        instants).childElements =
        [subjectConfirmationDataElement acsUrl inResponseTo holderOfKeyCert instants] := by
      simp [subjectConfirmationElement, subjectConfirmationDataElement]
    rw [ElementOf.childElement, hbelow]
    exact find?_hasName_of_eq (qname_subjectConfirmationDataElement _ _ _ _) []
  have hnotOnOrAfter : instantAttr (subjectConfirmationDataElement acsUrl inResponseTo
      holderOfKeyCert instants) "NotOnOrAfter" = .ok (some confirmationEnd.millis) := by
    have hattr : (subjectConfirmationDataElement acsUrl inResponseTo holderOfKeyCert
        instants).attr none "NotOnOrAfter" =
        some instants.subjectConfirmationNotOnOrAfter := by
      cases inResponseTo <;> rfl
    rw [instantAttr, hattr, mapTranspose, hend]
    rfl
  have hnotBefore : instantAttr (subjectConfirmationDataElement acsUrl inResponseTo
      holderOfKeyCert instants) "NotBefore" = .ok none := by
    cases inResponseTo <;> rfl
  rw [parseSubjectConfirmation, hmethod, okOr_some, ok_bind, hdata]
  dsimp only
  rw [hnotOnOrAfter, ok_bind, hnotBefore, ok_bind]
  cases holderOfKeyCert with
  | none => cases inResponseTo <;> rfl
  | some cert =>
      simp only [Option.isSome_some, if_true, extractSubjectConfirmationCerts_built,
        Option.bind_some]
      cases inResponseTo <;> rfl

theorem parseSubjectNameId_built (input : IssueResponseInputs) (instants : IssuanceInstants) :
    parseSubjectNameId (subjectElement input instants) =
      .ok (readNameId input.nameId input.sp.entityId) := by
  have hnameId : (subjectElement input instants).childElement (some SAML_NS) "NameID" =
      some (nameIdElement input.nameId input.sp.entityId) := by
    rw [ElementOf.childElement, subjectElement, childElements_withElements]
    exact find?_hasName_of_eq (qname_nameIdElement _ _) _
  rw [parseSubjectNameId, hnameId]
  exact congrArg Except.ok (parseNameId_nameIdElement _ _)

theorem subjectConfirmations_built (input : IssueResponseInputs) (instants : IssuanceInstants) :
    (subjectElement input instants).allChildElements (some SAML_NS) "SubjectConfirmation" =
      [subjectConfirmationElement input.acsEndpoint.url input.inResponseTo input.holderOfKeyCert
        instants] := by
  rw [subjectElement, allChildElements_withElements,
    filter_hasName_of_ne (qname_nameIdElement _ _) (by decide), filter_hasName_of_eq rfl]
  rfl

theorem parseConditions_built {spEntityId : Str} {instants : IssuanceInstants}
    {notBefore notOnOrAfter : SystemTime}
    (hstart : parseXsDatetime instants.conditionsNotBefore = .ok notBefore.millis)
    (hend : parseXsDatetime instants.conditionsNotOnOrAfter = .ok notOnOrAfter.millis) :
    parseConditions (conditionsElement spEntityId instants) =
      .ok ⟨some notBefore.millis, some notOnOrAfter.millis, [[Text.trim spEntityId]], false, none,
        []⟩ := by
  have hnotBefore : instantAttr (conditionsElement spEntityId instants) "NotBefore" =
      .ok (some notBefore.millis) := by
    have hattr : (conditionsElement spEntityId instants).attr none "NotBefore" =
      some instants.conditionsNotBefore := rfl
    rw [instantAttr, hattr, mapTranspose, hstart]
    rfl
  have hnotOnOrAfter : instantAttr (conditionsElement spEntityId instants) "NotOnOrAfter" =
      .ok (some notOnOrAfter.millis) := by
    have hattr : (conditionsElement spEntityId instants).attr none "NotOnOrAfter" =
      some instants.conditionsNotOnOrAfter := rfl
    rw [instantAttr, hattr, mapTranspose, hend]
    rfl
  have haudience : ((saml "Audience").withText spEntityId).textContent = spEntityId :=
    List.append_nil _
  have hrestrictions : ((conditionsElement spEntityId instants).allChildElements (some SAML_NS)
      "AudienceRestriction").map audiences =
      [[Text.trim ((saml "Audience").withText spEntityId).textContent]] := rfl
  rw [parseConditions, hnotBefore, ok_bind, hnotOnOrAfter, ok_bind, hrestrictions, haudience]
  rfl

theorem parseAuthnStatement_built {input : IssueResponseInputs} {instants : IssuanceInstants}
    (hinstant : parseXsDatetime instants.authnInstant = .ok input.authnInstant.millis)
    (hsession : mapTranspose parseXsDatetime instants.sessionNotOnOrAfter =
      .ok (input.sessionNotOnOrAfter.map SystemTime.millis)) :
    parseAuthnStatement (authnStatementElement input.sessionIndex input.authnContextClassRef
      instants) =
      .ok ⟨input.authnInstant.millis, some input.sessionIndex,
        input.sessionNotOnOrAfter.map SystemTime.millis,
        some (Text.trim input.authnContextClassRef.asUri)⟩ := by
  generalize input.sessionIndex = sessionIndex
  generalize input.authnContextClassRef = classRef
  have hattrs : (authnStatementElement sessionIndex classRef instants).attr none "AuthnInstant" =
      some instants.authnInstant ∧
      (authnStatementElement sessionIndex classRef instants).attr none "SessionNotOnOrAfter" =
        instants.sessionNotOnOrAfter ∧
      (authnStatementElement sessionIndex classRef instants).attr none "SessionIndex" =
        some sessionIndex := by
    rcases instants with ⟨_, _, _, _, _, sessionEnd⟩
    cases sessionEnd <;> exact ⟨rfl, rfl, rfl⟩
  have hcontext : (authnStatementElement sessionIndex classRef instants).childElement
      (some SAML_NS) "AuthnContext" =
      some (withElements (saml "AuthnContext") [classRefElement classRef]) := by
    rw [ElementOf.childElement, authnStatementElement, childElements_withElements,
      childElements_withOptionalAttribute]
    exact find?_hasName_of_eq rfl []
  have hreference : (withElements (saml "AuthnContext") [classRefElement classRef]).childElement
      (some SAML_NS) "AuthnContextClassRef" = some (classRefElement classRef) := rfl
  have htext : (classRefElement classRef).textContent = classRef.asUri := List.append_nil _
  rw [parseAuthnStatement, hattrs.1, okOr_some, ok_bind, hinstant, ok_bind, instantAttr,
    hattrs.2.1, hsession, ok_bind, hattrs.2.2, hcontext, Option.bind_some, hreference,
    Option.map_some, trimmedText, htext]

section

variable {assertionId : Str} {input : IssueResponseInputs} {instants : IssuanceInstants}
  {signature : Option Element}

theorem childElement_assertionElement (hsignature : ∀ s ∈ signature, s.qname = ds "Signature")
    {loc : Str} (hloc : "Issuer" ≠ loc) :
    (assertionElement assertionId input instants signature).childElement (some SAML_NS) loc =
      (assertionParts input instants).find? (·.hasName (some SAML_NS) loc) := by
  apply childElement_spliced rfl hsignature (by decide)
  rw [← Bool.not_eq_true, ElementOf.hasName_iff]
  intro heq
  exact hloc (QName.mk.inj heq).2

theorem allChildElements_assertionElement (hsignature : ∀ s ∈ signature, s.qname = ds "Signature")
    {loc : Str} (hloc : "Issuer" ≠ loc) :
    (assertionElement assertionId input instants signature).allChildElements (some SAML_NS) loc =
      (assertionParts input instants).filter (·.hasName (some SAML_NS) loc) := by
  apply allChildElements_spliced rfl hsignature (by decide)
  rw [← Bool.not_eq_true, ElementOf.hasName_iff]
  intro heq
  exact hloc (QName.mk.inj heq).2

theorem attributes_built (hsignature : ∀ s ∈ signature, s.qname = ds "Signature") :
    (((assertionElement assertionId input instants signature).allChildElements (some SAML_NS)
      "AttributeStatement").flatMap fun statement =>
        (statement.allChildElements (some SAML_NS) "Attribute").map parseAttribute) =
      input.attributes := by
  have hstatement := qname_authnStatementElement input.sessionIndex input.authnContextClassRef
    instants
  rw [allChildElements_assertionElement hsignature (by decide), assertionParts,
    List.filter_append, filter_hasName_of_ne rfl (by decide), filter_hasName_of_ne rfl (by decide),
    filter_hasName_of_ne hstatement (by decide), List.filter_nil, List.nil_append,
    List.filter_eq_self.mpr fun e he => ElementOf.hasName_iff.mpr (qname_attributeStatement he)]
  unfold attributeStatementElements
  split
  next hnone => exact (List.isEmpty_iff.mp hnone).symm
  next =>
    have hbelow : (withElements (saml "AttributeStatement")
        (input.attributes.map buildAttribute)).allChildElements (some SAML_NS) "Attribute" =
        input.attributes.map buildAttribute := by
      rw [allChildElements_withElements, List.filter_eq_self.mpr]
      · rfl
      · intro child hchild
        obtain ⟨attr, -, rfl⟩ := List.mem_map.mp hchild
        exact ElementOf.hasName_iff.mpr (qname_buildAttribute attr)
    have hid : parseAttribute ∘ buildAttribute = id := funext parseAttribute_buildAttribute
    rw [List.flatMap_singleton, hbelow, List.map_map, hid, List.map_id]

/-- The parser takes out of an issued assertion what was put in, signed or not. -/
theorem parseAssertion_assertionElement {notBefore notOnOrAfter confirmationEnd : SystemTime}
    (read : InstantsRead input instants notBefore notOnOrAfter confirmationEnd)
    (hsignature : ∀ s ∈ signature, s.qname = ds "Signature") :
    parseAssertion crypto (assertionElement assertionId input instants signature) =
      .ok (readContent crypto assertionId input notBefore notOnOrAfter confirmationEnd) := by
  have hname : (assertionElement assertionId input instants signature).hasName (some SAML_NS)
    "Assertion" = true := rfl
  have hid : (assertionElement assertionId input instants signature).attr none "ID" =
    some assertionId := rfl
  have hinstant : (assertionElement assertionId input instants signature).attr none
    "IssueInstant" = some instants.now := rfl
  have hissuer : (assertionElement assertionId input instants signature).childElement
      (some SAML_NS) "Issuer" = some (issuerElement input.idpEntityId) :=
    issuer_spliced rfl rfl
  have hissuerText : trimmedText (issuerElement input.idpEntityId) =
      Text.trim input.idpEntityId :=
    congrArg Text.trim (List.append_nil _)
  have hsubject : (assertionElement assertionId input instants signature).childElement
      (some SAML_NS) "Subject" = some (subjectElement input instants) := by
    rw [childElement_assertionElement hsignature (by decide)]
    exact find?_hasName_of_eq rfl _
  have hconfirmations : ((subjectElement input instants).allChildElements (some SAML_NS)
      "SubjectConfirmation").mapM (parseSubjectConfirmation crypto) =
      .ok [readConfirmation crypto input confirmationEnd] := by
    rw [subjectConfirmations_built, List.mapM_cons,
      parseSubjectConfirmation_built read.confirmationEnd]
    rfl
  have hconditions : parseConditionsOf (assertionElement assertionId input instants signature) =
      .ok ⟨some notBefore.millis, some notOnOrAfter.millis, [[Text.trim input.sp.entityId]], false,
        none, []⟩ := by
    rw [parseConditionsOf, childElement_assertionElement hsignature (by decide), assertionParts,
      List.cons_append, find?_hasName_of_ne rfl (by decide), List.cons_append,
      find?_hasName_of_eq rfl]
    exact parseConditions_built read.notBefore read.notOnOrAfter
  have hstatements : ((assertionElement assertionId input instants signature).allChildElements
      (some SAML_NS) "AuthnStatement").mapM parseAuthnStatement =
      .ok [⟨input.authnInstant.millis, some input.sessionIndex,
        input.sessionNotOnOrAfter.map SystemTime.millis,
        some (Text.trim input.authnContextClassRef.asUri)⟩] := by
    have hnone : (attributeStatementElements input.attributes).filter
        (·.hasName (some SAML_NS) "AuthnStatement") = [] := by
      rw [List.filter_eq_nil_iff]
      intro e he
      rw [ElementOf.hasName_iff, qname_attributeStatement he]
      decide
    rw [allChildElements_assertionElement hsignature (by decide), assertionParts,
      List.filter_append, filter_hasName_of_ne rfl (by decide),
      filter_hasName_of_ne rfl (by decide),
      filter_hasName_of_eq (qname_authnStatementElement _ _ _), List.filter_nil, hnone,
      List.append_nil, List.mapM_cons, parseAuthnStatement_built read.authnInstant read.session]
    rfl
  rw [parseAssertion, hname]
  simp only [Bool.not_true, Bool.false_eq_true, if_false]
  rw [validateAssertion_assertionElement input instants assertionId hsignature, ok_bind, hid,
    okOr_some, ok_bind, hinstant, okOr_some, ok_bind, read.now, ok_bind, hissuer, okOr_some,
    ok_bind, hsubject, okOr_some, ok_bind, parseSubjectNameId_built, ok_bind, hconfirmations,
    ok_bind, hconditions, ok_bind, hstatements, ok_bind, attributes_built hsignature, hissuerText]
  rfl

end

end Saml.Response
