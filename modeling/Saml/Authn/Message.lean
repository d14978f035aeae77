import Saml.Authn.Build
import Saml.Authn.Request
import Saml.Message
import Saml.Numeral

/-!
# Authentication requests as they are read

`request_build` against `request_parse`: whatever a service provider asks for,
the request it builds passes the gate and is parsed as what was asked.
-/

namespace Saml

theorem trim_of_validEntityId {entityId : Str} (h : ValidEntityId entityId) :
    Text.trim entityId = entityId := by
  have hkeep : ∀ s : Str, (∀ c ∈ s, Text.isWhitespace c = false) →
      s.dropWhile Text.isWhitespace = s := by
    intro s hs
    cases s with
    | nil => rfl
    | cons c rest => exact List.dropWhile_cons_of_neg (by simp [hs c List.mem_cons_self])
  rw [Text.trim, hkeep entityId h.2, hkeep _ fun c hc => h.2 c (List.mem_reverse.mp hc),
    List.reverse_reverse]

namespace Authn

open Xml Crypto Dsig Response Time Logout

/-! ## The attributes of a request -/

namespace AcsRequest

/-- The index that is nominated. -/
def index? : AcsRequest → Option UInt16
  | .index n => some n
  | _ => none

/-- The URL that is nominated. -/
def url? : AcsRequest → Option Str
  | .url u => some u
  | _ => none

end AcsRequest

/-- The value of a flag that is written only when it is set. -/
def flagText (flag : Bool) : Option Str := if flag then some ("true" : Str) else none

theorem withFlag_eq (e : Element) (loc : Str) (flag : Bool) :
    withFlag e loc flag = withOptionalAttribute e loc (flagText flag) := by
  cases flag <;> rfl

theorem withAcsSelection_eq (e : Element) (selection : AcsRequest) :
    withAcsSelection e selection =
      withOptionalAttribute (withOptionalAttribute e "AssertionConsumerServiceIndex"
        (selection.index?.map fun n => Number.decimal n.toNat))
        "AssertionConsumerServiceURL" selection.url? := by
  cases selection <;> rfl

theorem parseOptionalXsBool_flagText (flag : Bool) :
    ∃ value, parseOptionalXsBool (flagText flag) = .ok value ∧ value.getD false = flag := by
  cases flag with
  | false => exact ⟨none, rfl, rfl⟩
  | true => exact ⟨some true, rfl, rfl⟩

theorem parseProtocolBinding_uri (binding : SsoResponseBinding) :
    parseProtocolBinding binding.uri = .ok binding := by
  have hknown : Binding.fromUri binding.uri = .ok binding.asBinding := by
    cases binding <;> decide
  rw [parseProtocolBinding, hknown]
  cases binding <;> rfl

theorem parseAcsIndex_decimal (n : UInt16) : parseAcsIndex (Number.decimal n.toNat) = .ok n := by
  have hvalue : Nat.ofDigitChars 10 (Number.decimal n.toNat) 0 = n.toNat :=
    Nat.ofDigitChars_ten_toDigits
  have hread : Number.parseU16 (Number.decimal n.toNat) = .ok (n.toNat : Int) := by
    have hnumeral : Number.Numeral false (Number.decimal n.toNat)
        (Nat.ofDigitChars 10 (Number.decimal n.toNat) 0 : Nat) :=
      .plain Nat.toDigits_ne_nil (Number.decimal_digits n.toNat)
    rw [hvalue] at hnumeral
    have hlt := n.toNat_lt
    exact (Number.parsePrimitive_eq_ok_iff (Int.le_refl 0) (by decide)).mpr
      ⟨hnumeral, by omega, by omega⟩
  rw [parseAcsIndex, hread]
  exact congrArg Except.ok UInt16.ofNat_toNat

/-! ## The requested context -/

/-- A requested context as it is read. -/
def readContext (rac : RequestedAuthnContext) : RequestedAuthnContext where
  classRefs := rac.classRefs.map fun c => AuthnContextClassRef.fromUri (Text.trim c.asUri)
  comparison := rac.comparison

theorem parseComparison_attr (comparison : AuthnContextComparison) :
    parseComparison (some (comparisonAttr comparison)) = .ok comparison := by
  cases comparison <;> decide

theorem writable_nameIdPolicyElement (format : NameIdFormat) :
    Writable PREFIXES MESSAGE_SCOPE (nameIdPolicyElement format) := by
  have hself : Composed PREFIXES MESSAGE_SCOPE [] ["Format"] _ :=
    (composed_samlp (by decide) (by decide : isNcName "NameIDPolicy" = true)).withAttribute
      (by decide) format.asUri
  rw [nameIdPolicyElement, withFlag_eq]
  exact (composed_withOptionalAttribute hself (by decide) _).writable

theorem writable_requestedAuthnContextElement (rac : RequestedAuthnContext) :
    Writable PREFIXES MESSAGE_SCOPE (requestedAuthnContextElement rac) := by
  have hself : Composed PREFIXES MESSAGE_SCOPE [] ["Comparison"] _ :=
    (composed_samlp (by decide)
      (by decide : isNcName "RequestedAuthnContext" = true)).withAttribute (by decide)
      (comparisonAttr rac.comparison)
  apply (composed_withElements hself _).writable
  intro child hchild
  obtain ⟨c, -, rfl⟩ := List.mem_map.mp hchild
  exact ((composed_saml (by decide) (by decide)).withText c.asUri).writable

theorem qname_nameIdPolicyElement (format : NameIdFormat) :
    (nameIdPolicyElement format).qname = Schema.samlp "NameIDPolicy" := by
  rw [nameIdPolicyElement, withFlag_eq]
  exact qname_withOptionalAttribute _ _ _

theorem attr_nameIdPolicyElement (format : NameIdFormat) :
    (nameIdPolicyElement format).attr none "Format" = some format.asUri := by
  rw [nameIdPolicyElement, withFlag_eq, attr_withOptionalAttribute]
  rfl

/-- A requested context is read as it was written. -/
theorem parseRequestedAuthnContext_plain {root : Element} {rac : Option RequestedAuthnContext}
    (h : (root.childElement (some SAMLP_NS) "RequestedAuthnContext").map Xml.plain =
      (rac.map requestedAuthnContextElement).map Xml.plain) :
    parseRequestedAuthnContext root = .ok (rac.map readContext) := by
  cases rac with
  | none => rw [parseRequestedAuthnContext, Option.map_eq_none_iff.mp h]; rfl
  | some rac =>
      obtain ⟨found, hfound, hplain⟩ := Option.map_eq_some_iff.mp h
      have hcomparison : parseComparison (found.attr none "Comparison") = .ok rac.comparison := by
        rw [attr_of_plain hplain]
        exact parseComparison_attr rac.comparison
      have hrefs : (requestedAuthnContextElement rac).allChildElements (some SAML_NS)
          "AuthnContextClassRef" =
          rac.classRefs.map fun c => (saml "AuthnContextClassRef").withText c.asUri := by
        have hall : ∀ e ∈ rac.classRefs.map fun c =>
            (saml "AuthnContextClassRef").withText c.asUri,
            e.hasName (some SAML_NS) "AuthnContextClassRef" = true := by
          intro e he
          obtain ⟨c, -, rfl⟩ := List.mem_map.mp he
          rfl
        rw [requestedAuthnContextElement, allChildElements_withElements,
          List.filter_eq_self.mpr hall]
        rfl
      have htexts : (found.allChildElements (some SAML_NS) "AuthnContextClassRef").map
          trimmedText = rac.classRefs.map fun c => Text.trim c.asUri := by
        calc (found.allChildElements (some SAML_NS) "AuthnContextClassRef").map trimmedText
            = ((found.allChildElements (some SAML_NS) "AuthnContextClassRef").map
                Xml.plain).map trimmedText := by
              rw [List.map_map, trimmedText_comp_plain]
          _ = (((requestedAuthnContextElement rac).allChildElements (some SAML_NS)
                "AuthnContextClassRef").map Xml.plain).map trimmedText := by
              rw [← plain_allChildElements, hplain, plain_allChildElements]
          _ = rac.classRefs.map fun c => Text.trim c.asUri := by
              rw [List.map_map, trimmedText_comp_plain, hrefs, List.map_map]
              apply List.map_congr_left
              intro c _
              exact congrArg Text.trim (List.append_nil _)
      have hclasses : (found.allChildElements (some SAML_NS) "AuthnContextClassRef").map
          (fun e => AuthnContextClassRef.fromUri (trimmedText e)) =
          rac.classRefs.map fun c => AuthnContextClassRef.fromUri (Text.trim c.asUri) := by
        have hmapped := congrArg (List.map AuthnContextClassRef.fromUri) htexts
        rw [List.map_map, List.map_map] at hmapped
        exact hmapped
      rw [parseRequestedAuthnContext, hfound]
      dsimp only
      rw [hcomparison, ok_bind, hclasses]
      rfl

/-! ## The request -/

section

variable {α β : Type} {p : β → Bool} {f : α → β} (o : Option α)

theorem find?_toList_of_pos (h : ∀ a, p (f a) = true) : (o.map f).toList.find? p = o.map f := by
  cases o with
  | none => rfl
  | some a => exact List.find?_cons_of_pos (h a)

theorem find?_toList_of_neg (h : ∀ a, p (f a) = false) : (o.map f).toList.find? p = none := by
  cases o with
  | none => rfl
  | some a => exact List.find?_cons_of_neg (by rw [h a]; exact Bool.false_ne_true)

end

namespace BuildAuthnRequest

variable (input : BuildAuthnRequest)

/-- The attributes of a request besides those of every message. -/
def attrs : List (Str × Option Str) :=
  [("Destination", some input.destination),
    ("AssertionConsumerServiceIndex",
      input.acsSelection.index?.map fun n => Number.decimal n.toNat),
    ("AssertionConsumerServiceURL", input.acsSelection.url?),
    ("ProtocolBinding", input.protocolBinding.map SsoResponseBinding.uri),
    ("ForceAuthn", flagText input.forceAuthn), ("IsPassive", flagText input.isPassive)]

/-- The elements of a request behind its issuer. -/
def parts : List Element :=
  (input.requestedNameIdFormat.map nameIdPolicyElement).toList ++
    (input.requestedAuthnContext.map requestedAuthnContextElement).toList

/-- The names of those elements. -/
def partNames (policy context : Bool) : List QName :=
  (if policy then [Schema.samlp "NameIDPolicy"] else []) ++
    if context then [Schema.samlp "RequestedAuthnContext"] else []

theorem names_parts : input.parts.map ElementOf.qname =
    partNames input.requestedNameIdFormat.isSome input.requestedAuthnContext.isSome := by
  unfold parts
  cases input.requestedNameIdFormat with
  | none => cases input.requestedAuthnContext <;> rfl
  | some format =>
      have hname := qname_nameIdPolicyElement format
      cases input.requestedAuthnContext with
      | none => exact congrArg (fun q => [q]) hname
      | some rac => exact congrArg (fun q => [q, Schema.samlp "RequestedAuthnContext"]) hname

theorem find?_policy : input.parts.find? (·.hasName (some SAMLP_NS) "NameIDPolicy") =
    input.requestedNameIdFormat.map nameIdPolicyElement := by
  have hpolicy (format : NameIdFormat) :
      (nameIdPolicyElement format).hasName (some SAMLP_NS) "NameIDPolicy" = true :=
    ElementOf.hasName_iff.mpr (qname_nameIdPolicyElement format)
  have hcontext (rac : RequestedAuthnContext) :
      (requestedAuthnContextElement rac).hasName (some SAMLP_NS) "NameIDPolicy" = false := rfl
  rw [parts, List.find?_append, find?_toList_of_pos _ hpolicy, find?_toList_of_neg _ hcontext,
    Option.or_none]

theorem find?_context : input.parts.find? (·.hasName (some SAMLP_NS) "RequestedAuthnContext") =
    input.requestedAuthnContext.map requestedAuthnContextElement := by
  have hpolicy (format : NameIdFormat) :
      (nameIdPolicyElement format).hasName (some SAMLP_NS) "RequestedAuthnContext" = false := by
    rw [ElementOf.hasName, qname_nameIdPolicyElement]
    rfl
  have hcontext (rac : RequestedAuthnContext) :
      (requestedAuthnContextElement rac).hasName (some SAMLP_NS) "RequestedAuthnContext" = true :=
    rfl
  rw [parts, List.find?_append, find?_toList_of_neg _ hpolicy, find?_toList_of_pos _ hcontext,
    Option.none_or]

/-- The request as a message. -/
def message (issueInstant : Str) (referable : Referable input.id) : Message where
  loc := "AuthnRequest"
  id := input.id
  issueInstant := issueInstant
  attrs := input.attrs
  issuerEntityId := input.issuerEntityId
  rest := input.parts
  name := by decide
  fresh := (by decide : allFresh ["IssueInstant", "Version", "ID"] ["Destination",
    "AssertionConsumerServiceIndex", "AssertionConsumerServiceURL", "ProtocolBinding",
    "ForceAuthn", "IsPassive"] = true)
  below := by
    intro e he
    rcases List.mem_append.mp he with he | he
    · obtain ⟨format, -, rfl⟩ := Option.map_eq_some_iff.mp (Option.mem_toList.mp he)
      exact writable_nameIdPolicyElement format
    · obtain ⟨rac, -, rfl⟩ := Option.map_eq_some_iff.mp (Option.mem_toList.mp he)
      exact writable_requestedAuthnContextElement rac
  unsigned := by
    rw [names_parts]
    cases input.requestedNameIdFormat.isSome <;> cases input.requestedAuthnContext.isSome <;>
      decide
  referable := referable

/-- What is read of a request. -/
def read : RawParsedAuthnRequest where
  id := input.id
  issueInstant := input.issueInstant.millis
  destination := some input.destination
  forceAuthn := input.forceAuthn
  isPassive := input.isPassive
  issuer := Text.trim input.issuerEntityId
  assertionConsumerServiceUrl := input.acsSelection.url?
  assertionConsumerServiceIndex := input.acsSelection.index?
  protocolBinding := input.protocolBinding
  requestedNameIdFormat := input.requestedNameIdFormat.map fun f => NameIdFormat.fromUri f.asUri
  requestedAuthnContext := input.requestedAuthnContext.map readContext

end BuildAuthnRequest

variable {input : BuildAuthnRequest}

/-- What is built is the message. -/
theorem buildAuthnRequestElement_ok {e : Element} (h : buildAuthnRequestElement input = .ok e)
    (referable : Referable input.id) :
    ∃ issueInstant, formatXsDatetime input.issueInstant = .ok issueInstant ∧
      e = (input.message issueInstant referable).element := by
  obtain ⟨issueInstant, hinstant, h⟩ := bind_eq_ok_iff.mp h
  refine ⟨issueInstant, hinstant, ?_⟩
  rw [← Except.ok.inj h, withFlag_eq, withFlag_eq, withAcsSelection_eq]
  rfl

/-- The gate lets a built request through, signed or not. -/
theorem validateAuthnRequest_message {issueInstant : Str} {referable : Referable input.id}
    {doc : Document} (h : (input.message issueInstant referable).ReadIn doc) :
    Schema.validateAuthnRequest doc.root = .ok () := by
  apply h.validateShape rfl rfl rfl
  · intro child hchild
    rcases List.mem_append.mp hchild with hchild | hchild
    · obtain ⟨format, -, rfl⟩ := Option.map_eq_some_iff.mp (Option.mem_toList.mp hchild)
      have hname := qname_nameIdPolicyElement format
      have hbelow : (nameIdPolicyElement format).children = [] := by
        rw [nameIdPolicyElement, withFlag_eq]
        cases flagText (format = .persistent || format = .emailAddress) <;> rfl
      apply Schema.fitsSlot_of_shape Schema.SHAPE_NAMEID_POLICY
      · rw [hname]
        rfl
      · apply Schema.validateShape_of_names [] hname
        · simp
        · rw [ElementOf.childElements, hbelow]
          rfl
        · rw [ElementOf.childElements, hbelow]
          simp
        · exact List.Pairwise.nil
        · exact List.nodup_nil
        · simp
    · obtain ⟨rac, -, rfl⟩ := Option.map_eq_some_iff.mp (Option.mem_toList.mp hchild)
      have hbelow : (requestedAuthnContextElement rac).childElements =
          rac.classRefs.map fun c => (saml "AuthnContextClassRef").withText c.asUri := by
        rw [requestedAuthnContextElement, childElements_withElements]
        rfl
      apply Schema.fitsSlot_of_shape Schema.SHAPE_REQUESTED_AUTHN_CONTEXT rfl
      apply Schema.validateShape_of_names
        (List.replicate rac.classRefs.length (Schema.saml "AuthnContextClassRef"))
      · rfl
      · simp
      · rw [hbelow, List.map_map]
        exact List.map_const'
      · rw [hbelow]
        intro child hchild
        obtain ⟨c, -, rfl⟩ := List.mem_map.mp hchild
        exact Schema.fitsSlot_of_shape Schema.SHAPE_AUTHN_CONTEXT_CLASS_REF rfl rfl
      · rw [List.pairwise_replicate]
        exact .inr (by decide)
      · decide
      · simp [Schema.slot]
  · intro signs
    have hnames : (input.message issueInstant referable).rest.map ElementOf.qname = _ :=
      input.names_parts
    rw [hnames]
    cases signs <;> cases input.requestedNameIdFormat.isSome <;>
      cases input.requestedAuthnContext.isSome <;> decide
  · decide
  · intro signs s hs
    have hoptional : s.minOccurs.toNat = 0 := by
      have hall : ∀ s ∈ ([Schema.slot Schema.SHAPE_ISSUER 0, Schema.signatureSlot,
          Schema.slot Schema.SHAPE_EXTENSIONS 0, Schema.slot Schema.SHAPE_SUBJECT 0,
          Schema.slot Schema.SHAPE_NAMEID_POLICY 0, Schema.slot Schema.SHAPE_REQUEST_CONDITIONS 0,
          Schema.slot Schema.SHAPE_REQUESTED_AUTHN_CONTEXT 0,
          Schema.slot Schema.SHAPE_SCOPING 0] : List Schema.ChildShape), s.minOccurs.toNat = 0 := by
        decide
      exact hall s hs
    rw [hoptional]
    exact Nat.zero_le _

/-- A request is parsed as what was asked. -/
theorem parseAuthnRequest_message (dated : input.issueInstant.Dated)
    (named : Text.trim input.issuerEntityId ≠ []) {issueInstant : Str}
    (hinstant : formatXsDatetime input.issueInstant = .ok issueInstant)
    {referable : Referable input.id} {doc : Document}
    (h : (input.message issueInstant referable).ReadIn doc) :
    parseAuthnRequest doc = .ok input.read := by
  obtain ⟨forceAuthn, hforce, hforceAuthn⟩ := parseOptionalXsBool_flagText input.forceAuthn
  obtain ⟨isPassive, hpassive, hisPassive⟩ := parseOptionalXsBool_flagText input.isPassive
  obtain ⟨issuer, hissuer, hissuerText⟩ := h.exists_issuer
  have hissuerRead : parseIssuer doc.root = .ok (Text.trim input.issuerEntityId) := by
    have htext : trimmedText issuer = Text.trim input.issuerEntityId :=
      congrArg Text.trim hissuerText
    rw [parseIssuer, hissuer, okOr_some, ok_bind, htext, if_neg named]
  have hbinding : mapTranspose parseProtocolBinding
      (input.protocolBinding.map SsoResponseBinding.uri) = .ok input.protocolBinding := by
    cases input.protocolBinding with
    | none => rfl
    | some binding =>
        rw [Option.map_some, mapTranspose, parseProtocolBinding_uri]
        rfl
  have hindex : mapTranspose parseAcsIndex (input.acsSelection.index?.map fun n =>
      Number.decimal n.toNat) = .ok input.acsSelection.index? := by
    cases input.acsSelection.index? with
    | none => rfl
    | some n =>
        rw [Option.map_some, mapTranspose, parseAcsIndex_decimal]
        rfl
  have hcontext : parseRequestedAuthnContext doc.root =
      .ok (input.requestedAuthnContext.map readContext) := by
    apply parseRequestedAuthnContext_plain
    rw [h.childElement (by decide) (by decide)]
    exact congrArg _ input.find?_context
  have hpolicy : ((doc.root.childElement (some SAMLP_NS) "NameIDPolicy").bind
      (·.attr none "Format")).map NameIdFormat.fromUri =
      input.requestedNameIdFormat.map fun f => NameIdFormat.fromUri f.asUri := by
    have hread : (doc.root.childElement (some SAMLP_NS) "NameIDPolicy").map Xml.plain =
        (input.requestedNameIdFormat.map nameIdPolicyElement).map Xml.plain :=
      (h.childElement (by decide) (by decide)).trans (congrArg _ input.find?_policy)
    cases hformat : input.requestedNameIdFormat with
    | none =>
        rw [hformat] at hread
        rw [Option.map_eq_none_iff.mp hread]
        rfl
    | some format =>
        rw [hformat] at hread
        obtain ⟨found, hfound, hplain⟩ := Option.map_eq_some_iff.mp hread
        rw [hfound, Option.bind_some, attr_of_plain hplain, attr_nameIdPolicyElement]
        rfl
  have hname : doc.root.hasName (some SAMLP_NS) "AuthnRequest" = true := h.hasName
  have hversion : doc.root.attr none "Version" = some ("2.0" : Str) := h.attr _
  have hid : doc.root.attr none "ID" = some input.id := h.attr _
  have hissued : doc.root.attr none "IssueInstant" = some issueInstant := h.attr _
  have hdestination : doc.root.attr none "Destination" = some input.destination :=
    h.attr_of_mem (.head _)
  have hacsIndex : doc.root.attr none "AssertionConsumerServiceIndex" =
      input.acsSelection.index?.map fun n => Number.decimal n.toNat :=
    h.attr_of_mem (.tail _ (.head _))
  have hacsUrl : doc.root.attr none "AssertionConsumerServiceURL" = input.acsSelection.url? :=
    h.attr_of_mem (.tail _ (.tail _ (.head _)))
  have hprotocol : doc.root.attr none "ProtocolBinding" =
      input.protocolBinding.map SsoResponseBinding.uri :=
    h.attr_of_mem (.tail _ (.tail _ (.tail _ (.head _))))
  have hforceText : doc.root.attr none "ForceAuthn" = flagText input.forceAuthn :=
    h.attr_of_mem (.tail _ (.tail _ (.tail _ (.tail _ (.head _)))))
  have hpassiveText : doc.root.attr none "IsPassive" = flagText input.isPassive :=
    h.attr_of_mem (.tail _ (.tail _ (.tail _ (.tail _ (.tail _ (.head _))))))
  unfold parseAuthnRequest
  dsimp only
  rw [hname, if_neg (by decide), validateAuthnRequest_message h, ok_bind, requiredAttr, hversion,
    okOr_some, ok_bind, if_neg (by decide), requiredAttr, hid, okOr_some, ok_bind, requiredAttr,
    hissued, okOr_some, ok_bind, parse_of_format dated hinstant, ok_bind, hforceText, hforce,
    ok_bind, hpassiveText, hpassive, ok_bind, hprotocol, hbinding, ok_bind, hacsIndex, hindex,
    ok_bind, hissuerRead, ok_bind, hcontext, ok_bind, hdestination, hacsUrl, hpolicy, hforceAuthn,
    hisPassive]
  rfl

end Authn

end Saml
