import Saml.Dsig.Built
import Saml.Response.Issued

/-!
# Issuance that goes through

What an identity provider builds can always be numbered, canonicalized and
written. Whether it issues a response is therefore decided by its keys, by the
encryption certificate of the peer and by the URL of the endpoint.
-/

namespace Saml.Response

open Xml Crypto Dsig Xmlenc

/-! ## The size and the names of a response -/

/-- The declaration of the assertion namespace. -/
def samlDecl : NsDecl := (some "saml", SAML_NS)

/-- The declaration of the protocol namespace. -/
def samlpDecl : NsDecl := (some "samlp", SAMLP_NS)

/-- The declaration of the XML-Encryption namespace. -/
def xencDecl : NsDecl := (some "xenc", XENC_NS)

/-- The declaration of the XML Encryption 1.1 namespace. -/
def xenc11Decl : NsDecl := (some "xenc11", XENC11_NS)

section Builders

variable {scope : List NsDecl} {bound extra : Nat} {ids more : List Str} {e : Element}

theorem built_withOptionalAttribute (h : Built scope bound ids e) {loc : Str} (hloc : loc ≠ "ID")
    (value : Option Str) : Built scope bound ids (withOptionalAttribute e loc value) := by
  cases value with
  | none => exact h
  | some v => exact h.withAttribute hloc v

theorem withElements_append (e : Element) (front back : List Element) :
    withElements e (front ++ back) = withElements (withElements e front) back := by
  simp [withElements]

theorem withElements_cons (e child : Element) (rest : List Element) :
    withElements e (child :: rest) = withElements (e.withChild (.element child)) rest := by
  simp [withElements, ElementOf.withChild]

theorem withElements_nil (e : Element) : withElements e [] = e := by
  simp [withElements]

/-- Children without `ID` values, each of a size of its own. -/
theorem built_withElements (h : Built scope bound ids e) {α : Type} {items : List α}
    {child : α → Element} {weight : α → Nat}
    (hchildren : ∀ item ∈ items, Built scope (weight item) [] (child item)) :
    Built scope (bound + (items.map weight).sum) ids (withElements e (items.map child)) := by
  induction items generalizing bound e with
  | nil =>
      simp only [List.map_nil, withElements_nil]
      exact h
  | cons item rest ih =>
      simp only [List.map_cons, withElements_cons, List.sum_cons, ← Nat.add_assoc]
      have hitem := hchildren item List.mem_cons_self
      refine ih ?_ fun other hother => hchildren other (List.mem_cons_of_mem _ hother)
      have hnext := h.withChild hitem
      rwa [List.append_nil] at hnext

theorem built_saml (hscope : samlDecl ∈ scope) (loc : Str) : Built scope 1 [] (saml loc) :=
  Built.build hscope loc

theorem built_samlp (hscope : samlpDecl ∈ scope) (loc : Str) : Built scope 1 [] (samlp loc) :=
  Built.build hscope loc

theorem built_issuerElement (hscope : samlDecl ∈ scope) (idpEntityId : Str) :
    Built scope 2 [] (issuerElement idpEntityId) :=
  (built_saml hscope _).withText _

theorem built_nameIdElement (hscope : samlDecl ∈ scope) (nameId : NameId) (spEntityId : Str) :
    Built scope 2 [] (nameIdElement nameId spEntityId) := by
  have hname := ((built_saml hscope "NameID").withAttribute (by decide : ("Format" : Str) ≠ "ID")
    nameId.format.asUri).withText nameId.value
  exact built_withOptionalAttribute (built_withOptionalAttribute
    (built_withOptionalAttribute hname (by decide) _) (by decide) _) (by decide) _

theorem built_subjectConfirmationElement (hscope : samlDecl ∈ scope) (acsUrl : Str)
    (inResponseTo : Option Str) (holderOfKeyCert : Option X509Certificate)
    (instants : IssuanceInstants) : Built scope 6 []
      (subjectConfirmationElement acsUrl inResponseTo holderOfKeyCert instants) := by
  have hdata := built_withOptionalAttribute (((built_saml hscope
    "SubjectConfirmationData").withAttribute (by decide : ("Recipient" : Str) ≠ "ID")
    acsUrl).withAttribute (by decide : ("NotOnOrAfter" : Str) ≠ "ID")
    instants.subjectConfirmationNotOnOrAfter) (by decide : ("InResponseTo" : Str) ≠ "ID")
    inResponseTo
  have hconfirmed : Built scope 5 [] (subjectConfirmationDataElement acsUrl inResponseTo
      holderOfKeyCert instants) := by
    unfold subjectConfirmationDataElement
    cases holderOfKeyCert with
    | none =>
        rw [Option.map_none, Option.toList_none, withElements_nil]
        exact hdata.mono (List.Subset.refl _) (by decide)
    | some cert =>
        have hkeyInfo : Built scope 4 [] (buildHokKeyInfo cert) :=
          built_buildX509KeyInfo cert true (.inl rfl)
        exact hdata.withChild hkeyInfo
  exact ((built_saml hscope "SubjectConfirmation").withAttribute
    (by decide : ("Method" : Str) ≠ "ID") _).withChild hconfirmed

theorem built_conditionsElement (hscope : samlDecl ∈ scope) (spEntityId : Str)
    (instants : IssuanceInstants) :
    Built scope 4 [] (conditionsElement spEntityId instants) := by
  have hrestriction := (built_saml hscope "AudienceRestriction").withChild
    ((built_saml hscope "Audience").withText spEntityId)
  exact (((built_saml hscope "Conditions").withAttribute (by decide : ("NotBefore" : Str) ≠ "ID")
    instants.conditionsNotBefore).withAttribute (by decide : ("NotOnOrAfter" : Str) ≠ "ID")
    instants.conditionsNotOnOrAfter).withChild hrestriction

theorem built_authnStatementElement (hscope : samlDecl ∈ scope) (sessionIndex : Str)
    (classRef : AuthnContextClassRef) (instants : IssuanceInstants) :
    Built scope 4 [] (authnStatementElement sessionIndex classRef instants) := by
  have hcontext := (built_saml hscope "AuthnContext").withChild
    ((built_saml hscope "AuthnContextClassRef").withText classRef.asUri)
  have hstatement := ((built_saml hscope "AuthnStatement").withAttribute
    (by decide : ("AuthnInstant" : Str) ≠ "ID") instants.authnInstant).withAttribute
    (by decide : ("SessionIndex" : Str) ≠ "ID") sessionIndex
  exact (built_withOptionalAttribute hstatement (by decide) _).withChild hcontext

/-- The nodes of one attribute. -/
def attributeNodes (attr : SamlAttribute) : Nat := 1 + 2 * attr.values.length

/-- The nodes of the released attributes. -/
def releasedNodes (attributes : List SamlAttribute) : Nat := (attributes.map attributeNodes).sum

theorem built_buildAttribute (hscope : samlDecl ∈ scope) (attr : SamlAttribute) :
    Built scope (attributeNodes attr) [] (buildAttribute attr) := by
  have hself := built_withOptionalAttribute (built_withOptionalAttribute ((built_saml hscope
    "Attribute").withAttribute (by decide : ("Name" : Str) ≠ "ID") attr.name)
    (by decide : ("NameFormat" : Str) ≠ "ID") attr.nameFormat)
    (by decide : ("FriendlyName" : Str) ≠ "ID") attr.friendlyName
  have hvalues : ∀ value ∈ attr.values,
      Built scope 2 [] ((saml "AttributeValue").withText value) :=
    fun value _ => (built_saml hscope _).withText value
  have hall := built_withElements hself hvalues
  have hsum : (attr.values.map fun _ => 2).sum = 2 * attr.values.length := by
    simp [List.map_const', Nat.mul_comm]
  rw [hsum] at hall
  exact hall

/-- An assertion has one `ID`, and its size is that of its attributes and a little more. -/
theorem built_buildAssertion (assertionId : Str) (input : IssueResponseInputs)
    (instants : IssuanceInstants) : Built [] (21 + releasedNodes input.attributes) [assertionId]
      (buildAssertion assertionId input instants) := by
  have hscope : samlDecl ∈ ([] ++ [samlDecl] : List NsDecl) := List.mem_cons_self
  have hself := (((built_saml hscope "Assertion").withId assertionId).withAttribute
    (by decide : ("Version" : Str) ≠ "ID") "2.0").withAttribute
    (by decide : ("IssueInstant" : Str) ≠ "ID") instants.now
  have hsubject := ((built_saml hscope "Subject").withChild
    (built_nameIdElement hscope input.nameId input.sp.entityId)).withChild
    (built_subjectConfirmationElement hscope input.acsEndpoint.url input.inResponseTo
      input.holderOfKeyCert instants)
  have hfixed := (((hself.withChild (built_issuerElement hscope input.idpEntityId)).withChild
    hsubject).withChild (built_conditionsElement hscope input.sp.entityId instants)).withChild
    (built_authnStatementElement hscope input.sessionIndex input.authnContextClassRef instants)
  have hdeclared : ∀ {bound : Nat} {children : List Element},
      Built ([] ++ [samlDecl]) bound [assertionId] (withElements ((((saml "Assertion").withAttribute
        (plain "ID") assertionId).withAttribute (plain "Version") "2.0").withAttribute
        (plain "IssueInstant") instants.now) children) →
      Built [] bound [assertionId] (withElements (((((saml "Assertion").withNamespace
        (some "saml") SAML_NS).withAttribute (plain "ID") assertionId).withAttribute
        (plain "Version") "2.0").withAttribute (plain "IssueInstant") instants.now) children) :=
    fun h => h.withNamespace (by decide)
  unfold buildAssertion
  apply hdeclared
  rw [withElements_append]
  have htwenty : Built ([] ++ [samlDecl]) 20 [assertionId] _ := hfixed
  unfold attributeStatementElements
  split
  · rw [withElements_nil]
    exact htwenty.mono (List.Subset.refl _) (by omega)
  · have hattributes := built_withElements (built_saml hscope "AttributeStatement")
      fun attr (_ : attr ∈ input.attributes) => built_buildAttribute hscope attr
    have hall := htwenty.withChild hattributes
    exact hall.mono (List.Subset.refl _) (by rw [← releasedNodes]; omega)

theorem built_statusElement (hscope : samlpDecl ∈ scope) :
    Built scope 2 [] (statusElement .success) :=
  (built_samlp hscope "Status").withChild ((built_samlp hscope "StatusCode").withAttribute
    (by decide : ("Value" : Str) ≠ "ID") _)

/-- A response adds its own `ID` to those of the assertion in it. -/
theorem built_buildResponse (responseId idpEntityId destination : Str)
    (inResponseTo : Option Str) (issueInstant : Str) {wrapped : Element}
    (hwrapped : Built [] bound ids wrapped) : Built [] (5 + bound) (responseId :: ids)
      (buildResponse responseId idpEntityId destination inResponseTo issueInstant .success
        (some wrapped)) := by
  have hsamlp : samlpDecl ∈ ([] ++ [samlDecl] ++ [samlpDecl] : List NsDecl) := by decide
  have hsaml : samlDecl ∈ ([] ++ [samlDecl] ++ [samlpDecl] : List NsDecl) := by decide
  have hself := built_withOptionalAttribute (((((built_samlp hsamlp "Response").withId
    responseId).withAttribute (by decide : ("Version" : Str) ≠ "ID") "2.0").withAttribute
    (by decide : ("IssueInstant" : Str) ≠ "ID") issueInstant).withAttribute
    (by decide : ("Destination" : Str) ≠ "ID") destination)
    (by decide : ("InResponseTo" : Str) ≠ "ID") inResponseTo
  have hall := ((hself.withChild (built_issuerElement hsaml idpEntityId)).withChild
    (built_statusElement hsamlp)).withChild (hwrapped.mono (List.nil_subset _) (Nat.le_refl _))
  have hdeclared := (hall.withNamespace (by decide)).withNamespace (by decide)
  cases inResponseTo with
  | none => exact hdeclared
  | some id => exact hdeclared

theorem built_xencWrapper (hscope : xencDecl ∈ scope) {child : Element}
    (hchild : Built scope extra [] child) (loc : Str) :
    Built scope (1 + extra) [] (xencWrapper loc child) :=
  (Built.build hscope loc).withChild hchild

theorem built_cipherData (hscope : xencDecl ∈ scope) (b64 : Str) :
    Built scope 3 [] (cipherData b64) :=
  built_xencWrapper hscope ((Built.build hscope "CipherValue").withText b64) _

theorem built_xencAlgorithm {d : NsDecl} (hscope : d ∈ scope) (loc uri : Str) :
    Built scope 1 [] (Xmlenc.algorithmElement ⟨some d.2, loc⟩ uri) :=
  (Built.build hscope loc).withAttribute (by decide) uri

/-- An encrypted assertion has no `ID`. -/
theorem built_buildEncryptedAssertionElement (dataAlgorithm : DataEncryptionAlgorithm)
    (wrappedKeyB64 dataCipherB64 : Str) : Built [] 20 [] (buildEncryptedAssertionElement
      dataAlgorithm .rsaOaep wrappedKeyB64 dataCipherB64) := by
  have hscope : ∀ d ∈ [samlDecl, xencDecl, dsDecl, xenc11Decl],
      d ∈ ([] ++ [xenc11Decl] ++ [dsDecl] ++ [xencDecl] ++ [samlDecl] : List NsDecl) := by decide
  have hsaml := hscope samlDecl (by decide)
  have hxenc := hscope xencDecl (by decide)
  have hds := hscope dsDecl (by decide)
  have hxenc11 := hscope xenc11Decl (by decide)
  have hmethod := ((built_xencAlgorithm hxenc "EncryptionMethod"
    KeyTransportAlgorithm.rsaOaep.uri).withChild (built_xencAlgorithm hds "DigestMethod"
    OaepDigest.sha256.uri)).withChild (built_xencAlgorithm hxenc11 "MGF"
    OaepDigest.sha256.mgf1Uri)
  have hkey := ((Built.build hxenc "EncryptedKey").withChild hmethod).withChild
    (built_cipherData hxenc wrappedKeyB64)
  have hkeyInfo := (Built.build hds "KeyInfo").withChild hkey
  have hdata := ((((Built.build hxenc "EncryptedData").withAttribute
    (by decide : ("Type" : Str) ≠ "ID") ENCRYPTED_DATA_TYPE_ELEMENT).withChild
    (built_xencAlgorithm hxenc "EncryptionMethod" dataAlgorithm.uri)).withChild
    hkeyInfo).withChild (built_cipherData hxenc dataCipherB64)
  have hwrapper := ((((((Built.build hsaml "EncryptedAssertion").withChild hdata).withNamespace
    (by decide)).withNamespace (by decide)).withNamespace (by decide)).withNamespace
    (by decide))
  have hbound : 1 + (1 + 1 + (1 + (1 + (1 + 1 + 1) + 3)) + 3) ≤ 20 := by decide
  exact hwrapper.mono (List.Subset.refl _) hbound

end Builders

/-! ## What has to be in place -/

/-- The longest plaintext that AES-GCM takes. -/
def GCM_LIMIT : Nat := 68719476736

variable (crypto : Primitives)

/-- A recipient that session keys can be wrapped for, with a cipher that takes
them. -/
structure Encrypts (recipient : X509Certificate) (dataAlgorithm : DataEncryptionAlgorithm)
    (keyTransport : KeyTransportAlgorithm) : Prop where
  transport : keyTransport = .rsaOaep
  wraps : ∀ seed sessionKey, sessionKey.length = dataAlgorithm.keySize →
    (crypto.rsaOaepEncrypt .sha256 .sha256 recipient.publicKey.material seed
      sessionKey).isSome = true
  encrypts : ∀ (draws : EncryptionDraws) (sessionKey plaintext : Octets),
    (draws.iv dataAlgorithm.ivSize).isSome = true →
    sessionKey.length = dataAlgorithm.keySize → plaintext.length ≤ GCM_LIMIT →
    ∃ encrypted, encryptData crypto dataAlgorithm draws sessionKey plaintext = .ok encrypted

/-- What an issuance needs of the endpoint, of the signing configuration and of
the encryption configuration. -/
structure Issuable (web : Web) (input : IssueResponseInputs) : Prop where
  url : (web.parseUrl input.acsEndpoint.url).isSome = true
  signing : input.signResponses = true ∨ input.signAssertions = true →
    Usable crypto input.signingKey input.outboundSignatureAlgorithm
  encryption : input.shouldEncrypt crypto = true →
    ∃ cert, input.sp.encryptionCert crypto = some cert ∧
      Encrypts crypto cert input.outboundDataEncryptionAlgorithm
        input.outboundKeyTransportAlgorithm

/-- The random octets of an issuance are there and its two identifiers differ. -/
structure Drawn (draws : IssueDraws) : Prop where
  ids : ∃ responseId assertionId, randomXmlId draws.responseId = .ok responseId ∧
    randomXmlId draws.assertionId = .ok assertionId ∧ responseId ≠ assertionId
  sessionKey : ∀ n, (draws.encryption.sessionKey n).isSome = true
  iv : ∀ n, (draws.encryption.iv n).isSome = true

/-- The released attributes fit into a document, and an assertion that is
encrypted into one message of the cipher. -/
structure Fits (input : IssueResponseInputs) (draws : IssueDraws) : Prop where
  nodes : releasedNodes input.attributes + 128 ≤ U32_BOUND
  message : input.shouldEncrypt crypto = true → ∀ assertion text,
    issuedAssertion crypto input draws = .ok assertion →
      Xml.emitElement assertion = .ok text → (Text.asBytes text).length ≤ GCM_LIMIT

variable {crypto}

theorem encryptionCert_rsa {sp : SpDescriptor} {cert : X509Certificate}
    (h : sp.encryptionCert crypto = some cert) : cert.publicKey.algorithmFamily = .rsa := by
  unfold SpDescriptor.encryptionCert at h
  split at h
  · cases h
  next first rest hfilter =>
    have hrsa : ∀ c ∈ first :: rest, c.publicKey.algorithmFamily = .rsa := by
      intro c hc
      rw [← hfilter, List.mem_filter] at hc
      simpa using hc.2
    have hmem : ∀ (others : List X509Certificate) (best : X509Certificate),
        others.foldl (fun best cert => if cert.fingerprintSha256 crypto <
          best.fingerprintSha256 crypto then cert else best) best ∈ best :: others := by
      intro others
      induction others with
      | nil =>
          intro best
          exact List.mem_cons_self
      | cons other others ih =>
          intro best
          rw [List.foldl_cons]
          rcases List.mem_cons.mp (ih (if other.fingerprintSha256 crypto <
            best.fingerprintSha256 crypto then other else best)) with heq | hmem
          · rw [heq]
            split
            · exact List.mem_cons_of_mem _ List.mem_cons_self
            · exact List.mem_cons_self
          · exact List.mem_cons_of_mem _ (List.mem_cons_of_mem _ hmem)
    rw [← Option.some.inj h]
    exact hrsa _ (hmem rest first)

/-! ## Issuance goes through -/

/-- A usable key signs a built message; without signing there is nothing to do. -/
theorem exists_maybeSign {e : Element} {bound : Nat} {ids : List Str} (h : Built [] bound ids e)
    (hbound : bound ≤ U32_BOUND) (hids : ids.Nodup) {shouldSign : Bool} (opts : SignOptions)
    (hkey : shouldSign = true → Usable crypto opts.signingKey opts.sigAlg)
    (hid : (e.attr none "ID").isSome = true) :
    ∃ signed, maybeSign crypto e shouldSign opts = .ok signed ∧
      Built [] (bound + 18) ids signed := by
  unfold maybeSign
  cases shouldSign with
  | false => exact ⟨e, rfl, h.mono (List.Subset.refl _) (Nat.le_add_right _ _)⟩
  | true =>
      obtain ⟨stash, hstash, hroot⟩ := h.exists_new hbound hids
      have hattributes : stash.root.attributes = e.attributes := by
        rw [← unnumbered_attributes, Document.new_unnumbered hstash, unnumbered_attributes]
      have hrootId : (stash.root.attr none "ID").isSome = true := by
        rw [ElementOf.attr, hattributes]
        exact hid
      obtain ⟨index, signature, hsigned, hsignature⟩ :=
        exists_signElement hroot.declared hrootId (hkey rfl)
      exact ⟨_, bind_eq_ok_iff.mpr ⟨stash, hstash, hsigned⟩, hroot.insertChild hsignature index⟩

/-- An assertion is encrypted for a recipient that can be encrypted for. -/
theorem exists_encryptAssertion {assertion : Element} (h : Declared PREFIXES [] assertion)
    {recipient : X509Certificate} (hrsa : recipient.publicKey.algorithmFamily = .rsa)
    {dataAlgorithm : DataEncryptionAlgorithm} {keyTransport : KeyTransportAlgorithm}
    (hencrypts : Encrypts crypto recipient dataAlgorithm keyTransport) {draws : EncryptionDraws}
    (hsessionKey : ∀ n, (draws.sessionKey n).isSome = true)
    (hiv : ∀ n, (draws.iv n).isSome = true)
    (hmessage : ∀ text, Xml.emitElement assertion = .ok text →
      (Text.asBytes text).length ≤ GCM_LIMIT) :
    ∃ wrapped, encryptAssertion crypto assertion recipient dataAlgorithm keyTransport draws =
      .ok wrapped ∧ Built [] 20 [] wrapped := by
  obtain ⟨text, htext⟩ := h.exists_emitElement
  obtain ⟨key, hkey⟩ := Option.isSome_iff_exists.mp (hsessionKey dataAlgorithm.keySize)
  have hfill : fillRandom (draws.sessionKey dataAlgorithm.keySize) = .ok key.val := by
    rw [hkey]
    rfl
  obtain ⟨⟨iv, ciphertext⟩, hencrypted⟩ := hencrypts.encrypts draws key.val (Text.asBytes text)
    (hiv _) key.property (hmessage text htext)
  obtain ⟨wrappedKey, hwrapped⟩ :=
    Option.isSome_iff_exists.mp (hencrypts.wraps draws.seed key.val key.property)
  have hwrap : wrapSessionKey crypto recipient.publicKey keyTransport draws key.val =
      .ok wrappedKey := by
    rw [hencrypts.transport]
    exact okOr_eq_ok_iff.mpr hwrapped
  refine ⟨buildEncryptedAssertionElement dataAlgorithm keyTransport (base64Encode wrappedKey)
    (base64Encode (iv ++ ciphertext)), ?_, ?_⟩
  · unfold encryptAssertion
    rw [if_neg (not_not_intro hrsa)]
    refine bind_eq_ok_iff.mpr ⟨text, htext, bind_eq_ok_iff.mpr ⟨key.val, hfill, ?_⟩⟩
    refine bind_eq_ok_iff.mpr ⟨(iv, ciphertext), hencrypted, ?_⟩
    exact bind_eq_ok_iff.mpr ⟨wrappedKey, hwrap, rfl⟩
  · rw [hencrypts.transport]
    exact built_buildEncryptedAssertionElement dataAlgorithm _ _

/-- With the configuration in place, the text of a response is issued. -/
theorem exists_issuedXml {web : Web} {input : IssueResponseInputs} {draws : IssueDraws}
    {instants : IssuanceInstants} (h : Issuable crypto web input) (hdrawn : Drawn draws)
    (hfits : Fits crypto input draws)
    (hqualifier : ensureNameIdSpQualifier input.nameId input.sp.entityId = .ok ())
    (hinstants : issuanceInstants input.now input.assertionLifetime
      input.subjectConfirmationLifetime input.authnInstant input.sessionNotOnOrAfter =
      .ok instants) : ∃ xml, issuedXml crypto input draws = .ok xml := by
  obtain ⟨responseId, assertionId, hresponseId, hassertionId, hdistinct⟩ := hdrawn.ids
  have hnodes := hfits.nodes
  obtain ⟨assertion, hassertion, hbuilt⟩ := exists_maybeSign
    (built_buildAssertion assertionId input instants) (by omega) (List.nodup_singleton _)
    input.signOptions (fun hsign => h.signing (.inr hsign)) rfl
  have hissued : issuedAssertion crypto input draws = .ok assertion :=
    bind_eq_ok_iff.mpr ⟨assertionId, hassertionId, bind_eq_ok_iff.mpr ⟨instants, hinstants,
      hassertion⟩⟩
  have hwrapped : ∃ wrapped ids, maybeEncrypt crypto input draws.encryption assertion =
      .ok wrapped ∧ Built [] (59 + releasedNodes input.attributes) ids wrapped ∧
      (responseId :: ids).Nodup := by
    unfold maybeEncrypt
    split
    · refine ⟨assertion, [assertionId], rfl, hbuilt.mono (List.Subset.refl _) (by omega), ?_⟩
      simpa using hdistinct
    next hencrypt =>
      have hencrypt : input.shouldEncrypt crypto = true := by simpa using hencrypt
      obtain ⟨cert, hcert, hencrypts⟩ := h.encryption hencrypt
      obtain ⟨wrapped, hok, hsmall⟩ := exists_encryptAssertion hbuilt.declared
        (encryptionCert_rsa hcert) hencrypts hdrawn.sessionKey hdrawn.iv
        fun text htext => hfits.message hencrypt assertion text hissued htext
      refine ⟨wrapped, [], ?_, hsmall.mono (List.Subset.refl _) (by omega),
        List.nodup_singleton _⟩
      exact bind_eq_ok_iff.mpr ⟨cert, okOr_eq_ok_iff.mpr hcert, hok⟩
  obtain ⟨wrapped, ids, hwrapped, hbuiltWrapped, hnodup⟩ := hwrapped
  have hid : ((buildResponse responseId input.idpEntityId input.acsEndpoint.url
      input.inResponseTo instants.now .success (some wrapped)).attr none "ID").isSome = true := by
    unfold buildResponse withOptionalAttribute
    cases input.inResponseTo with
    | none => rfl
    | some id => rfl
  obtain ⟨response, hresponse, hbuiltResponse⟩ := exists_maybeSign
    (built_buildResponse responseId input.idpEntityId input.acsEndpoint.url input.inResponseTo
      instants.now hbuiltWrapped) (by omega) hnodup input.signOptions
    (fun hsign => h.signing (.inl hsign)) hid
  obtain ⟨doc, hdoc, hroot⟩ := hbuiltResponse.exists_new (by omega) hnodup
  obtain ⟨xml, hxml⟩ := hroot.declared.exists_emitElement
  refine ⟨xml, bind_eq_ok_iff.mpr ⟨(), hqualifier, ?_⟩⟩
  refine bind_eq_ok_iff.mpr ⟨responseId, hresponseId, ?_⟩
  refine bind_eq_ok_iff.mpr ⟨assertionId, hassertionId, ?_⟩
  refine bind_eq_ok_iff.mpr ⟨instants, hinstants, ?_⟩
  refine bind_eq_ok_iff.mpr ⟨assertion, hassertion, ?_⟩
  refine bind_eq_ok_iff.mpr ⟨wrapped, hwrapped, ?_⟩
  refine bind_eq_ok_iff.mpr ⟨response, hresponse, ?_⟩
  exact bind_eq_ok_iff.mpr ⟨doc, hdoc, hxml⟩

theorem exists_issueResponse {web : Web} {input : IssueResponseInputs} {draws : IssueDraws}
    {instants : IssuanceInstants} (h : Issuable crypto web input) (hdrawn : Drawn draws)
    (hfits : Fits crypto input draws)
    (hqualifier : ensureNameIdSpQualifier input.nameId input.sp.entityId = .ok ())
    (hinstants : issuanceInstants input.now input.assertionLifetime
      input.subjectConfirmationLifetime input.authnInstant input.sessionNotOnOrAfter =
      .ok instants) (hbinding : input.acsEndpoint.binding = .httpPost) :
    ∃ dispatch, issueResponse crypto web input draws = .ok dispatch := by
  obtain ⟨xml, hxml⟩ := exists_issuedXml h hdrawn hfits hqualifier hinstants
  obtain ⟨url, hurl⟩ := Option.isSome_iff_exists.mp h.url
  refine exists_bind_ok hxml ?_
  unfold dispatchBinding
  rw [hbinding, hurl]
  exact ⟨_, rfl⟩

/-! ## Nothing else goes through -/

/-- Whether a primitive succeeds is decided by its keys and by the lengths of
its inputs. -/
structure Uniform (crypto : Primitives) : Prop where
  rsaSign : ∀ digest secret octets other,
    (crypto.rsaSign digest secret octets).isSome = (crypto.rsaSign digest secret other).isSome
  ecdsaSign : ∀ curve secret octets other,
    (crypto.ecdsaSign curve secret octets).isSome = (crypto.ecdsaSign curve secret other).isSome
  rsaOaepEncrypt : ∀ oaep mgf1 material seed otherSeed message other,
    message.length = other.length →
      (crypto.rsaOaepEncrypt oaep mgf1 material seed message).isSome =
        (crypto.rsaOaepEncrypt oaep mgf1 material otherSeed other).isSome
  aesCbcEncrypt : ∀ key otherKey iv otherIv plaintext other, key.length = otherKey.length →
    iv.length = otherIv.length → (crypto.aesCbcEncrypt key iv plaintext).isSome =
      (crypto.aesCbcEncrypt otherKey otherIv other).isSome
  aesGcmEncrypt : ∀ key otherKey iv otherIv plaintext other, key.length = otherKey.length →
    iv.length = otherIv.length → plaintext.length ≤ GCM_LIMIT → other.length ≤ GCM_LIMIT →
      (crypto.aesGcmEncrypt key iv plaintext).isSome =
        (crypto.aesGcmEncrypt otherKey otherIv other).isSome

theorem exists_okOr {α : Type} {o other : Option α} {err otherErr : Error} {a : α}
    (hsame : o.isSome = other.isSome) (ha : okOr o err = .ok a) :
    ∃ b, okOr other otherErr = .ok b := by
  rw [okOr_eq_ok_iff.mp ha, Option.isSome_some] at hsame
  obtain ⟨b, hb⟩ := Option.isSome_iff_exists.mp hsame.symm
  exact ⟨b, okOr_eq_ok_iff.mpr hb⟩

/-- A key that signs once signs everything. -/
theorem Uniform.exists_sign (uniform : Uniform crypto) {key : KeyPair}
    {algorithm : SignatureAlgorithm} {octets signature : Octets}
    (h : key.sign crypto algorithm octets = .ok signature) (other : Octets) :
    ∃ signature, key.sign crypto algorithm other = .ok signature := by
  rcases key with ⟨family, secret, cert⟩
  cases family <;> cases algorithm <;> try cases h
  case rsa.rsaSha256 | rsa.rsaSha384 | rsa.rsaSha512 =>
    exact exists_okOr (uniform.rsaSign _ secret octets other) h
  case ecdsaP256.ecdsaSha256 | ecdsaP384.ecdsaSha384 =>
    exact exists_okOr (uniform.ecdsaSign _ secret octets other) h

/-- What encrypts a message once encrypts every message. -/
theorem Uniform.exists_encryptData (uniform : Uniform crypto)
    {algorithm : DataEncryptionAlgorithm} {draws other : EncryptionDraws}
    {sessionKey otherKey plaintext message : Octets} {encrypted : Octets × Octets}
    (h : encryptData crypto algorithm draws sessionKey plaintext = .ok encrypted)
    (hiv : (other.iv algorithm.ivSize).isSome = true) (hkey : sessionKey.length = otherKey.length)
    (hplaintext : plaintext.length ≤ GCM_LIMIT) (hmessage : message.length ≤ GCM_LIMIT) :
    ∃ encrypted, encryptData crypto algorithm other otherKey message = .ok encrypted := by
  obtain ⟨iv, hfill, h⟩ := bind_eq_ok_iff.mp h
  obtain ⟨ciphertext, hciphertext, _⟩ := bind_eq_ok_iff.mp h
  obtain ⟨otherIv, hother⟩ := Option.isSome_iff_exists.mp hiv
  have hlength : iv.length = otherIv.val.length := by
    cases hdraw : draws.iv algorithm.ivSize with
    | none => rw [fillRandom, hdraw] at hfill; cases hfill
    | some drawn =>
        rw [fillRandom, hdraw] at hfill
        rw [← Except.ok.inj hfill, drawn.property, otherIv.property]
  have hotherFill : fillRandom (other.iv algorithm.ivSize) = .ok otherIv.val := by
    rw [hother]
    rfl
  refine exists_bind_ok hotherFill ?_
  have hresult {o : Option Octets} {err : Error} (h : ∃ c, okOr o err = .ok c) :
      ∃ encrypted, (do let c ← okOr o err; Except.ok (otherIv.val, c)) = .ok encrypted := by
    obtain ⟨c, hc⟩ := h
    exact exists_bind_ok hc ⟨_, rfl⟩
  refine hresult (exists_okOr ?_ hciphertext)
  cases algorithm with
  | aes128Cbc => exact uniform.aesCbcEncrypt _ _ _ _ _ _ hkey hlength
  | aes256Cbc => exact uniform.aesCbcEncrypt _ _ _ _ _ _ hkey hlength
  | aes128Gcm => exact uniform.aesGcmEncrypt _ _ _ _ _ _ hkey hlength hplaintext hmessage
  | aes256Gcm => exact uniform.aesGcmEncrypt _ _ _ _ _ _ hkey hlength hplaintext hmessage

/-- An assertion is only encrypted for a recipient that can be encrypted for. -/
theorem encrypts_of_encryptAssertion (uniform : Uniform crypto) {assertion wrapped : Element}
    {recipient : X509Certificate} {dataAlgorithm : DataEncryptionAlgorithm}
    {keyTransport : KeyTransportAlgorithm} {draws : EncryptionDraws}
    (h : encryptAssertion crypto assertion recipient dataAlgorithm keyTransport draws =
      .ok wrapped)
    (hmessage : ∀ text, Xml.emitElement assertion = .ok text →
      (Text.asBytes text).length ≤ GCM_LIMIT) :
    Encrypts crypto recipient dataAlgorithm keyTransport := by
  obtain ⟨_, h⟩ := ite_error_eq_ok_iff.mp h
  obtain ⟨text, htext, h⟩ := bind_eq_ok_iff.mp h
  obtain ⟨sessionKey, hfill, h⟩ := bind_eq_ok_iff.mp h
  obtain ⟨encrypted, hencrypted, h⟩ := bind_eq_ok_iff.mp h
  obtain ⟨wrappedKey, hwrap, _⟩ := bind_eq_ok_iff.mp h
  have hlength : sessionKey.length = dataAlgorithm.keySize := by
    cases hdraw : draws.sessionKey dataAlgorithm.keySize with
    | none => rw [fillRandom, hdraw] at hfill; cases hfill
    | some drawn =>
        rw [fillRandom, hdraw] at hfill
        rw [← Except.ok.inj hfill, drawn.property]
  cases keyTransport with
  | rsaOaepMgf1Sha1 => cases hwrap
  | rsaOaep =>
      refine ⟨rfl, ?_, ?_⟩
      · intro seed other hother
        have hsame := uniform.rsaOaepEncrypt .sha256 .sha256 recipient.publicKey.material
          draws.seed seed sessionKey other (hlength.trans hother.symm)
        rw [← hsame, okOr_eq_ok_iff.mp hwrap, Option.isSome_some]
      · intro other otherKey message hiv hkey hshort
        exact uniform.exists_encryptData hencrypted hiv (hlength.trans hkey.symm)
          (hmessage text htext) hshort

/-- Only a usable key signs a message. -/
theorem usable_of_maybeSign (uniform : Uniform crypto) {e signed : Element} {shouldSign : Bool}
    {opts : SignOptions} (hinclude : opts.includeX509Cert = true)
    (h : maybeSign crypto e shouldSign opts = .ok signed) (hsign : shouldSign = true) :
    Usable crypto opts.signingKey opts.sigAlg := by
  rw [maybeSign, if_neg (by simp [hsign])] at h
  obtain ⟨stash, _, h⟩ := bind_eq_ok_iff.mp h
  obtain ⟨idValue, _, h⟩ := bind_eq_ok_iff.mp h
  obtain ⟨target, _, h⟩ := bind_eq_ok_iff.mp h
  obtain ⟨infoDoc, _, h⟩ := bind_eq_ok_iff.mp h
  obtain ⟨infoOctets, _, h⟩ := bind_eq_ok_iff.mp h
  obtain ⟨octets, hoctets, h⟩ := bind_eq_ok_iff.mp h
  obtain ⟨signature, hsignature, _⟩ := bind_eq_ok_iff.mp h
  refine ⟨uniform.exists_sign hoctets, ?_⟩
  unfold buildSignatureElement at hsignature
  rw [if_pos hinclude] at hsignature
  cases hcert : opts.signingKey.cert with
  | some cert => rfl
  | none => rw [hcert] at hsignature; cases hsignature

/-- A response that was issued could be issued. -/
theorem issuable_of_issueResponse (uniform : Uniform crypto) {web : Web}
    {input : IssueResponseInputs} {draws : IssueDraws} {dispatch : SsoResponseDispatch}
    (hfits : Fits crypto input draws)
    (h : issueResponse crypto web input draws = .ok dispatch) : Issuable crypto web input := by
  obtain ⟨xml, hxml, hdispatch⟩ := bind_eq_ok_iff.mp h
  obtain ⟨_, _, hxml⟩ := bind_eq_ok_iff.mp hxml
  obtain ⟨responseId, _, hxml⟩ := bind_eq_ok_iff.mp hxml
  obtain ⟨assertionId, hassertionId, hxml⟩ := bind_eq_ok_iff.mp hxml
  obtain ⟨instants, hinstants, hxml⟩ := bind_eq_ok_iff.mp hxml
  obtain ⟨assertion, hassertion, hxml⟩ := bind_eq_ok_iff.mp hxml
  obtain ⟨wrapped, hwrapped, hxml⟩ := bind_eq_ok_iff.mp hxml
  obtain ⟨response, hresponse, _⟩ := bind_eq_ok_iff.mp hxml
  have hissued : issuedAssertion crypto input draws = .ok assertion :=
    bind_eq_ok_iff.mpr ⟨assertionId, hassertionId, bind_eq_ok_iff.mpr ⟨instants, hinstants,
      hassertion⟩⟩
  refine ⟨?_, ?_, ?_⟩
  · unfold dispatchBinding at hdispatch
    split at hdispatch
    · obtain ⟨url, hurl, _⟩ := bind_eq_ok_iff.mp hdispatch
      rw [okOr_eq_ok_iff.mp hurl, Option.isSome_some]
    · obtain ⟨_, _, hdispatch⟩ := bind_eq_ok_iff.mp hdispatch
      obtain ⟨url, hurl, _⟩ := bind_eq_ok_iff.mp hdispatch
      rw [okOr_eq_ok_iff.mp hurl, Option.isSome_some]
  · rintro (hsign | hsign)
    · exact usable_of_maybeSign uniform rfl hresponse hsign
    · exact usable_of_maybeSign uniform rfl hassertion hsign
  · intro hencrypt
    unfold maybeEncrypt at hwrapped
    rw [if_neg (by simp [hencrypt])] at hwrapped
    obtain ⟨cert, hcert, hwrapped⟩ := bind_eq_ok_iff.mp hwrapped
    exact ⟨cert, okOr_eq_ok_iff.mp hcert, encrypts_of_encryptAssertion uniform hwrapped
      fun text htext => hfits.message hencrypt assertion text hissued htext⟩

end Saml.Response
