import Saml.Dsig.Writable
import Saml.Response.Issuable
import Saml.Response.Issued
import Saml.Xml.Sound
import Saml.Xmlenc.RoundTrip

/-!
# Encrypted assertions in responses

What `build_response` puts together around an encrypted assertion, signed or
not, is read back as it was built, so that the recipient decrypts the assertion
that was encrypted.
-/

namespace Saml.Response

open Xml Crypto Dsig Xmlenc

section Builders

variable {table scope : List NsDecl} {prefixes : List (Option Str)} {names : List Str}
  {e : Element} {loc : Str}

theorem composed_withOptionalAttribute (h : Composed table scope prefixes names e)
    (hloc : isFreshName names loc = true) (value : Option Str) :
    Composed table scope prefixes (loc :: names) (withOptionalAttribute e loc value) := by
  cases value with
  | none =>
      refine ⟨h.writable, h.prefixes, ?_⟩
      intro a ha
      obtain ⟨used, hused, heq⟩ := h.names a ha
      exact ⟨used, List.mem_cons_of_mem _ hused, heq⟩
  | some v => exact h.withAttribute hloc v

theorem composed_withElements (h : Composed table scope prefixes names e)
    {children : List Element} (hchildren : ∀ child ∈ children, Writable table scope child) :
    Composed table scope prefixes names (withElements e children) :=
  h.withChildren hchildren

theorem composed_saml (hscope : samlDecl ∈ scope) (hloc : isNcName loc = true) :
    Composed table scope [] [] (saml loc) :=
  .build hscope hloc

theorem composed_samlp (hscope : samlpDecl ∈ scope) (hloc : isNcName loc = true) :
    Composed table scope [] [] (samlp loc) :=
  .build hscope hloc

theorem writable_issuerElement (hscope : samlDecl ∈ scope) (idpEntityId : Str) :
    Writable table scope (issuerElement idpEntityId) :=
  ((composed_saml hscope (by decide)).withText idpEntityId).writable

theorem writable_statusElement (hscope : samlpDecl ∈ scope) (status : Status) :
    Writable table scope (statusElement status) := by
  have hcode (value : Str) : Composed table scope [] ["Value"] _ :=
    (composed_samlp hscope (by decide : isNcName "StatusCode" = true)).withAttribute
      (by decide) value
  have hstatusCode : Writable table scope (withElements
      ((samlp "StatusCode").withAttribute (plain "Value") status.codeUri)
      (status.secondLevel.map fun value =>
        (samlp "StatusCode").withAttribute (plain "Value") value).toList) := by
    refine (composed_withElements (hcode _) ?_).writable
    intro child hchild
    obtain ⟨value, -, rfl⟩ := Option.map_eq_some_iff.mp (Option.mem_toList.mp hchild)
    exact (hcode value).writable
  refine (composed_withElements (composed_samlp hscope (by decide)) ?_).writable
  intro child hchild
  rcases List.mem_cons.mp hchild with rfl | hchild
  · exact hstatusCode
  · obtain ⟨message, -, rfl⟩ := Option.map_eq_some_iff.mp (Option.mem_toList.mp hchild)
    exact ((composed_samlp hscope (by decide)).withText message).writable

/-- A response around an element that stands by itself. -/
theorem writable_buildResponse (hsamlp : samlpDecl ∈ table) (hsaml : samlDecl ∈ table)
    (responseId idpEntityId destination : Str) (inResponseTo : Option Str) (issueInstant : Str)
    (status : Status) {wrapped : Option Element}
    (hwrapped : ∀ child ∈ wrapped, Writable table [] child) :
    Writable table [] (buildResponse responseId idpEntityId destination inResponseTo
      issueInstant status wrapped) := by
  have hinnerSamlp : samlpDecl ∈ ([] ++ [samlDecl] ++ [samlpDecl] : List NsDecl) := by decide
  have hinnerSaml : samlDecl ∈ ([] ++ [samlDecl] ++ [samlpDecl] : List NsDecl) := by decide
  have hself : Composed table _ _ _ _ := composed_withOptionalAttribute ((((composed_samlp hinnerSamlp
    (by decide : isNcName "Response" = true)).withAttribute
    (by decide : isFreshName [] "ID" = true) responseId).withAttribute
    (by decide : isFreshName _ "Version" = true) "2.0").withAttribute
    (by decide : isFreshName _ "IssueInstant" = true) issueInstant |>.withAttribute
    (by decide : isFreshName _ "Destination" = true) destination)
    (by decide : isFreshName _ "InResponseTo" = true) inResponseTo
  have hbelow : ∀ child ∈ [issuerElement idpEntityId, statusElement status] ++ wrapped.toList,
      Writable table ([] ++ [samlDecl] ++ [samlpDecl]) child := by
    intro child hchild
    rcases List.mem_append.mp hchild with hfixed | hwrap
    · rcases List.mem_cons.mp hfixed with rfl | hstatus
      · exact writable_issuerElement hinnerSaml idpEntityId
      · rw [List.mem_singleton.mp hstatus]
        exact writable_statusElement hinnerSamlp status
    · exact (hwrapped child (Option.mem_toList.mp hwrap)).mono (List.nil_subset _)
  have hall := composed_withElements hself hbelow
  have hdeclared := (hall.withNamespace hsamlp (by simp)).withNamespace hsaml (by decide)
  cases inResponseTo with
  | none => exact hdeclared.writable
  | some id => exact hdeclared.writable

/-! ## Encrypted assertions -/

theorem composed_xenc (hscope : xencDecl ∈ scope) (hloc : isNcName loc = true) :
    Composed table scope [] [] (ElementOf.build (xenc loc)) :=
  .build hscope hloc

theorem writable_xencWrapper (hscope : xencDecl ∈ scope) {child : Element}
    (hchild : Writable table scope child) (hloc : isNcName loc = true) :
    Writable table scope (xencWrapper loc child) :=
  ((composed_xenc hscope hloc).withChild hchild).writable

theorem writable_cipherData (hscope : xencDecl ∈ scope) (b64 : Str) :
    Writable table scope (cipherData b64) :=
  writable_xencWrapper hscope
    ((composed_xenc hscope (by decide : isNcName "CipherValue" = true)).withText b64).writable
    (by decide)

theorem composed_xencAlgorithm {d : NsDecl} (hscope : d ∈ scope) (hloc : isNcName loc = true)
    (uri : Str) :
    Composed table scope [] ["Algorithm"] (Xmlenc.algorithmElement ⟨some d.2, loc⟩ uri) :=
  (Composed.build hscope hloc).withAttribute (by decide) uri

theorem writable_keyTransportMethod (hxenc : xencDecl ∈ scope) (hds : dsDecl ∈ scope)
    {keyTransport : KeyTransportAlgorithm}
    (hxenc11 : keyTransport = .rsaOaep → xenc11Decl ∈ scope) :
    Writable table scope (buildKeyTransportEncryptionMethod keyTransport) := by
  have hmethod : Composed table scope [] ["Algorithm"] _ :=
    composed_xencAlgorithm hxenc (by decide : isNcName "EncryptionMethod" = true)
      keyTransport.uri
  have hdigest (uri : Str) : Composed table scope [] ["Algorithm"] _ :=
    composed_xencAlgorithm hds (by decide : isNcName "DigestMethod" = true) uri
  cases keyTransport with
  | rsaOaep =>
      have hmgf : Composed table scope [] ["Algorithm"] _ :=
        composed_xencAlgorithm (hxenc11 rfl) (by decide : isNcName "MGF" = true)
          OaepDigest.sha256.mgf1Uri
      exact ((hmethod.withChild (hdigest OaepDigest.sha256.uri).writable).withChild
        hmgf.writable).writable
  | rsaOaepMgf1Sha1 => exact (hmethod.withChild (hdigest OaepDigest.sha1.uri).writable).writable

theorem writable_encryptedKeyElement (hxenc : xencDecl ∈ scope) (hds : dsDecl ∈ scope)
    {keyTransport : KeyTransportAlgorithm}
    (hxenc11 : keyTransport = .rsaOaep → xenc11Decl ∈ scope) (wrappedKeyB64 : Str) :
    Writable table scope (encryptedKeyElement keyTransport wrappedKeyB64) :=
  (((composed_xenc hxenc (by decide : isNcName "EncryptedKey" = true)).withChild
    (writable_keyTransportMethod hxenc hds hxenc11)).withChild
    (writable_cipherData hxenc wrappedKeyB64)).writable

theorem writable_encryptedDataElement (hxenc : xencDecl ∈ scope) (hds : dsDecl ∈ scope)
    {keyTransport : KeyTransportAlgorithm}
    (hxenc11 : keyTransport = .rsaOaep → xenc11Decl ∈ scope)
    (dataAlgorithm : DataEncryptionAlgorithm) (wrappedKeyB64 dataCipherB64 : Str) :
    Writable table scope (encryptedDataElement dataAlgorithm keyTransport wrappedKeyB64
      dataCipherB64) := by
  have hmethod : Composed table scope [] ["Algorithm"] _ :=
    composed_xencAlgorithm hxenc (by decide : isNcName "EncryptionMethod" = true)
      dataAlgorithm.uri
  have hkeyInfo : Composed table scope [] [] _ :=
    (composed_ds hds (by decide : isNcName "KeyInfo" = true)).withChild
      (writable_encryptedKeyElement hxenc hds hxenc11 wrappedKeyB64)
  have hdata : Composed table scope [] ["Type"] _ :=
    (composed_xenc hxenc (by decide : isNcName "EncryptedData" = true)).withAttribute
      (by decide) ENCRYPTED_DATA_TYPE_ELEMENT
  exact (((hdata.withChild hmethod.writable).withChild hkeyInfo.writable).withChild
    (writable_cipherData hxenc dataCipherB64)).writable

/-- An encrypted assertion, with any algorithms and any values. -/
theorem writable_buildEncryptedAssertionElement (hprefixes : PREFIXES ⊆ table)
    (dataAlgorithm : DataEncryptionAlgorithm) (keyTransport : KeyTransportAlgorithm)
    (wrappedKeyB64 dataCipherB64 : Str) :
    Writable table [] (buildEncryptedAssertionElement dataAlgorithm keyTransport wrappedKeyB64
      dataCipherB64) := by
  have hwrapper {inner : List NsDecl} (hsaml : samlDecl ∈ inner) (hxenc : xencDecl ∈ inner)
      (hds : dsDecl ∈ inner) (hxenc11 : keyTransport = .rsaOaep → xenc11Decl ∈ inner) :
      Composed table inner [] [] _ :=
    (composed_saml hsaml (by decide : isNcName "EncryptedAssertion" = true)).withChild
      (writable_encryptedDataElement hxenc hds hxenc11 dataAlgorithm wrappedKeyB64 dataCipherB64)
  have hsamlTable : samlDecl ∈ table := hprefixes (by decide)
  have hxencTable : xencDecl ∈ table := hprefixes (by decide)
  have hdsTable : dsDecl ∈ table := hprefixes (by decide)
  have hxenc11Table : xenc11Decl ∈ table := hprefixes (by decide)
  cases keyTransport with
  | rsaOaep =>
      have hdeclared : ∀ d ∈ [samlDecl, xencDecl, dsDecl, xenc11Decl],
          d ∈ ([] ++ [xenc11Decl] ++ [dsDecl] ++ [xencDecl] ++ [samlDecl] : List NsDecl) := by
        decide
      have hinner := hwrapper (hdeclared _ (by decide)) (hdeclared _ (by decide))
        (hdeclared _ (by decide)) (fun _ => hdeclared _ (by decide))
      exact ((((hinner.withNamespace hsamlTable (by decide)).withNamespace hxencTable
        (by decide)).withNamespace hdsTable (by decide)).withNamespace hxenc11Table
        (by decide)).writable
  | rsaOaepMgf1Sha1 =>
      have hdeclared : ∀ d ∈ [samlDecl, xencDecl, dsDecl],
          d ∈ ([] ++ [dsDecl] ++ [xencDecl] ++ [samlDecl] : List NsDecl) := by
        decide
      have hinner := hwrapper (hdeclared _ (by decide)) (hdeclared _ (by decide))
        (hdeclared _ (by decide)) nofun
      exact (((hinner.withNamespace hsamlTable (by decide)).withNamespace hxencTable
        (by decide)).withNamespace hdsTable (by decide)).writable

theorem writable_maybeSign {crypto : Primitives} (hprefixes : PREFIXES ⊆ table) {signed : Element}
    {shouldSign : Bool} {opts : SignOptions} (he : Writable table scope e)
    (h : maybeSign crypto e shouldSign opts = .ok signed) : Writable table scope signed := by
  unfold maybeSign at h
  split at h
  · rw [← Except.ok.inj h]
    exact he
  · obtain ⟨stash, hstash, h⟩ := bind_eq_ok_iff.mp h
    exact writable_signElement (hprefixes (by decide)) (hprefixes (by decide)) (he.new hstash) h

end Builders

/-! ## What the recipient decrypts -/

/-- A text that was emitted of a response around an element, signed or not. -/
def EmittedAround (crypto : Primitives) (wrapped : Element) (text : Str) : Prop :=
  ∃ responseId idpEntityId destination inResponseTo issueInstant status shouldSign opts response
      doc,
    maybeSign crypto (buildResponse responseId idpEntityId destination inResponseTo issueInstant
      status (some wrapped)) shouldSign opts = .ok response ∧
    Document.new response = .ok doc ∧ emitDocument doc = .ok text

variable {crypto : Primitives} {qx : QuickXml}

theorem qname_buildEncryptedAssertionElement (dataAlgorithm : DataEncryptionAlgorithm)
    (keyTransport : KeyTransportAlgorithm) (wrappedKeyB64 dataCipherB64 : Str) :
    (buildEncryptedAssertionElement dataAlgorithm keyTransport wrappedKeyB64
      dataCipherB64).qname = Schema.saml "EncryptedAssertion" := by
  cases keyTransport with
  | rsaOaep => rfl
  | rsaOaepMgf1Sha1 => rfl

theorem encryptAssertion_built {assertion encrypted : Element} {recipient : X509Certificate}
    {dataAlgorithm : DataEncryptionAlgorithm} {keyTransport : KeyTransportAlgorithm}
    {draws : EncryptionDraws}
    (h : encryptAssertion crypto assertion recipient dataAlgorithm keyTransport draws =
      .ok encrypted) :
    ∃ wrappedKeyB64 dataCipherB64, encrypted =
      buildEncryptedAssertionElement dataAlgorithm keyTransport wrappedKeyB64 dataCipherB64 := by
  obtain ⟨-, h⟩ := ite_error_eq_ok_iff.mp h
  obtain ⟨_, -, h⟩ := bind_eq_ok_iff.mp h
  obtain ⟨_, -, h⟩ := bind_eq_ok_iff.mp h
  obtain ⟨⟨_, _⟩, -, h⟩ := bind_eq_ok_iff.mp h
  obtain ⟨_, -, h⟩ := bind_eq_ok_iff.mp h
  exact ⟨_, _, (Except.ok.inj h).symm⟩

/-- A response holds what it was built around and no other such element. -/
theorem allChildElements_buildResponse {wrapped : Element} {loc : Str}
    (hname : wrapped.qname = Schema.saml loc) (hissuer : ("Issuer" : Str) ≠ loc)
    (responseId idpEntityId destination : Str) (inResponseTo : Option Str) (issueInstant : Str)
    (status : Status) :
    (buildResponse responseId idpEntityId destination inResponseTo issueInstant status
      (some wrapped)).allChildElements (some SAML_NS) loc = [wrapped] := by
  have hstatus : (statusElement status).hasName (some SAML_NS) loc = false := by
    rw [← Bool.not_eq_true, ElementOf.hasName_iff]
    intro heq
    have hns : some SAMLP_NS = some SAML_NS := congrArg QName.namespaceUri heq
    exact absurd hns (by decide)
  have hown : ∀ e : Element, e.childElements = [] →
      e.allChildElements (some SAML_NS) loc = [] := by
    intro e he
    rw [ElementOf.allChildElements, he, List.filter_nil]
  rw [buildResponse, allChildElements_withElements, hown _ (by simp [samlp]), List.nil_append]
  have hothers : ([issuerElement idpEntityId, statusElement status] ++ (some wrapped).toList) =
      [issuerElement idpEntityId, statusElement status, wrapped] := rfl
  have hfirst : (issuerElement idpEntityId).qname = Schema.saml "Issuer" := rfl
  rw [hothers, filter_hasName_of_ne hfirst hissuer, List.filter_cons_of_neg (by simp [hstatus]),
    filter_hasName_of_eq hname, List.filter_nil]

theorem allChildElements_maybeSign {e signed : Element} {shouldSign : Bool} {opts : SignOptions}
    (h : maybeSign crypto e shouldSign opts = .ok signed) {ns : Option Str} {loc : Str}
    (hother : ns ≠ some DS_NS) :
    (signed.allChildElements ns loc).map unnumbered =
      (e.allChildElements ns loc).map unnumbered := by
  rcases maybeSign_cases h with rfl | ⟨stash, index, signature, hstash, hname, rfl⟩
  · rfl
  · have hsignature : signature.hasName ns loc = false := by
      rw [← Bool.not_eq_true, ElementOf.hasName_iff, hname]
      intro heq
      exact hother (congrArg QName.namespaceUri heq).symm
    rw [allChildElements_insertChild stash index hsignature, ← unnumbered_allChildElements, hstash,
      unnumbered_allChildElements]

/-- The recipient finds one encrypted assertion in the response and decrypts it
to what is parsed of the emitted assertion itself. -/
theorem decrypted_as_emitted (correct : EncryptsCorrectly crypto) (lawful : qx.Lawful)
    {assertion encrypted : Element} {recipient : X509Certificate}
    {dataAlgorithm : DataEncryptionAlgorithm} {keyTransport : KeyTransportAlgorithm}
    {draws : EncryptionDraws}
    (hencrypt : encryptAssertion crypto assertion recipient dataAlgorithm keyTransport draws =
      .ok encrypted)
    {policy : PeerCryptoPolicy} (hpolicy : Allows policy dataAlgorithm keyTransport)
    {keys : List KeyPair} (hkeys : ∃ key ∈ keys, key.publicKey crypto = recipient.publicKey)
    (hwrong : WrongKeysFail crypto recipient.publicKey keys) {text : Str}
    (hemitted : EmittedAround crypto encrypted text) {limits : XmlLimits} {parsed : Document}
    (hparsed : Document.parseWithLimits qx (Text.asBytes text) limits = .ok parsed) :
    ∃ plaintext wrapper, emitElement assertion = .ok plaintext ∧
      parsed.root.allChildElements (some SAML_NS) "EncryptedAssertion" = [wrapper] ∧
      decryptEncryptedAssertion crypto qx wrapper keys policy =
        (Document.parse qx (Text.asBytes plaintext)).map Document.root := by
  obtain ⟨plaintext, hplaintext, hpayload⟩ :=
    decryptPayload_encryptAssertion correct hencrypt hkeys hwrong hpolicy
  obtain ⟨wrappedKeyB64, dataCipherB64, rfl⟩ := encryptAssertion_built hencrypt
  obtain ⟨responseId, idpEntityId, destination, inResponseTo, issueInstant, status, shouldSign,
    opts, response, doc, hresponse, hdoc, hemit⟩ := hemitted
  have hwritable : Writable PREFIXES [] doc.root := by
    refine (writable_maybeSign (List.Subset.refl _) ?_ hresponse).new hdoc
    refine writable_buildResponse (by decide) (by decide) _ _ _ _ _ _ ?_
    intro child hchild
    rw [← Option.some.inj hchild]
    exact writable_buildEncryptedAssertionElement (List.Subset.refl _) _ _ _ _
  have hread : Xml.plain parsed.root = Xml.plain doc.root :=
    plain_of_unnumbered (unnumbered_of_parse_emitted lawful hemit
      (hwritable.writesBack plainPrefixes) hparsed)
  -- what is found in the emitted response is the payload that was built, up to handles
  have hfound : (doc.root.allChildElements (some SAML_NS) "EncryptedAssertion").map unnumbered =
      [unnumbered (buildEncryptedAssertionElement dataAlgorithm keyTransport wrappedKeyB64
        dataCipherB64)] := by
    rw [← unnumbered_allChildElements, Document.new_unnumbered hdoc, unnumbered_allChildElements,
      allChildElements_maybeSign hresponse (by decide),
      allChildElements_buildResponse (qname_buildEncryptedAssertionElement _ _ _ _) (by decide)]
    rfl
  obtain ⟨sent, hsent, halike⟩ := List.map_eq_singleton_iff.mp hfound
  have hreceived := congrArg
    (fun e => ElementOf.allChildElements e (some SAML_NS) "EncryptedAssertion") hread
  simp only [plain_allChildElements, hsent, List.map_singleton] at hreceived
  obtain ⟨wrapper, hwrapper, hplain⟩ := List.map_eq_singleton_iff.mp hreceived
  refine ⟨plaintext, wrapper, hplaintext, hwrapper, ?_⟩
  have hsame : decryptPayload crypto wrapper keys policy = .ok (Text.asBytes plaintext) := by
    rw [← decryptPayload_plain, hplain, ← plain_unnumbered.1, halike, plain_unnumbered.1,
      decryptPayload_plain, hpayload]
  rw [decryptEncryptedAssertion, hsame, ok_bind]
  cases Document.parse qx (Text.asBytes plaintext) with
  | ok original => rfl
  | error err => rfl

/-! ## A sample payload -/

namespace Sample

/-- The transparent primitives, with a wrapped key that only its own private
key unwraps. -/
def keyed : Primitives :=
  { Transparent.primitives with
    rsaOaepEncrypt := fun _ _ material _ message => some (material ++ message)
    rsaOaepDecrypt := fun _ _ secret wrapped =>
      if secret <+: wrapped then some (wrapped.drop secret.length) else none }

theorem encryptsCorrectly_keyed : EncryptsCorrectly keyed where
  oaep _ _ secret seed message wrapped h := by
    obtain rfl := Option.some.inj h
    simp [keyed, Transparent.primitives]
  cbc _ _ plaintext ciphertext h := h.symm
  gcm _ _ plaintext ciphertext h := by
    obtain rfl := Option.some.inj h
    simp [keyed, Transparent.primitives]

/-- A key of somebody else. -/
def otherKey : KeyPair := ⟨.rsa, [9], none⟩

theorem wrongKeysFail_keyed : WrongKeysFail keyed cert.publicKey [otherKey, key] := by
  intro other hother hne _ _ seed message wrapped hwrapped
  rcases List.mem_cons.mp hother with rfl | hkey
  · obtain rfl := Option.some.inj hwrapped
    simp [keyed, otherKey, cert]
  · obtain rfl := List.mem_singleton.mp hkey
    exact absurd rfl hne

/-- Encrypt, respond, emit and parse; the payload, the text and the document. -/
def sealed : Result (Element × Str × Document) := do
  let assertion := ((saml "Assertion").withNamespace (some "saml") SAML_NS).withAttribute
    (plain "ID") "assertion"
  let encrypted ← encryptAssertion keyed assertion cert .aes256Gcm .rsaOaep (draws 4).encryption
  let response ← maybeSign keyed (buildResponse "response" "idp" "acs" none "now" .success
    (some encrypted)) false issuance.signOptions
  let doc ← Document.new response
  let text ← emitDocument doc
  let parsed ← Scanning.parseText text
  if '\r' ∈ text then .error .inflate else .ok (encrypted, text, parsed)

set_option maxRecDepth 20000 in
theorem sealed_isOk : sealed.isOk = true := by decide +kernel

/-- The steps of a sealing that goes through. -/
theorem sealed_ok {encrypted : Element} {text : Str} {parsed : Document}
    (h : sealed = .ok (encrypted, text, parsed)) :
    (∃ assertion, encryptAssertion keyed assertion cert .aes256Gcm .rsaOaep
      (draws 4).encryption = .ok encrypted) ∧ EmittedAround keyed encrypted text ∧
      Document.parseWithLimits Scanning.reader (Text.asBytes text) .default = .ok parsed := by
  obtain ⟨payload, hpayload, h⟩ := bind_eq_ok_iff.mp h
  obtain ⟨response, hresponse, h⟩ := bind_eq_ok_iff.mp h
  obtain ⟨doc, hdoc, h⟩ := bind_eq_ok_iff.mp h
  obtain ⟨emitted, hemit, h⟩ := bind_eq_ok_iff.mp h
  obtain ⟨document, hdocument, h⟩ := bind_eq_ok_iff.mp h
  obtain ⟨hreturn, h⟩ := ite_error_eq_ok_iff.mp h
  obtain ⟨rfl, hrest⟩ := Prod.mk.inj (Except.ok.inj h)
  obtain ⟨rfl, rfl⟩ := Prod.mk.inj hrest
  refine ⟨⟨_, hpayload⟩, ⟨_, _, _, _, _, _, _, _, _, _, hresponse, hdoc, hemit⟩, ?_⟩
  rw [← Scanning.parse_asBytes hreturn] at hdocument
  exact hdocument

end Sample

/-- A payload in a response that was emitted and parsed again is decrypted, with
another key tried first, to what was encrypted. -/
theorem decrypted_as_emitted_sample : ∃ assertion encrypted text parsed plaintext wrapper,
    encryptAssertion Sample.keyed assertion Sample.cert .aes256Gcm .rsaOaep
      (Sample.draws 4).encryption = .ok encrypted ∧
    EmittedAround Sample.keyed encrypted text ∧
    Document.parseWithLimits Scanning.reader (Text.asBytes text) .default = .ok parsed ∧
    emitElement assertion = .ok plaintext ∧
    parsed.root.allChildElements (some SAML_NS) "EncryptedAssertion" = [wrapper] ∧
    decryptEncryptedAssertion Sample.keyed Scanning.reader wrapper
      [Sample.otherKey, Sample.key] .strongDefaults =
        (Document.parse Scanning.reader (Text.asBytes plaintext)).map Document.root := by
  obtain ⟨⟨encrypted, text, parsed⟩, hsealed⟩ := exists_of_isOk Sample.sealed_isOk
  obtain ⟨⟨assertion, hencrypt⟩, hemitted, hparsed⟩ := Sample.sealed_ok hsealed
  have hpolicy : Allows .strongDefaults .aes256Gcm .rsaOaep :=
    ⟨by decide, by decide, by decide, by decide⟩
  obtain ⟨plaintext, wrapper, hplaintext, hwrapper, hdecrypted⟩ :=
    decrypted_as_emitted Sample.encryptsCorrectly_keyed Scanning.lawful hencrypt hpolicy
      ⟨Sample.key, by simp, rfl⟩ Sample.wrongKeysFail_keyed hemitted hparsed
  exact ⟨assertion, encrypted, text, parsed, plaintext, wrapper, hencrypt, hemitted, hparsed,
    hplaintext, hwrapper, hdecrypted⟩

end Saml.Response
