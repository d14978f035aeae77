import Saml.Xml.Plain
import Saml.Xmlenc.Encrypt

/-!
# Decrypting what was encrypted

What `decrypt_encrypted_assertion` reads of a payload is what can be read of
any tree: names, attribute values and texts. The payload that
`encrypt_assertion` builds declares what it did, so that a recipient undoes it.
-/

namespace Saml.Xmlenc

open Xml Crypto

/-! ## What is read of a payload -/

theorem oaepDigestFromMethod_plain (e : Element) :
    oaepDigestFromMethod (plain e) = oaepDigestFromMethod e := by
  rw [oaepDigestFromMethod, oaepDigestFromMethod, plain_childElement]
  cases e.childElement (some DS_NS) "DigestMethod" with
  | none => rfl
  | some digestMethod => simp only [Option.map_some, plain_attr]

theorem mgf1DigestFromMethod_plain (e : Element) :
    mgf1DigestFromMethod (plain e) = mgf1DigestFromMethod e := by
  rw [mgf1DigestFromMethod, mgf1DigestFromMethod, plain_childElement]
  cases e.childElement (some XENC11_NS) "MGF" with
  | none => rfl
  | some mgf => simp only [Option.map_some, plain_attr]

theorem resolveMgf1Digest_plain (keyTransport : KeyTransportAlgorithm) (e : Element) :
    resolveMgf1Digest keyTransport (plain e) = resolveMgf1Digest keyTransport e := by
  simp only [resolveMgf1Digest, mgf1DigestFromMethod_plain, plain_childElement,
    Option.isSome_map]

theorem extractCipherValue_plain (e : Element) :
    extractCipherValue (plain e) = extractCipherValue e := by
  simp only [extractCipherValue, plain_childElement, okOr_map, bind_of_map, plain_textContent]

/-- What is decrypted depends on what is read of the payload. -/
theorem decryptPayload_plain (crypto : Primitives) (e : Element) (keys : List KeyPair)
    (policy : PeerCryptoPolicy) :
    decryptPayload crypto (plain e) keys policy = decryptPayload crypto e keys policy := by
  simp only [decryptPayload, plain_childElement, okOr_map, bind_of_map, plain_attr,
    oaepDigestFromMethod_plain, resolveMgf1Digest_plain, extractCipherValue_plain]

/-! ## Keys and ciphers -/

/-- What the callers rely on from the encryption packages: a private key undoes
its public key, a cipher undoes itself, and a GCM ciphertext ends in its tag. -/
structure EncryptsCorrectly (crypto : Primitives) : Prop where
  oaep : ∀ oaepDigest mgf1Digest secret seed message wrapped,
    crypto.rsaOaepEncrypt oaepDigest mgf1Digest (crypto.publicMaterial .rsa secret) seed message =
      some wrapped →
    crypto.rsaOaepDecrypt oaepDigest mgf1Digest secret wrapped = some message
  cbc : ∀ key iv plaintext ciphertext, crypto.aesCbcEncrypt key iv plaintext = some ciphertext →
    crypto.aesCbcDecrypt key iv ciphertext = some plaintext
  gcm : ∀ key nonce plaintext ciphertext,
    crypto.aesGcmEncrypt key nonce plaintext = some ciphertext →
    crypto.aesGcmDecrypt key nonce ciphertext = some plaintext ∧ 16 ≤ ciphertext.length

/-- A key that is not the recipient's does not unwrap what was wrapped for it. -/
def WrongKeysFail (crypto : Primitives) (recipient : PublicKey) (keys : List KeyPair) : Prop :=
  ∀ other ∈ keys, other.publicKey crypto ≠ recipient →
    ∀ oaepDigest mgf1Digest seed message wrapped,
      crypto.rsaOaepEncrypt oaepDigest mgf1Digest recipient.material seed message = some wrapped →
      crypto.rsaOaepDecrypt oaepDigest mgf1Digest other.secret wrapped = none

/-- The policy allows the algorithms and the hashes that the key transport is
used with. -/
structure Allows (policy : PeerCryptoPolicy) (dataAlgorithm : DataEncryptionAlgorithm)
    (keyTransport : KeyTransportAlgorithm) : Prop where
  data : dataAlgorithm ∈ policy.allowedDataEncryptionAlgorithms
  transport : keyTransport ∈ policy.allowedKeyTransportAlgorithms
  digest : .sha256 ∈ policy.allowedOaepDigestAlgorithms
  mgf1 : .sha256 ∈ policy.allowedOaepMgf1DigestAlgorithms

variable {crypto : Primitives}

theorem decryptRsaOaep_sha256 (key : KeyPair) (wrapped : Octets) :
    key.decryptRsaOaep crypto wrapped .sha256 .sha256 =
      if key.algorithmFamily ≠ .rsa then .error (.decryptFailed "key transport")
      else okOr (crypto.rsaOaepDecrypt .sha256 .sha256 key.secret wrapped)
        (.decryptFailed "key transport") := rfl

/-- The recipient's key unwraps, wherever it stands among the keys. -/
theorem unwrapSessionKey_wrapped (correct : EncryptsCorrectly crypto) {recipient : PublicKey}
    (hrsa : recipient.algorithmFamily = .rsa) {keys : List KeyPair}
    (hkeys : ∃ key ∈ keys, key.publicKey crypto = recipient)
    (hwrong : WrongKeysFail crypto recipient keys) {seed sessionKey wrapped : Octets}
    (hwrap : crypto.rsaOaepEncrypt .sha256 .sha256 recipient.material seed sessionKey =
      some wrapped) :
    unwrapSessionKey crypto wrapped keys .sha256 .sha256 = .ok sessionKey := by
  rw [unwrapSessionKey, okOr_eq_ok_iff]
  induction keys with
  | nil =>
      obtain ⟨key, hkey, -⟩ := hkeys
      cases hkey
  | cons first rest ih =>
      rw [List.findSome?_cons]
      by_cases hfirst : first.publicKey crypto = recipient
      · have hfamily : first.algorithmFamily = .rsa := by
          rw [← hrsa, ← hfirst]
          rfl
        have hmaterial : recipient.material = crypto.publicMaterial .rsa first.secret := by
          rw [← hfirst, KeyPair.publicKey, hfamily]
        rw [hmaterial] at hwrap
        have hunwrap : first.decryptRsaOaep crypto wrapped .sha256 .sha256 = .ok sessionKey := by
          rw [decryptRsaOaep_sha256, if_neg (not_not_intro hfamily), okOr_eq_ok_iff]
          exact correct.oaep _ _ _ _ _ _ hwrap
        rw [hunwrap]
        rfl
      · have hfails : (first.decryptRsaOaep crypto wrapped .sha256 .sha256).toOption = none := by
          have hnone := hwrong first List.mem_cons_self hfirst _ _ _ _ _ hwrap
          rw [decryptRsaOaep_sha256, hnone]
          split
          · rfl
          · rfl
        rw [hfails]
        apply ih
        · obtain ⟨key, hkey, heq⟩ := hkeys
          rcases List.mem_cons.mp hkey with rfl | hrest
          · exact absurd heq hfirst
          · exact ⟨key, hrest, heq⟩
        · exact fun other hother => hwrong other (List.mem_cons_of_mem _ hother)

theorem length_fillRandom {n : Nat} {draw : Draw n} {octets : Octets}
    (h : fillRandom draw = .ok octets) : octets.length = n := by
  cases draw with
  | none => cases h
  | some drawn =>
      rw [← Except.ok.inj h]
      exact drawn.property

theorem decryptCbc_joined (correct : EncryptsCorrectly crypto)
    {sessionKey iv plaintext ciphertext : Octets} (hiv : iv.length = 16)
    (h : crypto.aesCbcEncrypt sessionKey iv plaintext = some ciphertext) :
    decryptCbc crypto sessionKey (iv ++ ciphertext) = .ok plaintext := by
  have hlong : ¬ (iv ++ ciphertext).length < 16 := by
    rw [List.length_append]
    omega
  rw [decryptCbc, if_neg hlong, List.take_left' hiv, List.drop_left' hiv, okOr_eq_ok_iff]
  exact correct.cbc _ _ _ _ h

theorem decryptGcm_joined (correct : EncryptsCorrectly crypto)
    {sessionKey nonce plaintext ciphertext : Octets} (hnonce : nonce.length = 12)
    (h : crypto.aesGcmEncrypt sessionKey nonce plaintext = some ciphertext) :
    decryptGcm crypto sessionKey (nonce ++ ciphertext) = .ok plaintext := by
  obtain ⟨hdecrypts, htag⟩ := correct.gcm _ _ _ _ h
  have hlong : ¬ (nonce ++ ciphertext).length < 12 + 16 := by
    rw [List.length_append]
    omega
  rw [decryptGcm, if_neg hlong, List.take_left' hnonce, List.drop_left' hnonce, okOr_eq_ok_iff]
  exact hdecrypts

/-- The vector and the ciphertext are taken apart where they were joined. -/
theorem decryptData_encryptData (correct : EncryptsCorrectly crypto)
    {algorithm : DataEncryptionAlgorithm} {draws : EncryptionDraws}
    {sessionKey plaintext iv ciphertext : Octets}
    (h : encryptData crypto algorithm draws sessionKey plaintext = .ok (iv, ciphertext)) :
    decryptData crypto algorithm sessionKey (iv ++ ciphertext) = .ok plaintext := by
  obtain ⟨drawn, hdrawn, h⟩ := bind_eq_ok_iff.mp h
  obtain ⟨encrypted, hencrypted, h⟩ := bind_eq_ok_iff.mp h
  obtain ⟨rfl, rfl⟩ := Prod.mk.inj (Except.ok.inj h)
  have hlength := length_fillRandom hdrawn
  rw [okOr_eq_ok_iff] at hencrypted
  cases algorithm with
  | aes128Cbc | aes256Cbc => exact decryptCbc_joined correct hlength hencrypted
  | aes128Gcm | aes256Gcm => exact decryptGcm_joined correct hlength hencrypted

/-! ## The payload -/

theorem not_isWhitespace_of_isSymbol {c : Char} (h : Library.Base64.IsSymbol c) :
    Text.isWhitespace c = false := by
  rcases h with rfl | h
  · decide
  · unfold Library.Base64.value at h
    dsimp only at h
    split_ifs at h with hupper hlower hdigit hplus hslash
    · simp [Text.isWhitespace]
      omega
    · simp [Text.isWhitespace]
      omega
    · simp [Text.isWhitespace]
      omega
    · subst hplus
      decide
    · subst hslash
      decide
    · cases h

/-- The blanks that are tolerated do not occur in what was encoded. -/
theorem decodeBase64WsTolerant_encode (octets : Octets) :
    decodeBase64WsTolerant (base64Encode octets) = .ok octets := by
  have hkept : (base64Encode octets).filter (fun c => !Text.isWhitespace c) =
      base64Encode octets := by
    apply List.filter_eq_self.mpr
    intro c hc
    rw [not_isWhitespace_of_isSymbol (Library.Base64.isSymbol_encode octets c hc)]
    rfl
  rw [decodeBase64WsTolerant, hkept, base64Decode, base64Encode, Library.Base64.decode_encode]
  rfl

/-- The `xenc:EncryptedKey` of a payload. -/
def encryptedKeyElement (keyTransport : KeyTransportAlgorithm) (wrappedKeyB64 : Str) : Element :=
  ((ElementOf.build (xenc "EncryptedKey")).withChild
    (.element (buildKeyTransportEncryptionMethod keyTransport))).withChild
    (.element (cipherData wrappedKeyB64))

/-- The `xenc:EncryptedData` of a payload. -/
def encryptedDataElement (dataAlgorithm : DataEncryptionAlgorithm)
    (keyTransport : KeyTransportAlgorithm) (wrappedKeyB64 dataCipherB64 : Str) : Element :=
  ((((ElementOf.build (xenc "EncryptedData")).withAttribute ⟨none, "Type"⟩
    ENCRYPTED_DATA_TYPE_ELEMENT).withChild
      (.element (algorithmElement (xenc "EncryptionMethod") dataAlgorithm.uri))).withChild
      (.element ((ElementOf.build ⟨some DS_NS, "KeyInfo"⟩).withChild
        (.element (encryptedKeyElement keyTransport wrappedKeyB64))))).withChild
      (.element (cipherData dataCipherB64))

theorem childElement_encryptedData (dataAlgorithm : DataEncryptionAlgorithm)
    (keyTransport : KeyTransportAlgorithm) (wrappedKeyB64 dataCipherB64 : Str) :
    (buildEncryptedAssertionElement dataAlgorithm keyTransport wrappedKeyB64
      dataCipherB64).childElement (some XENC_NS) "EncryptedData" =
      some (encryptedDataElement dataAlgorithm keyTransport wrappedKeyB64 dataCipherB64) := by
  cases keyTransport with
  | rsaOaep => rfl
  | rsaOaepMgf1Sha1 => rfl

section

variable (dataAlgorithm : DataEncryptionAlgorithm) (keyTransport : KeyTransportAlgorithm)
  (wrappedKeyB64 dataCipherB64 : Str)

theorem childElement_encryptionMethod :
    (encryptedDataElement dataAlgorithm keyTransport wrappedKeyB64 dataCipherB64).childElement
      (some XENC_NS) "EncryptionMethod" =
      some (algorithmElement (xenc "EncryptionMethod") dataAlgorithm.uri) := rfl

theorem childElement_keyInfo :
    (encryptedDataElement dataAlgorithm keyTransport wrappedKeyB64 dataCipherB64).childElement
      (some DS_NS) "KeyInfo" = some ((ElementOf.build ⟨some DS_NS, "KeyInfo"⟩).withChild
        (.element (encryptedKeyElement keyTransport wrappedKeyB64))) := rfl

theorem childElement_encryptedKey :
    ((ElementOf.build ⟨some DS_NS, "KeyInfo"⟩).withChild
      (.element (encryptedKeyElement keyTransport wrappedKeyB64))).childElement (some XENC_NS)
      "EncryptedKey" = some (encryptedKeyElement keyTransport wrappedKeyB64) := rfl

theorem childElement_keyEncryptionMethod :
    (encryptedKeyElement keyTransport wrappedKeyB64).childElement (some XENC_NS)
      "EncryptionMethod" = some (buildKeyTransportEncryptionMethod keyTransport) := by
  cases keyTransport with
  | rsaOaep => rfl
  | rsaOaepMgf1Sha1 => rfl

theorem attr_keyEncryptionMethod :
    (buildKeyTransportEncryptionMethod keyTransport).attr none "Algorithm" =
      some keyTransport.uri := by
  cases keyTransport with
  | rsaOaep => rfl
  | rsaOaepMgf1Sha1 => rfl

theorem extractCipherValue_cipherData {e : Element} {b64 : Str}
    (h : e.childElement (some XENC_NS) "CipherData" = some (cipherData b64)) :
    extractCipherValue e = decodeBase64WsTolerant b64 := by
  have hvalue : (cipherData b64).childElement (some XENC_NS) "CipherValue" =
      some ((ElementOf.build (xenc "CipherValue")).withText b64) := rfl
  have htext : ((ElementOf.build (xenc "CipherValue")).withText b64).textContent = b64 :=
    List.append_nil _
  rw [extractCipherValue, h, okOr_some, ok_bind, hvalue, okOr_some, ok_bind, htext]

theorem extractCipherValue_encryptedKey :
    extractCipherValue (encryptedKeyElement keyTransport wrappedKeyB64) =
      decodeBase64WsTolerant wrappedKeyB64 := by
  apply extractCipherValue_cipherData
  cases keyTransport with
  | rsaOaep => rfl
  | rsaOaepMgf1Sha1 => rfl

theorem extractCipherValue_encryptedData :
    extractCipherValue (encryptedDataElement dataAlgorithm keyTransport wrappedKeyB64
      dataCipherB64) = decodeBase64WsTolerant dataCipherB64 :=
  extractCipherValue_cipherData rfl

end

/-- The hash that the key transport was used with is declared. -/
theorem oaepDigestFromMethod_rsaOaep :
    oaepDigestFromMethod (buildKeyTransportEncryptionMethod .rsaOaep) = .ok .sha256 :=
  OaepDigest.fromUri_uri .sha256

/-- So is the hash of the mask. -/
theorem resolveMgf1Digest_rsaOaep :
    resolveMgf1Digest .rsaOaep (buildKeyTransportEncryptionMethod .rsaOaep) = .ok .sha256 := by
  have hdeclared : mgf1DigestFromMethod (buildKeyTransportEncryptionMethod .rsaOaep) =
      (OaepDigest.fromMgf1Uri OaepDigest.sha256.mgf1Uri).map some := rfl
  rw [resolveMgf1Digest, hdeclared, OaepDigest.fromMgf1Uri_mgf1Uri]
  rfl

/-- Whatever was encrypted for a recipient is decrypted with its key. -/
theorem decryptPayload_encryptAssertion (correct : EncryptsCorrectly crypto)
    {assertion encrypted : Element} {recipient : X509Certificate}
    {dataAlgorithm : DataEncryptionAlgorithm} {keyTransport : KeyTransportAlgorithm}
    {draws : EncryptionDraws}
    (h : encryptAssertion crypto assertion recipient dataAlgorithm keyTransport draws =
      .ok encrypted)
    {keys : List KeyPair} (hkeys : ∃ key ∈ keys, key.publicKey crypto = recipient.publicKey)
    (hwrong : WrongKeysFail crypto recipient.publicKey keys) {policy : PeerCryptoPolicy}
    (hpolicy : Allows policy dataAlgorithm keyTransport) :
    ∃ plaintext, emitElement assertion = .ok plaintext ∧
      decryptPayload crypto encrypted keys policy = .ok (Text.asBytes plaintext) := by
  obtain ⟨hrsa, h⟩ := ite_error_eq_ok_iff.mp h
  obtain ⟨plaintext, hplaintext, h⟩ := bind_eq_ok_iff.mp h
  obtain ⟨sessionKey, hsessionKey, h⟩ := bind_eq_ok_iff.mp h
  obtain ⟨⟨iv, ciphertext⟩, hdata, h⟩ := bind_eq_ok_iff.mp h
  obtain ⟨wrapped, hwrapped, h⟩ := bind_eq_ok_iff.mp h
  obtain rfl := Except.ok.inj h
  refine ⟨plaintext, hplaintext, ?_⟩
  cases keyTransport with
  | rsaOaepMgf1Sha1 => cases hwrapped
  | rsaOaep =>
      have hunwrapped := unwrapSessionKey_wrapped correct (not_not.mp hrsa) hkeys hwrong
        (okOr_eq_ok_iff.mp hwrapped)
      have hmethod : (algorithmElement (xenc "EncryptionMethod") dataAlgorithm.uri).attr none
          "Algorithm" = some dataAlgorithm.uri := rfl
      rw [decryptPayload]
      -- the cipher that is declared is the one that was used
      rw [childElement_encryptedData, okOr_some, ok_bind, childElement_encryptionMethod, okOr_some,
        ok_bind, hmethod, okOr_some, ok_bind, DataEncryptionAlgorithm.fromUri_uri, ok_bind,
        if_neg (not_not_intro hpolicy.data)]
      -- and so are the key transport and its two hashes
      rw [childElement_keyInfo, okOr_some, ok_bind, childElement_encryptedKey, okOr_some, ok_bind,
        childElement_keyEncryptionMethod, okOr_some, ok_bind, attr_keyEncryptionMethod, okOr_some,
        ok_bind, KeyTransportAlgorithm.fromUri_uri, ok_bind,
        if_neg (not_not_intro hpolicy.transport)]
      rw [oaepDigestFromMethod_rsaOaep, ok_bind, resolveMgf1Digest_rsaOaep, ok_bind,
        if_neg (not_not_intro hpolicy.digest), if_neg (not_not_intro hpolicy.mgf1)]
      -- the session key has the length that the cipher takes
      rw [extractCipherValue_encryptedKey, decodeBase64WsTolerant_encode, ok_bind, hunwrapped,
        ok_bind, if_neg (not_not_intro (length_fillRandom hsessionKey))]
      rw [extractCipherValue_encryptedData, decodeBase64WsTolerant_encode, ok_bind]
      exact decryptData_encryptData correct hdata

end Saml.Xmlenc
