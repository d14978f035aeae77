import Saml.Xml.WellIndexed
import Saml.Xml.Accepted
import Saml.Dsig.AncestorChain
import Saml.Dsig.Coverage
import Saml.Dsig.Pruned

/-!
# What a verified signature proves

Everything that a successful verification has read: the single reference, the
element its URI names, the transforms, the algorithms with the policy they are
in, the octets that were digested and those that were signed.
-/

namespace Saml.Dsig

open Xml Crypto

/-! ## References -/

/-- An attribute of an element registers it under an `ID` value. -/
def Declares (d : Element) (id : Str) : Prop :=
  ∃ a ∈ d.attributes, isIdAttr a = true ∧ a.value = id

/-- A reference URI names an element: by an `ID` that no other element declares,
or as the root without one. -/
inductive Names (document : Document) (path : ElementPath) (target : Element) :
    Option Str → Prop
  | absent (root : path = []) : Names document path target none
  | empty (root : path = []) : Names document path target (some [])
  | fragment (id : Str) (declares : Declares target id)
      (unique : ∀ other d, document.root.walk other = some d → Declares d id → other = path) :
      Names document path target (some ('#' :: id))

theorem names_of_resolveUri {document : Document} (indexed : document.WellIndexed)
    {uri : Option Str} {id : ElementId} (h : resolveUri document (uri.getD []) = .ok id) :
    ∃ path target, document.root.walk path = some target ∧ target.id = id ∧
      Names document path target uri := by
  rw [resolveUri.eq_def] at h
  split at h
  next hempty =>
    refine ⟨[], document.root, rfl, Except.ok.inj h, ?_⟩
    cases uri with
    | none => exact .absent rfl
    | some text =>
      obtain rfl : text = [] := hempty
      exact .empty rfl
  next fragment hfragment =>
    obtain ⟨-, h⟩ := ite_error_eq_ok_iff.mp h
    obtain ⟨path, d, hwalk, hid, hdeclares⟩ :=
      indexed.elementByIdAttr_iff.mp (okOr_eq_ok_iff.mp h)
    refine ⟨path, d, hwalk, hid, ?_⟩
    cases uri with
    | none => cases hfragment
    | some text =>
      obtain rfl : text = '#' :: fragment := hfragment
      refine .fragment fragment hdeclares ?_
      intro other e he hother
      have hindex := indexed.elementByIdAttr_iff.mpr ⟨other, e, he, rfl, hother⟩
      apply indexed.path_unique he hwalk
      rw [hid]
      exact Option.some.inj (hindex.symm.trans (okOr_eq_ok_iff.mp h))
  next => cases h

/-! ## Transforms -/

/-- The `ds:Transform` elements of a reference. -/
def transformElements (reference : Element) : List Element :=
  match reference.childElement (some DS_NS) "Transforms" with
  | some transforms => transforms.allChildElements (some DS_NS) "Transform"
  | none => []

/-- The URIs that a reference declares its transforms with. -/
def transformUris (reference : Element) : List (Option Str) :=
  (transformElements reference).map (·.attr none "Algorithm")

/-- Enveloped-signature transforms, then at most one canonicalization. -/
def Chained (transforms : List AllowedTransform) (declared : Option C14nAlgorithm) : Prop :=
  ∃ n, transforms = List.replicate n .envelopedSignature ++
    (declared.map AllowedTransform.c14n).toList

theorem replicate_of_no_c14n {transforms : List AllowedTransform}
    (h : ∀ t ∈ transforms, t.asC14nAlgorithm = none) :
    transforms = List.replicate transforms.length .envelopedSignature := by
  rw [List.eq_replicate_iff]
  refine ⟨rfl, ?_⟩
  intro t ht
  cases t with
  | envelopedSignature => rfl
  | c14n algorithm => cases h _ ht

theorem chained_of_checkTransforms {transforms : List AllowedTransform}
    (h : checkTransforms transforms = .ok ()) :
    Chained transforms (transforms.findSome? AllowedTransform.asC14nAlgorithm) := by
  obtain ⟨hone, h⟩ := ite_error_eq_ok_iff.mp h
  obtain ⟨hlast, -⟩ := ite_error_eq_ok_iff.mp h
  have plain (hnone : ∀ t ∈ transforms, t.asC14nAlgorithm = none) :
      Chained transforms (transforms.findSome? AllowedTransform.asC14nAlgorithm) := by
    refine ⟨transforms.length, ?_⟩
    rw [List.findSome?_eq_none_iff.mpr hnone]
    simpa using replicate_of_no_c14n hnone
  cases transforms using List.reverseRecOn with
  | nil => exact plain (by simp)
  | append_singleton front last _ =>
    cases last with
    | envelopedSignature =>
      apply plain
      intro t ht
      by_contra hsome
      apply hlast
      refine ⟨?_, by simp [AllowedTransform.asC14nAlgorithm]⟩
      rw [List.any_eq_true]
      exact ⟨t, ht, Option.isSome_iff_ne_none.mpr hsome⟩
    | c14n algorithm =>
      have hfront : ∀ t ∈ front, t.asC14nAlgorithm = none := by
        rw [List.filterMap_append, List.length_append] at hone
        have hempty : front.filterMap AllowedTransform.asC14nAlgorithm = [] := by
          rw [← List.length_eq_zero_iff]
          have hlength : ([.c14n algorithm] : List AllowedTransform).filterMap
              AllowedTransform.asC14nAlgorithm = [algorithm] := rfl
          rw [hlength, List.length_singleton] at hone
          omega
        intro t ht
        exact List.filterMap_eq_nil_iff.mp hempty t ht
      refine ⟨front.length, ?_⟩
      rw [List.findSome?_append, List.findSome?_eq_none_iff.mpr hfront]
      conv_lhs => rw [replicate_of_no_c14n hfront]
      rfl

/-- A declared transform: its URI and its kind. -/
def DeclaresTransform (uri : Option Str) (transform : AllowedTransform) : Prop :=
  ∃ text, uri = some text ∧ AllowedTransform.fromUri text = .ok transform

theorem mapM_of_parseTransforms {reference : Element}
    {parsed : List (AllowedTransform × List Str)} (h : parseTransforms reference = .ok parsed) :
    (transformElements reference).mapM parseTransform = .ok parsed := by
  unfold parseTransforms at h
  unfold transformElements
  cases htransforms : reference.childElement (some DS_NS) "Transforms" with
  | some transforms => rwa [htransforms] at h
  | none => rwa [htransforms] at h

theorem parseTransforms_ok {reference : Element} {parsed : List (AllowedTransform × List Str)}
    (h : parseTransforms reference = .ok parsed) :
    List.Forall₂ DeclaresTransform (transformUris reference) (parsed.map Prod.fst) := by
  have hmap := mapM_of_parseTransforms h
  rw [transformUris, List.forall₂_map_left_iff, List.forall₂_map_right_iff]
  refine (mapM_eq_ok_iff.mp hmap).imp ?_
  intro transform entry hentry
  obtain ⟨text, htext, hentry⟩ := bind_eq_ok_iff.mp hentry
  obtain ⟨kind, hkind, hentry⟩ := bind_eq_ok_iff.mp hentry
  obtain rfl := Except.ok.inj hentry
  exact ⟨text, okOr_eq_ok_iff.mp htext, hkind⟩

/-- The tokens of the prefix lists that the transforms of a reference carry. -/
def prefixTokens (reference : Element) : List Str :=
  (transformElements reference).flatMap fun transform =>
    Text.splitWhitespace (((transform.childElement (some EC_NS) "InclusiveNamespaces").bind
      (·.attr none "PrefixList")).getD [])

theorem parseTransforms_prefixes {reference : Element}
    {parsed : List (AllowedTransform × List Str)} (h : parseTransforms reference = .ok parsed) :
    (parsed.map Prod.snd).flatten = prefixTokens reference := by
  have htokens : List.Forall₂ Eq (parsed.map Prod.snd)
      ((transformElements reference).map fun transform =>
        Text.splitWhitespace (((transform.childElement (some EC_NS) "InclusiveNamespaces").bind
          (·.attr none "PrefixList")).getD [])) := by
    rw [List.forall₂_map_left_iff, List.forall₂_map_right_iff]
    refine (mapM_eq_ok_iff.mp (mapM_of_parseTransforms h)).flip.imp ?_
    intro entry transform hentry
    obtain ⟨text, htext, hentry⟩ := bind_eq_ok_iff.mp hentry
    obtain ⟨kind, hkind, hentry⟩ := bind_eq_ok_iff.mp hentry
    obtain rfl := Except.ok.inj hentry
    rfl
  rw [List.forall₂_eq_eq_eq] at htokens
  rw [htokens, prefixTokens, List.flatMap_def]

/-! ## Algorithms -/

/-- An algorithm read from the method element of a parent, inside a policy. -/
def MethodAllowed {α : Type} (parent : Element) (method : Str) (fromUri : Str → Result α)
    (allowed : List α) (algorithm : α) : Prop :=
  algorithm ∈ allowed ∧ ∃ elem text, parent.childElement (some DS_NS) method = some elem ∧
    elem.attr none "Algorithm" = some text ∧ fromUri text = .ok algorithm

/-- The octets of a base64 child. -/
def ChildOctets (parent : Element) (name : Str) (octets : Octets) : Prop :=
  ∃ elem, parent.childElement (some DS_NS) name = some elem ∧
    decodeBase64Lenient elem.textContent = .ok octets

theorem methodAllowed_of_ok {α : Type} [DecidableEq α] {parent : Element} {method : Str}
    {fromUri : Str → Result α} {allowed : List α} {algorithm : α} {missing unnamed : Error}
    (h : (do
      let elem ← okOr (parent.childElement (some DS_NS) method) missing
      let uri ← okOr (elem.attr none "Algorithm") unnamed
      let algorithm ← fromUri uri
      if algorithm ∉ allowed then .error (.disallowedAlgorithm uri) else .ok algorithm) =
        Except.ok algorithm) : MethodAllowed parent method fromUri allowed algorithm := by
  obtain ⟨elem, helem, h⟩ := bind_eq_ok_iff.mp h
  obtain ⟨uri, huri, h⟩ := bind_eq_ok_iff.mp h
  obtain ⟨read, hread, h⟩ := bind_eq_ok_iff.mp h
  obtain ⟨hallowed, h⟩ := ite_error_eq_ok_iff.mp h
  obtain rfl := Except.ok.inj h
  exact ⟨not_not.mp hallowed, elem, uri, okOr_eq_ok_iff.mp helem, okOr_eq_ok_iff.mp huri, hread⟩

/-- What a parsed reference was read from. -/
structure ReferenceRead (document : Document) (reference : Element) (policy : PeerCryptoPolicy)
    (parsed : ParsedReference) : Prop where
  target : resolveUri document ((reference.attr none "URI").getD []) = .ok parsed.target
  declares : List.Forall₂ DeclaresTransform (transformUris reference) parsed.transforms
  chained : Chained parsed.transforms
    (parsed.transforms.findSome? AllowedTransform.asC14nAlgorithm)
  c14n : parsed.c14nAlgorithm ∈ policy.allowedC14nAlgorithms
  digestAlgorithm : MethodAllowed reference "DigestMethod" DigestAlgorithm.fromUri
    policy.allowedDigestAlgorithms parsed.digestAlgorithm
  digestValue : ChildOctets reference "DigestValue" parsed.digestValue
  prefixes : parsed.inclusiveNamespacePrefixes = prefixTokens reference

theorem parseReference_ok {document : Document} {reference : Element} {policy : PeerCryptoPolicy}
    {parsed : ParsedReference} (h : parseReference document reference
      policy.allowedDigestAlgorithms policy.allowedC14nAlgorithms = .ok parsed) :
    ReferenceRead document reference policy parsed := by
  obtain ⟨target, htarget, h⟩ := bind_eq_ok_iff.mp h
  obtain ⟨transforms, htransforms, h⟩ := bind_eq_ok_iff.mp h
  obtain ⟨_, hcheck, h⟩ := bind_eq_ok_iff.mp h
  obtain ⟨hc14n, h⟩ := ite_error_eq_ok_iff.mp h
  obtain ⟨digestMethod, hmethod, h⟩ := bind_eq_ok_iff.mp h
  obtain ⟨digestUri, huri, h⟩ := bind_eq_ok_iff.mp h
  obtain ⟨digestAlgorithm, halgorithm, h⟩ := bind_eq_ok_iff.mp h
  obtain ⟨hdigest, h⟩ := ite_error_eq_ok_iff.mp h
  obtain ⟨valueElem, hvalueElem, h⟩ := bind_eq_ok_iff.mp h
  obtain ⟨digestValue, hvalue, h⟩ := bind_eq_ok_iff.mp h
  obtain rfl := Except.ok.inj h
  exact {
    target := htarget
    declares := parseTransforms_ok htransforms
    chained := chained_of_checkTransforms hcheck
    c14n := not_not.mp hc14n
    digestAlgorithm := ⟨not_not.mp hdigest, digestMethod, digestUri, okOr_eq_ok_iff.mp hmethod,
      okOr_eq_ok_iff.mp huri, halgorithm⟩
    digestValue := ⟨valueElem, okOr_eq_ok_iff.mp hvalueElem, hvalue⟩
    prefixes := parseTransforms_prefixes htransforms }

/-! ## Signatures -/

/-- The elements on the way to a position, root first. -/
def IsChain (document : Document) (path : ElementPath) (chain : List Element) : Prop :=
  chain.length = path.length ∧ ∀ i < path.length, chain[i]? = document.root.walk (path.take i)

/-- The evidence for a verified signature at a position of a document. -/
structure Evidence (crypto : Primitives) (document : Document) (signature : Element)
    (position : ElementPath) (candidateCerts : List X509Certificate) (policy : PeerCryptoPolicy)
    (verified : VerifiedSignature) where
  signedInfo : Element
  index : Nat
  reference : Element
  path : ElementPath
  target : Element
  transforms : List AllowedTransform
  declaredC14n : Option C14nAlgorithm
  digestAlgorithm : DigestAlgorithm
  signedInfoC14n : C14nAlgorithm
  chain : List Element
  signedInfoChain : List Element
  octets : Octets
  signedInfoOctets : Octets
  signatureOctets : Octets
  trusted : X509Certificate
  cert : X509Certificate
  signedInfo_eq : signature.childElement (some DS_NS) "SignedInfo" = some signedInfo
  signedInfo_at : signature.children[index]? = some (.element signedInfo)
  single : signedInfo.allChildElements (some DS_NS) "Reference" = [reference]
  walk : document.root.walk path = some target
  returned : target.id = verified.signedElement
  names : Names document path target (reference.attr none "URI")
  declares : List.Forall₂ DeclaresTransform (transformUris reference) transforms
  chained : Chained transforms declaredC14n
  reference_c14n : declaredC14n.getD .exclusiveCanonical ∈ policy.allowedC14nAlgorithms
  reference_digest : MethodAllowed reference "DigestMethod" DigestAlgorithm.fromUri
    policy.allowedDigestAlgorithms digestAlgorithm
  signedInfo_c14n : MethodAllowed signedInfo "CanonicalizationMethod" C14nAlgorithm.fromUri
    policy.allowedC14nAlgorithms signedInfoC14n
  signature_algorithm : MethodAllowed signedInfo "SignatureMethod" SignatureAlgorithm.fromUri
    policy.allowedSignatureAlgorithms verified.signatureAlgorithm
  ancestors : IsChain document path chain
  canonical : C14n.canonicalize
    (if .envelopedSignature ∈ transforms then withoutAt target path position else target) chain
    (declaredC14n.getD .exclusiveCanonical) (prefixTokens reference) = .ok octets
  digest : ChildOctets reference "DigestValue" (crypto.digest digestAlgorithm octets)
  signedInfo_ancestors : IsChain document (position ++ [index]) signedInfoChain
  signedInfo_canonical : C14n.canonicalize signedInfo signedInfoChain signedInfoC14n [] =
    .ok signedInfoOctets
  signatureValue : ChildOctets signature "SignatureValue" signatureOctets
  candidate : trusted ∈ candidateCerts
  pinned : cert.fingerprintSha256 crypto = trusted.fingerprintSha256 crypto
  fingerprint : cert.fingerprintSha256 crypto = verified.verifyingCertFingerprint
  verifies : cert.publicKey.verifySignature crypto verified.signatureAlgorithm signedInfoOctets
    signatureOctets = true

theorem isChain_of_ancestorChain {document : Document} (indexed : document.WellIndexed)
    {path : ElementPath} {d : Element} (hwalk : document.root.walk path = some d)
    {chain : List Element} (h : ancestorChain document d.id = some chain) :
    IsChain document path chain := by
  obtain ⟨found, hfound, hlength, hget⟩ := ancestorChain_of_walk indexed hwalk
  obtain rfl := Option.some.inj (hfound.symm.trans h)
  exact ⟨hlength, hget⟩

variable {crypto : Primitives}

theorem digest_ok {document : Document} {parsed : ParsedReference} {enclosing : ElementId}
    {computed : Octets}
    (h : computeReferenceDigest crypto document parsed enclosing = .ok computed) :
    ∃ octets, referenceOctets document parsed enclosing = .ok octets ∧
      computed = crypto.digest parsed.digestAlgorithm octets := by
  unfold computeReferenceDigest at h
  cases hoctets : referenceOctets document parsed enclosing with
  | error err =>
    rw [hoctets] at h
    cases h
  | ok octets =>
    rw [hoctets] at h
    exact ⟨octets, rfl, (Except.ok.inj h).symm⟩

/-- A document as the crate makes it. -/
inductive Made : Document → Prop
  | parsed {qx : QuickXml} {xml : Octets} {limits : XmlLimits} {document : Document}
      (h : Document.parseWithLimits qx xml limits = .ok document) : Made document
  | built {root : Element} {document : Document} (h : Document.new root = .ok document) :
      Made document

theorem Made.wellIndexed {document : Document} (h : Made document) : document.WellIndexed := by
  cases h with
  | parsed h => exact Document.wellIndexed_parseWithLimits h
  | built h => exact Document.wellIndexed_new h

/-- A verification that succeeds comes with its evidence. -/
theorem verifySignature_sound {document : Document} (made : Made document) {signature : Element}
    {position : ElementPath} (hsignature : document.root.walk position = some signature)
    {candidateCerts : List X509Certificate} {policy : PeerCryptoPolicy}
    {verified : VerifiedSignature}
    (h : verifySignature crypto document signature candidateCerts policy = .ok verified) :
    Nonempty (Evidence crypto document signature position candidateCerts policy verified) := by
  have indexed := made.wellIndexed
  obtain ⟨signedInfo, hsigned, h⟩ := bind_eq_ok_iff.mp h
  obtain ⟨c14nAlg, hc14n, h⟩ := bind_eq_ok_iff.mp h
  obtain ⟨sigAlg, hsigAlg, h⟩ := bind_eq_ok_iff.mp h
  obtain ⟨reference, hreference, h⟩ := bind_eq_ok_iff.mp h
  obtain ⟨parsed, hparsed, h⟩ := bind_eq_ok_iff.mp h
  obtain ⟨computed, hcomputed, h⟩ := bind_eq_ok_iff.mp h
  obtain ⟨hdigest, h⟩ := ite_error_eq_ok_iff.mp h
  obtain ⟨signedInfoChain, hsignedChain, h⟩ := bind_eq_ok_iff.mp h
  obtain ⟨signedInfoOctets, hcanonical, h⟩ := bind_eq_ok_iff.mp h
  obtain ⟨valueElem, hvalueElem, h⟩ := bind_eq_ok_iff.mp h
  obtain ⟨signatureOctets, hvalue, h⟩ := bind_eq_ok_iff.mp h
  obtain ⟨vmatch, hverify, h⟩ := bind_eq_ok_iff.mp h
  obtain rfl := Except.ok.inj h
  have hsignedInfo := okOr_eq_ok_iff.mp hsigned
  obtain ⟨index, hindex⟩ := List.mem_iff_getElem?.mp
    (ElementOf.mem_childElements.mp (ElementOf.childElement_mem hsignedInfo))
  have hsignedWalk : document.root.walk (position ++ [index]) = some signedInfo := by
    rw [ElementOf.walk_append, hsignature, Option.bind_some, ElementOf.walk, hindex]
    rfl
  have hread := parseReference_ok hparsed
  obtain ⟨path, target, hwalk, hid, hnames⟩ := names_of_resolveUri indexed hread.target
  obtain ⟨octets, hoctets, rfl⟩ := digest_ok hcomputed
  obtain ⟨found, chain, hfound, hchain, hoctets⟩ := referenceOctets_ok hoctets
  have htarget := indexed.element_iff.mpr ⟨path, hwalk, hid⟩
  obtain rfl := Option.some.inj (htarget.symm.trans hfound)
  rw [clone_eq_withoutAt indexed hwalk hsignature, hread.prefixes] at hoctets
  rw [← hid] at hchain
  obtain ⟨hallowed, halgorithm, trusted, htrusted, cert, hpinned, hcert, hverifies⟩ :=
    verify_ok crypto hverify
  exact ⟨{
    signedInfo := signedInfo
    index := index
    reference := reference
    path := path
    target := target
    transforms := parsed.transforms
    declaredC14n := parsed.transforms.findSome? AllowedTransform.asC14nAlgorithm
    digestAlgorithm := parsed.digestAlgorithm
    signedInfoC14n := c14nAlg
    chain := chain
    signedInfoChain := signedInfoChain
    octets := octets
    signedInfoOctets := signedInfoOctets
    signatureOctets := signatureOctets
    trusted := trusted
    cert := cert
    signedInfo_eq := hsignedInfo
    signedInfo_at := hindex
    single := singleReference_ok hreference
    walk := hwalk
    returned := hid
    names := hnames
    declares := hread.declares
    chained := hread.chained
    reference_c14n := hread.c14n
    reference_digest := hread.digestAlgorithm
    signedInfo_c14n := methodAllowed_of_ok hc14n
    signature_algorithm := by
      rw [halgorithm]
      exact methodAllowed_of_ok hsigAlg
    ancestors := isChain_of_ancestorChain indexed hwalk hchain
    canonical := hoctets
    digest := by
      rw [not_not.mp hdigest]
      exact hread.digestValue
    signedInfo_ancestors :=
      isChain_of_ancestorChain indexed hsignedWalk (okOr_eq_ok_iff.mp hsignedChain)
    signedInfo_canonical := hcanonical
    signatureValue := ⟨valueElem, okOr_eq_ok_iff.mp hvalueElem, hvalue⟩
    candidate := htrusted
    pinned := hcert.trans hpinned.symm
    fingerprint := hcert
    verifies := by
      rw [halgorithm]
      exact hverifies }⟩

/-! ## A reference without the enveloped-signature transform -/

namespace Sample

/-- A signature over its parent that declares no transform, and whose digest
covers the signature itself. -/
def selfCovering : Str :=
  "<r xmlns:d=\"http://www.w3.org/2000/09/xmldsig#\"><d:Signature><d:SignedInfo>" ++
  "<d:CanonicalizationMethod Algorithm=\"http://www.w3.org/2001/10/xml-exc-c14n#\"/>" ++
  "<d:SignatureMethod Algorithm=\"http://www.w3.org/2001/04/xmldsig-more#rsa-sha256\"/>" ++
  "<d:Reference><d:DigestMethod Algorithm=\"http://www.w3.org/2001/04/xmlenc#sha256\"/>" ++
  "<d:DigestValue>Af+vxg==</d:DigestValue></d:Reference></d:SignedInfo>" ++
  "<d:SignatureValue>AQGvk2Q=</d:SignatureValue></d:Signature>a</r>"

/-- A certificate of the transparent primitives. -/
def signer : X509Certificate := ⟨[1], [1], ⟨.rsa, [1]⟩⟩

/-- The outcome of the verification, with the digest the reference carries and
that of the root without its signature. -/
structure Observed (document : Document) where
  signature : Element
  verified : VerifiedSignature
  signedInfo : Element
  reference : Element
  valueElem : Element
  digestValue : Octets
  pruned : Octets
  walk : document.root.walk [0] = some signature
  verifies : verifySignature Transparent.primitives document signature [signer]
    .strongDefaults = .ok verified
  signedInfo_eq : signature.childElement (some DS_NS) "SignedInfo" = some signedInfo
  single : signedInfo.allChildElements (some DS_NS) "Reference" = [reference]
  valueElem_eq : reference.childElement (some DS_NS) "DigestValue" = some valueElem
  value : decodeBase64Lenient valueElem.textContent = .ok digestValue
  canonical : C14n.canonicalize (withoutAt document.root [] [0]) [] .exclusiveCanonical [] =
    .ok pruned
  root : verified.signedElement = document.root.id
  absent : reference.attr none "URI" = none
  differs : Transparent.primitives.digest .sha256 pruned ≠ digestValue

/-- Run the steps of the observation. -/
def observe (document : Document) : Option (Bool × Octets × Octets) :=
  (document.root.walk [0]).bind fun signature =>
  (verifySignature Transparent.primitives document signature [signer]
    .strongDefaults).toOption.bind fun verified =>
  (signature.childElement (some DS_NS) "SignedInfo").bind fun signedInfo =>
  (singleReference signedInfo).toOption.bind fun reference =>
  (reference.childElement (some DS_NS) "DigestValue").bind fun valueElem =>
  (decodeBase64Lenient valueElem.textContent).toOption.bind fun digestValue =>
  (C14n.canonicalize (withoutAt document.root [] [0]) [] .exclusiveCanonical
    []).toOption.map fun pruned =>
  (decide (verified.signedElement = document.root.id ∧ reference.attr none "URI" = none),
    digestValue, Transparent.primitives.digest .sha256 pruned)

theorem observed_of_observe {document : Document} {digestValue computed : Octets}
    (h : observe document = some (true, digestValue, computed)) (hne : computed ≠ digestValue) :
    Nonempty (Observed document) := by
  obtain ⟨signature, hsignature, h⟩ := Option.bind_eq_some_iff.mp h
  obtain ⟨verified, hverified, h⟩ := Option.bind_eq_some_iff.mp h
  obtain ⟨signedInfo, hsignedInfo, h⟩ := Option.bind_eq_some_iff.mp h
  obtain ⟨reference, hreference, h⟩ := Option.bind_eq_some_iff.mp h
  obtain ⟨valueElem, hvalueElem, h⟩ := Option.bind_eq_some_iff.mp h
  obtain ⟨value, hvalue, h⟩ := Option.bind_eq_some_iff.mp h
  obtain ⟨pruned, hpruned, h⟩ := Option.map_eq_some_iff.mp h
  obtain ⟨hfacts, h⟩ := Prod.mk.inj h
  obtain ⟨rfl, rfl⟩ := Prod.mk.inj h
  obtain ⟨hroot, habsent⟩ := of_decide_eq_true hfacts
  exact ⟨⟨signature, verified, signedInfo, reference, valueElem, value, pruned, hsignature,
    ok_of_toOption hverified, hsignedInfo, singleReference_ok (ok_of_toOption hreference),
    hvalueElem, ok_of_toOption hvalue, ok_of_toOption hpruned, hroot, habsent, hne⟩⟩

theorem exists_selfCovering :
    ∃ document, Document.parse Scanning.reader (Text.asBytes selfCovering) = .ok document ∧
      Nonempty (Observed document) := by
  have hread : (Scanning.parseText selfCovering).toOption.bind observe =
      some (true, [1, 255, 175, 198], [0, 8, 2, 104]) := by decide +kernel
  rw [← Scanning.parse_asBytes (by decide +kernel)] at hread
  obtain ⟨document, hdocument, hobserve⟩ := Option.bind_eq_some_iff.mp hread
  exact ⟨document, ok_of_toOption hdocument, observed_of_observe hobserve (by decide)⟩

end Sample

/-- Without the enveloped-signature transform the digest is that of the element
with the signature in it; a reference without a URI is accepted. -/
theorem verifySignature_selfCovering :
    ∃ document signature verified signedInfo reference digestValue pruned,
      Document.parse Scanning.reader (Text.asBytes Sample.selfCovering) = .ok document ∧
      document.root.walk [0] = some signature ∧
      verifySignature Transparent.primitives document signature [Sample.signer]
        .strongDefaults = .ok verified ∧
      verified.signedElement = document.root.id ∧
      signature.childElement (some DS_NS) "SignedInfo" = some signedInfo ∧
      signedInfo.allChildElements (some DS_NS) "Reference" = [reference] ∧
      reference.attr none "URI" = none ∧ ChildOctets reference "DigestValue" digestValue ∧
      C14n.canonicalize (withoutAt document.root [] [0]) [] .exclusiveCanonical [] = .ok pruned ∧
      Transparent.primitives.digest .sha256 pruned ≠ digestValue := by
  obtain ⟨document, hparse, ⟨seen⟩⟩ := Sample.exists_selfCovering
  exact ⟨document, seen.signature, seen.verified, seen.signedInfo, seen.reference,
    seen.digestValue, seen.pruned, hparse, seen.walk, seen.verifies, seen.root,
    seen.signedInfo_eq, seen.single, seen.absent, ⟨seen.valueElem, seen.valueElem_eq, seen.value⟩,
    seen.canonical, seen.differs⟩

theorem verifySignature_sound_selfCovering :
    ∃ document signature verified,
      Document.parse Scanning.reader (Text.asBytes Sample.selfCovering) = .ok document ∧
      verifySignature Transparent.primitives document signature [Sample.signer]
        .strongDefaults = .ok verified ∧
      Nonempty (Evidence Transparent.primitives document signature [0] [Sample.signer]
        .strongDefaults verified) := by
  obtain ⟨document, hparse, ⟨seen⟩⟩ := Sample.exists_selfCovering
  exact ⟨document, seen.signature, seen.verified, hparse, seen.verifies,
    verifySignature_sound (.parsed hparse) seen.walk seen.verifies⟩

end Saml.Dsig
