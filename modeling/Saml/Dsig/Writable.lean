import Saml.Dsig.Built
import Saml.Xml.Writable

/-!
# Signatures write back

The signature that is spliced into a built element is built from the same
prefixes, so that a signed element writes back when the element does.
-/

namespace Saml.Dsig

open Xml Crypto

/-- The prefixes of the builders are plain and stand for one namespace each. -/
theorem plainPrefixes : Xml.PrefixTable PREFIXES := by
  constructor
  · decide
  · decide
  · decide

section

variable {table scope : List NsDecl}

theorem composed_ds (hscope : dsDecl ∈ scope) {loc : Str} (hloc : isNcName loc = true) :
    Composed table scope [] [] (ElementOf.build (ds loc)) :=
  .build hscope hloc

theorem writable_algorithmElement (hscope : dsDecl ∈ scope) {loc : Str}
    (hloc : isNcName loc = true) (uri : Str) :
    Composed table scope [] ["Algorithm"] (algorithmElement loc uri) :=
  (composed_ds hscope hloc).withAttribute (by decide) uri

theorem writable_c14nTransform (hec : ecDecl ∈ table) (hscope : dsDecl ∈ scope)
    (c14n : C14nAlgorithm) (prefixes : List Str) :
    Writable table scope (c14nTransform c14n prefixes) := by
  have htransform : Composed table scope [] ["Algorithm"] (algorithmElement "Transform" c14n.uri) :=
    writable_algorithmElement hscope (by decide) _
  unfold c14nTransform
  dsimp only
  split
  · have hinclusive : Composed table (scope ++ [ecDecl]) [] []
        (ElementOf.build (ec "InclusiveNamespaces")) :=
      .build (List.mem_append_right _ List.mem_cons_self) (by decide)
    have hdeclared := (hinclusive.withNamespace hec (by simp)).withAttribute
      (by decide : isFreshName [] "PrefixList" = true) (List.intercalate " " prefixes)
    exact (htransform.withChild hdeclared.writable).writable
  · exact htransform.writable

theorem writable_buildSignedInfo (hec : ecDecl ∈ table) (hscope : dsDecl ∈ scope)
    (signatureAlgorithm : SignatureAlgorithm) (digest : DigestAlgorithm) (c14n : C14nAlgorithm)
    (idValue digestB64 : Str) (prefixes : List Str) :
    Writable table scope
      (buildSignedInfo signatureAlgorithm digest c14n idValue digestB64 prefixes) := by
  have halgorithm {loc : Str} (hloc : isNcName loc = true) (uri : Str) :
      Writable table scope (algorithmElement loc uri) :=
    (writable_algorithmElement hscope hloc uri).writable
  have htransforms : Composed table scope [] [] _ :=
    ((composed_ds hscope (by decide : isNcName "Transforms" = true)).withChild
      (halgorithm (by decide : isNcName "Transform" = true) ENVELOPED_SIGNATURE_URI)).withChild
      (writable_c14nTransform hec hscope c14n prefixes)
  have hdigest : Composed table scope [] [] _ :=
    (composed_ds hscope (by decide : isNcName "DigestValue" = true)).withText digestB64
  have hreference : Composed table scope [] ["URI"] _ :=
    ((((composed_ds hscope (by decide : isNcName "Reference" = true)).withAttribute
      (by decide : isFreshName [] "URI" = true) ('#' :: idValue)).withChild
      htransforms.writable).withChild
      (halgorithm (by decide : isNcName "DigestMethod" = true) digest.uri)).withChild
      hdigest.writable
  exact ((((composed_ds hscope (by decide : isNcName "SignedInfo" = true)).withChild
    (halgorithm (by decide : isNcName "CanonicalizationMethod" = true) c14n.uri)).withChild
    (halgorithm (by decide : isNcName "SignatureMethod" = true) signatureAlgorithm.uri)).withChild
    hreference.writable).writable

theorem writable_buildX509KeyInfo (hds : dsDecl ∈ table) (cert : X509Certificate)
    (declareDsNs : Bool) (hscope : declareDsNs = true ∨ dsDecl ∈ scope) :
    Writable table scope (buildX509KeyInfo cert declareDsNs) := by
  have hdata {s : List NsDecl} (hs : dsDecl ∈ s) : Composed table s [] [] _ :=
    (composed_ds hs (by decide : isNcName "X509Data" = true)).withChild
      ((composed_ds hs (by decide : isNcName "X509Certificate" = true)).withText
        cert.toBase64X509).writable
  have hkeyInfo {s : List NsDecl} (hs : dsDecl ∈ s) : Composed table s [] [] _ :=
    (composed_ds hs (by decide : isNcName "KeyInfo" = true)).withChild (hdata hs).writable
  cases declareDsNs with
  | true =>
      have hdecl : dsDecl ∈ scope ++ [dsDecl] := List.mem_append_right _ List.mem_cons_self
      exact ((hkeyInfo hdecl).withNamespace hds (by simp)).writable
  | false => exact (hkeyInfo (by simpa using hscope)).writable

theorem writable_buildSignatureElement (hds : dsDecl ∈ table) {signedInfo signature : Element}
    (hinfo : Writable table (scope ++ [dsDecl]) signedInfo) {signatureB64 : Str}
    {includeX509Cert : Bool} {key : KeyPair}
    (h : buildSignatureElement signedInfo signatureB64 includeX509Cert key = .ok signature) :
    Writable table scope signature := by
  have hdecl : dsDecl ∈ scope ++ [dsDecl] := List.mem_append_right _ List.mem_cons_self
  have hvalue : Composed table (scope ++ [dsDecl]) [] [] _ :=
    (composed_ds hdecl (by decide : isNcName "SignatureValue" = true)).withText signatureB64
  have hsignature : Composed table (scope ++ [dsDecl]) [] [] _ :=
    ((composed_ds hdecl (by decide : isNcName "Signature" = true)).withChild hinfo).withChild
      hvalue.writable
  unfold buildSignatureElement at h
  dsimp only at h
  split at h
  · split at h
    next cert hcert =>
      obtain rfl := Except.ok.inj h
      have hkeyInfo := writable_buildX509KeyInfo hds cert false (.inr hdecl)
      exact ((hsignature.withChild hkeyInfo).withNamespace hds (by simp)).writable
    next => cases h
  · obtain rfl := Except.ok.inj h
    exact (hsignature.withNamespace hds (by simp)).writable

end

/-- Signing keeps an element writable. -/
theorem writable_signElement {crypto : Primitives} {table scope : List NsDecl}
    (hds : dsDecl ∈ table) (hec : ecDecl ∈ table) {e signed : Element} {opts : SignOptions}
    (he : Writable table scope e) (h : signElement crypto e opts = .ok signed) :
    Writable table scope signed := by
  obtain ⟨idValue, digestB64, octets, signature, hsignature, rfl⟩ := signElement_ok crypto h
  have hdecl : dsDecl ∈ scope ++ [dsDecl] := List.mem_append_right _ List.mem_cons_self
  exact he.insertChild (writable_buildSignatureElement hds
    (writable_buildSignedInfo hec hdecl _ _ _ _ _ _) hsignature) _

end Saml.Dsig
