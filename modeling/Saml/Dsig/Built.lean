import Saml.Dsig.Scope
import Saml.Dsig.Sign
import Saml.Xml.Built

/-!
# Signing built trees

Canonicalization and signing of what the element builders put together: only
the signing key and its certificate can stand in the way.
-/

namespace Saml.Dsig

open Xml Crypto Library.Association

/-- A table of declarations with one namespace a prefix, none of them the XML
namespace. -/
structure PrefixTable (table : List NsDecl) : Prop where
  distinct : (table.map Prod.fst).Nodup
  foreign : ∀ d ∈ table, d.2 ≠ XML_NS

namespace C14n

/-! ## Canonicalization -/

/-- Among declarations of one table no declaration shadows another. -/
theorem mem_scopeList_of_table {table : List NsDecl} (htable : PrefixTable table)
    {layers : List NsLayer} (hlayers : nearestFirst layers ⊆ table) {d : NsDecl}
    (hd : d ∈ nearestFirst layers) : d ∈ scopeList layers := by
  rw [mem_scopeList]
  have hfound : ((nearestFirst layers).lookup d.1).isSome = true :=
    lookup_isSome_iff.mpr (List.mem_map_of_mem hd)
  obtain ⟨uri, huri⟩ := Option.isSome_iff_exists.mp hfound
  have hsame : table.lookup d.1 = some uri :=
    (lookup_eq_some_iff htable.distinct).mpr (hlayers (mem_of_lookup huri))
  rw [(lookup_eq_some_iff htable.distinct).mpr (hlayers hd)] at hsame
  rw [huri, hsame]

/-- A prefix that is bound has a binding to render. -/
theorem exists_utilizedBinding {inScope : List NsDecl} {d : NsDecl} (hd : d ∈ inScope) :
    ∃ binding, utilizedBinding inScope d.1 = .ok binding := by
  cases hlookup : lookupInScope inScope d.1 with
  | some uri => exact ⟨(d.1, uri), by simp [utilizedBinding, hlookup]⟩
  | none =>
      rw [lookupInScope, Option.map_eq_none_iff, List.find?_eq_none] at hlookup
      exact absurd (by simp) (hlookup d (List.mem_reverse.mpr hd))

/-- A namespace that is bound has a prefix that is bound. -/
theorem exists_boundPrefix {inScope : List NsDecl} {d : NsDecl} (hd : d ∈ inScope)
    (hforeign : d.2 ≠ XML_NS) (hint : Option Str) :
    ∃ found ∈ inScope, prefixForUri inScope (some d.2) false hint = .ok found.1 := by
  simp only [prefixForUri]
  rw [if_neg hforeign]
  split
  next hhint =>
    cases hint with
    | none => cases hhint
    | some p =>
        simp only [Option.any_some, Bool.and_eq_true] at hhint
        exact ⟨_, binds_iff.mp hhint.2, rfl⟩
  split
  next hdefault =>
    simp only [Bool.and_eq_true] at hdefault
    exact ⟨_, binds_iff.mp hdefault.2, rfl⟩
  next =>
    cases hfind : inScope.reverse.find? fun x => x.2 = d.2 && !(false && x.1.isNone) with
    | some found =>
        exact ⟨found, List.mem_reverse.mp (List.mem_of_find?_eq_some hfind), rfl⟩
    | none =>
        rw [List.find?_eq_none] at hfind
        exact absurd (by simp) (hfind d (List.mem_reverse.mpr hd))

/-- Exclusive canonicalization finds what to render on an element whose namespace
is bound and whose attributes are in none. -/
theorem exists_computeExclusive {inScope : List NsDecl} {d : NsDecl} (hd : d ∈ inScope)
    (hforeign : d.2 ≠ XML_NS) {e : Element} (hname : e.qname.namespaceUri = some d.2)
    (hattributes : ∀ a ∈ e.attributes, a.qname.namespaceUri = none)
    (renderedAbove : List NsDecl) (inclusivePrefixes : List Str) :
    ∃ rendered, computeExclusive e inScope renderedAbove inclusivePrefixes = .ok rendered := by
  obtain ⟨found, hfound, hpre⟩ := exists_boundPrefix hd hforeign e.sourcePrefix
  have hnone : ∀ a ∈ e.attributes, attributePrefix inScope a = .ok none := by
    intro a ha
    rw [attributePrefix, hattributes a ha]
  obtain ⟨prefixes, hprefixes⟩ := exists_mapM_ok fun a ha => ⟨none, hnone a ha⟩
  have hempty : prefixes.filter Option.isSome = [] := by
    rw [List.filter_eq_nil_iff]
    intro p hp
    obtain ⟨a, ha, heq⟩ := mem_of_mapM_ok hprefixes hp
    rw [hnone a ha] at heq
    rw [← Except.ok.inj heq]
    simp
  have hutilized : utilizedPrefixes e inScope = .ok [found.1] := by
    rw [utilizedPrefixes, hname]
    refine bind_eq_ok_iff.mpr ⟨_, hpre, bind_eq_ok_iff.mpr ⟨_, hprefixes, ?_⟩⟩
    rw [hempty]
    rfl
  have hbindings : ∃ bindings, [found.1].mapM (utilizedBinding inScope) = .ok bindings := by
    apply exists_mapM_ok
    intro p hp
    rw [List.mem_singleton.mp hp]
    exact exists_utilizedBinding hfound
  obtain ⟨bindings, hbindings⟩ := hbindings
  exact exists_bind_ok hutilized (exists_bind_ok hbindings ⟨_, rfl⟩)

theorem exists_emitChildren {algorithm : C14nAlgorithm} {inclusivePrefixes : List Str}
    {scopeAbove renderedAbove : List NsDecl} {nodes : List Node}
    (elements : ∀ e, Node.element e ∈ nodes → ∃ text,
      emitElement algorithm inclusivePrefixes scopeAbove renderedAbove false e = .ok text) :
    ∃ text, emitChildren algorithm inclusivePrefixes scopeAbove renderedAbove nodes =
      .ok text := by
  induction nodes with
  | nil => exact ⟨[], by rw [emitChildren]⟩
  | cons node rest ih =>
      obtain ⟨others, hothers⟩ := ih fun e he => elements e (List.mem_cons_of_mem _ he)
      have hnode : ∃ text,
          emitNode algorithm inclusivePrefixes scopeAbove renderedAbove node = .ok text := by
        cases node with
        | element e =>
            rw [emitNode]
            exact elements e List.mem_cons_self
        | text t => exact ⟨_, by rw [emitNode]⟩
        | comment c => exact ⟨_, by rw [emitNode]⟩
      obtain ⟨text, htext⟩ := hnode
      rw [emitChildren]
      exact exists_bind_ok htext (exists_bind_ok hothers ⟨_, rfl⟩)

/-- A built tree has a canonical text below the declarations of its table. -/
theorem exists_emitElement {table scope : List NsDecl} (htable : PrefixTable table) {e : Element}
    (h : Declared table scope e) (algorithm : C14nAlgorithm) (inclusivePrefixes : List Str)
    {layers : List NsLayer} (hlayers : nearestFirst layers ⊆ table)
    (hscope : scope ⊆ nearestFirst layers) (renderedAbove : List NsDecl) (isApex : Bool) :
    ∃ text, emitElement algorithm inclusivePrefixes (scopeList layers) renderedAbove isApex e =
      .ok text := by
  induction h generalizing layers renderedAbove isApex with
  | @mk scope e declared name attributes comments below ih =>
      rcases e with ⟨qname, sourcePrefix, decls, attrs, children, id⟩
      have hnearest : ∀ d, d ∈ nearestFirst (decls :: layers) ↔ d ∈ decls ∨
          d ∈ nearestFirst layers := by
        intro d
        rw [nearestFirst, List.flatMap_cons, List.mem_append, List.mem_reverse]
        rfl
      have hwider : scope ++ decls ⊆ nearestFirst (decls :: layers) := by
        intro d hd
        rw [hnearest]
        rcases List.mem_append.mp hd with hd | hd
        · exact .inr (hscope hd)
        · exact .inl hd
      have hinner : nearestFirst (decls :: layers) ⊆ table := by
        intro d hd
        rcases (hnearest d).mp hd with hd | hd
        · exact declared d hd
        · exact hlayers hd
      obtain ⟨d, hd, hname⟩ := name
      have hbound : d ∈ scopeList (decls :: layers) :=
        mem_scopeList_of_table htable hinner (hwider hd)
      have hforeign : d.2 ≠ XML_NS := htable.foreign d (hinner (hwider hd))
      have hrender : ∃ rendered, computeRenderedNamespaces
          ⟨qname, sourcePrefix, decls, attrs, children, id⟩ (scopeList (decls :: layers))
          renderedAbove isApex algorithm inclusivePrefixes = .ok rendered := by
        unfold computeRenderedNamespaces
        split
        · exact exists_computeExclusive hbound hforeign hname attributes _ _
        · exact ⟨_, rfl⟩
      obtain ⟨found, _, hpre⟩ := exists_boundPrefix hbound hforeign sourcePrefix
      rw [← hname] at hpre
      have hattrs : ∀ a ∈ attrs.insertionSort attrBefore, ∃ text,
          renderAttribute (scopeList (decls :: layers)) a = .ok text := by
        intro a ha
        rw [renderAttribute, attributes a ((List.mem_insertionSort _).mp ha)]
        exact ⟨_, rfl⟩
      obtain ⟨rendered, hrendered⟩ := hrender
      obtain ⟨texts, htexts⟩ := exists_mapM_ok hattrs
      rw [emitElement, mergeAll_scopeList]
      refine exists_bind_ok hrendered (exists_bind_ok hpre (exists_bind_ok htexts ?_))
      obtain ⟨body, hbody⟩ := exists_emitChildren fun child hchild =>
        ih child hchild hinner hwider
          (mergeAll renderedAbove (rendered.insertionSort nsBefore)) false
      exact exists_bind_ok hbody ⟨_, rfl⟩

/-- A built tree that stands by itself can be canonicalized. -/
theorem exists_canonicalize {table : List NsDecl} (htable : PrefixTable table) {e : Element}
    (h : Declared table [] e) (algorithm : C14nAlgorithm) (inclusivePrefixes : List Str) :
    ∃ octets, canonicalize e [] algorithm inclusivePrefixes = .ok octets := by
  have hlayers : nearestFirst ([] : List NsLayer) ⊆ table := List.nil_subset _
  obtain ⟨text, htext⟩ := exists_emitElement htable h algorithm inclusivePrefixes hlayers
    (List.nil_subset _) [] true
  have htext : canonicalText e [] algorithm inclusivePrefixes = .ok text := htext
  exact ⟨Text.asBytes text, by rw [canonicalize, htext]; rfl⟩

end C14n

/-! ## Signing -/

/-- The declarations that the builders write. -/
def PREFIXES : List NsDecl :=
  [(some "samlp", SAMLP_NS), (some "saml", SAML_NS), (some "ds", DS_NS), (some "ec", EC_NS),
    (some "xenc", XENC_NS), (some "xenc11", XENC11_NS)]

theorem prefixTable : PrefixTable PREFIXES := by
  constructor
  · decide
  · decide

/-- A tree below the bindings of a scope, of a bounded size and with the given
`ID` values. -/
structure Built (scope : List NsDecl) (bound : Nat) (ids : List Str) (e : Element) : Prop where
  declared : Declared PREFIXES scope e
  size : size e ≤ bound
  ids : idsOf e = ids

namespace Built

variable {scope : List NsDecl} {bound extra : Nat} {ids more : List Str} {e child : Element}

theorem build {d : NsDecl} (hd : d ∈ scope) (loc : Str) :
    Built scope 1 [] (ElementOf.build ⟨some d.2, loc⟩) :=
  ⟨.build hd loc, by simp, by simp⟩

theorem withAttribute (h : Built scope bound ids e) {loc : Str} (hloc : loc ≠ "ID")
    (value : Str) : Built scope bound ids (e.withAttribute ⟨none, loc⟩ value) := by
  refine ⟨h.declared.withAttribute loc value, ?_, ?_⟩
  · rw [size_withAttribute]
    exact h.size
  · rw [idsOf_withAttribute e hloc, h.ids]

/-- The first `ID` value. -/
theorem withId (h : Built scope bound [] e) (value : Str) :
    Built scope bound [value] (e.withAttribute ⟨none, "ID"⟩ value) := by
  refine ⟨h.declared.withAttribute _ value, ?_, ?_⟩
  · rw [size_withAttribute]
    exact h.size
  · obtain ⟨hvalues, hchildren⟩ := List.append_eq_nil_iff.mp (idsOf_eq e ▸ h.ids)
    have hids : idsOf (e.withAttribute ⟨none, "ID"⟩ value) =
        idValues (e.attributes ++ [⟨⟨none, "ID"⟩, none, value⟩]) ++ idsOfChildren e.children :=
      idsOf_eq _
    rw [hids, idValues, List.filter_append, List.map_append, ← idValues, hvalues, hchildren]
    rfl

theorem withText (h : Built scope bound ids e) (t : Str) :
    Built scope (bound + 1) ids (e.withText t) := by
  refine ⟨h.declared.withText t, ?_, ?_⟩
  · rw [size_withText]
    exact Nat.add_le_add_right h.size 1
  · rw [idsOf_withText, h.ids]

theorem withChild (h : Built scope bound ids e) (hchild : Built scope extra more child) :
    Built scope (bound + extra) (ids ++ more) (e.withChild (.element child)) := by
  refine ⟨h.declared.withChild hchild.declared, ?_, ?_⟩
  · rw [size_withChild]
    exact Nat.add_le_add h.size hchild.size
  · rw [idsOf_withChild, h.ids, hchild.ids]

theorem insertChild (h : Built scope bound ids e) (hchild : Built scope extra [] child)
    (index : Nat) : Built scope (bound + extra) ids (e.insertChild index (.element child)) := by
  refine ⟨h.declared.insertChild hchild.declared index, ?_, ?_⟩
  · exact (size_insertChild e child index).trans (Nat.add_le_add h.size hchild.size)
  · rw [idsOf_insertChild e hchild.ids, h.ids]

theorem withNamespace {d : NsDecl} (h : Built (scope ++ [d]) bound ids e) (hd : d ∈ PREFIXES) :
    Built scope bound ids (e.withNamespace d.1 d.2) := by
  refine ⟨h.declared.withNamespace hd, ?_, ?_⟩
  · rw [size_withNamespace]
    exact h.size
  · rw [idsOf_withNamespace, h.ids]

theorem mono (h : Built scope bound ids e) {wider : List NsDecl} (hscope : scope ⊆ wider)
    (hbound : bound ≤ extra) : Built wider extra ids e :=
  ⟨h.declared.mono hscope, h.size.trans hbound, h.ids⟩

/-- A document can be made of a small tree with distinct `ID` values, and it holds
that tree. -/
theorem exists_new (h : Built scope bound ids e) (hbound : bound ≤ U32_BOUND)
    (hids : ids.Nodup) : ∃ doc, Document.new e = .ok doc ∧ Built scope bound ids doc.root := by
  obtain ⟨doc, hdoc⟩ := Document.exists_new (h.size.trans hbound) (h.ids.symm ▸ hids)
  obtain ⟨hsize, hrootIds⟩ := Document.new_size hdoc
  exact ⟨doc, hdoc, h.declared.new hdoc, hsize.trans_le h.size, hrootIds.trans h.ids⟩

end Built

/-- The declaration of the signature namespace. -/
def dsDecl : NsDecl := (some "ds", DS_NS)

/-- The declaration of the exclusive canonicalization namespace. -/
def ecDecl : NsDecl := (some "ec", EC_NS)

theorem built_ds {scope : List NsDecl} (hscope : dsDecl ∈ scope) (loc : Str) :
    Built scope 1 [] (ElementOf.build (ds loc)) :=
  Built.build hscope loc

theorem built_algorithmElement {scope : List NsDecl} (hscope : dsDecl ∈ scope) (loc uri : Str) :
    Built scope 1 [] (algorithmElement loc uri) :=
  (built_ds hscope loc).withAttribute (by decide) uri

theorem built_c14nTransform {scope : List NsDecl} (hscope : dsDecl ∈ scope)
    (c14n : C14nAlgorithm) (prefixes : List Str) :
    Built scope 2 [] (c14nTransform c14n prefixes) := by
  have htransform : Built scope 1 [] (algorithmElement "Transform" c14n.uri) :=
    built_algorithmElement hscope _ _
  unfold c14nTransform
  dsimp only
  split
  · have hinclusive : Built (scope ++ [ecDecl]) 1 [] (ElementOf.build (ec "InclusiveNamespaces")) :=
      Built.build (List.mem_append_right _ List.mem_cons_self) _
    exact htransform.withChild
      ((hinclusive.withNamespace (by decide)).withAttribute (by decide) _)
  · exact htransform.mono (List.Subset.refl _) (by decide)

theorem built_buildSignedInfo {scope : List NsDecl} (hscope : dsDecl ∈ scope)
    (signatureAlgorithm : SignatureAlgorithm) (digest : DigestAlgorithm) (c14n : C14nAlgorithm)
    (idValue digestB64 : Str) (prefixes : List Str) :
    Built scope 11 []
      (buildSignedInfo signatureAlgorithm digest c14n idValue digestB64 prefixes) := by
  have halgorithm := built_algorithmElement hscope
  have htransforms := ((built_ds hscope "Transforms").withChild
    (halgorithm "Transform" ENVELOPED_SIGNATURE_URI)).withChild
    (built_c14nTransform hscope c14n prefixes)
  have hdigest := (built_ds hscope "DigestValue").withText digestB64
  have huri : ("URI" : Str) ≠ "ID" := by decide
  have hreference := ((((built_ds hscope "Reference").withAttribute huri
    ('#' :: idValue)).withChild htransforms).withChild
    (halgorithm "DigestMethod" digest.uri)).withChild hdigest
  exact (((built_ds hscope "SignedInfo").withChild
    (halgorithm "CanonicalizationMethod" c14n.uri)).withChild
    (halgorithm "SignatureMethod" signatureAlgorithm.uri)).withChild hreference

theorem built_buildX509KeyInfo {scope : List NsDecl} (cert : X509Certificate) (declareDsNs : Bool)
    (hscope : declareDsNs = true ∨ dsDecl ∈ scope) :
    Built scope 4 [] (buildX509KeyInfo cert declareDsNs) := by
  have hdecl : dsDecl ∈ scope ++ [dsDecl] := List.mem_append_right _ List.mem_cons_self
  have hdata {s : List NsDecl} (hs : dsDecl ∈ s) := (built_ds hs "X509Data").withChild
    ((built_ds hs "X509Certificate").withText cert.toBase64X509)
  cases declareDsNs with
  | true =>
      have hkeyInfo := (built_ds hdecl "KeyInfo").withChild (hdata hdecl)
      exact hkeyInfo.withNamespace (by decide)
  | false =>
      have hscope : dsDecl ∈ scope := by simpa using hscope
      exact (built_ds hscope "KeyInfo").withChild (hdata hscope)

variable {crypto : Primitives}

/-- A key pair that can sign with an algorithm and show its certificate. -/
structure Usable (crypto : Primitives) (key : KeyPair) (algorithm : SignatureAlgorithm) : Prop where
  signs : ∀ octets, ∃ signature, key.sign crypto algorithm octets = .ok signature
  certified : key.cert.isSome = true

theorem exists_buildSignatureElement {signedInfo : Element} {key : KeyPair}
    (hinfo : Built ([] ++ [dsDecl]) 11 [] signedInfo) (hcert : key.cert.isSome = true)
    (signatureB64 : Str) (includeX509Cert : Bool) :
    ∃ signature, buildSignatureElement signedInfo signatureB64 includeX509Cert key =
      .ok signature ∧ Built [] 18 [] signature := by
  have hdecl : dsDecl ∈ ([] ++ [dsDecl] : List NsDecl) := List.mem_cons_self
  have hvalue := (built_ds hdecl "SignatureValue").withText signatureB64
  have hsignature := ((built_ds hdecl "Signature").withChild hinfo).withChild hvalue
  obtain ⟨cert, hcert⟩ := Option.isSome_iff_exists.mp hcert
  unfold buildSignatureElement
  rw [hcert]
  split
  · refine ⟨_, rfl, ?_⟩
    exact (hsignature.withChild (built_buildX509KeyInfo cert false (.inr hdecl))).withNamespace
      (by decide)
  · refine ⟨_, rfl, ?_⟩
    exact (hsignature.withNamespace (by decide)).mono (List.Subset.refl _) (by decide)

/-- A usable key signs every built tree that has an `ID`, and nothing but a small
signature without an `ID` is spliced in. -/
theorem exists_signElement {e : Element} {opts : SignOptions} (h : Declared PREFIXES [] e)
    (hid : (e.attr none "ID").isSome = true)
    (hkey : Usable crypto opts.signingKey opts.sigAlg) :
    ∃ index signature, signElement crypto e opts = .ok (e.insertChild index (.element signature)) ∧
      Built [] 18 [] signature := by
  obtain ⟨idValue, hid⟩ := Option.isSome_iff_exists.mp hid
  obtain ⟨target, htarget⟩ :=
    C14n.exists_canonicalize prefixTable h opts.c14nAlg opts.inclusiveNamespaces
  have hinfo {scope : List NsDecl} (hscope : dsDecl ∈ scope) :=
    built_buildSignedInfo hscope opts.sigAlg opts.digestAlg opts.c14nAlg idValue
      (base64Encode (crypto.digest opts.digestAlg target)) opts.inclusiveNamespaces
  have hdecl : dsDecl ∈ [dsDecl] := List.mem_cons_self
  have hclone : Built [] 11 [] (cloneWithNamespace (buildSignedInfo opts.sigAlg opts.digestAlg
      opts.c14nAlg idValue (base64Encode (crypto.digest opts.digestAlg target))
      opts.inclusiveNamespaces) (some "ds") DS_NS) := by
    refine ⟨(hinfo hdecl).declared.declare (by decide) fun x => List.mem_cons, ?_, ?_⟩
    · exact (size_withNamespace _ _ _).symm ▸ (hinfo hdecl).size
    · exact (hinfo hdecl).ids
  obtain ⟨infoDoc, hinfoDoc, hroot⟩ := hclone.exists_new (by decide) List.nodup_nil
  obtain ⟨infoOctets, hinfoOctets⟩ := C14n.exists_canonicalize prefixTable hroot.declared
    opts.c14nAlg opts.inclusiveNamespaces
  obtain ⟨octets, hoctets⟩ := hkey.signs infoOctets
  obtain ⟨signature, hsignature, hbuilt⟩ := exists_buildSignatureElement (hinfo hdecl)
    hkey.certified (base64Encode octets) opts.includeX509Cert
  refine ⟨signatureInsertionIndex e, signature, ?_, hbuilt⟩
  refine bind_eq_ok_iff.mpr ⟨idValue, okOr_eq_ok_iff.mpr hid, ?_⟩
  refine bind_eq_ok_iff.mpr ⟨target, htarget, ?_⟩
  refine bind_eq_ok_iff.mpr ⟨infoDoc, hinfoDoc, ?_⟩
  refine bind_eq_ok_iff.mpr ⟨infoOctets, hinfoOctets, ?_⟩
  refine bind_eq_ok_iff.mpr ⟨octets, hoctets, ?_⟩
  exact bind_eq_ok_iff.mpr ⟨signature, hsignature, rfl⟩

end Saml.Dsig
