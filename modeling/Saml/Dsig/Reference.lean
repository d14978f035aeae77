import Saml.Dsig.C14n
import Saml.Crypto.Keys

/-!
# References

`dsig::reference`: the transform whitelist, resolution of the reference URI,
and the digest of the referenced element with the enclosing signature removed.
-/

namespace Saml.Dsig

open Xml Crypto

/-- Algorithm URI of the enveloped-signature transform. -/
def ENVELOPED_SIGNATURE_URI : Str := "http://www.w3.org/2000/09/xmldsig#enveloped-signature"

/-- The transforms accepted in a reference. -/
inductive AllowedTransform where
  | envelopedSignature
  | c14n (algorithm : C14nAlgorithm)
deriving DecidableEq, Repr

namespace AllowedTransform

def fromUri (uri : Str) : Result AllowedTransform :=
  if uri = ENVELOPED_SIGNATURE_URI then .ok .envelopedSignature
  else
    match C14nAlgorithm.fromUri uri with
    | .ok algorithm => .ok (.c14n algorithm)
    | .error _ => .error (.disallowedTransform uri)

def asC14nAlgorithm : AllowedTransform → Option C14nAlgorithm
  | .envelopedSignature => none
  | .c14n algorithm => some algorithm

end AllowedTransform

/-- A parsed reference, ready for digest computation. -/
structure ParsedReference where
  target : ElementId
  transforms : List AllowedTransform
  digestAlgorithm : DigestAlgorithm
  digestValue : Octets
  inclusiveNamespacePrefixes : List Str

namespace ParsedReference

/-- The declared canonicalization, exclusive without comments by default. -/
def c14nAlgorithm (parsed : ParsedReference) : C14nAlgorithm :=
  (parsed.transforms.findSome? AllowedTransform.asC14nAlgorithm).getD .exclusiveCanonical

end ParsedReference

/-- `resolve_uri`: the empty URI is the root, `#name` a registered identifier. -/
def resolveUri (document : Document) (uri : Str) : Result ElementId :=
  match uri with
  | [] => .ok document.root.id
  | '#' :: rest =>
      if rest = [] ∨ ("xpointer" : Str) <+: rest ∨ '(' ∈ rest then .error .referenceResolution
      else okOr (document.elementByIdAttr rest) .referenceResolution
  | _ => .error .referenceResolution

/-- `decode_base64_lenient`: ASCII blanks inside the payload are skipped. -/
def decodeBase64Lenient (input : Str) : Result Octets :=
  base64Decode (input.filter fun c =>
    !(c == ' ' || c == '\t' || c == '\n' || c == '\r' || c == '\x0b' || c == '\x0c'))

/-- One `ds:Transform`: its kind and the tokens of its prefix list. -/
def parseTransform (transform : Element) : Result (AllowedTransform × List Str) := do
  let algUri ← okOr (transform.attr none "Algorithm") (.disallowedTransform [])
  let kind ← AllowedTransform.fromUri algUri
  let list := (transform.childElement (some EC_NS) "InclusiveNamespaces").bind
    (·.attr none "PrefixList")
  .ok (kind, Text.splitWhitespace (list.getD []))

/-- At most one canonicalization, and it comes last. -/
def checkTransforms (transforms : List AllowedTransform) : Result Unit :=
  if (transforms.filterMap AllowedTransform.asC14nAlgorithm).length > 1 then
    .error (.disallowedTransform "multiple c14n transforms in Reference")
  else if transforms.any (·.asC14nAlgorithm.isSome) ∧
      (transforms.getLast?.bind AllowedTransform.asC14nAlgorithm).isNone then
    .error (.disallowedTransform "c14n transform must be the final transform")
  else .ok ()

/-- The transforms a reference declares, none without a `ds:Transforms`. -/
def parseTransforms (reference : Element) : Result (List (AllowedTransform × List Str)) :=
  match reference.childElement (some DS_NS) "Transforms" with
  | some transforms => (transforms.allChildElements (some DS_NS) "Transform").mapM parseTransform
  | none => .ok []

/-- `parse_reference`. -/
def parseReference (document : Document) (reference : Element)
    (allowedDigestAlgorithms : List DigestAlgorithm)
    (allowedC14nAlgorithms : List C14nAlgorithm) : Result ParsedReference := do
  let target ← resolveUri document ((reference.attr none "URI").getD [])
  let parsed ← parseTransforms reference
  let transforms := parsed.map Prod.fst
  checkTransforms transforms
  let c14n := (transforms.findSome? AllowedTransform.asC14nAlgorithm).getD .exclusiveCanonical
  if c14n ∉ allowedC14nAlgorithms then .error (.disallowedAlgorithm c14n.uri)
  else do
    let digestMethod ← okOr (reference.childElement (some DS_NS) "DigestMethod")
      (.signatureVerification "Reference missing DigestMethod")
    let digestAlgUri ← okOr (digestMethod.attr none "Algorithm")
      (.signatureVerification "DigestMethod missing Algorithm")
    let digestAlgorithm ← DigestAlgorithm.fromUri digestAlgUri
    if digestAlgorithm ∉ allowedDigestAlgorithms then
      .error (.disallowedAlgorithm digestAlgUri)
    else do
      let digestValueElem ← okOr (reference.childElement (some DS_NS) "DigestValue")
        (.signatureVerification "Reference missing DigestValue")
      let digestValue ← decodeBase64Lenient digestValueElem.textContent
      .ok ⟨target, transforms, digestAlgorithm, digestValue, (parsed.map Prod.snd).flatten⟩

/-- The elements on a path, without the one it leads to. -/
def chainTo (e : Element) : ElementPath → Option (List Element)
  | [] => some []
  | [_] => some [e]
  | i :: j :: rest =>
      match e.children[i]? with
      | some (.element child) => (chainTo child (j :: rest)).map (e :: ·)
      | _ => none

/-- `ancestor_chain`: root to parent of an element. -/
def ancestorChain (document : Document) (target : ElementId) : Option (List Element) :=
  (document.paths[target]?).bind (chainTo document.root)

mutual

/-- `clone_excluding_id`: copy an element without the descendant of a given
number. -/
def cloneExcludingId (excluded : ElementId) : Element → Element
  | ⟨qname, sourcePrefix, declared, attributes, children, id⟩ =>
      ⟨qname, sourcePrefix, declared, attributes, cloneChildren excluded children, id⟩

/-- Copy one child, unless it is the excluded element. -/
def cloneNode (excluded : ElementId) : Node → List Node
  | .element ⟨qname, sourcePrefix, declared, attributes, children, id⟩ =>
      if id = excluded then []
      else [.element
        (cloneExcludingId excluded ⟨qname, sourcePrefix, declared, attributes, children, id⟩)]
  | .text t => [.text t]
  | .comment c => [.comment c]

/-- Copy the children in order. -/
def cloneChildren (excluded : ElementId) : List Node → List Node
  | [] => []
  | child :: rest => cloneNode excluded child ++ cloneChildren excluded rest

end

/-- `compute_reference_digest`: the octets the digest of a reference covers. -/
def referenceOctets (document : Document) (parsed : ParsedReference)
    (enclosingSignature : ElementId) : Result Octets := do
  let target ← okOr (document.element parsed.target) .referenceResolution
  let chain ← okOr (ancestorChain document parsed.target) .referenceResolution
  let covered :=
    if .envelopedSignature ∈ parsed.transforms then cloneExcludingId enclosingSignature target
    else target
  C14n.canonicalize covered chain parsed.c14nAlgorithm parsed.inclusiveNamespacePrefixes

/-- `compute_reference_digest`. -/
def computeReferenceDigest (crypto : Primitives) (document : Document)
    (parsed : ParsedReference) (enclosingSignature : ElementId) : Result Octets :=
  (referenceOctets document parsed enclosingSignature).map (crypto.digest parsed.digestAlgorithm)

end Saml.Dsig
