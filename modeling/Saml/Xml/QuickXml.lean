import Saml.Xml.Tree
import Mathlib.Data.List.TakeWhile

/-!
# The event reader

`quick_xml` is not part of the repository. Its reader and its unescaper enter
the model as parameters; only the small name helpers the parser calls are
written out.
-/

namespace Saml.Xml

/-- An attribute as written: key and still escaped value. -/
structure RawAttribute where
  key : Str
  value : Str
deriving DecidableEq, Repr

/-- A start tag: its raw name and what the checked attribute iterator yields. -/
structure BytesStart where
  name : Str
  attributes : List (Except Str RawAttribute)

/-- The events of `quick_xml::Reader::read_event`, end of input left out. -/
inductive Event where
  | start (s : BytesStart)
  | empty (s : BytesStart)
  | endTag (name : Str)
  | text (t : Str)
  | generalRef (name : Str)
  | cData (t : Str)
  | comment (t : Str)
  | decl
  | docType
  | pi

/-- The third-party functions of the parser: the configured event reader, whose
error items stand for `read_event` errors and undecodable octets, and
`quick_xml::escape::unescape`. -/
structure QuickXml where
  readEvents : Octets → List (Except Str Event)
  unescape : Str → Except Str Str

namespace QxQName

/-- `QName::decompose`: local part and prefix, cut at the first colon. -/
def decompose (name : Str) : Str × Option Str :=
  match name.dropWhile (· != ':') with
  | _ :: loc => (loc, some (name.takeWhile (· != ':')))
  | [] => (name, none)

/-- `QName::as_namespace_binding`: the prefix an `xmlns` attribute declares. -/
def asNamespaceBinding (key : Str) : Option (Option Str) :=
  match key with
  | 'x' :: 'm' :: 'l' :: 'n' :: 's' :: rest =>
      match rest with
      | [] => some none
      | ':' :: pfx => some (some pfx)
      | _ => none
  | _ => none

@[simp] theorem decompose_prefixed {pfx : Str} (loc : Str) (h : ':' ∉ pfx) :
    decompose (pfx ++ ':' :: loc) = (loc, some pfx) := by
  have hall : ∀ c ∈ pfx, (c != ':') = true := by
    intro c hc
    simp only [bne_iff_ne]
    rintro rfl
    exact h hc
  simp [decompose, List.dropWhile_append_of_pos hall, List.takeWhile_append_of_pos hall]

@[simp] theorem decompose_unprefixed {loc : Str} (h : ':' ∉ loc) :
    decompose loc = (loc, none) := by
  have hnil : loc.dropWhile (· != ':') = [] := by
    rw [List.dropWhile_eq_nil_iff]
    intro c hc
    simp only [bne_iff_ne]
    rintro rfl
    exact h hc
  simp [decompose, hnil]

end QxQName

end Saml.Xml
