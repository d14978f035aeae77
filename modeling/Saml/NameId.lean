import Saml.Error
import Mathlib.Data.List.Nodup

/-!
# Name identifiers and attributes

`nameid` and `attribute`: the values an assertion carries about its subject.
-/

namespace Saml

/-- Look a URI up among the standard values, falling back to a custom one. -/
def fromStandardUri {α : Type} (asUri : α → Str) (standard : List α) (custom : Str → α)
    (uri : Str) : α :=
  (standard.find? fun a => asUri a = uri).getD (custom uri)

theorem asUri_fromStandardUri {α : Type} {asUri : α → Str} {standard : List α}
    {custom : Str → α} (hcustom : ∀ uri, asUri (custom uri) = uri) (uri : Str) :
    asUri (fromStandardUri asUri standard custom uri) = uri := by
  unfold fromStandardUri
  cases h : standard.find? fun a => asUri a = uri with
  | none => exact hcustom uri
  | some a => simpa using List.find?_some h

theorem fromStandardUri_asUri {α : Type} {asUri : α → Str} {standard : List α}
    {custom : Str → α} {a : α} (mem : a ∈ standard)
    (inj : ∀ b ∈ standard, asUri b = asUri a → b = a) :
    fromStandardUri asUri standard custom (asUri a) = a := by
  unfold fromStandardUri
  cases h : standard.find? fun b => asUri b = asUri a with
  | none => exact absurd (List.find?_eq_none.mp h a mem) (by simp)
  | some b =>
      exact inj b (List.mem_of_find?_eq_some h) (by simpa using List.find?_some h)

/-- Formats of a name identifier. -/
inductive NameIdFormat where
  | unspecified
  | emailAddress
  | x509SubjectName
  | windowsDomainQualifiedName
  | kerberos
  | entity
  | persistent
  | transient
  | custom (uri : Str)
deriving DecidableEq, Repr

namespace NameIdFormat

/-- The formats with a URI of their own. -/
def STANDARD : List NameIdFormat :=
  [.unspecified, .emailAddress, .x509SubjectName, .windowsDomainQualifiedName, .kerberos,
    .entity, .persistent, .transient]

def uriText : NameIdFormat → String
  | .unspecified => "urn:oasis:names:tc:SAML:1.1:nameid-format:unspecified"
  | .emailAddress => "urn:oasis:names:tc:SAML:1.1:nameid-format:emailAddress"
  | .x509SubjectName => "urn:oasis:names:tc:SAML:1.1:nameid-format:X509SubjectName"
  | .windowsDomainQualifiedName =>
      "urn:oasis:names:tc:SAML:1.1:nameid-format:WindowsDomainQualifiedName"
  | .kerberos => "urn:oasis:names:tc:SAML:2.0:nameid-format:kerberos"
  | .entity => "urn:oasis:names:tc:SAML:2.0:nameid-format:entity"
  | .persistent => "urn:oasis:names:tc:SAML:2.0:nameid-format:persistent"
  | .transient => "urn:oasis:names:tc:SAML:2.0:nameid-format:transient"
  | .custom uri => String.ofList uri

/-- `NameIdFormat::as_uri`. -/
def asUri (format : NameIdFormat) : Str := format.uriText

/-- `NameIdFormat::from_uri`. -/
def fromUri : Str → NameIdFormat := fromStandardUri asUri STANDARD custom

theorem asUri_fromUri (uri : Str) : (fromUri uri).asUri = uri :=
  @asUri_fromStandardUri _ asUri STANDARD custom (fun _ => String.toList_ofList) uri

theorem nodup_standard : (STANDARD.map uriText).Nodup := by
  simp only [STANDARD, uriText, List.map_cons, List.map_nil, List.nodup_cons, List.mem_cons,
    String.reduceEq, List.not_mem_nil, or_self, not_false_eq_true, List.nodup_nil, and_self]

theorem fromUri_asUri {format : NameIdFormat} (h : format ∈ STANDARD) :
    fromUri format.asUri = format :=
  fromStandardUri_asUri h fun _ hother heq =>
    List.inj_on_of_nodup_map nodup_standard hother h (String.toList_injective heq)

end NameIdFormat

/-- A `saml:NameID`: its value and its qualifiers. -/
structure NameId where
  value : Str
  format : NameIdFormat
  nameQualifier : Option Str
  spNameQualifier : Option Str
  spProvidedId : Option Str
deriving DecidableEq, Repr

/-- A `saml:Attribute`: its names and its values. -/
structure SamlAttribute where
  name : Str
  nameFormat : Option Str
  friendlyName : Option Str
  values : List Str
deriving DecidableEq, Repr

end Saml
