import Saml.NameId

/-!
# Authentication context

`authn_context`: the class references, their strength order, and the comparator
that decides whether an actual class satisfies a request.
-/

namespace Saml

inductive AuthnContextComparison where
  | exact
  | minimum
  | maximum
  | better
deriving DecidableEq, Repr

inductive AuthnContextClassRef where
  | password
  | passwordProtectedTransport
  | tlsClient
  | smartcard
  | smartcardPki
  | kerberos
  | previousSession
  | unspecified
  | multiFactorAuth
  | timeSyncToken
  | custom (uri : Str)
deriving DecidableEq, Repr

namespace AuthnContextClassRef

/-- The classes with a URI of their own. -/
def STANDARD : List AuthnContextClassRef :=
  [.password, .passwordProtectedTransport, .tlsClient, .smartcard, .smartcardPki, .kerberos,
    .previousSession, .unspecified, .multiFactorAuth, .timeSyncToken]

def uriText : AuthnContextClassRef → String
  | .password => "urn:oasis:names:tc:SAML:2.0:ac:classes:Password"
  | .passwordProtectedTransport =>
      "urn:oasis:names:tc:SAML:2.0:ac:classes:PasswordProtectedTransport"
  | .tlsClient => "urn:oasis:names:tc:SAML:2.0:ac:classes:TLSClient"
  | .smartcard => "urn:oasis:names:tc:SAML:2.0:ac:classes:Smartcard"
  | .smartcardPki => "urn:oasis:names:tc:SAML:2.0:ac:classes:SmartcardPKI"
  | .kerberos => "urn:oasis:names:tc:SAML:2.0:ac:classes:Kerberos"
  | .previousSession => "urn:oasis:names:tc:SAML:2.0:ac:classes:PreviousSession"
  | .unspecified => "urn:oasis:names:tc:SAML:2.0:ac:classes:unspecified"
  | .multiFactorAuth => "urn:oasis:names:tc:SAML:2.0:ac:classes:MultiFactorAuthentication"
  | .timeSyncToken => "urn:oasis:names:tc:SAML:2.0:ac:classes:TimeSyncToken"
  | .custom uri => String.ofList uri

/-- `AuthnContextClassRef::as_uri`. -/
def asUri (classRef : AuthnContextClassRef) : Str := classRef.uriText

/-- `AuthnContextClassRef::from_uri`. -/
def fromUri : Str → AuthnContextClassRef := fromStandardUri asUri STANDARD custom

theorem asUri_fromUri (uri : Str) : (fromUri uri).asUri = uri :=
  @asUri_fromStandardUri _ asUri STANDARD custom (fun _ => String.toList_ofList) uri

theorem nodup_standard : (STANDARD.map uriText).Nodup := by
  simp only [STANDARD, uriText, List.map_cons, List.map_nil, List.nodup_cons, List.mem_cons,
    String.reduceEq, List.not_mem_nil, or_self, not_false_eq_true, List.nodup_nil, and_self]

theorem fromUri_asUri {classRef : AuthnContextClassRef} (h : classRef ∈ STANDARD) :
    fromUri classRef.asUri = classRef :=
  fromStandardUri_asUri h fun _ hother heq =>
    List.inj_on_of_nodup_map nodup_standard hother h (String.toList_injective heq)

/-- `class_ref_strength`: custom classes have no place in the order. -/
def strength : AuthnContextClassRef → Option Nat
  | .unspecified => some 0
  | .previousSession => some 1
  | .password => some 2
  | .passwordProtectedTransport => some 3
  | .timeSyncToken => some 4
  | .kerberos | .tlsClient => some 5
  | .smartcard => some 6
  | .smartcardPki => some 7
  | .multiFactorAuth => some 8
  | .custom _ => none

end AuthnContextClassRef

/-- A request for an authentication context. -/
structure RequestedAuthnContext where
  classRefs : List AuthnContextClassRef
  comparison : AuthnContextComparison

inductive ComparatorOutcome where
  | satisfied
  | notSatisfied
  | notComparable
deriving DecidableEq, Repr

namespace StandardComparator

/-- The outcome of a decided comparison. -/
def decided (holds : Bool) : ComparatorOutcome := if holds then .satisfied else .notSatisfied

/-- `StandardComparator::evaluate`: an exact request compares URIs; the others
need a place in the strength order for the actual and every requested class. -/
def evaluate (requested : RequestedAuthnContext) (actualUri : Str) : ComparatorOutcome :=
  match requested.comparison with
  | .exact => decided (requested.classRefs.any fun c => c.asUri == actualUri)
  | comparison =>
      match (AuthnContextClassRef.fromUri actualUri).strength,
        requested.classRefs.mapM AuthnContextClassRef.strength with
      | some actual, some (first :: rest) =>
          let minReq := rest.foldl min first
          let maxReq := rest.foldl max first
          decided <|
            match comparison with
            | .exact => false
            | .minimum => decide (minReq ≤ actual)
            | .maximum => decide (actual ≤ maxReq)
            | .better => decide (maxReq < actual)
      | _, _ => .notComparable

end StandardComparator

end Saml
