import Saml.Text
import Mathlib.Data.List.Forall2

/-!
# Errors

The variants of the crate's error type that the modelled functions return,
with the texts and fields they carry; durations in nanoseconds.
-/

namespace Saml

/-- The SAML protocol bindings (`binding::Binding`). -/
inductive Binding where
  | httpRedirect
  | httpPost
  | httpArtifact
  | soap
deriving DecidableEq, Repr

/-- The crate's error type. -/
inductive Error where
  | xmlParse (message : Str)
  | xmlEmit (message : Str)
  | base64Decode
  | inflate
  | schemaViolation (element reason : Str)
  | signatureVerification (reason : Str)
  | signatureMissing
  | disallowedAlgorithm (alg : Str)
  | disallowedTransform (transform : Str)
  | referenceResolution
  | x509Parse
  | decryptFailed (reason : Str)
  | issuerMismatch (expected : Str) (got : Option Str)
  | destinationMismatch
  | inResponseToMismatch
  | audienceMismatch
  | notYetValid
  | expired
  | recipientMismatch
  | holderOfKeyConfirmation (reason : Str)
  | statusNotSuccess (code : Str) (message : Option Str)
  | unsolicitedNotAllowed
  | authnContextDowngrade
  | unsupportedByPeer (binding : Binding)
  | idpTrustRootMismatch
  | oneTimeUseUnenforceable
  | unsupportedNameIdPolicy (requested : Str)
  | nameIdSpQualifierMismatch (expected got : Str)
  | responseBindingMismatch (expected received : Binding)
  | invalidConfiguration (reason : Str)
  | assertionReplay
  | replayCacheFull
  | replayCache (reason : Str)
  | staleAuthnRequest (ageNanos limitNanos : Nat)
  | authnRequestNotYetValid (aheadNanos clockSkewNanos : Nat)
  | soapFault (faultcode : Str) (faultstring : Option Str)
  | http (reason : Str)
  | unregisteredAcs (entityId : Str)
  | illegalResponseBinding (requested : Binding)
  | foreignProxyFlow
  | noPeerSigningCert
  | upstreamTrustRootMismatch
  | spKeyMaterialMismatch
  | artifactTransactionRequired
  | proxyTransactionReplay
  | malformedArtifact (reason : Str)
  | artifactSpTrustRootMismatch
  | artifactResolveReplay
  | nameIdFormatMismatch (expected got : Str)
  | ecpAcsUrlMismatch (responseConsumerUrl assertionConsumerServiceUrl soapFault : Str)
  | ecpMessageIdMismatch
  | ecpMissingPaosHeader (header : Str)
  | ecpDuplicatePaosHeader (header : Str)
  | discoveryRequestMalformed (reason : Str)
  | discoveryResponseMalformed (reason : Str)
  | discoveryReturnUrlNotRegistered (returnUrl : Str)
  | commonDomainCookieMalformed (reason : Str)
deriving DecidableEq, Repr

/-- The outcome of a fallible function of the crate. -/
abbrev Result (α : Type) := Except Error α

/-- `Option::ok_or`. -/
def okOr {α : Type} (o : Option α) (err : Error) : Result α :=
  match o with
  | some a => .ok a
  | none => .error err

@[simp] theorem okOr_some {α : Type} (a : α) (err : Error) : okOr (some a) err = .ok a := rfl

@[simp] theorem okOr_none {α : Type} (err : Error) : okOr (none : Option α) err = .error err := rfl

theorem okOr_eq_ok_iff {α : Type} {o : Option α} {err : Error} {a : α} :
    okOr o err = .ok a ↔ o = some a := by
  cases o <;> simp [okOr]

theorem okOr_map {α β : Type} (o : Option α) (f : α → β) (err : Error) :
    okOr (o.map f) err = (okOr o err).map f := by
  cases o <;> rfl

/-- `Option::transpose` after `map`: run a fallible function under an option. -/
def mapTranspose {α β : Type} (f : α → Result β) : Option α → Result (Option β)
  | none => .ok none
  | some a => (f a).map some

theorem mapTranspose_eq_ok_iff {α β : Type} {f : α → Result β} {o : Option α} {r : Option β} :
    mapTranspose f o = .ok r ↔
      (o = none ∧ r = none) ∨ ∃ a b, o = some a ∧ f a = .ok b ∧ r = some b := by
  cases o with
  | none => simp [mapTranspose, eq_comm]
  | some a =>
      cases h : f a with
      | error err => simp [mapTranspose, h, Except.map]
      | ok b => simp [mapTranspose, h, Except.map, eq_comm]

theorem mapTranspose_some_ok {α β : Type} {f : α → Result β} {a : α} {r : Option β}
    (h : mapTranspose f (some a) = .ok r) : ∃ b, f a = .ok b ∧ r = some b := by
  obtain ⟨hnone, _⟩ | ⟨_, b, ha, hb, hr⟩ := mapTranspose_eq_ok_iff.mp h
  · cases hnone
  · exact ⟨b, Option.some.inj ha ▸ hb, hr⟩

/-- A successful `?` chain splits at its first step. -/
theorem bind_eq_ok_iff {α β : Type} {x : Result α} {f : α → Result β} {b : β} :
    (x >>= f) = .ok b ↔ ∃ a, x = .ok a ∧ f a = .ok b := by
  cases x <;> simp [bind, Except.bind]

theorem ok_bind {α β : Type} (a : α) (f : α → Result β) : (Except.ok a >>= f) = f a := rfl

theorem bind_of_map {α β γ : Type} (x : Result α) (f : α → β) (g : β → Result γ) :
    (x.map f >>= g) = x >>= fun a => g (f a) := by
  cases x <;> rfl

theorem mapM_singleton {α β : Type} (f : α → Result β) (a : α) :
    [a].mapM f = (do
      let b ← f a
      .ok [b]) := by
  rw [List.mapM_cons, List.mapM_nil]
  rfl

theorem bind_of_ok {α β : Type} {x : Result α} {a : α} (h : x = .ok a) (f : α → Result β) :
    (x >>= f) = f a := by
  rw [h]
  rfl

theorem exists_bind_ok {α β : Type} {x : Result α} {f : α → Result β} {a : α} (hx : x = .ok a)
    (hf : ∃ b, f a = .ok b) : ∃ b, (x >>= f) = .ok b := by
  obtain ⟨b, hb⟩ := hf
  exact ⟨b, bind_eq_ok_iff.mpr ⟨a, hx, hb⟩⟩

/-- An `if` that returns an error succeeds only on its other branch. -/
theorem ite_error_eq_ok_iff {α : Type} {p : Prop} [Decidable p] {err : Error} {x : Result α}
    {a : α} : (if p then .error err else x) = .ok a ↔ ¬ p ∧ x = .ok a := by
  split <;> simp_all

/-- A fallible function along a list succeeds when it succeeds on every entry. -/
theorem mapM_eq_ok_iff {α β : Type} {f : α → Result β} {l : List α} {r : List β} :
    l.mapM f = .ok r ↔ List.Forall₂ (fun a b => f a = .ok b) l r := by
  induction l generalizing r with
  | nil =>
      rw [List.mapM_nil, List.forall₂_nil_left_iff]
      exact ⟨fun h => (Except.ok.inj h).symm, fun h => h ▸ rfl⟩
  | cons a rest ih =>
      rw [List.mapM_cons, List.forall₂_cons_left_iff, bind_eq_ok_iff]
      refine exists_congr fun b => ⟨?_, ?_⟩
      · rintro ⟨hb, h⟩
        obtain ⟨others, hothers, h⟩ := bind_eq_ok_iff.mp h
        exact ⟨others, hb, ih.mp hothers, (Except.ok.inj h).symm⟩
      · rintro ⟨others, hb, hothers, rfl⟩
        exact ⟨hb, bind_eq_ok_iff.mpr ⟨others, ih.mpr hothers, rfl⟩⟩

theorem exists_mapM_ok {α β : Type} {f : α → Result β} {l : List α}
    (h : ∀ a ∈ l, ∃ b, f a = .ok b) : ∃ r, l.mapM f = .ok r := by
  induction l with
  | nil => exact ⟨[], rfl⟩
  | cons a rest ih =>
      obtain ⟨b, hb⟩ := h a List.mem_cons_self
      obtain ⟨others, hothers⟩ := ih fun c hc => h c (List.mem_cons_of_mem a hc)
      rw [mapM_eq_ok_iff] at hothers
      exact ⟨b :: others, mapM_eq_ok_iff.mpr (.cons hb hothers)⟩

theorem mem_of_mapM_ok {α β : Type} {f : α → Result β} {l : List α} {r : List β}
    (h : l.mapM f = .ok r) {b : β} (hb : b ∈ r) : ∃ a ∈ l, f a = .ok b := by
  rw [mapM_eq_ok_iff] at h
  induction h with
  | nil => cases hb
  | cons hab _ ih =>
      rcases List.mem_cons.mp hb with rfl | hb
      · exact ⟨_, List.mem_cons_self, hab⟩
      · obtain ⟨a, ha, hf⟩ := ih hb
        exact ⟨a, List.mem_cons_of_mem _ ha, hf⟩

theorem mapM_congr_map {α β γ : Type} {f : α → Result γ} {g : β → Result γ} {l : List α}
    {l' : List β} (h : l.map f = l'.map g) : l.mapM f = l'.mapM g := by
  have hf : l.mapM f = (l.map f).mapM id := by rw [List.mapM_map]; rfl
  have hg : l'.mapM g = (l'.map g).mapM id := by rw [List.mapM_map]; rfl
  rw [hf, hg, h]

theorem mem_mapM_ok {α β : Type} {f : α → Result β} {l : List α} {r : List β}
    (h : l.mapM f = .ok r) {a : α} {b : β} (ha : a ∈ l) (hb : f a = .ok b) : b ∈ r := by
  rw [mapM_eq_ok_iff] at h
  induction h with
  | nil => cases ha
  | @cons c d rest others hcd _ ih =>
    rcases List.mem_cons.mp ha with rfl | ha
    · rw [hcd] at hb
      exact Except.ok.inj hb ▸ List.mem_cons_self
    · exact List.mem_cons_of_mem _ (ih ha)

theorem exists_of_map_ok {ε α β : Type} {f : α → β} {x : Except ε α} {b : β}
    (h : x.map f = .ok b) : ∃ a, x = .ok a ∧ f a = b := by
  cases x with
  | error err => cases h
  | ok a => exact ⟨a, rfl, Except.ok.inj h⟩

theorem ok_of_toOption {α : Type} {x : Result α} {a : α} (h : x.toOption = some a) :
    x = .ok a := by
  cases x with
  | ok b => exact congrArg Except.ok (Option.some.inj h)
  | error err => cases h

/-- A computation that succeeds has a value. -/
theorem exists_of_isOk {α : Type} {x : Result α} (h : x.isOk = true) : ∃ a, x = .ok a := by
  cases x with
  | ok a => exact ⟨a, rfl⟩
  | error err => cases h

end Saml
