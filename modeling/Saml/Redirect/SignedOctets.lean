import Saml.Redirect

/-!
# The octets a redirect signature covers

The decoder puts them together from the raw values of the last parameter of each
name. They hold the whole message: whatever else two queries contain, the same
octets are read as the same message in the same direction.
-/

namespace Saml.Redirect

open Crypto

variable {web : Web}

/-! ## Decoding by parameters -/

/-- What an accepted query is made of. -/
theorem decode_eq_ok_iff {query : Str} {direction : RedirectDirection}
    {decoded : DecodedRedirect} :
    decode web query direction = .ok decoded ↔
      ∃ saml, parameter query direction.paramName = some saml ∧
        decodePayload web saml = .ok decoded.xml ∧
        mapTranspose pctDecode (parameter query RELAY_STATE) = .ok decoded.relayState ∧
        mapTranspose pctDecode (parameter query SIG_ALG) = .ok decoded.sigAlg ∧
        mapTranspose decodeSignature (parameter query SIGNATURE) = .ok decoded.signature ∧
        decoded.signedQueryString = (parameter query SIGNATURE).map fun _ =>
          reconstruct direction.paramName saml (parameter query RELAY_STATE)
            (parameter query SIG_ALG) := by
  constructor
  · intro h
    obtain ⟨saml, hsaml, h⟩ := bind_eq_ok_iff.mp h
    obtain ⟨xml, hxml, h⟩ := bind_eq_ok_iff.mp h
    obtain ⟨relayState, hrelay, h⟩ := bind_eq_ok_iff.mp h
    obtain ⟨sigAlg, halg, h⟩ := bind_eq_ok_iff.mp h
    obtain ⟨signature, hsig, h⟩ := bind_eq_ok_iff.mp h
    obtain rfl := Except.ok.inj h
    exact ⟨saml, okOr_eq_ok_iff.mp hsaml, hxml, hrelay, halg, hsig, rfl⟩
  · rintro ⟨saml, hsaml, hxml, hrelay, halg, hsig, hsigned⟩
    refine bind_eq_ok_iff.mpr ⟨saml, okOr_eq_ok_iff.mpr hsaml, bind_eq_ok_iff.mpr ⟨_, hxml, ?_⟩⟩
    refine bind_eq_ok_iff.mpr ⟨_, hrelay, bind_eq_ok_iff.mpr ⟨_, halg, ?_⟩⟩
    refine bind_eq_ok_iff.mpr ⟨_, hsig, ?_⟩
    rw [← hsigned]

theorem paramName_injective {first second : RedirectDirection}
    (h : first.paramName = second.paramName) : first = second := by
  cases first <;> cases second <;> first | rfl | exact absurd h (by decide)

/-! ## The octets a signature covers -/

/-- The signed octets name the direction they were read in. -/
theorem direction_of_signed {query signedQs : Str} {direction other : RedirectDirection}
    {decoded : DecodedRedirect} (h : decode web query direction = .ok decoded)
    (hsigned : decoded.signedQueryString = some signedQs) {saml : Str}
    (hother : parameter signedQs other.paramName = some saml) : other = direction := by
  obtain ⟨value, hvalue, _, _, _, _, heq⟩ := decode_eq_ok_iff.mp h
  rw [hsigned] at heq
  obtain ⟨_, _, rfl⟩ := Option.map_eq_some_iff.mp heq.symm
  obtain ⟨hrelay, halg, _⟩ := names_distinct other
  rw [parameter_reconstruct direction (notMem_parameter hvalue)
    (fun _ hv => notMem_parameter hv) (fun _ hv => notMem_parameter hv), if_neg halg,
    if_neg hrelay] at hother
  by_contra hne
  rw [if_neg (fun heq => hne (paramName_injective heq))] at hother
  cases hother

/-- Two accepted queries with the same signed octets carry the same message. -/
theorem signed_octets_determine {first second signedQs : Str}
    {direction otherDirection : RedirectDirection} {decoded other : DecodedRedirect}
    (hfirst : decode web first direction = .ok decoded)
    (hsecond : decode web second otherDirection = .ok other)
    (signedFirst : decoded.signedQueryString = some signedQs)
    (signedSecond : other.signedQueryString = some signedQs) :
    direction = otherDirection ∧ decoded.xml = other.xml ∧
      decoded.relayState = other.relayState ∧ decoded.sigAlg = other.sigAlg := by
  have hread := decode_signedQueryString hfirst signedFirst
  have hreadOther := decode_signedQueryString hsecond signedSecond
  obtain ⟨saml, hsaml, _⟩ := decode_eq_ok_iff.mp hread
  obtain rfl := direction_of_signed hsecond signedSecond hsaml
  have hsame := Except.ok.inj (hread.symm.trans hreadOther)
  simp only [DecodedRedirect.mk.injEq] at hsame
  exact ⟨rfl, hsame.1, hsame.2.1, hsame.2.2.2.1⟩

/-- Decoding looks at the parameters of the binding alone. -/
theorem decode_congr {query other : Str} {direction : RedirectDirection}
    (h : ∀ key ∈ [direction.paramName, RELAY_STATE, SIG_ALG, SIGNATURE],
      parameter query key = parameter other key) :
    decode web query direction = decode web other direction := by
  simp only [List.forall_mem_cons] at h
  obtain ⟨hsaml, hrelay, halg, hsig, _⟩ := h
  unfold decode
  simp only [hsaml, hrelay, halg, hsig]

/-- A parameter of another name before a query does not count. -/
theorem decode_padded (query : Str) :
    decode web (withLead (some "x=1") query) .request = decode web query .request := by
  apply decode_congr
  intro key hkey
  have hnone : parameter ("x=1" : Str) key = none := by
    revert key
    decide
  rw [parameter_withLead, Option.bind_some, hnone, Option.or_none]

/-- A signature that repeats the octets it is over. -/
def repeating (octets : Octets) : Result Octets := .ok octets

/-- A signed query, and one with a parameter of its own before it. -/
theorem signed_octets_determine_padded :
    ∃ (first second signedQs : Str) (decoded other : DecodedRedirect), first ≠ second ∧
      decode Transparent.storedWeb first .request = .ok decoded ∧
      decode Transparent.storedWeb second .request = .ok other ∧
      decoded.signedQueryString = some signedQs ∧ other.signedQueryString = some signedQs ∧
      decoded.xml = other.xml := by
  have hquery : ∃ query, signedQueryOf Transparent.storedWeb .request [60, 97, 47, 62] none
      "urn:alg" repeating = .ok query :=
    ⟨_, bind_eq_ok_iff.mpr ⟨_, Transparent.deflateAndBase64_stored (by decide), rfl⟩⟩
  obtain ⟨query, hquery⟩ := hquery
  obtain ⟨signedQs, signature, _, hfirst⟩ := @decode_signed Transparent.storedWeb
    Transparent.inflates .request _ none none "urn:alg" query repeating (by decide) hquery
    fun _ => rfl
  have hsecond := (decode_padded query).trans hfirst
  refine ⟨query, withLead (some "x=1") query, signedQs, _, _, ?_, hfirst, hsecond, rfl, rfl,
    (signed_octets_determine hfirst hsecond rfl rfl).2.1⟩
  intro heq
  have hlength := congrArg List.length heq
  simp [withLead] at hlength
  omega

end Saml.Redirect
