import Saml.Error

/-!
# Randomness

The operating system's random octets enter the model as draws that either fail
or have the length that was asked for.
-/

namespace Saml

/-- The outcome of filling a buffer of a given length (`try_fill_bytes`). -/
abbrev Draw (n : Nat) := Option { octets : Octets // octets.length = n }

/-- Two lowercase hexadecimal digits (`{:02x}`). -/
def hexOctet (b : UInt8) : Str := [Nat.digitChar (b.toNat / 16), Nat.digitChar (b.toNat % 16)]

/-- `random_xml_id`: an underscore and sixteen random octets in hexadecimal. -/
def randomXmlId (draw : Draw 16) : Result Str := do
  let bytes ← okOr draw (.invalidConfiguration "RNG failure generating random XML ID")
  .ok ('_' :: bytes.val.flatMap hexOctet)

theorem randomXmlId_ok {draw : Draw 16} {id : Str} (h : randomXmlId draw = .ok id) :
    ∃ bytes, draw = some bytes ∧ id = '_' :: bytes.val.flatMap hexOctet := by
  obtain ⟨bytes, hbytes, h⟩ := bind_eq_ok_iff.mp h
  exact ⟨bytes, okOr_eq_ok_iff.mp hbytes, (Except.ok.inj h).symm⟩

end Saml
