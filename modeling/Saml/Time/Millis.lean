import Saml.Time.Written

/-!
# Instants cut down to the millisecond

An instant is written with three digits of a second, so a reader sees it cut
down to the millisecond.
-/

namespace Saml

/-- The nanoseconds of a millisecond. -/
def MILLI : Int := 1000000

/-- An instant cut down to the millisecond. -/
def SystemTime.millis (t : SystemTime) : SystemTime where
  nanos := t.nanos - t.nanos % MILLI
  inRange := by
    obtain ⟨hlow, hhigh⟩ := t.inRange
    rw [show (NANOS : Int) = 1000000000 from rfl] at *
    rw [MILLI]
    omega

/-- An instant before the year 10000. -/
def SystemTime.Dated (t : SystemTime) : Prop :=
  t.nanos < (Time.LAST_DAY + 1) * 86400 * NANOS

namespace Time

/-- What is written of an instant is read as the instant cut down to the
millisecond. -/
theorem parse_of_format {t : SystemTime} {v : Str} (hdated : t.Dated)
    (hformat : formatXsDatetime t = .ok v) : parseXsDatetime v = .ok t.millis := by
  obtain ⟨hepoch, -⟩ := ite_error_eq_ok_iff.mp hformat
  obtain ⟨w, u, hw, hu⟩ := exists_formatXsDatetime (by omega) hdated
  obtain rfl : w = v := Except.ok.inj (hw.symm.trans hformat)
  rw [hu]
  exact congrArg Except.ok
    (SystemTime.nanos_injective (parseXsDatetime_formatXsDatetime hformat hu))

theorem mapTranspose_parse_of_format {t : Option SystemTime} {v : Option Str}
    (hdated : ∀ u ∈ t, u.Dated) (hformat : mapTranspose formatXsDatetime t = .ok v) :
    mapTranspose parseXsDatetime v = .ok (t.map SystemTime.millis) := by
  rcases mapTranspose_eq_ok_iff.mp hformat with ⟨rfl, rfl⟩ | ⟨u, w, rfl, hw, rfl⟩
  · rfl
  · rw [mapTranspose, parse_of_format (hdated u rfl) hw]
    rfl

end Time

end Saml
