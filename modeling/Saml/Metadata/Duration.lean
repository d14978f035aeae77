import Saml.Metadata.Parse
import Saml.Numeral

/-!
# Durations

The texts that `parse_xs_duration` accepts, and the seconds-only form that
`format_cache_duration` writes.
-/

namespace Saml

namespace Metadata

open Number

namespace Slot

/-- The designator of a component. -/
def designator : Slot → Char
  | .days => 'D'
  | .hours => 'H'
  | .minutes => 'M'
  | .seconds => 'S'

/-- Whether a component stands behind the `T`. -/
def afterT : Slot → Bool
  | .days => false
  | _ => true

theorem ofDesignator_eq_some_iff {t : Bool} {c : Char} {slot : Slot} :
    ofDesignator t c = some slot ↔ t = slot.afterT ∧ c = slot.designator := by
  constructor
  · intro h
    unfold ofDesignator at h
    split at h <;> cases h <;> exact ⟨rfl, rfl⟩
  · rintro ⟨rfl, rfl⟩
    cases slot <;> rfl

theorem eq_of_rank_eq {a b : Slot} (h : a.rank = b.rank) : a = b := by
  cases a <;> cases b <;> first | rfl | cases h

end Slot

namespace DurationScan

/-- The least place that the next component may have. -/
def floor (scan : DurationScan) : Nat := (scan.lastSlot.map (·.rank + 1)).getD 0

/-- What the loop reads from a text when the next component has at least the
place `low`. -/
inductive Reads : Nat → DurationScan → Str → DurationScan → Prop
  | done {low : Nat} {scan : DurationScan} : Reads low scan [] scan
  | mark {low : Nat} {scan out : DurationScan} {rest : Str} : scan.afterT = false → rest ≠ [] →
      Reads low { scan with afterT := true } rest out → Reads low scan ('T' :: rest) out
  | component {low : Nat} {scan out : DurationScan} (slot : Slot) {digits rest : Str} :
      low ≤ slot.rank → slot.afterT = scan.afterT → digits ≠ [] →
      (∀ c ∈ digits, c.isDigit = true) → Nat.ofDigitChars 10 digits 0 < 2 ^ 64 →
      Reads (slot.rank + 1) (scan.assign slot (Nat.ofDigitChars 10 digits 0)) rest out →
      Reads low scan (digits ++ slot.designator :: rest) out

theorem floor_assign (scan : DurationScan) (slot : Slot) (value : Nat) :
    (scan.assign slot value).floor = slot.rank + 1 := by
  cases slot <;> rfl

theorem afterT_assign (scan : DurationScan) (slot : Slot) (value : Nat) :
    (scan.assign slot value).afterT = scan.afterT := by
  cases slot <;> rfl

theorem blocked_iff {scan : DurationScan} {slot : Slot} :
    scan.lastSlot.any (slot.rank ≤ Slot.rank ·) = true ↔ slot.rank < scan.floor := by
  unfold floor
  cases scan.lastSlot <;> simp [Nat.lt_succ_iff]

/-- One component is read exactly when it has a place and a value in range. -/
theorem component_eq_ok_iff {scan out : DurationScan} {digits : Str} {c : Char}
    (hs : ∀ c ∈ digits, c.isDigit = true) (hne : digits ≠ []) :
    scan.component digits c = .ok out ↔ ∃ slot : Slot, scan.floor ≤ slot.rank ∧
      slot.afterT = scan.afterT ∧ c = slot.designator ∧ Nat.ofDigitChars 10 digits 0 < 2 ^ 64 ∧
      out = scan.assign slot (Nat.ofDigitChars 10 digits 0) := by
  unfold component
  constructor
  · intro h
    split at h
    · cases h
    next value hvalue =>
      obtain ⟨hlt, rfl⟩ := (parseU64_digits_iff hs hne).mp hvalue
      split at h
      · cases h
      next slot hslot =>
        obtain ⟨hafter, hc⟩ := Slot.ofDesignator_eq_some_iff.mp hslot
        split at h
        · cases h
        next hblocked =>
          rw [blocked_iff, Nat.not_lt] at hblocked
          exact ⟨slot, hblocked, hafter.symm, hc, hlt, (Except.ok.inj h).symm⟩
  · rintro ⟨slot, hfloor, hafter, rfl, hlt, rfl⟩
    rw [(parseU64_digits_iff hs hne).mpr ⟨hlt, rfl⟩]
    dsimp only
    rw [Slot.ofDesignator_eq_some_iff.mpr ⟨hafter.symm, rfl⟩]
    dsimp only
    rw [if_neg (by rw [blocked_iff]; omega)]
    rfl

/-- A digit that is followed by a run of digits and a designator. -/
theorem read_run {scan : DurationScan} {c designator : Char} {rest after : Str}
    (hc : c.isDigit = true)
    (hdrop : rest.dropWhile (digit · |>.isSome) = designator :: after) :
    scan.read (c :: rest) =
      match scan.component (c :: rest.takeWhile (digit · |>.isSome)) designator with
      | .error err => .error err
      | .ok next => read next after := by
  have hT : c ≠ 'T' := by
    rintro rfl
    cases hc
  have hsome : ¬ (digit c).isNone = true := by
    rw [Option.isNone_iff_eq_none, digit_of_isDigit hc]
    exact Option.some_ne_none _
  rw [read, if_neg hT, if_neg hsome]
  split
  next hnil =>
    rw [hdrop] at hnil
    cases hnil
  next hcons =>
    rw [hdrop] at hcons
    cases hcons
    rfl

theorem read_component (scan : DurationScan) {digits rest : Str} {c : Char}
    (hs : ∀ c ∈ digits, c.isDigit = true) (hne : digits ≠ []) (hc : c.isDigit = false) :
    scan.read (digits ++ c :: rest) =
      match scan.component digits c with
      | .error err => .error err
      | .ok next => read next rest := by
  obtain ⟨d, digits, rfl⟩ := List.exists_cons_of_ne_nil hne
  have hdigits : ∀ c ∈ digits, (digit c).isSome = true :=
    fun c hc => digit_isSome_iff.mpr (hs c (List.mem_cons_of_mem _ hc))
  have hcn : ¬ (digit c).isSome = true := by simp [digit_isSome_iff, hc]
  have htake : (digits ++ c :: rest).takeWhile (digit · |>.isSome) = digits := by
    rw [List.takeWhile_append_of_pos hdigits, List.takeWhile_cons_of_neg (by exact hcn),
      List.append_nil]
  have hdrop : (digits ++ c :: rest).dropWhile (digit · |>.isSome) = c :: rest := by
    rw [List.dropWhile_append_of_pos hdigits, List.dropWhile_cons_of_neg (by exact hcn)]
  rw [List.cons_append, read_run (hs d (List.mem_cons_self ..)) hdrop, htake]

/-- The loop reads exactly the texts made of components in order. -/
theorem read_eq_ok_iff {scan out : DurationScan} {text : Str} :
    scan.read text = .ok out ↔ Reads scan.floor scan text out := by
  constructor
  · intro h
    induction scan, text using read.induct with
    | case1 scan =>
      rw [read] at h
      cases h
      exact .done
    | case2 scan rest hbad =>
      rw [read, if_pos rfl, if_pos hbad] at h
      cases h
    | case3 scan rest hgood ih =>
      rw [read, if_pos rfl, if_neg hgood] at h
      obtain ⟨hafter, hne⟩ := not_or.mp hgood
      exact .mark (Bool.eq_false_iff.mpr hafter) hne (ih h)
    | case4 scan c rest hT hdigit =>
      rw [read, if_neg hT, if_pos hdigit] at h
      cases h
    | case5 scan c rest hT hdigit hdrop =>
      rw [read, if_neg hT, if_neg hdigit] at h
      split at h
      · cases h
      next hdrop' =>
        rw [hdrop] at hdrop'
        cases hdrop'
    | case6 scan c rest hT hdigit designator after hdrop err herr =>
      rw [read_run (isDigit_of_not_isNone hdigit) hdrop, herr] at h
      cases h
    | case7 scan c rest hT hdigit designator after hdrop next hnext ih =>
      have hc := isDigit_of_not_isNone hdigit
      rw [read_run hc hdrop, hnext] at h
      have hs : ∀ d ∈ c :: rest.takeWhile (digit · |>.isSome), d.isDigit = true := by
        intro d hd
        rcases List.mem_cons.mp hd with rfl | hd
        · exact hc
        · exact digit_isSome_iff.mp (List.mem_takeWhile_imp (p := (digit · |>.isSome)) hd)
      obtain ⟨slot, hlow, hafter, rfl, hlt, rfl⟩ :=
        (component_eq_ok_iff hs (List.cons_ne_nil _ _)).mp hnext
      have htext : c :: rest =
          (c :: rest.takeWhile (digit · |>.isSome)) ++ slot.designator :: after := by
        rw [List.cons_append, ← hdrop, List.takeWhile_append_dropWhile]
      rw [htext]
      have hrest := ih h
      rw [floor_assign] at hrest
      exact .component slot hlow hafter (List.cons_ne_nil _ _) hs hlt hrest
  · intro h
    generalize hlow : scan.floor = low at h
    induction h with
    | done => rw [read]
    | mark hafter hne _ ih =>
      rw [read, if_pos rfl, if_neg (by simp [hafter, hne])]
      exact ih hlow
    | component slot hlow' hafter hne hs hlt hrest ih =>
      subst hlow
      rw [read_component _ hs hne (by cases slot <;> rfl),
        (component_eq_ok_iff hs hne).mpr ⟨_, hlow', hafter, rfl, hlt, rfl⟩]
      exact ih (floor_assign ..)

end DurationScan

/-! ## The grammar -/

/-- One component, or none: its text and its number. -/
inductive Part (designator : Char) : Str → Option Nat → Prop
  | absent : Part designator [] none
  | present {digits : Str} : digits ≠ [] → (∀ c ∈ digits, c.isDigit = true) →
      Part designator (digits ++ [designator]) (some (Nat.ofDigitChars 10 digits 0))

/-- `P[nD][T[nH][nM][nS]]` with a component, and one behind the `T`: the text
and its seconds. -/
inductive DurationForm : Str → Nat → Prop
  | date {d : Str} {days : Option Nat} : Part 'D' d days → d ≠ [] →
      DurationForm ('P' :: d) (86400 * days.getD 0)
  | time {d h m s : Str} {days hours minutes seconds : Option Nat} : Part 'D' d days →
      Part 'H' h hours → Part 'M' m minutes → Part 'S' s seconds → h ++ m ++ s ≠ [] →
      DurationForm ('P' :: (d ++ 'T' :: (h ++ m ++ s)))
        (86400 * days.getD 0 + 3600 * hours.getD 0 + 60 * minutes.getD 0 + seconds.getD 0)

namespace DurationScan

/-- The value of a component that may be absent. -/
def assignIf (scan : DurationScan) (slot : Slot) : Option Nat → DurationScan
  | none => scan
  | some value => scan.assign slot value

/-- A number that `u64` holds. -/
def Fits (value : Option Nat) : Prop := value.getD 0 < 2 ^ 64

theorem fits_none : Fits none := by
  rw [Fits, Option.getD_none]
  omega

theorem afterT_assignIf (scan : DurationScan) (slot : Slot) (value : Option Nat) :
    (scan.assignIf slot value).afterT = scan.afterT := by
  cases value with
  | none => rfl
  | some value => exact afterT_assign scan slot value

theorem Reads.lower {low high : Nat} {scan out : DurationScan} {text : Str}
    (h : Reads high scan text out) (hle : low ≤ high) : Reads low scan text out := by
  induction h generalizing low with
  | done => exact .done
  | mark hscan hne _ ih => exact .mark hscan hne (ih hle)
  | component slot hlow hslot hne hs hlt h _ =>
      exact .component _ (hle.trans hlow) hslot hne hs hlt h

/-- No day comes behind the `T`. -/
theorem Reads.behindT {scan out : DurationScan} {text : Str} (hscan : scan.afterT = true)
    (h : Reads 0 scan text out) : Reads 1 scan text out := by
  cases h with
  | done => exact .done
  | mark hfalse =>
    rw [hscan] at hfalse
    cases hfalse
  | component slot _ hslot hne hs hlt h =>
    have hlow : 1 ≤ slot.rank := by
      rw [hscan] at hslot
      cases slot with
      | days => cases hslot
      | hours | minutes | seconds => decide
    exact .component slot hlow hslot hne hs hlt h

/-- A component with the least place is read, or skipped. -/
theorem reads_iff (slot : Slot) {scan out : DurationScan} {text : Str}
    (hafter : slot.afterT = scan.afterT) :
    Reads slot.rank scan text out ↔ ∃ part rest value, Part slot.designator part value ∧
      Fits value ∧ text = part ++ rest ∧
        Reads (slot.rank + 1) (scan.assignIf slot value) rest out := by
  constructor
  · intro h
    cases h with
    | done => exact ⟨[], [], none, .absent, fits_none, rfl, .done⟩
    | mark hscan hne h =>
      have hdays : slot = .days := by
        rw [hscan] at hafter
        cases slot <;> first | rfl | cases hafter
      subst hdays
      exact ⟨[], _, none, .absent, fits_none, rfl, .mark hscan hne (h.behindT rfl)⟩
    | component slot' hlow hslot hne hs hlt h =>
      by_cases heq : slot' = slot
      · subst heq
        exact ⟨_, _, _, .present hne hs, hlt, by simp, h⟩
      · have hlow' : slot.rank + 1 ≤ slot'.rank :=
          Nat.lt_of_le_of_ne hlow fun hrank => heq (Slot.eq_of_rank_eq hrank.symm)
        exact ⟨[], _, none, .absent, fits_none, rfl, .component slot' hlow' hslot hne hs hlt h⟩
  · rintro ⟨part, rest, value, hpart, hfits, rfl, h⟩
    cases hpart with
    | absent => exact h.lower (Nat.le_succ _)
    | present hne hs =>
      rw [List.append_assoc]
      exact .component slot le_rfl hafter hne hs hfits h

theorem reads_end_iff {scan out : DurationScan} {text : Str} (hscan : scan.afterT = true) :
    Reads 4 scan text out ↔ text = [] ∧ out = scan := by
  constructor
  · intro h
    cases h with
    | done => exact ⟨rfl, rfl⟩
    | mark hfalse =>
      rw [hscan] at hfalse
      cases hfalse
    | component slot hlow =>
      cases slot <;> exact absurd hlow (by decide)
  · rintro ⟨rfl, rfl⟩
    exact .done

theorem reads_hours_iff {scan out : DurationScan} {text : Str} (hscan : scan.afterT = true) :
    Reads 1 scan text out ↔ ∃ part rest value, Part 'H' part value ∧ Fits value ∧
      text = part ++ rest ∧ Reads 2 (scan.assignIf .hours value) rest out :=
  reads_iff .hours hscan.symm

theorem reads_minutes_iff {scan out : DurationScan} {text : Str} (hscan : scan.afterT = true) :
    Reads 2 scan text out ↔ ∃ part rest value, Part 'M' part value ∧ Fits value ∧
      text = part ++ rest ∧ Reads 3 (scan.assignIf .minutes value) rest out :=
  reads_iff .minutes hscan.symm

theorem reads_seconds_iff {scan out : DurationScan} {text : Str} (hscan : scan.afterT = true) :
    Reads 3 scan text out ↔ ∃ part value, Part 'S' part value ∧ Fits value ∧
      text = part ∧ out = scan.assignIf .seconds value := by
  have hend : ∀ value, (scan.assignIf .seconds value).afterT = true := by
    intro value
    rw [afterT_assignIf, hscan]
  constructor
  · intro h
    obtain ⟨part, rest, value, hpart, hfits, rfl, hrest⟩ := (reads_iff .seconds hscan.symm).mp h
    obtain ⟨rfl, rfl⟩ := (reads_end_iff (hend value)).mp hrest
    exact ⟨part, value, hpart, hfits, List.append_nil part, rfl⟩
  · rintro ⟨part, value, hpart, hfits, rfl, rfl⟩
    apply (reads_iff .seconds hscan.symm).mpr
    exact ⟨text, [], value, hpart, hfits, (List.append_nil text).symm,
      (reads_end_iff (hend value)).mpr ⟨rfl, rfl⟩⟩

/-- Behind the `T`: hours, minutes and seconds. -/
theorem reads_time_iff {scan out : DurationScan} {text : Str} (hscan : scan.afterT = true) :
    Reads 1 scan text out ↔ ∃ h m s hours minutes seconds, Part 'H' h hours ∧
      Part 'M' m minutes ∧ Part 'S' s seconds ∧ Fits hours ∧ Fits minutes ∧ Fits seconds ∧
      text = h ++ m ++ s ∧
        out = ((scan.assignIf .hours hours).assignIf .minutes minutes).assignIf
          .seconds seconds := by
  have hhours : ∀ hours, (scan.assignIf .hours hours).afterT = true := by
    intro hours
    rw [afterT_assignIf, hscan]
  have hminutes : ∀ hours minutes,
      ((scan.assignIf .hours hours).assignIf .minutes minutes).afterT = true := by
    intro hours minutes
    rw [afterT_assignIf, hhours]
  constructor
  · intro hreads
    obtain ⟨h, rest, hours, hh, hfh, rfl, hafterH⟩ := (reads_hours_iff hscan).mp hreads
    obtain ⟨m, s, minutes, hm, hfm, rfl, hafterM⟩ := (reads_minutes_iff (hhours hours)).mp hafterH
    obtain ⟨s, seconds, hs, hfs, rfl, rfl⟩ :=
      (reads_seconds_iff (hminutes hours minutes)).mp hafterM
    exact ⟨h, m, _, hours, minutes, seconds, hh, hm, hs, hfh, hfm, hfs,
      (List.append_assoc ..).symm, rfl⟩
  · rintro ⟨h, m, s, hours, minutes, seconds, hh, hm, hs, hfh, hfm, hfs, rfl, rfl⟩
    rw [List.append_assoc]
    apply (reads_hours_iff hscan).mpr
    refine ⟨h, m ++ s, hours, hh, hfh, rfl, ?_⟩
    apply (reads_minutes_iff (hhours hours)).mpr
    refine ⟨m, s, minutes, hm, hfm, rfl, ?_⟩
    apply (reads_seconds_iff (hminutes hours minutes)).mpr
    exact ⟨s, seconds, hs, hfs, rfl, rfl⟩

/-- Before the `T`: days, and then perhaps the `T`. -/
theorem reads_date_iff {scan out : DurationScan} {text : Str} (hscan : scan.afterT = false) :
    Reads 0 scan text out ↔ ∃ d days, Part 'D' d days ∧ Fits days ∧
      (text = d ∧ out = scan.assignIf .days days ∨
        ∃ rest, rest ≠ [] ∧ text = d ++ 'T' :: rest ∧
          Reads 1 { scan.assignIf .days days with afterT := true } rest out) := by
  constructor
  · intro hreads
    obtain ⟨d, rest, days, hd, hfd, rfl, h⟩ := (reads_iff .days hscan.symm).mp hreads
    refine ⟨d, days, hd, hfd, ?_⟩
    cases h with
    | done => exact .inl ⟨List.append_nil d, rfl⟩
    | mark _ hne h => exact .inr ⟨_, hne, rfl, h⟩
    | component slot hlow hslot =>
      rw [afterT_assignIf, hscan] at hslot
      cases slot with
      | days => exact absurd hlow (by decide)
      | hours | minutes | seconds => cases hslot
  · rintro ⟨d, days, hd, hfd, h⟩
    apply (reads_iff .days hscan.symm).mpr
    rcases h with ⟨rfl, rfl⟩ | ⟨rest, hne, rfl, h⟩
    · exact ⟨text, [], days, hd, hfd, (List.append_nil text).symm, .done⟩
    · exact ⟨d, _, days, hd, hfd, rfl, .mark (by rw [afterT_assignIf, hscan]) hne h⟩

/-- The checked products and sums succeed exactly when the sum fits. -/
theorem totalSecs_eq_some_iff {scan : DurationScan} {secs : { n : Nat // n < 2 ^ 64 }} :
    scan.totalSecs = some secs ↔
      secs = 86400 * scan.days + 3600 * scan.hours + 60 * scan.minutes + scan.seconds := by
  unfold totalSecs
  simp only [Option.bind_eq_bind, Option.bind_eq_some_iff, u64_eq_some_iff]
  constructor
  · rintro ⟨days, hdays, hours, hhours, t, ht, minutes, hminutes, t', ht', hsecs⟩
    omega
  · intro hsecs
    have hlt := secs.property
    exact ⟨⟨scan.days * 86400, by omega⟩, rfl, ⟨scan.hours * 3600, by omega⟩, rfl,
      ⟨scan.days * 86400 + scan.hours * 3600, by omega⟩, rfl, ⟨scan.minutes * 60, by omega⟩, rfl,
      ⟨scan.days * 86400 + scan.hours * 3600 + scan.minutes * 60, by omega⟩, rfl, by
        dsimp only
        omega⟩

/-- The loop of the parser, on its whole text. -/
theorem read_start_iff {out : DurationScan} {text : Str} :
    start.read text = .ok out ↔ Reads 0 start text out := read_eq_ok_iff

/-- The scan behind the days and the `T`. -/
def behindDays (days : Option Nat) : DurationScan :=
  { start.assignIf .days days with afterT := true }

theorem sawAny_assignIf (scan : DurationScan) (slot : Slot) (value : Option Nat) :
    (scan.assignIf slot value).sawAny = (scan.sawAny || value.isSome) := by
  cases value with
  | none => exact (Bool.or_false _).symm
  | some value => cases slot <;> exact (Bool.or_true _).symm

/-- The seconds of the four components. -/
theorem totalSecs_time {days hours minutes seconds : Option Nat}
    {secs : { n : Nat // n < 2 ^ 64 }} :
    ((((behindDays days).assignIf .hours hours).assignIf .minutes minutes).assignIf .seconds
      seconds).totalSecs = some secs ↔
        secs = 86400 * days.getD 0 + 3600 * hours.getD 0 + 60 * minutes.getD 0 +
          seconds.getD 0 := by
  rw [totalSecs_eq_some_iff]
  cases days <;> cases hours <;> cases minutes <;> cases seconds <;> rfl

theorem totalSecs_date {days : Option Nat} {secs : { n : Nat // n < 2 ^ 64 }} :
    (start.assignIf .days days).totalSecs = some secs ↔ secs = 86400 * days.getD 0 := by
  rw [totalSecs_eq_some_iff]
  cases days <;> rfl

end DurationScan

theorem Part.isSome_iff {designator : Char} {text : Str} {value : Option Nat}
    (h : Part designator text value) : value.isSome = true ↔ text ≠ [] := by
  cases h <;> simp

theorem parseXsDuration_cons (rest : Str) : parseXsDuration ('P' :: rest) =
    if Text.byteLen ('P' :: rest) < 3 then unsupported
    else DurationScan.start.read rest >>= fun scan =>
      if !scan.sawAny then unsupported
      else
        match scan.totalSecs with
        | some secs => .ok (Duration.ofSecs secs secs.property)
        | none => unsupported :=
  rfl

/-- The parser after its two guards. -/
theorem parseXsDuration_eq_ok_iff {s : Str} {d : Duration} :
    parseXsDuration s = .ok d ↔ ∃ rest out secs, s = 'P' :: rest ∧ 3 ≤ Text.byteLen s ∧
      DurationScan.Reads 0 .start rest out ∧ out.sawAny = true ∧ out.totalSecs = some secs ∧
        d = Duration.ofSecs secs secs.property := by
  constructor
  · intro h
    unfold parseXsDuration at h
    split at h
    next rest =>
      split at h
      · cases h
      next hlen =>
        obtain ⟨out, hread, h⟩ := bind_eq_ok_iff.mp h
        split at h
        · cases h
        next hsaw =>
          split at h
          next secs hsecs =>
            exact ⟨rest, out, secs, rfl, Nat.not_lt.mp hlen, DurationScan.read_start_iff.mp hread,
              by simpa using hsaw, hsecs, (Except.ok.inj h).symm⟩
          next => cases h
    next => cases h
  · rintro ⟨rest, out, secs, rfl, hlen, hreads, hsaw, hsecs, rfl⟩
    rw [parseXsDuration_cons, if_neg (Nat.not_lt.mpr hlen), bind_of_ok
      (DurationScan.read_start_iff.mpr hreads), hsaw,
      hsecs]
    rfl

theorem Part.two_le_length {designator : Char} {text : Str} {value : Option Nat}
    (h : Part designator text value) (hne : text ≠ []) : 2 ≤ text.length := by
  cases h with
  | absent => exact absurd rfl hne
  | @present digits hdigits _ =>
    have hpos := List.length_pos_of_ne_nil hdigits
    rw [List.length_append, List.length_singleton]
    omega

theorem DurationForm.three_le_byteLen {s : Str} {total : Nat} (h : DurationForm s total) :
    3 ≤ Text.byteLen s := by
  apply le_trans _ (Text.length_le_byteLen s)
  cases h with
  | date hd hne =>
    have hlen := hd.two_le_length hne
    rw [List.length_cons]
    omega
  | @time d h m s _ _ _ _ hd hh hm hs hne =>
    have hpos := List.length_pos_of_ne_nil hne
    simp only [List.length_cons, List.length_append] at hpos ⊢
    omega

theorem isSome_or_iff {h m s : Str} {hours minutes seconds : Option Nat} (hh : Part 'H' h hours)
    (hm : Part 'M' m minutes) (hs : Part 'S' s seconds) :
    (hours.isSome || minutes.isSome || seconds.isSome) = true ↔ h ++ m ++ s ≠ [] := by
  simp only [Bool.or_eq_true, hh.isSome_iff, hm.isSome_iff, hs.isSome_iff, ne_eq,
    List.append_eq_nil_iff, not_and_or]

/-- A duration is read exactly when its text has the grammar and its seconds
fit; the value is then the sum of the components. -/
theorem parseXsDuration_iff_form {s : Str} {d : Duration} :
    parseXsDuration s = .ok d ↔ ∃ total, DurationForm s total ∧
      ∃ hfits : total < 2 ^ 64, d = Duration.ofSecs total hfits := by
  rw [parseXsDuration_eq_ok_iff]
  constructor
  · rintro ⟨rest, out, secs, rfl, -, hreads, hsaw, hsecs, rfl⟩
    obtain ⟨date, days, hd, -, ⟨rfl, rfl⟩ | ⟨time, hne, rfl, htime⟩⟩ :=
      (DurationScan.reads_date_iff rfl).mp hreads
    · rw [DurationScan.sawAny_assignIf] at hsaw
      have htotal := DurationScan.totalSecs_date.mp hsecs
      refine ⟨secs, ?_, secs.property, rfl⟩
      rw [htotal]
      exact .date hd (hd.isSome_iff.mp hsaw)
    · obtain ⟨h, m, s, hours, minutes, seconds, hh, hm, hs, -, -, -, rfl, rfl⟩ :=
        (DurationScan.reads_time_iff rfl).mp htime
      have htotal := DurationScan.totalSecs_time.mp hsecs
      refine ⟨secs, ?_, secs.property, rfl⟩
      rw [htotal]
      exact .time hd hh hm hs hne
  · rintro ⟨total, hform, hfits, rfl⟩
    have hlen := hform.three_le_byteLen
    cases hform with
    | @date date days hd hne =>
      refine ⟨date, _, ⟨_, hfits⟩, rfl, hlen, ?_, ?_, DurationScan.totalSecs_date.mpr rfl, rfl⟩
      · apply (DurationScan.reads_date_iff rfl).mpr
        exact ⟨date, days, hd, by unfold DurationScan.Fits; omega, .inl ⟨rfl, rfl⟩⟩
      · rw [DurationScan.sawAny_assignIf]
        exact hd.isSome_iff.mpr hne
    | @time date h m s days hours minutes seconds hd hh hm hs hne =>
      refine ⟨_, _, ⟨_, hfits⟩, rfl, hlen, ?_, ?_, DurationScan.totalSecs_time.mpr rfl, rfl⟩
      · apply (DurationScan.reads_date_iff rfl).mpr
        refine ⟨date, days, hd,
          by unfold DurationScan.Fits; omega, .inr ⟨h ++ m ++ s, hne, rfl, ?_⟩⟩
        apply (DurationScan.reads_time_iff rfl).mpr
        exact ⟨h, m, s, hours, minutes, seconds, hh, hm, hs, by unfold DurationScan.Fits; omega,
          by unfold DurationScan.Fits; omega, by unfold DurationScan.Fits; omega, rfl, rfl⟩
      · rw [DurationScan.sawAny_assignIf, DurationScan.sawAny_assignIf,
          DurationScan.sawAny_assignIf]
        have hsome := (isSome_or_iff hh hm hs).mpr hne
        simp only [Bool.or_eq_true] at hsome ⊢
        tauto

/-- `format_cache_duration`. -/
def formatCacheDuration (d : Duration) : Str := "PT" ++ decimal d.asSecs ++ "S"

/-- A written duration has the grammar. -/
theorem durationForm_formatCacheDuration (d : Duration) :
    DurationForm (formatCacheDuration d) d.asSecs := by
  have hne : decimal d.asSecs ≠ [] := Nat.toDigits_ne_nil
  have hvalue : Nat.ofDigitChars 10 (decimal d.asSecs) 0 = d.asSecs := Nat.ofDigitChars_ten_toDigits
  have hform := DurationForm.time .absent .absent .absent
    (.present hne (decimal_digits d.asSecs)) (by simp)
  simpa [hvalue, formatCacheDuration] using hform

/-- The parser accepts exactly the grammar, with the sum of the components as
the value, and reads a written duration back without the part below a second. -/
theorem parseXsDuration_grammar :
    (∀ (s : Str) (d : Duration), parseXsDuration s = .ok d ↔ ∃ total, DurationForm s total ∧
      ∃ hfits : total < 2 ^ 64, d = Duration.ofSecs total hfits) ∧
    ∀ d : Duration, parseXsDuration (formatCacheDuration d) =
      .ok (Duration.ofSecs d.asSecs d.asSecs_lt) := by
  constructor
  · intro s d
    exact parseXsDuration_iff_form
  · intro d
    apply parseXsDuration_iff_form.mpr
    exact ⟨d.asSecs, durationForm_formatCacheDuration d, d.asSecs_lt, rfl⟩

end Metadata

end Saml
