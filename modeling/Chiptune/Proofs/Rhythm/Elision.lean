import Chiptune.Proofs.Pattern.Building
import Mathlib.Data.Nat.Prime.Basic
import Mathlib.Tactic.Ring
import Mathlib.Tactic.SplitIfs

/-!
# Durations that are left out

A note without a duration takes the one that was set last: by a length word, by a written
duration while durations stick, or by an earlier note for which nothing was set, which takes
one beat. Here that duration is read off from the calls to a meter alone, and compared with the
rows that the meter gives.
-/

namespace Chiptune

/-! ## What calls set -/

/-- What a meter is asked to do. -/
inductive MeterCall where
  | time (beats beatUnit : Nat)
  | scale (rows : Nat)
  | durations (word : String)
  /-- A length word. -/
  | length (duration : Duration)
  /-- A note, with the duration that is written. -/
  | note (written : Option Duration)
deriving DecidableEq, Repr

namespace MeterCall

/-! Calls are listed newest first. -/

/-- The rows of a whole note after some calls. -/
def wholeRows : List MeterCall → Nat
  | [] => 16
  | .scale rows :: _ => rows
  | _ :: earlier => wholeRows earlier

/-- The beats of a measure and the denominator of a beat after some calls. -/
def signature : List MeterCall → Nat × Nat
  | [] => (4, 4)
  | .time beats beatUnit :: _ => (beats, beatUnit)
  | _ :: earlier => signature earlier

/-- Whether durations stick after some calls. -/
def sticks : List MeterCall → Bool
  | [] => false
  | .durations word :: _ => word == "stick"
  | _ :: earlier => sticks earlier

/-- The units of a beat: three if the beats of a measure are six, nine, twelve and so on. -/
def beatUnits (beats : Nat) : Nat := if 6 ≤ beats ∧ 3 ∣ beats then 3 else 1

/-- One beat as a duration. Three units are a dotted note of two. -/
def oneBeat (beats beatUnit : Nat) : Duration :=
  if beatUnits beats = 3 then ⟨beatUnit / 2, .dotted⟩ else ⟨beatUnit, .plain⟩

/-- The rows of a whole note are a multiple of the denominator of a beat. -/
def Fits (calls : List MeterCall) : Prop := (signature calls).2 ∣ wholeRows calls

instance (calls : List MeterCall) : Decidable (Fits calls) := inferInstanceAs (Decidable (_ ∣ _))

/-- The duration that was set last for notes without one. -/
def lastSet? : List MeterCall → Option Duration
  | [] => none
  | .length duration :: _ => some duration
  | .note (some duration) :: earlier =>
    if duration.augment ≠ .grace ∧ sticks earlier then some duration else lastSet? earlier
  | .note none :: earlier =>
    (lastSet? earlier).or
      (if Fits earlier then some (oneBeat (signature earlier).1 (signature earlier).2) else none)
  | _ :: earlier => lastSet? earlier

end MeterCall

open MeterCall

namespace Meter

variable {meter next : Meter} {calls : List MeterCall} {duration : Duration}

/-! ## The rows of a duration -/

/-- The answer for a note with the duration: a number of rows that makes the duration of a
whole note with the rows, and a refusal exactly if no number does. -/
structure Takes (whole : Nat) (duration : Duration) (answer : EStateM.Result Fault Meter Int) :
    Prop where
  rows : ∀ rows next, answer = .ok rows next →
    0 < rows ∧ rows * duration.denominator * 4 = whole * duration.augment.quarters
  refused : (∃ fault next, answer = .error fault next) ↔
    ∀ rows : Int, rows * duration.denominator * 4 ≠ whole * duration.augment.quarters

/-- A duration that is accepted for a note other than a grace note. -/
structure IsNoteValue (duration : Duration) : Prop where
  denominator_pos : 0 < duration.denominator
  not_grace : duration.augment ≠ .grace

theorem isNoteValue_of_writtenDuration
    {number : Option Nat} {augment : Augment}
    (h : writtenDuration number augment = .ok (some duration))
    (hgrace : duration.augment ≠ .grace) : IsNoteValue duration := by
  cases number with
  | none =>
      simp only [writtenDuration] at h
      split_ifs at h
      cases h
  | some n =>
      simp only [writtenDuration] at h
      split_ifs at h
      cases h
      exact ⟨show 0 < n by omega, hgrace⟩

theorem takes_rowsOf (hscale : 0 < meter.scale) (hvalue : IsNoteValue duration) (state : Meter) :
    Takes meter.scale duration (Step.decide ((meter.rowsOf duration).map Int.ofNat) state) := by
  have husable : Usable { meter with length := none } := ⟨hscale, nofun⟩
  have hparts : 0 < duration.denominator * 4 := Nat.mul_pos hvalue.denominator_pos (by decide)
  by_cases hdvd : duration.denominator * 4 ∣ meter.scale * duration.augment.quarters
  · obtain ⟨count, hcount⟩ := hdvd
    have hrows : meter.rowsOf duration = .ok count := by
      simp [rowsOf, hcount, Nat.mul_div_cancel_left count hparts]
    have hpos : 0 < count := husable.rowsOf_pos hvalue.not_grace hrows
    have hequation : (count : Int) * duration.denominator * 4 =
        meter.scale * duration.augment.quarters := by
      have hnat : count * duration.denominator * 4 =
          meter.scale * duration.augment.quarters := by rw [hcount]; ring
      exact_mod_cast hnat
    rw [hrows]
    constructor
    · intro rows next hanswer
      cases hanswer
      exact ⟨Int.natCast_pos.mpr hpos, hequation⟩
    · constructor
      · rintro ⟨fault, next, hanswer⟩
        cases hanswer
      · intro hnone
        exact absurd hequation (hnone count)
  · have hrefused : meter.rowsOf duration = .error (.unalignedDuration duration meter.scale) := by
      simp only [rowsOf, if_neg fun h => hdvd (Nat.dvd_of_mod_eq_zero h)]
    rw [hrefused]
    constructor
    · intro rows next hanswer
      cases hanswer
    · refine iff_of_true ⟨_, _, rfl⟩ ?_
      intro rows hequation
      have hint : ((duration.denominator * 4 : Nat) : Int) ∣
          ((meter.scale * duration.augment.quarters : Nat) : Int) :=
        ⟨rows, by push_cast; rw [← hequation]; ring⟩
      exact hdvd (Int.natCast_dvd_natCast.mp hint)

/-! ## One beat -/

theorem exists_pow_of_isPowerWithinBounds {n : Nat} (h : isPowerWithinBounds n = true) :
    ∃ exponent, n = 2 ^ (exponent + 1) := by
  simp only [isPowerWithinBounds, Bool.or_eq_true, beq_iff_eq] at h
  rcases h with ((((rfl | rfl) | rfl) | rfl) | rfl) | rfl
  exacts [⟨0, rfl⟩, ⟨1, rfl⟩, ⟨2, rfl⟩, ⟨3, rfl⟩, ⟨4, rfl⟩, ⟨5, rfl⟩]

theorem pos_of_isPowerWithinBounds {n : Nat} (h : isPowerWithinBounds n = true) : 0 < n := by
  obtain ⟨exponent, rfl⟩ := exists_pow_of_isPowerWithinBounds h
  exact Nat.two_pow_pos _

/-- The scale and the denominator of a beat are powers of two, and neither is one. -/
structure IsBinary (meter : Meter) : Prop where
  scale : isPowerWithinBounds meter.scale = true
  beatUnit : isPowerWithinBounds meter.beatUnit = true

theorem isCompound_iff (meter : Meter) : meter.isCompound = true ↔ beatUnits meter.beats = 3 := by
  simp only [isCompound, beatUnits, Bool.and_eq_true, decide_eq_true_eq, beq_iff_eq,
    Nat.dvd_iff_mod_eq_zero]
  split_ifs with h <;> simp [h]

theorem beatUnits_cases (beats : Nat) : beatUnits beats = 3 ∨ beatUnits beats = 1 := by
  unfold beatUnits
  split_ifs
  · exact .inl rfl
  · exact .inr rfl

theorem beatRows_eq {unitRows : Nat} (hscale : meter.scale = meter.beatUnit * unitRows)
    (hunit : 0 < meter.beatUnit) : meter.beatRows = .ok (unitRows * beatUnits meter.beats) := by
  have hrows : meter.unitRows = .ok unitRows := by
    simp [Meter.unitRows, hscale, Nat.mul_div_cancel_left _ hunit]
  simp only [beatRows, hrows, Except.map, isCompound_iff]
  rcases beatUnits_cases meter.beats with h | h <;> simp [h]

/-- A power of two that divides another leaves a power of two, which three does not divide. -/
theorem IsBinary.three_not_dvd
    {unitRows : Nat} (h : meter.IsBinary) (hscale : meter.scale = meter.beatUnit * unitRows) :
    ¬3 ∣ unitRows := by
  intro hthree
  obtain ⟨exponent, hpow⟩ := exists_pow_of_isPowerWithinBounds h.scale
  have hdvd : 3 ∣ 2 ^ (exponent + 1) := by
    rw [← hpow, hscale]
    exact hthree.mul_left _
  have htwo := Nat.prime_three.dvd_of_dvd_pow hdvd
  omega

/-- One beat as the meter gives it is one beat of the time signature. -/
theorem IsBinary.beatDuration_eq
    {unitRows : Nat} (h : meter.IsBinary) (hscale : meter.scale = meter.beatUnit * unitRows) :
    meter.beatDuration = .ok (oneBeat meter.beats meter.beatUnit) := by
  have hunit_pos := pos_of_isPowerWithinBounds h.beatUnit
  have hthree := h.three_not_dvd hscale
  have hrows_pos : 0 < unitRows := Nat.pos_of_ne_zero fun hzero => hthree (hzero ▸ dvd_zero 3)
  simp only [beatDuration, beatRows_eq hscale hunit_pos, Except.map, oneBeat]
  rcases beatUnits_cases meter.beats with hunits | hunits
  · have hhalf : meter.scale * 3 / (unitRows * 3 * 2) = meter.beatUnit / 2 := by
      rw [hscale, Nat.mul_assoc, Nat.mul_comm (unitRows * 3) 2,
        Nat.mul_div_mul_right _ _ (by omega : 0 < unitRows * 3)]
    simp [hunits, hhalf]
  · -- A beat counts as a dotted note if three divides its rows; of a power of two it does not.
    have hwhole : meter.scale / unitRows = meter.beatUnit := by
      rw [hscale, Nat.mul_div_cancel _ hrows_pos]
    have hmod : ¬unitRows % 3 = 0 := fun hmod => hthree (Nat.dvd_of_mod_eq_zero hmod)
    simp [hunits, hmod, hwhole]

theorem IsBinary.isNoteValue_oneBeat (h : meter.IsBinary) (beats : Nat) :
    IsNoteValue (oneBeat beats meter.beatUnit) := by
  obtain ⟨exponent, hunit⟩ := exists_pow_of_isPowerWithinBounds h.beatUnit
  have hpos : 0 < 2 ^ exponent := Nat.two_pow_pos _
  rw [Nat.pow_succ] at hunit
  unfold oneBeat
  split_ifs
  · exact ⟨show 0 < meter.beatUnit / 2 by omega, nofun⟩
  · exact ⟨show 0 < meter.beatUnit by omega, nofun⟩

/-- The rows of one beat are those of its units. -/
theorem IsBinary.rowsOf_oneBeat
    {unitRows : Nat} (h : meter.IsBinary) (hscale : meter.scale = meter.beatUnit * unitRows) :
    meter.rowsOf (oneBeat meter.beats meter.beatUnit) =
      .ok (unitRows * beatUnits meter.beats) := by
  obtain ⟨exponent, hunit⟩ := exists_pow_of_isPowerWithinBounds h.beatUnit
  have hpos : 0 < 2 ^ exponent := Nat.two_pow_pos _
  have hrows : meter.scale * (oneBeat meter.beats meter.beatUnit).augment.quarters =
      unitRows * beatUnits meter.beats *
        ((oneBeat meter.beats meter.beatUnit).denominator * 4) := by
    have hhalf : 2 ^ exponent * 2 / 2 = 2 ^ exponent := Nat.mul_div_cancel _ (by decide)
    rcases beatUnits_cases meter.beats with hunits | hunits
    · simp only [oneBeat, hunits, if_true, Augment.quarters, hscale, hunit, Nat.pow_succ, hhalf]
      ring
    · simp only [oneBeat, hunits, if_neg (by decide : ¬1 = 3), Augment.quarters, hscale]
      ring
  have hparts : 0 < (oneBeat meter.beats meter.beatUnit).denominator * 4 :=
    Nat.mul_pos (h.isNoteValue_oneBeat meter.beats).denominator_pos (by decide)
  simp only [rowsOf, hrows, Nat.mul_mod_left, if_true, Nat.mul_div_cancel _ hparts]

theorem beatDuration_of_not_dvd (h : ¬meter.beatUnit ∣ meter.scale) :
    meter.beatDuration = .error (.scaleTooCoarse meter.scale meter.beatUnit) := by
  have hmod : ¬meter.scale % meter.beatUnit = 0 := fun hmod => h (Nat.dvd_of_mod_eq_zero hmod)
  simp [beatDuration, beatRows, unitRows, hmod, Except.map]

/-! ## Answers to notes -/

/-- The answer with the rows of a duration, which leaves a meter. -/
def answer (meter : Meter) (duration : Duration) (left : Meter) : EStateM.Result Fault Meter Int :=
  Step.decide ((meter.rowsOf duration).map Int.ofNat) left

theorem noteRows_grace (frames : Nat) (meter : Meter) :
    noteRows (some ⟨frames, .grace⟩) meter = .ok (-Int.ofNat frames) meter := rfl

/-- The duration in force is told first, and then its rows. -/
theorem noteRows_of_durationInForce
    {written : Option Duration} (hgrace : ∀ frames, written ≠ some ⟨frames, .grace⟩)
    (hforce : durationInForce written meter = .ok duration next)
    (hscale : next.scale = meter.scale) :
    noteRows written meter = meter.answer duration next := by
  have hrows : next.rowsOf duration = meter.rowsOf duration := by simp only [rowsOf, hscale]
  unfold noteRows
  split
  · next frames => exact absurd rfl (hgrace frames)
  · rw [Step.bind_apply_of_ok hforce, Step.get_bind_apply, hrows]
    unfold answer
    cases meter.rowsOf duration with
    | ok rows => rfl
    | error fault => rfl

theorem noteRows_written (hgrace : duration.augment ≠ .grace) (meter : Meter) :
    noteRows (some duration) meter = meter.answer duration
      (if meter.sticky then { meter with length := some duration } else meter) := by
  have hnot : ∀ frames, some duration ≠ some ⟨frames, .grace⟩ := by
    rintro frames ⟨⟩
    exact hgrace rfl
  by_cases hsticky : meter.sticky
  · have hforce : durationInForce (some duration) meter =
        .ok duration { meter with length := some duration } := by
      rw [durationInForce, Step.get_bind_apply, if_pos hsticky]
      rfl
    rw [if_pos hsticky]
    exact noteRows_of_durationInForce hnot hforce rfl
  · have hforce : durationInForce (some duration) meter = .ok duration meter := by
      rw [durationInForce, Step.get_bind_apply, if_neg hsticky]
      rfl
    rw [if_neg hsticky]
    exact noteRows_of_durationInForce hnot hforce rfl

theorem noteRows_elided (hlength : meter.length = some duration) :
    noteRows none meter = meter.answer duration meter := by
  have hforce : durationInForce none meter = .ok duration meter := by
    rw [durationInForce, defaultDuration, Step.get_bind_apply, hlength]
    rfl
  exact noteRows_of_durationInForce (fun _ => (Option.some_ne_none _).symm) hforce rfl

/-- A note for which nothing was set takes one beat and sets it. -/
theorem noteRows_first (hlength : meter.length = none) (hbeat : meter.beatDuration = .ok duration) :
    noteRows none meter = meter.answer duration { meter with length := some duration } := by
  have hforce : durationInForce none meter =
      .ok duration { meter with length := some duration } := by
    rw [durationInForce, defaultDuration, Step.get_bind_apply, hlength, hbeat]
    rfl
  exact noteRows_of_durationInForce (fun _ => (Option.some_ne_none _).symm) hforce rfl

theorem noteRows_unfit
    {fault : Fault} (hlength : meter.length = none) (hbeat : meter.beatDuration = .error fault) :
    noteRows none meter = .error fault meter := by
  have hforce : durationInForce none meter = .error fault meter := by
    rw [durationInForce, defaultDuration, Step.get_bind_apply, hlength, hbeat]
    rfl
  exact Step.bind_apply_of_error hforce

theorem left_answer (meter left : Meter) : Step.left (meter.answer duration left) = left := by
  unfold answer
  cases meter.rowsOf duration with
  | ok rows => rfl
  | error fault => rfl

/-! ## Runs of calls -/

/-- The calls lead from the initial meter to the meter. Settings are accepted; a note may be
refused, and the meter that it leaves is used on. -/
inductive Led : List MeterCall → Meter → Prop where
  | start : Led [] Meter.initial
  | time {calls : List MeterCall} {meter next : Meter} {beats beatUnit : Nat}
      (h : Led calls meter) (hset : meter.setTime beats beatUnit = .ok next) :
      Led (.time beats beatUnit :: calls) next
  | scale {calls : List MeterCall} {meter next : Meter} {rows : Nat}
      (h : Led calls meter) (hset : meter.setScale rows = .ok next) :
      Led (.scale rows :: calls) next
  | durations {calls : List MeterCall} {meter next : Meter} {word : String}
      (h : Led calls meter) (hset : meter.setSticky word = .ok next) :
      Led (.durations word :: calls) next
  | length {calls : List MeterCall} {meter next : Meter} {number : Option Nat} {augment : Augment}
      {duration : Duration} (h : Led calls meter)
      (hwritten : writtenDuration number augment = .ok (some duration))
      (hset : meter.setLength (some duration) = .ok next) :
      Led (.length duration :: calls) next
  | note {calls : List MeterCall} {meter : Meter} {number : Option Nat} {augment : Augment}
      {written : Option Duration} (h : Led calls meter)
      (hwritten : writtenDuration number augment = .ok written) :
      Led (.note written :: calls) (Step.left (noteRows written meter))

/-- The meter holds what the calls set. -/
structure Recalls (calls : List MeterCall) (meter : Meter) : Prop where
  scale : meter.scale = wholeRows calls
  beats : meter.beats = (signature calls).1
  beatUnit : meter.beatUnit = (signature calls).2
  sticky : meter.sticky = sticks calls
  length : meter.length = lastSet? calls
  isBinary : meter.IsBinary
  isNoteValue : ∀ duration, lastSet? calls = some duration → IsNoteValue duration

theorem recalls_initial : Recalls [] Meter.initial :=
  ⟨rfl, rfl, rfl, rfl, rfl, ⟨by decide, by decide⟩, nofun⟩

theorem Recalls.time
    {beats beatUnit : Nat} (h : Recalls calls meter)
    (hset : meter.setTime beats beatUnit = .ok next) :
    Recalls (.time beats beatUnit :: calls) next := by
  unfold Meter.setTime at hset
  split_ifs at hset with hbeats hunit
  cases hset
  have hpower : isPowerWithinBounds beatUnit = true := by simpa using hunit
  exact ⟨h.scale, rfl, rfl, h.sticky, h.length, ⟨h.isBinary.scale, hpower⟩, h.isNoteValue⟩

theorem Recalls.setScale
    {rows : Nat} (h : Recalls calls meter) (hset : meter.setScale rows = .ok next) :
    Recalls (.scale rows :: calls) next := by
  unfold Meter.setScale at hset
  split_ifs at hset with hpower
  cases hset
  exact ⟨rfl, h.beats, h.beatUnit, h.sticky, h.length, ⟨hpower, h.isBinary.beatUnit⟩, h.isNoteValue⟩

theorem Recalls.durations
    {word : String} (h : Recalls calls meter) (hset : meter.setSticky word = .ok next) :
    Recalls (.durations word :: calls) next := by
  unfold Meter.setSticky at hset
  split_ifs at hset with htemporary hstick
  · cases hset
    have hsticks : false = sticks (.durations word :: calls) := by simp [sticks, htemporary]
    exact ⟨h.scale, h.beats, h.beatUnit, hsticks, h.length, { h.isBinary with }, h.isNoteValue⟩
  · cases hset
    have hsticks : true = sticks (.durations word :: calls) := by simp [sticks, hstick]
    exact ⟨h.scale, h.beats, h.beatUnit, hsticks, h.length, { h.isBinary with }, h.isNoteValue⟩

theorem Recalls.setLength
    {number : Option Nat} {augment : Augment} (h : Recalls calls meter)
    (hwritten : writtenDuration number augment = .ok (some duration))
    (hset : meter.setLength (some duration) = .ok next) :
    Recalls (.length duration :: calls) next := by
  simp only [Meter.setLength] at hset
  split_ifs at hset with hgrace
  cases hset
  refine ⟨h.scale, h.beats, h.beatUnit, h.sticky, rfl, { h.isBinary with }, ?_⟩
  rintro _ ⟨⟩
  exact isNoteValue_of_writtenDuration hwritten hgrace

/-- A note changes nothing but the duration for notes without one. -/
theorem Recalls.withLength
    {written length : Option Duration} (h : Recalls calls meter)
    (hlength : length = lastSet? (.note written :: calls))
    (hvalue : ∀ duration, length = some duration → IsNoteValue duration) :
    Recalls (.note written :: calls) { meter with length := length } :=
  ⟨h.scale, h.beats, h.beatUnit, h.sticky, hlength, { h.isBinary with }, hlength ▸ hvalue⟩

theorem Recalls.unchanged
    {written : Option Duration} (h : Recalls calls meter)
    (hkept : lastSet? (.note written :: calls) = lastSet? calls) :
    Recalls (.note written :: calls) meter :=
  h.withLength (h.length.trans hkept.symm) fun duration hsome =>
    h.isNoteValue duration (h.length ▸ hsome)

theorem Recalls.noteWritten
    (h : Recalls calls meter) (hvalue : IsNoteValue duration) :
    Recalls (.note (some duration) :: calls) (Step.left (noteRows (some duration) meter)) := by
  rw [noteRows_written hvalue.not_grace, left_answer]
  split_ifs with hsticky
  · rw [h.sticky] at hsticky
    refine h.withLength (by simp [lastSet?, hsticky, hvalue.not_grace]) ?_
    rintro _ ⟨⟩
    exact hvalue
  · rw [h.sticky] at hsticky
    exact h.unchanged (by simp [lastSet?, hsticky])

theorem Recalls.fits_iff (h : Recalls calls meter) :
    Fits calls ↔ meter.beatUnit ∣ meter.scale := by
  rw [Fits, h.scale, h.beatUnit]

theorem Recalls.noteElided (h : Recalls calls meter) :
    Recalls (.note none :: calls) (Step.left (noteRows none meter)) := by
  cases hlast : lastSet? calls with
  | some duration =>
      rw [noteRows_elided (h.length.trans hlast), left_answer]
      exact h.unchanged (by simp [lastSet?, hlast])
  | none =>
      have hlength : meter.length = none := h.length.trans hlast
      by_cases hfits : Fits calls
      · obtain ⟨unitRows, hscale⟩ := h.fits_iff.mp hfits
        rw [noteRows_first hlength (h.isBinary.beatDuration_eq hscale), left_answer]
        refine h.withLength (by simp [lastSet?, hlast, hfits, h.beats, h.beatUnit]) ?_
        rintro _ ⟨⟩
        exact h.isBinary.isNoteValue_oneBeat meter.beats
      · have hunfit := beatDuration_of_not_dvd fun hdvd => hfits (h.fits_iff.mpr hdvd)
        rw [noteRows_unfit hlength hunfit]
        exact h.unchanged (by simp [lastSet?, hlast, hfits])

theorem Led.recalls (h : Led calls meter) : Recalls calls meter := by
  induction h with
  | start => exact recalls_initial
  | time _ hset ih => exact ih.time hset
  | scale _ hset ih => exact ih.setScale hset
  | durations _ hset ih => exact ih.durations hset
  | length _ hwritten hset ih => exact ih.setLength hwritten hset
  | @note calls meter number augment written _ hwritten ih =>
      cases written with
      | none => exact ih.noteElided
      | some duration =>
          by_cases hgrace : duration.augment = .grace
          · obtain ⟨frames, _⟩ := duration
            cases hgrace
            exact ih.unchanged (by simp [lastSet?])
          · exact ih.noteWritten (isNoteValue_of_writtenDuration hwritten hgrace)

/-- What the meter that the calls lead to answers to notes. -/
structure Elides (calls : List MeterCall) (meter : Meter) : Prop where
  /-- A grace note gives minus its frames, and nothing is set by it. -/
  grace : ∀ frames : Nat, noteRows (some ⟨frames, .grace⟩) meter = .ok (-frames) meter
  /-- A written duration is in force for its own note. -/
  written : ∀ number augment duration,
    writtenDuration number augment = .ok (some duration) → duration.augment ≠ .grace →
    Takes (wholeRows calls) duration (noteRows (some duration) meter)
  /-- The duration that was set last is in force for a note without one. -/
  elided : ∀ duration, lastSet? calls = some duration →
    duration.augment ≠ .grace ∧ Takes (wholeRows calls) duration (noteRows none meter)
  /-- If none was set, a note without one takes one beat. -/
  first : lastSet? calls = none → Fits calls →
    ∃ rows next, meter.beatRows = .ok rows ∧ noteRows none meter = .ok rows next ∧
      rows * (signature calls).2 = wholeRows calls * beatUnits (signature calls).1 ∧
      Takes (wholeRows calls) (oneBeat (signature calls).1 (signature calls).2)
        (noteRows none meter)
  /-- The beat must have whole rows. -/
  unfit : lastSet? calls = none → ¬Fits calls →
    ∃ fault, noteRows none meter = .error fault meter

theorem Recalls.takes
    (h : Recalls calls meter) (hvalue : IsNoteValue duration) (left : Meter) :
    Takes (wholeRows calls) duration (meter.answer duration left) := by
  rw [← h.scale]
  exact takes_rowsOf (pos_of_isPowerWithinBounds h.isBinary.scale) hvalue left

theorem Recalls.first
    (h : Recalls calls meter) (hlast : lastSet? calls = none) (hfits : Fits calls) :
    ∃ rows next, meter.beatRows = .ok rows ∧ noteRows none meter = .ok rows next ∧
      rows * (signature calls).2 = wholeRows calls * beatUnits (signature calls).1 ∧
      Takes (wholeRows calls) (oneBeat (signature calls).1 (signature calls).2)
        (noteRows none meter) := by
  obtain ⟨unitRows, hscale⟩ := h.fits_iff.mp hfits
  have hunit := pos_of_isPowerWithinBounds h.isBinary.beatUnit
  have hanswer := noteRows_first (h.length.trans hlast) (h.isBinary.beatDuration_eq hscale)
  have hrows : noteRows none meter = .ok ↑(unitRows * beatUnits meter.beats)
      { meter with length := some (oneBeat meter.beats meter.beatUnit) } := by
    rw [hanswer, answer, h.isBinary.rowsOf_oneBeat hscale]
    rfl
  refine ⟨_, _, beatRows_eq hscale hunit, hrows, ?_, ?_⟩
  · rw [← h.scale, ← h.beats, ← h.beatUnit, hscale]
    ring
  · rw [hanswer, ← h.beats, ← h.beatUnit]
    exact h.takes (h.isBinary.isNoteValue_oneBeat meter.beats) _

/-- Whatever calls were made, a note takes the rows of the duration in force, which for a note
without one is the duration that was set last, or else one beat. -/
theorem elides_of_led (h : Led calls meter) : Elides calls meter := by
  have hrecalls := h.recalls
  refine ⟨fun frames => noteRows_grace frames meter, ?_, ?_, hrecalls.first, ?_⟩
  · intro number augment duration hwritten hgrace
    rw [noteRows_written hgrace]
    exact hrecalls.takes (isNoteValue_of_writtenDuration hwritten hgrace) _
  · intro duration hlast
    have hvalue := hrecalls.isNoteValue duration hlast
    rw [noteRows_elided (hrecalls.length.trans hlast)]
    exact ⟨hvalue.not_grace, hrecalls.takes hvalue _⟩
  · intro hlast hfits
    have hdvd : ¬meter.beatUnit ∣ meter.scale := fun hdvd => hfits (hrecalls.fits_iff.mpr hdvd)
    exact ⟨_, noteRows_unfit (hrecalls.length.trans hlast) (beatDuration_of_not_dvd hdvd)⟩

/-- Two notes without a duration in six eighths, a grace note, and a note that is too short for
the scale but sticks; then the scale is made finer. -/
def gigue : List MeterCall :=
  [.scale 32, .note (some ⟨32, .plain⟩), .note (some ⟨3, .grace⟩), .durations "stick", .note none,
    .note none, .time 6 8]

/-- The meter after the calls. -/
def gigueMeter : Meter :=
  { sticky := true, scale := 32, beats := 6, beatUnit := 8, length := some ⟨32, .plain⟩,
    position := ⟨1, 0⟩ }

theorem led_gigue : Led gigue gigueMeter := by
  have hnone : writtenDuration none .plain = .ok none := rfl
  have hgrace : writtenDuration (some 3) .grace = .ok (some ⟨3, .grace⟩) := rfl
  have hshort : writtenDuration (some 32) .plain = .ok (some ⟨32, .plain⟩) := rfl
  have hfirst : Led [.note none, .note none, .time 6 8] _ :=
    .note (.note (.time .start rfl) hnone) hnone
  exact .scale (.note (.note (.durations hfirst rfl) hgrace) hshort) rfl

/-- The first note without a duration takes a dotted beat, and the last one takes the duration of
the note that was refused. -/
theorem gigue_elides :
    Led gigue gigueMeter ∧ lastSet? gigue = some ⟨32, .plain⟩ ∧
      noteRows none gigueMeter = .ok 1 gigueMeter ∧
      Takes 32 ⟨32, .plain⟩ (noteRows none gigueMeter) ∧
      ∃ start, Led [.time 6 8] start ∧ lastSet? [.time 6 8] = none ∧ Fits [.time 6 8] ∧
        start.beatRows = .ok 6 ∧ Takes 16 ⟨4, .dotted⟩ (noteRows none start) := by
  have hstart : Led [.time 6 8] { Meter.initial with beats := 6, beatUnit := 8 } :=
    .time .start rfl
  have hfits : Fits [.time 6 8] := by decide
  obtain ⟨_, _, -, -, -, htakes⟩ := (elides_of_led hstart).first rfl hfits
  exact ⟨led_gigue, rfl, rfl, ((elides_of_led led_gigue).elided _ rfl).2, _, hstart, rfl, hfits,
    rfl, htakes⟩

end Meter

end Chiptune
