import Chiptune.Proofs.Song.Bookkeeping
import Mathlib.Tactic.Ring

/-!
# Musical time

A song counts its rows, and its meter holds the position in measures and rows. The two
are kept apart: a wait until a position adds the difference to the row count and takes
up the position. As long as neither is changed in another way, the row count is that of
the position, so it does not matter which positions were visited on the way.

Rows and the length of a measure are counted in 32 bits, and the difference in 64. So the
row count is that of the position up to multiples of 4294967296, and there are measures
so long, and positions so far back, that a position behind is refused for another reason
than that it lies behind.
-/

namespace Chiptune

open Step

/-- The number of a position's row, counted from the start of the first measure, if a
measure has `length` rows. -/
def Position.rowNumber (length : Nat) (position : Position) : Int :=
  (position.measure - 1) * length + position.row

namespace Meter

variable {meter : Meter}

/-- The later meter divides time in the same way and stands at the same position. -/
structure SameTime (meter later : Meter) : Prop where
  scale : later.scale = meter.scale
  beats : later.beats = meter.beats
  beatUnit : later.beatUnit = meter.beatUnit
  position : later.position = meter.position

theorem SameTime.measureRows {later : Meter} (h : meter.SameTime later) :
    later.measureRows = meter.measureRows := by
  rw [Meter.measureRows, Meter.measureRows, unitRows, unitRows, h.scale, h.beats, h.beatUnit]

theorem SameTime.beatRows {later : Meter} (h : meter.SameTime later) :
    later.beatRows = meter.beatRows := by
  rw [Meter.beatRows, Meter.beatRows, unitRows, unitRows, isCompound, isCompound, h.scale,
    h.beats, h.beatUnit]

section Rows

variable {measureRows beatRows : Nat} (hmeasure : meter.measureRows = .ok measureRows)
include hmeasure

theorem locate_eq
    (hbeat : meter.beatRows = .ok beatRows) (measure : Int) (beat row : Nat) :
    meter.locate measure beat row =
      if beat < 1 then .error .beatBelowOne
      else if Text.maxNat32 < beatRows * (beat - 1) + row then
        .error (.tooFarIntoMeasure beat row)
      else if measureRows ≤ beatRows * (beat - 1) + row then
        .error (.rowBeyondMeasure (beatRows * (beat - 1) + row) measureRows)
      else .ok ⟨measure, beatRows * (beat - 1) + row⟩ := by
  rw [locate, hbeat, hmeasure]
  split
  · rfl
  · rfl

theorem moveTo_eq (target : Position) :
    meter.moveTo target =
      let rows :=
        Register.int64 (target.rowNumber measureRows - meter.position.rowNumber measureRows)
      if rows < 0 then
        .error (.backwards meter.position.measure meter.position.row target.measure target.row)
      else if (Text.maxNat32 : Int) < rows then .error (.waitTooLong rows target.measure)
      else .ok (rows.toNat, { meter with position := target }) := by
  have hrows : target.rowNumber measureRows - meter.position.rowNumber measureRows =
      (target.measure - meter.position.measure) * Int.ofNat measureRows +
        Int.ofNat target.row - Int.ofNat meter.position.row := by
    simp only [Position.rowNumber, Int.ofNat_eq_natCast]
    ring
  rw [moveTo, hmeasure, hrows]
  rfl

end Rows

end Meter

namespace Song

variable {song next : Song}

/-! ## Waits -/

theorem sendTempo_kept (rowsPerMinute : Nat) (song : Song) :
    (song.sendTempo rowsPerMinute).rows = song.rows ∧
      (song.sendTempo rowsPerMinute).meter = song.meter ∧
      (song.sendTempo rowsPerMinute).tempo = song.tempo := by
  unfold sendTempo
  split
  · exact ⟨rfl, rfl, rfl⟩
  · exact ⟨rfl, rfl, rfl⟩

theorem sendBeat_kept {beatRows : Nat} (h : song.sendBeat beatRows = .ok next) :
    next.rows = song.rows ∧ next.meter = song.meter ∧ next.tempo = song.tempo := by
  unfold sendBeat at h
  split at h
  · cases h
    exact ⟨rfl, rfl, rfl⟩
  · split at h
    · cases h
      exact ⟨rfl, rfl, rfl⟩
    · cases h

/-- A wait that succeeds adds its rows and leaves the meter and the tempo. -/
theorem waitRows_kept
    {rows : Nat} (hfits : song.rows < 4294967296) (h : Song.waitRows rows song = .ok () next) :
    next.rows = Register.nat32 (song.rows + rows) ∧ next.meter = song.meter ∧
      next.tempo = song.tempo := by
  by_cases hrows : rows = 0
  · rw [waitRows, if_pos hrows] at h
    cases h
    exact ⟨by rw [hrows, Nat.add_zero, Register.nat32_eq_self_iff.mpr hfits], rfl, rfl⟩
  · rw [waitRows_apply hrows] at h
    split at h
    · cases h
    · next beatRows _ =>
        dsimp only at h
        split at h
        · cases h
        · split at h
          · cases h
          · next sent hsent =>
              cases h
              obtain ⟨htold, hmeter, htempo⟩ :=
                sendTempo_kept (rowTempo song.tempo beatRows) song
              obtain ⟨hcounted, hsame, hkept⟩ := sendBeat_kept hsent
              rw [pushWaits_eq]
              exact ⟨by rw [hcounted, htold], hsame.trans hmeter, hkept.trans htempo⟩

/-- A wait until a position looks up the position, takes it up, and waits the rows from the
position before. -/
theorem waitUntil_apply (measure : Int) (beat row : Nat) (song : Song) :
    Song.waitUntil measure beat row song =
      match song.meter.locate measure beat row with
      | .error fault => .error fault song
      | .ok target =>
        match song.meter.moveTo target with
        | .error fault => .error fault song
        | .ok (rows, meter) => Song.waitRows rows { song with meter := meter } := by
  rw [waitUntil, get_bind_apply]
  cases song.meter.locate measure beat row with
  | error fault => rfl
  | ok target =>
      rw [decide_bind_apply]
      change EStateM.bind (Step.advance _) _ _ = _
      simp only [EStateM.bind, Step.advance]
      cases song.meter.moveTo target with
      | error fault => rfl
      | ok found => rfl

/-! ## Songs in time -/

/-- The row of a beat and a row in a measure, counted from the start of the song. -/
def rowAt (measureRows beatRows : Nat) (measure : Int) (beat row : Nat) : Int :=
  (measure - 1) * measureRows + (beat - 1) * beatRows + row

/-- The rows from where the song is to a beat and a row in a measure. -/
def rowsUntil (measureRows beatRows : Nat) (song : Song) (measure : Int) (beat row : Nat) : Int :=
  rowAt measureRows beatRows measure beat row - song.meter.position.rowNumber measureRows

/-- The song is in time: its measures and beats have the given rows, its position is not
behind its start, and its row count is the number of its position, in 32 bits. -/
structure InTime (measureRows beatRows : Nat) (song : Song) : Prop where
  measure : song.meter.measureRows = .ok measureRows
  beat : song.meter.beatRows = .ok beatRows
  fits : measureRows < 4294967296
  rows : (song.rows : Int) = song.meter.position.rowNumber measureRows % 4294967296
  started : 0 ≤ song.meter.position.rowNumber measureRows
  /-- The measure of the position is a number of 32 bits. -/
  within : song.meter.position.rowNumber measureRows ≤ 2147483647 * measureRows

section InTime

variable {measureRows beatRows : Nat} {measure : Int} {beat row : Nat}

theorem rowNumber_eq_rowAt (hbeat : 1 ≤ beat) :
    Position.rowNumber measureRows ⟨measure, beatRows * (beat - 1) + row⟩ =
      rowAt measureRows beatRows measure beat row := by
  simp only [Position.rowNumber, rowAt]
  push_cast [hbeat]
  ring

/-- The row numbers in a measure. -/
theorem rowNumber_bounds
    {offset : Nat} (hmeasure : Register.IsInt32 measure) (hinside : offset < measureRows) :
    -2147483649 * measureRows ≤ Position.rowNumber measureRows ⟨measure, offset⟩ ∧
      Position.rowNumber measureRows ⟨measure, offset⟩ ≤ 2147483647 * measureRows := by
  have hlow : -2147483649 * (measureRows : Int) ≤ (measure - 1) * measureRows :=
    Int.mul_le_mul_of_nonneg_right (by have := hmeasure.1; omega) (Int.natCast_nonneg _)
  have hhigh : (measure - 1) * (measureRows : Int) ≤ 2147483646 * measureRows :=
    Int.mul_le_mul_of_nonneg_right (by have := hmeasure.2; omega) (Int.natCast_nonneg _)
  simp only [Position.rowNumber]
  omega

theorem InTime.rows_lt (h : song.InTime measureRows beatRows) : song.rows < 4294967296 := by
  have hrows := h.rows
  omega

/-- What changes neither the row count nor the time of the meter keeps a song in time. -/
theorem InTime.congr
    (h : song.InTime measureRows beatRows) (hrows : next.rows = song.rows)
    (htime : song.meter.SameTime next.meter) : next.InTime measureRows beatRows where
  measure := htime.measureRows.trans h.measure
  beat := htime.beatRows.trans h.beat
  fits := h.fits
  rows := by rw [hrows, htime.position, h.rows]
  started := by rw [htime.position]; exact h.started
  within := by rw [htime.position]; exact h.within

/-- A position that a wait arrives at lies in its measure. -/
theorem InTime.inside_of_waitUntil
    (h : song.InTime measureRows beatRows)
    (hwait : Song.waitUntil measure beat row song = .ok () next) :
    1 ≤ beat ∧ beatRows * (beat - 1) + row < measureRows := by
  rw [waitUntil_apply, Meter.locate_eq h.measure h.beat] at hwait
  by_cases hfirst : beat < 1
  · rw [if_pos hfirst] at hwait
    cases hwait
  · rw [if_neg hfirst] at hwait
    split_ifs at hwait with hfar hbeyond
    exact ⟨by omega, by omega⟩

section Inside

variable (hfirst : 1 ≤ beat) (hinside : beatRows * (beat - 1) + row < measureRows)
include hfirst hinside

/-- A wait until a position in its measure is a move by the difference of row numbers, in 64
bits. -/
theorem InTime.waitUntil_of_inside (h : song.InTime measureRows beatRows) :
    Song.waitUntil measure beat row song =
      let target : Position := ⟨measure, beatRows * (beat - 1) + row⟩
      let here := song.meter.position
      let rows := Register.int64 (rowsUntil measureRows beatRows song measure beat row)
      if rows < 0 then
        .error (.backwards here.measure here.row target.measure target.row) song
      else if (Text.maxNat32 : Int) < rows then .error (.waitTooLong rows measure) song
      else
        Song.waitRows rows.toNat { song with meter := { song.meter with position := target } } := by
  have hfits := h.fits
  have hmax : Text.maxNat32 = 4294967295 := rfl
  rw [waitUntil_apply, Meter.locate_eq h.measure h.beat, if_neg (by omega), if_neg (by omega),
    if_neg (by omega)]
  dsimp only
  rw [Meter.moveTo_eq h.measure, rowNumber_eq_rowAt hfirst, ← rowsUntil]
  dsimp only
  split_ifs
  · rfl
  · rfl
  · rfl

/-- No wait is so long that 64 bits cannot tell it from one that goes back, and none goes back
so far that it seems short. -/
theorem InTime.rowsUntil_bounds
    (h : song.InTime measureRows beatRows) (hmeasure : Register.IsInt32 measure) :
    -18446744069414584320 ≤ rowsUntil measureRows beatRows song measure beat row ∧
      rowsUntil measureRows beatRows song measure beat row < 9223372036854775808 := by
  obtain ⟨hlow, hhigh⟩ := rowNumber_bounds hmeasure hinside
  rw [rowNumber_eq_rowAt hfirst] at hlow hhigh
  have hstarted := h.started
  have hwithin := h.within
  have hfits := h.fits
  unfold rowsUntil
  omega

/-- A wait that succeeds does not go back. -/
theorem InTime.int64_rowsUntil
    (h : song.InTime measureRows beatRows) (hmeasure : Register.IsInt32 measure)
    (hwait : Song.waitUntil measure beat row song = .ok () next) :
    0 ≤ rowsUntil measureRows beatRows song measure beat row ∧
      Register.int64 (rowsUntil measureRows beatRows song measure beat row) =
        rowsUntil measureRows beatRows song measure beat row := by
  obtain ⟨hlow, hhigh⟩ := h.rowsUntil_bounds hfirst hinside hmeasure
  have hmax : Text.maxNat32 = 4294967295 := rfl
  rw [h.waitUntil_of_inside hfirst hinside] at hwait
  dsimp only at hwait
  split_ifs at hwait with hback hlong
  by_cases hfar : rowsUntil measureRows beatRows song measure beat row < -9223372036854775808
  · rw [Register.int64_of_lt (by omega) hfar] at hlong
    omega
  · have hsame := Register.int64_eq_self (by omega) hhigh
    exact ⟨by omega, hsame⟩

/-- A wait until a position arrives at it, in time. -/
theorem InTime.waitUntil
    (h : song.InTime measureRows beatRows) (hmeasure : Register.IsInt32 measure)
    (hwait : Song.waitUntil measure beat row song = .ok () next) :
    next.InTime measureRows beatRows ∧ next.meter.position.rowNumber measureRows =
        rowAt measureRows beatRows measure beat row ∧ next.pace? = song.pace? := by
  obtain ⟨hforward, hsame⟩ := h.int64_rowsUntil hfirst hinside hmeasure hwait
  rw [h.waitUntil_of_inside hfirst hinside, hsame] at hwait
  dsimp only at hwait
  split_ifs at hwait with hback hlong
  have hfits := h.rows_lt
  obtain ⟨hrows, hmeter, htempo⟩ := waitRows_kept (by exact hfits) hwait
  dsimp only at hrows hmeter htempo
  have hposition : next.meter.position.rowNumber measureRows =
      rowAt measureRows beatRows measure beat row := by
    rw [hmeter, rowNumber_eq_rowAt hfirst]
  have hstarted : 0 ≤ rowAt measureRows beatRows measure beat row := by
    have hhere := h.started
    unfold rowsUntil at hforward
    omega
  have hcount : (next.rows : Int) = rowAt measureRows beatRows measure beat row % 4294967296 := by
    have hhere := h.rows
    rw [hrows, Register.nat32]
    unfold rowsUntil at hforward ⊢
    omega
  have hbounds := rowNumber_bounds hmeasure hinside
  rw [rowNumber_eq_rowAt hfirst] at hbounds
  refine ⟨⟨?_, ?_, h.fits, hposition ▸ hcount, hposition ▸ hstarted, hposition ▸ hbounds.2⟩,
    hposition, ?_⟩
  · rw [hmeter]
    exact h.measure
  · rw [hmeter]
    exact h.beat
  · rw [pace?, pace?, hmeter, htempo]
    rfl

end Inside

end InTime

/-! ## Runs -/

/-- Whether an operation leaves the time to waits until a position: it neither declares
where the song is, nor waits on its own, nor changes how time is divided. Measures are
numbers of 32 bits. -/
def Operation.KeepsTime : Operation → Prop
  | waitRows _ | pickup .. => False
  | waitUntil measure _ _ => Register.IsInt32 measure
  | changeMeter change => ∀ meter later, change meter = .ok later → meter.SameTime later
  | _ => True

/-- An operation that succeeds and keeps time, or a change of what has to do neither with
rows nor with meter. -/
inductive Progress : Song → Song → Prop where
  | operation {song next : Song} {operation : Operation} (hkeeps : operation.KeepsTime)
      (hrun : operation.run song = .ok () next) : Progress song next
  | settings (song : Song) (pitch : PitchState) (mute : Field Nat) (title author : Field String) :
      Progress song { song with pitch := pitch, mute := mute, title := title, author := author }

theorem changing_eq_ok
    {change : Song → Except Fault Song} (h : changing change song = .ok () next) :
    change song = .ok next := by
  have hadvance := advance_eq_ok h
  obtain ⟨_, hchange, hpair⟩ := map_eq_ok hadvance
  cases hpair
  exact hchange

theorem InTime.run
    {measureRows beatRows : Nat} (h : song.InTime measureRows beatRows) {operation : Operation}
    (hkeeps : operation.KeepsTime) (hrun : operation.run song = .ok () next) :
    next.InTime measureRows beatRows := by
  have hstill : song.meter.SameTime song.meter := ⟨rfl, rfl, rfl, rfl⟩
  cases operation with
  | waitRows rows => exact hkeeps.elim
  | pickup measure beat row => exact hkeeps.elim
  | waitUntil measure beat row =>
      obtain ⟨hfirst, hinside⟩ := h.inside_of_waitUntil hrun
      exact (h.waitUntil hfirst hinside hkeeps hrun).1
  | setTempo tempo =>
      have hset := changing_eq_ok hrun
      unfold Song.setTempo at hset
      split at hset
      · cases hset
        exact h.congr rfl hstill
      · cases hset
  | setSegno place =>
      obtain ⟨segno, -, rfl⟩ := map_eq_ok (changing_eq_ok hrun)
      exact h.congr rfl hstill
  | finish ending =>
      obtain ⟨event, -, rfl⟩ := exists_push_of_finish (changing_eq_ok hrun)
      exact h.congr rfl hstill
  | attackOn track =>
      have hset := changing_eq_ok hrun
      cases track with
      | pulse1 | pulse2 | triangle =>
          cases hset
          exact h.congr rfl hstill
      | drum | attack => cases hset
  | play pattern track instrument transpose place =>
      cases hrun
      exact h.congr rfl hstill
  | noteOn track pitch instrument place =>
      cases hrun
      exact h.congr rfl hstill
  | stop tracks =>
      cases hrun
      exact h.congr rfl hstill
  | addMark name =>
      obtain ⟨⟨warnings, marked⟩, hmarked, rfl⟩ := map_eq_ok (changing_eq_ok hrun)
      unfold Song.addMark at hmarked
      split at hmarked
      · cases hmarked
      · cases hmarked
        exact h.congr rfl hstill
  | changeMeter change =>
      obtain ⟨meter, hmeter, rfl⟩ := map_eq_ok (changing_eq_ok hrun)
      exact h.congr rfl (hkeeps _ _ hmeter)

theorem InTime.progress
    {measureRows beatRows : Nat} (h : song.InTime measureRows beatRows)
    (hprogress : Progress song next) : next.InTime measureRows beatRows := by
  cases hprogress with
  | operation hkeeps hrun => exact h.run hkeeps hrun
  | settings => exact h.congr rfl ⟨rfl, rfl, rfl, rfl⟩

theorem InTime.reached
    {measureRows beatRows : Nat} (h : song.InTime measureRows beatRows)
    (hreached : Relation.ReflTransGen Progress song next) : next.InTime measureRows beatRows := by
  induction hreached with
  | refl => exact h
  | tail _ hprogress ih => exact ih.progress hprogress

/-! ## Measures in 32 bits -/

section FullRows

variable (fullRows beatRows : Nat) {measure : Int} (beat row : Nat)

end FullRows

section TellsTime

variable {fullRows beatRows : Nat} {measure : Int} {beat row : Nat}

end TellsTime

/-- As long a measure as 32 bits can count. -/
def widest : Meter := { Meter.initial with scale := 64, beats := 4294967295, beatUnit := 64 }

end Song

end Chiptune
