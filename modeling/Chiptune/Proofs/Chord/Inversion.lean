import Chiptune.Proofs.Chord.Texts
import Mathlib.Algebra.Ring.Nat
import Mathlib.Data.Nat.Nth
import Mathlib.Dynamics.PeriodicPts.Defs

/-!
# Inversions of chords

An inversion keeps the pitch classes of a chord and moves its root to the next chord tone, so
that as many inversions as the chord has tones give the chord itself. This is so for every chord
within an octave that has a note above its base. The base alone has no such note: its inversion
adds the octave, which is not a chord within an octave any more.
-/

namespace Chiptune

namespace ChordCode

variable {code next : ChordCode} {text : String} {root note n : Nat}

/-! ## Tones and pitch classes -/

/-- The notes of the chord in semitones above its base. A zero adds no note. -/
def tones (code : ChordCode) : List Nat :=
  0 :: [code.first.val, code.second.val].filter (· ≠ 0)

/-- The number of different notes. -/
def toneCount (code : ChordCode) : Nat := code.tones.toFinset.card

/-- The pitch classes of the chord on a root. -/
def pitchClasses (code : ChordCode) (root : Nat) : Finset Nat :=
  (code.tones.map fun tone => (root + tone) % 12).toFinset

/-- The note, in semitones above the base, is a note of the chord in some octave. -/
def Sounds (code : ChordCode) (note : Nat) : Prop := note % 12 ∈ code.pitchClasses 0

instance (code : ChordCode) : DecidablePred code.Sounds := fun note =>
  inferInstanceAs (Decidable (note % 12 ∈ code.pitchClasses 0))

/-- The note that is `n` chord tones above the base, where the tones go on through all octaves. -/
noncomputable def toneAbove (code : ChordCode) (n : Nat) : Nat := Nat.nth code.Sounds n

theorem mem_tones {tone : Nat} :
    tone ∈ code.tones ↔ tone = 0 ∨ tone = code.first.val ∨ tone = code.second.val := by
  simp only [tones, List.mem_cons, List.mem_filter, List.not_mem_nil, or_false,
    decide_eq_true_eq]
  omega

theorem toneCount_eq (code : ChordCode) :
    code.toneCount = ({0, code.first.val, code.second.val} : Finset Nat).card := by
  have htones : code.tones.toFinset = {0, code.first.val, code.second.val} := by
    ext tone
    simp only [List.mem_toFinset, mem_tones, Finset.mem_insert, Finset.mem_singleton]
  rw [toneCount, htones]

theorem mem_pitchClasses {pitchClass : Nat} :
    pitchClass ∈ code.pitchClasses root ↔
      ∃ tone ∈ code.tones, (root + tone) % 12 = pitchClass := by
  simp [pitchClasses]

theorem sounds_iff_exists : code.Sounds note ↔ ∃ tone ∈ code.tones, tone % 12 = note % 12 := by
  simp [Sounds, mem_pitchClasses]

theorem sounds_congr {other : Nat} (h : note % 12 = other % 12) :
    code.Sounds note ↔ code.Sounds other := by
  rw [Sounds, Sounds, h]

theorem sounds_octaves (code : ChordCode) (octaves : Nat) : code.Sounds (12 * octaves) :=
  sounds_iff_exists.mpr ⟨0, List.mem_cons_self, by omega⟩

/-- Up to octaves, eleven times the root upward is the root downward. -/
theorem mem_pitchClasses_iff_sounds {pitchClass : Nat} :
    pitchClass ∈ code.pitchClasses root ↔
      pitchClass < 12 ∧ code.Sounds (pitchClass + 11 * root) := by
  rw [mem_pitchClasses, sounds_iff_exists]
  constructor
  · rintro ⟨tone, htone, rfl⟩
    exact ⟨by omega, tone, htone, by omega⟩
  · rintro ⟨hclass, tone, htone, hsame⟩
    exact ⟨tone, htone, by omega⟩

/-- A chord that sounds on the root what another sounds there has its pitch classes. -/
theorem pitchClasses_eq_of_sounds (h : ∀ note, next.Sounds note ↔ code.Sounds (root + note)) :
    next.pitchClasses root = code.pitchClasses 0 := by
  ext pitchClass
  have hoctaves : code.Sounds (root + (pitchClass + 11 * root)) ↔ code.Sounds pitchClass :=
    sounds_congr (by omega)
  rw [mem_pitchClasses_iff_sounds, mem_pitchClasses_iff_sounds, h, hoctaves]
  rfl

/-! ## The tones above the base -/

theorem toneAbove_eq (hsounds : code.Sounds note) (hcount : Nat.count code.Sounds note = n) :
    code.toneAbove n = note := by
  rw [toneAbove, ← hcount]
  exact Nat.nth_count hsounds

example : (ofNats 4 7).toneAbove 4 = 16 := toneAbove_eq (by decide) (by decide)

@[simp]
theorem toneAbove_zero (code : ChordCode) : code.toneAbove 0 = 0 :=
  toneAbove_eq (sounds_octaves code 0) (Nat.count_zero _)

theorem infinite_sounds (code : ChordCode) : (Set.ofPred code.Sounds).Infinite := by
  have hinjective : Function.Injective fun octaves => 12 * octaves := fun m n h => by
    dsimp only at h
    omega
  exact Set.infinite_of_injective_forall_mem hinjective (sounds_octaves code)

theorem sounds_toneAbove (code : ChordCode) (n : Nat) : code.Sounds (code.toneAbove n) :=
  Nat.nth_mem_of_infinite (infinite_sounds code) n

theorem count_toneAbove (code : ChordCode) (n : Nat) :
    Nat.count code.Sounds (code.toneAbove n) = n :=
  Nat.count_nth_of_infinite (infinite_sounds code) n

/-! ## Codes and their texts -/

theorem ofNats_val (code : ChordCode) : ofNats code.first.val code.second.val = code := by
  simp [ofNats]

theorem ofDigits?_text (code : ChordCode) : ofDigits? code.text = some code := by
  have hvalues := TextChord.values_text code
  rw [TextChord.values] at hvalues
  rw [ofDigits?, hvalues]
  exact congrArg some (ofNats_val code)

theorem invertText_of_inverted?
    (hdigits : ofDigits? text = some code) (hnext : code.inverted? = some next) (times : Nat) :
    invertText text (times + 1) = (next.invert times).map ChordCode.text := by
  simp only [invertText, hdigits, hnext]

end ChordCode

/-! ## Chords in close position -/

/-- A chord of two or three notes within an octave. -/
@[ext]
structure CloseChord where
  low : Nat
  high : Nat
  low_lt : low < 12
  high_lt : high < 12
  sounding : low ≠ 0 ∨ high ≠ 0

namespace CloseChord

variable (chord : CloseChord) {text : String}

/-- The code of the chord. -/
def code : ChordCode := .ofNats chord.low chord.high

/-- The chord that is inverted, which is in close position too. -/
def inverted : CloseChord → CloseChord
  | ⟨low, high, _, _, _⟩ =>
    if _ : high = 0 then ⟨12 - low, 0, by omega, by omega, by omega⟩
    else if _ : low = 0 then ⟨12 - high, 12 - high, by omega, by omega, by omega⟩
    else if _ : low ≤ high then ⟨high - low, 12 - low, by omega, by omega, by omega⟩
    else ⟨12 - high, low - high, by omega, by omega, by omega⟩

/-- The lowest note above the base. -/
def lowest : Nat :=
  if chord.high = 0 then chord.low
  else if chord.low = 0 then chord.high
  else min chord.low chord.high

@[simp]
theorem first_code : chord.code.first.val = chord.low :=
  Nat.mod_eq_of_lt (by have := chord.low_lt; omega)

@[simp]
theorem second_code : chord.code.second.val = chord.high :=
  Nat.mod_eq_of_lt (by have := chord.high_lt; omega)

theorem inverted?_code : chord.code.inverted? = some chord.inverted.code := by
  have hclose : ¬(12 ≤ chord.low ∨ 12 ≤ chord.high) := by
    have := chord.low_lt
    have := chord.high_lt
    omega
  simp only [ChordCode.inverted?, first_code, second_code, if_neg hclose, inverted]
  split_ifs <;> rfl

/-- What an inversion makes of the two notes above the base, and which of them is its root. -/
theorem inverted_cases :
    chord.high = 0 ∧ chord.lowest = chord.low ∧
      chord.inverted.low = 12 - chord.low ∧ chord.inverted.high = 0 ∨
    chord.low = 0 ∧ chord.lowest = chord.high ∧
      chord.inverted.low = 12 - chord.high ∧ chord.inverted.high = 12 - chord.high ∨
    chord.low ≤ chord.high ∧ chord.lowest = chord.low ∧ chord.low ≠ 0 ∧
      chord.inverted.low = chord.high - chord.low ∧ chord.inverted.high = 12 - chord.low ∨
    chord.high < chord.low ∧ chord.lowest = chord.high ∧ chord.high ≠ 0 ∧
      chord.inverted.low = 12 - chord.high ∧
      chord.inverted.high = chord.low - chord.high := by
  obtain ⟨low, high, hlow, hhigh, hsounding⟩ := chord
  simp only [inverted, lowest]
  split_ifs with hnone hbase hle
  · exact .inl ⟨hnone, rfl, rfl, rfl⟩
  · exact .inr (.inl ⟨hbase, rfl, rfl, rfl⟩)
  · exact .inr (.inr (.inl ⟨hle, Nat.min_eq_left hle, hbase, rfl, rfl⟩))
  · have hlt : high < low := Nat.lt_of_not_le hle
    exact .inr (.inr (.inr ⟨hlt, Nat.min_eq_right hlt.le, hnone, rfl, rfl⟩))

/-- A chord in close position stays one, so it can be inverted any number of times. -/
theorem invert_code (times : Nat) :
    chord.code.invert times = .ok (inverted^[times] chord).code := by
  induction times generalizing chord with
  | zero => rfl
  | succ times ih =>
      rw [ChordCode.invert, inverted?_code]
      exact ih chord.inverted

/-! ### The root moves to the next tone -/

theorem sounds_code_iff {note : Nat} :
    chord.code.Sounds note ↔
      note % 12 = 0 ∨ note % 12 = chord.low ∨ note % 12 = chord.high := by
  have hlow := chord.low_lt
  have hhigh := chord.high_lt
  rw [ChordCode.sounds_iff_exists]
  constructor
  · rintro ⟨tone, htone, hsame⟩
    rw [ChordCode.mem_tones, first_code, second_code] at htone
    omega
  · intro hnote
    refine ⟨note % 12, ?_, by omega⟩
    rw [ChordCode.mem_tones, first_code, second_code]
    exact hnote

theorem sounds_inverted {note : Nat} :
    chord.inverted.code.Sounds note ↔ chord.code.Sounds (chord.lowest + note) := by
  have hlow := chord.low_lt
  have hhigh := chord.high_lt
  rw [sounds_code_iff, sounds_code_iff]
  obtain ⟨hnone, hroot, hfirst, hsecond⟩ | ⟨hbase, hroot, hfirst, hsecond⟩ |
    ⟨hle, hroot, -, hfirst, hsecond⟩ | ⟨hlt, hroot, -, hfirst, hsecond⟩ := chord.inverted_cases
  all_goals
    rw [hroot, hfirst, hsecond]
    omega

theorem lowest_ne_zero : chord.lowest ≠ 0 := by
  have hsounding := chord.sounding
  have hcases := chord.inverted_cases
  omega

theorem not_sounds_of_lt_lowest {note : Nat} (hpos : 0 < note) (hlt : note < chord.lowest) :
    ¬chord.code.Sounds note := by
  have hlow := chord.low_lt
  have hhigh := chord.high_lt
  have hcases := chord.inverted_cases
  rw [sounds_code_iff]
  omega

/-- Below the lowest note above the base only the base sounds. -/
theorem count_lowest : Nat.count chord.code.Sounds chord.lowest = 1 := by
  obtain ⟨gap, hgap⟩ : ∃ gap, chord.lowest = gap + 1 :=
    Nat.exists_eq_succ_of_ne_zero chord.lowest_ne_zero
  have hbase : chord.code.Sounds 0 := chord.code.sounds_octaves 0
  have hsilent : Nat.count (fun note => chord.code.Sounds (note + 1)) gap = 0 :=
    Nat.count_of_forall_not fun note hnote =>
      chord.not_sounds_of_lt_lowest (by omega) (by omega)
  rw [hgap, Nat.count_succ', hsilent, if_pos hbase]

theorem toneAbove_succ (n : Nat) :
    chord.code.toneAbove (n + 1) = chord.lowest + chord.inverted.code.toneAbove n := by
  apply ChordCode.toneAbove_eq
  · exact chord.sounds_inverted.mp (ChordCode.sounds_toneAbove _ n)
  · simp only [Nat.count_add, count_lowest, ← sounds_inverted]
    rw [ChordCode.count_toneAbove, Nat.add_comm]

/-- After any number of inversions the chord sounds as before on the tone that is its root then. -/
theorem sounds_iterate (times : Nat) {note : Nat} :
    (inverted^[times] chord).code.Sounds note ↔
      chord.code.Sounds (chord.code.toneAbove times + note) := by
  induction times generalizing chord with
  | zero => simp
  | succ times ih =>
      -- The first inversion makes the lowest note the root, from which the others count on.
      rw [Function.iterate_succ_apply, ih, sounds_inverted, toneAbove_succ, Nat.add_assoc]

/-! ### The chord comes back -/

/-- The chord has one note above its base. -/
def IsInterval : Prop := chord.low = 0 ∨ chord.high = 0 ∨ chord.low = chord.high

theorem toneCount_of_isInterval (h : chord.IsInterval) : chord.code.toneCount = 2 := by
  have htones : ({0, chord.low, chord.high} : Finset Nat) = {0, chord.lowest} := by
    have hcases := chord.inverted_cases
    unfold IsInterval at h
    ext tone
    simp only [Finset.mem_insert, Finset.mem_singleton]
    omega
  rw [ChordCode.toneCount_eq, first_code, second_code, htones]
  exact Finset.card_pair chord.lowest_ne_zero.symm

theorem toneCount_of_not_isInterval (h : ¬chord.IsInterval) : chord.code.toneCount = 3 := by
  simp only [IsInterval, not_or] at h
  obtain ⟨hlow, hhigh, hne⟩ := h
  rw [ChordCode.toneCount_eq, first_code, second_code]
  exact Finset.card_eq_three.mpr ⟨0, _, _, Ne.symm hlow, Ne.symm hhigh, hne, rfl⟩

theorem inverted_inverted (h : chord.IsInterval) : chord.inverted.inverted = chord := by
  have hlow := chord.low_lt
  have hhigh := chord.high_lt
  have hagain := chord.inverted.inverted_cases
  unfold IsInterval at h
  obtain ⟨hnone, -, hfirst, hsecond⟩ | ⟨hbase, -, hfirst, hsecond⟩ |
    ⟨hle, -, hpos, hfirst, hsecond⟩ | ⟨hlt, -, hpos, hfirst, hsecond⟩ := chord.inverted_cases
  all_goals
    rw [hfirst, hsecond] at hagain
    ext <;> omega

theorem inverted_ascending (hpos : chord.low ≠ 0) (hle : chord.low ≤ chord.high) :
    chord.inverted.low = chord.high - chord.low ∧ chord.inverted.high = 12 - chord.low := by
  have hcases := chord.inverted_cases
  omega

theorem inverted_descending (hpos : chord.high ≠ 0) (hlt : chord.high < chord.low) :
    chord.inverted.low = 12 - chord.high ∧ chord.inverted.high = chord.low - chord.high := by
  have hcases := chord.inverted_cases
  omega

/-- Three different notes stay in ascending order, or in descending order. -/
theorem inverted_inverted_inverted (h : ¬chord.IsInterval) :
    chord.inverted.inverted.inverted = chord := by
  have hlow := chord.low_lt
  have hhigh := chord.high_lt
  simp only [IsInterval, not_or] at h
  obtain ⟨hlowpos, hhighpos, hne⟩ := h
  -- The pitch classes do not tell the two orders apart, so each is followed by itself.
  obtain hascending | hdescending := Nat.lt_or_gt_of_ne hne
  · obtain ⟨hlow₁, hhigh₁⟩ := chord.inverted_ascending hlowpos hascending.le
    obtain ⟨hlow₂, hhigh₂⟩ := chord.inverted.inverted_ascending (by omega) (by omega)
    obtain ⟨hlow₃, hhigh₃⟩ := chord.inverted.inverted.inverted_ascending (by omega) (by omega)
    ext <;> omega
  · obtain ⟨hlow₁, hhigh₁⟩ := chord.inverted_descending hhighpos hdescending
    obtain ⟨hlow₂, hhigh₂⟩ := chord.inverted.inverted_descending (by omega) (by omega)
    obtain ⟨hlow₃, hhigh₃⟩ := chord.inverted.inverted.inverted_descending (by omega) (by omega)
    ext <;> omega

theorem isPeriodicPt_inverted : Function.IsPeriodicPt inverted chord.code.toneCount chord := by
  by_cases h : chord.IsInterval
  · rw [chord.toneCount_of_isInterval h]
    exact chord.inverted_inverted h
  · rw [chord.toneCount_of_not_isInterval h]
    exact chord.inverted_inverted_inverted h

theorem invertText_succ (hdigits : ChordCode.ofDigits? text = some chord.code) (times : Nat) :
    ChordCode.invertText text (times + 1) = .ok (inverted^[times + 1] chord).code.text := by
  rw [ChordCode.invertText_of_inverted? hdigits chord.inverted?_code, invert_code]
  rfl

end CloseChord

/-! ## Inversions of a text -/

namespace ChordCode

variable {code : ChordCode} {text : String}

/-- Inverting the text of a chord gives a chord that has the same pitch classes on the note as
many chord tones above the base. If the number of inversions is a multiple of the number of
tones, the chord comes back, and so does a text that is in upper case. -/
def Rotates (text : String) (code : ChordCode) (times : Nat) : Prop :=
  ∃ result next, invertText text times = .ok result ∧ ofDigits? result = some next ∧
    next.pitchClasses (code.toneAbove times) = code.pitchClasses 0 ∧
    (code.toneCount ∣ times → next = code ∧ (text = code.text → result = text))

theorem rotates_zero (hdigits : ofDigits? text = some code) : Rotates text code 0 := by
  refine ⟨text, code, rfl, hdigits, ?_, fun _ => ⟨rfl, fun _ => rfl⟩⟩
  rw [toneAbove_zero]

theorem rotates_close
    (chord : CloseChord) (hdigits : ofDigits? text = some chord.code) (times : Nat) :
    Rotates text chord.code times := by
  cases times with
  | zero => exact rotates_zero hdigits
  | succ times =>
      refine ⟨_, _, chord.invertText_succ hdigits times, ofDigits?_text _, ?_, fun hrounds => ?_⟩
      · exact pitchClasses_eq_of_sounds fun note => chord.sounds_iterate (times + 1)
      · have hback : CloseChord.inverted^[times + 1] chord = chord :=
          (chord.isPeriodicPt_inverted.trans_dvd hrounds).eq
        rw [hback]
        exact ⟨rfl, Eq.symm⟩

theorem exists_closeChord
    (hfirst : code.first.val < 12) (hsecond : code.second.val < 12) (hsilent : code ≠ .silent) :
    ∃ chord : CloseChord, chord.code = code := by
  have hsounding : code.first.val ≠ 0 ∨ code.second.val ≠ 0 := by
    by_contra hzero
    obtain ⟨hlow, hhigh⟩ : code.first.val = 0 ∧ code.second.val = 0 := by omega
    apply hsilent
    rw [← ofNats_val code, hlow, hhigh]
    rfl
  exact ⟨⟨_, _, hfirst, hsecond, hsounding⟩, ofNats_val code⟩

/-- The base alone becomes a base with its octave, which cannot be inverted again. -/
theorem not_rotates_silent (hdigits : ofDigits? text = some .silent) (times : Nat) :
    ¬Rotates text .silent (times + 1) := by
  have hoctave : silent.inverted? = some (ofNats 12 0) := rfl
  rintro ⟨result, next, hinvert, hresult, -, hback⟩
  rw [invertText_of_inverted? hdigits hoctave] at hinvert
  cases times with
  | zero =>
      -- The pitch class is still the same, but one inversion is a whole round of one tone.
      cases hinvert
      rw [ofDigits?_text] at hresult
      cases hresult
      exact absurd (hback (by decide)).1 (by decide)
  | succ times => cases hinvert

/-- A chord within an octave is rotated by its inversions, however many they are, if and only
if it is not the base alone or is not inverted at all. -/
theorem rotates_iff_ne_silent
    {text : String} {code : ChordCode} (hdigits : ofDigits? text = some code)
    (hfirst : code.first.val < 12) (hsecond : code.second.val < 12) (times : Nat) :
    Rotates text code times ↔ code ≠ .silent ∨ times = 0 := by
  constructor
  · intro hrotates
    by_contra hnot
    obtain ⟨rfl, hpos⟩ : code = .silent ∧ times ≠ 0 := by simpa using hnot
    obtain ⟨fewer, rfl⟩ := Nat.exists_eq_succ_of_ne_zero hpos
    exact not_rotates_silent hdigits fewer hrotates
  · rintro (hsounding | rfl)
    · obtain ⟨chord, rfl⟩ := exists_closeChord hfirst hsecond hsounding
      exact rotates_close chord hdigits times
    · exact rotates_zero hdigits

/-- A chord whose second note is below its first comes back after a hundred rounds. -/
theorem sixth_rotates :
    ofDigits? "94" = some (.ofNats 9 4) ∧ Rotates "94" (.ofNats 9 4) 2 ∧
      invertText "94" 300 = .ok "94" := by
  have hdigits : ofDigits? "94" = some (.ofNats 9 4) := rfl
  have hrotates (times : Nat) : Rotates "94" (.ofNats 9 4) times :=
    (rotates_iff_ne_silent hdigits (by decide) (by decide) times).mpr (.inl (by decide))
  obtain ⟨result, next, hinvert, -, -, hback⟩ := hrotates 300
  have hsame : result = "94" := (hback (by decide)).2 rfl
  exact ⟨hdigits, hrotates 2, hsame ▸ hinvert⟩

/-- The base alone cannot be inverted twice. -/
theorem unison_not_rotated :
    ofDigits? "00" = some .silent ∧ invertText "00" 1 = .ok "C0" ∧
      invertText "00" 2 = .error (.wideChord "C0") ∧
      ¬Rotates "00" .silent 1 ∧ ¬Rotates "00" .silent 2 :=
  ⟨rfl, rfl, rfl, not_rotates_silent rfl 0, not_rotates_silent rfl 1⟩

end ChordCode

end Chiptune
