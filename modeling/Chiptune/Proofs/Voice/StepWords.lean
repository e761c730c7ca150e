import Chiptune.Proofs.Voice.Expansion
import Chiptune.Proofs.Voice.Revisions
import Mathlib.Data.List.DropRight

/-!
# Words of sound effects

The word of a frame holds its volume, its timbre and the low byte of its pitch in fields of
their own. Numbers are checked when they are given, so they are read back from the words. A
pitch that is written as a note has no bounds: the frames are read back, with note numbers that
the engine has, exactly if the pitches that are played lie between the lowest and the highest
note.
-/

namespace Chiptune

open Step

namespace SoundEffect

variable {effect later : SoundEffect} {channel : Channel} {step : EnvelopeStep}
  {frames kept : List EnvelopeStep}

/-! ## Silence at the end -/

/-- The frames without the longest silent tail that leaves a frame. -/
structure IsTrimmed (frames kept : List EnvelopeStep) : Prop where
  ne_nil : kept ≠ []
  silent : ∃ tail, frames = kept ++ tail ∧ ∀ step ∈ tail, step.volume = 0
  longest : ∀ other tail, other ≠ [] → frames = other ++ tail →
    (∀ step ∈ tail, step.volume = 0) → kept.length ≤ other.length

theorem IsTrimmed.mem_of_mem (h : IsTrimmed frames kept) (hstep : step ∈ kept) : step ∈ frames := by
  obtain ⟨tail, rfl, -⟩ := h.silent
  exact List.mem_append_left _ hstep

/-- Whether a frame is silent. -/
def isSilent (step : EnvelopeStep) : Bool := step.volume == 0

theorem audible_cons (step : EnvelopeStep) (steps : List EnvelopeStep) :
    audible (step :: steps) = step :: steps.rdropWhile isSilent := rfl

theorem isTrimmed_audible (h : frames ≠ []) : IsTrimmed frames (audible frames) := by
  obtain ⟨step, steps, rfl⟩ := List.exists_cons_of_ne_nil h
  rw [audible_cons]
  refine ⟨List.cons_ne_nil _ _, ⟨steps.rtakeWhile isSilent, ?_, ?_⟩, ?_⟩
  · rw [List.cons_append, List.rdropWhile_append_rtakeWhile]
  · intro tail htail
    simpa [isSilent] using List.mem_rtakeWhile_imp htail
  · intro other tail hother hframes hsilent
    -- The first frame stays even if it is silent, so only the others are compared.
    obtain ⟨first, others, rfl⟩ := List.exists_cons_of_ne_nil hother
    rw [List.cons_append] at hframes
    obtain ⟨rfl, rfl⟩ := List.cons.inj hframes
    have hdropped : (others ++ tail).rdropWhile isSilent = others.rdropWhile isSilent := by
      rw [List.rdropWhile, List.rdropWhile, List.reverse_append, List.dropWhile_append_of_pos]
      simpa [isSilent] using hsilent
    rw [hdropped]
    exact Nat.succ_le_succ (List.rdropWhile_prefix isSilent others).length_le

/-! ## Fields of a word -/

/-- What a word says of a frame. The triangle channel has no timbre. -/
structure Sounding where
  volume : Nat
  timbre : Option Nat
  pitch : Int
deriving DecidableEq, Repr

/-- What a frame sounds like on a channel. -/
def sounding (channel : Channel) (step : EnvelopeStep) : Sounding :=
  ⟨step.volume, if channel = .triangle then none else some step.timbre, step.pitch⟩

/-- Read the fields of a word: the volume in bits 8 to 11, the duty of a pulse in bits 14 and 15,
and in the low bits the note number, or the period of noise behind its loop flag. The words of
the triangle channel have bit 15 set. -/
def readWord? (channel : Channel) (word : Nat) : Option Sounding :=
  match channel with
  | .pulse => some ⟨bits 8 4 word, some (bits 14 2 word), bits 0 8 word⟩
  | .triangle =>
    if bits 15 1 word = 1 then some ⟨bits 8 4 word, none, bits 0 8 word⟩ else none
  | .noise => some ⟨bits 8 4 word, some (bits 7 1 word), bits 0 4 word⟩

/-- The pitches that the channel can play: periods of noise, or note numbers. -/
def IsPlayable (channel : Channel) (pitch : Int) : Prop :=
  0 ≤ pitch ∧ pitch ≤ if channel = .noise then 15 else 87

instance (channel : Channel) (pitch : Int) : Decidable (IsPlayable channel pitch) :=
  inferInstanceAs (Decidable (_ ∧ _))

/-- The values of the frame stay in their fields, but for notes out of range. -/
structure Fits (channel : Channel) (step : EnvelopeStep) : Prop where
  volume : step.volume ≤ 15
  timbre : step.timbre ≤ channel.mostTimbre
  noise : channel = .noise → IsPlayable channel step.pitch

/-- The fields of a frame do not overlap, so its word is their sum. -/
theorem Fits.frameWord_eq (h : Fits channel step) :
    frameWord channel step =
      channel.timbreBits step.timbre + step.volume * 256 + (step.pitch % 256).toNat := by
  have hvolume : step.volume < 2 ^ 4 := Nat.lt_succ_of_le h.volume
  have hlow : (step.pitch % 256).toNat < 2 ^ 8 := by omega
  cases channel with
  | pulse =>
      have hfront : step.timbre <<< 14 ||| step.volume <<< 8 =
          (step.timbre <<< 6 ||| step.volume) <<< 8 := by
        rw [Nat.shiftLeft_or_distrib, ← Nat.shiftLeft_add]
      have hduty : step.timbre <<< 6 ||| step.volume = step.timbre * 2 ^ 6 + step.volume :=
        shiftLeft_or_eq (by omega)
      rw [frameWord, Channel.timbreBits, hfront, shiftLeft_or_eq hlow, hduty, Nat.shiftLeft_eq]
      omega
  | triangle =>
      have hfront : 32768 ||| step.volume <<< 8 = (8 <<< 4 ||| step.volume) <<< 8 := by
        rw [Nat.shiftLeft_or_distrib]
        rfl
      rw [frameWord, Channel.timbreBits, hfront, shiftLeft_or_eq hlow, shiftLeft_or_eq hvolume]
      omega
  | noise =>
      have hperiod : 0 ≤ step.pitch ∧ step.pitch ≤ 15 := h.noise rfl
      have hshort : (step.pitch % 256).toNat < 2 ^ 7 := by omega
      -- The loop flag stands between the volume and the period.
      obtain ⟨flag, hflag, hbits⟩ :
          ∃ flag, flag < 2 ^ 1 ∧ Channel.noise.timbreBits step.timbre = flag <<< 7 := by
        rw [Channel.timbreBits]
        split_ifs
        · exact ⟨0, by decide, rfl⟩
        · exact ⟨1, by decide, rfl⟩
      have hfront : flag <<< 7 ||| step.volume <<< 8 = (step.volume <<< 1 ||| flag) <<< 7 := by
        rw [Nat.shiftLeft_or_distrib, ← Nat.shiftLeft_add, Nat.or_comm]
      rw [frameWord, hbits, hfront, shiftLeft_or_eq hshort, shiftLeft_or_eq hflag,
        Nat.shiftLeft_eq]
      omega

/-- The volume and the low byte of a word with them in their places. -/
theorem bits_of_parts
    {word high volume low : Nat} (hword : word = high * 4096 + volume * 256 + low)
    (hvolume : volume ≤ 15) (hlow : low < 256) :
    bits 8 4 word = volume ∧ bits 0 8 word = low := by
  unfold bits
  omega

/-- Of the pitch, a word has the low byte. -/
theorem Fits.readWord?_frameWord (h : Fits channel step) :
    readWord? channel (frameWord channel step) =
      some { sounding channel step with pitch := step.pitch % 256 } := by
  have hvolume := h.volume
  have hlow : (step.pitch % 256).toNat < 256 := by omega
  have hpitch : ((step.pitch % 256).toNat : Int) = step.pitch % 256 := by omega
  cases channel with
  | pulse =>
      have htimbre : step.timbre ≤ 3 := h.timbre
      have hword : frameWord .pulse step =
          step.timbre * 4 * 4096 + step.volume * 256 + (step.pitch % 256).toNat := by
        rw [h.frameWord_eq, Channel.timbreBits, Nat.shiftLeft_eq]
        omega
      have hduty : bits 14 2 (frameWord .pulse step) = step.timbre := by
        rw [hword]
        unfold bits
        omega
      obtain ⟨hloud, hnote⟩ := bits_of_parts hword hvolume hlow
      simp [readWord?, sounding, hduty, hloud, hnote, hpitch]
  | triangle =>
      have hword : frameWord .triangle step =
          8 * 4096 + step.volume * 256 + (step.pitch % 256).toNat := h.frameWord_eq
      have hset : bits 15 1 (frameWord .triangle step) = 1 := by
        rw [hword]
        unfold bits
        omega
      obtain ⟨hloud, hnote⟩ := bits_of_parts hword hvolume hlow
      simp [readWord?, sounding, hset, hloud, hnote, hpitch]
  | noise =>
      have htimbre : step.timbre ≤ 1 := h.timbre
      have hperiod : 0 ≤ step.pitch ∧ step.pitch ≤ 15 := h.noise rfl
      have hword : frameWord .noise step =
          0 * 4096 + step.volume * 256 + (step.timbre * 128 + (step.pitch % 256).toNat) := by
        rw [h.frameWord_eq, Channel.timbreBits]
        split_ifs <;> omega
      obtain ⟨hloud, hbyte⟩ := bits_of_parts hword hvolume (by omega)
      have hflag : bits 7 1 (frameWord .noise step) = step.timbre := by
        rw [hword]
        unfold bits
        omega
      have hnote : bits 0 4 (frameWord .noise step) = (step.pitch % 256).toNat := by
        rw [hword]
        unfold bits
        omega
      simp [readWord?, sounding, hflag, hloud, hnote, hpitch]

theorem Fits.frameWord_lt (h : Fits channel step) : frameWord channel step < 65536 := by
  have hvolume := h.volume
  have htimbre := h.timbre
  have hlow : (step.pitch % 256).toNat < 256 := by omega
  rw [h.frameWord_eq]
  cases channel with
  | pulse =>
      simp only [Channel.timbreBits, Channel.mostTimbre, Nat.shiftLeft_eq] at *
      omega
  | triangle =>
      simp only [Channel.timbreBits]
      omega
  | noise =>
      simp only [Channel.timbreBits]
      split_ifs <;> omega

/-- The low byte of a word on a channel of notes. -/
theorem Fits.noteNumber_frameWord (h : Fits channel step) (hchannel : channel ≠ .noise) :
    (bits 0 8 (frameWord channel step) : Int) = step.pitch % 256 := by
  have hread := h.readWord?_frameWord
  cases channel with
  | pulse =>
      simp only [readWord?, Option.some.injEq] at hread
      exact congrArg Sounding.pitch hread
  | triangle =>
      simp only [readWord?] at hread
      split_ifs at hread
      exact congrArg Sounding.pitch (Option.some.inj hread)
  | noise => exact absurd rfl hchannel

/-- A frame is read back from its word, with a note number that the engine has, exactly if its
pitch can be played. -/
theorem Fits.readsBack_iff (h : Fits channel step) :
    (readWord? channel (frameWord channel step) = some (sounding channel step) ∧
      (channel ≠ .noise → bits 0 8 (frameWord channel step) ≤ 87)) ↔
      IsPlayable channel step.pitch := by
  rw [h.readWord?_frameWord]
  by_cases hchannel : channel = .noise
  · have hplayable := h.noise hchannel
    refine iff_of_true ⟨?_, fun hne => absurd hchannel hne⟩ hplayable
    have hpitch : step.pitch % 256 = step.pitch := by
      obtain ⟨hlow, hhigh⟩ := hplayable
      rw [if_pos hchannel] at hhigh
      omega
    rw [hpitch]
    rfl
  · have hnote := h.noteNumber_frameWord hchannel
    have hsame : ({ sounding channel step with pitch := step.pitch % 256 } : Sounding) =
        sounding channel step ↔ step.pitch % 256 = step.pitch := by
      simp [sounding]
    rw [Option.some.injEq, hsame, IsPlayable, if_neg hchannel]
    constructor
    · rintro ⟨hpitch, hhigh⟩
      have := hhigh hchannel
      omega
    · rintro ⟨hlow, hhigh⟩
      exact ⟨by omega, fun _ => by omega⟩

/-! ## Sound effects that are defined -/

/-- The sound effects that accepted properties make of one without properties. -/
inductive Defined : SoundEffect → Prop where
  | blank (name : String) (place : Location) (channel : Channel) (pitch : PitchState) :
      Defined (.blank name place channel pitch)
  | revise {effect later : SoundEffect} (h : Defined effect)
      (hrevision : effect.Revision later) : Defined later

/-- The pitch is what a word stands for that is no number: a note in absolute octaves. -/
def IsNoted (pitch : PitchState) (value : Int) : Prop :=
  ∃ word next, Text.int32? word = none ∧ pitch.readAbsolute word = .ok (value, next)

/-- The pitches that are accepted on a channel. Notes are not checked. -/
def IsAccepted (channel : Channel) (pitch : PitchState) (value : Int) : Prop :=
  IsPlayable channel value ∨ channel ≠ .noise ∧ IsNoted pitch value

theorem noisePitch_bounds
    {word : String} {value : Int} (h : PitchState.noisePitch word = .ok value) :
    0 ≤ value ∧ value ≤ 15 := by
  unfold PitchState.noisePitch at h
  split at h
  · cases h
  · split_ifs at h
    cases h
    omega

theorem isAccepted_of_readPitch
    {pitch : PitchState} {word : String} {value : Int}
    (hmode : pitch.mode = .noise ↔ channel = .noise) (h : readPitch pitch word = .ok value) :
    IsAccepted channel pitch value := by
  have habsolute : ∀ found : Int × PitchState, pitch.readAbsolute word = .ok found →
      channel = .noise → IsPlayable channel found.1 := by
    intro found hfound hchannel
    rw [PitchState.readAbsolute, if_pos (hmode.mpr hchannel)] at hfound
    obtain ⟨number, hnumber, rfl⟩ := map_eq_ok hfound
    rw [IsPlayable, if_pos hchannel]
    exact noisePitch_bounds hnumber
  unfold readPitch at h
  split at h
  · split_ifs at h with hnoise hrange
    · obtain ⟨found, hfound, rfl⟩ := map_eq_ok h
      exact .inl (habsolute found hfound (hmode.mp hnoise))
    · cases h
      rw [hmode] at hnoise
      exact .inl (by rwa [IsPlayable, if_neg hnoise])
  · next hword =>
      obtain ⟨found, hfound, rfl⟩ := map_eq_ok h
      by_cases hchannel : channel = .noise
      · exact .inl (habsolute found hfound hchannel)
      · exact .inr ⟨hchannel, word, found.2, hword, hfound⟩

/-- The lists of the envelope have been checked, and pitches are read as the channel asks. -/
structure IsChecked (effect : SoundEffect) : Prop where
  mode : effect.pitch.mode = .noise ↔ effect.channel = .noise
  within : effect.envelope.IsWithin effect.channel.mostTimbre
    (IsAccepted effect.channel effect.pitch)

theorem isChecked_blank (name : String) (place : Location) (channel : Channel)
    (pitch : PitchState) : (SoundEffect.blank name place channel pitch).IsChecked := by
  refine ⟨?_, Envelope.isWithin_blank _ _⟩
  cases channel <;> simp [SoundEffect.blank, PitchState.restart]

theorem IsChecked.revise (h : effect.IsChecked) (hrevision : effect.Revision later) :
    later.IsChecked := by
  cases hrevision with
  | volume hset =>
      obtain ⟨envelope, henvelope, rfl⟩ := map_eq_ok hset
      exact ⟨h.mode, h.within.setVolume henvelope⟩
  | timbre hset =>
      obtain ⟨envelope, henvelope, rfl⟩ := map_eq_ok hset
      exact ⟨h.mode, h.within.setTimbre henvelope⟩
  | pitch hset =>
      obtain ⟨envelope, henvelope, rfl⟩ := map_eq_ok hset
      exact ⟨h.mode, h.within.setPitch (fun _ _ => isAccepted_of_readPitch h.mode) henvelope⟩
  | rate hset =>
      unfold SoundEffect.setRate at hset
      split_ifs at hset
      obtain ⟨rate, -, rfl⟩ := map_eq_ok hset
      exact ⟨h.mode, h.within⟩

theorem Defined.isChecked (h : effect.Defined) : effect.IsChecked := by
  induction h with
  | blank name place channel pitch => exact isChecked_blank name place channel pitch
  | revise _ hrevision ih => exact ih.revise hrevision

theorem IsChecked.frame (h : effect.IsChecked) (hstep : step ∈ effect.frames) :
    Fits effect.channel step ∧ IsAccepted effect.channel effect.pitch step.pitch := by
  have hplain : effect.channel.plainTimbre ≤ effect.channel.mostTimbre := by
    cases effect.channel <;> decide
  have hzero : IsAccepted effect.channel effect.pitch 0 := by
    refine .inl ⟨Int.le_refl 0, ?_⟩
    split_ifs <;> decide
  obtain ⟨hvolume, htimbre, hpitch⟩ := h.within.frame hplain hzero hstep
  refine ⟨⟨hvolume, htimbre, fun hnoise => ?_⟩, hpitch⟩
  exact hpitch.resolve_right fun hnoted => hnoted.1 hnoise

/-- The frames that are kept are read back from the words, with note numbers that the engine
has. -/
def ReadsBack (effect : SoundEffect) (kept : List EnvelopeStep) : Prop :=
  effect.stepWords.map (readWord? effect.channel) =
      kept.map (fun step => some (sounding effect.channel step)) ∧
    (effect.channel ≠ .noise → ∀ word ∈ effect.stepWords, bits 0 8 word ≤ 87)

theorem readsBack_iff_forall (hwords : effect.stepWords = kept.map (frameWord effect.channel)) :
    effect.ReadsBack kept ↔ ∀ step ∈ kept,
      readWord? effect.channel (frameWord effect.channel step) =
        some (sounding effect.channel step) ∧
      (effect.channel ≠ .noise → bits 0 8 (frameWord effect.channel step) ≤ 87) := by
  rw [ReadsBack, hwords, List.map_map, List.map_inj_left, List.forall_mem_map]
  constructor
  · rintro ⟨hread, hnotes⟩ step hstep
    exact ⟨hread step hstep, fun hchannel => hnotes hchannel step hstep⟩
  · intro h
    exact ⟨fun step hstep => (h step hstep).1, fun hchannel step hstep => (h step hstep).2 hchannel⟩

/-- Whatever properties were given, there are words for the frames up to the last audible one,
and volume and timbre are read back from them, with the low byte of the pitch. The frames are
read back, with note numbers that the engine has, exactly if their pitches can be played. On the
noise channel they always can; elsewhere only a pitch that is written as a note may not. -/
theorem reads_back_iff_playable (h : effect.Defined) :
    effect.envelope.Unrolls effect.channel.plainTimbre effect.frames ∧
    effect.stepWords ≠ [] ∧ (∀ word ∈ effect.stepWords, word < 65536) ∧
    ∃ kept, IsTrimmed effect.frames kept ∧
      effect.stepWords.map (readWord? effect.channel) = kept.map (fun step =>
        some { sounding effect.channel step with pitch := step.pitch % 256 }) ∧
      (effect.ReadsBack kept ↔ ∀ step ∈ kept, IsPlayable effect.channel step.pitch) ∧
      ∀ step ∈ kept, ¬IsPlayable effect.channel step.pitch →
        effect.channel ≠ .noise ∧ IsNoted effect.pitch step.pitch := by
  have hchecked := h.isChecked
  have hframes : effect.frames ≠ [] := hchecked.within.frames_ne_nil _
  have htrimmed := isTrimmed_audible hframes
  have hkept : ∀ step ∈ audible effect.frames, Fits effect.channel step ∧
      IsAccepted effect.channel effect.pitch step.pitch := fun step hstep =>
    hchecked.frame (htrimmed.mem_of_mem hstep)
  refine ⟨hchecked.within.unrolls _, ?_, ?_, audible effect.frames, htrimmed, ?_, ?_, ?_⟩
  · rw [stepWords, ne_eq, List.map_eq_nil_iff]
    exact htrimmed.ne_nil
  · intro word hword
    obtain ⟨step, hstep, rfl⟩ := List.mem_map.mp hword
    exact (hkept step hstep).1.frameWord_lt
  · rw [stepWords, List.map_map, List.map_inj_left]
    intro step hstep
    exact (hkept step hstep).1.readWord?_frameWord
  · rw [readsBack_iff_forall rfl]
    refine forall₂_congr fun step hstep => ?_
    exact (hkept step hstep).1.readsBack_iff
  · intro step hstep hnot
    exact (hkept step hstep).2.resolve_left hnot

/-- A sound effect on a pulse channel with the envelope, in a file of its own. -/
def pulsing (envelope : Envelope) : SoundEffect :=
  { SoundEffect.blank "boop" ⟨"boop.txt", 1⟩ .pulse .initial with envelope := envelope }

/-- Five frames with loops of timbre and pitch, the second of them silent and the last two. -/
def boop : SoundEffect :=
  pulsing
    { volume := ⟨some ([8, 0, 2, 0, 0], ⟨"boop.txt", 2⟩)⟩
      timbre := ⟨some (⟨[1, 0, 3], 2⟩, ⟨"boop.txt", 3⟩)⟩
      pitch := ⟨some (⟨[15, 19, 87], 2⟩, ⟨"boop.txt", 4⟩)⟩ }

theorem defined_boop : boop.Defined := by
  have hvolume := Defined.revise (.blank "boop" ⟨"boop.txt", 1⟩ .pulse .initial)
    (.volume (rfl : setVolume _ ["8", "0", "2", "0", "0"] ⟨"boop.txt", 2⟩ = .ok _))
  have htimbre := hvolume.revise
    (.timbre (rfl : setTimbre _ ["1", "|", "0", "3"] ⟨"boop.txt", 3⟩ = .ok _))
  exact htimbre.revise
    (.pitch (rfl : setPitch _ ["c", "|", "e", "87"] ⟨"boop.txt", 4⟩ = .ok _))

/-- Three frames are kept and read back from their words. -/
theorem boop_reads_back :
    boop.Defined ∧ boop.stepWords = [18447, 19, 49751] ∧
      ∃ kept, IsTrimmed boop.frames kept ∧ boop.ReadsBack kept := by
  have hplayable : ∀ step ∈ boop.frames, IsPlayable .pulse step.pitch := by decide
  obtain ⟨-, -, -, kept, htrimmed, -, hreads, -⟩ := reads_back_iff_playable defined_boop
  exact ⟨defined_boop, rfl, kept, htrimmed, hreads.mpr fun step hstep =>
    hplayable step (htrimmed.mem_of_mem hstep)⟩

/-- One frame, two octaves below the `c` of octave zero. -/
def rumble : SoundEffect :=
  pulsing
    { volume := .unset
      timbre := .unset
      pitch := ⟨some (⟨[-9], 1⟩, ⟨"boop.txt", 2⟩)⟩ }

/-- A note below the lowest one is accepted, and its word has the number of a note that the
engine does not have. -/
theorem rumble_not_read_back :
    rumble.Defined ∧ rumble.frames = [⟨2, 8, -9⟩] ∧ rumble.stepWords = [35063] ∧
      readWord? .pulse 35063 = some ⟨8, some 2, 247⟩ ∧
      ∀ kept, ¬rumble.ReadsBack kept := by
  have hdefined : rumble.Defined :=
    Defined.revise (.blank "boop" ⟨"boop.txt", 1⟩ .pulse .initial)
      (.pitch (rfl : setPitch _ ["c,,"] ⟨"boop.txt", 2⟩ = .ok _))
  refine ⟨hdefined, rfl, rfl, by decide, fun kept hreads => ?_⟩
  have hnote : bits 0 8 35063 ≤ 87 := hreads.2 nofun 35063 List.mem_cons_self
  exact absurd hnote (by decide)

end SoundEffect

end Chiptune
