import Chiptune.Proofs.Output.Identifiers
import Chiptune.Proofs.Voice.Expansion
import Chiptune.Proofs.Voice.Revisions
import Mathlib.Data.List.Infix

/-!
# Attacks of instruments

The bytes of an attack can be read back from left to right, since the flag in the first byte of
a frame tells whether a second one follows. They hold all frames of the envelope but the last,
and the definition of the instrument holds the last one and how many there are before it.
-/

namespace Chiptune

open Step Output

namespace Instrument

variable {instrument later : Instrument} {step : EnvelopeStep} {rest : List Nat}

/-! ## Reading bytes -/

/-- A byte as a number with a sign. -/
def signed (byte : Nat) : Int := if byte < 128 then byte else (byte : Int) - 256

/-- A frame with timbre and volume from the first byte. -/
def headed (head : Nat) (pitch : Int) : EnvelopeStep := ⟨bits 6 2 head, bits 0 4 head, pitch⟩

/-- The frames in the bytes of an attack, if nothing is left over. A frame whose first byte is
not flagged has a second one for the pitch. -/
def readAttack : List Nat → Option (List EnvelopeStep)
  | [] => some []
  | head :: rest =>
    if bits 4 1 head = 1 then (readAttack rest).map (headed head 0 :: ·)
    else
      match rest with
      | [] => none
      | offset :: rest => (readAttack rest).map (headed head (signed offset) :: ·)

/-- The pitches that are accepted, in semitones from the played note. -/
def IsOffset (pitch : Int) : Prop := -60 ≤ pitch ∧ pitch ≤ 60

/-- The values of the frame leave the flag free. -/
structure Fits (step : EnvelopeStep) : Prop where
  timbre : step.timbre ≤ 3
  volume : step.volume ≤ 15
  pitch : IsOffset step.pitch

theorem Fits.headed_eq
    {head flag : Nat} (h : Fits step) (hhead : head = step.timbre * 64 + step.volume + flag * 16)
    (hflag : flag ≤ 1) : bits 4 1 head = flag ∧ headed head step.pitch = step := by
  have htimbre := h.timbre
  have hvolume := h.volume
  have hbit : bits 4 1 head = flag := by unfold bits; omega
  have hhigh : bits 6 2 head = step.timbre := by unfold bits; omega
  have hlow : bits 0 4 head = step.volume := by unfold bits; omega
  exact ⟨hbit, by rw [headed, hhigh, hlow]⟩

theorem Fits.signed_eq (h : Fits step) : signed (step.pitch % 256).toNat = step.pitch := by
  obtain ⟨hlow, hhigh⟩ := h.pitch
  unfold signed
  split_ifs <;> omega

theorem readAttack_of_flagged {head : Nat} (h : bits 4 1 head = 1) (rest : List Nat) :
    readAttack (head :: rest) = (readAttack rest).map (headed head 0 :: ·) := by
  cases rest with
  | nil => simp [readAttack, h]
  | cons => rw [readAttack, if_pos h]

theorem readAttack_of_not_flagged {head : Nat} (h : bits 4 1 head = 0) (offset : Nat)
    (rest : List Nat) : readAttack (head :: offset :: rest) =
      (readAttack rest).map (headed head (signed offset) :: ·) := by
  rw [readAttack, if_neg (by omega)]

/-- Timbre, volume and flag do not overlap, so the first byte is their sum. -/
theorem Fits.frameBytes_eq (h : Fits step) :
    frameBytes step =
      if step.pitch = 0 then [step.timbre * 64 + step.volume + 1 * 16]
      else [step.timbre * 64 + step.volume + 0 * 16, (step.pitch % 256).toNat] := by
  have hvolume : step.volume < 2 ^ 4 := Nat.lt_succ_of_le h.volume
  have hhead : step.timbre <<< 6 ||| step.volume = step.timbre * 64 + step.volume :=
    shiftLeft_or_eq (by omega)
  have hflag : step.volume ||| 16 = 1 <<< 4 + step.volume := by
    rw [Nat.or_comm, Nat.shiftLeft_add_eq_or_of_lt hvolume]
    rfl
  have hflagged : step.timbre <<< 6 ||| step.volume ||| 16 =
      step.timbre * 64 + (1 <<< 4 + step.volume) := by
    rw [Nat.or_assoc, hflag]
    exact shiftLeft_or_eq (by omega)
  rw [frameBytes, hflagged, hhead, Nat.zero_mul, Nat.add_zero, Nat.add_assoc,
    Nat.add_comm step.volume]
  rfl

/-- The bytes of a frame are read as the frame, and the rest as before. -/
theorem Fits.readAttack_frameBytes (h : Fits step) (rest : List Nat) :
    readAttack (frameBytes step ++ rest) = (readAttack rest).map (step :: ·) := by
  by_cases hzero : step.pitch = 0
  · obtain ⟨hflag, hheaded⟩ := h.headed_eq (rfl : _ = _ + 1 * 16) (Nat.le_refl 1)
    rw [hzero] at hheaded
    have hbytes : frameBytes step = [step.timbre * 64 + step.volume + 1 * 16] := by
      rw [h.frameBytes_eq, if_pos hzero]
    rw [hbytes, List.singleton_append, readAttack_of_flagged hflag, hheaded]
  · obtain ⟨hflag, hheaded⟩ := h.headed_eq (rfl : _ = _ + 0 * 16) (Nat.zero_le 1)
    have hbytes : frameBytes step =
        [step.timbre * 64 + step.volume + 0 * 16, (step.pitch % 256).toNat] := by
      rw [h.frameBytes_eq, if_neg hzero]
    rw [hbytes, List.cons_append, List.singleton_append, readAttack_of_not_flagged hflag,
      h.signed_eq, hheaded]

theorem readAttack_flatMap {steps : List EnvelopeStep} (h : ∀ step ∈ steps, Fits step) :
    readAttack (steps.flatMap frameBytes) = some steps := by
  induction steps with
  | nil => rfl
  | cons step steps ih =>
      obtain ⟨hstep, hsteps⟩ := List.forall_mem_cons.mp h
      rw [List.flatMap_cons, hstep.readAttack_frameBytes, ih hsteps, Option.map_some]

theorem Fits.lt_of_mem_frameBytes {byte : Nat} (h : Fits step) (hbyte : byte ∈ frameBytes step) :
    byte < 256 := by
  rw [h.frameBytes_eq] at hbyte
  obtain ⟨htimbre, hvolume, -⟩ := h
  split_ifs at hbyte
  · rw [List.mem_singleton] at hbyte
    omega
  · simp only [List.mem_cons, List.not_mem_nil, or_false] at hbyte
    omega

/-! ## Instruments that are defined -/

/-- The instruments that accepted properties make of one without properties. -/
inductive Defined : Instrument → Prop where
  | blank (name : String) (place : Location) : Defined (.blank name place)
  | revise {instrument later : Instrument} (h : Defined instrument)
      (hrevision : instrument.Revision later) : Defined later

theorem isOffset_of_readRelativePitch
    {word : String} {pitch : Int} (h : Envelope.readRelativePitch word = .ok pitch) :
    IsOffset pitch := by
  obtain ⟨value, -, hvalue⟩ := outcome_bind_eq_ok h
  split_ifs at hvalue with hrange
  cases hvalue
  exact hrange

theorem Revision.isWithin (hrevision : instrument.Revision later)
    (h : instrument.envelope.IsWithin mostTimbre IsOffset) :
    later.envelope.IsWithin mostTimbre IsOffset := by
  cases hrevision with
  | volume hset =>
      obtain ⟨envelope, henvelope, rfl⟩ := map_eq_ok hset
      exact h.setVolume henvelope
  | timbre hset =>
      obtain ⟨envelope, henvelope, rfl⟩ := map_eq_ok hset
      exact h.setTimbre henvelope
  | pitch hset =>
      obtain ⟨envelope, henvelope, rfl⟩ := map_eq_ok hset
      exact h.setPitch (fun _ _ => isOffset_of_readRelativePitch) henvelope
  | decay hset =>
      unfold Instrument.setDecay at hset
      split_ifs at hset
      obtain ⟨decay, -, rfl⟩ := map_eq_ok hset
      exact h
  | detached hset =>
      cases hset
      exact h

theorem Defined.isWithin (h : instrument.Defined) :
    instrument.envelope.IsWithin mostTimbre IsOffset := by
  induction h with
  | blank name place => exact Envelope.isWithin_blank mostTimbre IsOffset
  | revise _ hrevision ih => exact hrevision.isWithin ih

theorem Defined.fits (h : instrument.Defined) {step : EnvelopeStep}
    (hstep : step ∈ instrument.frames) : Fits step := by
  have hplain : plainTimbre ≤ mostTimbre := by decide
  have hpitch : IsOffset 0 := ⟨by decide, by decide⟩
  obtain ⟨hvolume, htimbre, hoffset⟩ := h.isWithin.frame hplain hpitch hstep
  exact ⟨htimbre, hvolume, hoffset⟩

/-! ## Definitions -/

theorem isWord_natText (n : Nat) : IsWord (Text.natText n) := by
  refine ⟨Text.natText_ne_nil n, fun c hc => ?_⟩
  simp [isIdentifier, Text.isAlphanumeric, Text.isDigit_of_mem_natText hc]

/-- The words of the definition are its operands. -/
theorem identifiers_definition (instrument : Instrument) :
    identifiers instrument.entry.definition =
      ["instdef", labelOf instrument.name, Text.natText instrument.sustain.timbre,
        Text.natText instrument.sustain.volume,
        Text.natText ((instrument.decay.value?).getD 0), if instrument.detached then "1" else "0",
        if 0 < instrument.attack.length then "PIDAT_" ++ Name.label instrument.name else "0",
        Text.natText instrument.attack.length] := by
  have hlabel : IsWord (labelOf instrument.name) :=
    isWord_append_label ⟨by decide, List.all_eq_true.mp (by decide)⟩ _
  have hflag : IsWord (if instrument.detached then "1" else "0") := by
    split <;> exact ⟨by decide, List.all_eq_true.mp (by decide)⟩
  have hblock : IsWord (if 0 < instrument.attack.length then
      "PIDAT_" ++ Name.label instrument.name else "0") := by
    split
    · exact isWord_append_label ⟨by decide, List.all_eq_true.mp (by decide)⟩ _
    · exact ⟨by decide, List.all_eq_true.mp (by decide)⟩
  have hname : identifiers "instdef " = ["instdef"] := by decide
  simp only [entry, identifiers_append_of_endsApart (by decide : endsApart "instdef " = true),
    identifiers_intercalate (by decide : isSeparator ", " = true), List.flatMap_cons,
    List.flatMap_nil, hname, hlabel.identifiers, hflag.identifiers, hblock.identifiers,
    (isWord_natText _).identifiers, List.cons_append, List.nil_append]

/-! ## Attack and definition together -/

/-- What the bytes of the attack and the definition say of the frames. -/
structure ReadsBack (instrument : Instrument) : Prop where
  /-- There is a frame for each volume, with timbre and pitch from around their loops. -/
  unrolls : instrument.envelope.Unrolls plainTimbre instrument.frames
  bytes : ∀ byte ∈ instrument.attackBytes, byte < 256
  /-- The bytes are all read, and give the frames but the last. -/
  attack : readAttack instrument.attackBytes = some instrument.frames.dropLast
  /-- The definition has the last frame, and the number of the frames before it. -/
  definition : ∃ last decay detached block, instrument.frames.getLast? = some last ∧
    identifiers instrument.entry.definition =
      ["instdef", labelOf instrument.name, Text.natText last.timbre, Text.natText last.volume,
        decay, detached, block, Text.natText instrument.frames.dropLast.length]
  data_iff : instrument.entry.data.isSome = true ↔ 1 < instrument.frames.length
  /-- The block holds the bytes of the attack. -/
  data : ∀ block, instrument.entry.data = some block →
    block.packable = some instrument.attackBytes ∧
      block.atoms = instrument.attackBytes.map fun byte => "$" ++ Text.upperHex 2 byte

theorem data_eq (instrument : Instrument) :
    instrument.entry.data = if 0 < instrument.attack.length then
      some ⟨"PIDAT_" ++ Name.label instrument.name, .bytes,
        instrument.attackBytes.map fun byte => "$" ++ Text.upperHex 2 byte,
        some instrument.attackBytes⟩
    else none := rfl

/-- Whatever properties were given, the frames of an instrument are read back from the bytes of
its attack and from its definition. -/
theorem readsBack_of_defined (h : instrument.Defined) : instrument.ReadsBack := by
  have hframes : instrument.frames ≠ [] := h.isWithin.frames_ne_nil plainTimbre
  have hlast : instrument.frames.getLast? = some (instrument.frames.getLast hframes) :=
    List.getLast?_eq_some_getLast hframes
  have hattack : ∀ step ∈ instrument.attack, Fits step := fun step hstep =>
    h.fits (List.mem_of_mem_dropLast hstep)
  have hmore : 0 < instrument.attack.length ↔ 1 < instrument.frames.length := by
    rw [attack, List.length_dropLast]
    omega
  refine ⟨h.isWithin.unrolls plainTimbre, ?_, readAttack_flatMap hattack, ?_, ?_, ?_⟩
  · intro byte hbyte
    obtain ⟨step, hstep, hmem⟩ := List.mem_flatMap.mp hbyte
    exact (hattack step hstep).lt_of_mem_frameBytes hmem
  · have hdefinition := identifiers_definition instrument
    rw [sustain, hlast] at hdefinition
    exact ⟨_, _, _, _, hlast, hdefinition⟩
  · rw [← hmore, data_eq]
    split_ifs with hsome <;> simp [hsome]
  · intro block hblock
    rw [data_eq] at hblock
    split_ifs at hblock
    cases hblock
    exact ⟨rfl, rfl⟩

/-- Frames with a bent pitch, a pitch that loops, and two timbres. -/
def pluck : Instrument :=
  { name := "pluck"
    place := ⟨"band.txt", 1⟩
    envelope :=
      { volume := ⟨some ([15, 10, 7, 4], ⟨"band.txt", 2⟩)⟩
        timbre := ⟨some (⟨[3, 1], 1⟩, ⟨"band.txt", 3⟩)⟩
        pitch := ⟨some (⟨[-12, 0, 7], 2⟩, ⟨"band.txt", 4⟩)⟩ }
    decay := .unset
    detached := true }

theorem defined_pluck : pluck.Defined := by
  have hvolume : (Instrument.blank "pluck" ⟨"band.txt", 1⟩).setVolume ["15", "10", "7", "4"]
      ⟨"band.txt", 2⟩ = .ok _ := rfl
  have htimbre := Defined.revise (.revise (.blank _ _) (.volume hvolume))
    (.timbre (rfl : setTimbre _ ["3", "1"] ⟨"band.txt", 3⟩ = .ok _))
  have hpitch := htimbre.revise
    (.pitch (rfl : setPitch _ ["-12", "|", "0", "7"] ⟨"band.txt", 4⟩ = .ok _))
  exact hpitch.revise (.detached rfl)

/-- The attack has three frames in five bytes. -/
theorem pluck_readsBack :
    pluck.Defined ∧ pluck.frames = [⟨3, 15, -12⟩, ⟨1, 10, 0⟩, ⟨1, 7, 7⟩, ⟨1, 4, 0⟩] ∧
      pluck.attackBytes = [207, 244, 90, 71, 7] ∧
      readAttack pluck.attackBytes = some pluck.frames.dropLast ∧
      (pluck.entry.data.isSome = true ↔ 1 < pluck.frames.length) := by
  have hreads := readsBack_of_defined defined_pluck
  exact ⟨defined_pluck, rfl, rfl, hreads.attack, hreads.data_iff⟩

end Instrument

end Chiptune
