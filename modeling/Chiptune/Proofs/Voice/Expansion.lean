import Chiptune.Proofs.References
import Chiptune.Voice.Envelope

/-!
# Envelopes frame by frame

The lists of an envelope are checked when they are given: each has a value, loops within
itself, and holds only values of its range. So there is a frame for every volume, and its
timbre and pitch are found by going around the loops.
-/

namespace Chiptune

open Step

/-! ## Loops -/

namespace Looped

variable {α : Type} {looped : Looped α} {n index count : Nat}

/-- There is something to repeat, within the list. -/
structure IsLooping (looped : Looped α) : Prop where
  loop_pos : 0 < looped.loopLength
  loop_le : looped.loopLength ≤ looped.steps.length

/-- The place in the list of the value with number `n`, around the loop as often as needed. -/
def place (looped : Looped α) (n : Nat) : Nat :=
  if n < looped.steps.length then n
  else looped.steps.length - looped.loopLength + (n - looped.steps.length) % looped.loopLength

theorem IsLooping.place_lt (h : looped.IsLooping) (n : Nat) :
    looped.place n < looped.steps.length := by
  obtain ⟨hpos, hle⟩ := h
  have hmod := Nat.mod_lt (n - looped.steps.length) hpos
  unfold place
  split_ifs <;> omega

theorem IsLooping.place_of_le (h : looped.IsLooping) (hindex : index ≤ looped.steps.length) :
    looped.place index =
      if looped.steps.length ≤ index then index - looped.loopLength else index := by
  have hle := h.loop_le
  unfold place
  split_ifs with hlt hend hend
  · omega
  · rfl
  · rw [Nat.sub_eq_zero_of_le hindex, Nat.zero_mod]
    omega
  · omega

/-- To go on from the place is to go on from the number. -/
theorem IsLooping.place_place_add (h : looped.IsLooping) (hindex : index ≤ looped.steps.length)
    (n : Nat) : looped.place (looped.place index + n) = looped.place (index + n) := by
  obtain ⟨hpos, hle⟩ := h
  rw [IsLooping.place_of_le ⟨hpos, hle⟩ hindex]
  split_ifs with hend
  · -- Only at the end of the list is the place another one, a loop back.
    obtain rfl : index = looped.steps.length := by omega
    unfold place
    by_cases hn : n < looped.loopLength
    · have hmod : n % looped.loopLength = n := Nat.mod_eq_of_lt hn
      rw [if_pos (by omega), if_neg (by omega), Nat.add_sub_cancel_left, hmod]
    · have hmod : n % looped.loopLength = (n - looped.loopLength) % looped.loopLength :=
        Nat.mod_eq_sub_mod (by omega)
      rw [if_neg (by omega), if_neg (by omega), Nat.add_sub_cancel_left, hmod]
      congr 2
      omega
  · rfl

theorem IsLooping.expandFrom_succ (h : looped.IsLooping) (hindex : index ≤ looped.steps.length)
    (count : Nat) : ∃ value, looped.steps[looped.place index]? = some value ∧
      looped.expandFrom index (count + 1) =
        value :: looped.expandFrom (looped.place index + 1) count := by
  have hvalue := List.getElem?_eq_getElem (h.place_lt index)
  refine ⟨_, hvalue, ?_⟩
  rw [expandFrom, ← h.place_of_le hindex]
  simp only [hvalue]

theorem IsLooping.length_expandFrom (h : looped.IsLooping) (hindex : index ≤ looped.steps.length)
    (count : Nat) : (looped.expandFrom index count).length = count := by
  induction count generalizing index with
  | zero => rfl
  | succ count ih =>
      obtain ⟨value, -, hstep⟩ := h.expandFrom_succ hindex count
      rw [hstep, List.length_cons, ih (h.place_lt index)]

theorem IsLooping.getElem?_expandFrom
    (h : looped.IsLooping) (hindex : index ≤ looped.steps.length) (hn : n < count) :
    (looped.expandFrom index count)[n]? = looped.steps[looped.place (index + n)]? := by
  induction count generalizing index n with
  | zero => omega
  | succ count ih =>
      obtain ⟨value, hvalue, hstep⟩ := h.expandFrom_succ hindex count
      rw [hstep]
      cases n with
      | zero => rw [List.getElem?_cons_zero, Nat.add_zero, hvalue]
      | succ n =>
          have hnext : looped.place index + 1 ≤ looped.steps.length := h.place_lt index
          rw [List.getElem?_cons_succ, ih hnext (by omega), Nat.add_assoc,
            h.place_place_add hindex, Nat.add_comm 1 n]

/-! ## Reading lists -/

variable {what : String} {read : String → Except Fault α} {words : List String}

theorem split_eq_ok
    {values : List String} {loopLength : Nat} (h : split words = .ok (values, loopLength)) :
    0 < loopLength ∧ (values ≠ [] → loopLength ≤ values.length) := by
  unfold split at h
  split at h
  · cases h
    exact ⟨Nat.one_pos, List.length_pos_of_ne_nil⟩
  · next intro rest _ =>
      dsimp only at h
      split_ifs at h with hempty
      cases h
      refine ⟨List.length_pos_of_ne_nil fun hnil => hempty (List.isEmpty_iff.mpr hnil), fun _ => ?_⟩
      rw [List.length_append]
      omega

/-- What is stored of words that are read: a value for each word but the bar, and the loop. -/
theorem exists_split_of_read (h : Looped.read what read words = .ok looped) :
    ∃ values, split words = .ok (values, looped.loopLength) ∧ values ≠ [] ∧
      List.Forall₂ (fun word value => read word = .ok value) values looped.steps := by
  obtain ⟨⟨values, loopLength⟩, hsplit, hrest⟩ := outcome_bind_eq_ok h
  dsimp only at hrest
  split_ifs at hrest with hempty
  · cases hrest
  obtain ⟨steps, hsteps, hlooped⟩ := outcome_bind_eq_ok hrest
  cases hlooped
  exact ⟨values, hsplit, fun hnil => hempty (List.isEmpty_iff.mpr hnil),
    Assembly.forall₂_of_mapM hsteps⟩

/-- A list that is read loops, and its values were all read. -/
theorem read_eq_ok (h : Looped.read what read words = .ok looped) :
    looped.IsLooping ∧ ∀ value ∈ looped.steps, ∃ word, read word = .ok value := by
  obtain ⟨values, hsplit, hsome, hread⟩ := exists_split_of_read h
  obtain ⟨hpos, hle⟩ := split_eq_ok hsplit
  refine ⟨⟨hpos, ?_⟩, fun value hvalue => ?_⟩
  · rw [← hread.length_eq]
    exact hle hsome
  · obtain ⟨word, -, hword⟩ := forall₂_mem_right hread hvalue
    exact ⟨word, hword⟩

end Looped

/-! ## Frames -/

theorem Field.value?_of_set
    {α : Type} {field next : Field α} {value : α} {place : Location} {what owner : String}
    (h : field.set value place what owner = .ok next) : next.value? = some value := by
  unfold Field.set at h
  split at h
  · cases h
  · cases h
    rfl

/-- A list that is given loops, and holds only values of its range. -/
def Looped.IsWithin {α : Type} (range : α → Prop) (list : Option (Looped α)) : Prop :=
  ∀ looped, list = some looped → looped.IsLooping ∧ ∀ value ∈ looped.steps, range value

theorem Looped.isWithin_of_set
    {α : Type} {range : α → Prop} {read : String → Except Fault α} {looped : Looped α}
    {field next : Field (Looped α)} {words : List String} {kind what owner : String}
    {place : Location} (hrange : ∀ word value, read word = .ok value → range value)
    (hread : Looped.read kind read words = .ok looped)
    (hset : field.set looped place what owner = .ok next) : Looped.IsWithin range next.value? := by
  intro found hfound
  cases (Field.value?_of_set hset).symm.trans hfound
  obtain ⟨hlooping, hvalues⟩ := Looped.read_eq_ok hread
  refine ⟨hlooping, fun value hvalue => ?_⟩
  obtain ⟨word, hword⟩ := hvalues value hvalue
  exact hrange word value hword

/-- The value with number `n` of a list, if one is given. -/
def Looped.valueAt {α : Type} (plain : α) (list : Option (Looped α)) (n : Nat) : Option α :=
  match list with
  | some looped => looped.steps[looped.place n]?
  | none => some plain

namespace Envelope

variable {envelope next : Envelope} {mostTimbre plain : Nat} {pitches : Int → Prop}
  {words : List String} {location : Location} {owner : String}

/-- The lists of the envelope have been checked. -/
structure IsWithin (envelope : Envelope) (mostTimbre : Nat) (pitches : Int → Prop) : Prop where
  volume : envelope.volumes ≠ [] ∧ ∀ volume ∈ envelope.volumes, volume ≤ 15
  timbre : Looped.IsWithin (· ≤ mostTimbre) envelope.timbre.value?
  pitch : Looped.IsWithin pitches envelope.pitch.value?

theorem isWithin_blank (mostTimbre : Nat) (pitches : Int → Prop) :
    blank.IsWithin mostTimbre pitches :=
  ⟨⟨by decide, by decide⟩, nofun, nofun⟩

theorem readVolume_le {word : String} {volume : Nat} (h : readVolume word = .ok volume) :
    volume ≤ 15 := by
  obtain ⟨value, -, hvalue⟩ := outcome_bind_eq_ok h
  split_ifs at hvalue
  cases hvalue
  omega

theorem readTimbre_le {word : String} {timbre : Nat} (h : readTimbre mostTimbre word = .ok timbre) :
    timbre ≤ mostTimbre := by
  obtain ⟨value, -, hvalue⟩ := outcome_bind_eq_ok h
  split_ifs at hvalue with hrange
  cases hvalue
  have hmost := hrange.2
  simp only [Int.ofNat_eq_natCast] at hmost
  omega

theorem IsWithin.setVolume
    (h : envelope.IsWithin mostTimbre pitches)
    (hset : envelope.setVolume words location owner = .ok next) :
    next.IsWithin mostTimbre pitches := by
  obtain ⟨looped, hread, hrest⟩ := outcome_bind_eq_ok hset
  obtain ⟨volume, hvolume, hnext⟩ := outcome_bind_eq_ok hrest
  cases hnext
  obtain ⟨hlooping, hvalues⟩ := Looped.read_eq_ok hread
  have hvolumes : Envelope.volumes { envelope with volume := volume } = looped.steps := by
    simp [volumes, Field.value?_of_set hvolume]
  refine ⟨?_, h.timbre, h.pitch⟩
  rw [hvolumes]
  refine ⟨List.ne_nil_of_length_pos (hlooping.loop_pos.trans_le hlooping.loop_le), ?_⟩
  intro value hvalue
  obtain ⟨word, hword⟩ := hvalues value hvalue
  exact readVolume_le hword

theorem IsWithin.setTimbre
    (h : envelope.IsWithin mostTimbre pitches)
    (hset : envelope.setTimbre mostTimbre words location owner = .ok next) :
    next.IsWithin mostTimbre pitches := by
  obtain ⟨looped, hread, hrest⟩ := outcome_bind_eq_ok hset
  obtain ⟨timbre, htimbre, hnext⟩ := outcome_bind_eq_ok hrest
  cases hnext
  exact ⟨h.volume, Looped.isWithin_of_set (fun _ _ => readTimbre_le) hread htimbre, h.pitch⟩

theorem IsWithin.setPitch
    {read : String → Except Fault Int} (h : envelope.IsWithin mostTimbre pitches)
    (hread : ∀ word value, read word = .ok value → pitches value)
    (hset : envelope.setPitch read words location owner = .ok next) :
    next.IsWithin mostTimbre pitches := by
  obtain ⟨looped, hlooped, hrest⟩ := outcome_bind_eq_ok hset
  obtain ⟨pitch, hpitch, hnext⟩ := outcome_bind_eq_ok hrest
  cases hnext
  exact ⟨h.volume, h.timbre, Looped.isWithin_of_set hread hlooped hpitch⟩

/-- The frames of the envelope, one for each volume: timbre and pitch go around their loops. -/
structure Unrolls (envelope : Envelope) (plain : Nat) (frames : List EnvelopeStep) : Prop where
  length : frames.length = envelope.volumes.length
  volume : ∀ (n : Nat) (step : EnvelopeStep), frames[n]? = some step →
    envelope.volumes[n]? = some step.volume
  timbre : ∀ (n : Nat) (step : EnvelopeStep), frames[n]? = some step →
    Looped.valueAt plain envelope.timbre.value? n = some step.timbre
  pitch : ∀ (n : Nat) (step : EnvelopeStep), frames[n]? = some step →
    Looped.valueAt 0 envelope.pitch.value? n = some step.pitch

end Envelope

/-- A list that is given is expanded, and a plain value is repeated. -/
def Looped.unrolled {α : Type} (plain : α) (list : Option (Looped α)) (count : Nat) : List α :=
  match list with
  | some looped => looped.expand count
  | none => List.replicate count plain

theorem Looped.IsWithin.length_unrolled
    {α : Type} {range : α → Prop} {list : Option (Looped α)} (h : Looped.IsWithin range list)
    (plain : α) (count : Nat) : (Looped.unrolled plain list count).length = count := by
  cases list with
  | none => exact List.length_replicate
  | some looped => exact (h looped rfl).1.length_expandFrom (Nat.zero_le _) count

theorem Looped.IsWithin.getElem?_unrolled
    {α : Type} {range : α → Prop} {list : Option (Looped α)} (h : Looped.IsWithin range list)
    (plain : α) {n count : Nat} (hn : n < count) :
    (Looped.unrolled plain list count)[n]? = Looped.valueAt plain list n := by
  cases list with
  | none => simp [Looped.unrolled, Looped.valueAt, hn]
  | some looped =>
      have hplace := (h looped rfl).1.getElem?_expandFrom (Nat.zero_le _) hn
      rwa [Nat.zero_add] at hplace

theorem Looped.IsWithin.range_of_valueAt
    {α : Type} {range : α → Prop} {list : Option (Looped α)} {plain value : α} {n : Nat}
    (h : Looped.IsWithin range list) (hplain : range plain)
    (hvalue : Looped.valueAt plain list n = some value) : range value := by
  cases list with
  | none =>
      cases hvalue
      exact hplain
  | some looped => exact (h looped rfl).2 value (List.mem_of_getElem? hvalue)

namespace Envelope

variable {envelope : Envelope} {mostTimbre plain : Nat} {pitches : Int → Prop}

theorem frames_eq (envelope : Envelope) (plain : Nat) :
    envelope.frames plain =
      List.zipWith (fun volume (values : Nat × Int) => ⟨values.1, volume, values.2⟩)
        envelope.volumes
        ((Looped.unrolled plain envelope.timbre.value? envelope.volumes.length).zip
          (Looped.unrolled 0 envelope.pitch.value? envelope.volumes.length)) := by
  unfold frames
  cases envelope.timbre.value? with
  | none => cases envelope.pitch.value? <;> rfl
  | some looped => cases envelope.pitch.value? <;> rfl

theorem length_frames
    {timbres : Nat → Prop} (htimbre : Looped.IsWithin timbres envelope.timbre.value?)
    (hpitch : Looped.IsWithin pitches envelope.pitch.value?) (plain : Nat) :
    (envelope.frames plain).length = envelope.volumes.length := by
  rw [frames_eq, List.length_zipWith, List.length_zip, htimbre.length_unrolled,
    hpitch.length_unrolled, Nat.min_self, Nat.min_self]

theorem IsWithin.unrolls (h : envelope.IsWithin mostTimbre pitches) (plain : Nat) :
    envelope.Unrolls plain (envelope.frames plain) := by
  have hlength := length_frames h.timbre h.pitch plain
  have hframe : ∀ n step, (envelope.frames plain)[n]? = some step →
      envelope.volumes[n]? = some step.volume ∧
      Looped.valueAt plain envelope.timbre.value? n = some step.timbre ∧
      Looped.valueAt 0 envelope.pitch.value? n = some step.pitch := by
    intro n step hstep
    have hn : n < envelope.volumes.length := by
      rw [← hlength]
      exact (List.getElem?_eq_some_iff.mp hstep).1
    rw [frames_eq, List.getElem?_zipWith_eq_some] at hstep
    obtain ⟨volume, ⟨timbre, pitch⟩, hvolume, hvalues, rfl⟩ := hstep
    obtain ⟨htimbre, hpitch⟩ := List.getElem?_zip_eq_some.mp hvalues
    rw [h.timbre.getElem?_unrolled plain hn] at htimbre
    rw [h.pitch.getElem?_unrolled 0 hn] at hpitch
    exact ⟨hvolume, htimbre, hpitch⟩
  exact ⟨hlength, fun n step hstep => (hframe n step hstep).1,
    fun n step hstep => (hframe n step hstep).2.1, fun n step hstep => (hframe n step hstep).2.2⟩

theorem IsWithin.frames_ne_nil (h : envelope.IsWithin mostTimbre pitches) (plain : Nat) :
    envelope.frames plain ≠ [] := by
  rw [← List.length_pos_iff, (h.unrolls plain).length, List.length_pos_iff]
  exact h.volume.1

/-- The values of every frame are in range. -/
theorem IsWithin.frame
    (h : envelope.IsWithin mostTimbre pitches) (hplain : plain ≤ mostTimbre) (hpitch : pitches 0)
    {step : EnvelopeStep} (hstep : step ∈ envelope.frames plain) :
    step.volume ≤ 15 ∧ step.timbre ≤ mostTimbre ∧ pitches step.pitch := by
  obtain ⟨n, hn⟩ := List.mem_iff_getElem?.mp hstep
  have hunrolls := h.unrolls plain
  exact ⟨h.volume.2 _ (List.mem_of_getElem? (hunrolls.volume n step hn)),
    h.timbre.range_of_valueAt hplain (hunrolls.timbre n step hn),
    h.pitch.range_of_valueAt hpitch (hunrolls.pitch n step hn)⟩

end Envelope

/-! ## Bit fields -/

/-- The number in the `count` bits of a word from bit `low` on. -/
def bits (low count word : Nat) : Nat := word / 2 ^ low % 2 ^ count

/-- Fields that do not overlap are added. -/
theorem shiftLeft_or_eq {high low count : Nat} (h : low < 2 ^ count) :
    high <<< count ||| low = high * 2 ^ count + low := by
  rw [← Nat.shiftLeft_add_eq_or_of_lt h, Nat.shiftLeft_eq]

end Chiptune
