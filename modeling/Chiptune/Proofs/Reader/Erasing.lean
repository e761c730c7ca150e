import Chiptune.Proofs.Reader.Framing

/-!
# Readers without places

The frame that erases places leaves everything else alone, and a source is read in it
as it is read outside.
-/

namespace Chiptune

namespace Frame

/-- The frame with nothing before, in which all places are one. -/
def erasing : Frame := ⟨fun _ => default, .empty, [], False, fun _ => rfl⟩

@[simp] theorem erasing_place (place : Location) : erasing.place place = default := rfl

theorem erasing_lineage (lineage : Lineage) : erasing.lineage lineage = lineage := by
  have hnumber : erasing.layerNumber = id := by
    funext n
    cases n <;> rfl
  simp [Frame.lineage, hnumber]

theorem erasing_pitch (pitch : PitchState) : erasing.pitch pitch = pitch := by
  simp [Frame.pitch, erasing_lineage]

theorem erasing_book (book : ChordBook) : erasing.book book = book := by
  have hlayers : book.layers.take 1 ++ [] ++ book.layers.drop 1 = book.layers := by
    rw [List.append_nil, List.take_append_drop]
  exact congrArg ChordBook.mk hlayers

theorem erasing_scope (scope : Scope) : erasing.scope scope = scope := by
  have hsong : (erasing.before.songs.size + ·) = id := by
    funext index
    exact Nat.zero_add index
  have hobject : erasing.object = id := by
    funext object
    cases object with
    | sfx index => exact congrArg OpenObject.sfx (Nat.zero_add index)
    | instrument index => exact congrArg OpenObject.instrument (Nat.zero_add index)
    | pattern index => exact congrArg OpenObject.pattern (Nat.zero_add index)
  rw [Frame.scope, hsong, hobject, Option.map_id, Option.map_id]
  rfl

end Frame

namespace Reader

/-- Two readers that hold the same, but for the places of things. -/
structure SameButPlaces (reader other : Reader) : Prop where
  score : Frame.erasing.score reader.score = Frame.erasing.score other.score
  scope : reader.scope = other.scope
  pitch : reader.pitch = other.pitch
  meter : reader.meter = other.meter
  chords : reader.chords = other.chords
  messages :
    reader.diagnostics.warnings.map (·.message) = other.diagnostics.warnings.map (·.message)
  unknownKeywords : reader.diagnostics.unknownKeywords = other.diagnostics.unknownKeywords

theorem sameButPlaces_of_fits
    {erased reader other : Reader} (h : Frame.erasing.Fits erased reader)
    (h' : Frame.erasing.Fits erased other) : SameButPlaces reader other := by
  have hdiagnostics : Frame.erasing.diagnostics reader.diagnostics =
      Frame.erasing.diagnostics other.diagnostics := by
    rw [← h.diagnostics id, ← h'.diagnostics id]
  have hwarnings := congrArg (fun d => d.warnings.map (·.message)) hdiagnostics
  have hunknown := congrArg Diagnostics.unknownKeywords hdiagnostics
  refine ⟨h.score.symm.trans h'.score, ?_, ?_, h.meter.symm.trans h'.meter, ?_, ?_, hunknown⟩
  · have hscope := h.scope.symm.trans h'.scope
    rwa [Frame.erasing_scope, Frame.erasing_scope] at hscope
  · have hpitch := h.pitch.symm.trans h'.pitch
    rwa [Frame.erasing_pitch, Frame.erasing_pitch] at hpitch
  · have hchords := h.chords.symm.trans h'.chords
    rwa [Frame.erasing_book, Frame.erasing_book] at hchords
  · simpa [Frame.diagnostics, Function.comp_def] using hwarnings

/-- The reader without places. -/
def erased (reader : Reader) : Reader :=
  { reader with
    score := Frame.erasing.score reader.score
    diagnostics := Frame.erasing.diagnostics reader.diagnostics
    here := default }

theorem fits_erased (reader : Reader) (h : reader.chords.layers ≠ []) :
    Frame.erasing.Fits reader.erased reader where
  score := rfl
  scope := (Frame.erasing_scope _).symm
  pitch := (Frame.erasing_pitch _).symm
  meter := rfl
  chords := (Frame.erasing_book _).symm
  here := rfl
  layers := h
  resume := fun hset => nomatch hset
  diagnostics := fun _ => rfl

end Reader

end Chiptune
