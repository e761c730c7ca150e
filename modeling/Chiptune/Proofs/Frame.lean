import Chiptune.Score

/-!
# Frames

What a reading defines can be seen in a frame: behind what was defined before, with the
layers of chord names that were there before, and with places of another source. Chord
names and pitches are read the same inside the frame as outside.
-/

namespace Chiptune

/-- What surrounds a reading. -/
structure Frame where
  /-- Where the places of the reading lie. -/
  place : Location → Location
  /-- What was defined before. -/
  before : Score
  /-- The layers of chord names that were there before, but for the outermost. -/
  layers : List ChordLayer
  /-- Whether statements may fail in the frame alone, as names may be taken there. -/
  lax : Prop
  whole : ¬ lax → before = .empty

namespace Frame

variable (frame : Frame)

/-! ## Chord names -/

/-- The number of a layer in the frame. The outermost layer is shared. -/
def layerNumber : Nat → Nat
  | 0 => 0
  | n + 1 => n + 1 + frame.layers.length

/-- A lineage in the frame. -/
def lineage (lineage : Lineage) : Lineage := lineage.map frame.layerNumber

/-- A book of chord names in the frame. -/
def book (book : ChordBook) : ChordBook :=
  ⟨book.layers.take 1 ++ frame.layers ++ book.layers.drop 1⟩

section Book

variable {book : ChordBook} (hbook : book.layers ≠ [])
include hbook

theorem layer_book (n : Nat) :
    (frame.book book).layer (frame.layerNumber n) = book.layer n := by
  obtain ⟨outermost, inner, hlayers⟩ := List.exists_cons_of_ne_nil hbook
  rcases n with _ | n
  · simp [Frame.book, ChordBook.layer, layerNumber, hlayers]
  · have hnumber : frame.layerNumber (n + 1) = frame.layers.length + n + 1 := by
      rw [layerNumber]
      omega
    simp [Frame.book, ChordBook.layer, hnumber, hlayers, List.getD_eq_getElem?_getD,
      List.getElem?_append_right]

theorem lookup?_book (lineage : Lineage) (name : String) :
    (frame.book book).lookup? (frame.lineage lineage) name = book.lookup? lineage name := by
  have hfind : (frame.lineage lineage).findSome?
      (fun index => ((frame.book book).layer index).lookup name) =
        lineage.findSome? fun index => (book.layer index).lookup name := by
    rw [Frame.lineage, List.findSome?_map]
    congr 1
    funext index
    simp only [Function.comp, frame.layer_book hbook]
  rw [ChordBook.lookup?, ChordBook.lookup?, hfind]

theorem definesOwn_book (lineage : Lineage) (name : String) :
    (frame.book book).definesOwn (frame.lineage lineage) name =
      book.definesOwn lineage name := by
  rcases lineage with _ | ⟨own, outer⟩
  · rfl
  · change (((frame.book book).layer (frame.layerNumber own)).lookup name).isSome = _
    rw [frame.layer_book hbook]
    rfl

theorem record_book (lineage : Lineage) (name : String) (code : ChordCode) :
    (frame.book book).record (frame.lineage lineage) name code =
      frame.book (book.record lineage name code) := by
  rcases lineage with _ | ⟨own, outer⟩
  · rfl
  · change (⟨(frame.book book).layers.set (frame.layerNumber own)
      ((name, code) :: (frame.book book).layer (frame.layerNumber own))⟩ : ChordBook) = _
    rw [frame.layer_book hbook]
    obtain ⟨outermost, inner, hlayers⟩ := List.exists_cons_of_ne_nil hbook
    rcases own with _ | own
    · simp [Frame.book, ChordBook.record, layerNumber, hlayers]
    · have hnumber : frame.layerNumber (own + 1) = frame.layers.length + own + 1 := by
        rw [layerNumber]
        omega
      simp [Frame.book, ChordBook.record, hnumber, hlayers]

theorem nest_book (lineage : Lineage) :
    (frame.book book).nest (frame.lineage lineage) =
      Prod.map frame.lineage frame.book (book.nest lineage) := by
  obtain ⟨outermost, inner, hlayers⟩ := List.exists_cons_of_ne_nil hbook
  have hlength : (frame.book book).layers.length = frame.layerNumber book.layers.length := by
    simp [Frame.book, hlayers, layerNumber]
    omega
  rw [ChordBook.nest, ChordBook.nest, hlength]
  simp [Frame.book, Frame.lineage, hlayers]

theorem code_book (lineage : Lineage) (name : String) :
    (frame.book book).code (frame.lineage lineage) name = book.code lineage name := by
  rw [ChordBook.code, ChordBook.code, frame.lookup?_book hbook]

theorem interpret_book (lineage : Lineage) (text : String) :
    (frame.book book).interpret (frame.lineage lineage) text = book.interpret lineage text := by
  simp only [ChordBook.interpret, frame.code_book hbook]

theorem define_book (lineage : Lineage) (name definition : String) :
    (frame.book book).define (frame.lineage lineage) name definition =
      (book.define lineage name definition).map frame.book := by
  simp only [ChordBook.define, frame.definesOwn_book hbook, frame.interpret_book hbook,
    frame.record_book hbook]
  -- four checks come before the chord is read
  iterate 4
    split
    · rfl
  cases book.interpret lineage definition with
  | error fault => rfl
  | ok chord =>
      cases chord with
      | none => rfl
      | some arpeggio => rfl

end Book

/-! ## Pitches -/

/-- Pitch settings in the frame. -/
def pitch (pitch : PitchState) : PitchState :=
  { pitch with lineage := frame.lineage pitch.lineage }

theorem setLanguage_pitch (pitch : PitchState) (word : String) :
    (frame.pitch pitch).setLanguage word = (pitch.setLanguage word).map frame.pitch := by
  simp only [PitchState.setLanguage]
  split
  · rfl
  · split <;> rfl

theorem setSigns_pitch (pitch : PitchState) (word : String) :
    (frame.pitch pitch).setSigns word = (pitch.setSigns word).map frame.pitch := by
  simp only [PitchState.setSigns]
  split
  · rfl
  · split <;> rfl

theorem child_pitch {book : ChordBook} (hbook : book.layers ≠ []) (pitch : PitchState) :
    (frame.pitch pitch).child (frame.book book) =
      Prod.map frame.pitch frame.book (pitch.child book) := by
  simp only [PitchState.child, Frame.pitch, frame.nest_book hbook]
  rfl

theorem setArpeggio_pitch
    {book : ChordBook} (hbook : book.layers ≠ []) (pitch : PitchState) (text : String) :
    (frame.pitch pitch).setArpeggio (frame.book book) text =
      (pitch.setArpeggio book text).map frame.pitch := by
  simp only [PitchState.setArpeggio, Frame.pitch, frame.interpret_book hbook]
  cases book.interpret pitch.lineage text <;> rfl

theorem locate_pitch (pitch : PitchState) (tone : Tone) (word : NoteWord) :
    (frame.pitch pitch).locate tone word =
      (pitch.locate tone word).map (Prod.map id frame.pitch) := by
  simp only [PitchState.locate, Frame.pitch]
  cases PitchState.octaveShift pitch.signs word <;> rfl

theorem playTone_pitch
    (pitch : PitchState) (tone : Tone) (word : NoteWord) (chord : Option Arpeggio) :
    (frame.pitch pitch).playTone tone word chord =
      (pitch.playTone tone word chord).map (Prod.map id frame.pitch) := by
  simp only [PitchState.playTone, frame.locate_pitch]
  cases pitch.locate tone word <;> rfl

theorem repeatLast_pitch (pitch : PitchState) (chord : Option Arpeggio) :
    (frame.pitch pitch).repeatLast chord =
      (pitch.repeatLast chord).map (Prod.map id frame.pitch) := by
  have hlast : (frame.pitch pitch).last = pitch.last := rfl
  rw [PitchState.repeatLast, PitchState.repeatLast, hlast]
  split <;> rfl

theorem read_pitch
    {book : ChordBook} (hbook : book.layers ≠ []) (pitch : PitchState) (word : NoteWord) :
    (frame.pitch pitch).read (frame.book book) word =
      (pitch.read book word).map (Prod.map id frame.pitch) := by
  have hwritten : (frame.pitch pitch).writtenChord (frame.book book) word =
      pitch.writtenChord book word := by
    simp only [PitchState.writtenChord, Frame.pitch, frame.interpret_book hbook]
  simp only [PitchState.read, hwritten]
  cases pitch.writtenChord book word with
  | error fault => rfl
  | ok chord =>
      cases word.letter with
      | tone tone => exact frame.playTone_pitch pitch tone word chord
      | repeatChord =>
          dsimp only
          split
          · rfl
          · exact frame.repeatLast_pitch pitch chord
      | _ =>
          dsimp only
          split <;> rfl

theorem readAbsolute_pitch (pitch : PitchState) (word : String) :
    (frame.pitch pitch).readAbsolute word =
      (pitch.readAbsolute word).map (Prod.map id frame.pitch) := by
  simp only [PitchState.readAbsolute]
  by_cases hnoise : pitch.mode = .noise
  · have hnoise' : (frame.pitch pitch).mode = .noise := hnoise
    rw [if_pos hnoise, if_pos hnoise']
    cases PitchState.noisePitch word <;> rfl
  · have hnoise' : ¬ (frame.pitch pitch).mode = .noise := hnoise
    rw [if_neg hnoise, if_neg hnoise']
    cases NoteWord.scanPitch? word with
    | none => rfl
    | some note =>
        cases hletter : note.letter with
        | tone tone =>
            have hlocate := frame.locate_pitch { pitch with mode := .absolute } tone note
            simp only [Frame.pitch] at hlocate
            simp only [hletter, Frame.pitch, hlocate]
            cases { pitch with mode := .absolute }.locate tone note <;> rfl
        | _ =>
            simp only [hletter]
            rfl

end Frame

end Chiptune
