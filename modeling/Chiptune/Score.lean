import Chiptune.Pattern.Encoding
import Chiptune.Song.Basic

/-!
# Scores

A score is everything that a source defines.
-/

namespace Chiptune

/-- What is said about the whole album. -/
structure AlbumNotes where
  title : Field String
  author : Field String
  copyright : Field String
deriving DecidableEq, Repr, Inhabited

/-- Where playback starts when a song is tried out. -/
structure ResumePoint where
  song : String
  rows : Nat
deriving DecidableEq, Repr, Inhabited

/-- The entities of a source. -/
structure Score where
  sfx : Registry SoundEffect
  instruments : Registry Instrument
  drums : Registry Drum
  patterns : Registry Pattern
  songs : Registry Song
  album : AlbumNotes
  resume : Field ResumePoint
deriving Inhabited

namespace Score

/-- Nothing is defined. -/
def empty : Score :=
  ⟨.empty, .empty, .empty, .empty, .empty, ⟨.unset, .unset, .unset⟩, .unset⟩

/-- The entities that patterns name. -/
def orchestra (score : Score) : Orchestra := ⟨score.instruments, score.drums⟩

end Score

end Chiptune
