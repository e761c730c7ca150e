import Chiptune.Chord.Code
import Chiptune.Rhythm.NoteLength
import Chiptune.Text.Cut

/-!
# Pattern codes

The codes of an encoded pattern, with the text and the size in bytes of each.
-/

namespace Chiptune

/-- What a note code sounds. -/
inductive Sound where
  /-- A pitch by its distance from the transposition, zero to two octaves. -/
  | pitch (offset : Fin 25)
  | rest
  /-- Hold what sounds. -/
  | tie
  | drum (label : String)
deriving DecidableEq, Repr, Inhabited

namespace Sound

/-- The names of the pitches from zero to two octaves. -/
def pitchNames : List String :=
  ["N_C", "N_CS", "N_D", "N_DS", "N_E", "N_F", "N_FS", "N_G", "N_GS", "N_A", "N_AS",
    "N_B", "N_CH", "N_CSH", "N_DH", "N_DSH", "N_EH", "N_FH", "N_FSH", "N_GH", "N_GSH",
    "N_AH", "N_ASH", "N_BH", "N_CHH"]

/-- The name of the sound. -/
def text : Sound → String
  | pitch offset => pitchNames.getD offset ""
  | rest => "REST"
  | tie => "N_TIE"
  | drum label => label

end Sound

/-- A code of an encoded pattern. -/
inductive PatternCode where
  /-- A note; a grace note has no length. -/
  | note (sound : Sound) (length : Option NoteLength)
  | grace (frames : Nat)
  | transpose (semitones : Int)
  | instrument (label : String)
  | arpeggio (code : ChordCode)
  | fastArpeggio
  | slowArpeggio
  | bend (rate : Nat)
  | vibrato (depth : Nat)
  | channelVolume (level : Nat)
  | legatoOn
  | legatoOff
  | patternEnd
deriving DecidableEq, Repr, Inhabited

namespace PatternCode

/-- The text of a code, operands behind commas. -/
def text : PatternCode → String
  | note sound length => sound.text ++ (length.map NoteLength.suffix).getD ""
  | grace frames => "GRACE," ++ Text.natText frames
  | transpose semitones => "TRANSPOSE,<" ++ Text.intText semitones
  | instrument label => "INSTRUMENT," ++ label
  | arpeggio code => "ARPEGGIO,$" ++ code.text
  | fastArpeggio => "FASTARP"
  | slowArpeggio => "SLOWARP"
  | bend rate => "BEND,$" ++ Text.upperHex 2 rate
  | vibrato depth => "VIBRATO," ++ Text.natText depth
  | channelVolume level => "CHVOLUME," ++ Text.natText level
  | legatoOn => "LEGATO_ON"
  | legatoOff => "LEGATO_OFF"
  | patternEnd => "PATEND"

/-- The bytes of a code: one for each part of its text between commas. -/
def size (code : PatternCode) : Nat := (Text.commaParts code.text).length

end PatternCode

end Chiptune
