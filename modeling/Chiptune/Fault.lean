import Chiptune.Decimal.Shortest
import Chiptune.Note.Duration
import Chiptune.Source.Location
import Chiptune.Track

/-!
# Faults

A fault is the cause for which the assembler gives up on a statement or on an
entity. Every cause has a kind and one wording.
-/

namespace Chiptune

/-- The kinds of faults. -/
inductive FaultKind where
  /-- A word has none of the forms that may stand in its place. -/
  | grammar
  /-- A statement stands outside what it configures. -/
  | scope
  /-- A thing is defined twice. -/
  | redefinition
  /-- A number is out of bounds. -/
  | range
  /-- A name stands for nothing. -/
  | reference
  /-- A song or pattern is inconsistent. -/
  | structural
  /-- A source file cannot be read. -/
  | file
  /-- A number has no quotient; nothing is reported. -/
  | arithmetic
deriving DecidableEq, Repr, Inhabited

/-- The name of a kind in messages. -/
def FaultKind.name : FaultKind → String
  | grammar => "grammar"
  | scope => "scope"
  | redefinition => "redefinition"
  | range => "range"
  | reference => "reference"
  | structural => "structural"
  | file => "io"
  | arithmetic => "panic"

/-- Why a file cannot be read. -/
inductive ReadFailure where
  | missing
  | denied
  | notDirectory
  | isDirectory
  /-- A name in the path, or the path itself, has too many bytes. -/
  | nameTooLong
  /-- The path holds the character with code point zero. -/
  | zeroInName
  /-- A device has no room. -/
  | noSpace
  | notText
deriving DecidableEq, Repr, Inhabited

/-- The text of a read failure. -/
def ReadFailure.text : ReadFailure → String
  | missing => "No such file or directory (os error 2)"
  | denied => "Permission denied (os error 13)"
  | notDirectory => "Not a directory (os error 20)"
  | isDirectory => "Is a directory (os error 21)"
  | nameTooLong => "File name too long (os error 36)"
  | zeroInName => "file name contained an unexpected NUL byte"
  | noSpace => "No space left on device (os error 28)"
  | notText => "stream did not contain valid UTF-8"

/-- The causes of failure. -/
inductive Fault where
  -- chords and pitches
  | notTwoDigitChord (code : String)
  | wideChord (code : String)
  | badInversion (written : String)
  | unknownChord (name : String)
  | downwardChordDefinition (name : String)
  | chordNameStart (name : String)
  | reservedChordName (name : String)
  | chordAlreadyDefined (name : String)
  | emptyChordDefinition (name : String)
  | unknownLanguage (word : String)
  | unknownOctaveSigns (word : String)
  | pitchMarksOn (letter : Char)
  | nothingToRepeat
  | mixedOctaveMarks
  | noiseNotNumber (word : String)
  | noiseOutOfRange (value : Int)
  | notPitch (word : String)
  -- rhythm
  | unknownDurationRule (word : String)
  | tooFewBeats (beats : Nat)
  | badBeatUnit (unit : Nat)
  | badScale (scale : Nat)
  | scaleTooCoarse (scale beatUnit : Nat)
  | augmentWithoutNumber (augment : Augment)
  | durationOutOfRange (number : Nat)
  | durationNotPowerOfTwo (number : Nat)
  | graceLength
  | lengthWithoutDuration
  | unalignedDuration (duration : Duration) (scale : Nat)
  | beatBelowOne
  | tooFarIntoMeasure (beat row : Nat)
  | rowBeyondMeasure (row length : Nat)
  | backwards (fromMeasure : Int) (fromRow : Nat) (toMeasure : Int) (toRow : Nat)
  | waitTooLong (rows : Int) (measure : Int)
  | emptyMeasure
  | notPosition (word : String)
  | timeNotFraction (word : String)
  | beatsNotNumber (text : String)
  | beatUnitNotNumber (text : String)
  -- fields, tables and scopes
  | alreadySet (what owner : String) (previous reader : Location)
  | alreadyDefined (kind name : String) (previous reader : Location)
  | songAlreadyOpen
  | noSongOpen
  -- envelopes and voices
  | nothingToLoop
  | noValues (what : String)
  | valueNotNumber (what word : String)
  | volumeOutOfRange (value : Int)
  | timbreOutOfRange (most : Nat) (value : Int)
  | relativePitchOutOfRange (value : Int)
  | noteNumberOutOfRange (value : Int)
  | decayOutOfRange (value : Int)
  | rateOutOfRange (value : Int)
  | unknownChannel (name : String)
  | badDrumName (name : String)
  | drumEffectCount (name : String) (count : Nat)
  | drumUnknownEffect (drum effect : String)
  -- patterns
  | modeInDrumPattern (word : String)
  | instrumentNameMissing
  | ambiguousNote (word : String)
  | unknownFirstNote (word : String)
  | unknownDrumNote (word : String)
  | unknownPitchedNote (word : String)
  | outsideRun (pitch base : Int)
  | patternUnknownDrum (pattern drum : String)
  | patternUnknownInstrument (pattern instrument : String)
  -- songs
  | tempoOutOfRange (tempo : Float)
  | rowTempoTooFast (rowsPerMinute : Nat)
  | beatWithoutCode (rows : Nat)
  | dalSegnoWithoutSegno (song : String)
  | daCapoAfterSegno (song : String)
  | unknownEnding (words : String)
  | attackTrack (track : Track)
  | markAlreadyDefined (mark song : String)
  | unknownPattern (name : String)
  | pitchedOnDrumTrack (pattern : String)
  | drumsOnPitchedTrack (pattern : String) (track : Track)
  | onlyRests (pattern : String)
  | belowLowestNote (pattern : String)
  | unknownInstrument (name : String)
  -- statements
  | argumentNotNumber (what word : String)
  | unknownTrack (word : String)
  | takesNoArguments (keyword : String)
  | usage (form : String)
  | outsideObject (keyword allowed place : String)
  | fallthroughOutsidePattern
  | outsideSong (keyword : String)
  | openMissing (kind : String)
  | songStillOpen (song : String) (began reader : Location)
  | songNotEnded (song : String)
  | unknownMark (mark song : String)
  | transposeOutOfRange (semitones : Int)
  | noteOnAttackTrack
  | copyrightInSong
  | onlyChordsDefined (name definition : String)
  | includesTooDeep (limit : Nat)
  | unreadable (path : String) (failure : ReadFailure)

namespace Fault

/-- The kind of a cause. -/
def kind : Fault → FaultKind
  | wideChord .. | noiseOutOfRange .. | tooFewBeats .. | badBeatUnit .. | badScale ..
  | scaleTooCoarse .. | durationOutOfRange .. | durationNotPowerOfTwo ..
  | unalignedDuration .. | beatBelowOne | tooFarIntoMeasure .. | rowBeyondMeasure ..
  | waitTooLong .. | volumeOutOfRange .. | timbreOutOfRange ..
  | relativePitchOutOfRange .. | noteNumberOutOfRange .. | decayOutOfRange ..
  | rateOutOfRange .. | tempoOutOfRange .. | rowTempoTooFast .. | beatWithoutCode ..
  | belowLowestNote .. | transposeOutOfRange .. => .range
  | unknownChord .. | drumUnknownEffect .. | patternUnknownDrum ..
  | patternUnknownInstrument .. | unknownPattern .. | unknownInstrument ..
  | unknownMark .. => .reference
  | reservedChordName .. | chordAlreadyDefined .. | alreadySet .. | alreadyDefined ..
  | markAlreadyDefined .. => .redefinition
  | nothingToRepeat | backwards .. | songAlreadyOpen | outsideRun ..
  | dalSegnoWithoutSegno .. | daCapoAfterSegno .. | pitchedOnDrumTrack ..
  | drumsOnPitchedTrack .. | onlyRests .. | openMissing .. | songStillOpen ..
  | songNotEnded .. | includesTooDeep .. => .structural
  | noSongOpen | outsideObject .. | fallthroughOutsidePattern | outsideSong ..
  | copyrightInSong => .scope
  | unreadable .. => .file
  | emptyMeasure => .arithmetic
  | _ => .grammar

open Text in
/-- The wording of a cause. -/
def message : Fault → String
  | notTwoDigitChord code => s!"{code} is not a two-digit chord"
  | wideChord code => s!"chord {code} spans an octave or more and cannot be inverted"
  | badInversion written => s!"chord inversion must be /1 or /2, not /{written}"
  | unknownChord name => s!"unknown chord name {name}"
  | downwardChordDefinition name =>
    s!"chord {name} cannot be defined as downward; use -{name} when playing it"
  | chordNameStart name => s!"chord name {name} must begin with a letter"
  | reservedChordName name => s!"{name} is reserved for arpeggio speed"
  | chordAlreadyDefined name => s!"chord name {name} is already defined here"
  | emptyChordDefinition name => s!"chord {name} has no definition"
  | unknownLanguage word => s!"unknown note language {word}; try english or deutsch"
  | unknownOctaveSigns word => s!"mmloctaves must be normal or swapped, not {word}"
  | pitchMarksOn letter => s!"{letter} cannot take an accidental or octave change"
  | nothingToRepeat => "q repeats the previous chord, but there is none"
  | mixedOctaveMarks => "cannot mix MML (<>) and LilyPond (',) octave changes"
  | noiseNotNumber word => s!"noise pitch must be a number, not {word}"
  | noiseOutOfRange value => s!"noise pitch must be 0 to 15, not {intText value}"
  | notPitch word => s!"{word} doesn't look like a pitch"
  | unknownDurationRule word => s!"durations must be temporary or stick, not {word}"
  | tooFewBeats beats => s!"beats per measure must be at least 2, not {natText beats}"
  | badBeatUnit unit =>
    s!"beat duration must be a power of 2 from 2 to 64, not {natText unit}"
  | badScale scale => s!"scale must be a power of 2 from 2 to 64, not {natText scale}"
  | scaleTooCoarse scale beatUnit =>
    s!"scale of 1/{natText scale} is too coarse for 1/{natText beatUnit} beats"
  | augmentWithoutNumber augment => s!"augment {augment.suffix} requires a duration number"
  | durationOutOfRange number => s!"duration must be 1 to 64, not {natText number}"
  | durationNotPowerOfTwo number => s!"duration must be a power of 2, not {natText number}"
  | graceLength => "l cannot set a grace note length"
  | lengthWithoutDuration => "l requires a duration"
  | unalignedDuration duration scale =>
    let rows := Decimal.fixedText 3 (scale * duration.augment.quarters)
      (duration.denominator * 4)
    s!"{duration.augment.adjective}1/{natText duration.denominator} note not multiple of " ++
      s!"1/{natText scale} note scale ({rows} rows)"
  | beatBelowOne => "beat must be at least 1"
  | tooFarIntoMeasure beat row =>
    s!"beat {natText beat} row {natText row} is too far into the measure"
  | rowBeyondMeasure row length =>
    s!"row {natText row} exceeds measure length {natText length}"
  | backwards fromMeasure fromRow toMeasure toRow =>
    s!"cannot go back from measure {intText fromMeasure}:{natText fromRow} to " ++
      s!"{intText toMeasure}:{natText toRow}"
  | waitTooLong rows measure =>
    s!"waiting {intText rows} rows to measure {intText measure} is too long"
  | emptyMeasure => "attempt to calculate the remainder with a divisor of zero"
  | notPosition word => s!"{word} is not a measure:beat:row position"
  | timeNotFraction word => s!"time signature must be a fraction, not {word}"
  | beatsNotNumber text => s!"{text} is not a number of beats"
  | beatUnitNotNumber text => s!"{text} is not a beat duration"
  | alreadySet what owner previous reader =>
    s!"{what} for {owner} was already set on {previous.citedFrom reader}"
  | alreadyDefined kind name previous reader =>
    s!"{kind} {name} was already defined on {previous.citedFrom reader}"
  | songAlreadyOpen => "a song is already open"
  | noSongOpen => "no song is open"
  | nothingToLoop => "nothing to loop after |"
  | noValues what => s!"{what} requires at least one value"
  | valueNotNumber what word => s!"{what} value {word} is not a number"
  | volumeOutOfRange value => s!"volume must be 0 to 15, not {intText value}"
  | timbreOutOfRange most value =>
    s!"timbre must be 0 to {natText most}, not {intText value}"
  | relativePitchOutOfRange value =>
    s!"pitch must be -60 to 60 semitones, not {intText value}"
  | noteNumberOutOfRange value => s!"note number must be 0 to 87, not {intText value}"
  | decayOutOfRange value => s!"decay must be 0 to 127, not {intText value}"
  | rateOutOfRange value => s!"rate must be 1 to 16 frames per step, not {intText value}"
  | unknownChannel name => s!"unknown channel {name}; try pulse, triangle or noise"
  | badDrumName name => s!"drum name {name} must begin and end with a letter or '_'"
  | drumEffectCount name count =>
    s!"drum {name} needs one or two sound effects, not {natText count}"
  | drumUnknownEffect drum effect => s!"drum {drum} uses unknown sound effect {effect}"
  | modeInDrumPattern word => s!"{word} cannot be used in a drum pattern"
  | instrumentNameMissing => "@ needs an instrument name"
  | ambiguousNote word => s!"{word} is ambiguous: it could be a drum or a pitch"
  | unknownFirstNote word => s!"unknown first note {word}"
  | unknownDrumNote word => s!"unknown drum pattern note {word}"
  | unknownPitchedNote word => s!"unknown pitched pattern note {word}"
  | outsideRun pitch base =>
    s!"pitch {intText pitch} is outside the transpose run starting at {intText base}"
  | patternUnknownDrum pattern drum => s!"pattern {pattern} uses unknown drum {drum}"
  | patternUnknownInstrument pattern instrument =>
    s!"pattern {pattern} uses unknown instrument {instrument}"
  | tempoOutOfRange tempo =>
    s!"tempo must be 1 to 1500 beats per minute, not {Decimal.messageText tempo}"
  | rowTempoTooFast rowsPerMinute =>
    s!"tempo of {natText rowsPerMinute} rows per minute exceeds 1500; " ++
      "use a slower tempo or a coarser scale"
  | beatWithoutCode rows => s!"a beat of {natText rows} rows has no duration code"
  | dalSegnoWithoutSegno song => s!"dal segno in song {song} requires a segno"
  | daCapoAfterSegno song => s!"cannot da capo after segno in song {song}; try dal segno"
  | unknownEnding words => s!"unknown song end {words}; try fine, dal segno or da capo"
  | attackTrack track =>
    s!"attack must be on pulse1, pulse2 or triangle, not {track.name}"
  | markAlreadyDefined mark song => s!"mark {mark} is already defined in song {song}"
  | unknownPattern name => s!"unknown pattern {name}"
  | pitchedOnDrumTrack pattern =>
    s!"cannot play pitched pattern {pattern} on the drum track"
  | drumsOnPitchedTrack pattern track =>
    s!"cannot play drum pattern {pattern} on {track.name}"
  | onlyRests pattern => s!"pattern {pattern} has only rests; use stop instead"
  | belowLowestNote pattern => s!"pattern {pattern} transposed below the lowest note"
  | unknownInstrument name => s!"unknown instrument {name}"
  | argumentNotNumber what word => s!"{what} must be a number, not {word}"
  | unknownTrack word =>
    s!"unknown track {word}; try pulse1, pulse2, triangle, drum or attack"
  | takesNoArguments keyword => s!"{keyword} takes no arguments"
  | usage form => s!"usage: {form}"
  | outsideObject keyword allowed place =>
    s!"{keyword} must be inside {allowed}, not {place}"
  | fallthroughOutsidePattern => "fallthrough must be inside a pattern"
  | outsideSong keyword => s!"{keyword} must be inside a song"
  | openMissing kind => s!"open {kind} is missing"
  | songStillOpen song began reader =>
    s!"song {song} began on {began.citedFrom reader} and was not ended with fine or dal segno"
  | songNotEnded song => s!"song {song} was not ended with fine, dal segno or da capo"
  | unknownMark mark song => s!"unknown mark {mark} in song {song}"
  | transposeOutOfRange semitones => s!"transpose {intText semitones} is out of range"
  | noteOnAttackTrack => "cannot play a single note on the attack track"
  | copyrightInSong => "copyright applies to the whole album and must be outside a song"
  | onlyChordsDefined name definition =>
    s!"only chords can be defined with @; try @EN{name} = {definition}"
  | includesTooDeep limit => s!"includes nested more than {natText limit} deep"
  | unreadable path failure => s!"cannot read {path}: {failure.text}"

end Fault

end Chiptune
