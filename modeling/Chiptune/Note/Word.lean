import Chiptune.Note.Accidental
import Chiptune.Note.Duration
import Chiptune.Note.Letter
import Chiptune.Text.Cut
import Chiptune.Text.Numeral

/-!
# Note words

A note word is, in order: a run of `>` or of `<`, a letter, an accidental, a run
of apostrophes or of commas, a duration number, a suffix, a chord after a colon,
and a slur mark. All but the letter may be absent. The scanners here look only at
the form of a word.
-/

namespace Chiptune

/-- The mark at the end of a note word. -/
inductive SlurMark where
  | none
  /-- An opening parenthesis starts a legato run. -/
  | start
  /-- A closing parenthesis ends a legato run. -/
  | finish
  /-- A tilde ties into the next note. -/
  | tie
deriving DecidableEq, Repr, Inhabited

/-- The part of a note word behind its accidental. -/
structure NoteTail where
  /-- Apostrophes as a positive count, commas as a negative one. -/
  marks : Int
  number : Option Nat
  augment : Augment
  /-- The text of a chord, with its sign and inversion. -/
  chord : Option String
  slur : SlurMark
deriving DecidableEq, Repr, Inhabited

/-- The parts of a note word. -/
structure NoteWord where
  /-- The marks before the letter: `>` as a positive count, `<` as a negative one. -/
  leading : Int
  letter : NoteLetter
  accidental : Accidental
  tail : NoteTail
deriving DecidableEq, Repr, Inhabited

namespace NoteWord

/-- Whether the word carries an accidental or an octave mark. -/
def hasPitchMarks (word : NoteWord) : Bool :=
  word.leading != 0 || word.accidental != .natural || word.tail.marks != 0

/-- Take a run of `up` or a run of `down`, counted with its sign. -/
def takeMarks (up down : Char) (cs : List Char) : Int × List Char :=
  let ups := cs.takeWhile (· == up)
  if ups.isEmpty then
    (-Int.ofNat (cs.takeWhile (· == down)).length, cs.dropWhile (· == down))
  else (Int.ofNat ups.length, cs.dropWhile (· == up))

/-- Take a run of digits as a number, held at the greatest number of 32 bits. -/
def takeNumber (cs : List Char) : Option Nat × List Char :=
  let digits := cs.takeWhile Text.isDigit
  if digits.isEmpty then (none, cs)
  else (some (min (Text.decimalValue digits) Text.maxNat32), cs.dropWhile Text.isDigit)

/-- Take the suffix of a duration number. -/
def takeAugment : List Char → Augment × List Char
  | '.' :: '.' :: cs => (.doubleDotted, cs)
  | '.' :: cs => (.dotted, cs)
  | 'g' :: cs => (.grace, cs)
  | cs => (.plain, cs)

/-- Take the name of a chord: a letter and what is alphanumeric behind it, or a
digit and at most one hexadecimal digit. -/
def takeChordName : List Char → Option (List Char × List Char)
  | [] => none
  | c :: cs =>
    if Text.isLetter c then
      some (c :: cs.takeWhile Text.isAlphanumeric, cs.dropWhile Text.isAlphanumeric)
    else if Text.isDigit c then
      match cs with
      | [] => some ([c], [])
      | d :: rest => if Text.isHexDigit d then some ([c, d], rest) else some ([c], d :: rest)
    else none

/-- Take the inversion behind the name of a chord. -/
def takeInversion : List Char → List Char × List Char
  | '/' :: '1' :: cs => (['/', '1'], cs)
  | '/' :: '2' :: cs => (['/', '2'], cs)
  | cs => ([], cs)

/-- Take a minus sign. -/
def takeSign : List Char → List Char × List Char
  | '-' :: cs => (['-'], cs)
  | cs => ([], cs)

/-- Take the text of a chord: an optional sign, a name, an optional inversion. -/
def takeChord (cs : List Char) : Option (List Char × List Char) :=
  let (sign, cs) := takeSign cs
  match takeChordName cs with
  | none => none
  | some (name, cs) =>
    let (inversion, cs) := takeInversion cs
    some (sign ++ name ++ inversion, cs)

/-- Whether the whole text has the form of a chord. -/
def isChordText (text : String) : Bool :=
  match takeChord text.toList with
  | some (_, []) => true
  | _ => false

/-- The slur mark that fills the rest of a word. -/
def slurMark? : List Char → Option SlurMark
  | [] => some .none
  | ['('] => some .start
  | [')'] => some .finish
  | ['~'] => some .tie
  | _ => none

/-- Take the chord after a colon, if there is a colon. -/
def takeColonChord : List Char → Option (Option String × List Char)
  | ':' :: cs => (takeChord cs).map fun (chord, cs) => (some (String.ofList chord), cs)
  | cs => some (none, cs)

/-- Scan what stands behind the accidental. -/
def scanTail? (cs : List Char) : Option NoteTail :=
  let (marks, cs) := takeMarks '\'' ',' cs
  let (number, cs) := takeNumber cs
  let (augment, cs) := takeAugment cs
  match takeColonChord cs with
  | none => none
  | some (chord, cs) => (slurMark? cs).map fun slur => ⟨marks, number, augment, chord, slur⟩

/-- Scan what stands behind the letter: the first spelling of an accidental whose
rest can be scanned. -/
def scanAccidental? (cs : List Char) : Option (Accidental × NoteTail) :=
  Accidental.all.findSome? fun accidental =>
    match Text.afterChars? accidental.spelling.toList cs with
    | none => none
    | some rest => (scanTail? rest).map fun tail => (accidental, tail)

/-- Scan the characters of a note word. -/
def scanChars? (cs : List Char) : Option NoteWord :=
  match takeMarks '>' '<' cs with
  | (_, []) => none
  | (leading, c :: cs) =>
    match NoteLetter.ofChar? c with
    | none => none
    | some letter =>
      (scanAccidental? cs).map fun (accidental, tail) => ⟨leading, letter, accidental, tail⟩

/-- Scan a note word. -/
def scan? (word : String) : Option NoteWord := scanChars? word.toList

/-- Whether nothing but octave marks stands behind the accidental. -/
def isBarePitch (word : NoteWord) : Bool :=
  word.tail.number.isNone && word.tail.augment == .plain && word.tail.chord.isNone &&
    word.tail.slur == .none

/-- Scan a pitch without duration, chord and slur. -/
def scanPitch? (word : String) : Option NoteWord := (scan? word).filter isBarePitch

end NoteWord

end Chiptune
