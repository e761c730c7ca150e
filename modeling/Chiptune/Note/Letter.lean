/-!
# Note letters

A note word is built around one letter: the name of a tone, or one of the letters
for a rest, a wait, a length and a repeated chord.
-/

namespace Chiptune

/-- The letters that name tones. -/
inductive Tone where
  | c | d | e | f | g | a | b | h
deriving DecidableEq, Repr, Inhabited

/-- The tradition that decides what `b` means. -/
inductive NoteLanguage where
  /-- The letter `b` is B natural. -/
  | english
  /-- The letter `b` is B flat, and `h` is B natural. -/
  | deutsch
deriving DecidableEq, Repr, Inhabited

namespace Tone

/-- The step of the scale, counted from `c`. -/
def degree : Tone → Int
  | c => 0
  | d => 1
  | e => 2
  | f => 3
  | g => 4
  | a => 5
  | b | h => 6

/-- The semitones above `c`. -/
def semitone (language : NoteLanguage) : Tone → Int
  | c => 0
  | d => 2
  | e => 4
  | f => 5
  | g => 7
  | a => 9
  | b =>
    match language with
    | .english => 11
    | .deutsch => 10
  | h => 11

end Tone

/-- The letter of a note word. -/
inductive NoteLetter where
  | tone (tone : Tone)
  | rest
  | wait
  | length
  | repeatChord
deriving DecidableEq, Repr, Inhabited

namespace NoteLetter

/-- The letter a character stands for. -/
def ofChar? : Char → Option NoteLetter
  | 'a' => some (tone .a)
  | 'b' => some (tone .b)
  | 'c' => some (tone .c)
  | 'd' => some (tone .d)
  | 'e' => some (tone .e)
  | 'f' => some (tone .f)
  | 'g' => some (tone .g)
  | 'h' => some (tone .h)
  | 'r' => some rest
  | 'w' => some wait
  | 'l' => some length
  | 'q' => some repeatChord
  | _ => none

/-- The character of the letter. -/
def char : NoteLetter → Char
  | tone .a => 'a'
  | tone .b => 'b'
  | tone .c => 'c'
  | tone .d => 'd'
  | tone .e => 'e'
  | tone .f => 'f'
  | tone .g => 'g'
  | tone .h => 'h'
  | rest => 'r'
  | wait => 'w'
  | length => 'l'
  | repeatChord => 'q'

end NoteLetter

end Chiptune
