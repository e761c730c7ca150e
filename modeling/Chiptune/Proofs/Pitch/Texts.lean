import Chiptune.Proofs.Chord.Scoping
import Chiptune.Proofs.Chord.Texts
import Chiptune.Proofs.Pattern.Arpeggios
import Chiptune.Proofs.Pattern.Kinds

/-!
# Pitch contexts with codes in text

The contexts of a tree are asked, in any order, for children, definitions, chords and notes. The
same requests are put to contexts whose codes are texts that nothing binds to a form. Both go in
lockstep: one request keeps the texts those of the codes, and so does every run. Whatever a
context with texts holds or replies is therefore two upper-case hexadecimal digits, and so is the
operand of each change of arpeggio in a pattern, which is the chord of one of its notes.
-/

namespace Chiptune

/-! ## Contexts -/

/-- The semitones by which a downward chord lowers its base. -/
def TextChord.drop (chord : TextChord) : Nat := if chord.downward then span chord.code else 0

theorem Arpeggio.drop_inText (arpeggio : Arpeggio) : arpeggio.inText.drop = arpeggio.drop := by
  rw [TextChord.drop, Arpeggio.inText, TextChord.span_text, drop]

/-- A pitch state whose codes are texts. -/
structure TextContext where
  /-- What does not concern chords; the chords of this state are not used. -/
  plain : PitchState
  arpeggio : Option TextChord
  passing : Option TextChord
  last : Option (Int × Option String)

namespace TextContext

/-- A copy of the context with a layer of chord names of its own. -/
def child (context : TextContext) (book : TextBook) : TextContext × TextBook :=
  let (lineage, book) := book.nest context.plain.lineage
  ({ context with plain := { context.plain with lineage := lineage } }, book)

/-- Set the chord for all notes that follow. -/
def setArpeggio (context : TextContext) (book : TextBook) (text : String) :
    Except Fault TextContext :=
  (book.interpret context.plain.lineage text).map fun arpeggio =>
    { context with arpeggio := arpeggio }

/-- The chord written in a word. -/
def writtenChord (context : TextContext) (book : TextBook) (word : NoteWord) :
    Except Fault (Option TextChord) :=
  match word.tail.chord with
  | some text => book.interpret context.plain.lineage text
  | none => .ok none

/-- Play a tone. -/
def playTone (context : TextContext) (tone : Tone) (word : NoteWord) (chord : Option TextChord) :
    Except Fault ((NotePitch × Option String) × TextContext) :=
  match context.plain.locate tone word with
  | .error fault => .error fault
  | .ok (pitch, plain) =>
    let arpeggio :=
      if chord.isSome && context.arpeggio.isNone then some ⟨"00", false⟩ else context.arpeggio
    let inForce := chord.or arpeggio
    let pitch := pitch - Int.ofNat ((inForce.map TextChord.drop).getD 0)
    let code := inForce.map (·.code)
    .ok ((.semitone pitch, code), ⟨plain, arpeggio, chord, some (pitch, code)⟩)

/-- Play the note before once more. -/
def repeatLast (context : TextContext) (chord : Option TextChord) :
    Except Fault ((NotePitch × Option String) × TextContext) :=
  match context.last with
  | none => .error .nothingToRepeat
  | some (pitch, code) => .ok ((.semitone pitch, (chord.map (·.code)).or code), context)

/-- The chord of a rest, a wait or a length. -/
def heldCode (context : TextContext) (chord : Option TextChord) : Option String :=
  ((chord.or context.passing).or context.arpeggio).map (·.code)

/-- What a note word plays and the code of its chord, with the context after it. -/
def read (context : TextContext) (book : TextBook) (word : NoteWord) :
    Except Fault ((NotePitch × Option String) × TextContext) :=
  match context.writtenChord book word with
  | .error fault => .error fault
  | .ok chord =>
    match word.letter with
    | .tone tone => context.playTone tone word chord
    | letter =>
      if word.hasPitchMarks then .error (.pitchMarksOn letter.char)
      else
        match letter with
        | .repeatChord => context.repeatLast chord
        | .rest =>
          let context := { context with passing := chord }
          .ok ((.rest, context.heldCode chord), context)
        | .wait => .ok ((.wait, context.heldCode chord), context)
        | _ => .ok ((.length, context.heldCode chord), context)

/-- The codes that the context holds. -/
def codes (context : TextContext) : List String :=
  (context.arpeggio.toList ++ context.passing.toList).map (·.code) ++
    (context.last.bind (·.2)).toList

end TextContext

namespace PitchState

/-- The state without its chords. -/
def plain (state : PitchState) : PitchState :=
  { state with arpeggio := none, passing := none, last := none }

/-- The state with the texts of its codes. -/
def inText (state : PitchState) : TextContext where
  plain := state.plain
  arpeggio := state.arpeggio.map Arpeggio.inText
  passing := state.passing.map Arpeggio.inText
  last := state.last.map fun (pitch, code) => (pitch, code.map ChordCode.text)

/-- What was played and the state after it, with the texts of the codes. -/
def playedInText (played : (NotePitch × Option ChordCode) × PitchState) :
    (NotePitch × Option String) × TextContext :=
  ((played.1.1, played.1.2.map ChordCode.text), played.2.inText)

variable (state : PitchState) (book : ChordBook)

theorem child_inText :
    state.inText.child book.inText =
      ((state.child book).1.inText, (state.child book).2.inText) := by
  rw [TextContext.child, TextBook.nest_inText]
  rfl

theorem setArpeggio_inText (text : String) :
    state.inText.setArpeggio book.inText text = (state.setArpeggio book text).map inText := by
  rw [TextContext.setArpeggio, TextBook.interpret_inText, setArpeggio]
  change Except.map _ (Except.map _ (book.interpret state.lineage text)) = _
  cases book.interpret state.lineage text <;> rfl

theorem writtenChord_inText (word : NoteWord) :
    state.inText.writtenChord book.inText word =
      (state.writtenChord book word).map (Option.map Arpeggio.inText) := by
  rw [TextContext.writtenChord, writtenChord]
  cases word.tail.chord with
  | none => rfl
  | some text => exact TextBook.interpret_inText book state.lineage text

theorem locate_plain (tone : Tone) (word : NoteWord) :
    state.plain.locate tone word = (state.locate tone word).map (Prod.map id plain) := by
  have hshift : octaveShift state.plain.signs word = octaveShift state.signs word := rfl
  rw [locate, locate, hshift]
  cases octaveShift state.signs word <;> rfl

theorem arpeggio_of_locate
    {state next : PitchState} {tone : Tone} {word : NoteWord} {pitch : Int}
    (h : state.locate tone word = .ok (pitch, next)) : next.arpeggio = state.arpeggio := by
  rw [locate] at h
  split at h
  · cases h
  · cases h
    rfl

theorem map_code_inText (chord : Option Arpeggio) :
    (chord.map Arpeggio.inText).map (·.code) = (chord.map (·.code)).map ChordCode.text := by
  cases chord <;> rfl

theorem map_drop_inText (chord : Option Arpeggio) :
    (chord.map Arpeggio.inText).map TextChord.drop = chord.map Arpeggio.drop := by
  cases chord with
  | none => rfl
  | some arpeggio => exact congrArg some arpeggio.drop_inText

theorem playTone_inText (tone : Tone) (word : NoteWord) (chord : Option Arpeggio) :
    state.inText.playTone tone word (chord.map Arpeggio.inText) =
      (state.playTone tone word chord).map playedInText := by
  have hlocate : state.inText.plain.locate tone word = _ := state.locate_plain tone word
  rw [TextContext.playTone, playTone, hlocate]
  cases hlocated : state.locate tone word with
  | error fault => rfl
  | ok located =>
      obtain ⟨pitch, next⟩ := located
      -- Locating a tone leaves the chords, so both sides ask for the one that is set for all.
      have harpeggio :
          (if (chord.map Arpeggio.inText).isSome && state.inText.arpeggio.isNone then
              some ⟨"00", false⟩ else state.inText.arpeggio) =
            (if chord.isSome && next.arpeggio.isNone then
              some Arpeggio.silent else next.arpeggio).map Arpeggio.inText := by
        rw [arpeggio_of_locate hlocated, Option.isSome_map, inText, Option.isNone_map]
        split <;> rfl
      dsimp only [Except.map, Prod.map]
      rw [harpeggio, ← Option.map_or, map_drop_inText, map_code_inText]
      rfl

theorem repeatLast_inText (chord : Option Arpeggio) :
    state.inText.repeatLast (chord.map Arpeggio.inText) =
      (state.repeatLast chord).map playedInText := by
  rw [TextContext.repeatLast, repeatLast, map_code_inText]
  have hlast : state.inText.last = state.last.map _ := rfl
  rw [hlast]
  rcases state.last with _ | ⟨pitch, code⟩
  · rfl
  · dsimp only [Option.map_some]
    rw [← Option.map_or]
    rfl

theorem heldCode_inText (chord : Option Arpeggio) :
    state.inText.heldCode (chord.map Arpeggio.inText) =
      (state.heldCode chord).map ChordCode.text := by
  rw [TextContext.heldCode, heldCode, inText, ← Option.map_or, ← Option.map_or, map_code_inText]

theorem read_inText (word : NoteWord) :
    state.inText.read book.inText word = (state.read book word).map playedInText := by
  rw [TextContext.read, read, writtenChord_inText]
  cases state.writtenChord book word with
  | error fault => rfl
  | ok chord =>
      cases word.hasPitchMarks with
      | true =>
          cases word.letter with
          | tone tone => exact state.playTone_inText tone word chord
          | _ => rfl
      | false =>
          have hheld (note : NotePitch) (state : PitchState) :
              Except.ok ((note, state.inText.heldCode (chord.map Arpeggio.inText)),
                  state.inText) =
                (Except.ok ((note, state.heldCode chord), state) : Except Fault _).map
                  playedInText := by
            rw [heldCode_inText]
            rfl
          cases word.letter with
          | tone tone => exact state.playTone_inText tone word chord
          | repeatChord => exact state.repeatLast_inText chord
          | rest => exact hheld .rest { state with passing := chord }
          | wait => exact hheld .wait state
          | length => exact hheld .length state

theorem exists_text_of_mem_codes
    {code : String} (h : code ∈ state.inText.codes) : ∃ chord : ChordCode, chord.text = code := by
  rcases List.mem_append.mp h with hchord | hlast
  · obtain ⟨chord, hmem, rfl⟩ := List.mem_map.mp hchord
    rcases List.mem_append.mp hmem with hmem | hmem
    · obtain ⟨arpeggio, -, rfl⟩ := Option.map_eq_some_iff.mp (Option.mem_toList.mp hmem)
      exact ⟨arpeggio.code, rfl⟩
    · obtain ⟨arpeggio, -, rfl⟩ := Option.map_eq_some_iff.mp (Option.mem_toList.mp hmem)
      exact ⟨arpeggio.code, rfl⟩
  · obtain ⟨last, hstate, hcode⟩ := Option.bind_eq_some_iff.mp (Option.mem_toList.mp hlast)
    obtain ⟨played, -, rfl⟩ := Option.map_eq_some_iff.mp hstate
    obtain ⟨chord, -, rfl⟩ := Option.map_eq_some_iff.mp hcode
    exact ⟨chord, rfl⟩

end PitchState

/-! ## Trees -/

namespace PitchTree

/-- What a context is asked for. -/
inductive Request where
  | child
  | define (name definition : String)
  /-- Set the chord for all notes that follow. -/
  | arpeggio (text : String)
  /-- Tell the chord that a text denotes. -/
  | translate (text : String)
  | note (word : NoteWord)

/-- The reply to a request, with codes of type `γ`. -/
inductive Reply (γ : Type) where
  /-- There is no such context. -/
  | absent
  | refused (fault : Fault)
  | done
  /-- The code of a chord and whether it goes down. -/
  | translated (chord : Option (γ × Bool))
  | played (note : NotePitch) (code : Option γ)

namespace Reply

variable {γ δ : Type}

/-- The reply with other codes. -/
def map (f : γ → δ) : Reply γ → Reply δ
  | absent => absent
  | refused fault => refused fault
  | done => done
  | translated chord => translated (chord.map fun (code, downward) => (f code, downward))
  | played note code => played note (code.map f)

/-- The codes in a reply. -/
def codes : Reply γ → List γ
  | translated chord => chord.toList.map (·.1)
  | played _ code => code.toList
  | _ => []

theorem codes_map (f : γ → δ) (reply : Reply γ) : (reply.map f).codes = reply.codes.map f := by
  cases reply with
  | translated chord => cases chord <;> rfl
  | played note code => cases code <;> rfl
  | _ => rfl

/-- The reply of a context, if there is one, and the tree after it. A request that is refused
leaves the tree. -/
def ofContext {κ τ : Type} (tree : τ) (context : Option κ)
    (serve : κ → Except Fault (Reply γ × τ)) : Reply γ × τ :=
  match context.map serve with
  | none => (.absent, tree)
  | some (.error fault) => (.refused fault, tree)
  | some (.ok answer) => answer

/-- The replies to some requests, each put to the context of the given number, and the tree after
them. -/
def toEach {τ : Type} (perform : τ → Nat → Request → Reply γ × τ) (tree : τ) :
    List (Nat × Request) → List (Reply γ) × τ
  | [] => ([], tree)
  | (index, request) :: later =>
    let (reply, next) := perform tree index request
    let (replies, last) := toEach perform next later
    (reply :: replies, last)

end Reply

/-- What a request does in a context of a tree. -/
def serve (tree : PitchTree) (index : Nat) (context : PitchState) :
    Request → Except Fault (Reply ChordCode × PitchTree)
  | .child =>
    .ok (.done, ⟨tree.contexts ++ [(context.child tree.book).1], (context.child tree.book).2⟩)
  | .define name definition =>
    (tree.book.define context.lineage name definition).map fun book =>
      (.done, ⟨tree.contexts, book⟩)
  | .arpeggio text =>
    (context.setArpeggio tree.book text).map fun next =>
      (.done, ⟨tree.contexts.set index next, tree.book⟩)
  | .translate text =>
    (tree.book.interpret context.lineage text).map fun chord =>
      (.translated (chord.map fun chord => (chord.code, chord.downward)), tree)
  | .note word =>
    (context.read tree.book word).map fun (played, next) =>
      (.played played.1 played.2, ⟨tree.contexts.set index next, tree.book⟩)

/-- The reply to a request, and the tree after it. -/
def perform (tree : PitchTree) (index : Nat) (request : Request) : Reply ChordCode × PitchTree :=
  Reply.ofContext tree tree.contexts[index]? fun context => tree.serve index context request

/-- The replies to some requests, and the tree after them. -/
def run (tree : PitchTree) (calls : List (Nat × Request)) : List (Reply ChordCode) × PitchTree :=
  Reply.toEach perform tree calls

end PitchTree

/-- A tree whose codes are texts. -/
structure TextTree where
  contexts : List TextContext
  book : TextBook

namespace TextTree

open PitchTree (Request Reply)

/-- The outermost context alone. -/
def root : TextTree := ⟨[⟨.initial, none, none, none⟩], ⟨[[]]⟩⟩

/-- What a request does in a context of a tree. -/
def serve (tree : TextTree) (index : Nat) (context : TextContext) :
    Request → Except Fault (Reply String × TextTree)
  | .child =>
    .ok (.done, ⟨tree.contexts ++ [(context.child tree.book).1], (context.child tree.book).2⟩)
  | .define name definition =>
    (tree.book.define context.plain.lineage name definition).map fun book =>
      (.done, ⟨tree.contexts, book⟩)
  | .arpeggio text =>
    (context.setArpeggio tree.book text).map fun next =>
      (.done, ⟨tree.contexts.set index next, tree.book⟩)
  | .translate text =>
    (tree.book.interpret context.plain.lineage text).map fun chord =>
      (.translated (chord.map fun chord => (chord.code, chord.downward)), tree)
  | .note word =>
    (context.read tree.book word).map fun (played, next) =>
      (.played played.1 played.2, ⟨tree.contexts.set index next, tree.book⟩)

/-- The reply to a request, and the tree after it. -/
def perform (tree : TextTree) (index : Nat) (request : Request) : Reply String × TextTree :=
  Reply.ofContext tree tree.contexts[index]? fun context => tree.serve index context request

/-- The replies to some requests, and the tree after them. -/
def run (tree : TextTree) (calls : List (Nat × Request)) : List (Reply String) × TextTree :=
  Reply.toEach perform tree calls

/-- The codes in the layers of the book and those that the contexts hold. -/
def codes (tree : TextTree) : List String :=
  tree.book.layers.flatten.map (·.2) ++ tree.contexts.flatMap TextContext.codes

end TextTree

namespace PitchTree

/-- The tree with the texts of its codes. -/
def inText (tree : PitchTree) : TextTree :=
  ⟨tree.contexts.map PitchState.inText, tree.book.inText⟩

/-- A reply and a tree with the texts of the codes. -/
def answerInText (answer : Reply ChordCode × PitchTree) : Reply String × TextTree :=
  (answer.1.map ChordCode.text, answer.2.inText)

theorem serve_inText
    (tree : PitchTree) (index : Nat) (context : PitchState) (request : Request) :
    tree.inText.serve index context.inText request =
      (tree.serve index context request).map answerInText := by
  cases request with
  | child =>
      rw [TextTree.serve, inText, PitchState.child_inText]
      simp [serve, answerInText, inText, Reply.map, Except.map]
  | define name definition =>
      change Except.map _ (tree.book.inText.define context.lineage name definition) = _
      rw [TextBook.define_inText, serve]
      cases tree.book.define context.lineage name definition <;> rfl
  | arpeggio text =>
      change Except.map _ (context.inText.setArpeggio tree.book.inText text) = _
      rw [PitchState.setArpeggio_inText, serve]
      cases context.setArpeggio tree.book text with
      | error fault => rfl
      | ok next => simp [Except.map, answerInText, inText, Reply.map, List.map_set]
  | translate text =>
      change Except.map _ (tree.book.inText.interpret context.lineage text) = _
      rw [TextBook.interpret_inText, serve]
      rcases tree.book.interpret context.lineage text with fault | _ | arpeggio <;> rfl
  | note word =>
      change Except.map _ (context.inText.read tree.book.inText word) = _
      rw [PitchState.read_inText, serve]
      cases context.read tree.book word with
      | error fault => rfl
      | ok played =>
          simp [Except.map, PitchState.playedInText, answerInText, inText, Reply.map,
            List.map_set]

/-- One request keeps the texts those of the codes. -/
theorem perform_inText (tree : PitchTree) (index : Nat) (request : Request) :
    tree.inText.perform index request = answerInText (tree.perform index request) := by
  have hcontext : tree.inText.contexts[index]? = tree.contexts[index]?.map PitchState.inText :=
    List.getElem?_map
  rw [TextTree.perform, perform, hcontext]
  cases tree.contexts[index]? with
  | none => rfl
  | some context =>
      simp only [Reply.ofContext, Option.map_some, serve_inText]
      cases tree.serve index context request <;> rfl

/-- So does every run. -/
theorem run_inText (tree : PitchTree) (calls : List (Nat × Request)) :
    tree.inText.run calls =
      ((tree.run calls).1.map (Reply.map ChordCode.text), (tree.run calls).2.inText) := by
  unfold TextTree.run run
  -- The tree is generalized: the later requests are put to the tree that the first one left.
  induction calls generalizing tree with
  | nil => rfl
  | cons call later ih =>
      obtain ⟨index, request⟩ := call
      simp only [Reply.toEach, perform_inText, answerInText, ih, List.map_cons]

/-- The codes that a tree with the texts of codes holds are such texts. -/
theorem exists_text_of_mem_inText
    {tree : PitchTree} {code : String} (h : code ∈ tree.inText.codes) :
    ∃ chord : ChordCode, chord.text = code := by
  rcases List.mem_append.mp h with hlayer | hcontext
  · obtain ⟨entry, hentry, rfl⟩ := List.mem_map.mp hlayer
    rw [inText, ChordBook.inText, ← List.map_flatten] at hentry
    obtain ⟨written, -, rfl⟩ := List.mem_map.mp hentry
    exact ⟨written.2, rfl⟩
  · obtain ⟨context, hmem, hheld⟩ := List.mem_flatMap.mp hcontext
    obtain ⟨state, -, rfl⟩ := List.mem_map.mp hmem
    exact state.exists_text_of_mem_codes hheld

end PitchTree

/-! ## Changes of arpeggio in a pattern -/

section Emitted

variable {code : ChordCode}

namespace Tying

theorem arpeggio_mem_append
    {merged : List TiedItem} {note : PatternNote} {rows : Int} {slurred : Bool}
    (h : .arpeggio code ∈ append merged note rows slurred) : .arpeggio code ∈ merged := by
  rcases append_cases merged note rows slurred with
    ⟨before, beforeRows, beforeSlurred, rest, rfl, -, -, -, happend⟩ | ⟨-, happend⟩
  · rw [happend] at h
    exact List.mem_cons_of_mem _ (List.mem_of_ne_of_mem (by simp) h)
  · rw [happend] at h
    exact List.mem_of_ne_of_mem (by simp) h

theorem arpeggio_mem_announce
    {tying : Tying} {chord : Option ChordCode}
    (h : .arpeggio code ∈ (tying.announce chord).merged) :
    .arpeggio code ∈ tying.merged ∨ chord = some code := by
  unfold announce at h
  split at h
  · exact .inl h
  · split at h
    · exact .inl h
    · rcases List.mem_cons.mp h with hnew | hold
      · cases hnew
        exact .inr rfl
      · exact .inl hold

/-- A change of arpeggio is put in for the chord of a note. -/
theorem arpeggio_mem_foldl
    {items : List PatternItem} {isDrum : Bool} {tying : Tying}
    (h : .arpeggio code ∈ (items.foldl (step isDrum) tying).merged) :
    .arpeggio code ∈ tying.merged ∨
      ∃ note rows slur, .note note rows slur (some code) ∈ items := by
  induction items generalizing tying with
  | nil => exact .inl h
  | cons item items ih =>
      rcases ih h with hstep | ⟨note, rows, slur, hmem⟩
      · cases item with
        | effect effect => exact .inl (List.mem_of_ne_of_mem (by simp) hstep)
        | note note rows slur chord =>
            rcases arpeggio_mem_announce (arpeggio_mem_append hstep) with hold | rfl
            · exact .inl hold
            · exact .inr ⟨note, rows, slur, List.mem_cons_self⟩
      · exact .inr ⟨note, rows, slur, List.mem_cons_of_mem item hmem⟩

end Tying

theorem Orchestra.arpeggio_mem_encodeFrom
    {orchestra : Orchestra} {scope : String} {items : List TiedItem} {index : Nat}
    {encoder final : Encoder} {codes : List PatternCode}
    (hcodes : orchestra.encodeFrom scope index encoder items = .ok (codes, final))
    (h : .arpeggio code ∈ codes) : .arpeggio code ∈ items := by
  induction items generalizing index encoder codes with
  | nil =>
      cases hcodes
      cases h
  | cons item items ih =>
      obtain ⟨itemCodes, next, later, hitem, hlater, rfl⟩ := encodeFrom_cons hcodes
      rcases List.mem_append.mp h with hfirst | hrest
      · rcases List.mem_append.mp hfirst with hbegin | hmem
        · cases arpeggio?_beginRun encoder index _ hbegin
        · by_cases hno : ∀ change, item ≠ .arpeggio change
          · cases arpeggio?_encodeItem hitem hno _ hmem
          · obtain ⟨change, rfl⟩ := not_forall_not.mp hno
            cases hitem
            cases List.mem_singleton.mp hmem
            exact List.mem_cons_self
      · exact List.mem_cons_of_mem item (ih hlater hrest)

/-- A pattern changes to the chords of its notes only. -/
theorem Pattern.exists_note_of_arpeggio
    {pattern : Pattern} {orchestra : Orchestra} {codes : List PatternCode}
    (hencode : pattern.encode orchestra = .ok codes) (h : .arpeggio code ∈ codes) :
    ∃ note rows slur, .note note rows slur (some code) ∈ pattern.items := by
  obtain ⟨body, final, hbody, rfl⟩ := encode_eq_ok hencode
  rcases List.mem_append.mp h with hmem | hclosing
  · have htied := mem_of_mem_dropDeadArpeggios (Orchestra.arpeggio_mem_encodeFrom hbody hmem)
    rcases Tying.arpeggio_mem_foldl (List.mem_reverse.mp htied) with hstart | hnote
    · cases hstart
    · exact hnote
  · rcases mem_closing hclosing with ⟨semitones, hcode⟩ | hcode | hcode
    · cases hcode
    · cases hcode
    · cases hcode

end Emitted

/-! ## Two digits -/

/-- After any requests with any texts, the codes in the layers of chord names, those that contexts
hold and those in the replies are two upper-case hexadecimal digits, and they are the texts of
what the tree of codes holds and replies. So the operand of every change of arpeggio in a pattern,
which is the chord of one of its notes, is a byte. -/
theorem PitchTree.isHexPair_run (calls : List (Nat × Request)) :
    TextTree.root.run calls =
        ((root.run calls).1.map (Reply.map ChordCode.text), (root.run calls).2.inText) ∧
      (∀ code ∈ (TextTree.root.run calls).2.codes, Text.IsHexPair code) ∧
      (∀ reply ∈ (TextTree.root.run calls).1, ∀ code ∈ reply.codes, Text.IsHexPair code) ∧
      ∀ (pattern : Pattern) (orchestra : Orchestra) (codes : List PatternCode) (code : ChordCode),
        pattern.encode orchestra = .ok codes → .arpeggio code ∈ codes →
          (∃ note rows slur, .note note rows slur (some code) ∈ pattern.items) ∧
            (PatternCode.arpeggio code).text = "ARPEGGIO,$" ++ code.text ∧
            Text.IsHexPair code.text ∧
            ∃ operand < 256, Text.hexNumber? code.text.toList = some operand := by
  have hroot : TextTree.root = root.inText := rfl
  have hrun := root.run_inText calls
  rw [← hroot] at hrun
  refine ⟨hrun, ?_, ?_, ?_⟩
  · intro code hmem
    rw [hrun] at hmem
    obtain ⟨chord, rfl⟩ := exists_text_of_mem_inText hmem
    exact Text.isHexPair_text chord
  · intro reply hreply code hmem
    rw [hrun] at hreply
    obtain ⟨answered, -, rfl⟩ := List.mem_map.mp hreply
    rw [Reply.codes_map] at hmem
    obtain ⟨chord, -, rfl⟩ := List.mem_map.mp hmem
    exact Text.isHexPair_text chord
  · intro pattern orchestra codes code hencode hmem
    have hpair := Text.isHexPair_text code
    exact ⟨Pattern.exists_note_of_arpeggio hencode hmem, rfl, hpair, hpair.exists_hexNumber?⟩

/-- A chord inverted in one layer and once more in the layer inside, then set, told downward and
played. -/
def PitchTree.inversions : List (Nat × Request) :=
  [(0, .define "sixth" "M/1"), (0, .child), (1, .define "fourth" "sixth/1"),
    (1, .arpeggio "fourth"), (1, .translate "-sixth/2"),
    (1, .note { (default : NoteWord) with letter := .tone .c })]

theorem PitchTree.isHexPair_run_inversions :
    (TextTree.root.run inversions).1.flatMap Reply.codes = ["47", "59"] ∧
      (∀ reply ∈ (TextTree.root.run inversions).1, ∀ code ∈ reply.codes, Text.IsHexPair code) ∧
      (TextTree.root.run inversions).2.codes = ["38", "59", "59", "59"] ∧
      (∀ code ∈ (TextTree.root.run inversions).2.codes, Text.IsHexPair code) ∧
      Pattern.fanfare.encode ⟨.empty, .empty⟩ = .ok Pattern.fanfareCodes ∧
      .arpeggio (.ofNats 4 7) ∈ Pattern.fanfareCodes ∧
      ∃ operand < 256,
        Text.hexNumber? (ChordCode.ofNats 4 7).text.toList = some operand := by
  obtain ⟨-, hheld, hreplies, hemitted⟩ := isHexPair_run inversions
  have hchange : PatternCode.arpeggio (.ofNats 4 7) ∈ Pattern.fanfareCodes := by decide
  obtain ⟨-, -, -, hoperand⟩ := hemitted _ _ _ _ Pattern.encode_fanfare hchange
  exact ⟨by decide, hreplies, by decide, hheld, Pattern.encode_fanfare, hchange, hoperand⟩

end Chiptune
