import Chiptune.Proofs.Pattern.Building
import Chiptune.Proofs.Pattern.Tying
import Chiptune.Proofs.Rhythm.NoteLength

/-!
# The engine plays the tied items

The codes of a pattern, played on the engine under any transposition, are heard as
the tied items they are made from. The encoder and the engine stay in step: they
agree on transposition and legato up to the shift under which the engine was
started.
-/

namespace Chiptune

/-! ## Matching soundings -/

namespace Orchestra

/-- What the engine makes of a sounding of a pattern: pitches are raised by `shift`,
and a drum is the one its name stands for inside `scope`. -/
inductive SoundsAs (orchestra : Orchestra) (scope : String) (shift : Int) :
    Sounding → Sounding → Prop where
  | silence : SoundsAs orchestra scope shift .silence .silence
  | pitch (semitones : Int) :
      SoundsAs orchestra scope shift (.pitch semitones) (.pitch (semitones + shift))
  | drum {name : String} {drum : Drum}
      (hresolve : orchestra.drums.resolve? name scope = some drum) :
      SoundsAs orchestra scope shift (.drum name) (.drum (Drum.labelOf drum.name))

/-- What the engine makes of a thing heard in a pattern. -/
inductive HeardAs (orchestra : Orchestra) (scope : String) (shift : Int) :
    Heard PatternEffect → Heard PatternCode → Prop where
  | attack {sounding played : Sounding} (grace : Option Nat) (legato : Bool)
      (chord : Option ChordCode)
      (hsounds : orchestra.SoundsAs scope shift sounding played) :
      HeardAs orchestra scope shift (.attack sounding grace legato chord)
        (.attack played grace legato chord)
  | row {sounding played : Sounding} (chord : Option ChordCode)
      (hsounds : orchestra.SoundsAs scope shift sounding played) :
      HeardAs orchestra scope shift (.row sounding chord) (.row played chord)
  | effect {effect : PatternEffect} {code : PatternCode}
      (hcode : orchestra.effectCode scope effect = .ok code) :
      HeardAs orchestra scope shift (.effect effect) (.effect code)

variable {orchestra : Orchestra} {scope : String} {shift : Int}

theorem isEffect_of_effectCode
    {effect : PatternEffect} {code : PatternCode}
    (hcode : orchestra.effectCode scope effect = .ok code) :
    code.isEffect = true := by
  cases effect with
  | instrument name =>
      simp only [Orchestra.effectCode] at hcode
      split at hcode
      · cases hcode
        rfl
      · cases hcode
  | fastArpeggio => cases hcode; rfl
  | slowArpeggio => cases hcode; rfl
  | bend rate => cases hcode; rfl
  | vibrato depth => cases hcode; rfl
  | channelVolume level => cases hcode; rfl

theorem SoundsAs.chordHeard_eq
    {sounding played : Sounding} (h : orchestra.SoundsAs scope shift sounding played)
    (chord : Option ChordCode) :
    played.chordHeard chord = sounding.chordHeard chord := by
  cases h <;> simp [Sounding.chordHeard]

/-- The sound of a note strikes if the note does, and sounds as the note does. -/
theorem soundsAs_of_sound
    {engine : Engine} {transpose : Int} {note : PatternNote} {sound : Sound}
    {before : Sounding}
    (hsound : orchestra.sound scope transpose note = .ok sound)
    (htranspose : engine.transpose = transpose + shift)
    (hbefore : orchestra.SoundsAs scope shift before engine.sounding) :
    sound.isAttack = note.isAttack ∧
      orchestra.SoundsAs scope shift (note.soundingAfter before)
        (engine.soundingOf sound) := by
  cases note with
  | pitch semitones =>
      simp only [Orchestra.sound, pitchSound] at hsound
      split at hsound
      · next hoffset =>
          cases hsound
          refine ⟨rfl, ?_⟩
          have hsum : engine.transpose + ((semitones - transpose).toNat : Int) =
              semitones + shift := by omega
          simp only [PatternNote.soundingAfter, Engine.soundingOf]
          rw [hsum]
          exact .pitch semitones
      · cases hsound
  | rest =>
      cases hsound
      exact ⟨rfl, .silence⟩
  | wait =>
      cases hsound
      exact ⟨rfl, hbefore⟩
  | drum name =>
      simp only [Orchestra.sound] at hsound
      split at hsound
      · next drum hresolve =>
          cases hsound
          exact ⟨rfl, .drum hresolve⟩
      · cases hsound

end Orchestra

/-! ## Codes on the engine -/

namespace Engine

@[simp] theorem run_nil (engine : Engine) : engine.run [] = engine := rfl

@[simp] theorem run_append
    (engine : Engine) (first second : List PatternCode) :
    engine.run (first ++ second) = (engine.run first).run second :=
  Player.run_append player engine first second

@[simp] theorem performance_nil (engine : Engine) : engine.performance [] = [] := rfl

@[simp] theorem performance_append
    (engine : Engine) (first second : List PatternCode) :
    engine.performance (first ++ second) =
      engine.performance first ++ (engine.run first).performance second :=
  Player.performance_append player engine first second

/-- The code of an effect is heard as itself, and changes nothing else. -/
theorem effect
    (engine : Engine) {code : PatternCode} (hcode : code.isEffect = true) :
    engine.step code = { engine with grace := none } ∧
      engine.hear code = [.effect code] := by
  cases code <;> first | exact ⟨rfl, rfl⟩ | cases hcode

/-- Ties only let rows pass. -/
theorem ties
    {engine : Engine} (hgrace : engine.grace = none) (lengths : List NoteLength) :
    engine.run (lengths.map fun length => .note .tie (some length)) = engine ∧
      engine.performance (lengths.map fun length => .note .tie (some length)) =
        List.replicate (NoteLength.totalRows lengths)
          (.row engine.sounding (engine.sounding.chordHeard engine.chord)) := by
  induction lengths with
  | nil => exact ⟨rfl, rfl⟩
  | cons length lengths ih =>
      have hstep : engine.step (.note .tie (some length)) = engine := by
        rw [step, soundingOf, ← hgrace]
      constructor
      · rw [List.map_cons, run, Player.run_cons]
        exact (congrArg (player.run · _) hstep).trans ih.1
      · rw [List.map_cons, performance, Player.performance_cons,
          NoteLength.totalRows_cons, List.replicate_add]
        have hlater : player.performance (player.step engine (.note .tie (some length)))
            (lengths.map fun length => .note .tie (some length)) =
            engine.performance (lengths.map fun length => .note .tie (some length)) :=
          congrArg (player.performance · _) hstep
        rw [hlater, ih.2]
        rfl

/-- What sounds once a sound of the given rows is played; one of no rows is not. -/
def soundingOver (engine : Engine) (sound : Sound) (rows : Int) : Sounding :=
  if rows = 0 then engine.sounding else engine.soundingOf sound

/-- The codes of a lasting sound strike it once and hold it for its rows. -/
theorem lasting
    {engine : Engine} (hgrace : engine.grace = none) (sound : Sound) (rows : Int) :
    engine.run (Orchestra.lasting sound rows) =
        { engine with sounding := engine.soundingOver sound rows } ∧
      engine.performance (Orchestra.lasting sound rows) =
        (if sound.isAttack && rows != 0 then
            [.attack (engine.soundingOver sound rows) (graceFrames rows) engine.legato
              engine.chord]
          else []) ++
          List.replicate rows.toNat
            (.row (engine.soundingOver sound rows)
              ((engine.soundingOver sound rows).chordHeard engine.chord)) := by
  rcases Int.lt_trichotomy rows 0 with hneg | rfl | hpos
  · have hne : rows ≠ 0 := by omega
    have hnone : rows.toNat = 0 := by omega
    simp only [Orchestra.lasting, hneg, if_true, soundingOver, hne, if_false, hnone,
      List.replicate_zero, graceFrames]
    constructor
    · rw [hgrace]
      rfl
    · simp [performance, player, hear, step, soundingOf, PatternCode.rowCount,
        PatternCode.isEffect, hne]
  · simp [Orchestra.lasting, soundingOver, NoteLength.decompose]
  · have hne : rows ≠ 0 := by omega
    have hnotneg : ¬rows < 0 := by omega
    have hrows := NoteLength.totalRows_decompose rows.toNat
    simp only [Orchestra.lasting, hnotneg, if_false, soundingOver, hne, graceFrames]
    cases hsplit : NoteLength.decompose rows.toNat with
    | nil => exact absurd hsplit (NoteLength.decompose_ne_nil (by omega))
    | cons first later =>
        rw [hsplit, NoteLength.totalRows_cons] at hrows
        let struck : Engine := { engine with sounding := engine.soundingOf sound }
        have hstep : engine.step (.note sound (some first)) = struck := by
          rw [step, ← hgrace]
        have hties := @ties struck hgrace later
        constructor
        · exact (congrArg (player.run · _) hstep).trans hties.1
        · have hlater : engine.performance
              (.note sound (some first) ::
                later.map fun length => .note .tie (some length)) =
              engine.hear (.note sound (some first)) ++
                struck.performance (later.map fun length => .note .tie (some length)) :=
            congrArg (engine.hear (.note sound (some first)) ++ player.performance · _)
              hstep
          rw [hlater, hties.2, ← hrows, List.replicate_add, ← List.append_assoc]
          simp [hear, PatternCode.rowCount, hgrace, hne, struck]

end Engine

theorem forall₂_replicate
    {α β : Type} {r : α → β → Prop} {a : α} {b : β} (h : r a b) (n : Nat) :
    List.Forall₂ r (List.replicate n a) (List.replicate n b) := by
  induction n with
  | zero => exact .nil
  | succ n ih => exact .cons h ih

/-! ## Encoding taken apart -/

theorem Encoder.mem_beginRun
    {encoder : Encoder} {index : Nat} {code : PatternCode}
    (hmem : code ∈ (encoder.beginRun index).1) :
    ∃ semitones, code = .transpose semitones := by
  unfold beginRun at hmem
  split at hmem
  · split at hmem
    · exact ⟨_, List.mem_singleton.mp hmem⟩
    · cases hmem
  · cases hmem

theorem Encoder.mem_beginNote
    {encoder : Encoder} {note : PatternNote} {slurred : Bool} {code : PatternCode}
    (hmem : code ∈ (encoder.beginNote note slurred).1) :
    code = .legatoOn ∨ code = .legatoOff := by
  unfold beginNote at hmem
  split at hmem
  · rw [List.mem_singleton.mp hmem]
    cases encoder.slurred with
    | true => exact Or.inl rfl
    | false => exact Or.inr rfl
  · cases hmem

theorem Orchestra.mem_lasting
    {sound : Sound} {rows : Int} {code : PatternCode} (hmem : code ∈ lasting sound rows) :
    (∃ frames, code = .grace frames) ∨ ∃ played length, code = .note played length := by
  unfold lasting at hmem
  split at hmem
  · rcases List.mem_cons.mp hmem with rfl | hmem
    · exact Or.inl ⟨_, rfl⟩
    · exact Or.inr ⟨_, _, List.mem_singleton.mp hmem⟩
  · split at hmem
    · cases hmem
    · rcases List.mem_cons.mp hmem with rfl | hmem
      · exact Or.inr ⟨_, _, rfl⟩
      · obtain ⟨length, -, rfl⟩ := List.mem_map.mp hmem
        exact Or.inr ⟨_, _, rfl⟩

/-- A sound that is played has a note code of its own. -/
theorem Orchestra.note_mem_lasting
    (sound : Sound) {rows : Int} (hrows : rows ≠ 0) :
    ∃ length, .note sound length ∈ lasting sound rows := by
  unfold lasting
  by_cases hneg : rows < 0
  · rw [if_pos hneg]
    exact ⟨none, by simp⟩
  · rw [if_neg hneg]
    cases hsplit : NoteLength.decompose rows.toNat with
    | nil => exact absurd hsplit (NoteLength.decompose_ne_nil (by omega))
    | cons first later => exact ⟨some first, List.mem_cons_self⟩

theorem Orchestra.encodeItem_effect
    {orchestra : Orchestra} {scope : String} {encoder next : Encoder}
    {effect : PatternEffect} {codes : List PatternCode}
    (h : orchestra.encodeItem scope encoder (.effect effect) = .ok (codes, next)) :
    ∃ code, orchestra.effectCode scope effect = .ok code ∧
      codes = [code] ∧ next = encoder := by
  cases hcode : orchestra.effectCode scope effect with
  | error fault => simp [encodeItem, hcode, bind, Except.bind] at h
  | ok code =>
      simp only [encodeItem, hcode, bind, Except.bind, pure, Except.pure,
        Except.ok.injEq, Prod.mk.injEq] at h
      exact ⟨code, rfl, h.1.symm, h.2.symm⟩

theorem Orchestra.encodeItem_note
    {orchestra : Orchestra} {scope : String} {encoder next : Encoder}
    {note : PatternNote} {rows : Int} {slurred : Bool} {codes : List PatternCode}
    (h : orchestra.encodeItem scope encoder (.note note rows slurred) = .ok (codes, next)) :
    ∃ sound, orchestra.sound scope encoder.transpose note = .ok sound ∧
      codes = (encoder.beginNote note slurred).1 ++ lasting sound rows ∧
      next = (encoder.beginNote note slurred).2 := by
  cases hsound : orchestra.sound scope encoder.transpose note with
  | error fault => simp [encodeItem, hsound, bind, Except.bind] at h
  | ok sound =>
      simp only [encodeItem, hsound, bind, Except.bind, pure, Except.pure,
        Except.ok.injEq, Prod.mk.injEq] at h
      exact ⟨sound, rfl, h.1.symm, h.2.symm⟩

/-- Encoding item after item, taken apart at the first. -/
theorem Orchestra.encodeFrom_cons
    {orchestra : Orchestra} {scope : String} {index : Nat} {encoder final : Encoder}
    {item : TiedItem} {items : List TiedItem} {codes : List PatternCode}
    (h : orchestra.encodeFrom scope index encoder (item :: items) = .ok (codes, final)) :
    ∃ itemCodes next later,
      orchestra.encodeItem scope (encoder.beginRun index).2 item = .ok (itemCodes, next) ∧
        orchestra.encodeFrom scope (index + 1) next items = .ok (later, final) ∧
        codes = (encoder.beginRun index).1 ++ itemCodes ++ later := by
  simp only [Orchestra.encodeFrom, bind, Except.bind] at h
  cases hitem : orchestra.encodeItem scope (encoder.beginRun index).2 item with
  | error fault => simp [hitem] at h
  | ok encoded =>
      obtain ⟨itemCodes, next⟩ := encoded
      simp only [hitem] at h
      cases hlater : orchestra.encodeFrom scope (index + 1) next items with
      | error fault => simp [hlater] at h
      | ok encodedLater =>
          obtain ⟨later, last⟩ := encodedLater
          simp only [hlater, pure, Except.pure, Except.ok.injEq, Prod.mk.injEq] at h
          obtain ⟨rfl, rfl⟩ := h
          exact ⟨itemCodes, next, later, rfl, hlater, rfl⟩

/-! ## The encoder and the engine in step -/

/-- The encoder, the listener of tied items and the engine agree. -/
structure Synced (orchestra : Orchestra) (scope : String) (shift : Int)
    (encoder : Encoder) (listener : Listener) (engine : Engine) : Prop where
  transpose_eq : engine.transpose = encoder.transpose + shift
  legato_eq : engine.legato = encoder.legato
  grace_eq : engine.grace = none
  chord_eq : engine.chord = listener.chord
  leads_eq : listener.leads = encoder.slurred
  soundsAs : orchestra.SoundsAs scope shift listener.sounding engine.sounding

namespace Synced

variable {orchestra : Orchestra} {scope : String} {shift : Int}
  {encoder : Encoder} {listener : Listener} {engine : Engine}

/-- A run that begins changes the transposition alone, unheard. -/
theorem beginRun
    (h : Synced orchestra scope shift encoder listener engine) (index : Nat) :
    Synced orchestra scope shift (encoder.beginRun index).2 listener
        (engine.run (encoder.beginRun index).1) ∧
      engine.performance (encoder.beginRun index).1 = [] := by
  unfold Encoder.beginRun
  split
  · next run later hruns =>
      split
      · refine ⟨⟨?_, h.legato_eq, rfl, h.chord_eq, h.leads_eq, h.soundsAs⟩, rfl⟩
        change engine.transpose + (run.low - encoder.transpose) = run.low + shift
        rw [h.transpose_eq]
        omega
      · exact ⟨h, rfl⟩
  · exact ⟨h, rfl⟩

/-- Before an attack legato is put in force as the note before asks, unheard. -/
theorem beginNote
    (h : Synced orchestra scope shift encoder listener engine)
    (note : PatternNote) (slurred : Bool) :
    Synced orchestra scope shift (encoder.beginNote note slurred).2
        { listener with leads := slurred }
        (engine.run (encoder.beginNote note slurred).1) ∧
      engine.performance (encoder.beginNote note slurred).1 = [] ∧
      (note.isAttack = true →
        (engine.run (encoder.beginNote note slurred).1).legato = listener.leads) := by
  unfold Encoder.beginNote
  split
  · next hswitch =>
      cases hslurred : encoder.slurred with
      | true =>
          refine ⟨⟨h.transpose_eq, rfl, rfl, h.chord_eq, rfl, h.soundsAs⟩, rfl, ?_⟩
          intro _
          rw [h.leads_eq, hslurred]
          rfl
      | false =>
          refine ⟨⟨h.transpose_eq, rfl, rfl, h.chord_eq, rfl, h.soundsAs⟩, rfl, ?_⟩
          intro _
          rw [h.leads_eq, hslurred]
          rfl
  · next hswitch =>
      refine ⟨⟨h.transpose_eq, h.legato_eq, h.grace_eq, h.chord_eq, rfl, h.soundsAs⟩,
        rfl, ?_⟩
      intro hattack
      simp only [hattack, Bool.true_and, bne_iff_ne, ne_eq, not_not] at hswitch
      rw [h.leads_eq, hswitch]
      exact h.legato_eq

/-- The codes of a note are heard as the note is. -/
theorem note
    (h : Synced orchestra scope shift encoder listener engine)
    {note : PatternNote} {rows : Int} {slurred : Bool} {sound : Sound}
    (hsound : orchestra.sound scope encoder.transpose note = .ok sound) :
    let begun := encoder.beginNote note slurred
    let codes := begun.1 ++ Orchestra.lasting sound rows
    Synced orchestra scope shift begun.2 (listener.step (.note note rows slurred))
        (engine.run codes) ∧
      List.Forall₂ (orchestra.HeardAs scope shift)
        (listener.hear (.note note rows slurred)) (engine.performance codes) := by
  intro begun codes
  obtain ⟨hsync, hquiet, hlegato⟩ := h.beginNote note slurred
  have htranspose : (encoder.beginNote note slurred).2.transpose = encoder.transpose := by
    unfold Encoder.beginNote
    split <;> rfl
  have hstart := hsync.transpose_eq
  rw [htranspose] at hstart
  obtain ⟨hstrikes, hsounds⟩ :=
    Orchestra.soundsAs_of_sound hsound hstart hsync.soundsAs
  obtain ⟨hrun, hheard⟩ := Engine.lasting hsync.grace_eq sound rows
  have hover : orchestra.SoundsAs scope shift (listener.soundingOf note rows)
      ((engine.run begun.1).soundingOver sound rows) := by
    unfold Listener.soundingOf Engine.soundingOver
    split
    · exact hsync.soundsAs
    · exact hsounds
  constructor
  · simp only [codes, Engine.run_append]
    rw [hrun]
    exact ⟨hsync.transpose_eq, hsync.legato_eq, hsync.grace_eq, hsync.chord_eq,
      hsync.leads_eq, hover⟩
  · simp only [codes, Engine.performance_append]
    rw [hquiet, List.nil_append, hheard, Listener.hear, hstrikes, hsync.chord_eq,
      hover.chordHeard_eq]
    refine List.rel_append ?_ ?_
    · split
      · next hattack =>
          simp only [Bool.and_eq_true] at hattack
          rw [hlegato hattack.1]
          exact .cons (.attack _ _ _ hover) .nil
      · exact .nil
    · exact forall₂_replicate (.row _ hover) rows.toNat

/-- The codes of one item are heard as the item is. -/
theorem encodeItem
    (h : Synced orchestra scope shift encoder listener engine)
    {item : TiedItem} {codes : List PatternCode} {next : Encoder}
    (hitem : orchestra.encodeItem scope encoder item = .ok (codes, next)) :
    Synced orchestra scope shift next (listener.step item) (engine.run codes) ∧
      List.Forall₂ (orchestra.HeardAs scope shift) (listener.hear item)
        (engine.performance codes) := by
  cases item with
  | arpeggio code =>
      cases hitem
      exact ⟨⟨h.transpose_eq, h.legato_eq, rfl, rfl, h.leads_eq, h.soundsAs⟩, .nil⟩
  | effect effect =>
      obtain ⟨code, hcode, rfl, rfl⟩ := Orchestra.encodeItem_effect hitem
      obtain ⟨hstep, hhear⟩ := engine.effect (Orchestra.isEffect_of_effectCode hcode)
      constructor
      · change Synced orchestra scope shift next listener (engine.step code)
        rw [hstep]
        exact ⟨h.transpose_eq, h.legato_eq, rfl, h.chord_eq, h.leads_eq, h.soundsAs⟩
      · change List.Forall₂ _ _ (engine.hear code ++ [])
        rw [hhear]
        exact .cons (.effect hcode) .nil
  | note note rows slurred =>
      obtain ⟨sound, hsound, rfl, rfl⟩ := Orchestra.encodeItem_note hitem
      exact h.note hsound

/-- The codes of many items are heard as the items are. -/
theorem encodeFrom
    {index : Nat} {items : List TiedItem} {codes : List PatternCode} {final : Encoder}
    (h : Synced orchestra scope shift encoder listener engine)
    (hitems : orchestra.encodeFrom scope index encoder items = .ok (codes, final)) :
    Synced orchestra scope shift final (Listener.player.run listener items)
        (engine.run codes) ∧
      List.Forall₂ (orchestra.HeardAs scope shift)
        (Listener.player.performance listener items) (engine.performance codes) := by
  induction items generalizing index encoder listener engine codes with
  | nil =>
      cases hitems
      exact ⟨h, .nil⟩
  | cons item items ih =>
      obtain ⟨itemCodes, next, later, hitem, hlater, rfl⟩ := Orchestra.encodeFrom_cons hitems
      obtain ⟨hrun, hquiet⟩ := h.beginRun index
      obtain ⟨hnext, hheard⟩ := hrun.encodeItem hitem
      obtain ⟨hfinal, hrest⟩ := ih hnext hlater
      simp only [Engine.run_append, Engine.performance_append, hquiet, List.nil_append]
      exact ⟨hfinal, List.rel_append hheard hrest⟩

end Synced

/-! ## Whole patterns -/

namespace Pattern

/-- The encoder at the start of a pattern. -/
def startEncoder (pattern : Pattern) : Encoder :=
  Encoder.start (TransposeRun.split pattern.tied)

/-- The codes of a pattern are those of its tied items with the closing ones behind. -/
theorem encode_eq_ok
    {pattern : Pattern} {orchestra : Orchestra} {codes : List PatternCode}
    (hencode : pattern.encode orchestra = .ok codes) :
    ∃ body final,
      orchestra.encodeFrom pattern.name 0 pattern.startEncoder pattern.tied =
          .ok (body, final) ∧
        codes = body ++ pattern.closing pattern.startEncoder.transpose final := by
  simp only [encode, bind, Except.bind] at hencode
  split at hencode
  · cases hencode
  · next encoded hbody =>
      obtain ⟨body, final⟩ := encoded
      simp only [pure, Except.pure, Except.ok.injEq] at hencode
      exact ⟨body, final, hbody, hencode.symm⟩

theorem mem_closing
    {pattern : Pattern} {base : Int} {encoder : Encoder} {code : PatternCode}
    (hmem : code ∈ pattern.closing base encoder) :
    (∃ semitones, code = .transpose semitones) ∨ code = .legatoOff ∨ code = .patternEnd := by
  rcases List.mem_append.mp hmem with hmem | hmem
  · split at hmem
    · cases hmem
    · exact Or.inl ⟨_, List.mem_singleton.mp hmem⟩
  · split at hmem
    · cases hmem
    · rcases List.mem_append.mp hmem with hmem | hmem
      · split at hmem
        · exact Or.inr (Or.inl (List.mem_singleton.mp hmem))
        · cases hmem
      · exact Or.inr (Or.inr (List.mem_singleton.mp hmem))

/-- The closing codes are not heard, and put the transposition back. -/
theorem closing_played
    (pattern : Pattern) (base : Int) (encoder : Encoder) {engine : Engine} {shift : Int}
    (htranspose : engine.transpose = encoder.transpose + shift) :
    engine.performance (pattern.closing base encoder) = [] ∧
      (engine.run (pattern.closing base encoder)).transpose = base + shift := by
  have hback : engine.transpose + (base - encoder.transpose) = base + shift := by
    rw [htranspose]
    omega
  by_cases hbase : encoder.transpose = base
  · have hsame : engine.transpose = base + shift := by rw [htranspose, hbase]
    cases hfall : pattern.fallthrough <;> cases hlegato : encoder.legato <;>
      simp only [closing, hbase, hfall, hlegato, if_true, Bool.false_eq_true, if_false] <;>
      exact ⟨rfl, hsame⟩
  · cases hfall : pattern.fallthrough <;> cases hlegato : encoder.legato <;>
      simp only [closing, hbase, hfall, hlegato, if_true, Bool.false_eq_true, if_false] <;>
      exact ⟨rfl, hback⟩

theorem synced_start
    (pattern : Pattern) (orchestra : Orchestra) (shift : Int) :
    Synced orchestra pattern.name shift pattern.startEncoder Listener.start
      (Engine.start (pattern.baseTranspose.getD 0 + shift)) :=
  ⟨rfl, rfl, rfl, rfl, rfl, .silence⟩

/-- The codes of a pattern are heard as its items are, and leave the transposition as
it was. -/
theorem performance_encode
    {pattern : Pattern} {orchestra : Orchestra} {codes : List PatternCode}
    (hencode : pattern.encode orchestra = .ok codes) (shift : Int) :
    let engine := Engine.start (pattern.baseTranspose.getD 0 + shift)
    List.Forall₂ (orchestra.HeardAs pattern.name shift) pattern.performance
        (engine.performance codes) ∧
      (engine.run codes).transpose = engine.transpose := by
  intro engine
  obtain ⟨body, final, hbody, rfl⟩ := encode_eq_ok hencode
  obtain ⟨hsync, hheard⟩ := (synced_start pattern orchestra shift).encodeFrom hbody
  obtain ⟨hquiet, hback⟩ := closing_played pattern pattern.startEncoder.transpose final
    hsync.transpose_eq
  rw [performance_tied] at hheard
  rw [Engine.performance_append, Engine.run_append, hquiet, List.append_nil]
  exact ⟨hheard, hback⟩

/-- The codes of the fanfare. -/
def fanfareCodes : List PatternCode :=
  [.arpeggio (.ofNats 4 7), .note (.pitch 0) (some .quarter), .transpose 48, .legatoOn,
    .note (.pitch 0) (some .half), .arpeggio .silent, .legatoOff, .grace 3,
    .note (.pitch 2) none, .channelVolume 4, .note .tie (some .row),
    .note .rest (some .quarter), .transpose (-48), .patternEnd]

theorem encode_fanfare : fanfare.encode ⟨.empty, .empty⟩ = .ok fanfareCodes :=
  Step.eq_ok_of_toOption (by decide +kernel)

end Pattern

end Chiptune
