import Chiptune.Proofs.Pattern.History

/-!
# Tied items are heard as the items they come from

Merging waits and ties, putting in changes of arpeggio and dropping those that no
note plays leave the performance of a pattern as it was.
-/

namespace Chiptune

/-! ## Playing tied items -/

/-- What is in force while tied items are played. -/
structure Listener where
  sounding : Sounding
  /-- Whether the note before leads into the next. -/
  leads : Bool
  chord : Option ChordCode
deriving DecidableEq, Repr

/-- What sounds once a note is played. -/
def PatternNote.soundingAfter (before : Sounding) : PatternNote → Sounding
  | pitch semitones => .pitch semitones
  | rest => .silence
  | wait => before
  | drum name => .drum name

namespace Listener

/-- Silence, with nothing before. -/
def start : Listener := ⟨.silence, false, none⟩

/-- What sounds once a note of the given rows is played; a note of no rows is not. -/
def soundingOf (listener : Listener) (note : PatternNote) (rows : Int) : Sounding :=
  if rows = 0 then listener.sounding else note.soundingAfter listener.sounding

/-- The listener after one more item. -/
def step (listener : Listener) : TiedItem → Listener
  | .note note rows slurred =>
    { listener with sounding := listener.soundingOf note rows, leads := slurred }
  | .arpeggio code => { listener with chord := some code }
  | .effect _ => listener

/-- What is heard of one item. -/
def hear (listener : Listener) : TiedItem → List (Heard PatternEffect)
  | .note note rows _ =>
    let sounding := listener.soundingOf note rows
    (if note.isAttack && rows != 0 then
        [.attack sounding (graceFrames rows) listener.leads listener.chord]
      else []) ++
      List.replicate rows.toNat (.row sounding (sounding.chordHeard listener.chord))
  | .arpeggio _ => []
  | .effect effect => [.effect effect]

/-- The listener as a player of tied items. -/
def player : Player Listener TiedItem (Heard PatternEffect) := ⟨step, hear⟩

/-- The rows of a merged note are heard one after the other. -/
theorem hear_note_add
    (listener : Listener) (note : PatternNote) {rows more : Int}
    (slurred merged : Bool) (hrows : 0 < rows) (hmore : 0 < more) :
    listener.hear (.note note (rows + more) merged) =
      listener.hear (.note note rows slurred) ++
        List.replicate more.toNat
          (.row (listener.soundingOf note rows)
            ((listener.soundingOf note rows).chordHeard listener.chord)) := by
  have hsum : (rows + more).toNat = rows.toNat + more.toNat := by omega
  have hne : rows ≠ 0 := by omega
  have hsumne : rows + more ≠ 0 := by omega
  have hgrace : ¬rows < 0 := by omega
  have hsumgrace : ¬rows + more < 0 := by omega
  simp [hear, soundingOf, graceFrames, hne, hsumne, hgrace, hsumgrace, hsum,
    List.append_assoc]

/-- A rest is heard alike under every chord. -/
theorem hear_rest_chord
    (listener : Listener) (chord : Option ChordCode) (rows : Int) (slurred : Bool) :
    { listener with chord := chord }.hear (.note .rest rows slurred) =
      listener.hear (.note .rest rows slurred) := by
  by_cases hrows : rows = 0
  · simp [hear, PatternNote.isAttack, hrows]
  · simp [hear, soundingOf, PatternNote.isAttack, PatternNote.soundingAfter,
      Sounding.chordHeard, hrows]

end Listener

/-! ## Changes of arpeggio that no note plays -/

theorem dropDeadArpeggios_note
    (note : PatternNote) (rows : Int) (slurred : Bool) (items : List TiedItem) :
    dropDeadArpeggios (.note note rows slurred :: items) =
      (.note note rows slurred :: (dropDeadArpeggios items).1,
        (dropDeadArpeggios items).2 || note != .rest) := rfl

theorem dropDeadArpeggios_effect
    (effect : PatternEffect) (items : List TiedItem) :
    dropDeadArpeggios (.effect effect :: items) =
      (.effect effect :: (dropDeadArpeggios items).1,
        (dropDeadArpeggios items).2) := rfl

theorem dropDeadArpeggios_arpeggio
    (code : ChordCode) (items : List TiedItem) :
    dropDeadArpeggios (.arpeggio code :: items) =
      (if (dropDeadArpeggios items).2 then
          .arpeggio code :: (dropDeadArpeggios items).1
        else (dropDeadArpeggios items).1,
        false) := by
  cases hplayed : (dropDeadArpeggios items).2 <;>
    simp [dropDeadArpeggios, hplayed]

/-- Where no note but rests comes before the next change of arpeggio, the chord in
force is not heard. -/
theorem performance_chord_of_not_played
    {items : List TiedItem} (hplayed : (dropDeadArpeggios items).2 = false)
    (listener : Listener) (chord : Option ChordCode) :
    Listener.player.performance { listener with chord := chord } items =
      Listener.player.performance listener items := by
  induction items generalizing listener with
  | nil => rfl
  | cons item items ih =>
      cases item with
      | note note rows slurred =>
          rw [dropDeadArpeggios_note] at hplayed
          simp only [Bool.or_eq_false_iff, bne_eq_false_iff_eq] at hplayed
          obtain ⟨hlater, rfl⟩ := hplayed
          have hhear := Listener.hear_rest_chord listener chord rows slurred
          simp only [Player.performance_cons, Listener.player] at ih ⊢
          rw [hhear]
          congr 1
          exact ih hlater (listener.step (.note .rest rows slurred))
      | arpeggio code => rfl
      | effect effect =>
          rw [dropDeadArpeggios_effect] at hplayed
          simp only [Player.performance_cons, Listener.player] at ih ⊢
          congr 1
          exact ih hplayed listener

/-- Dropping the changes of arpeggio that no note plays is not heard. -/
theorem performance_dropDeadArpeggios
    (listener : Listener) (items : List TiedItem) :
    Listener.player.performance listener (dropDeadArpeggios items).1 =
      Listener.player.performance listener items := by
  induction items generalizing listener with
  | nil => rfl
  | cons item items ih =>
      cases item with
      | note note rows slurred =>
          rw [dropDeadArpeggios_note, Player.performance_cons,
            Player.performance_cons, ih]
      | effect effect =>
          rw [dropDeadArpeggios_effect, Player.performance_cons,
            Player.performance_cons, ih]
      | arpeggio code =>
          rw [dropDeadArpeggios_arpeggio, Player.performance_cons]
          cases hplayed : (dropDeadArpeggios items).2 with
          | true =>
              simp only [if_true, Player.performance_cons]
              rw [ih]
          | false =>
              simp only [Bool.false_eq_true, if_false]
              rw [ih]
              exact (performance_chord_of_not_played hplayed listener
                (some code)).symm

/-! ## Merging -/

namespace Tying

theorem placed_isAttack
    (isDrum atStart : Bool) (note : PatternNote) :
    (placed isDrum atStart note).isAttack = note.isAttack := by
  cases note <;> cases isDrum <;> cases atStart <;> rfl

theorem placed_of_isAttack
    (isDrum atStart : Bool) {note : PatternNote} (hattack : note.isAttack = true) :
    placed isDrum atStart note = note := by
  cases note with
  | pitch semitones => cases isDrum <;> cases atStart <;> rfl
  | drum name => cases isDrum <;> cases atStart <;> rfl
  | rest => simp [PatternNote.isAttack] at hattack
  | wait => simp [PatternNote.isAttack] at hattack

/-- A placed note sounds as the history says the note does. -/
theorem sounding_placed
    {isDrum atStart : Bool} {history : History}
    (hstart : atStart = true → history.sounding isDrum = .silence)
    (note : PatternNote) (rows : Int) (slur : SlurMark) (carried : Option ChordCode) :
    History.sounding isDrum (.note note rows slur carried :: history) =
      if rows = 0 then history.sounding isDrum
      else (placed isDrum atStart note).soundingAfter (history.sounding isDrum) := by
  by_cases hrows : rows = 0
  · simp [History.sounding, hrows]
  · simp only [History.sounding, hrows, if_false]
    cases note with
    | pitch semitones => rw [placed_of_isAttack _ _ rfl]; rfl
    | drum name => rw [placed_of_isAttack _ _ rfl]; rfl
    | wait =>
        cases atStart with
        | false => cases isDrum <;> rfl
        | true => rw [hstart rfl]; cases isDrum <;> rfl
    | rest =>
        cases atStart with
        | false => cases isDrum <;> rfl
        | true => rw [hstart rfl]; cases isDrum <;> rfl

theorem leadsOn_eq_slurOn
    (history : History) (slur : SlurMark) :
    leadsOn history.slurOpen slur = history.slurOn slur := by
  cases slur <;> rfl

/-- A note is merged into the last item, or it is put behind it. -/
theorem append_cases
    (merged : List TiedItem) (note : PatternNote) (rows : Int) (slurred : Bool) :
    (∃ before beforeRows beforeSlurred rest,
      merged = .note before beforeRows beforeSlurred :: rest ∧
        0 < rows ∧ 0 < beforeRows ∧
        (note = .wait ∨ beforeSlurred = true ∧ before = note) ∧
        append merged note rows slurred =
          .note before (beforeRows + rows) slurred :: rest) ∨
    ((∀ before beforeRows rest,
      merged = .note before beforeRows true :: rest →
        0 < rows → 0 < beforeRows → before ≠ note) ∧
      append merged note rows slurred = .note note rows slurred :: merged) := by
  unfold append
  split
  · next before beforeRows beforeSlurred rest =>
      split
      · next hextends =>
          obtain ⟨hrows, hbefore, hsame⟩ := hextends
          exact Or.inl ⟨before, beforeRows, beforeSlurred, rest, rfl, hrows,
            hbefore, hsame, rfl⟩
      · next hnot =>
          refine Or.inr ⟨?_, rfl⟩
          rintro last lastRows earlier hmerged hrows hlast rfl
          cases hmerged
          exact hnot ⟨hrows, hlast, Or.inr ⟨rfl, rfl⟩⟩
  · next hnone =>
      refine Or.inr ⟨?_, rfl⟩
      intro last lastRows earlier hmerged
      exact absurd hmerged (hnone last lastRows true earlier)

/-- How the last tied item stands to the last item of the pattern. -/
def EndsAs (history : History) (merged : List TiedItem) : Prop :=
  match history with
  | .note note rows _ _ :: _ =>
    ∃ before beforeRows rest,
      merged = .note before beforeRows history.leadsOn :: rest ∧
        (0 < beforeRows ↔ 0 < rows) ∧ (history.leadsOn = true → before = note)
  | _ => ∀ note rows slurred rest, merged ≠ .note note rows slurred :: rest

/-- The tied items so far are heard as the items so far, and the chord and the slur
in force are those of the history. -/
structure Follows (isDrum : Bool) (history : History) (tying : Tying) : Prop where
  chord_eq : tying.chord = history.chord
  slurOpen_eq : tying.slurOpen = history.slurOpen
  performance_eq :
    Listener.player.performance Listener.start tying.merged.reverse =
      (History.player isDrum).performance [] history.reverse
  run_eq :
    Listener.player.run Listener.start tying.merged.reverse =
      ⟨history.sounding isDrum, history.leadsOn, history.chord⟩
  endsAs : EndsAs history tying.merged

/-- What is known once the chord of the next note is announced. The last item still
ends the history unless a change of arpeggio was put behind it. -/
structure Announced (isDrum : Bool) (history : History) (carried : Option ChordCode)
    (tying : Tying) : Prop where
  chord_eq : tying.chord = carried.or history.chord
  slurOpen_eq : tying.slurOpen = history.slurOpen
  performance_eq :
    Listener.player.performance Listener.start tying.merged.reverse =
      (History.player isDrum).performance [] history.reverse
  run_eq :
    Listener.player.run Listener.start tying.merged.reverse =
      ⟨history.sounding isDrum, history.leadsOn, carried.or history.chord⟩
  endsAs :
    (carried = none ∨ carried = history.chord) ∧ EndsAs history tying.merged ∨
      ¬(carried = none ∨ carried = history.chord) ∧
        ∀ note rows slurred rest, tying.merged ≠ .note note rows slurred :: rest

theorem Follows.announce
    {isDrum : Bool} {history : History} {tying : Tying}
    (h : Follows isDrum history tying) (carried : Option ChordCode) :
    Announced isDrum history carried (tying.announce carried) := by
  cases carried with
  | none =>
      exact ⟨h.chord_eq, h.slurOpen_eq, h.performance_eq, h.run_eq,
        Or.inl ⟨Or.inl rfl, h.endsAs⟩⟩
  | some code =>
      by_cases hsame : tying.chord = some code
      · have hhistory : history.chord = some code := h.chord_eq ▸ hsame
        have hrun := h.run_eq
        rw [hhistory] at hrun
        simp only [Tying.announce, hsame, if_true]
        exact ⟨hsame, h.slurOpen_eq, h.performance_eq, hrun,
          Or.inl ⟨Or.inr hhistory.symm, h.endsAs⟩⟩
      · have hhistory : ¬(some code = none ∨ some code = history.chord) := by
          rw [← h.chord_eq]
          rintro (hnone | hchord)
          · exact Option.some_ne_none code hnone
          · exact hsame hchord.symm
        simp only [Tying.announce, hsame, if_false]
        refine ⟨rfl, h.slurOpen_eq, ?_, ?_, Or.inr ⟨hhistory, ?_⟩⟩
        · rw [List.reverse_cons, Player.performance_append, h.performance_eq]
          simp [Listener.player, Listener.hear]
        · rw [List.reverse_cons, Player.run_append, h.run_eq]
          rfl
        · intro note rows slurred rest hmerged
          cases hmerged

/-- A note is absorbed exactly when the last tied item is that note, leads on, and
both take rows. -/
theorem Announced.absorbs_iff
    {isDrum : Bool} {history : History} {carried : Option ChordCode} {tying : Tying}
    (h : Announced isDrum history carried tying) (note : PatternNote) (rows : Int) :
    history.absorbs note rows carried = true ↔
      ∃ beforeRows rest, tying.merged = .note note beforeRows true :: rest ∧
        0 < rows ∧ 0 < beforeRows := by
  constructor
  · intro habsorbs
    rcases history with _ | ⟨⟨last, lastRows, slur, code⟩ | effect, earlier⟩
    · simp [History.absorbs] at habsorbs
    · simp only [History.absorbs, Bool.and_eq_true, decide_eq_true_eq] at habsorbs
      obtain ⟨⟨⟨hlast, hrows, hsame⟩, hcarried⟩, hleads⟩ := habsorbs
      rcases h.endsAs with ⟨-, hends⟩ | ⟨hchange, -⟩
      · obtain ⟨before, beforeRows, rest, hmerged, hpos, hnote⟩ := hends
        rw [hleads] at hmerged
        rw [hnote hleads, hsame] at hmerged
        exact ⟨beforeRows, rest, hmerged, hrows, hpos.mpr hlast⟩
      · exact absurd hcarried hchange
    · simp [History.absorbs] at habsorbs
  · rintro ⟨beforeRows, rest, hmerged, hrows, hbefore⟩
    rcases h.endsAs with ⟨hcarried, hends⟩ | ⟨-, hno⟩
    · rcases history with _ | ⟨⟨last, lastRows, slur, code⟩ | effect, earlier⟩
      · exact absurd hmerged (hends note beforeRows true rest)
      · obtain ⟨before, lastTied, rest', hmerged', hpos, hnote⟩ := hends
        rw [hmerged] at hmerged'
        simp only [List.cons.injEq, TiedItem.note.injEq] at hmerged'
        obtain ⟨⟨rfl, rfl, hleads⟩, rfl⟩ := hmerged'
        have hlast : 0 < lastRows := hpos.mp hbefore
        have hsame : last = note := (hnote hleads.symm).symm
        simp [History.absorbs, hlast, hrows, hsame.symm, hcarried, hleads.symm]
      · exact absurd hmerged (hends note beforeRows true rest)
    · exact absurd hmerged (hno note beforeRows true rest)

/-- Lengthening the last tied note adds its rows at the end. -/
theorem lengthen_last
    {before : PatternNote} {beforeRows more : Int} {beforeSlurred : Bool}
    {rest : List TiedItem} {listener : Listener} (slurred : Bool)
    (hrun : Listener.player.run Listener.start
      (.note before beforeRows beforeSlurred :: rest : List TiedItem).reverse = listener)
    (hbefore : 0 < beforeRows) (hmore : 0 < more) :
    Listener.player.performance Listener.start
        (.note before (beforeRows + more) slurred :: rest : List TiedItem).reverse =
      Listener.player.performance Listener.start
          (.note before beforeRows beforeSlurred :: rest : List TiedItem).reverse ++
        List.replicate more.toNat
          (.row listener.sounding (listener.sounding.chordHeard listener.chord)) ∧
    Listener.player.run Listener.start
        (.note before (beforeRows + more) slurred :: rest : List TiedItem).reverse =
      { listener with leads := slurred } := by
  simp only [List.reverse_cons, Player.performance_append, Player.run_append,
    Player.performance_cons, Player.performance_nil, Player.run_cons, Player.run_nil,
    List.append_nil, List.append_assoc] at hrun ⊢
  subst hrun
  have hne : beforeRows ≠ 0 := by omega
  have hsum : beforeRows + more ≠ 0 := by omega
  constructor
  · exact congrArg _ (Listener.hear_note_add _ before beforeSlurred slurred hbefore hmore)
  · simp [Listener.player, Listener.step, Listener.soundingOf, hne, hsum]

/-- Without tied items nothing sounds yet. -/
theorem Announced.sounding_of_isEmpty
    {isDrum : Bool} {history : History} {carried : Option ChordCode} {tying : Tying}
    (h : Announced isDrum history carried tying)
    (hempty : tying.merged.isEmpty = true) :
    history.sounding isDrum = .silence := by
  have hrun := h.run_eq
  rw [List.isEmpty_iff.mp hempty] at hrun
  exact (congrArg Listener.sounding hrun).symm

/-- A note that is not merged is heard as its item is. -/
theorem Announced.hear_note
    {isDrum : Bool} {history : History} {carried : Option ChordCode} {tying : Tying}
    (h : Announced isDrum history carried tying)
    {note : PatternNote} {rows : Int}
    (habsorbs : history.absorbs note rows carried = false)
    (slur : SlurMark) (slurred : Bool) :
    Listener.hear ⟨history.sounding isDrum, history.leadsOn, carried.or history.chord⟩
        (.note (placed isDrum tying.merged.isEmpty note) rows slurred) =
      history.hear isDrum (.note note rows slur carried) := by
  simp only [Listener.hear, History.hear, Listener.soundingOf, placed_isAttack, habsorbs,
    Bool.not_false, Bool.and_true]
  rw [sounding_placed h.sounding_of_isEmpty note rows slur carried]
  rfl

/-- A note that is merged is heard as more rows of what sounds. -/
theorem Announced.hear_merged
    {isDrum : Bool} {history : History} {carried : Option ChordCode} {tying : Tying}
    (h : Announced isDrum history carried tying)
    {note : PatternNote} {rows : Int} (slur : SlurMark)
    (hsame : placed isDrum tying.merged.isEmpty note = .wait ∨
      history.absorbs note rows carried = true) :
    History.sounding isDrum (.note note rows slur carried :: history) =
        history.sounding isDrum ∧
      history.hear isDrum (.note note rows slur carried) =
        List.replicate rows.toNat
          (.row (history.sounding isDrum)
            ((history.sounding isDrum).chordHeard (carried.or history.chord))) := by
  have hsounding : History.sounding isDrum (.note note rows slur carried :: history) =
      history.sounding isDrum := by
    rcases hsame with hwait | habsorbs
    · rw [sounding_placed h.sounding_of_isEmpty, hwait]
      simp [PatternNote.soundingAfter]
    · -- the item before strikes the same note
      rcases history with _ | ⟨⟨last, lastRows, lastSlur, code⟩ | effect, earlier⟩
      · simp [History.absorbs] at habsorbs
      · simp only [History.absorbs, Bool.and_eq_true, decide_eq_true_eq,
          History.leadsOn] at habsorbs
        obtain ⟨⟨⟨hlast, hrows, rfl⟩, -⟩, hattack, -⟩ := habsorbs
        have hlastne : lastRows ≠ 0 := by omega
        have hne : rows ≠ 0 := by omega
        cases last with
        | pitch semitones => simp [History.sounding, hlastne, hne]
        | drum name => simp [History.sounding, hlastne, hne]
        | rest => simp [PatternNote.isAttack] at hattack
        | wait => simp [PatternNote.isAttack] at hattack
      · simp [History.absorbs] at habsorbs
  refine ⟨hsounding, ?_⟩
  have hquiet : (note.isAttack && rows != 0 &&
      !history.absorbs note rows carried) = false := by
    rcases hsame with hwait | habsorbs
    · rw [← placed_isAttack isDrum tying.merged.isEmpty note, hwait]
      rfl
    · simp [habsorbs]
  simp only [History.hear, hsounding, hquiet, Bool.false_eq_true, if_false,
    List.nil_append]
  rfl

theorem follows_start
    (isDrum : Bool) :
    Follows isDrum [] start :=
  ⟨rfl, rfl, rfl, rfl, fun _ _ _ _ h => by cases h⟩

theorem Follows.effect
    {isDrum : Bool} {history : History} {tying : Tying}
    (h : Follows isDrum history tying) (effect : PatternEffect) :
    Follows isDrum (.effect effect :: history) (tying.step isDrum (.effect effect)) := by
  refine ⟨h.chord_eq, h.slurOpen_eq, ?_, ?_, fun _ _ _ _ hmerged => by cases hmerged⟩
  · simp only [Tying.step, List.reverse_cons, Player.performance_append,
      h.performance_eq]
    rfl
  · simp only [Tying.step, List.reverse_cons, Player.run_append, h.run_eq]
    rfl

section Note

variable {isDrum : Bool} {history : History} {carried : Option ChordCode} {tying : Tying}
  {note before : PatternNote} {rows beforeRows : Int} {beforeSlurred : Bool}
  {rest : List TiedItem} (h : Announced isDrum history carried tying) (slur : SlurMark)
include h

theorem Announced.leadsOn_placed (note : PatternNote) (rows : Int) :
    (leadsOn tying.slurOpen slur && (placed isDrum tying.merged.isEmpty note).isAttack) =
      History.leadsOn (.note note rows slur carried :: history) := by
  rw [h.slurOpen_eq, placed_isAttack, leadsOn_eq_slurOn, Bool.and_comm]
  rfl

theorem Announced.slurOpenAfter_eq (note : PatternNote) (rows : Int) :
    slurOpenAfter tying.slurOpen slur =
      History.slurOpen (.note note rows slur carried :: history) := by
  rw [h.slurOpen_eq]
  cases slur <;> rfl

/-- Only a wait is merged, or a note that the last item absorbs. -/
theorem Announced.isHeld_of_merged
    (hmerged : tying.merged = .note before beforeRows beforeSlurred :: rest)
    (hrows : 0 < rows) (hbefore : 0 < beforeRows)
    (hsame : placed isDrum tying.merged.isEmpty note = .wait ∨
      beforeSlurred = true ∧ before = placed isDrum tying.merged.isEmpty note) :
    placed isDrum tying.merged.isEmpty note = .wait ∨
      history.absorbs note rows carried = true := by
  rcases hsame with hwait | ⟨rfl, rfl⟩
  · exact Or.inl hwait
  · have habsorbs := (h.absorbs_iff _ rows).mpr ⟨beforeRows, rest, hmerged, hrows, hbefore⟩
    have hattack := History.isAttack_of_absorbs habsorbs
    rw [placed_isAttack] at hattack
    rw [placed_of_isAttack _ _ hattack] at habsorbs
    exact Or.inr habsorbs

/-- A note that is not merged is not absorbed. -/
theorem Announced.absorbs_eq_false
    (hno : ∀ before beforeRows rest, tying.merged = .note before beforeRows true :: rest →
      0 < rows → 0 < beforeRows → before ≠ placed isDrum tying.merged.isEmpty note) :
    history.absorbs note rows carried = false := by
  by_contra habsorbs
  rw [Bool.not_eq_false] at habsorbs
  obtain ⟨beforeRows, rest, hmerged, hrows, hbefore⟩ := (h.absorbs_iff note rows).mp habsorbs
  have hattack := History.isAttack_of_absorbs habsorbs
  exact hno note beforeRows rest hmerged hrows hbefore (placed_of_isAttack _ _ hattack).symm

theorem Announced.follows_merged
    (hmerged : tying.merged = .note before beforeRows beforeSlurred :: rest)
    (hrows : 0 < rows) (hbefore : 0 < beforeRows)
    (hsame : placed isDrum tying.merged.isEmpty note = .wait ∨
      beforeSlurred = true ∧ before = placed isDrum tying.merged.isEmpty note) :
    Follows isDrum (.note note rows slur carried :: history)
      ⟨.note before (beforeRows + rows)
          (History.leadsOn (.note note rows slur carried :: history)) :: rest,
        tying.chord, slurOpenAfter tying.slurOpen slur⟩ := by
  have hlonger := lengthen_last (History.leadsOn (.note note rows slur carried :: history))
    (hmerged ▸ h.run_eq) hbefore hrows
  obtain ⟨hsounding, hhear⟩ :=
    h.hear_merged slur (h.isHeld_of_merged hmerged hrows hbefore hsame)
  refine ⟨h.chord_eq, h.slurOpenAfter_eq slur note rows, ?_, ?_, before, beforeRows + rows,
    rest, rfl, by omega, ?_⟩
  · rw [hlonger.1, ← hmerged, h.performance_eq, List.reverse_cons,
      Player.performance_append, Player.performance_cons, Player.performance_nil,
      List.append_nil, History.player_run]
    simp only [List.reverse_reverse, List.append_nil]
    exact congrArg _ hhear.symm
  · rw [hlonger.2, hsounding]
    rfl
  · intro hleads
    have hattack := History.isAttack_of_leadsOn hleads
    rw [placed_of_isAttack _ _ hattack] at hsame
    rcases hsame with rfl | ⟨-, hnote⟩
    · simp [PatternNote.isAttack] at hattack
    · exact hnote

theorem Announced.follows_put
    (hno : ∀ before beforeRows rest, tying.merged = .note before beforeRows true :: rest →
      0 < rows → 0 < beforeRows → before ≠ placed isDrum tying.merged.isEmpty note) :
    Follows isDrum (.note note rows slur carried :: history)
      ⟨.note (placed isDrum tying.merged.isEmpty note) rows
          (History.leadsOn (.note note rows slur carried :: history)) :: tying.merged,
        tying.chord, slurOpenAfter tying.slurOpen slur⟩ := by
  refine ⟨h.chord_eq, h.slurOpenAfter_eq slur note rows, ?_, ?_, _, rows, _, rfl, Iff.rfl, ?_⟩
  · rw [List.reverse_cons, List.reverse_cons, Player.performance_append,
      Player.performance_append, h.performance_eq, h.run_eq, History.player_run]
    simp only [Player.performance_cons, Player.performance_nil, List.append_nil,
      List.reverse_reverse]
    exact congrArg _ (h.hear_note (h.absorbs_eq_false hno) slur
      (History.leadsOn (.note note rows slur carried :: history)))
  · rw [List.reverse_cons, Player.run_append, h.run_eq,
      sounding_placed h.sounding_of_isEmpty note rows slur carried]
    rfl
  · intro hleads
    exact placed_of_isAttack _ _ (History.isAttack_of_leadsOn hleads)

end Note

theorem Follows.note
    {isDrum : Bool} {history : History} {tying : Tying}
    (h : Follows isDrum history tying)
    (note : PatternNote) (rows : Int) (slur : SlurMark) (carried : Option ChordCode) :
    Follows isDrum (.note note rows slur carried :: history)
      (tying.step isDrum (.note note rows slur carried)) := by
  have ha := h.announce carried
  have hslurred := ha.leadsOn_placed slur note rows
  have hcases := append_cases (tying.announce carried).merged
    (placed isDrum (tying.announce carried).merged.isEmpty note) rows
    (History.leadsOn (.note note rows slur carried :: history))
  simp only [Tying.step, hslurred]
  rcases hcases with
    ⟨before, beforeRows, beforeSlurred, rest, hmerged, hrows, hbefore, hsame, happend⟩ |
      ⟨hno, happend⟩
  · rw [happend]
    exact ha.follows_merged slur hmerged hrows hbefore hsame
  · rw [happend]
    exact ha.follows_put slur hno

theorem Follows.step
    {isDrum : Bool} {history : History} {tying : Tying}
    (h : Follows isDrum history tying) (item : PatternItem) :
    Follows isDrum (item :: history) (tying.step isDrum item) := by
  cases item with
  | note note rows slur carried => exact h.note note rows slur carried
  | effect effect => exact h.effect effect

theorem Follows.foldl
    {isDrum : Bool} {history : History} {tying : Tying}
    (h : Follows isDrum history tying) (items : List PatternItem) :
    Follows isDrum (items.reverse ++ history)
      (items.foldl (Tying.step isDrum) tying) := by
  induction items generalizing history tying with
  | nil => exact h
  | cons item items ih =>
      rw [List.reverse_cons, List.append_assoc, List.foldl_cons]
      exact ih (h.step item)

end Tying

/-- Tied items are heard as the items they come from. -/
theorem performance_mergeTies
    (isDrum : Bool) (items : List PatternItem) :
    Listener.player.performance Listener.start (mergeTies isDrum items) =
      (History.player isDrum).performance [] items := by
  have h := (Tying.follows_start isDrum).foldl items
  have hheard := h.performance_eq
  rwa [List.append_nil, List.reverse_reverse] at hheard

/-- The tied items of a pattern are heard as its items. -/
theorem Pattern.performance_tied
    (pattern : Pattern) :
    Listener.player.performance Listener.start pattern.tied = pattern.performance := by
  rw [Pattern.tied, performance_dropDeadArpeggios, performance_mergeTies]
  rfl

end Chiptune
