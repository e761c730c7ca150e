import Chiptune.Proofs.Pattern.Simulation

/-!
# Changes of arpeggio and other effects

A pitch that carries a chord is played under the change of arpeggio to that chord, no
change of arpeggio stays that no note plays, and every other effect keeps its place
and its row.
-/

namespace Chiptune

/-! ## The last change of arpeggio -/

namespace PatternCode

/-- The operand of a change of arpeggio. -/
def arpeggio? : PatternCode → Option ChordCode
  | arpeggio code => some code
  | _ => none

/-- The attacks of a code, at most one. -/
def attackCount : PatternCode → Nat
  | note sound _ => sound.isAttack.toNat
  | _ => 0

/-- The operand of the last change of arpeggio before each code, as many times as the
code counts. -/
def arpeggiosAt (count : PatternCode → Nat) :
    Option ChordCode → List PatternCode → List (Option ChordCode)
  | _, [] => []
  | last, code :: codes =>
    List.replicate (count code) last ++ arpeggiosAt count (code.arpeggio?.or last) codes

/-- The operand of the last change of arpeggio before each row. -/
def rowArpeggios (codes : List PatternCode) : List (Option ChordCode) :=
  arpeggiosAt rowCount none codes

/-- The operand of the last change of arpeggio before each attack. -/
def attackArpeggios (codes : List PatternCode) : List (Option ChordCode) :=
  arpeggiosAt attackCount none codes

end PatternCode

namespace Engine

theorem step_chord
    (engine : Engine) (code : PatternCode) :
    (engine.step code).chord = code.arpeggio?.or engine.chord := by
  cases code <;> rfl

/-- A chord that is heard is the one in force. -/
def Shows (heard last : Option ChordCode) : Prop := heard = none ∨ heard = last

/-- If each code shows the chord in force as often as it counts, so do all of them. -/
theorem arpeggiosAt_performance
    {chord? : Heard PatternCode → Option (Option ChordCode)} {count : PatternCode → Nat}
    (hhear : ∀ (engine : Engine) (code : PatternCode),
      List.Forall₂ Shows ((engine.hear code).filterMap chord?)
        (List.replicate (count code) engine.chord))
    (engine : Engine) (codes : List PatternCode) :
    List.Forall₂ Shows ((engine.performance codes).filterMap chord?)
      (PatternCode.arpeggiosAt count engine.chord codes) := by
  induction codes generalizing engine with
  | nil => exact .nil
  | cons code codes ih =>
      have hlater := ih (engine.step code)
      rw [step_chord] at hlater
      change List.Forall₂ _
        ((engine.hear code ++ (engine.step code).performance codes).filterMap chord?) _
      rw [List.filterMap_append]
      exact List.rel_append (hhear engine code) hlater

theorem rowChords_hear
    (engine : Engine) (code : PatternCode) :
    List.Forall₂ Shows (Heard.rowChords (engine.hear code))
      (List.replicate code.rowCount engine.chord) := by
  cases code with
  | note sound length =>
      have hshows : Shows ((engine.soundingOf sound).chordHeard engine.chord)
          engine.chord := by
        unfold Sounding.chordHeard
        split
        · exact Or.inl rfl
        · exact Or.inr rfl
      have hrows := forall₂_replicate hshows (PatternCode.note sound length).rowCount
      cases sound <;> simpa [hear, Heard.rowChords, Sound.isAttack] using hrows
  | _ => exact .nil

theorem attackChords_hear
    (engine : Engine) (code : PatternCode) :
    List.Forall₂ Shows (Heard.attackChords (engine.hear code))
      (List.replicate code.attackCount engine.chord) := by
  cases code with
  | note sound length =>
      cases hattack : sound.isAttack <;>
        simp [hear, Heard.attackChords, PatternCode.attackCount, hattack, Shows]
  | _ => exact .nil

end Engine

theorem getElem?_of_shows
    {heard lasts : List (Option ChordCode)} (h : List.Forall₂ Engine.Shows heard lasts)
    {index : Nat} {code : ChordCode} (hheard : heard[index]? = some (some code)) :
    lasts[index]? = some (some code) := by
  induction h generalizing index with
  | nil => simp at hheard
  | cons hshows _ ih =>
      cases index with
      | succ index =>
          rw [List.getElem?_cons_succ] at hheard ⊢
          exact ih hheard
      | zero =>
          rw [List.getElem?_cons_zero, Option.some.injEq] at hheard ⊢
          rcases hshows with hnone | hlast
          · rw [hnone] at hheard
            cases hheard
          · rw [← hlast, hheard]

/-! ## Items that sound -/

namespace History

/-- Whether an item strikes a note of its own. -/
def strikes (history : History) : PatternItem → Bool
  | .effect _ => false
  | .note note rows _ carried =>
    note.isAttack && rows != 0 && !history.absorbs note rows carried

/-- The number of notes struck. -/
def strikeCount : History → Nat
  | [] => 0
  | item :: earlier => strikeCount earlier + (strikes earlier item).toNat

theorem length_rowChords_hear
    (isDrum : Bool) (history : History) (item : PatternItem) :
    (Heard.rowChords (history.hear isDrum item)).length = item.rowCount := by
  cases item with
  | effect effect => rfl
  | note note rows slur carried =>
      simp only [hear, Heard.rowChords, List.filterMap_append, List.length_append]
      split <;> simp [PatternItem.rowCount]

theorem length_attackChords_hear
    (isDrum : Bool) (history : History) (item : PatternItem) :
    (Heard.attackChords (history.hear isDrum item)).length =
      (history.strikes item).toNat := by
  cases item with
  | effect effect => rfl
  | note note rows slur carried =>
      simp only [hear, Heard.attackChords, List.filterMap_append, List.length_append,
        strikes]
      split
      · next hstrikes => simp [hstrikes]
      · next hquiet => simp [Bool.eq_false_iff.mpr hquiet]

theorem length_rowChords_performance
    (isDrum : Bool) (history : History) (items : List PatternItem) :
    (Heard.rowChords ((player isDrum).performance history items)).length =
      itemRows items := by
  induction items generalizing history with
  | nil => rfl
  | cons item items ih =>
      have hitem := length_rowChords_hear isDrum history item
      have hlater := ih (item :: history)
      simp only [Heard.rowChords, Player.performance_cons, List.filterMap_append,
        List.length_append, player] at hitem hlater ⊢
      rw [hitem, hlater]
      simp [itemRows]

theorem length_attackChords_performance
    (isDrum : Bool) (history : History) (items : List PatternItem) :
    history.strikeCount +
        (Heard.attackChords ((player isDrum).performance history items)).length =
      strikeCount (items.reverse ++ history) := by
  induction items generalizing history with
  | nil => rfl
  | cons item items ih =>
      have hitem := length_attackChords_hear isDrum history item
      have hlater := ih (item :: history)
      simp only [Heard.attackChords, Player.performance_cons, List.filterMap_append,
        List.length_append, player, strikeCount] at hitem hlater ⊢
      rw [hitem, ← Nat.add_assoc, hlater]
      simp

/-- A pitch that carries a chord is heard with it in all its rows. -/
theorem rowChords_hear_pitch
    (isDrum : Bool) (history : History) (semitones rows : Int) (slur : SlurMark)
    (code : ChordCode) :
    Heard.rowChords (history.hear isDrum (.note (.pitch semitones) rows slur (some code))) =
      List.replicate rows.toNat (some code) := by
  by_cases hrows : rows = 0
  · simp [hear, Heard.rowChords, hrows]
  · simp only [hear, Heard.rowChords, sounding, chord, hrows, if_false, Sounding.chordHeard,
      List.filterMap_append]
    split <;> simp

theorem attackChords_hear_pitch
    {isDrum : Bool} {history : History} {semitones rows : Int} {slur : SlurMark}
    {code : ChordCode}
    (hstrikes : history.strikes (.note (.pitch semitones) rows slur (some code)) = true) :
    Heard.attackChords
        (history.hear isDrum (.note (.pitch semitones) rows slur (some code))) =
      [some code] := by
  simp only [strikes] at hstrikes
  simp [hear, Heard.attackChords, hstrikes, chord]

end History

/-! ## Effects and their rows -/

/-- The effects of a list, each with the number of rows before it. -/
def effectsAt {ι ε : Type} (rowCount : ι → Nat) (effect? : ι → Option ε) :
    Nat → List ι → List (Nat × ε)
  | _, [] => []
  | row, thing :: things =>
    (effect? thing).toList.map (row, ·) ++
      effectsAt rowCount effect? (row + rowCount thing) things

/-- The effect of an item. -/
def PatternItem.effect? : PatternItem → Option PatternEffect
  | effect written => some written
  | note .. => none

/-- The effects of a pattern, each with the number of rows before it. -/
def Pattern.effects (pattern : Pattern) : List (Nat × PatternEffect) :=
  effectsAt PatternItem.rowCount PatternItem.effect? 0 pattern.items

/-- The effects other than changes of arpeggio, each with the number of rows before
it. -/
def PatternCode.effects (codes : List PatternCode) : List (Nat × PatternCode) :=
  effectsAt rowCount (Option.guard isEffect) 0 codes

namespace Heard

variable {ε : Type}

theorem effects_replicate_row
    (passed n : Nat) (sounding : Sounding) (chord : Option ChordCode)
    (later : List (Heard ε)) :
    effects passed (List.replicate n (row sounding chord) ++ later) =
      effects (passed + n) later := by
  induction n generalizing passed with
  | zero => rfl
  | succ n ih =>
      rw [List.replicate_succ, List.cons_append, effects, ih]
      congr 1
      omega

/-- If each thing lets its effects be heard and its rows pass, so do all of them. -/
theorem effects_performance
    {σ ι : Type} {player : Player σ ι (Heard ε)} {rowCount : ι → Nat}
    {effect? : ι → Option ε}
    (hhear : ∀ state thing passed later,
      effects passed (player.hear state thing ++ later) =
        (effect? thing).toList.map (passed, ·) ++ effects (passed + rowCount thing) later)
    (state : σ) (passed : Nat) (things : List ι) :
    effects passed (player.performance state things) =
      effectsAt rowCount effect? passed things := by
  induction things generalizing state passed with
  | nil => rfl
  | cons thing things ih =>
      rw [Player.performance_cons, hhear, ih]
      rfl

end Heard

theorem History.effects_hear
    (isDrum : Bool) (history : History) (item : PatternItem) (passed : Nat)
    (later : List (Heard PatternEffect)) :
    Heard.effects passed ((player isDrum).hear history item ++ later) =
      item.effect?.toList.map (passed, ·) ++
        Heard.effects (passed + item.rowCount) later := by
  cases item with
  | effect effect => rfl
  | note note rows slur carried =>
      simp only [player, hear, List.append_assoc, PatternItem.effect?, PatternItem.rowCount]
      split
      · exact Heard.effects_replicate_row ..
      · exact Heard.effects_replicate_row ..

theorem Engine.effects_hear
    (engine : Engine) (code : PatternCode) (passed : Nat) (later : List (Heard PatternCode)) :
    Heard.effects passed (player.hear engine code ++ later) =
      (Option.guard PatternCode.isEffect code).toList.map (passed, ·) ++
        Heard.effects (passed + code.rowCount) later := by
  cases code with
  | note sound length =>
      simp only [player, hear, List.append_assoc]
      split
      · exact Heard.effects_replicate_row ..
      · exact Heard.effects_replicate_row ..
  | _ => rfl

/-- The place of an effect among the codes: its code, with as many rows before it. -/
structure Orchestra.PlacedAs (orchestra : Orchestra) (scope : String)
    (written : Nat × PatternEffect) (played : Nat × PatternCode) : Prop where
  row_eq : played.1 = written.1
  effectCode_eq : orchestra.effectCode scope written.2 = .ok played.2

theorem Orchestra.effects_of_heardAs
    {orchestra : Orchestra} {scope : String} {shift : Int}
    {written : List (Heard PatternEffect)} {played : List (Heard PatternCode)}
    (h : List.Forall₂ (orchestra.HeardAs scope shift) written played) (passed : Nat) :
    List.Forall₂ (orchestra.PlacedAs scope) (Heard.effects passed written)
      (Heard.effects passed played) := by
  induction h generalizing passed with
  | nil => exact .nil
  | cons hheard _ ih =>
      cases hheard with
      | attack => exact ih passed
      | row => exact ih (passed + 1)
      | effect hcode => exact .cons ⟨rfl, hcode⟩ (ih passed)

/-! ## Changes of arpeggio that are played -/

/-- A tied item that is not a note, takes rows, or is a grace note. -/
def TiedItem.IsPlayed : TiedItem → Prop
  | note _ rows _ => rows ≠ 0
  | arpeggio _ | effect _ => True

theorem Tying.isPlayed_step
    {isDrum : Bool} {tying : Tying} {item : PatternItem}
    (h : ∀ tied ∈ tying.merged, tied.IsPlayed) (hitem : item.IsPlayed) :
    ∀ tied ∈ (tying.step isDrum item).merged, tied.IsPlayed := by
  cases item with
  | effect effect => exact List.forall_mem_cons.mpr ⟨trivial, h⟩
  | note note rows slur carried =>
      have hannounced : ∀ tied ∈ (tying.announce carried).merged, tied.IsPlayed := by
        unfold announce
        split
        · exact h
        · split
          · exact h
          · exact List.forall_mem_cons.mpr ⟨trivial, h⟩
      simp only [step]
      rcases append_cases (tying.announce carried).merged
          (placed isDrum (tying.announce carried).merged.isEmpty note) rows
          (leadsOn (tying.announce carried).slurOpen slur &&
            (placed isDrum (tying.announce carried).merged.isEmpty note).isAttack) with
        ⟨before, beforeRows, beforeSlurred, rest, hmerged, hrows, hbefore, -, happend⟩ |
          ⟨-, happend⟩
      · rw [happend]
        rw [hmerged] at hannounced
        have hsum : beforeRows + rows ≠ 0 := by omega
        exact List.forall_mem_cons.mpr ⟨hsum, (List.forall_mem_cons.mp hannounced).2⟩
      · rw [happend]
        exact List.forall_mem_cons.mpr ⟨hitem, hannounced⟩

/-- Merging leaves no note without rows. -/
theorem isPlayed_mergeTies
    {isDrum : Bool} {items : List PatternItem} (hitems : ∀ item ∈ items, item.IsPlayed) :
    ∀ tied ∈ mergeTies isDrum items, tied.IsPlayed := by
  have hrun : ∀ tying : Tying, (∀ tied ∈ tying.merged, tied.IsPlayed) →
      ∀ tied ∈ (items.foldl (Tying.step isDrum) tying).merged, tied.IsPlayed := by
    induction items with
    | nil => exact fun tying h => h
    | cons item items ih =>
        obtain ⟨hitem, hlater⟩ := List.forall_mem_cons.mp hitems
        intro tying h
        exact ih hlater _ (Tying.isPlayed_step h hitem)
  intro tied hmem
  exact hrun Tying.start (fun _ hnone => by cases hnone) tied (List.mem_reverse.mp hmem)

namespace PatternCode

/-- Whether a code is a note other than a rest. -/
def isPlayed : PatternCode → Bool
  | note sound _ => sound != .rest
  | _ => false

/-- Whether a note other than a rest comes before the next change of arpeggio. -/
def playedBeforeChange (codes : List PatternCode) : Bool :=
  (codes.takeWhile fun code => code.arpeggio?.isNone).any isPlayed

theorem playedBeforeChange_append
    {first : List PatternCode} (hquiet : ∀ code ∈ first, code.arpeggio? = none)
    (second : List PatternCode) :
    playedBeforeChange (first ++ second) =
      (first.any isPlayed || playedBeforeChange second) := by
  have hnone : ∀ code ∈ first, code.arpeggio?.isNone = true := by
    intro code hmem
    rw [hquiet code hmem]
    rfl
  unfold playedBeforeChange
  rw [List.takeWhile_append_of_pos hnone, List.any_append]

/-- Every change of arpeggio is played before the next one. -/
def ChangesPlayed : List PatternCode → Prop
  | [] => True
  | code :: codes =>
    (code.arpeggio? ≠ none → playedBeforeChange codes = true) ∧ ChangesPlayed codes

theorem ChangesPlayed.append
    {first second : List PatternCode} (hquiet : ∀ code ∈ first, code.arpeggio? = none)
    (hsecond : ChangesPlayed second) :
    ChangesPlayed (first ++ second) := by
  induction first with
  | nil => exact hsecond
  | cons code first ih =>
      obtain ⟨hcode, hlater⟩ := List.forall_mem_cons.mp hquiet
      exact ⟨fun hchange => absurd hcode hchange, ih hlater⟩

theorem ChangesPlayed.of_quiet
    {codes : List PatternCode} (hquiet : ∀ code ∈ codes, code.arpeggio? = none) :
    ChangesPlayed codes := by
  rw [← List.append_nil codes]
  exact ChangesPlayed.append hquiet trivial

theorem ChangesPlayed.after
    {before after : List PatternCode} {code : ChordCode}
    (h : ChangesPlayed (before ++ .arpeggio code :: after)) :
    playedBeforeChange after = true := by
  induction before with
  | nil => exact h.1 (Option.some_ne_none code)
  | cons _ before ih => exact ih h.2

end PatternCode

namespace Orchestra

variable {orchestra : Orchestra} {scope : String}

theorem arpeggio?_beginRun
    (encoder : Encoder) (index : Nat) :
    ∀ code ∈ (encoder.beginRun index).1, code.arpeggio? = none := by
  intro code hmem
  obtain ⟨semitones, rfl⟩ := Encoder.mem_beginRun hmem
  rfl

/-- The codes of a note or an effect change no arpeggio. -/
theorem arpeggio?_encodeItem
    {encoder next : Encoder} {item : TiedItem} {codes : List PatternCode}
    (hitem : orchestra.encodeItem scope encoder item = .ok (codes, next))
    (hno : ∀ code, item ≠ .arpeggio code) :
    ∀ code ∈ codes, code.arpeggio? = none := by
  intro code hmem
  cases item with
  | arpeggio change => exact absurd rfl (hno change)
  | effect effect =>
      obtain ⟨played, hplayed, rfl, rfl⟩ := encodeItem_effect hitem
      rw [List.mem_singleton.mp hmem]
      have heffect := isEffect_of_effectCode hplayed
      cases played <;> first | rfl | cases heffect
  | note note rows slurred =>
      obtain ⟨sound, hsound, rfl, rfl⟩ := encodeItem_note hitem
      rcases List.mem_append.mp hmem with hlegato | hlasting
      · rcases Encoder.mem_beginNote hlegato with rfl | rfl
        · rfl
        · rfl
      · rcases mem_lasting hlasting with ⟨frames, rfl⟩ | ⟨played, length, rfl⟩
        · rfl
        · rfl

theorem sound_ne_rest
    {transpose : Int} {note : PatternNote} {sound : Sound}
    (hsound : orchestra.sound scope transpose note = .ok sound) (hnote : note ≠ .rest) :
    sound ≠ .rest := by
  rintro rfl
  cases note with
  | rest => exact hnote rfl
  | wait => cases hsound
  | pitch semitones =>
      simp only [sound, pitchSound] at hsound
      split at hsound
      · cases hsound
      · cases hsound
  | drum name =>
      simp only [sound] at hsound
      split at hsound
      · cases hsound
      · cases hsound

theorem any_isPlayed_encodeItem
    {encoder next : Encoder} {note : PatternNote} {rows : Int} {slurred : Bool}
    {codes : List PatternCode}
    (hitem : orchestra.encodeItem scope encoder (.note note rows slurred) = .ok (codes, next))
    (hrows : rows ≠ 0) (hnote : note ≠ .rest) :
    codes.any PatternCode.isPlayed = true := by
  obtain ⟨sound, hsound, rfl, rfl⟩ := encodeItem_note hitem
  obtain ⟨length, hmem⟩ := note_mem_lasting sound hrows
  have hplayed : (PatternCode.note sound length).isPlayed = true :=
    bne_iff_ne.mpr (sound_ne_rest hsound hnote)
  exact List.any_eq_true.mpr ⟨_, List.mem_append_right _ hmem, hplayed⟩

/-- A note or an effect adds codes that change no arpeggio, and a note that is played
and no rest adds one that is played. -/
theorem encodeFrom_quiet
    {index : Nat} {encoder final : Encoder} {item : TiedItem} {items : List TiedItem}
    {codes : List PatternCode}
    (hcodes : orchestra.encodeFrom scope index encoder (item :: items) = .ok (codes, final))
    (hno : ∀ code, item ≠ .arpeggio code) :
    ∃ first next later,
      codes = first ++ later ∧
        orchestra.encodeFrom scope (index + 1) next items = .ok (later, final) ∧
        (∀ code ∈ first, code.arpeggio? = none) ∧
        ∀ note rows slurred, item = .note note rows slurred → rows ≠ 0 → note ≠ .rest →
          first.any PatternCode.isPlayed = true := by
  obtain ⟨itemCodes, next, later, hitem, hlater, rfl⟩ := encodeFrom_cons hcodes
  refine ⟨(encoder.beginRun index).1 ++ itemCodes, next, later, rfl, hlater, ?_, ?_⟩
  · exact List.forall_mem_append.mpr
      ⟨arpeggio?_beginRun encoder index, arpeggio?_encodeItem hitem hno⟩
  · rintro note rows slurred rfl hrows hnote
    rw [List.any_append, any_isPlayed_encodeItem hitem hrows hnote, Bool.or_true]

/-- Once the changes that no note plays are dropped, every change among the codes is
played, whatever codes without one stand behind. -/
theorem changesPlayed_encodeFrom
    {items : List TiedItem} (hitems : ∀ item ∈ items, item.IsPlayed)
    {index : Nat} {encoder final : Encoder} {codes tail : List PatternCode}
    (htail : ∀ code ∈ tail, code.arpeggio? = none)
    (hcodes : orchestra.encodeFrom scope index encoder (dropDeadArpeggios items).1 =
      .ok (codes, final)) :
    ((dropDeadArpeggios items).2 = true →
        PatternCode.playedBeforeChange (codes ++ tail) = true) ∧
      PatternCode.ChangesPlayed (codes ++ tail) := by
  -- The induction is on the items before the drop: a change is kept or dropped by what
  -- stands behind it, and the flag of the drop says that of the codes behind it too.
  induction items generalizing index encoder codes with
  | nil =>
      cases hcodes
      exact ⟨fun hflag => absurd hflag Bool.false_ne_true,
        PatternCode.ChangesPlayed.of_quiet htail⟩
  | cons item items ih =>
      obtain ⟨hitem, hlater⟩ := List.forall_mem_cons.mp hitems
      cases item with
      | note note rows slurred =>
          rw [dropDeadArpeggios_note] at hcodes ⊢
          obtain ⟨first, next, later, rfl, hrest, hquiet, hfirst⟩ :=
            encodeFrom_quiet hcodes (fun _ h => by cases h)
          obtain ⟨hplayed, hchanges⟩ := ih hlater hrest
          rw [List.append_assoc, PatternCode.playedBeforeChange_append hquiet]
          refine ⟨?_, hchanges.append hquiet⟩
          intro hflag
          rcases Bool.or_eq_true_iff.mp hflag with hflag | hnote
          · rw [hplayed hflag, Bool.or_true]
          · rw [hfirst note rows slurred rfl hitem (bne_iff_ne.mp hnote), Bool.true_or]
      | effect effect =>
          rw [dropDeadArpeggios_effect] at hcodes ⊢
          obtain ⟨first, next, later, rfl, hrest, hquiet, -⟩ :=
            encodeFrom_quiet hcodes (fun _ h => by cases h)
          obtain ⟨hplayed, hchanges⟩ := ih hlater hrest
          rw [List.append_assoc, PatternCode.playedBeforeChange_append hquiet]
          refine ⟨?_, hchanges.append hquiet⟩
          intro hflag
          rw [hplayed hflag, Bool.or_true]
      | arpeggio change =>
          rw [dropDeadArpeggios_arpeggio] at hcodes ⊢
          refine ⟨fun hflag => absurd hflag Bool.false_ne_true, ?_⟩
          cases hflag : (dropDeadArpeggios items).2 with
          | false =>
              simp only [hflag, Bool.false_eq_true, if_false] at hcodes
              exact (ih hlater hcodes).2
          | true =>
              simp only [hflag, if_true] at hcodes
              obtain ⟨itemCodes, next, later, hcode, hrest, rfl⟩ := encodeFrom_cons hcodes
              obtain ⟨hplayed, hchanges⟩ := ih hlater hrest
              cases hcode
              rw [List.append_assoc, List.append_assoc]
              exact PatternCode.ChangesPlayed.append (arpeggio?_beginRun encoder index)
                ⟨fun _ => hplayed hflag, hchanges⟩

theorem chords_of_heardAs
    {shift : Int} {written : List (Heard PatternEffect)} {played : List (Heard PatternCode)}
    (h : List.Forall₂ (orchestra.HeardAs scope shift) written played) :
    Heard.rowChords written = Heard.rowChords played ∧
      Heard.attackChords written = Heard.attackChords played := by
  induction h with
  | nil => exact ⟨rfl, rfl⟩
  | cons hheard _ ih =>
      cases hheard with
      | attack _ _ chord => exact ⟨ih.1, congrArg (chord :: ·) ih.2⟩
      | row chord => exact ⟨congrArg (chord :: ·) ih.1, ih.2⟩
      | effect => exact ih

end Orchestra

/-! ## Whole patterns -/

namespace Pattern

variable {pattern : Pattern} {orchestra : Orchestra} {codes : List PatternCode}

theorem changesPlayed_encode
    (hencode : pattern.encode orchestra = .ok codes)
    (hitems : ∀ item ∈ pattern.items, item.IsPlayed) :
    PatternCode.ChangesPlayed codes := by
  obtain ⟨body, final, hbody, rfl⟩ := encode_eq_ok hencode
  refine (Orchestra.changesPlayed_encodeFrom (isPlayed_mergeTies hitems) ?_ hbody).2
  intro code hmem
  rcases mem_closing hmem with ⟨semitones, rfl⟩ | rfl | rfl
  · rfl
  · rfl
  · rfl

/-- What a pattern is heard with is the operand of the last change of arpeggio. -/
theorem shows_encode
    (hencode : pattern.encode orchestra = .ok codes) :
    List.Forall₂ Engine.Shows (Heard.rowChords pattern.performance)
        (PatternCode.rowArpeggios codes) ∧
      List.Forall₂ Engine.Shows (Heard.attackChords pattern.performance)
        (PatternCode.attackArpeggios codes) := by
  obtain ⟨hheard, -⟩ := performance_encode hencode 0
  obtain ⟨hrows, hattacks⟩ := Orchestra.chords_of_heardAs hheard
  rw [hrows, hattacks]
  exact ⟨Engine.arpeggiosAt_performance Engine.rowChords_hear _ codes,
    Engine.arpeggiosAt_performance Engine.attackChords_hear _ codes⟩

theorem performance_split
    {before after : List PatternItem} {item : PatternItem}
    (hitems : pattern.items = before ++ item :: after) :
    pattern.performance =
      (History.player pattern.isDrum).performance [] before ++
        (History.hear pattern.isDrum before.reverse item ++
          (History.player pattern.isDrum).performance (item :: before.reverse) after) := by
  rw [performance, hitems, Player.performance_append, Player.performance_cons,
    History.player_run, List.append_nil]
  rfl

/-- A pitch that carries a chord has the change to it as the last one before all its
rows. -/
theorem rowArpeggios_of_pitch
    (hencode : pattern.encode orchestra = .ok codes)
    {before after : List PatternItem} {semitones rows : Int} {slur : SlurMark}
    {code : ChordCode}
    (hitems : pattern.items = before ++ .note (.pitch semitones) rows slur (some code) :: after)
    {row : Nat} (hrow : row < rows.toNat) :
    (PatternCode.rowArpeggios codes)[itemRows before + row]? = some (some code) := by
  apply getElem?_of_shows (shows_encode hencode).1
  have hlength := History.length_rowChords_performance pattern.isDrum [] before
  have hpitch := History.rowChords_hear_pitch pattern.isDrum before.reverse semitones rows
    slur code
  rw [performance_split hitems]
  simp only [Heard.rowChords, List.filterMap_append] at hlength hpitch ⊢
  rw [hpitch, List.getElem?_append_right (by omega), hlength, Nat.add_sub_cancel_left,
    List.getElem?_append_left (by simpa using hrow), List.getElem?_replicate, if_pos hrow]

theorem attackArpeggios_of_pitch
    (hencode : pattern.encode orchestra = .ok codes)
    {before after : List PatternItem} {semitones rows : Int} {slur : SlurMark}
    {code : ChordCode}
    (hitems : pattern.items = before ++ .note (.pitch semitones) rows slur (some code) :: after)
    (hstrikes : History.strikes before.reverse
      (.note (.pitch semitones) rows slur (some code)) = true) :
    (PatternCode.attackArpeggios codes)[History.strikeCount before.reverse]? =
      some (some code) := by
  apply getElem?_of_shows (shows_encode hencode).2
  have hlength := History.length_attackChords_performance pattern.isDrum [] before
  have hpitch := @History.attackChords_hear_pitch pattern.isDrum _ _ _ _ _ hstrikes
  rw [performance_split hitems]
  simp only [History.strikeCount, Nat.zero_add, List.append_nil, Heard.attackChords,
    List.filterMap_append] at hlength hpitch ⊢
  rw [hpitch, ← hlength, List.getElem?_append_right (Nat.le_refl _), Nat.sub_self]
  rfl

/-- In the codes of a pattern the last change of arpeggio before a pitch sounds is the
one to the chord it carries; each change is played before the next, if every note is
played, as it is in built patterns; and the other effects keep their order and their
rows. -/
theorem arpeggios_encode
    (hencode : pattern.encode orchestra = .ok codes) :
    (∀ before semitones rows slur code after,
      pattern.items = before ++ .note (.pitch semitones) rows slur (some code) :: after →
        (∀ row < rows.toNat,
          (PatternCode.rowArpeggios codes)[itemRows before + row]? = some (some code)) ∧
        (History.strikes before.reverse
            (.note (.pitch semitones) rows slur (some code)) = true →
          (PatternCode.attackArpeggios codes)[History.strikeCount before.reverse]? =
            some (some code))) ∧
      ((∀ item ∈ pattern.items, item.IsPlayed) →
        ∀ before code after, codes = before ++ .arpeggio code :: after →
          PatternCode.playedBeforeChange after = true) ∧
      List.Forall₂ (orchestra.PlacedAs pattern.name) pattern.effects
        (PatternCode.effects codes) := by
  refine ⟨?_, ?_, ?_⟩
  · intro before semitones rows slur code after hitems
    exact ⟨fun row hrow => rowArpeggios_of_pitch hencode hitems hrow,
      attackArpeggios_of_pitch hencode hitems⟩
  · rintro hitems before code after rfl
    exact (changesPlayed_encode hencode hitems).after
  · obtain ⟨hheard, -⟩ := performance_encode hencode 0
    have heffects := Orchestra.effects_of_heardAs hheard 0
    rw [performance, Heard.effects_performance (History.effects_hear pattern.isDrum),
      Engine.performance, Heard.effects_performance Engine.effects_hear] at heffects
    exact heffects

/-- The fanfare, whose third pitch is carried on and whose grace note is its third
attack. -/
theorem arpeggios_encode_fanfare :
    fanfare.encode ⟨.empty, .empty⟩ = .ok fanfareCodes ∧
      (∀ row < 2,
        (PatternCode.rowArpeggios fanfareCodes)[6 + row]? = some (some (.ofNats 4 7))) ∧
      (PatternCode.attackArpeggios fanfareCodes)[2]? = some (some .silent) ∧
      (∀ before code after, fanfareCodes = before ++ .arpeggio code :: after →
        PatternCode.playedBeforeChange after = true) ∧
      List.Forall₂ (Orchestra.PlacedAs ⟨.empty, .empty⟩ "fanfare") fanfare.effects
        (PatternCode.effects fanfareCodes) := by
  obtain ⟨hpitches, hchanges, heffects⟩ := arpeggios_encode encode_fanfare
  have hcarried := hpitches (fanfare.items.take 2) 39 2 .tie (.ofNats 4 7)
    (fanfare.items.drop 3) rfl
  have hgrace := hpitches (fanfare.items.take 4) 41 (-3) .none .silent
    (fanfare.items.drop 5) rfl
  exact ⟨encode_fanfare, hcarried.1, hgrace.2 rfl,
    hchanges built_fanfare.timed.isPlayed, heffects⟩

end Pattern

end Chiptune
