import Chiptune.Proofs.Assembly
import Chiptune.Proofs.Pattern.Simulation

/-!
# Names that are resolved

Rendering an entity looks up every name in it. Drum notes and effects survive the merging
of ties, so each of them has been looked up when the codes of a pattern are there; the
same holds of the events of a song and its commands.
-/

namespace Chiptune

open Step

theorem Registry.mem_names_of_resolve?
    {α : Type} [Entity α] {registry : Registry α} {name scope : String} {found : α}
    (h : registry.resolve? name scope = some found) : Entity.name found ∈ registry.names := by
  obtain ⟨candidate, -, hget⟩ := List.exists_of_findSome?_eq_some h
  exact List.mem_map_of_mem (List.mem_of_find?_eq_some hget)

theorem forall₂_mem_right
    {α β : Type} {r : α → β → Prop} {items : List α} {results : List β} {result : β}
    (h : List.Forall₂ r items results) (hmem : result ∈ results) :
    ∃ item ∈ items, r item result := by
  induction h with
  | nil => cases hmem
  | @cons item _ items _ hitem _ ih =>
      rcases List.mem_cons.mp hmem with rfl | hmem
      · exact ⟨item, List.mem_cons_self, hitem⟩
      · obtain ⟨other, hother, hrelated⟩ := ih hmem
        exact ⟨other, List.mem_cons_of_mem _ hother, hrelated⟩

theorem forall₂_mem_left
    {α β : Type} {r : α → β → Prop} {items : List α} {results : List β} {item : α}
    (h : List.Forall₂ r items results) (hmem : item ∈ items) :
    ∃ result ∈ results, r item result :=
  forall₂_mem_right h.flip hmem

/-! ## Drums -/

theorem Drum.effectLabel_eq_ok
    {drum : Drum} {effects : Registry SoundEffect} {name label : String}
    (h : drum.effectLabel effects name = .ok label) :
    ∃ effect, effects.resolve? name drum.name = some effect ∧
      label = SoundEffect.labelOf effect.name := by
  unfold effectLabel at h
  split at h
  · next effect hresolve =>
      cases h
      exact ⟨effect, hresolve, rfl⟩
  · cases h

/-! ## Patterns -/

/-- A change of how notes are played is among the tied items, and so is a note that strikes,
with rows if it has rows. -/
def PatternItem.Kept (tied : List TiedItem) : PatternItem → Prop
  | .effect change => .effect change ∈ tied
  | .note played rows _ _ =>
    played.isAttack = true →
      ∃ tiedRows slurred, .note played tiedRows slurred ∈ tied ∧ (rows ≠ 0 → tiedRows ≠ 0)

namespace PatternItem

theorem Kept.mono
    {item : PatternItem} {tied later : List TiedItem} (h : item.Kept tied)
    (hlater : ∀ tiedItem ∈ tied, tiedItem ∈ later) : item.Kept later := by
  cases item with
  | effect effect => exact hlater _ h
  | note note rows slur chord =>
      intro hattack
      obtain ⟨tiedRows, slurred, hmem, hrows⟩ := h hattack
      exact ⟨tiedRows, slurred, hlater _ hmem, hrows⟩

/-- A note that is lengthened is kept, and so are the other items. -/
theorem Kept.append
    {item : PatternItem} {merged : List TiedItem} (h : item.Kept merged)
    (note : PatternNote) (rows : Int) (slurred : Bool) :
    item.Kept (Tying.append merged note rows slurred) := by
  rcases Tying.append_cases merged note rows slurred with
    ⟨before, beforeRows, beforeSlurred, rest, rfl, hpos, hbefore, -, happend⟩ | ⟨-, happend⟩
  · rw [happend]
    cases item with
    | effect effect =>
        rcases List.mem_cons.mp h with hnote | hrest
        · cases hnote
        · exact List.mem_cons_of_mem _ hrest
    | note own ownRows slur chord =>
        intro hattack
        obtain ⟨tiedRows, ownSlurred, hmem, hrows⟩ := h hattack
        rcases List.mem_cons.mp hmem with hnote | hrest
        · cases hnote
          exact ⟨_, _, List.mem_cons_self, fun _ => by omega⟩
        · exact ⟨tiedRows, ownSlurred, List.mem_cons_of_mem _ hrest, hrows⟩
  · rw [happend]
    exact h.mono fun _ hmem => List.mem_cons_of_mem _ hmem

theorem Kept.step
    {item : PatternItem} {tying : Tying} (h : item.Kept tying.merged)
    (isDrum : Bool) (next : PatternItem) : item.Kept (tying.step isDrum next).merged := by
  cases next with
  | effect effect => exact h.mono fun _ hmem => List.mem_cons_of_mem _ hmem
  | note note rows slur chord =>
      have hannounced : item.Kept (tying.announce chord).merged := by
        unfold Tying.announce
        split
        · exact h
        · split
          · exact h
          · exact h.mono fun _ hmem => List.mem_cons_of_mem _ hmem
      exact hannounced.append _ _ _

/-- A note that strikes is put behind the tied items or merged into the same note. -/
theorem kept_step (tying : Tying) (isDrum : Bool) (item : PatternItem) :
    item.Kept (tying.step isDrum item).merged := by
  cases item with
  | effect effect => exact List.mem_cons_self
  | note note rows slur chord =>
      intro hattack
      have hplaced := Tying.placed_of_isAttack isDrum
        (tying.announce chord).merged.isEmpty hattack
      simp only [Tying.step, hplaced]
      rcases Tying.append_cases (tying.announce chord).merged note rows
          (Tying.leadsOn (tying.announce chord).slurOpen slur && note.isAttack) with
        ⟨before, beforeRows, beforeSlurred, rest, -, hpos, hbefore, hsame, happend⟩ |
          ⟨-, happend⟩
      · rw [happend]
        rcases hsame with rfl | ⟨-, rfl⟩
        · cases hattack
        · exact ⟨_, _, List.mem_cons_self, fun _ => by omega⟩
      · rw [happend]
        exact ⟨_, _, List.mem_cons_self, id⟩

theorem kept_foldl
    {item : PatternItem} {items : List PatternItem} {isDrum : Bool} {tying : Tying}
    (h : item ∈ items ∨ item.Kept tying.merged) :
    item.Kept (items.foldl (Tying.step isDrum) tying).merged := by
  induction items generalizing tying with
  | nil => exact h.resolve_left (List.not_mem_nil)
  | cons next items ih =>
      apply ih
      rcases h with hmem | hkept
      · rcases List.mem_cons.mp hmem with rfl | hmem
        · exact .inr (kept_step tying isDrum item)
        · exact .inl hmem
      · exact .inr (hkept.step isDrum next)

end PatternItem

/-- Only changes of arpeggio are dropped. -/
theorem mem_dropDeadArpeggios
    {items : List TiedItem} {item : TiedItem} (h : item ∈ items)
    (hother : ∀ code, item ≠ .arpeggio code) : item ∈ (dropDeadArpeggios items).1 := by
  induction items with
  | nil => cases h
  | cons first items ih =>
      cases first with
      | note note rows slurred =>
          rw [dropDeadArpeggios_note]
          exact List.mem_cons.mpr ((List.mem_cons.mp h).imp id ih)
      | effect effect =>
          rw [dropDeadArpeggios_effect]
          exact List.mem_cons.mpr ((List.mem_cons.mp h).imp id ih)
      | arpeggio code =>
          have hmem := ih ((List.mem_cons.mp h).resolve_left (hother code))
          rw [dropDeadArpeggios_arpeggio]
          dsimp only
          split
          · exact List.mem_cons_of_mem _ hmem
          · exact hmem

theorem Pattern.kept_tied {pattern : Pattern} {item : PatternItem} (h : item ∈ pattern.items) :
    item.Kept pattern.tied := by
  have hmerged : item.Kept (mergeTies pattern.isDrum pattern.items) :=
    (PatternItem.kept_foldl (.inl h)).mono fun _ hmem => List.mem_reverse.mpr hmem
  cases item with
  | effect effect => exact mem_dropDeadArpeggios hmerged fun _ h => nomatch h
  | note note rows slur chord =>
      intro hattack
      obtain ⟨tiedRows, slurred, hmem, hrows⟩ := hmerged hattack
      exact ⟨tiedRows, slurred, mem_dropDeadArpeggios hmem fun _ h => (nomatch h), hrows⟩

namespace Orchestra

variable {orchestra : Orchestra} {scope : String}

/-- A label in a code is that of an instrument or a drum. -/
def Names (orchestra : Orchestra) : PatternCode → Prop
  | .instrument label =>
    ∃ name ∈ orchestra.instruments.names, label = Instrument.labelOf name
  | .note (.drum label) _ => ∃ name ∈ orchestra.drums.names, label = Drum.labelOf name
  | _ => True

theorem effectCode_instrument
    {name : String} {code : PatternCode}
    (h : orchestra.effectCode scope (.instrument name) = .ok code) :
    ∃ instrument, orchestra.instruments.resolve? name scope = some instrument ∧
      code = .instrument (Instrument.labelOf instrument.name) := by
  simp only [effectCode] at h
  split at h
  · next instrument hresolve =>
      cases h
      exact ⟨instrument, hresolve, rfl⟩
  · cases h

theorem sound_drum
    {name : String} {transpose : Int} {sound : Sound}
    (h : orchestra.sound scope transpose (.drum name) = .ok sound) :
    ∃ drum, orchestra.drums.resolve? name scope = some drum ∧
      sound = .drum (Drum.labelOf drum.name) := by
  simp only [Orchestra.sound] at h
  split at h
  · next drum hresolve =>
      cases h
      exact ⟨drum, hresolve, rfl⟩
  · cases h

theorem names_effectCode
    {effect : PatternEffect} {code : PatternCode}
    (h : orchestra.effectCode scope effect = .ok code) : orchestra.Names code := by
  cases effect with
  | instrument name =>
      obtain ⟨instrument, hresolve, rfl⟩ := effectCode_instrument h
      exact ⟨_, Registry.mem_names_of_resolve? hresolve, rfl⟩
  | fastArpeggio | slowArpeggio | bend | vibrato | channelVolume =>
      cases h
      trivial

theorem names_note
    {note : PatternNote} {transpose : Int} {sound : Sound}
    (h : orchestra.sound scope transpose note = .ok sound) (length : Option NoteLength) :
    orchestra.Names (.note sound length) := by
  cases note with
  | drum name =>
      obtain ⟨drum, hresolve, rfl⟩ := sound_drum h
      exact ⟨_, Registry.mem_names_of_resolve? hresolve, rfl⟩
  | pitch semitones =>
      simp only [Orchestra.sound, pitchSound] at h
      split at h
      · cases h
        trivial
      · cases h
  | rest | wait =>
      cases h
      trivial

theorem names_lasting
    {note : PatternNote} {transpose : Int} {sound : Sound}
    (h : orchestra.sound scope transpose note = .ok sound) {rows : Int} {code : PatternCode}
    (hmem : code ∈ lasting sound rows) : orchestra.Names code := by
  unfold lasting at hmem
  split at hmem
  · rcases List.mem_cons.mp hmem with rfl | hmem
    · trivial
    · rw [List.mem_singleton.mp hmem]
      exact names_note h none
  · split at hmem
    · cases hmem
    · rcases List.mem_cons.mp hmem with rfl | hmem
      · exact names_note h _
      · obtain ⟨length, -, rfl⟩ := List.mem_map.mp hmem
        trivial

theorem names_encodeItem
    {encoder next : Encoder} {item : TiedItem} {codes : List PatternCode}
    (h : orchestra.encodeItem scope encoder item = .ok (codes, next)) :
    ∀ code ∈ codes, orchestra.Names code := by
  intro code hmem
  cases item with
  | arpeggio chord =>
      cases h
      rw [List.mem_singleton.mp hmem]
      trivial
  | effect effect =>
      obtain ⟨found, hcode, rfl, -⟩ := encodeItem_effect h
      rw [List.mem_singleton.mp hmem]
      exact names_effectCode hcode
  | note note rows slurred =>
      obtain ⟨sound, hsound, rfl, -⟩ := encodeItem_note h
      rcases List.mem_append.mp hmem with hmem | hmem
      · rcases Encoder.mem_beginNote hmem with rfl | rfl <;> trivial
      · exact names_lasting hsound hmem

/-- The codes of items are those of each item, with transpositions between them. -/
theorem encodeFrom_items
    {index : Nat} {encoder final : Encoder} {items : List TiedItem} {codes : List PatternCode}
    (h : orchestra.encodeFrom scope index encoder items = .ok (codes, final)) :
    (∀ code ∈ codes, orchestra.Names code) ∧
      ∀ item ∈ items, ∃ before itemCodes after,
        orchestra.encodeItem scope before item = .ok (itemCodes, after) ∧
          ∀ code ∈ itemCodes, code ∈ codes := by
  induction items generalizing index encoder codes with
  | nil =>
      cases h
      exact ⟨nofun, nofun⟩
  | cons first items ih =>
      obtain ⟨itemCodes, next, later, hitem, hlater, rfl⟩ := encodeFrom_cons h
      obtain ⟨hnames, hitems⟩ := ih hlater
      constructor
      · intro code hmem
        rw [List.append_assoc, List.mem_append, List.mem_append] at hmem
        rcases hmem with hmem | hmem | hmem
        · obtain ⟨semitones, rfl⟩ := Encoder.mem_beginRun hmem
          trivial
        · exact names_encodeItem hitem code hmem
        · exact hnames code hmem
      · intro item hmem
        rcases List.mem_cons.mp hmem with rfl | hmem
        · refine ⟨_, itemCodes, next, hitem, fun code hcode => ?_⟩
          exact List.mem_append_left _ (List.mem_append_right _ hcode)
        · obtain ⟨before, found, after, hfound, hsub⟩ := hitems item hmem
          exact ⟨before, found, after, hfound, fun code hcode =>
            List.mem_append_right _ (hsub code hcode)⟩

end Orchestra

namespace Pattern

variable {pattern : Pattern} {orchestra : Orchestra} {codes : List PatternCode}

theorem names_encode (h : pattern.encode orchestra = .ok codes) :
    ∀ code ∈ codes, orchestra.Names code := by
  obtain ⟨body, final, hbody, rfl⟩ := encode_eq_ok h
  intro code hmem
  rcases List.mem_append.mp hmem with hmem | hmem
  · exact (Orchestra.encodeFrom_items hbody).1 code hmem
  · rcases mem_closing hmem with ⟨semitones, rfl⟩ | rfl | rfl <;> trivial

/-- The codes of every tied item are among the codes of the pattern. -/
theorem encodeItem_of_encode
    (h : pattern.encode orchestra = .ok codes) {item : TiedItem} (hitem : item ∈ pattern.tied) :
    ∃ before itemCodes after,
      orchestra.encodeItem pattern.name before item = .ok (itemCodes, after) ∧
        ∀ code ∈ itemCodes, code ∈ codes := by
  obtain ⟨body, final, hbody, rfl⟩ := encode_eq_ok h
  obtain ⟨before, itemCodes, after, hcodes, hsub⟩ :=
    (Orchestra.encodeFrom_items hbody).2 item hitem
  exact ⟨before, itemCodes, after, hcodes, fun code hcode =>
    List.mem_append_left _ (hsub code hcode)⟩

/-- An instrument that is selected is found, and its code is there. -/
theorem instrument_of_encode
    (h : pattern.encode orchestra = .ok codes) {name : String}
    (hitem : .effect (.instrument name) ∈ pattern.items) :
    ∃ instrument, orchestra.instruments.resolve? name pattern.name = some instrument ∧
      .instrument (Instrument.labelOf instrument.name) ∈ codes := by
  obtain ⟨before, itemCodes, after, hcodes, hsub⟩ := encodeItem_of_encode h (kept_tied hitem)
  obtain ⟨code, hcode, rfl, -⟩ := Orchestra.encodeItem_effect hcodes
  obtain ⟨instrument, hresolve, rfl⟩ := Orchestra.effectCode_instrument hcode
  exact ⟨instrument, hresolve, hsub _ List.mem_cons_self⟩

/-- A drum that is struck is found, and a code sounds it unless it has no rows. -/
theorem drum_of_encode
    (h : pattern.encode orchestra = .ok codes) {name : String} {rows : Int} {slur : SlurMark}
    {chord : Option ChordCode} (hitem : .note (.drum name) rows slur chord ∈ pattern.items) :
    ∃ drum, orchestra.drums.resolve? name pattern.name = some drum ∧
      (rows ≠ 0 → ∃ length, .note (.drum (Drum.labelOf drum.name)) length ∈ codes) := by
  obtain ⟨tiedRows, slurred, htied, hrows⟩ := kept_tied hitem rfl
  obtain ⟨before, itemCodes, after, hcodes, hsub⟩ := encodeItem_of_encode h htied
  obtain ⟨sound, hsound, rfl, -⟩ := Orchestra.encodeItem_note hcodes
  obtain ⟨drum, hresolve, rfl⟩ := Orchestra.sound_drum hsound
  refine ⟨drum, hresolve, fun hne => ?_⟩
  obtain ⟨length, hlength⟩ := Orchestra.note_mem_lasting (.drum (Drum.labelOf drum.name))
    (hrows hne)
  exact ⟨length, hsub _ (List.mem_append_right _ hlength)⟩

end Pattern

/-! ## Songs -/

namespace Song

variable {song : Song} {score : Score}

theorem forall₂_of_commands
    {events : List ConductorEvent} {lines : List String} {before after : Diagnostics}
    (h : song.commands score events before = .ok lines after) :
    List.Forall₂
      (fun event line => ∃ before after, song.command score event before = .ok line after)
      events lines := by
  induction events generalizing lines before with
  | nil =>
      cases h
      exact .nil
  | cons event events ih =>
      rw [commands_cons] at h
      obtain ⟨line, _, hline, hrest⟩ := bind_eq_ok h
      obtain ⟨later, _, hlater, hlines⟩ := bind_eq_ok hrest
      cases hlines
      exact .cons ⟨_, _, adaptExcept_eq_ok hline⟩ (ih hlater)

theorem instrumentLabel_eq_ok
    {name scope label : String} (h : instrumentLabel score name scope = .ok label) :
    ∃ instrument, score.instruments.resolve? name scope = some instrument ∧
      label = Instrument.labelOf instrument.name := by
  unfold instrumentLabel at h
  split at h
  · next instrument hresolve =>
      cases h
      exact ⟨instrument, hresolve, rfl⟩
  · cases h

/-- The instrument that a pattern is played with and the scope in which its name is looked
up: the song if it asks for one, or else the pattern. -/
def playedWith (song : Song) (asked : Option String) (pattern : Pattern) :
    Option (String × String) :=
  match asked with
  | some name => some (name, song.name)
  | none => pattern.instrument.map fun name => (name, pattern.name)

/-- The operand is the label of the instrument that a pattern is played with, if any. -/
def IsOperand (song : Song) (score : Score) (asked : Option String) (pattern : Pattern)
    (operand : String) : Prop :=
  match song.playedWith asked pattern with
  | some (name, scope) =>
    ∃ instrument, score.instruments.resolve? name scope = some instrument ∧
      operand = Instrument.labelOf instrument.name
  | none => operand = "0"

theorem isOperand_of_playedInstrument
    {asked : Option String} {pattern : Pattern} {name operand : String} {place : Location}
    {before after : Diagnostics}
    (h : song.playedInstrument score asked pattern name place before = .ok operand after) :
    song.IsOperand score asked pattern operand := by
  cases asked with
  | some instrument => exact instrumentLabel_eq_ok (decide_eq_ok h).1
  | none =>
      cases hown : pattern.instrument with
      | some instrument =>
          simp only [playedInstrument, hown] at h
          simp only [IsOperand, playedWith, hown, Option.map_some]
          exact instrumentLabel_eq_ok (decide_eq_ok h).1
      | none =>
          simp only [playedInstrument, hown] at h
          simp only [IsOperand, playedWith, hown, Option.map_none]
          have hpure := modify_bind_eq_ok h
          cases hpure
          rfl

/-- A command that plays a pitched pattern names the track, the pattern, the transposition
of its first run over the one that is asked for, in 32 bits, and the instrument. -/
theorem pitchedCommand_eq_ok
    {pattern : Pattern} {name line : String} {track : Track} {asked : Option String}
    {transpose : Int} {place : Location} {before after : Diagnostics}
    (h : song.pitchedCommand score pattern name track asked transpose place before =
      .ok line after) :
    pattern.isDrum = false ∧
      ∃ (base : Int) (operand : String), pattern.baseTranspose = some base ∧
        0 ≤ Register.int32 (transpose + base) ∧ song.IsOperand score asked pattern operand ∧
          line = s!"playPat{track.suffix} {Pattern.labelOf pattern.name}, " ++
            s!"{Text.intText (Register.int32 (transpose + base))}, {operand}" := by
  unfold pitchedCommand at h
  dsimp only at h
  by_cases hdrum : pattern.isDrum = true
  · rw [if_pos hdrum] at h
    obtain ⟨_, _, hthrow, -⟩ := bind_eq_ok h
    cases hthrow
  · rw [if_neg hdrum] at h
    refine ⟨Bool.eq_false_of_not_eq_true hdrum, ?_⟩
    cases hbase : pattern.baseTranspose with
    | none =>
        rw [hbase] at h
        cases h
    | some base =>
        rw [hbase] at h
        dsimp only at h
        by_cases hlow : Register.int32 (transpose + base) < 0
        · rw [if_pos hlow] at h
          obtain ⟨_, _, hthrow, -⟩ := bind_eq_ok h
          cases hthrow
        · rw [if_neg hlow] at h
          obtain ⟨operand, _, hoperand, hline⟩ := bind_eq_ok h
          cases hline
          exact ⟨base, operand, rfl, Int.not_lt.mp hlow,
            isOperand_of_playedInstrument hoperand, rfl⟩

/-- A command that plays a pattern has its label. If the pattern is pitched, the command is
for another track than that of the drums and has the label of an instrument. -/
theorem playCommand_eq_ok
    {name line : String} {track : Option Track} {asked : Option String}
    {transpose : Int} {place : Location} {before after : Diagnostics}
    (h : song.playCommand score name track asked transpose place before = .ok line after) :
    ∃ pattern, score.patterns.resolve? name song.name = some pattern ∧
      (pattern.isDrum = true ∧ line = s!"playPatNoise {Pattern.labelOf pattern.name}" ∨
        pattern.isDrum = false ∧
          ∃ (track : Track) (base : Int) (operand : String), track ≠ .drum ∧
            pattern.baseTranspose = some base ∧ 0 ≤ Register.int32 (transpose + base) ∧
              song.IsOperand score asked pattern operand ∧
                line = s!"playPat{track.suffix} {Pattern.labelOf pattern.name}, " ++
                  s!"{Text.intText (Register.int32 (transpose + base))}, {operand}") := by
  unfold playCommand at h
  cases hresolve : score.patterns.resolve? name song.name with
  | none =>
      rw [hresolve] at h
      cases h
  | some pattern =>
      rw [hresolve] at h
      refine ⟨pattern, rfl, ?_⟩
      obtain ⟨played, _, -, hplay⟩ := bind_eq_ok h
      by_cases hdrum : played = .drum
      · rw [if_pos hdrum] at hplay
        by_cases hnoise : pattern.isDrum = true
        · rw [if_pos hnoise] at hplay
          cases hplay
          exact .inl ⟨hnoise, rfl⟩
        · rw [if_neg hnoise] at hplay
          cases hplay
      · rw [if_neg hdrum] at hplay
        obtain ⟨hpitched, base, operand, hcommand⟩ := pitchedCommand_eq_ok hplay
        exact .inr ⟨hpitched, played, base, operand, hdrum, hcommand⟩

theorem noteOn_eq_ok
    {track : Track} {pitch : Int} {name line : String} {place : Location}
    {before after : Diagnostics}
    (h : song.command score (.noteOn track pitch name place) before = .ok line after) :
    ∃ instrument, score.instruments.resolve? name song.name = some instrument ∧
      line = s!"noteOn{track.suffix} {Text.intText pitch}, " ++
        Instrument.labelOf instrument.name := by
  obtain ⟨label, _, hlabel, hline⟩ := bind_eq_ok h
  obtain ⟨instrument, hresolve, rfl⟩ := instrumentLabel_eq_ok (decide_eq_ok hlabel).1
  cases hline
  exact ⟨instrument, hresolve, rfl⟩

end Song

end Chiptune
