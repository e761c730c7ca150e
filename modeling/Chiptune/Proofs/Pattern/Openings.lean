import Chiptune.Proofs.Pattern.Arpeggios
import Chiptune.Proofs.Pattern.Kinds

/-!
# How a pattern opens

A wait holds the note before it, and in a drum pattern a rest does. The first note of a
pattern has no note before it to hold. It is encoded as a rest if it is the first of all
items; behind an effect, or with a chord of its own, it is encoded as a tie all the same.
-/

namespace Chiptune

/-! ## First notes -/

namespace TiedItem

/-- The note of a tied item. -/
def note? : TiedItem → Option PatternNote
  | note played _ _ => some played
  | arpeggio _ | effect _ => none

/-- The first note of tied items. -/
def firstNote? (items : List TiedItem) : Option PatternNote := items.findSome? note?

@[simp] theorem firstNote?_nil : firstNote? [] = none := rfl

@[simp] theorem firstNote?_cons (item : TiedItem) (items : List TiedItem) :
    firstNote? (item :: items) = item.note?.or (firstNote? items) := by
  rw [firstNote?, List.findSome?_cons]
  cases item.note? with
  | none => rfl
  | some note => rfl

@[simp] theorem firstNote?_append (first second : List TiedItem) :
    firstNote? (first ++ second) = (firstNote? first).or (firstNote? second) :=
  List.findSome?_append

/-- Changes of arpeggio are no notes, so dropping them leaves the first note. -/
theorem firstNote?_dropDeadArpeggios (items : List TiedItem) :
    firstNote? (dropDeadArpeggios items).1 = firstNote? items := by
  induction items with
  | nil => rfl
  | cons item items ih =>
      cases item with
      | note note rows slurred =>
          rw [dropDeadArpeggios_note, firstNote?_cons, firstNote?_cons, ih]
      | effect effect =>
          rw [dropDeadArpeggios_effect, firstNote?_cons, firstNote?_cons, ih]
      | arpeggio code =>
          rw [dropDeadArpeggios_arpeggio, firstNote?_cons]
          dsimp only
          split
          · rw [firstNote?_cons, ih]
          · exact ih

end TiedItem

namespace PatternCode

/-- The sound of a note code. -/
def sound? : PatternCode → Option Sound
  | note sound _ => some sound
  | _ => none

/-- The sound of the first note code, whatever other codes stand before it. -/
def firstSound? (codes : List PatternCode) : Option Sound := codes.findSome? sound?

@[simp] theorem firstSound?_append (first second : List PatternCode) :
    firstSound? (first ++ second) = (firstSound? first).or (firstSound? second) :=
  List.findSome?_append

theorem sound?_of_isEffect {code : PatternCode} (h : code.isEffect = true) :
    code.sound? = none := by
  cases code <;> first | rfl | cases h

theorem firstSound?_eq_none {codes : List PatternCode} (h : ∀ code ∈ codes, code.sound? = none) :
    firstSound? codes = none :=
  List.findSome?_eq_none_iff.mpr h

end PatternCode

open TiedItem PatternCode

/-! ## Merging -/

/-- The note holds the note before it: a wait, and a rest among drums. -/
def PatternNote.IsHold (isDrum : Bool) : PatternNote → Prop
  | wait => True
  | rest => isDrum = true
  | pitch _ | drum _ => False

namespace Tying

theorem placed_of_isHold
    {isDrum : Bool} {note : PatternNote} (h : note.IsHold isDrum) (atStart : Bool) :
    placed isDrum atStart note = if atStart then .rest else .wait := by
  cases note with
  | wait => cases isDrum <;> cases atStart <;> rfl
  | rest =>
      rw [PatternNote.IsHold] at h
      subst h
      cases atStart <;> rfl
  | pitch | drum => cases h

theorem isHold_of_placed
    {isDrum atStart : Bool} {note : PatternNote} (h : placed isDrum atStart note = .wait) :
    note.IsHold isDrum ∧ atStart = false := by
  cases note with
  | wait => cases isDrum <;> cases atStart <;> simp_all [placed, PatternNote.IsHold]
  | rest => cases isDrum <;> cases atStart <;> simp_all [placed, PatternNote.IsHold]
  | pitch | drum =>
      rw [placed_of_isAttack _ _ rfl] at h
      cases h

theorem firstNote?_merged_append
    (merged : List TiedItem) (note : PatternNote) (rows : Int) (slurred : Bool) :
    firstNote? (append merged note rows slurred).reverse =
      (firstNote? merged.reverse).or (some note) := by
  rcases append_cases merged note rows slurred with
    ⟨before, beforeRows, beforeSlurred, rest, rfl, -, -, -, happend⟩ | ⟨-, happend⟩
  · rw [happend]
    simp [note?]
  · rw [happend]
    simp [note?]

theorem firstNote?_announce (tying : Tying) (chord : Option ChordCode) :
    firstNote? (tying.announce chord).merged.reverse = firstNote? tying.merged.reverse := by
  unfold announce
  split
  · rfl
  · split
    · rfl
    · simp [note?]

/-- A first note that is there stays the first. -/
theorem firstNote?_step
    {tying : Tying} {first : PatternNote} (h : firstNote? tying.merged.reverse = some first)
    (isDrum : Bool) (item : PatternItem) :
    firstNote? (tying.step isDrum item).merged.reverse = some first := by
  cases item with
  | effect effect => simp [step, h]
  | note note rows slur chord =>
      simp only [step]
      rw [firstNote?_merged_append, firstNote?_announce, h, Option.some_or]

theorem firstNote?_foldl
    {tying : Tying} {first : PatternNote} (h : firstNote? tying.merged.reverse = some first)
    (isDrum : Bool) (items : List PatternItem) :
    firstNote? (items.foldl (step isDrum) tying).merged.reverse = some first := by
  induction items generalizing tying with
  | nil => exact h
  | cons item items ih => exact ih (firstNote?_step h isDrum item)

theorem foldl_effects (isDrum : Bool) (tying : Tying) (effects : List PatternEffect) :
    (effects.map .effect).foldl (step isDrum) tying =
      { tying with merged := (effects.map .effect).reverse ++ tying.merged } := by
  induction effects generalizing tying with
  | nil => rfl
  | cons effect effects ih =>
      rw [List.map_cons, List.foldl_cons, ih]
      simp [step]

end Tying

theorem firstNote?_effects (effects : List PatternEffect) :
    firstNote? (effects.map .effect) = none := by
  induction effects with
  | nil => rfl
  | cons effect effects ih => simpa [note?] using ih

theorem mergeTies_effects (isDrum : Bool) (effects : List PatternEffect) :
    mergeTies isDrum (effects.map .effect) = effects.map .effect := by
  rw [mergeTies, Tying.foldl_effects]
  simp [Tying.start]

/-- The items open with a note. It stands alone if there is neither an effect before it nor a
chord with it. -/
def PatternItem.OpenWith (note : PatternNote) (alone : Bool) (items : List PatternItem) : Prop :=
  ∃ (effects : List PatternEffect) (rows : Int) (slur : SlurMark) (chord : Option ChordCode)
    (later : List PatternItem),
    items = effects.map .effect ++ .note note rows slur chord :: later ∧
      alone = (effects.isEmpty && chord.isNone)

theorem PatternItem.effects_or_openWith (items : List PatternItem) :
    (∃ effects : List PatternEffect, items = effects.map .effect) ∨
      ∃ note alone, PatternItem.OpenWith note alone items := by
  induction items with
  | nil => exact .inl ⟨[], rfl⟩
  | cons item items ih =>
      cases item with
      | note note rows slur chord =>
          exact .inr ⟨note, chord.isNone, [], rows, slur, chord, items, rfl, rfl⟩
      | effect effect =>
          rcases ih with ⟨effects, rfl⟩ | ⟨note, alone, effects, rows, slur, chord, later, rfl, -⟩
          · exact .inl ⟨effect :: effects, rfl⟩
          · exact .inr ⟨note, false, effect :: effects, rows, slur, chord, later, rfl, rfl⟩

/-- The first note of the tied items is the one that the items open with. -/
theorem firstNote?_mergeTies
    {note : PatternNote} {alone : Bool} {items : List PatternItem}
    (h : PatternItem.OpenWith note alone items) (isDrum : Bool) :
    firstNote? (mergeTies isDrum items) = some (Tying.placed isDrum alone note) := by
  obtain ⟨effects, rows, slur, chord, later, rfl, rfl⟩ := h
  let opened : Tying := { Tying.start with merged := (effects.map .effect).reverse }
  have hopened : (effects.map .effect).foldl (Tying.step isDrum) Tying.start = opened := by
    rw [Tying.foldl_effects]
    simp [opened, Tying.start]
  have hnone : firstNote? opened.merged.reverse = none := by
    simpa [opened] using firstNote?_effects effects
  have hempty : (opened.announce chord).merged.isEmpty = (effects.isEmpty && chord.isNone) := by
    cases chord with
    | none => simp [Tying.announce, opened]
    | some code => simp [Tying.announce, opened, Tying.start]
  rw [mergeTies, List.foldl_append, hopened, List.foldl_cons]
  apply Tying.firstNote?_foldl
  simp only [Tying.step]
  rw [Tying.firstNote?_merged_append, Tying.firstNote?_announce, hnone, hempty, Option.none_or]

/-! ## Encoding -/

theorem rel_or
    {α β : Type} {r : α → β → Prop} {a a' : Option α} {b b' : Option β}
    (h : Option.Rel r a b) (h' : Option.Rel r a' b') : Option.Rel r (a.or a') (b.or b') := by
  cases h with
  | none => exact h'
  | some hrel => exact .some hrel

namespace Orchestra

variable {orchestra : Orchestra} {scope : String}

/-- The sound is that of the note under some transposition. -/
def IsSoundOf (orchestra : Orchestra) (scope : String) (note : PatternNote) (sound : Sound) :
    Prop :=
  ∃ transpose, orchestra.sound scope transpose note = .ok sound

theorem IsSoundOf.eq_tie_iff
    {note : PatternNote} {sound : Sound} (h : orchestra.IsSoundOf scope note sound) :
    sound = .tie ↔ note = .wait := by
  obtain ⟨transpose, hsound⟩ := h
  cases note with
  | wait =>
      cases hsound
      simp
  | rest =>
      cases hsound
      simp
  | drum name =>
      obtain ⟨drum, -, rfl⟩ := sound_drum hsound
      simp
  | pitch pitch =>
      rw [Orchestra.sound, pitchSound] at hsound
      split at hsound
      · cases hsound
        simp
      · cases hsound

theorem IsSoundOf.eq_rest {sound : Sound} (h : orchestra.IsSoundOf scope .rest sound) :
    sound = .rest := by
  obtain ⟨transpose, hsound⟩ := h
  cases hsound
  rfl

theorem firstSound?_lasting (sound : Sound) {rows : Int} (hrows : rows ≠ 0) :
    firstSound? (lasting sound rows) = some sound := by
  unfold lasting
  by_cases hneg : rows < 0
  · rw [if_pos hneg]
    rfl
  · rw [if_neg hneg]
    cases hsplit : NoteLength.decompose rows.toNat with
    | nil => exact absurd hsplit (NoteLength.decompose_ne_nil (by omega))
    | cons first later => rfl

theorem firstSound?_encodeItem
    {encoder next : Encoder} {item : TiedItem} {codes : List PatternCode}
    (hplayed : item.IsPlayed)
    (h : orchestra.encodeItem scope encoder item = .ok (codes, next)) :
    Option.Rel (orchestra.IsSoundOf scope) item.note? (firstSound? codes) := by
  cases item with
  | arpeggio code =>
      cases h
      exact .none
  | effect effect =>
      obtain ⟨code, hcode, rfl, rfl⟩ := encodeItem_effect h
      have hquiet : firstSound? [code] = none :=
        firstSound?_eq_none (List.forall_mem_singleton.mpr
          (sound?_of_isEffect (isEffect_of_effectCode hcode)))
      rw [hquiet]
      exact .none
  | note note rows slurred =>
      obtain ⟨sound, hsound, rfl, rfl⟩ := encodeItem_note h
      have hquiet : firstSound? (encoder.beginNote note slurred).1 = none := by
        refine firstSound?_eq_none fun code hmem => ?_
        rcases Encoder.mem_beginNote hmem with rfl | rfl
        · rfl
        · rfl
      rw [firstSound?_append, hquiet, Option.none_or, firstSound?_lasting sound hplayed]
      exact .some ⟨encoder.transpose, hsound⟩

/-- The first note code is that of the first note. -/
theorem firstSound?_encodeFrom
    {index : Nat} {encoder final : Encoder} {items : List TiedItem} {codes : List PatternCode}
    (hplayed : ∀ item ∈ items, item.IsPlayed)
    (h : orchestra.encodeFrom scope index encoder items = .ok (codes, final)) :
    Option.Rel (orchestra.IsSoundOf scope) (firstNote? items) (firstSound? codes) := by
  induction items generalizing index encoder codes with
  | nil =>
      cases h
      exact .none
  | cons item items ih =>
      obtain ⟨hitem, hitems⟩ := List.forall_mem_cons.mp hplayed
      obtain ⟨itemCodes, next, later, hcodes, hlater, rfl⟩ := encodeFrom_cons h
      have hquiet : firstSound? (encoder.beginRun index).1 = none := by
        refine firstSound?_eq_none fun code hmem => ?_
        obtain ⟨semitones, rfl⟩ := Encoder.mem_beginRun hmem
        rfl
      have hown := firstSound?_encodeItem hitem hcodes
      have hrest := ih hitems hlater
      rw [firstNote?_cons, firstSound?_append, firstSound?_append, hquiet, Option.none_or]
      exact rel_or hown hrest

end Orchestra

namespace Pattern

variable {pattern : Pattern} {orchestra : Orchestra} {codes : List PatternCode}

theorem firstSound?_encode
    (hplayed : ∀ item ∈ pattern.items, item.IsPlayed)
    (h : pattern.encode orchestra = .ok codes) :
    Option.Rel (orchestra.IsSoundOf pattern.name)
      (firstNote? (mergeTies pattern.isDrum pattern.items)) (firstSound? codes) := by
  obtain ⟨body, final, hbody, rfl⟩ := encode_eq_ok h
  have htied : ∀ tied ∈ pattern.tied, tied.IsPlayed := fun tied hmem =>
    isPlayed_mergeTies hplayed tied (mem_of_mem_dropDeadArpeggios hmem)
  have hquiet : firstSound? (pattern.closing pattern.startEncoder.transpose final) = none := by
    refine firstSound?_eq_none fun code hmem => ?_
    rcases mem_closing hmem with ⟨semitones, rfl⟩ | rfl | rfl
    · rfl
    · rfl
    · rfl
  have hfirst := Orchestra.firstSound?_encodeFrom htied hbody
  rw [tied, firstNote?_dropDeadArpeggios] at hfirst
  rw [firstSound?_append, hquiet, Option.or_none]
  exact hfirst

theorem exists_firstSound?
    (hplayed : ∀ item ∈ pattern.items, item.IsPlayed)
    (h : pattern.encode orchestra = .ok codes) {note : PatternNote} {alone : Bool}
    (hopen : PatternItem.OpenWith note alone pattern.items) :
    ∃ sound, firstSound? codes = some sound ∧
      orchestra.IsSoundOf pattern.name (Tying.placed pattern.isDrum alone note) sound := by
  have hfirst := firstSound?_encode hplayed h
  rw [firstNote?_mergeTies hopen] at hfirst
  generalize firstSound? codes = first at hfirst
  cases hfirst with
  | some hsound => exact ⟨_, rfl, hsound⟩

/-- A pattern begins with a tie if and only if it opens with a note to hold that does not
stand alone; one that stands alone is a rest. -/
theorem begins_with_tie_iff
    {pattern : Pattern} {orchestra : Orchestra} {codes : List PatternCode}
    (hbuilt : pattern.Built) (hcodes : pattern.encode orchestra = .ok codes) :
    (firstSound? codes = some .tie ↔
      ∃ note, PatternItem.OpenWith note false pattern.items ∧ note.IsHold pattern.isDrum) ∧
    ∀ note, PatternItem.OpenWith note true pattern.items → note.IsHold pattern.isDrum →
      firstSound? codes = some .rest := by
  have hplayed := hbuilt.timed.isPlayed
  refine ⟨⟨?_, ?_⟩, ?_⟩
  · intro htie
    rcases PatternItem.effects_or_openWith pattern.items with ⟨effects, heffects⟩ |
      ⟨note, alone, hopen⟩
    · have hfirst := firstSound?_encode hplayed hcodes
      rw [heffects, mergeTies_effects, firstNote?_effects, htie] at hfirst
      cases hfirst
    · obtain ⟨sound, hsound, hof⟩ := exists_firstSound? hplayed hcodes hopen
      cases hsound.symm.trans htie
      obtain ⟨hhold, rfl⟩ := Tying.isHold_of_placed (hof.eq_tie_iff.mp rfl)
      exact ⟨note, hopen, hhold⟩
  · rintro ⟨note, hopen, hhold⟩
    obtain ⟨sound, hsound, hof⟩ := exists_firstSound? hplayed hcodes hopen
    rw [hsound, hof.eq_tie_iff.mpr (Tying.placed_of_isHold hhold false)]
  · intro note hopen hhold
    obtain ⟨sound, hsound, hof⟩ := exists_firstSound? hplayed hcodes hopen
    rw [Tying.placed_of_isHold hhold true] at hof
    rw [hsound, hof.eq_rest]

/-- A rest before the first drum. -/
def upbeat : Pattern :=
  { Pattern.blank "upbeat" ⟨"score", 1⟩ (some .drum) none .initial .initial with
    items := [.note .rest 4 .none none, .note (.drum "clap") 4 .none none]
    rows := 8 }

theorem upbeat_begins_with_rest :
    upbeat.Built ∧ upbeat.isDrum = true ∧
      ∃ codes, upbeat.encode clappingScore.orchestra = .ok codes ∧
        firstSound? codes = some .rest := by
  have hwords : Pattern.addWords default ["r4", "clap4"]
      (Pattern.blank "upbeat" ⟨"score", 1⟩ (some .drum) none .initial .initial) =
        .ok [] upbeat := Step.eq_ok_of_result? (by decide +kernel)
  have hbuilt : upbeat.Built := (Built.blank _ _ _ _ _ .initial).addWords hwords
  have hcodes : upbeat.encode clappingScore.orchestra =
      .ok [.note .rest (some .quarter), .note (.drum "DR_clap") (some .quarter), .patternEnd] :=
    Step.eq_ok_of_toOption (by decide +kernel)
  have hopen : PatternItem.OpenWith .rest true upbeat.items := ⟨[], _, _, _, _, rfl, rfl⟩
  exact ⟨hbuilt, rfl, _, hcodes, (begins_with_tie_iff hbuilt hcodes).2 .rest hopen rfl⟩

/-- A change of volume, and a wait before the first note. -/
def swell : Pattern :=
  { Pattern.blank "swell" ⟨"score", 1⟩ (some .pulse1) none .initial .initial with
    items :=
      [.effect (.channelVolume 4), .note .wait 4 .none none, .note (.pitch 15) 4 .none none]
    rows := 8
    pitch :=
      { PitchState.initial with mode := .absolute, degree := 0, last := some (15, none) } }

/-- The wait is encoded as a tie, though there is no note before it. -/
theorem swell_begins_with_tie :
    swell.Built ∧ ∃ codes, swell.encode ⟨.empty, .empty⟩ = .ok codes ∧
      firstSound? codes = some .tie := by
  have hwords : Pattern.addWords default ["ff", "w4", "c4"]
      (Pattern.blank "swell" ⟨"score", 1⟩ (some .pulse1) none .initial .initial) =
        .ok [] swell := Step.eq_ok_of_result? (by decide +kernel)
  have hcodes : swell.encode ⟨.empty, .empty⟩ =
      .ok [.channelVolume 4, .note .tie (some .quarter), .note (.pitch 0) (some .quarter),
        .patternEnd] := Step.eq_ok_of_toOption (by decide +kernel)
  exact ⟨(Built.blank _ _ _ _ _ .initial).addWords hwords, _, hcodes, rfl⟩

end Pattern

end Chiptune
