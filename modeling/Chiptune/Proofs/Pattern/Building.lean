import Chiptune.Pattern.Reading
import Chiptune.Proofs.Step
import Mathlib.Algebra.Ring.Nat

/-!
# Patterns that are built word by word

A pattern is built from a blank one by words that are accepted, with settings in
between. Every note of such a pattern takes rows or is a grace note, and the row
count of the pattern is the sum over its notes.
-/

namespace Chiptune

/-! ## Meters -/

namespace Meter

/-- The meters that accepted changes make of the initial one. -/
inductive Reachable : Meter → Prop where
  | initial : Reachable Meter.initial
  | setSticky {meter next : Meter} {word : String} (h : Reachable meter)
      (hset : meter.setSticky word = .ok next) : Reachable next
  | setTime {meter next : Meter} {beats beatUnit : Nat} (h : Reachable meter)
      (hset : meter.setTime beats beatUnit = .ok next) : Reachable next
  | setScale {meter next : Meter} {scale : Nat} (h : Reachable meter)
      (hset : meter.setScale scale = .ok next) : Reachable next
  | setLength {meter next : Meter} {duration : Option Duration} (h : Reachable meter)
      (hset : meter.setLength duration = .ok next) : Reachable next
  | forgetLength {meter : Meter} (h : Reachable meter) : Reachable meter.forgetLength
  | noteRows {meter next : Meter} {written : Option Duration} {rows : Int}
      (h : Reachable meter) (hrows : Meter.noteRows written meter = .ok rows next) :
      Reachable next
  | moveTo {meter : Meter} (h : Reachable meter) (position : Position) :
      Reachable { meter with position := position }

/-- A whole note has rows, and notes without a duration are no grace notes. -/
structure Usable (meter : Meter) : Prop where
  scale_pos : 0 < meter.scale
  length_not_grace : ∀ duration, meter.length = some duration → duration.augment ≠ .grace

theorem usable_initial : Meter.initial.Usable :=
  ⟨by decide, fun _ h => by cases h⟩

theorem Usable.setSticky
    {meter next : Meter} {word : String} (h : meter.Usable)
    (hset : meter.setSticky word = .ok next) :
    next.Usable := by
  unfold Meter.setSticky at hset
  split at hset
  · cases hset
    exact ⟨h.scale_pos, h.length_not_grace⟩
  · split at hset
    · cases hset
      exact ⟨h.scale_pos, h.length_not_grace⟩
    · cases hset

theorem Usable.setTime
    {meter next : Meter} {beats beatUnit : Nat} (h : meter.Usable)
    (hset : meter.setTime beats beatUnit = .ok next) :
    next.Usable := by
  unfold Meter.setTime at hset
  split at hset
  · cases hset
  · split at hset
    · cases hset
    · cases hset
      exact ⟨h.scale_pos, h.length_not_grace⟩

theorem Usable.setScale
    {meter next : Meter} {scale : Nat} (h : meter.Usable)
    (hset : meter.setScale scale = .ok next) :
    next.Usable := by
  unfold Meter.setScale at hset
  split at hset
  · next hpower =>
      cases hset
      refine ⟨Nat.pos_of_ne_zero ?_, h.length_not_grace⟩
      rintro rfl
      simp [isPowerWithinBounds] at hpower
  · cases hset

/-- A duration that holds for the notes after it leaves a usable meter. -/
theorem Usable.withLength
    {meter : Meter} {duration : Duration} (h : meter.Usable)
    (hgrace : duration.augment ≠ .grace) :
    { meter with length := some duration : Meter }.Usable := by
  refine ⟨h.scale_pos, ?_⟩
  intro kept hkept
  cases hkept
  exact hgrace

theorem Usable.setLength
    {meter next : Meter} {duration : Option Duration} (h : meter.Usable)
    (hset : meter.setLength duration = .ok next) :
    next.Usable := by
  cases duration with
  | none => cases hset
  | some duration =>
      simp only [Meter.setLength] at hset
      split at hset
      · cases hset
      · next hgrace =>
          cases hset
          exact h.withLength hgrace

theorem Usable.forgetLength
    {meter : Meter} (h : meter.Usable) :
    meter.forgetLength.Usable :=
  ⟨h.scale_pos, fun _ hlength => by cases hlength⟩

/-- A duration that is no grace note takes rows. -/
theorem Usable.rowsOf_pos
    {meter : Meter} {duration : Duration} {rows : Nat} (h : meter.Usable)
    (hgrace : duration.augment ≠ .grace) (hrows : meter.rowsOf duration = .ok rows) :
    0 < rows := by
  have hquarters : 0 < duration.augment.quarters := by
    cases haugment : duration.augment with
    | plain => decide
    | dotted => decide
    | doubleDotted => decide
    | grace => exact absurd haugment hgrace
  have hwhole : 0 < meter.scale * duration.augment.quarters :=
    Nat.mul_pos h.scale_pos hquarters
  simp only [Meter.rowsOf] at hrows
  split at hrows
  · next hdivides =>
      cases hrows
      have hle := Nat.le_of_dvd hwhole (Nat.dvd_of_mod_eq_zero hdivides)
      refine Nat.div_pos hle (Nat.pos_of_ne_zero ?_)
      intro hparts
      rw [hparts, Nat.mod_zero] at hdivides
      omega
  · cases hrows

theorem beatDuration_ne_grace
    {meter : Meter} {duration : Duration} (hbeat : meter.beatDuration = .ok duration) :
    duration.augment ≠ .grace := by
  unfold Meter.beatDuration at hbeat
  cases hrows : meter.beatRows with
  | error fault => simp [hrows, Except.map] at hbeat
  | ok rows =>
      simp only [hrows, Except.map, Except.ok.injEq] at hbeat
      subst hbeat
      split <;> simp

theorem defaultDuration_ensures :
    Step.Ensures Usable defaultDuration
      fun duration meter => meter.Usable ∧ duration.augment ≠ .grace := by
  refine Step.ensures_get_bind fun meter h => ?_
  cases hlength : meter.length with
  | some duration =>
      refine Step.ensures_pure ?_
      rintro _ rfl
      exact ⟨h, h.length_not_grace duration hlength⟩
  | none =>
      refine Step.ensures_decide_bind fun duration hbeat => ?_
      have hgrace := beatDuration_ne_grace hbeat
      refine .bind (fun _ meter => meter.Usable)
        (Step.ensures_set fun _ _ => h.withLength hgrace)
        fun _ => Step.ensures_pure fun _ hnext => ⟨hnext, hgrace⟩

theorem durationInForce_ensures
    {written : Option Duration}
    (hwritten : ∀ duration, written = some duration → duration.augment ≠ .grace) :
    Step.Ensures Usable (durationInForce written)
      fun duration meter => meter.Usable ∧ duration.augment ≠ .grace := by
  cases written with
  | none => exact defaultDuration_ensures
  | some duration =>
      have hgrace := hwritten duration rfl
      refine Step.ensures_get_bind fun meter h => ?_
      dsimp only
      split
      · exact .bind (fun _ meter => meter.Usable)
          (Step.ensures_set fun _ _ => h.withLength hgrace)
          fun _ => Step.ensures_pure fun _ hnext => ⟨hnext, hgrace⟩
      · refine Step.ensures_pure ?_
        rintro _ rfl
        exact ⟨h, hgrace⟩

/-- A written duration has rows, or frames if it is one of a grace note. -/
def Written (written : Option Duration) : Prop :=
  ∀ frames, written = some ⟨frames, .grace⟩ → 0 < frames

theorem written_of_writtenDuration
    {number : Option Nat} {augment : Augment} {written : Option Duration}
    (h : writtenDuration number augment = .ok written) :
    Written written := by
  rintro frames rfl
  cases number with
  | none =>
      simp only [writtenDuration] at h
      split at h <;> cases h
  | some n =>
      simp only [writtenDuration] at h
      split at h
      · cases h
      · split at h
        · cases h
        · cases h
          omega

/-- The rows of a note leave a usable meter, and are not none if its duration is
written with any. -/
theorem noteRows_ensures
    (written : Option Duration) :
    Step.Ensures Usable (noteRows written)
      fun rows meter => meter.Usable ∧ (Written written → rows ≠ 0) := by
  unfold noteRows
  split
  · next frames =>
      refine Step.ensures_pure ?_
      intro meter h
      refine ⟨h, fun hwritten => ?_⟩
      have hpos := hwritten frames rfl
      simp only [Int.ofNat_eq_natCast, ne_eq]
      omega
  · next hgrace =>
      refine .bind _ (durationInForce_ensures ?_) fun duration => ?_
      · rintro ⟨denominator, augment⟩ rfl rfl
        exact hgrace denominator rfl
      refine Step.ensures_get_bind fun meter h => ?_
      refine Step.ensures_decide_bind fun rows hrows => Step.ensures_pure ?_
      rintro _ rfl
      refine ⟨h.1, fun _ => ?_⟩
      have hpos := h.1.rowsOf_pos h.2 hrows
      simp only [Int.ofNat_eq_natCast, ne_eq]
      omega

theorem Reachable.usable
    {meter : Meter} (h : meter.Reachable) :
    meter.Usable := by
  induction h with
  | initial => exact usable_initial
  | setSticky _ hset ih => exact ih.setSticky hset
  | setTime _ hset ih => exact ih.setTime hset
  | setScale _ hset ih => exact ih.setScale hset
  | setLength _ hset ih => exact ih.setLength hset
  | forgetLength _ ih => exact ih.forgetLength
  | noteRows _ hrows ih => exact (noteRows_ensures _ _ _ _ ih hrows).1
  | moveTo _ position ih => exact ⟨ih.scale_pos, ih.length_not_grace⟩

end Meter

/-! ## Patterns -/

/-- The rows an item takes; a grace note takes none. -/
def PatternItem.rowCount : PatternItem → Nat
  | note _ rows _ _ => rows.toNat
  | effect _ => 0

/-- The rows that items take together. -/
def itemRows (items : List PatternItem) : Nat := (items.map PatternItem.rowCount).sum

@[simp] theorem itemRows_append
    (first second : List PatternItem) :
    itemRows (first ++ second) = itemRows first + itemRows second := by
  simp [itemRows]

/-- An item that is an effect, takes rows, or is a grace note. -/
def PatternItem.IsPlayed : PatternItem → Prop
  | note _ rows _ _ => rows ≠ 0
  | effect _ => True

namespace Pattern

/-- The patterns that accepted words and settings make of a blank one. -/
inductive Built : Pattern → Prop where
  | blank (name : String) (place : Location) (track : Option Track)
      (instrument : Option String) (pitch : PitchState) {meter : Meter}
      (hmeter : meter.Reachable) :
      Built (Pattern.blank name place track instrument pitch meter)
  | addWord {pattern next : Pattern} {book : ChordBook} {word : String}
      {warnings : List String} (h : Built pattern)
      (hword : Pattern.addWord book word pattern = .ok warnings next) : Built next
  | setLanguage {pattern : Pattern} {pitch : PitchState} {word : String}
      (h : Built pattern) (hset : pattern.pitch.setLanguage word = .ok pitch) :
      Built { pattern with pitch := pitch }
  | setSigns {pattern : Pattern} {pitch : PitchState} {word : String}
      (h : Built pattern) (hset : pattern.pitch.setSigns word = .ok pitch) :
      Built { pattern with pitch := pitch }
  | setSticky {pattern : Pattern} {meter : Meter} {word : String}
      (h : Built pattern) (hset : pattern.meter.setSticky word = .ok meter) :
      Built { pattern with meter := meter }
  | setTime {pattern : Pattern} {meter : Meter} {beats beatUnit : Nat}
      (h : Built pattern) (hset : pattern.meter.setTime beats beatUnit = .ok meter) :
      Built { pattern with meter := meter }
  | setScale {pattern : Pattern} {meter : Meter} {scale : Nat}
      (h : Built pattern) (hset : pattern.meter.setScale scale = .ok meter) :
      Built { pattern with meter := meter }
  | fallThrough {pattern : Pattern} (h : Built pattern) :
      Built { pattern with fallthrough := true }

/-- Every note is played, the rows are counted, and the meter is usable. -/
structure Timed (pattern : Pattern) : Prop where
  isPlayed : ∀ item ∈ pattern.items, item.IsPlayed
  rows_eq : pattern.rows = itemRows pattern.items
  usable : pattern.meter.Usable

/-- What a step does to a pattern besides its items, rows and meter does not count. -/
theorem Timed.congr
    {pattern next : Pattern} (h : pattern.Timed) (hitems : next.items = pattern.items)
    (hrows : next.rows = pattern.rows) (hmeter : next.meter = pattern.meter) :
    next.Timed := by
  refine ⟨?_, ?_, ?_⟩
  · rw [hitems]
    exact h.isPlayed
  · rw [hitems, hrows]
    exact h.rows_eq
  · rw [hmeter]
    exact h.usable

theorem Timed.withMeter
    {pattern : Pattern} {meter : Meter} (h : pattern.Timed) (hmeter : meter.Usable) :
    { pattern with meter := meter : Pattern }.Timed :=
  ⟨h.isPlayed, h.rows_eq, hmeter⟩

theorem Timed.pushEffect
    {pattern : Pattern} (h : pattern.Timed) (effect : PatternEffect) :
    (pattern.pushEffect effect).Timed := by
  refine ⟨?_, ?_, h.usable⟩
  · intro item hitem
    rcases List.mem_append.mp hitem with hold | hnew
    · exact h.isPlayed item hold
    · rw [List.mem_singleton.mp hnew]
      trivial
  · change pattern.rows = itemRows (pattern.items ++ [.effect effect])
    rw [itemRows_append, h.rows_eq]
    rfl

theorem Timed.pushNote
    {pattern : Pattern} (h : pattern.Timed) (note : PatternNote) {rows : Int}
    (slur : SlurMark) (chord : Option ChordCode) (hrows : rows ≠ 0) :
    (pattern.pushNote note rows slur chord).Timed := by
  refine ⟨?_, ?_, h.usable⟩
  · intro item hitem
    rcases List.mem_append.mp hitem with hold | hnew
    · exact h.isPlayed item hold
    · rw [List.mem_singleton.mp hnew]
      exact hrows
  · change pattern.rows + rows.toNat =
      itemRows (pattern.items ++ [.note note rows slur chord])
    rw [itemRows_append, h.rows_eq]
    rfl

/-! ### Words -/

theorem takeRows_ensures
    {duration : Option Duration} (hwritten : Meter.Written duration) :
    Step.Ensures Timed (takeRows duration) fun rows pattern => pattern.Timed ∧ rows ≠ 0 := by
  refine Step.ensures_on ?_
  intro pattern rows meter h hrun
  obtain ⟨husable, hrows⟩ := Meter.noteRows_ensures duration _ _ _ h.usable hrun
  exact ⟨h.withMeter husable, hrows hwritten⟩

theorem takeLength_ensures
    (duration : Option Duration) :
    Step.Ensures Timed (takeLength duration) fun _ => Timed := by
  refine Step.ensures_advance ?_
  intro pattern meter h hset
  exact h.withMeter (h.usable.setLength hset)

theorem takePitch_ensures
    (book : ChordBook) (word : NoteWord) :
    Step.Ensures Timed (takePitch book word) fun _ => Timed := by
  refine Step.ensures_advance ?_
  intro pattern found h _
  exact h.congr rfl rfl rfl

theorem addNote_ensures
    (note : PatternNote) {duration : Option Duration} (slur : SlurMark)
    (chord : Option ChordCode) (hwritten : Meter.Written duration) :
    Step.Ensures Timed (addNote note duration slur chord) fun _ => Timed := by
  refine .bind _ (takeRows_ensures hwritten) fun rows => Step.ensures_modify ?_
  rintro pattern ⟨h, hrows⟩
  exact h.pushNote note slur chord hrows

theorem addPitched_ensures
    (book : ChordBook) (word : NoteWord) :
    Step.Ensures Timed (addPitched book word) fun _ => Timed := by
  refine Step.ensures_decide_bind fun duration hduration => ?_
  have hwritten := Meter.written_of_writtenDuration hduration
  refine .bind (fun _ => Timed) (takePitch_ensures book word) ?_
  rintro ⟨played, chord⟩
  cases played with
  | length => exact takeLength_ensures duration
  | semitone pitch => exact addNote_ensures _ _ _ hwritten
  | rest => exact addNote_ensures _ _ _ hwritten
  | wait => exact addNote_ensures _ _ _ hwritten

theorem addDrum_ensures
    (word : DrumWord) :
    Step.Ensures Timed (addDrum word) fun _ => Timed := by
  refine Step.ensures_decide_bind fun duration hduration => ?_
  have hwritten := Meter.written_of_writtenDuration hduration
  cases word.stroke with
  | length => exact takeLength_ensures duration
  | rest => exact addNote_ensures _ _ _ hwritten
  | wait => exact addNote_ensures _ _ _ hwritten
  | hit name => exact addNote_ensures _ _ _ hwritten

theorem addFirst_ensures
    (book : ChordBook) (word : String) :
    Step.Ensures Timed (addFirst book word) fun _ => Timed := by
  unfold addFirst
  split
  · split
    · exact addPitched_ensures book _
    · split
      · exact Step.ensures_throw
      · exact .bind (fun _ => Timed)
          (Step.ensures_modify fun _ h => h.congr rfl rfl rfl)
          fun _ => addPitched_ensures book _
  · exact .bind (fun _ => Timed)
      (Step.ensures_modify fun _ h => h.congr rfl rfl rfl)
      fun _ => addDrum_ensures _
  · exact Step.ensures_throw

theorem addNoteWord_ensures
    (book : ChordBook) (word : String) :
    Step.Ensures Timed (addNoteWord book word) fun _ => Timed := by
  refine Step.ensures_get_bind fun pattern h => ?_
  refine .weaken_pre ?_ (fun _ hsame => hsame ▸ h)
  split
  · exact addFirst_ensures book word
  · split
    · exact addDrum_ensures _
    · exact Step.ensures_throw
  · split
    · exact addPitched_ensures book _
    · exact Step.ensures_throw

theorem pushEffect_ensures
    (effect : PatternEffect) (warnings : List String) :
    Step.Ensures Timed
      (do modify (·.pushEffect effect); return warnings : Step Pattern (List String))
      fun _ => Timed :=
  .bind (fun _ => Timed) (Step.ensures_modify fun _ h => h.pushEffect effect)
    fun _ => Step.ensures_pure fun _ h => h

theorem addArpeggio_ensures
    (book : ChordBook) (word argument : String) :
    Step.Ensures Timed (addArpeggio book word argument) fun _ => Timed := by
  unfold addArpeggio
  split
  · exact pushEffect_ensures _ _
  · split
    · exact pushEffect_ensures _ _
    · split
      · refine Step.ensures_advance ?_
        intro pattern pitch h _
        exact h.congr rfl rfl rfl
      · exact Step.ensures_pure fun _ h => h

theorem addEffect_ensures
    (effect : Option PatternEffect) (warning : String) :
    Step.Ensures Timed (addEffect effect warning) fun _ => Timed := by
  cases effect with
  | none => exact Step.ensures_pure fun _ h => h
  | some effect => exact pushEffect_ensures effect _

theorem selectMode_ensures
    (word : String) (mode : OctaveMode) :
    Step.Ensures Timed (selectMode word mode) fun _ => Timed := by
  refine Step.ensures_get_bind fun pattern h => ?_
  dsimp only
  split
  · exact .bind (fun _ => Timed) Step.ensures_throw
      fun _ => .bind (fun _ => Timed)
        (Step.ensures_modify fun _ hnext => hnext.congr rfl rfl rfl)
        fun _ => Step.ensures_pure fun _ hnext => hnext
  · refine .bind (fun _ => Timed) (Step.ensures_modify ?_)
      fun _ => Step.ensures_pure fun _ hnext => hnext
    rintro _ rfl
    exact h.congr rfl rfl rfl

theorem selectInstrument_ensures
    (name : String) :
    Step.Ensures Timed (selectInstrument name) fun _ => Timed := by
  unfold selectInstrument
  dsimp only
  split
  · exact .bind (fun _ => Timed) Step.ensures_throw fun _ => pushEffect_ensures _ _
  · exact pushEffect_ensures _ _

theorem addWord_ensures
    (book : ChordBook) (word : String) :
    Step.Ensures Timed (addWord book word) fun _ => Timed := by
  unfold addWord
  split
  · refine Step.ensures_get_bind fun pattern h => Step.ensures_decide ?_
    rintro _ _ _ rfl
    exact h
  · exact selectMode_ensures word _
  · exact addEffect_ensures _ _
  · exact addArpeggio_ensures book word _
  · exact addEffect_ensures _ _
  · exact addEffect_ensures _ _
  · exact selectInstrument_ensures _
  · exact .bind (fun _ => Timed) (addNoteWord_ensures book word)
      fun _ => Step.ensures_pure fun _ h => h

/-- Building a pattern keeps it timed. -/
theorem Built.timed
    {pattern : Pattern} (h : pattern.Built) :
    pattern.Timed := by
  induction h with
  | blank name place track instrument pitch hmeter =>
      exact ⟨fun _ hitem => absurd hitem List.not_mem_nil, rfl,
        hmeter.usable.forgetLength⟩
  | addWord _ hword ih => exact addWord_ensures _ _ _ _ _ ih hword
  | setLanguage _ _ ih => exact ih.congr rfl rfl rfl
  | setSigns _ _ ih => exact ih.congr rfl rfl rfl
  | setSticky _ hset ih => exact ih.withMeter (ih.usable.setSticky hset)
  | setTime _ hset ih => exact ih.withMeter (ih.usable.setTime hset)
  | setScale _ hset ih => exact ih.withMeter (ih.usable.setScale hset)
  | fallThrough _ ih => exact ih.congr rfl rfl rfl

/-- Reading a line of words builds a pattern further. -/
theorem Built.addWords
    {pattern next : Pattern} {book : ChordBook} {words warnings : List String}
    (h : pattern.Built)
    (hwords : Pattern.addWords book words pattern = .ok warnings next) :
    next.Built := by
  induction words generalizing pattern warnings with
  | nil =>
      cases hwords
      exact h
  | cons word words ih =>
      obtain ⟨first, reached, hfirst, hrest⟩ := Step.bind_eq_ok hwords
      obtain ⟨later, last, hlater, hlast⟩ := Step.bind_eq_ok hrest
      cases hlast
      exact ih (h.addWord hfirst) hlater

/-- A slurred leap of four octaves under a chord, carried on and held, then a grace
note, an effect and a rest. -/
def fanfare : Pattern :=
  { Pattern.blank "fanfare" ⟨"score", 1⟩ (some .pulse1) none .initial .initial with
    items :=
      [.note (.pitch (-9)) 4 .start (some (.ofNats 4 7)),
        .note (.pitch 39) 2 .none (some (.ofNats 4 7)),
        .note (.pitch 39) 2 .tie (some (.ofNats 4 7)),
        .note .wait 4 .none (some (.ofNats 4 7)),
        .note (.pitch 41) (-3) .none (some .silent),
        .effect (.channelVolume 4),
        .note .wait 1 .none (some .silent),
        .note .rest 4 .finish (some .silent)]
    rows := 17
    pitch :=
      { PitchState.initial with
        mode := .absolute
        degree := 1
        octave := 2
        arpeggio := some .silent
        last := some (41, some .silent) } }

theorem built_fanfare : fanfare.Built := by
  have hwords : Pattern.addWords default
      ["c,,4:47(", "c''8:47", "c''8:47~", "w4", "d''3g", "ff", "w16", "r4)"]
      (Pattern.blank "fanfare" ⟨"score", 1⟩ (some .pulse1) none .initial .initial) =
        .ok [] fanfare := Step.eq_ok_of_result? (by decide +kernel)
  exact (Built.blank _ _ _ _ _ .initial).addWords hwords

end Pattern

end Chiptune
