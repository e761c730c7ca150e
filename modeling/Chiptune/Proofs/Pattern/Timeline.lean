import Chiptune.Proofs.Pattern.Simulation

/-!
# Encoding keeps the timeline

In every row the engine sounds what the items of the pattern say, raised by the
transposition it was started with.
-/

namespace Chiptune

/-- What a note of a pattern sounds: a wait holds what sounded before, and so does a
rest among drums. -/
def PatternNote.soundingIn (isDrum : Bool) (before : Sounding) : PatternNote → Sounding
  | pitch semitones => .pitch semitones
  | drum name => .drum name
  | wait => before
  | rest => if isDrum then before else .silence

/-- What sounds in each row of the items, if `before` sounded before them. -/
def itemTimeline (isDrum : Bool) : Sounding → List PatternItem → List Sounding
  | _, [] => []
  | before, .effect _ :: items => itemTimeline isDrum before items
  | before, .note note rows _ _ :: items =>
    let sounding := note.soundingIn isDrum before
    List.replicate rows.toNat sounding ++ itemTimeline isDrum sounding items

/-- What sounds in each row of a pattern that starts from silence. -/
def Pattern.timeline (pattern : Pattern) : List Sounding :=
  itemTimeline pattern.isDrum .silence pattern.items

theorem length_itemTimeline
    (isDrum : Bool) (before : Sounding) (items : List PatternItem) :
    (itemTimeline isDrum before items).length = itemRows items := by
  induction items generalizing before with
  | nil => rfl
  | cons item items ih =>
      cases item with
      | effect effect =>
          simp only [itemTimeline, ih, itemRows, List.map_cons, List.sum_cons,
            PatternItem.rowCount, Nat.zero_add]
      | note note rows slur carried =>
          simp only [itemTimeline, List.length_append, List.length_replicate, ih,
            itemRows, List.map_cons, List.sum_cons, PatternItem.rowCount]

namespace Heard

variable {ε : Type}

@[simp] theorem soundings_append
    (first second : List (Heard ε)) :
    soundings (first ++ second) = soundings first ++ soundings second :=
  List.filterMap_append

@[simp] theorem soundings_replicate_row
    (n : Nat) (sounding : Sounding) (chord : Option ChordCode) :
    soundings (List.replicate n (row sounding chord) : List (Heard ε)) =
      List.replicate n sounding := by
  simp [soundings]

end Heard

namespace History

/-- The rows of a performance are those of the timeline. -/
theorem soundings_performance
    (isDrum : Bool) (history : History) {items : List PatternItem}
    (hplayed : ∀ item ∈ items, item.IsPlayed) :
    Heard.soundings ((player isDrum).performance history items) =
      itemTimeline isDrum (history.sounding isDrum) items := by
  induction items generalizing history with
  | nil => rfl
  | cons item items ih =>
      have hlater := fun later hmem => hplayed later (List.mem_cons_of_mem item hmem)
      rw [Player.performance_cons, Heard.soundings_append, ih _ hlater]
      cases item with
      | effect effect => rfl
      | note note rows slur carried =>
          have hrows : rows ≠ 0 := hplayed _ List.mem_cons_self
          have hsounding : History.sounding isDrum (.note note rows slur carried :: history) =
              note.soundingIn isDrum (history.sounding isDrum) := by
            cases note <;> simp [History.sounding, PatternNote.soundingIn, hrows]
          simp only [player, hear, hsounding, Heard.soundings_append,
            Heard.soundings_replicate_row, itemTimeline]
          split <;> simp [Heard.soundings]

end History

namespace Pattern

/-- Played under any transposition, the codes of a pattern sound in every row what its
items say, take as many rows as the pattern has, and leave the transposition as it
was. -/
theorem timeline_encode
    {pattern : Pattern} {orchestra : Orchestra} {codes : List PatternCode}
    (hbuilt : pattern.Built) (hencode : pattern.encode orchestra = .ok codes)
    (shift : Int) :
    let engine := Engine.start (pattern.baseTranspose.getD 0 + shift)
    let heard := Heard.soundings (engine.performance codes)
    List.Forall₂ (orchestra.SoundsAs pattern.name shift) pattern.timeline heard ∧
      heard.length = pattern.rows ∧
      (engine.run codes).transpose = engine.transpose := by
  intro engine heard
  have htimed := hbuilt.timed
  obtain ⟨hperformance, htranspose⟩ := performance_encode hencode shift
  have htimeline : Heard.soundings pattern.performance = pattern.timeline :=
    History.soundings_performance pattern.isDrum [] htimed.isPlayed
  have hrows : List.Forall₂ (orchestra.SoundsAs pattern.name shift) pattern.timeline
      heard := by
    rw [← htimeline]
    refine List.rel_filterMap ?_ hperformance
    intro items codes hheard
    cases hheard with
    | attack => exact .none
    | row _ hsounds => exact .some hsounds
    | effect => exact .none
  refine ⟨hrows, ?_, htranspose⟩
  rw [← hrows.length_eq, timeline, length_itemTimeline, htimed.rows_eq]

/-- The fanfare played three semitones higher. -/
theorem timeline_encode_fanfare :
    fanfare.Built ∧ fanfare.encode ⟨.empty, .empty⟩ = .ok fanfareCodes ∧
      List.Forall₂ (Orchestra.SoundsAs ⟨.empty, .empty⟩ "fanfare" 3) fanfare.timeline
        (Heard.soundings ((Engine.start (-6)).performance fanfareCodes)) ∧
      (Heard.soundings ((Engine.start (-6)).performance fanfareCodes)).length = 17 ∧
      ((Engine.start (-6)).run fanfareCodes).transpose = -6 :=
  ⟨built_fanfare, encode_fanfare, timeline_encode built_fanfare encode_fanfare 3⟩

end Pattern

end Chiptune
