import Chiptune.Proofs.Pattern.Runs
import Chiptune.Proofs.Text.Numerals

/-!
# The lowest note

A song starts a pitched pattern at the transposition of its first run over the one that
the song asks for, in 32 bits, and refuses to do so below the lowest note. The later runs of
the pattern may go down from there, and single notes are not looked at. So what is played is
never below the lowest note if and only if neither of them is.
-/

namespace Chiptune

open Step

theorem forall₂_iff_forall_mem
    {α β : Type} {rel holds : α → β → Prop} {good : α → Prop} {items : List α}
    {results : List β} (h : List.Forall₂ rel items results)
    (hiff : ∀ item result, rel item result → (holds item result ↔ good item)) :
    List.Forall₂ holds items results ↔ ∀ item ∈ items, good item := by
  induction h with
  | nil => simp
  | cons hrel _ ih => rw [List.forall₂_cons, List.forall_mem_cons, hiff _ _ hrel, ih]

/-! ## Numerals in lines -/

namespace Text

theorem natText_injective : Function.Injective natText := by
  intro m n h
  have hdigits : Nat.toDigits 10 m = Nat.toDigits 10 n := String.ofList_injective h
  calc
    m = Nat.ofDigitChars 10 (Nat.toDigits 10 m) 0 := Nat.ofDigitChars_ten_toDigits.symm
    _ = Nat.ofDigitChars 10 (Nat.toDigits 10 n) 0 := by rw [hdigits]
    _ = n := Nat.ofDigitChars_ten_toDigits

theorem intText_injective : Function.Injective intText := by
  have hsign : ∀ k l : Nat, "-" ++ natText k ≠ natText l := by
    intro k l heq
    have hminus : '-' ∈ (natText l).toList := by
      rw [← heq, String.toList_append]
      exact List.mem_append_left _ List.mem_cons_self
    exact absurd (isDigit_of_mem_natText hminus) (by decide)
  intro m n h
  unfold intText at h
  by_cases hm : m < 0
  · by_cases hn : n < 0
    · rw [if_pos hm, if_pos hn, String.append_right_inj] at h
      have habs := natText_injective h
      omega
    · rw [if_pos hm, if_neg hn] at h
      exact absurd h (hsign _ _)
  · by_cases hn : n < 0
    · rw [if_neg hm, if_pos hn] at h
      exact absurd h.symm (hsign _ _)
    · rw [if_neg hm, if_neg hn] at h
      have habs := natText_injective h
      omega

/-- A numeral ends at the comma behind it. -/
theorem takeWhile_intText (n : Int) (rest : String) :
    (intText n ++ (", " ++ rest)).toList.takeWhile (· != ',') = (intText n).toList := by
  have hnone : ∀ c ∈ (intText n).toList, (c != ',') = true := by
    intro c hmem
    rw [bne_iff_ne]
    rintro rfl
    exact comma_not_mem_intText n hmem
  rw [String.toList_append, List.takeWhile_append_of_pos hnone, String.toList_append]
  exact List.append_nil _

theorem eq_of_intText_append
    {m n : Int} {rest others : String}
    (h : intText m ++ (", " ++ rest) = intText n ++ (", " ++ others)) : m = n := by
  apply intText_injective
  apply String.toList_inj.mp
  rw [← takeWhile_intText m rest, h, takeWhile_intText]

end Text

/-! ## Runs -/

namespace TransposeRun

/-- The lowest pitches of runs are above a bound if and only if all pitches are. -/
theorem le_low_splitFrom_iff
    (bound : Int) (index : Nat) (current : Option (TransposeRun × Int)) (items : List TiedItem) :
    (∀ run ∈ splitFrom index current items, bound ≤ run.low) ↔
      (∀ run high, current = some (run, high) → bound ≤ run.low) ∧
        ∀ item ∈ items, ∀ pitch, item.pitch? = some pitch → bound ≤ pitch := by
  fun_induction splitFrom index current items with
  | case1 => simp
  | case2 => simp
  | case3 index current item items hpitch ih =>
      rw [ih, List.forall_mem_cons, hpitch]
      simp
  | case4 index item items pitch hpitch ih =>
      rw [ih, List.forall_mem_cons, hpitch]
      simp
  | case5 index item items pitch run high hpitch newLow newHigh hwide ih =>
      rw [List.forall_mem_cons, ih, List.forall_mem_cons, hpitch]
      simp
  | case6 index item items pitch run high hpitch newLow newHigh hwide ih =>
      rw [ih, List.forall_mem_cons, hpitch]
      simp [newLow, and_assoc]

/-- Up to where the second run starts no pitch is below the first run. -/
theorem low_le_of_before
    {index : Nat} {current : Option (TransposeRun × Int)} {items : List TiedItem}
    {first : TransposeRun} {later : List TransposeRun}
    (h : splitFrom index current items = first :: later) :
    (∀ run high, current = some (run, high) → first.low ≤ run.low) ∧
      ∀ numbered ∈ items.zipIdx index, ∀ pitch, numbered.1.pitch? = some pitch →
        (∀ second ∈ later.head?, numbered.2 < second.start) → first.low ≤ pitch := by
  fun_induction splitFrom index current items with
  | case1 => cases h
  | case2 index run high =>
      cases h
      refine ⟨?_, nofun⟩
      rintro _ _ ⟨⟩
      exact Int.le_refl _
  | case3 index current item items hnone ih =>
      obtain ⟨hcurrent, hitems⟩ := ih h
      refine ⟨hcurrent, List.forall_mem_cons.mpr ⟨?_, hitems⟩⟩
      intro pitch hpitch
      rw [hnone] at hpitch
      cases hpitch
  | case4 index item items own hown ih =>
      obtain ⟨hcurrent, hitems⟩ := ih h
      refine ⟨nofun, List.forall_mem_cons.mpr ⟨?_, hitems⟩⟩
      intro pitch hpitch _
      cases hown.symm.trans hpitch
      exact hcurrent _ _ rfl
  | case5 index item items own run high hown newLow newHigh hwide ih =>
      obtain ⟨rfl, rfl⟩ := List.cons.inj h
      constructor
      · rintro _ _ ⟨⟩
        exact Int.le_refl _
      · -- the second run starts at this item, and the others are behind it
        intro numbered hmem pitch hpitch hbefore
        obtain ⟨second, rest, hsplit, hstart, -⟩ :=
          exists_splitFrom (index + 1) ⟨index, own⟩ own items
        have hless : numbered.2 < second.start := hbefore second (by rw [hsplit]; rfl)
        have hle : index ≤ numbered.2 := List.le_snd_of_mem_zipIdx hmem
        rw [hstart] at hless
        exact absurd hless (Nat.not_lt.mpr hle)
  | case6 index item items own run high hown newLow newHigh hwide ih =>
      obtain ⟨hcurrent, hitems⟩ := ih h
      have hlow : first.low ≤ min run.low own := hcurrent _ _ rfl
      obtain ⟨hrun, hitem⟩ := Int.le_min.mp hlow
      constructor
      · rintro _ _ ⟨⟩
        exact hrun
      · refine List.forall_mem_cons.mpr ⟨?_, hitems⟩
        intro pitch hpitch _
        cases hown.symm.trans hpitch
        exact hitem

end TransposeRun

namespace Pattern

variable {pattern : Pattern} {base : Int}

/-- The tied items before the second run. -/
def opening (pattern : Pattern) : List TiedItem :=
  match (TransposeRun.split pattern.tied).tail.head? with
  | some second => pattern.tied.take second.start
  | none => pattern.tied

theorem split_of_baseTranspose (hbase : pattern.baseTranspose = some base) :
    ∃ first later, TransposeRun.split pattern.tied = first :: later ∧ first.low = base := by
  obtain ⟨first, hfirst, hlow⟩ := Option.map_eq_some_iff.mp hbase
  obtain ⟨later, hsplit⟩ := List.head?_eq_some_iff.mp hfirst
  exact ⟨first, later, hsplit, hlow⟩

theorem exists_of_mem_opening {tied : TiedItem} (h : tied ∈ pattern.opening) :
    ∃ i, pattern.tied[i]? = some tied ∧
      ∀ second ∈ (TransposeRun.split pattern.tied).tail.head?, i < second.start := by
  obtain ⟨i, hi⟩ := List.mem_iff_getElem?.mp h
  refine ⟨i, ?_⟩
  rw [opening] at hi
  cases hsecond : (TransposeRun.split pattern.tied).tail.head? with
  | none =>
      rw [hsecond] at hi
      exact ⟨hi, nofun⟩
  | some second =>
      rw [hsecond, List.getElem?_take] at hi
      split at hi
      · next hless =>
          refine ⟨hi, ?_⟩
          rintro _ ⟨⟩
          exact hless
      · cases hi

theorem base_le_of_mem_opening
    (hbase : pattern.baseTranspose = some base) {tied : TiedItem} (hmem : tied ∈ pattern.opening)
    {pitch : Int} (hpitch : tied.pitch? = some pitch) : base ≤ pitch := by
  obtain ⟨first, later, hsplit, rfl⟩ := split_of_baseTranspose hbase
  obtain ⟨-, hitems⟩ := TransposeRun.low_le_of_before hsplit
  obtain ⟨i, hi, hbefore⟩ := exists_of_mem_opening hmem
  rw [hsplit, List.tail_cons] at hbefore
  have hnumbered : (tied, i) ∈ pattern.tied.zipIdx := List.mem_zipIdx_iff_getElem?.mpr hi
  exact hitems _ hnumbered pitch hpitch hbefore

/-- The pitches of a pattern are above a bound if and only if its base transposition and
its later runs are. -/
theorem le_pitch_iff (hbase : pattern.baseTranspose = some base) (bound : Int) :
    (∀ item ∈ pattern.items, ∀ pitch, item.pitch? = some pitch → bound ≤ pitch) ↔
      bound ≤ base ∧ ∀ run ∈ (TransposeRun.split pattern.tied).tail, bound ≤ run.low := by
  obtain ⟨first, later, hsplit, rfl⟩ := split_of_baseTranspose hbase
  have hruns : (∀ run ∈ TransposeRun.split pattern.tied, bound ≤ run.low) ↔ _ :=
    TransposeRun.le_low_splitFrom_iff bound 0 none pattern.tied
  rw [hsplit, List.forall_mem_cons] at hruns
  rw [hsplit, List.tail_cons, hruns]
  constructor
  · intro hitems
    refine ⟨nofun, fun tied hmem pitch hpitch => ?_⟩
    obtain ⟨item, hitem, hsame⟩ := (pitch?_tied_iff pitch).mp ⟨tied, hmem, hpitch⟩
    exact hitems item hitem pitch hsame
  · rintro ⟨-, htied⟩ item hmem pitch hpitch
    obtain ⟨tied, hitem, hsame⟩ := (pitch?_tied_iff pitch).mpr ⟨item, hmem, hpitch⟩
    exact htied tied hitem pitch hsame

end Pattern

/-! ## Lines -/

namespace Song

variable {song : Song} {score : Score} {pattern : Pattern} {event : ConductorEvent}
  {line : String}

/-- The line starts the pattern with the given name on the track at a transposition. -/
def LineStarts (line name : String) (track : Track) (start : Int) : Prop :=
  ∃ operand, line = "playPat" ++ track.suffix ++ " " ++ Pattern.labelOf name ++
    (", " ++ (Text.intText start ++ (", " ++ operand)))

/-- The line plays a single note on the track. -/
def LineSounds (line : String) (track : Track) (pitch : Int) : Prop :=
  ∃ operand, line = "noteOn" ++ track.suffix ++ " " ++ (Text.intText pitch ++ (", " ++ operand))

theorem LineStarts.linePlays
    {name : String} {track : Track} {start : Int} (h : LineStarts line name track start) :
    LinePlays line name track := by
  obtain ⟨operand, hline⟩ := h
  exact ⟨_, hline⟩

theorem LineStarts.start_eq
    {name : String} {track other : Track} {start otherStart : Int}
    (h : LineStarts line name track start) (hother : LineStarts line name other otherStart) :
    start = otherStart := by
  obtain rfl := h.linePlays.track_eq hother.linePlays
  obtain ⟨operand, rfl⟩ := h
  obtain ⟨others, heq⟩ := hother
  rw [String.append_right_inj, String.append_right_inj] at heq
  exact Text.eq_of_intText_append heq

theorem LineSounds.pitch_eq
    {track : Track} {pitch other : Int} (h : LineSounds line track pitch)
    (hother : LineSounds line track other) : pitch = other := by
  obtain ⟨operand, rfl⟩ := h
  obtain ⟨others, heq⟩ := hother
  rw [String.append_right_inj] at heq
  exact Text.eq_of_intText_append heq

/-- The line of an event starts a pitched pattern of the given base transposition. -/
structure StartsAt (song : Song) (score : Score) (event : ConductorEvent) (line : String)
    (pattern : Pattern) (base start : Int) : Prop where
  plays : song.Plays score pattern event
  baseTranspose : pattern.baseTranspose = some base
  lineStarts : ∃ track, track ≠ .drum ∧ LineStarts line pattern.name track start

/-- The line of an event has the engine play a pitch: that of a note of the pattern, as far
above the start as the note is above the base, or that of a single note. -/
inductive Tells (song : Song) (score : Score) : ConductorEvent → String → Int → Prop where
  | ofPattern {event : ConductorEvent} {line : String} {pattern : Pattern} {base start : Int}
      {item : PatternItem} {written : Int}
      (hstarts : song.StartsAt score event line pattern base start)
      (hitem : item ∈ pattern.items) (hwritten : item.pitch? = some written) :
      Tells song score event line (start + (written - base))
  | single {track : Track} {named : Int} {instrument : String} {place : Location}
      {line : String} {pitch : Int} (hsounds : LineSounds line track pitch) :
      Tells song score (.noteOn track named instrument place) line pitch

/-- The event asks for no pitch below the lowest note, behind the first run of a pattern or
by a single note. The transposition at which a pattern starts is a number of 32 bits. -/
def StaysAbove (song : Song) (score : Score) : ConductorEvent → Prop
  | .play name _ _ transpose _ =>
    ∀ pattern base, score.patterns.resolve? name song.name = some pattern →
      pattern.isDrum = false → pattern.baseTranspose = some base →
        ∀ run ∈ (TransposeRun.split pattern.tied).tail,
          0 ≤ Register.int32 (transpose + base) + (run.low - base)
  | .noteOn _ pitch _ _ => 0 ≤ pitch
  | _ => True

/-! ## What is told -/

section Playing

variable {name : String} {asked : Option Track} {instrument : Option String} {transpose : Int}
  {place : Location} {before after : Diagnostics}
  (hline : song.command score (.play name asked instrument transpose place) before =
    .ok line after)
include hline

/-- A pattern that is played is a drum pattern on the noise channel, or it is started at its
base transposition over the one that is asked for, which is not below the lowest note. -/
theorem lineStarts_of_command (hresolve : score.patterns.resolve? name song.name = some pattern) :
    (pattern.isDrum = true ∧ LinePlays line pattern.name .drum) ∨
      (pattern.isDrum = false ∧
        ∃ base track, pattern.baseTranspose = some base ∧
          0 ≤ Register.int32 (transpose + base) ∧ track ≠ .drum ∧
          LineStarts line pattern.name track (Register.int32 (transpose + base))) := by
  obtain ⟨found, hfound, hplay⟩ := playCommand_eq_ok hline
  cases hresolve.symm.trans hfound
  rcases hplay with ⟨hdrum, hline⟩ |
    ⟨hpitched, track, base, operand, hne, hbase, hstart, -, hline⟩
  · refine .inl ⟨hdrum, "", ?_⟩
    rw [hline, String.append_empty]
    rfl
  · refine .inr ⟨hpitched, base, track, hbase, hstart, hne, operand, ?_⟩
    rw [hline]
    simp only [String.append_assoc]
    rfl

theorem StartsAt.spec
    {base start : Int}
    (h : song.StartsAt score (.play name asked instrument transpose place) line pattern base
      start) :
    score.patterns.resolve? name song.name = some pattern ∧ pattern.isDrum = false ∧
      start = Register.int32 (transpose + base) ∧ 0 ≤ start := by
  obtain ⟨_, _, _, _, _, heq, hresolve⟩ := h.plays
  cases heq
  obtain ⟨track, hne, hstarts⟩ := h.lineStarts
  rcases lineStarts_of_command hline hresolve with
    ⟨-, hdrum⟩ | ⟨hpitched, own, other, hown, hstart, -, hother⟩
  · exact absurd (hstarts.linePlays.track_eq hdrum) hne
  · cases hown.symm.trans h.baseTranspose
    have heq : start = Register.int32 (transpose + base) := hstarts.start_eq hother
    exact ⟨hresolve, hpitched, heq, heq ▸ hstart⟩

theorem tells_play_nonneg_iff :
    (∀ pitch, song.Tells score (.play name asked instrument transpose place) line pitch →
        0 ≤ pitch) ↔
      song.StaysAbove score (.play name asked instrument transpose place) := by
  constructor
  · intro htells pattern base hresolve hpitched hbase
    rcases lineStarts_of_command hline hresolve with
      ⟨hdrum, -⟩ | ⟨-, own, track, hown, -, hne, hstarts⟩
    · rw [hpitched] at hdrum
      cases hdrum
    · cases hown.symm.trans hbase
      have hpitches : ∀ item ∈ pattern.items, ∀ written, item.pitch? = some written →
          base - Register.int32 (transpose + base) ≤ written := by
        intro item hitem written hwritten
        have hnonneg := htells _
          (.ofPattern ⟨⟨_, _, _, _, _, rfl, hresolve⟩, hbase, track, hne, hstarts⟩ hitem hwritten)
        omega
      obtain ⟨-, hruns⟩ := (Pattern.le_pitch_iff hbase _).mp hpitches
      intro run hrun
      have hlow := hruns run hrun
      omega
  · intro habove pitch htells
    cases htells with
    | @ofPattern _ _ pattern base start item written hstarts hitem hwritten =>
        obtain ⟨hresolve, hpitched, rfl, hstart⟩ := hstarts.spec hline
        have hbase := hstarts.baseTranspose
        have hruns : ∀ run ∈ (TransposeRun.split pattern.tied).tail,
            base - Register.int32 (transpose + base) ≤ run.low := by
          intro run hrun
          have hlow := habove pattern base hresolve hpitched hbase run hrun
          omega
        have hpitches := (Pattern.le_pitch_iff hbase _).mpr ⟨by omega, hruns⟩
        have hle := hpitches item hitem written hwritten
        omega

end Playing

theorem tells_noteOn_nonneg_iff
    {track : Track} {pitch : Int} {instrument : String} {place : Location}
    {before after : Diagnostics}
    (hline : song.command score (.noteOn track pitch instrument place) before =
      .ok line after) :
    (∀ told, song.Tells score (.noteOn track pitch instrument place) line told → 0 ≤ told) ↔
      0 ≤ pitch := by
  obtain ⟨found, -, hnote⟩ := noteOn_eq_ok hline
  have hsounds : LineSounds line track pitch := by
    refine ⟨Instrument.labelOf found.name, ?_⟩
    rw [hnote]
    simp only [String.append_assoc]
    rfl
  constructor
  · exact fun htells => htells pitch (.single hsounds)
  · intro hpitch told htells
    cases htells with
    | ofPattern hstarts =>
        obtain ⟨_, _, _, _, _, heq, -⟩ := hstarts.plays
        cases heq
    | single htold =>
        rw [htold.pitch_eq hsounds]
        exact hpitch

section Events

variable {before after : Diagnostics} (hline : song.command score event before = .ok line after)
include hline

/-- An event that is rendered has the engine play nothing below the lowest note if and only
if it stays above. -/
theorem tells_nonneg_iff :
    (∀ pitch, song.Tells score event line pitch → 0 ≤ pitch) ↔ song.StaysAbove score event := by
  cases event with
  | play => exact tells_play_nonneg_iff hline
  | noteOn => exact tells_noteOn_nonneg_iff hline
  | setTempo | setBeat | waitRows | stop | attackOn | segno | fine | dalSegno =>
      refine iff_of_true (fun pitch htells => ?_) trivial
      cases htells with
      | ofPattern hstarts =>
          obtain ⟨_, _, _, _, _, heq, -⟩ := hstarts.plays
          cases heq

/-- The notes of the first run are not below the lowest note. -/
theorem StartsAt.opening_nonneg
    {base start : Int} (h : song.StartsAt score event line pattern base start) :
    0 ≤ start ∧ ∀ tied ∈ pattern.opening, ∀ written, tied.pitch? = some written →
      0 ≤ start + (written - base) := by
  obtain ⟨name, asked, instrument, transpose, place, rfl, -⟩ := h.plays
  obtain ⟨-, -, -, hstart⟩ := h.spec hline
  refine ⟨hstart, fun tied hmem written hwritten => ?_⟩
  have hle := Pattern.base_le_of_mem_opening h.baseTranspose hmem hwritten
  omega

end Events

/-! ## What a song plays -/

/-- In a song that is rendered, each pitched pattern starts at the lowest note or above, and
so do the notes of its first run. All that the engine is told to play is at the lowest note
or above if and only if the later runs of the patterns and the single notes are. -/
theorem aboveLowest_iff_staysAbove
    {song : Song} {score : Score} {entry : Entry} {before after : Diagnostics}
    (h : song.entry score before = .ok entry after) :
    ∃ block, entry.data = some block ∧
      List.Forall₂
        (fun event line => ∀ pattern base start,
          song.StartsAt score event line pattern base start →
            0 ≤ start ∧ ∀ tied ∈ pattern.opening, ∀ written, tied.pitch? = some written →
              0 ≤ start + (written - base))
        song.events block.atoms ∧
      (List.Forall₂ (fun event line => ∀ pitch, song.Tells score event line pitch → 0 ≤ pitch)
          song.events block.atoms ↔
        ∀ event ∈ song.events, song.StaysAbove score event) := by
  obtain ⟨lines, _, hlines, hpure⟩ := bind_eq_ok h
  cases hpure
  have hcommands := forall₂_of_commands hlines
  refine ⟨_, rfl, hcommands.imp ?_, forall₂_iff_forall_mem hcommands ?_⟩
  · rintro event line ⟨before, after, hline⟩ pattern base start hstarts
    exact hstarts.opening_nonneg hline
  · rintro event line ⟨before, after, hline⟩
    exact tells_nonneg_iff hline

/-- The lines of a song, if it is rendered. -/
def renderedLines? (song : Song) (score : Score) : Option (List String) :=
  match song.entry score .empty with
  | .ok entry _ => entry.data.map (·.atoms)
  | .error _ _ => none

theorem exists_of_renderedLines?
    {song : Song} {score : Score} {lines : List String}
    (h : song.renderedLines? score = some lines) :
    ∃ entry block after, song.entry score .empty = .ok entry after ∧
      entry.data = some block ∧ block.atoms = lines := by
  unfold renderedLines? at h
  split at h
  · next entry after hrun =>
      obtain ⟨block, hblock, hatoms⟩ := Option.map_eq_some_iff.mp h
      exact ⟨entry, block, after, hrun, hblock, hatoms⟩
  · cases h

/-- A pattern on the first pulse channel with the given words. -/
def solo (words : List String) : Pattern :=
  Pattern.addEach words
    (Pattern.blank "solo" ⟨"score", 1⟩ (some .pulse1) (some "lead") .initial .initial)

/-- A score with the pattern and its instrument. -/
def soloScore (words : List String) : Score :=
  { Score.empty with
    instruments := ⟨[.blank "lead" ⟨"score", 2⟩]⟩
    patterns := ⟨[solo words]⟩ }

/-- A song that plays the pattern at a transposition, and a single note. -/
def recital (transpose note : Int) : Song :=
  ((Song.blank "recital" ⟨"score", 3⟩ .initial .initial).push
    (.play "solo" none none transpose ⟨"score", 4⟩)).push
    (.noteOn .pulse2 note "lead" ⟨"score", 5⟩)

/-- Behind a leap up of three octaves the second run is far above the lowest note, even when
the first run is put down to it. -/
theorem solo_aboveLowest :
    ∃ entry block after,
      (recital (-15) 0).entry (soloScore ["c4", "c'''4"]) .empty = .ok entry after ∧
      entry.data = some block ∧
      block.atoms = ["playPatSq1 PP_solo, 0, PI_lead", "noteOnSq2 0, PI_lead"] ∧
      List.Forall₂
        (fun event line => ∀ pitch,
          (recital (-15) 0).Tells (soloScore ["c4", "c'''4"]) event line pitch → 0 ≤ pitch)
        (recital (-15) 0).events block.atoms := by
  have hlines : (recital (-15) 0).renderedLines? (soloScore ["c4", "c'''4"]) =
      some ["playPatSq1 PP_solo, 0, PI_lead", "noteOnSq2 0, PI_lead"] := by
    decide +kernel
  have hevents : (recital (-15) 0).events =
      [.play "solo" none none (-15) ⟨"score", 4⟩, .noteOn .pulse2 0 "lead" ⟨"score", 5⟩] := rfl
  have hfound : (soloScore ["c4", "c'''4"]).patterns.resolve? "solo" (recital (-15) 0).name =
      some (solo ["c4", "c'''4"]) := by
    decide +kernel
  have hlowest : (solo ["c4", "c'''4"]).baseTranspose = some 15 := by
    decide +kernel
  have hruns : (TransposeRun.split (solo ["c4", "c'''4"]).tied).tail = [⟨1, 51⟩] := by
    decide +kernel
  obtain ⟨entry, block, after, hrun, hblock, hatoms⟩ := exists_of_renderedLines? hlines
  obtain ⟨found, hdata, -, hiff⟩ := aboveLowest_iff_staysAbove hrun
  cases hblock.symm.trans hdata
  refine ⟨entry, block, after, hrun, hblock, hatoms, hiff.mpr ?_⟩
  rw [hevents, List.forall_mem_cons, List.forall_mem_singleton]
  refine ⟨fun pattern base hresolve _ hbase => ?_, Int.le_refl 0⟩
  cases hresolve.symm.trans hfound
  cases hbase.symm.trans hlowest
  rw [hruns, List.forall_mem_singleton]
  decide

-- A start that needs more than 32 bits comes out at the other end.
example : (recital (-2147483648) 0).renderedLines? (soloScore ["c,,4", "c'''4"]) =
    some ["playPatSq1 PP_solo, 2147483639, PI_lead", "noteOnSq2 0, PI_lead"] := by
  decide +kernel

/-- Behind a leap down of three octaves the second run is below the lowest note, and the
song is rendered. -/
theorem solo_belowLowest :
    ∃ entry block after,
      (recital 0 15).entry (soloScore ["c4", "c,,,4"]) .empty = .ok entry after ∧
      entry.data = some block ∧
      ¬List.Forall₂
        (fun event line => ∀ pitch,
          (recital 0 15).Tells (soloScore ["c4", "c,,,4"]) event line pitch → 0 ≤ pitch)
        (recital 0 15).events block.atoms := by
  have hlines : (recital 0 15).renderedLines? (soloScore ["c4", "c,,,4"]) =
      some ["playPatSq1 PP_solo, 15, PI_lead", "noteOnSq2 15, PI_lead"] := by
    decide +kernel
  have hstarts : (recital 0 15).StartsAt (soloScore ["c4", "c,,,4"])
      (.play "solo" none none 0 ⟨"score", 4⟩) "playPatSq1 PP_solo, 15, PI_lead"
      (solo ["c4", "c,,,4"]) 15 15 :=
    { plays := ⟨_, _, _, _, _, rfl, by decide +kernel⟩
      baseTranspose := by decide +kernel
      lineStarts := ⟨.pulse1, by decide, "PI_lead", by decide +kernel⟩ }
  have hitem : .note (.pitch (-21)) 4 .none none ∈ (solo ["c4", "c,,,4"]).items := by
    decide +kernel
  obtain ⟨entry, block, after, hrun, hblock, hatoms⟩ := exists_of_renderedLines? hlines
  refine ⟨entry, block, after, hrun, hblock, fun hall => ?_⟩
  rw [hatoms] at hall
  cases hall with
  | cons hplay _ =>
      have hnonneg := hplay _ (.ofPattern hstarts hitem rfl)
      exact absurd hnonneg (by decide)

end Song

end Chiptune
