import Chiptune.Proofs.Pattern.Simulation
import Mathlib.Data.List.Chain

/-!
# Attacks and legato follow the slur marks

Every pitch and every drum of a pattern is struck once and in order, unless the note
directly before carries it on. An attack is played under legato exactly when the
note before it has its slur on, and legato is switched on and off by turns.
-/

namespace Chiptune

/-! ## Attacks of items -/

/-- What a note strikes. -/
def PatternNote.struck? : PatternNote → Option Sounding
  | pitch semitones => some (.pitch semitones)
  | drum name => some (.drum name)
  | rest | wait => none

namespace History

/-- The attack of an item, unless the item before carries it on. -/
def attack? (history : History) : PatternItem → Option Attack
  | .effect _ => none
  | .note note rows _ carried =>
    if history.absorbs note rows carried then none
    else note.struck?.map fun sounding => ⟨sounding, graceFrames rows, history.leadsOn⟩

/-- The attacks of items that stand behind a history. -/
def attacksFrom : History → List PatternItem → List Attack
  | _, [] => []
  | history, item :: items => (history.attack? item).toList ++ attacksFrom (item :: history) items

end History

/-- The attacks that the items of a pattern ask for. -/
def Pattern.attacks (pattern : Pattern) : List Attack :=
  History.attacksFrom [] pattern.items

@[simp] theorem Heard.attacks_append
    {ε : Type} (first second : List (Heard ε)) :
    attacks (first ++ second) = attacks first ++ attacks second :=
  List.filterMap_append

theorem Heard.attacks_replicate_row
    {ε : Type} (n : Nat) (sounding : Sounding) (chord : Option ChordCode) :
    attacks (List.replicate n (row sounding chord) : List (Heard ε)) = [] := by
  simp [attacks]

namespace History

theorem attacks_hear
    (isDrum : Bool) (history : History) {item : PatternItem} (hplayed : item.IsPlayed) :
    Heard.attacks (history.hear isDrum item) = (history.attack? item).toList := by
  cases item with
  | effect effect => rfl
  | note note rows slur carried =>
      have hrows : rows ≠ 0 := hplayed
      simp only [hear, Heard.attacks_append, Heard.attacks_replicate_row, List.append_nil,
        attack?]
      cases habsorbs : history.absorbs note rows carried with
      | true => simp [Heard.attacks]
      | false =>
          cases note <;>
            simp [Heard.attacks, PatternNote.isAttack, PatternNote.struck?, sounding, hrows]

/-- The attacks of a performance are those the items ask for. -/
theorem attacks_performance
    (isDrum : Bool) (history : History) {items : List PatternItem}
    (hplayed : ∀ item ∈ items, item.IsPlayed) :
    Heard.attacks ((player isDrum).performance history items) =
      attacksFrom history items := by
  induction items generalizing history with
  | nil => rfl
  | cons item items ih =>
      have hitem := hplayed item List.mem_cons_self
      have hlater := fun later hmem => hplayed later (List.mem_cons_of_mem item hmem)
      rw [Player.performance_cons, Heard.attacks_append, ih _ hlater]
      exact congrArg (· ++ _) (attacks_hear isDrum history hitem)

end History

/-! ## Switching legato -/

/-- What a code switches legato to. -/
def PatternCode.legatoSwitch? : PatternCode → Option Bool
  | legatoOn => some true
  | legatoOff => some false
  | _ => none

theorem Engine.step_legato
    (engine : Engine) (code : PatternCode) :
    (engine.step code).legato = code.legatoSwitch?.getD engine.legato := by
  cases code <;> rfl

/-- Codes that take legato from one state to another and only ever switch it to the
state it is not in. -/
inductive LegatoPath : Bool → List PatternCode → Bool → Prop where
  | done (legato : Bool) : LegatoPath legato [] legato
  | quiet {first last : Bool} {code : PatternCode} {codes : List PatternCode}
      (hcode : code.legatoSwitch? = none) (h : LegatoPath first codes last) :
      LegatoPath first (code :: codes) last
  | switch {first last : Bool} {code : PatternCode} {codes : List PatternCode}
      (hcode : code.legatoSwitch? = some (!first)) (h : LegatoPath (!first) codes last) :
      LegatoPath first (code :: codes) last

namespace LegatoPath

theorem append
    {first middle last : Bool} {codes later : List PatternCode}
    (h : LegatoPath first codes middle) (hlater : LegatoPath middle later last) :
    LegatoPath first (codes ++ later) last := by
  induction h with
  | done legato => exact hlater
  | quiet hcode _ ih => exact .quiet hcode (ih hlater)
  | switch hcode _ ih => exact .switch hcode (ih hlater)

theorem of_quiet
    {codes : List PatternCode} (legato : Bool)
    (hquiet : ∀ code ∈ codes, code.legatoSwitch? = none) :
    LegatoPath legato codes legato := by
  induction codes with
  | nil => exact .done legato
  | cons code codes ih =>
      refine .quiet (hquiet code List.mem_cons_self) (ih ?_)
      intro later hmem
      exact hquiet later (List.mem_cons_of_mem code hmem)

theorem isChain
    {first last : Bool} {codes : List PatternCode} (h : LegatoPath first codes last) :
    List.IsChain (· ≠ ·) (first :: codes.filterMap PatternCode.legatoSwitch?) := by
  induction h with
  | done legato => exact List.isChain_singleton legato
  | quiet hcode _ ih => rwa [List.filterMap_cons_none hcode]
  | @switch first _ _ _ hcode _ ih =>
      rw [List.filterMap_cons_some hcode]
      refine List.isChain_cons_cons.mpr ⟨?_, ih⟩
      cases first <;> decide

variable {orchestra : Orchestra} {scope : String}

theorem of_beginRun
    (encoder : Encoder) (index : Nat) :
    LegatoPath encoder.legato (encoder.beginRun index).1
      (encoder.beginRun index).2.legato := by
  unfold Encoder.beginRun
  split
  · split
    · exact .quiet rfl (.done _)
    · exact .done _
  · exact .done _

theorem of_beginNote
    (encoder : Encoder) (note : PatternNote) (slurred : Bool) :
    LegatoPath encoder.legato (encoder.beginNote note slurred).1
      (encoder.beginNote note slurred).2.legato := by
  unfold Encoder.beginNote
  split
  · next hswitch =>
      simp only [Bool.and_eq_true, bne_iff_ne, ne_eq] at hswitch
      have hopposite : encoder.slurred = !encoder.legato := by
        cases hslurred : encoder.slurred <;> cases hlegato : encoder.legato <;>
          simp_all
      simp only [hopposite]
      refine .switch ?_ (.done _)
      cases encoder.legato <;> rfl
  · exact .done _

theorem lasting_quiet
    (sound : Sound) (rows : Int) :
    ∀ code ∈ Orchestra.lasting sound rows, code.legatoSwitch? = none := by
  intro code hmem
  rcases Orchestra.mem_lasting hmem with ⟨_, rfl⟩ | ⟨_, _, rfl⟩
  · rfl
  · rfl

theorem legatoSwitch?_of_isEffect
    {code : PatternCode} (hcode : code.isEffect = true) :
    code.legatoSwitch? = none := by
  cases code <;> first | rfl | cases hcode

theorem of_encodeItem
    {encoder next : Encoder} {item : TiedItem} {codes : List PatternCode}
    (hitem : orchestra.encodeItem scope encoder item = .ok (codes, next)) :
    LegatoPath encoder.legato codes next.legato := by
  cases item with
  | arpeggio code =>
      cases hitem
      exact .quiet rfl (.done _)
  | effect effect =>
      obtain ⟨code, hcode, rfl, rfl⟩ := Orchestra.encodeItem_effect hitem
      exact .quiet (legatoSwitch?_of_isEffect (Orchestra.isEffect_of_effectCode hcode))
        (.done _)
  | note note rows slurred =>
      obtain ⟨sound, hsound, rfl, rfl⟩ := Orchestra.encodeItem_note hitem
      exact (of_beginNote encoder note slurred).append
        (of_quiet _ (lasting_quiet sound rows))

theorem of_encodeFrom
    {index : Nat} {encoder final : Encoder} {items : List TiedItem}
    {codes : List PatternCode}
    (hitems : orchestra.encodeFrom scope index encoder items = .ok (codes, final)) :
    LegatoPath encoder.legato codes final.legato := by
  induction items generalizing index encoder codes with
  | nil =>
      cases hitems
      exact .done _
  | cons item items ih =>
      obtain ⟨itemCodes, next, later, hitem, hlater, rfl⟩ :=
        Orchestra.encodeFrom_cons hitems
      exact ((of_beginRun encoder index).append (of_encodeItem hitem)).append (ih hlater)

/-- The closing codes of a pattern that stops switch legato off before they end it. -/
theorem of_closing_stop
    {pattern : Pattern} (hfall : pattern.fallthrough = false)
    (base : Int) (encoder : Encoder) :
    ∃ before, pattern.closing base encoder = before ++ [.patternEnd] ∧
      LegatoPath encoder.legato before false := by
  have htranspose : LegatoPath encoder.legato
      (if encoder.transpose = base then [] else [.transpose (base - encoder.transpose)])
      encoder.legato := by
    split
    · exact .done _
    · exact .quiet rfl (.done _)
  have hoff : LegatoPath encoder.legato (if encoder.legato then [.legatoOff] else [])
      false := by
    cases encoder.legato with
    | true => exact .switch rfl (.done _)
    | false => exact .done _
  refine ⟨_, ?_, htranspose.append hoff⟩
  simp [Pattern.closing, hfall]

theorem of_closing
    (pattern : Pattern) (base : Int) (encoder : Encoder) :
    LegatoPath encoder.legato (pattern.closing base encoder)
      (pattern.fallthrough && encoder.legato) := by
  cases hfall : pattern.fallthrough with
  | false =>
      obtain ⟨before, hclosing, hpath⟩ := of_closing_stop hfall base encoder
      rw [hclosing]
      exact hpath.append (.quiet rfl (.done _))
  | true =>
      simp only [Pattern.closing, hfall, if_true, List.append_nil, Bool.true_and]
      split
      · exact .done _
      · exact .quiet rfl (.done _)

/-- The engine follows the path. -/
theorem run_legato
    {first last : Bool} {codes : List PatternCode} (h : LegatoPath first codes last)
    {engine : Engine} (hfirst : engine.legato = first) :
    (engine.run codes).legato = last := by
  induction h generalizing engine with
  | done legato => exact hfirst
  | quiet hcode _ ih =>
      apply ih
      rw [← hfirst]
      exact (engine.step_legato _).trans (by rw [hcode]; rfl)
  | switch hcode _ ih =>
      apply ih
      exact (engine.step_legato _).trans (by rw [hcode]; rfl)

end LegatoPath

namespace Orchestra

/-- The attack that the engine makes of an attack of a pattern. -/
structure StrikesAs (orchestra : Orchestra) (scope : String) (shift : Int)
    (written played : Attack) : Prop where
  soundsAs : orchestra.SoundsAs scope shift written.sounding played.sounding
  grace_eq : played.grace = written.grace
  legato_eq : played.legato = written.legato

end Orchestra

namespace Pattern

/-- Without fallthrough the last code ends the pattern, and legato is off there. -/
theorem legato_off_at_end
    {pattern : Pattern} {orchestra : Orchestra} {codes : List PatternCode}
    (hencode : pattern.encode orchestra = .ok codes)
    (hfall : pattern.fallthrough = false) (shift : Int) :
    ∃ played, codes = played ++ [.patternEnd] ∧
      ((Engine.start (pattern.baseTranspose.getD 0 + shift)).run played).legato = false := by
  obtain ⟨body, final, hbody, rfl⟩ := encode_eq_ok hencode
  obtain ⟨before, hclosing, hpath⟩ :=
    LegatoPath.of_closing_stop hfall pattern.startEncoder.transpose final
  refine ⟨body ++ before, ?_, ?_⟩
  · rw [hclosing, List.append_assoc]
  · exact ((LegatoPath.of_encodeFrom hbody).append hpath).run_legato rfl

/-- The codes of a pattern strike what its items ask for, under legato exactly where
they ask for it; legato is switched by turns, and is off at the end of a pattern that
does not go on into the next. -/
theorem attacks_encode
    {pattern : Pattern} {orchestra : Orchestra} {codes : List PatternCode}
    (hbuilt : pattern.Built) (hencode : pattern.encode orchestra = .ok codes)
    (shift : Int) :
    let engine := Engine.start (pattern.baseTranspose.getD 0 + shift)
    List.Forall₂ (orchestra.StrikesAs pattern.name shift) pattern.attacks
        (Heard.attacks (engine.performance codes)) ∧
      List.IsChain (· ≠ ·) (false :: codes.filterMap PatternCode.legatoSwitch?) ∧
      (pattern.fallthrough = false →
        ∃ played, codes = played ++ [.patternEnd] ∧
          (engine.run played).legato = false) := by
  intro engine
  have hattacks : Heard.attacks pattern.performance = pattern.attacks :=
    History.attacks_performance pattern.isDrum [] hbuilt.timed.isPlayed
  refine ⟨?_, ?_, fun hfall => legato_off_at_end hencode hfall shift⟩
  · rw [← hattacks]
    refine List.rel_filterMap ?_ (performance_encode hencode shift).1
    intro written played hheard
    cases hheard with
    | attack grace legato chord hsounds => exact .some ⟨hsounds, rfl, rfl⟩
    | row => exact .none
    | effect => exact .none
  · obtain ⟨body, final, hbody, rfl⟩ := encode_eq_ok hencode
    exact ((LegatoPath.of_encodeFrom hbody).append (LegatoPath.of_closing _ _ _)).isChain

/-- The fanfare where it is written. -/
theorem attacks_encode_fanfare :
    fanfare.Built ∧ fanfare.encode ⟨.empty, .empty⟩ = .ok fanfareCodes ∧
      List.Forall₂ (Orchestra.StrikesAs ⟨.empty, .empty⟩ "fanfare" 0) fanfare.attacks
        (Heard.attacks ((Engine.start (-9)).performance fanfareCodes)) ∧
      List.IsChain (· ≠ ·) (false :: fanfareCodes.filterMap PatternCode.legatoSwitch?) ∧
      (fanfare.fallthrough = false →
        ∃ played, fanfareCodes = played ++ [.patternEnd] ∧
          ((Engine.start (-9)).run played).legato = false) :=
  ⟨built_fanfare, encode_fanfare, attacks_encode built_fanfare encode_fanfare 0⟩

end Pattern

end Chiptune
