import Chiptune.Proofs.Reader.Inclusion
import Chiptune.Proofs.Rendering

/-!
# Independent songs

A block is the lines of one song, from the line that begins it to the line that ends it.
It sees what was set at top level and changes none of it. So each of two blocks is read
alike before and behind the other, and what they define does not depend on their order.
-/

namespace Chiptune

open Step

namespace Reader

/-- The lines of one song without inclusions. -/
def IsBlock (lines : List (List String)) : Prop :=
  ∃ arguments inside last, lines = ("song" :: arguments) :: (inside ++ [last]) ∧
    (∀ words ∈ inside, commandKeyword? words ≠ some .ending) ∧
    commandKeyword? last = some .ending ∧ ∀ words ∈ lines, includedFile? words = none

/-! ## What is outside a block -/

/-- The reader is inside a song that began where `start` was. -/
structure InSong (start reader : Reader) : Prop where
  order : reader.InOrder
  outside : SameOutside start reader
  isOpen : reader.scope.song.isSome

theorem InSong.moves
    {start reader later : Reader} (h : InSong start reader) (hmoves : Moves reader later) :
    InSong start later := by
  obtain ⟨hsame, hscope⟩ := h.order.sameOutside_moves h.isOpen hmoves
  exact ⟨h.order.travels hmoves.turns.travels, trans_of SameOutside h.outside hsame,
    hscope ▸ h.isOpen⟩

theorem InSong.goTo
    {start reader : Reader} (h : InSong start reader) (here : Location) :
    InSong start { reader with here := here } :=
  ⟨{ h.order with }, ⟨h.outside.pitch, h.outside.meter, h.outside.outermost, h.outside.album⟩,
    h.isOpen⟩

theorem inSong_of_defineSong
    {arguments : List String} {reader later : Reader} (horder : reader.InOrder)
    (hrun : defineSong arguments reader = .ok () later) :
    reader.scope.song = none ∧ InSong reader later := by
  have hleads : Leads Edits (defineSong arguments) reader := defineSong_leads arguments
  rw [Leads, hrun] at hleads
  obtain ⟨name, -, hdefine⟩ := outcome_bind_eq_ok (advance_eq_ok hrun)
  split at hdefine
  · cases hdefine
  · obtain ⟨⟨index, songs⟩, -, hopen⟩ := outcome_bind_eq_ok hdefine
    obtain ⟨scope, hscope, hnext⟩ := outcome_bind_eq_ok hopen
    cases hnext
    unfold Scope.openSong at hscope
    split at hscope
    · cases hscope
    · next hclosed =>
        cases hscope
        have hlayer := ChordBook.layer_nest reader.chords reader.pitch.lineage 0
        exact ⟨hclosed, horder.travels (Edits.moves hleads).turns.travels,
          ⟨rfl, rfl, hlayer, rfl⟩, rfl⟩

/-- What one statement of a list does. -/
theorem statements_cons_eq_ok
    {onInclude : String → Reading Unit} {statement : Statement} {rest : List Statement}
    {reader later : Reader}
    (h : statements onInclude (statement :: rest) reader = .ok () later) :
    ∃ next,
      dispatch onInclude statement.words { reader with here := statement.place } =
        .ok () next ∧ statements onInclude rest next = .ok () later := by
  obtain ⟨_, next, hnext, hrest⟩ := bind_eq_ok (get_bind_eq_ok (modify_bind_eq_ok h))
  exact ⟨next, adaptExcept_eq_ok hnext, hrest⟩

section Blocks

variable {onInclude : String → Reading Unit}

/-- The statements inside a block stay in its song. -/
theorem InSong.statements
    {start reader later : Reader} (h : InSong start reader) {list : List Statement}
    (hinside : ∀ statement ∈ list, commandKeyword? statement.words ≠ some .ending)
    (hnothing : ∀ statement ∈ list, includedFile? statement.words = none)
    (hrun : statements onInclude list reader = .ok () later) : InSong start later := by
  induction list generalizing reader with
  | nil =>
      cases hrun
      exact h
  | cons statement rest ih =>
      obtain ⟨next, hnext, hrest⟩ := statements_cons_eq_ok hrun
      have hleads : Leads Moves (dispatch onInclude statement.words)
          { reader with here := statement.place } := by
        apply dispatch_leads
        · exact fun _ _ hmoves => hmoves
        · exact fun hending => absurd hending (hinside statement List.mem_cons_self)
        · intro file hfile
          rw [hnothing statement List.mem_cons_self] at hfile
          cases hfile
      rw [Leads, hnext] at hleads
      refine ih ((h.goTo statement.place).moves hleads) ?_ ?_ hrest
      · exact fun other hother => hinside other (List.mem_cons_of_mem _ hother)
      · exact fun other hother => hnothing other (List.mem_cons_of_mem _ hother)

/-- A line that ends a song comes to the ending by moves. -/
theorem dispatch_of_ending
    {words : List String} (hending : commandKeyword? words = some .ending)
    {reader later : Reader} (hrun : dispatch onInclude words reader = .ok () later) :
    ∃ between word arguments, Moves reader between ∧
      endSong word arguments between = .ok () later := by
  fun_induction dispatch onInclude words generalizing reader with
  | case1 => cases hending
  | case2 word arguments hdefinition =>
      unfold commandKeyword? at hending
      rw [if_pos hdefinition] at hending
      cases hending
  | case3 word arguments hdefinition hkeyword =>
      unfold commandKeyword? at hending
      rw [if_neg hdefinition, hkeyword] at hending
      cases hending
  | case4 word arguments hdefinition keyword hkeyword ih =>
      have hclosed := (edits_closeFor keyword reader).moves
      have hcommand := modify_bind_eq_ok (get_bind_eq_ok hrun)
      split at hcommand
      · next target command =>
          rw [commandKeyword?_of_wait hdefinition hkeyword] at hending
          obtain ⟨_, waited, hwait, hrest⟩ := bind_eq_ok hcommand
          have hleads : Leads Edits (waitUntil target) (closeFor .position reader) :=
            waitUntil_leads target
          rw [Leads, adaptExcept_eq_ok hwait] at hleads
          obtain ⟨between, word, arguments, hmoves, hend⟩ := ih hending hrest
          exact ⟨between, word, arguments, (hclosed.trans (Edits.moves hleads)).trans hmoves, hend⟩
      · next file more =>
          rw [commandKeyword?_of_not_wait hdefinition hkeyword (fun _ _ h => by cases h)] at hending
          cases hending
      · next hwait _ =>
          rw [commandKeyword?_of_not_wait hdefinition hkeyword hwait] at hending
          cases hending
          exact ⟨_, word, word :: arguments, hclosed, adaptExcept_eq_ok hcommand⟩

/-- The ending of a song leaves the block. -/
theorem InSong.endSong
    {start reader later : Reader} (h : InSong start reader) {keyword : String}
    {words : List String} (hrun : endSong keyword words reader = .ok () later) :
    later.InOrder ∧ SameOutside start later ∧ later.scope = .topLevel := by
  rcases endSong_cases keyword words reader with
    ⟨fault, hfails⟩ | ⟨index, song, done, ending, hopen, hat, hfinish, hends⟩
  · cases hfails.symm.trans hrun
  · cases hends.symm.trans hrun
    have houtside := h.outside
    exact ⟨h.order.turn (.endSong hopen hat hfinish),
      ⟨houtside.pitch, houtside.meter, houtside.outermost, houtside.album⟩, rfl⟩

theorem dispatch_song
    (arguments : List String) (reader : Reader) :
    dispatch onInclude ("song" :: arguments) reader =
      unlocated (defineSong arguments) { reader with scope := reader.scope.closeObject } :=
  rfl

/-- The first line of a block begins a song outside every song. -/
theorem inSong_of_dispatch
    {statement : Statement} {arguments : List String}
    (hwords : statement.words = "song" :: arguments) {reader opened : Reader}
    (horder : reader.InOrder)
    (hrun : dispatch onInclude statement.words { reader with here := statement.place } =
      .ok () opened) :
    reader.scope.song = none ∧ InSong reader opened := by
  rw [hwords, dispatch_song] at hrun
  have hplaced :=
    horder.travel (.goTo reader statement.place reader.inclusions reader.directories)
  obtain ⟨hclosed, hsong⟩ :=
    inSong_of_defineSong (hplaced.edit (.closeObject _)) (adaptExcept_eq_ok hrun)
  have houtside := hsong.outside
  exact ⟨hclosed, hsong.order,
    ⟨houtside.pitch, houtside.meter, houtside.outermost, houtside.album⟩, hsong.isOpen⟩

/-- A block changes nothing outside it and ends at top level. -/
theorem IsBlock.sealed
    {list : List Statement} (hblock : IsBlock (list.map (·.words))) {reader later : Reader}
    (horder : reader.InOrder) (hrun : statements onInclude list reader = .ok () later) :
    later.InOrder ∧ SameOutside reader later ∧ later.scope = .topLevel := by
  obtain ⟨arguments, inside, last, hlines, hinside, hlast, hnothing⟩ := hblock
  obtain ⟨first, rest, rfl, hfirst, hrest⟩ := List.map_eq_cons_iff.mp hlines
  obtain ⟨middle, ending, rfl, rfl, hending⟩ := List.map_eq_append_iff.mp hrest
  obtain ⟨final, _, rfl, rfl, hnil⟩ := List.map_eq_cons_iff.mp hending
  obtain rfl := List.map_eq_nil_iff.mp hnil
  obtain ⟨opened, hopened, hmiddle⟩ := statements_cons_eq_ok hrun
  obtain ⟨-, hstart⟩ := inSong_of_dispatch hfirst horder hopened
  rw [statements_append] at hmiddle
  obtain ⟨_, inner, hinner, hfinal⟩ := bind_eq_ok hmiddle
  have hinnermost : InSong reader inner := by
    refine hstart.statements ?_ ?_ hinner
    · intro statement hstatement
      exact hinside _ (List.mem_map_of_mem hstatement)
    · intro statement hstatement
      exact hnothing _ (List.mem_map_of_mem (by simp [hstatement]))
  obtain ⟨closed, hclosed, hdone⟩ := statements_cons_eq_ok hfinal
  cases hdone
  obtain ⟨between, word, arguments, hmoves, hend⟩ := dispatch_of_ending hlast hclosed
  exact ((hinnermost.goTo final.place).moves hmoves).endSong hend

/-- The reader outside every song and object. -/
def atTop (reader : Reader) : Reader := { reader with scope := .topLevel }

/-- A block is read from top level, and the object that is open before is closed. -/
theorem IsBlock.closed
    {list : List Statement} (hblock : IsBlock (list.map (·.words))) {reader later : Reader}
    (horder : reader.InOrder) (hrun : statements onInclude list reader = .ok () later) :
    statements onInclude list reader.atTop = .ok () later := by
  obtain ⟨arguments, inside, last, hlines, -⟩ := hblock
  obtain ⟨first, rest, rfl, hfirst, -⟩ := List.map_eq_cons_iff.mp hlines
  obtain ⟨opened, hopened, -⟩ := statements_cons_eq_ok hrun
  obtain ⟨hclosed, -⟩ := inSong_of_dispatch hfirst horder hopened
  -- no song is open, so closing the open object comes out at top level
  have hscope : reader.scope.closeObject = Scope.topLevel := by
    rw [Scope.closeObject, hclosed]
    rfl
  have hsame : dispatch onInclude first.words
        { reader with here := first.place, scope := .topLevel } =
      dispatch onInclude first.words { reader with here := first.place } := by
    rw [hfirst, dispatch_song, dispatch_song, hscope]
    rfl
  rw [← hrun]
  change EStateM.bind (EStateM.adaptExcept _ (dispatch onInclude first.words)) _
      { reader with here := first.place, scope := .topLevel } =
    EStateM.bind (EStateM.adaptExcept _ (dispatch onInclude first.words)) _
      { reader with here := first.place }
  unfold EStateM.bind EStateM.adaptExcept
  rw [hsame]
  rfl

end Blocks

end Reader

/-! ## What scores hold -/

/-- The entities of a score without places, and the resume point. -/
structure Holdings where
  sfx : List SoundEffect
  instruments : List Instrument
  drums : List Drum
  patterns : List Pattern
  songs : List Song
  resume : Option ResumePoint

/-- What is held first and what is held behind it. The first resume point counts. -/
def Holdings.append (first second : Holdings) : Holdings :=
  { sfx := first.sfx ++ second.sfx
    instruments := first.instruments ++ second.instruments
    drums := first.drums ++ second.drums
    patterns := first.patterns ++ second.patterns
    songs := first.songs ++ second.songs
    resume := first.resume.or second.resume }

namespace Score

/-- What a score holds, in order. -/
def holdings (score : Score) : Holdings :=
  { sfx := score.sfx.entries.map SoundEffect.bare
    instruments := score.instruments.entries.map Instrument.bare
    drums := score.drums.entries.map Drum.bare
    patterns := score.patterns.entries.map Pattern.bare
    songs := score.songs.entries.map Song.bare
    resume := score.resume.value? }

section Fits

variable {frame : Frame} {reader own : Reader} (h : frame.Fits reader own)
include h

/-- In a frame a reader holds what was there before and then its own. -/
theorem holdings_of_fits :
    reader.score.holdings = frame.before.holdings.append own.score.holdings := by
  have hresume : (frame.resume own.score.resume).value? =
      frame.before.resume.value?.or own.score.resume.value? := by
    unfold Frame.resume
    cases hset : frame.before.resume.given with
    | none => simp [Field.isSet, hset, Frame.field, Field.value?, Function.comp_def]
    | some given => simp [Field.isSet, hset, Field.value?]
  rw [h.score]
  simp [holdings, Holdings.append, Frame.score, Registry.behind, frame.bare_effect,
    frame.bare_instrument, frame.bare_drum, frame.bare_pattern, frame.bare_song, hresume]

theorem resume_of_fits (hset : frame.before.holdings.resume.isSome) :
    own.score.holdings.resume = none := by
  have hunset := h.resume (by simpa [holdings, Field.value?, Field.isSet] using hset)
  simpa [holdings, Field.value?, Field.isSet] using hunset

end Fits

theorem perm_swap {α : Type} (before first second : List α) :
    (before ++ first ++ second).Perm (before ++ second ++ first) := by
  rw [List.append_assoc, List.append_assoc]
  exact List.perm_append_comm.append_left before

/-- What is read in two orders is alike if neither order sets a second resume point. -/
theorem alike_of_holdings
    {whole whole' : Score} {start first second : Holdings}
    (h : whole.holdings = (start.append first).append second)
    (h' : whole'.holdings = (start.append second).append first)
    (honce : (start.append first).resume.isSome → second.resume = none)
    (honce' : (start.append second).resume.isSome → first.resume = none)
    (halbum : whole.album = whole'.album) : whole.Alike whole' := by
  have hperm : ∀ {α : Type} (part : Holdings → List α),
      (∀ first second, part (first.append second) = part first ++ part second) →
        (part whole.holdings).Perm (part whole'.holdings) := by
    intro α part hpart
    rw [h, h', hpart, hpart, hpart, hpart]
    exact perm_swap _ _ _
  have hresume : whole.holdings.resume = whole'.holdings.resume := by
    rw [h, h']
    revert honce honce'
    simp only [Holdings.append]
    cases start.resume with
    | some point => simp
    | none => cases first.resume <;> cases second.resume <;> simp
  exact ⟨hperm Holdings.sfx fun _ _ => rfl, hperm Holdings.instruments fun _ _ => rfl,
    hperm Holdings.drums fun _ _ => rfl, hperm Holdings.patterns fun _ _ => rfl,
    hperm Holdings.songs fun _ _ => rfl, congrArg _ halbum, hresume⟩

end Score

/-! ## Blocks on their own -/

namespace Reader

/-- What a block sees of the reader: the settings at top level, and nothing defined. -/
def alone (reader : Reader) : Reader :=
  { reader with
    score := { Score.empty with album := Frame.erasing.album reader.score.album }
    scope := .topLevel
    chords := ⟨reader.chords.layers.take 1⟩
    diagnostics := .empty
    here := default }

/-- The frame around what is read behind the reader. -/
def surroundings (reader : Reader) : Frame :=
  ⟨id, reader.score, reader.chords.layers.drop 1, True, fun h => (h trivial).elim⟩

theorem take_one_of_layer
    {book other : ChordBook} (hbook : book.layers ≠ []) (hother : other.layers ≠ [])
    (h : book.layer 0 = other.layer 0) : book.layers.take 1 = other.layers.take 1 := by
  obtain ⟨outermost, inner, hlayers⟩ := List.exists_cons_of_ne_nil hbook
  obtain ⟨outermost', inner', hlayers'⟩ := List.exists_cons_of_ne_nil hother
  simpa [ChordBook.layer, hlayers, hlayers'] using h

/-- With nothing of its own the score in the surroundings is the one before. -/
theorem score_surroundings (reader : Reader) :
    reader.surroundings.score { Score.empty with album := reader.score.album } =
      reader.score := by
  have hfield : ∀ {α : Type} (field : Field α), reader.surroundings.field field = field := by
    intro α field
    rcases field with ⟨_ | ⟨value, place⟩⟩ <;> rfl
  have hresume : reader.surroundings.resume .unset = reader.score.resume := by
    rcases hgiven : reader.score.resume with ⟨_ | given⟩
    · simp [Frame.resume, surroundings, hgiven, Field.isSet, Frame.field, Field.unset]
    · simp [Frame.resume, surroundings, hgiven, Field.isSet]
  simp only [Frame.score, Frame.album, hfield, Score.empty, hresume]
  simp [Registry.behind, Registry.empty, surroundings]

/-- A reader without places at top level surrounds what a block sees. -/
theorem fits_alone
    {start reader : Reader} (hstart : start.InOrder) (horder : reader.InOrder)
    (hsame : SameOutside start reader) :
    reader.atTop.erased.surroundings.Fits reader.atTop.erased start.alone := by
  have htake := take_one_of_layer horder.layers hstart.layers hsame.outermost
  have hlayers : start.chords.layers.take 1 ≠ [] := by
    simpa using hstart.layers
  refine ⟨?_, rfl, ?_, hsame.meter, ?_, rfl, hlayers, fun _ => rfl, fun h => (h trivial).elim⟩
  · have hscore := score_surroundings reader.atTop.erased
    have halbum : Frame.erasing.album reader.score.album =
        Frame.erasing.album start.score.album := by rw [hsame.album]
    rw [← hscore]
    exact congrArg (fun album => reader.atTop.erased.surroundings.score
      { Score.empty with album := album }) halbum
  · change reader.pitch = Frame.pitch _ start.pitch
    rw [show reader.pitch = start.pitch from hsame.pitch, Frame.pitch, Frame.lineage,
      hstart.root]
    exact congrArg (fun lineage => { start.pitch with lineage := lineage }) hstart.root
  · change reader.chords = ⟨(start.chords.layers.take 1).take 1 ++
      reader.chords.layers.drop 1 ++ (start.chords.layers.take 1).drop 1⟩
    obtain ⟨outermost, inner, hlayers'⟩ := List.exists_cons_of_ne_nil horder.layers
    rw [← htake]
    exact congrArg ChordBook.mk (by simp [hlayers'])

/-- A block adds to what is there what it defines on its own. -/
theorem IsBlock.holdings
    {onInclude : String → Reading Unit} {list : List Statement}
    (hblock : IsBlock (list.map (·.words))) {start reader later : Reader}
    (hstart : start.InOrder) (horder : reader.InOrder) (hsame : SameOutside start reader)
    (hrun : statements onInclude list reader = .ok () later) :
    ∃ own, statements onInclude (list.map Frame.erasing.statement) start.alone = .ok () own ∧
      later.score.holdings = reader.score.holdings.append own.score.holdings ∧
      (reader.score.holdings.resume.isSome → own.score.holdings.resume = none) := by
  have hnothing : ∀ statement ∈ list, includedFile? statement.words = none := by
    obtain ⟨-, -, -, -, -, -, hnothing⟩ := hblock
    exact fun statement hstatement => hnothing _ (List.mem_map_of_mem hstatement)
  -- first the places are erased, then the block is taken out of its surroundings
  have hfits := fits_erased reader.atTop horder.layers
  have herasing : Lockstep False (statements onInclude (list.map Frame.erasing.statement))
      (statements onInclude list) reader.atTop.erased reader.atTop Frame.erasing.Follows :=
    hfits.statements list hnothing
  obtain ⟨_, erased, herased, -, hlater⟩ := herasing.ok_left (hblock.closed horder hrun)
  have hplaces : (list.map Frame.erasing.statement).map
      reader.atTop.erased.surroundings.statement = list.map Frame.erasing.statement := by
    rw [List.map_map]
    rfl
  have hbehind : Lockstep True (statements onInclude (list.map Frame.erasing.statement))
      (statements onInclude (list.map Frame.erasing.statement)) reader.atTop.erased
      start.alone reader.atTop.erased.surroundings.Follows := by
    have hstatements : Lockstep True
        (statements onInclude ((list.map Frame.erasing.statement).map
          reader.atTop.erased.surroundings.statement))
        (statements onInclude (list.map Frame.erasing.statement)) _ _ _ :=
      (fits_alone hstart horder hsame).statements (list.map Frame.erasing.statement)
        (by simpa [Frame.statement] using hnothing)
    rwa [hplaces] at hstatements
  obtain ⟨_, own, hown, -, halone⟩ := hbehind.ok_right herased
  have hreader : reader.atTop.erased.score.holdings = reader.score.holdings :=
    Score.holdings_of_fits hfits
  refine ⟨own, hown, ?_, ?_⟩
  · calc later.score.holdings
      _ = erased.score.holdings := (Score.holdings_of_fits hlater).symm
      _ = reader.atTop.erased.score.holdings.append own.score.holdings :=
          Score.holdings_of_fits halone
      _ = reader.score.holdings.append own.score.holdings := by rw [hreader]
  · rw [← hreader]
    exact Score.resume_of_fits halone

/-- Two blocks behind each other define the same in both orders. -/
theorem alike_of_swapped
    {onInclude : String → Reading Unit} {first second first' second' : List Statement}
    (hfirst : IsBlock (first.map (·.words))) (hsecond : IsBlock (second.map (·.words)))
    (hwords : first'.map (·.words) = first.map (·.words))
    (hwords' : second'.map (·.words) = second.map (·.words))
    {start between later between' later' : Reader} (hstart : start.InOrder)
    (hbetween : statements onInclude first start = .ok () between)
    (hlater : statements onInclude second between = .ok () later)
    (hbetween' : statements onInclude second' start = .ok () between')
    (hlater' : statements onInclude first' between' = .ok () later') :
    later.score.Alike later'.score := by
  have hfirst' : IsBlock (first'.map (·.words)) := hwords ▸ hfirst
  have hsecond' : IsBlock (second'.map (·.words)) := hwords' ▸ hsecond
  have herased : ∀ {list list' : List Statement}, list'.map (·.words) = list.map (·.words) →
      list'.map Frame.erasing.statement = list.map Frame.erasing.statement := by
    intro list list' h
    have hunplaced := congrArg (List.map unplaced) h
    rw [List.map_map, List.map_map] at hunplaced
    exact hunplaced
  obtain ⟨horder, hsame, -⟩ := hfirst.sealed hstart hbetween
  obtain ⟨horder', hsame', -⟩ := hsecond'.sealed hstart hbetween'
  obtain ⟨-, hlast, -⟩ := hsecond.sealed horder hlater
  obtain ⟨-, hlast', -⟩ := hfirst'.sealed horder' hlater'
  have hself : SameOutside start start := refl_of SameOutside start
  obtain ⟨one, hone, hstep, -⟩ := hfirst.holdings hstart hstart hself hbetween
  obtain ⟨two, htwo, hsum, honce⟩ := hsecond.holdings hstart horder hsame hlater
  obtain ⟨two', htwo', hstep', -⟩ := hsecond'.holdings hstart hstart hself hbetween'
  obtain ⟨one', hone', hsum', honce'⟩ := hfirst'.holdings hstart horder' hsame' hlater'
  -- on their own the blocks are read to the same in both orders
  rw [herased hwords', htwo] at htwo'
  rw [herased hwords, hone] at hone'
  cases htwo'
  cases hone'
  rw [hstep] at hsum honce
  rw [hstep'] at hsum' honce'
  have halbum : later.score.album = later'.score.album := by
    rw [hlast.album, hsame.album, hlast'.album, hsame'.album]
  exact Score.alike_of_holdings hsum hsum' honce honce' halbum

/-- How files are included down to a depth. -/
def includer (files : SourceFiles) : Nat → String → Reading Unit
  | 0 => tooDeep
  | depth + 1 => includeFile files (readNested files depth)

theorem includer_leads
    (files : SourceFiles) (depth : Nat) (file : String) (reader : Reader) :
    Leads Travels (includer files depth file) reader := by
  cases depth with
  | zero => exact leads_get_bind (leads_throw _)
  | succ depth => exact includeFile_leads (fun source _ => readNested_leads files depth source) file

theorem inOrder_of_statements
    {files : SourceFiles} {limit : Nat} {source : Source} {list : List Statement}
    {later : Reader}
    (h : statements (includer files limit) list (enter source (initial limit)) =
      .ok () later) : later.InOrder := by
  have hleads : Leads Travels (statements (includer files limit) list)
      (enter source (initial limit)) := statements_leads (includer_leads files limit) list
  rw [Leads, h] at hleads
  exact ((inOrder_initial limit).travels (travels_enter source _)).travels hleads

/-- What is read from a source is what its statements define. -/
theorem readSource_eq_ok
    {files : SourceFiles} {limit : Nat} {source : Source} {reader : Reader}
    (h : readSource files source (initial limit) = .ok () reader) :
    ∃ last, statements (includer files limit) (Statement.ofSource source.file source.text)
        (enter source (initial limit)) = .ok () last ∧ reader.score = last.score := by
  have hread : afterwards (statements (includer files limit)
      (Statement.ofSource source.file source.text)) (leave source)
      (enter source (initial limit)) = .ok () reader := by
    rw [← h]
    cases limit <;> rfl
  unfold afterwards at hread
  split at hread
  · next last hlast =>
      cases hread
      refine ⟨last, hlast, ?_⟩
      unfold leave
      split <;> rfl
  · cases hread

/-- A text of three parts is read part by part. -/
theorem statements_of_parts
    {onInclude : String → Reading Unit} {opening first second file : String}
    {reader last : Reader}
    (h : statements onInclude
      (Statement.ofSource file (opening ++ "\n" ++ first ++ "\n" ++ second)) reader =
        .ok () last) :
    ∃ list list' start between, list.map (·.words) = Statement.lines first ∧
      list'.map (·.words) = Statement.lines second ∧
      statements onInclude (Statement.ofSource file opening) reader = .ok () start ∧
      statements onInclude list start = .ok () between ∧
      statements onInclude list' between = .ok () last := by
  obtain ⟨list, hlist, hwords⟩ := Statement.ofSource_append file opening first
  obtain ⟨list', hlist', hwords'⟩ :=
    Statement.ofSource_append file (opening ++ "\n" ++ first) second
  rw [hlist', hlist, statements_append, statements_append] at h
  obtain ⟨_, between, hbetween, hlast⟩ := bind_eq_ok h
  obtain ⟨_, start, hstart, hfirst⟩ := bind_eq_ok hbetween
  exact ⟨list, list', start, between, hwords, hwords', hstart, hfirst, hlast⟩

end Reader

namespace Assembly

open Reader

/-- Songs are independent. Where both orders of two blocks behind a prelude can be
assembled, they give the same entities, but for order and places, and the same entry for
each of them. -/
theorem alike_of_swapped_blocks
    (files : SourceFiles) (limit : Nat) (opening first second file : String)
    (directory : Option String) {assembly swapped : Assembly}
    (hfirst : IsBlock (Statement.lines first)) (hsecond : IsBlock (Statement.lines second))
    (h : ofSource files limit ⟨opening ++ "\n" ++ first ++ "\n" ++ second, file, directory⟩ =
      .ok assembly)
    (hswapped : ofSource files limit
      ⟨opening ++ "\n" ++ second ++ "\n" ++ first, file, directory⟩ = .ok swapped) :
    assembly.Alike swapped := by
  obtain ⟨reader, score, _, hread, hfinish, hassembly⟩ := ofSource_eq_ok h
  obtain ⟨reader', score', _, hread', hfinish', hassembly'⟩ := ofSource_eq_ok hswapped
  obtain rfl := score_of_finish hfinish
  obtain rfl := score_of_finish hfinish'
  refine alike_of_ofScore (inOrder_of_readSource hread') ?_ hassembly hassembly'
  obtain ⟨last, hlast, hscore⟩ := readSource_eq_ok hread
  obtain ⟨last', hlast', hscore'⟩ := readSource_eq_ok hread'
  rw [hscore, hscore']
  obtain ⟨one, two, start, between, hone, htwo, hstart, hbetween, hend⟩ :=
    statements_of_parts hlast
  obtain ⟨two', one', start', between', htwo', hone', hstart', hbetween', hend'⟩ :=
    statements_of_parts hlast'
  obtain rfl : start = start' := by
    cases hstart.symm.trans hstart'
    rfl
  rw [← hone] at hfirst
  rw [← htwo] at hsecond
  exact alike_of_swapped hfirst hsecond (hone'.trans hone.symm) (htwo'.trans htwo.symm)
    (inOrder_of_statements hstart) hbetween hend hbetween' hend'

/-- A song that plays a pattern of its own with an instrument from outside. -/
def aria : String := "song aria\npattern p with i\nc4\nplay p\nfine"

/-- A song that playback starts in. -/
def coda : String := "song coda\nat 2\nresume\nfine"

theorem aria_coda_alike :
    IsBlock (Statement.lines aria) ∧ IsBlock (Statement.lines coda) ∧
      ∃ assembly swapped,
        ofSource (fun _ => .error .missing) 8
          ⟨"instrument i" ++ "\n" ++ aria ++ "\n" ++ coda, "score", none⟩ = .ok assembly ∧
        ofSource (fun _ => .error .missing) 8
          ⟨"instrument i" ++ "\n" ++ coda ++ "\n" ++ aria, "score", none⟩ = .ok swapped ∧
        assembly.Alike swapped := by
  have haria : IsBlock (Statement.lines aria) := by
    have hlines : Statement.lines aria = [["song", "aria"], ["pattern", "p", "with", "i"],
        ["c4"], ["play", "p"], ["fine"]] := by
      decide +kernel
    rw [hlines]
    exact ⟨["aria"], [["pattern", "p", "with", "i"], ["c4"], ["play", "p"]], ["fine"], rfl,
      by decide, by decide, by decide⟩
  have hcoda : IsBlock (Statement.lines coda) := by
    have hlines : Statement.lines coda =
        [["song", "coda"], ["at", "2"], ["resume"], ["fine"]] := by
      decide +kernel
    rw [hlines]
    exact ⟨["coda"], [["at", "2"], ["resume"]], ["fine"], rfl, by decide, by decide,
      by decide⟩
  refine ⟨haria, hcoda, ?_⟩
  obtain ⟨assembly, h⟩ : ∃ assembly, ofSource (fun _ => .error .missing) 8
      ⟨"instrument i" ++ "\n" ++ aria ++ "\n" ++ coda, "score", none⟩ = .ok assembly :=
    exists_of_isOk (by decide +kernel)
  obtain ⟨swapped, hswapped⟩ : ∃ swapped, ofSource (fun _ => .error .missing) 8
      ⟨"instrument i" ++ "\n" ++ coda ++ "\n" ++ aria, "score", none⟩ = .ok swapped :=
    exists_of_isOk (by decide +kernel)
  exact ⟨assembly, swapped, h, hswapped,
    alike_of_swapped_blocks _ 8 "instrument i" aria coda "score" none haria hcoda h hswapped⟩

end Assembly

end Chiptune
