import Chiptune.Proofs.Reader.Erasing
import Chiptune.Proofs.Source.Lines

/-!
# Inclusions

Including a file is the same as writing its lines where it is included. The lines of a
source are expanded without regard to what they say; reading the expanded lines and
reading the source with its inclusions then end alike, but for the places of things.
-/

namespace Chiptune

open Step

namespace Reader

/-! ## Expansion -/

/-- The file that a line includes if `include` is its first word. -/
def includeLine? : List String → Option String
  | word :: file :: more =>
    if word = "include" then some (Text.unwords (file :: more)) else none
  | _ => none

/-- A line, or the lines of the file that it includes. -/
def expandLine (included? : String → Option (List (List String))) (words : List String) :
    Option (List (List String)) :=
  match includeLine? words with
  | some file => included? file
  | none => some [words]

/-- Lines with those of a file in the place of each line that includes it. -/
def expandLines (included? : String → Option (List (List String))) :
    List (List String) → Option (List (List String))
  | [] => some []
  | words :: rest => do
    let here ← expandLine included? words
    let later ← expandLines included? rest
    return here ++ later

/-- The path of a file as seen from a directory, if there is one. -/
def pathFrom (directory : Option String) (file : String) : String :=
  match directory with
  | some directory => Path.join directory file
  | none => file

/-- The lines of a file as seen from a directory, if it can be read. -/
def expandFile? (files : SourceFiles)
    (expand? : Option String → String → Option (List (List String)))
    (directory : Option String) (file : String) : Option (List (List String)) :=
  match fileSource files (pathFrom directory file) with
  | .ok source => expand? (source.directory.or directory) source.text
  | .error _ => none

/-- The lines of a text in a directory with all that it includes, if each file can be
read and they nest at most `depth` deep. -/
def expand? (files : SourceFiles) :
    Nat → Option String → String → Option (List (List String))
  | 0, _, text => expandLines (fun _ => none) (Statement.lines text)
  | depth + 1, directory, text =>
    expandLines (expandFile? files (expand? files depth) directory) (Statement.lines text)

/-- A line without a place. -/
def unplaced (words : List String) : Statement := ⟨default, words⟩

/-! ## Reading expanded lines -/

theorem includedPath_eq (reader : Reader) (file : String) :
    reader.includedPath file = pathFrom reader.directories.head? file := by
  unfold includedPath
  rcases reader.directories with _ | ⟨directory, outer⟩ <;> rfl

theorem statements_append
    (onInclude : String → Reading Unit) (first second : List Statement) :
    statements onInclude (first ++ second) =
      statements onInclude first >>= fun _ => statements onInclude second := by
  induction first with
  | nil => rfl
  | cons statement rest ih => simp [statements, ih]

/-- A line that includes a file does nothing else. -/
theorem dispatch_of_includeLine?
    {words : List String} {file : String} (hline : includeLine? words = some file)
    (onInclude : String → Reading Unit) (reader : Reader) :
    dispatch onInclude words reader = onInclude file reader := by
  unfold includeLine? at hline
  split at hline
  · next word name more =>
      split at hline
      · next hword =>
          subst hword
          obtain rfl : Text.unwords (name :: more) = file := Option.some.inj hline
          rfl
      · cases hline
  · cases hline

/-- The later reader is in the same directories. -/
def Stays (reader later : Reader) : Prop := later.directories = reader.directories

instance : IsPreorder Reader Stays where
  refl _ := rfl
  trans _ _ _ h h' := h'.trans h

theorem Turns.stays {reader later : Reader} (h : Turns reader later) : Stays reader later := by
  induction h with
  | refl => rfl
  | tail _ hturn ih =>
      refine trans_of Stays ih ?_
      cases hturn with
      | move hmove =>
          cases hmove with
          | edit hedit => cases hedit <;> rfl
          | opening hopening => cases hopening <;> rfl
      | endSong => rfl

section Expansion

variable {onInclude onInclude' : String → Reading Unit} {directories : List String}

/-- The first reader is the second one with its places erased; the second is in the
directories. -/
def Within (directories : List String) (_ _ : Unit) (erased reader : Reader) : Prop :=
  Frame.erasing.Fits erased reader ∧ reader.directories = directories

/-- The step reads the lines, but for their places, and stays in its directories. -/
def Reads (onInclude : String → Reading Unit) (lines : List (List String))
    (directories : List String) (step : Reading Unit) : Prop :=
  ∀ erased reader, Within directories ⟨⟩ ⟨⟩ erased reader →
    Lockstep False (statements onInclude (lines.map unplaced)) step erased reader
      (Within directories)

theorem Within.goTo
    {erased reader : Reader} (h : Within directories ⟨⟩ ⟨⟩ erased reader)
    (here : Location) (inclusions : List Location) :
    Within directories ⟨⟩ ⟨⟩ erased
      { reader with here := here, inclusions := inclusions } :=
  ⟨{ h.1 with here := h.1.here }, h.2⟩

theorem Reads.append
    {first second : List (List String)} {step later : Reading Unit}
    (hfirst : Reads onInclude first directories step)
    (hsecond : Reads onInclude second directories later) :
    Reads onInclude (first ++ second) directories (step >>= fun _ => later) := by
  intro erased reader h
  rw [List.map_append, statements_append]
  exact (hfirst erased reader h).bind fun _ _ next next' hnext => hsecond next next' hnext

theorem statement_stays
    {statement : Statement} (hwords : includedFile? statement.words = none)
    (reader : Reader) : Leads Stays (statements onInclude [statement]) reader := by
  refine leads_bind (leads_modify rfl) fun _ next _ => leads_get_bind ?_
  refine leads_bind (leads_adaptExcept ?_) fun _ _ _ => leads_pure _
  exact (dispatch_leads_turns hwords).stays

/-- A line that includes nothing is read as it is. -/
theorem reads_statement
    {statement : Statement} (hwords : includedFile? statement.words = none) :
    Reads onInclude [statement.words] directories (statements onInclude' [statement]) := by
  rintro erased reader ⟨hfits, rfl⟩
  have hlockstep : Lockstep False (statements onInclude [unplaced statement.words])
      (statements onInclude' [statement]) erased reader Frame.erasing.Follows :=
    hfits.statements [statement] (by simpa using hwords)
  apply hlockstep.and_leads (statement_stays hwords reader)
  rintro _ _ next next' ⟨-, hnext⟩ hstays
  exact ⟨hnext, hstays⟩

/-- A line that includes a file is read as the lines of the file. -/
theorem reads_of_includeLine?
    {statement : Statement} {file : String} {lines : List (List String)}
    (hline : includeLine? statement.words = some file)
    (hfile : Reads onInclude lines directories (onInclude' file)) :
    Reads onInclude lines directories (statements onInclude' [statement]) := by
  intro erased reader h
  have hdispatch : dispatch onInclude' statement.words = onInclude' file := by
    funext reader
    exact dispatch_of_includeLine? hline onInclude' reader
  have hread : Lockstep False (statements onInclude (lines.map unplaced))
      ((dispatch onInclude' statement.words).adaptExcept
        (Report.locate · statement.place reader.inclusions))
      erased { reader with here := statement.place } (Within directories) := by
    rw [hdispatch]
    exact (hfile _ _ (h.goTo _ reader.inclusions)).adaptExcept_right (Report.kind_locate · _ _)
  rw [← bind_pure_unit (x := (dispatch onInclude' statement.words).adaptExcept _)] at hread
  exact hread

theorem reads_statements
    {included? : String → Option (List (List String))}
    (hincluded : ∀ file lines, included? file = some lines →
      (∀ words ∈ lines, includedFile? words = none) →
        Reads onInclude lines directories (onInclude' file))
    (list : List Statement) {lines : List (List String)}
    (hlines : expandLines included? (list.map (·.words)) = some lines)
    (hfirst : ∀ words ∈ lines, includedFile? words = none) :
    Reads onInclude lines directories (statements onInclude' list) := by
  induction list generalizing lines with
  | nil =>
      obtain rfl : [] = lines := Option.some.inj hlines
      exact fun _ _ h => lockstep_pure h
  | cons statement rest ih =>
      rw [List.map_cons, expandLines] at hlines
      simp only [Option.bind_eq_bind, Option.bind_eq_some_iff] at hlines
      obtain ⟨here, hhere, later, hlater, hparts⟩ := hlines
      obtain rfl : here ++ later = lines := Option.some.inj hparts
      rw [← List.singleton_append, statements_append]
      have hrest := ih hlater fun words hwords => hfirst words (by simp [hwords])
      -- what is left is that the first line is read as the lines it stands for
      refine Reads.append ?_ hrest
      have hhead : ∀ words ∈ here, includedFile? words = none :=
        fun words hwords => hfirst words (by simp [hwords])
      unfold expandLine at hhere
      cases hline : includeLine? statement.words with
      | none =>
          rw [hline] at hhere
          obtain rfl : [statement.words] = here := Option.some.inj hhere
          exact reads_statement (hhead _ List.mem_cons_self)
      | some file =>
          rw [hline] at hhere
          exact reads_of_includeLine? hline (hincluded file here hhere hhead)

/-! ## Files -/

/-- What is done afterwards may leave the directories of the source. -/
theorem lockstep_afterwards
    {step step' : Reading Unit} {change : Reader → Reader} {erased reader : Reader}
    {mid post : Unit → Unit → Reader → Reader → Prop}
    (h : Lockstep False step step' erased reader mid)
    (hpost : ∀ value value' next next', mid value value' next next' →
      post value value' next (change next')) :
    Lockstep False step (afterwards step' change) erased reader post := by
  unfold Lockstep at h
  unfold Lockstep afterwards
  revert h
  generalize step erased = result
  generalize step' reader = result'
  intro h
  cases h with
  | ok h => exact .ok (hpost _ _ _ _ h)
  | fault h => exact .fault h
  | blocked h => exact h.elim

theorem reads_readStatements
    {included? : String → Option (List (List String))} {source : Source}
    {lines : List (List String)}
    (hincluded : ∀ file lines, included? file = some lines →
      (∀ words ∈ lines, includedFile? words = none) →
        Reads onInclude lines (source.directory.toList ++ directories) (onInclude' file))
    (hlines : expandLines included? (Statement.lines source.text) = some lines)
    (hfirst : ∀ words ∈ lines, includedFile? words = none) :
    Reads onInclude lines directories (readStatements onInclude' source) := by
  rintro erased reader ⟨hfits, rfl⟩
  rw [← Statement.words_ofSource source.file] at hlines
  have hentered : Within (source.directory.toList ++ reader.directories) ⟨⟩ ⟨⟩ erased
      (enter source reader) := by
    unfold enter
    cases source.directory with
    | none => exact ⟨hfits, rfl⟩
    | some directory => exact ⟨{ hfits with score := hfits.score }, rfl⟩
  have hread := reads_statements hincluded _ hlines hfirst _ _ hentered
  have hleave : ∀ value value' next next',
      Within (source.directory.toList ++ reader.directories) value value' next next' →
        Within reader.directories value value' next (leave source next') := by
    rintro _ _ next next' ⟨hnext, hdirectories⟩
    unfold leave
    cases hdirectory : source.directory with
    | none => exact ⟨hnext, by simpa [hdirectory] using hdirectories⟩
    | some directory =>
        exact ⟨{ hnext with score := hnext.score }, by simp [hdirectories, hdirectory]⟩
  exact lockstep_afterwards hread hleave

/-- An included file is read as its lines. -/
theorem reads_includeFile
    {files : SourceFiles} {read : Source → Reading Unit} {file : String} {source : Source}
    {lines : List (List String)}
    (hsource : fileSource files (pathFrom directories.head? file) = .ok source)
    (hread : Reads onInclude lines directories (read source)) :
    Reads onInclude lines directories (includeFile files read file) := by
  rintro erased reader ⟨hfits, rfl⟩
  have hentered : Within reader.directories ⟨⟩ ⟨⟩ erased
      { reader with inclusions := reader.inclusions ++ [reader.here] } :=
    Within.goTo ⟨hfits, rfl⟩ reader.here _
  have hback : Lockstep False (statements onInclude (lines.map unplaced))
      (afterwards (read source) fun next =>
        { next with inclusions := next.inclusions.dropLast, here := reader.here })
      erased { reader with inclusions := reader.inclusions ++ [reader.here] }
      (Within reader.directories) :=
    lockstep_afterwards (hread _ _ hentered) fun _ _ _ _ hnext => hnext.goTo _ _
  have hrun : includeFile files read file reader =
      afterwards (read source)
        (fun next => { next with inclusions := next.inclusions.dropLast, here := reader.here })
        { reader with inclusions := reader.inclusions ++ [reader.here] } := by
    change EStateM.bind (unlocated (decide (fileSource files (reader.includedPath file)))) _
      reader = _
    rw [includedPath_eq, hsource]
    rfl
  rw [Lockstep, hrun]
  exact hback

/-- A source is read as its expanded lines. -/
theorem reads_readNested
    {files : SourceFiles} (depth : Nat) {source : Source} {lines : List (List String)}
    (hlines : expand? files depth (source.directory.or directories.head?) source.text =
      some lines)
    (hfirst : ∀ words ∈ lines, includedFile? words = none) :
    Reads onInclude lines directories (readNested files depth source) := by
  induction depth generalizing source lines directories with
  | zero =>
      -- at depth zero nothing that includes can be expanded
      refine reads_readStatements (fun file inner hinner => ?_) hlines hfirst
      cases hinner
  | succ depth ih =>
      refine reads_readStatements (fun file inner hinner hnothing => ?_) hlines hfirst
      have hhead : (source.directory.toList ++ directories).head? =
          source.directory.or directories.head? := by
        cases source.directory <;> rfl
      rw [← hhead, expandFile?] at hinner
      split at hinner
      · next included hincluded => exact reads_includeFile hincluded (ih hinner hnothing)
      · cases hinner

end Expansion

/-- Inclusion is transparent. Reading a file with what it includes and reading the list
of its expanded lines, at any places, both succeed with the same results but for places,
or both fail with the same kind of fault. -/
theorem lockstep_readFile_expanded
    (files : SourceFiles) (path : String) (limit limit' : Nat)
    (onInclude : String → Reading Unit) (list : List Statement)
    (hlines : expandFile? files (expand? files limit) none path =
      some (list.map (·.words)))
    (hfirst : ∀ statement ∈ list, includedFile? statement.words = none) :
    Lockstep False (readFile files path) (statements onInclude list) (initial limit)
      (initial limit') (fun _ _ => SameButPlaces) := by
  have hwords : ∀ words ∈ list.map (·.words), includedFile? words = none := by
    simpa using hfirst
  have hfits : ∀ limit', Frame.erasing.Fits (initial limit).erased (initial limit') :=
    fun limit' => { fits_erased (initial limit') (inOrder_initial limit').layers with }
  have hflat : Lockstep False (statements onInclude ((list.map (·.words)).map unplaced))
      (statements onInclude list) (initial limit).erased (initial limit')
      Frame.erasing.Follows := by
    have hlist : (list.map (·.words)).map unplaced = list.map Frame.erasing.statement := by
      rw [List.map_map]
      rfl
    rw [hlist]
    exact (hfits limit').statements list hfirst
  unfold expandFile? at hlines
  split at hlines
  · next source hsource =>
      have hnested : Reads onInclude (list.map (·.words)) [] (readNested files limit source) :=
        reads_readNested limit hlines hwords
      have hread := hnested _ _ ⟨hfits limit, rfl⟩
      have hrun : readFile files path (initial limit) =
          readNested files limit source (initial limit) := by
        change EStateM.bind (unlocated (decide (fileSource files path))) _ (initial limit) = _
        rw [show fileSource files path = .ok source from hsource]
        rfl
      rw [Lockstep, hrun]
      apply hread.compare hflat
      rintro _ _ _ next next' next'' ⟨hnext, -⟩ ⟨-, hnext'⟩
      exact sameButPlaces_of_fits hnext hnext'
  · cases hlines

/-- A band in three files: a part is included into an open pattern, and the part's own
inclusion is looked up beside it. -/
def bandFiles : SourceFiles := fun path =>
  match path with
  | "band.txt" => .ok "song band\npattern riff on pulse1\ninclude parts/riff.txt\nc4 d4\nfine\n"
  | "parts/riff.txt" => .ok "c8 d8 e8\ninclude hook.txt\ntime 3/4\n"
  | "parts/hook.txt" => .ok "g4 g4\nat 1\nmark hook\n"
  | _ => .error .missing

/-- The lines of the band in one list. -/
def bandLines : List (List String) :=
  [["song", "band"], ["pattern", "riff", "on", "pulse1"], ["c8", "d8", "e8"], ["g4", "g4"],
    ["at", "1"], ["mark", "hook"], ["time", "3/4"], ["c4", "d4"], ["fine"]]

theorem lockstep_readFile_band :
    expandFile? bandFiles (expand? bandFiles 2) none "band.txt" = some bandLines ∧
      (∀ words ∈ bandLines, includedFile? words = none) ∧
      Lockstep False (readFile bandFiles "band.txt")
        (statements tooDeep (bandLines.map unplaced)) (initial 2) (initial 0)
        (fun _ _ => SameButPlaces) := by
  have hlines : expandFile? bandFiles (expand? bandFiles 2) none "band.txt" =
      some bandLines := by
    decide +kernel
  have hfirst : ∀ words ∈ bandLines, includedFile? words = none := by
    decide
  have hwords : (bandLines.map unplaced).map (·.words) = bandLines := by
    rw [List.map_map]
    exact List.map_id _
  refine ⟨hlines, hfirst, ?_⟩
  apply lockstep_readFile_expanded
  · rw [hwords]
    exact hlines
  · simpa [unplaced] using hfirst

end Reader

end Chiptune
