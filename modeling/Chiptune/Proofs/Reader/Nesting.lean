import Chiptune.Proofs.Reader.Inclusion

/-!
# Nested inclusions

A file is read inside the file that includes it, and the inclusions that are being read
are kept in a list. Reading leaves the list as it was, by success and by failure, and the
list never grows beyond the limit, so that files may include themselves and each other. A
fault is reported at the line where it arose, in the innermost file, with the lines that
include one another on the way there.
-/

namespace Chiptune

open Step

namespace Reader

/-! ## Statements -/

/-- The statement comes to include a file: it names the file, and before that it leads the
reader `there`. -/
structure Includes (words : List String) (reader : Reader) (file : String) (there : Reader) :
    Prop where
  names : includedFile? words = some file
  leads : dispatch includeNothing words reader = .ok () there

namespace Includes

variable {words : List String} {reader there : Reader} {file : String}

theorem dispatch (h : Includes words reader file there) (onInclude : String → Reading Unit) :
    Reader.dispatch onInclude words reader = onInclude file there := by
  rw [dispatch_eq_including, bind_apply_of_ok h.leads, including, h.names]

theorem turns (h : Includes words reader file there) : Turns reader there := by
  have hleads := line_leads_turns words reader
  rwa [Leads, h.leads] at hleads

end Includes

/-- A statement comes to include a file, or does the same whatever inclusion is. -/
theorem dispatch_cases (words : List String) (reader : Reader) :
    (∃ file there, Includes words reader file there) ∨
      ∀ onInclude, dispatch onInclude words reader = dispatch includeNothing words reader := by
  cases hline : dispatch includeNothing words reader with
  | error report failed =>
      right
      intro onInclude
      rw [dispatch_eq_including, bind_apply_of_error hline]
  | ok _ there =>
      cases hfile : includedFile? words with
      | some file => exact .inl ⟨file, there, hfile, hline⟩
      | none =>
          right
          intro onInclude
          rw [dispatch_eq_including, bind_apply_of_ok hline, including, hfile]
          rfl

theorem error_of_unlocated
    {α : Type} {step : Step Reader α} {reader next : Reader} {report : Report}
    (h : unlocated step reader = .error report next) : ∃ fault, report = .ofFault fault := by
  unfold unlocated EStateM.adaptExcept at h
  split at h
  · cases h
    exact ⟨_, rfl⟩
  · cases h

/-- A fault of the statement itself has no place yet. -/
theorem error_of_line
    {words : List String} {reader next : Reader} {report : Report}
    (h : dispatch includeNothing words reader = .error report next) :
    ∃ fault, report = .ofFault fault := by
  fun_induction dispatch includeNothing words generalizing reader with
  | case1 => cases h
  | case2 => exact error_of_unlocated h
  | case3 => exact error_of_unlocated h
  | case4 word arguments hdefinition keyword hkeyword ih =>
      rw [get_bind_apply, modify_bind_apply] at h
      split at h
      · rcases bind_eq_error h with hwait | ⟨_, _, -, hcommand⟩
        · exact error_of_unlocated hwait
        · exact ih hcommand
      · cases h
      · exact error_of_unlocated h

/-- What a statement does, and the place that its report gets. -/
theorem statements_cons_apply
    (onInclude : String → Reading Unit) (statement : Statement) (rest : List Statement)
    (reader : Reader) :
    statements onInclude (statement :: rest) reader =
      match dispatch onInclude statement.words { reader with here := statement.place } with
      | .ok _ next => statements onInclude rest next
      | .error report next => .error (report.locate statement.place reader.inclusions) next := by
  rw [statements, modify_bind_apply, get_bind_apply]
  change EStateM.bind (EStateM.adaptExcept _ _) _ _ = _
  unfold EStateM.bind EStateM.adaptExcept
  cases dispatch onInclude statement.words { reader with here := statement.place } with
  | ok _ next => rfl
  | error report next => rfl

/-! ## Coming back -/

/-- The later reader is in the same inclusions and directories, under the same limit. -/
structure Returns (reader later : Reader) : Prop where
  inclusions : later.inclusions = reader.inclusions
  directories : later.directories = reader.directories
  depthLimit : later.depthLimit = reader.depthLimit

instance : IsPreorder Reader Returns where
  refl _ := ⟨rfl, rfl, rfl⟩
  trans _ _ _ h h' :=
    ⟨h'.inclusions.trans h.inclusions, h'.directories.trans h.directories,
      h'.depthLimit.trans h.depthLimit⟩

theorem Turn.returns {reader later : Reader} (h : Turn reader later) :
    Returns reader later ∧ later.here = reader.here := by
  cases h with
  | move hmove =>
      cases hmove with
      | edit hedit => cases hedit <;> exact ⟨⟨rfl, rfl, rfl⟩, rfl⟩
      | opening hopening => cases hopening <;> exact ⟨⟨rfl, rfl, rfl⟩, rfl⟩
  | endSong => exact ⟨⟨rfl, rfl, rfl⟩, rfl⟩

/-- A statement without inclusions does not move the reader. -/
theorem Turns.returns {reader later : Reader} (h : Turns reader later) :
    Returns reader later ∧ later.here = reader.here := by
  induction h with
  | refl => exact ⟨refl_of Returns reader, rfl⟩
  | tail _ hturn ih =>
      obtain ⟨hreturns, hhere⟩ := hturn.returns
      exact ⟨trans_of Returns ih.1 hreturns, hhere.trans ih.2⟩

theorem left_afterwards
    {α : Type} (step : Reading α) (change : Reader → Reader) (reader : Reader) :
    left (afterwards step change reader) = change (left (step reader)) := by
  unfold afterwards
  cases step reader with
  | ok value next => rfl
  | error report next => rfl

section Returning

variable {reader : Reader} {onInclude : String → Reading Unit}

theorem dispatch_returns
    (hinclude : ∀ file reader, Leads Returns (onInclude file) reader) (words : List String) :
    Leads Returns (dispatch onInclude words) reader := by
  apply dispatch_leads
  · exact fun _ _ h => h.turns.returns.1
  · exact fun _ word arguments _ => (endSong_leads word arguments).returns.1
  · exact fun file _ => hinclude file

theorem statements_returns
    (hinclude : ∀ file reader, Leads Returns (onInclude file) reader) (list : List Statement) :
    Leads Returns (statements onInclude list) reader := by
  induction list generalizing reader with
  | nil => exact leads_pure _
  | cons statement rest ih =>
      refine leads_bind (leads_modify ⟨rfl, rfl, rfl⟩) fun _ next _ => leads_get_bind ?_
      refine leads_bind (leads_adaptExcept ?_) fun _ _ _ => ih
      exact dispatch_returns hinclude statement.words

/-- Whoever comes back to the directory of a source and leaves it is where they were. -/
theorem Returns.leave
    {source : Source} {between : Reader} (h : Returns (enter source reader) between) :
    Returns reader (leave source between) := by
  unfold Reader.enter at h
  unfold Reader.leave
  cases hdirectory : source.directory with
  | none =>
      rw [hdirectory] at h
      exact h
  | some directory =>
      rw [hdirectory] at h
      exact ⟨h.inclusions, congrArg List.tail h.directories, h.depthLimit⟩

theorem readStatements_returns
    (hinclude : ∀ file reader, Leads Returns (onInclude file) reader) (source : Source) :
    Leads Returns (readStatements onInclude source) reader := by
  have hread : Leads Returns
      (statements onInclude (Statement.ofSource source.file source.text))
      (enter source reader) := statements_returns hinclude _
  change Returns reader (left (afterwards _ (leave source) (enter source reader)))
  rw [left_afterwards]
  exact Returns.leave hread

/-- A reader at a statement that includes a file, about to read the file. -/
def inside (reader : Reader) : Reader :=
  { reader with inclusions := reader.inclusions ++ [reader.here] }

theorem includeFile_apply
    (files : SourceFiles) (read : Source → Reading Unit) (file : String) (reader : Reader) :
    includeFile files read file reader =
      match fileSource files (reader.includedPath file) with
      | .error fault => .error (.ofFault fault) reader
      | .ok source =>
        afterwards (read source)
          (fun next =>
            { next with inclusions := next.inclusions.dropLast, here := reader.here })
          reader.inside := by
  rw [includeFile, get_bind_apply]
  change EStateM.bind (unlocated (decide (fileSource files (reader.includedPath file)))) _
    reader = _
  cases fileSource files (reader.includedPath file) with
  | error fault => rfl
  | ok source => rfl

theorem includeFile_returns
    {files : SourceFiles} {read : Source → Reading Unit}
    (hread : ∀ source reader, Leads Returns (read source) reader) (file : String) :
    Leads Returns (includeFile files read file) reader := by
  unfold Leads
  rw [includeFile_apply]
  split
  · exact refl_of Returns reader
  · next source _ =>
      have hback : Returns reader.inside (left (read source reader.inside)) :=
        hread source _
      rw [left_afterwards]
      refine ⟨?_, hback.directories, hback.depthLimit⟩
      rw [hback.inclusions]
      exact List.dropLast_concat

theorem tooDeep_returns (file : String) : Leads Returns (tooDeep file) reader :=
  leads_get_bind (leads_throw _)

theorem readNested_returns (files : SourceFiles) (depth : Nat) (source : Source) :
    Leads Returns (readNested files depth source) reader := by
  induction depth generalizing source reader with
  | zero => exact readStatements_returns (fun file _ => tooDeep_returns file) source
  | succ depth ih =>
      exact readStatements_returns
        (fun file _ => includeFile_returns (fun _ _ => ih _) file) source

/-- After reading, the reader is back in its inclusions and directories. -/
theorem readSource_returns (files : SourceFiles) (source : Source) :
    Leads Returns (readSource files source) reader :=
  leads_get_bind (readNested_returns files _ source)

end Returning

/-! ## The recursion of reading -/

/-- Include a file that is read by `read`, unless the inclusions are as many as they may
be. -/
def inclusion (files : SourceFiles) (read : Source → Reading Unit) (file : String) :
    Reading Unit := do
  let reader ← get
  if reader.depthLimit ≤ reader.inclusions.length then tooDeep file
  else includeFile files read file

theorem inclusion_returns
    {files : SourceFiles} {read : Source → Reading Unit} {reader : Reader}
    (hread : ∀ source reader, Leads Returns (read source) reader) (file : String) :
    Leads Returns (inclusion files read file) reader := by
  apply leads_get_bind
  split
  · exact tooDeep_returns file
  · exact includeFile_returns hread file

/-- Statements do the same under two ways to include that agree wherever the reader comes
to include. -/
theorem statements_congr
    {onInclude onInclude' : String → Reading Unit} {reader : Reader}
    (hreturns : ∀ file reader, Leads Returns (onInclude file) reader)
    (hagree : ∀ file there, Returns reader there → onInclude file there = onInclude' file there)
    (list : List Statement) :
    statements onInclude list reader = statements onInclude' list reader := by
  induction list generalizing reader with
  | nil => rfl
  | cons statement rest ih =>
      have hplaced : Returns reader { reader with here := statement.place } := ⟨rfl, rfl, rfl⟩
      have hsame : dispatch onInclude statement.words { reader with here := statement.place } =
          dispatch onInclude' statement.words { reader with here := statement.place } := by
        rcases dispatch_cases statement.words { reader with here := statement.place } with
          ⟨file, there, hincludes⟩ | hown
        · rw [hincludes.dispatch, hincludes.dispatch]
          exact hagree file there (trans_of Returns hplaced hincludes.turns.returns.1)
        · exact (hown onInclude).trans (hown onInclude').symm
      have hleft : Returns { reader with here := statement.place }
          (left (dispatch onInclude statement.words { reader with here := statement.place })) :=
        dispatch_returns hreturns statement.words
      rw [statements_cons_apply, statements_cons_apply, ← hsame]
      cases hrun : dispatch onInclude statement.words { reader with here := statement.place } with
      | error report next => rfl
      | ok _ next =>
          rw [hrun] at hleft
          have hnext : Returns reader next := trans_of Returns hplaced hleft
          exact ih fun file there hthere => hagree file there (trans_of Returns hnext hthere)

/-- To enter a source is to enter its directory. -/
theorem enter_eq (source : Source) (reader : Reader) :
    enter source reader =
      { reader with directories := source.directory.toList ++ reader.directories } := by
  unfold enter
  cases source.directory with
  | none => rfl
  | some directory => rfl

theorem readStatements_congr
    {onInclude onInclude' : String → Reading Unit} {reader : Reader}
    (hreturns : ∀ file reader, Leads Returns (onInclude file) reader)
    (hagree : ∀ file there, there.inclusions = reader.inclusions →
      there.depthLimit = reader.depthLimit → onInclude file there = onInclude' file there)
    (source : Source) :
    readStatements onInclude source reader = readStatements onInclude' source reader := by
  change afterwards _ (leave source) (enter source reader) =
    afterwards _ (leave source) (enter source reader)
  unfold afterwards
  rw [statements_congr hreturns]
  intro file there hthere
  rw [enter_eq] at hthere
  exact hagree file there hthere.inclusions hthere.depthLimit

theorem includeFile_congr
    {files : SourceFiles} {read read' : Source → Reading Unit} {reader : Reader}
    (h : ∀ source, read source reader.inside = read' source reader.inside)
    (file : String) : includeFile files read file reader = includeFile files read' file reader := by
  rw [includeFile_apply, includeFile_apply]
  split
  · rfl
  · unfold afterwards
    rw [h]

/-- Reading by statements, with files read by `read` one inclusion deeper, is reading. -/
theorem readStatements_inclusion
    {files : SourceFiles} {read : Source → Reading Unit} {reader : Reader}
    (hread : reader.inclusions.length < reader.depthLimit → ∀ source entered,
      entered.depthLimit = reader.depthLimit →
      entered.inclusions.length = reader.inclusions.length + 1 →
      read source entered = readSource files source entered) (source : Source) :
    readStatements (inclusion files read) source reader = readSource files source reader := by
  change _ = readNested files (reader.depthLimit - reader.inclusions.length) source reader
  symm
  cases hdepth : reader.depthLimit - reader.inclusions.length with
  | zero =>
      refine readStatements_congr (fun file _ => tooDeep_returns file) ?_ source
      intro file there hinclusions hlimit
      rw [inclusion, get_bind_apply, if_pos]
      rw [hinclusions, hlimit]
      omega
  | succ depth =>
      refine readStatements_congr
        (fun file _ => includeFile_returns (fun _ _ => readNested_returns files depth _) file)
        ?_ source
      intro file there hinclusions hlimit
      have hroom : ¬there.depthLimit ≤ there.inclusions.length := by
        rw [hinclusions, hlimit]
        omega
      rw [inclusion, get_bind_apply, if_neg hroom]
      apply includeFile_congr
      intro inner
      have hlonger : there.inside.inclusions.length = reader.inclusions.length + 1 := by
        simp [inside, hinclusions]
      have hdeeper : there.inside.depthLimit - there.inside.inclusions.length = depth := by
        rw [hlonger, show there.inside.depthLimit = _ from hlimit]
        omega
      rw [hread (by omega) inner there.inside hlimit hlonger]
      change _ = readNested files
        (there.inside.depthLimit - there.inside.inclusions.length) inner there.inside
      rw [hdeeper]

/-- Reading is reading by statements, with included files read in the same way. -/
theorem readSource_eq (files : SourceFiles) (source : Source) :
    readSource files source = readStatements (inclusion files (readSource files)) source := by
  funext reader
  exact (readStatements_inclusion (fun _ _ _ _ _ => rfl) source).symm

/-- Whatever reads by statements, and included files in the same way, is reading: the limit
makes an end to the recursion. -/
theorem eq_readSource
    {files : SourceFiles} {read : Source → Reading Unit}
    (hread : ∀ source, read source = readStatements (inclusion files read) source) :
    read = readSource files := by
  funext source reader
  induction hroom : reader.depthLimit - reader.inclusions.length using Nat.strongRecOn
    generalizing source reader with
  | ind room ih =>
      rw [hread]
      apply readStatements_inclusion
      intro hless inner entered hlimit hlonger
      exact ih (entered.depthLimit - entered.inclusions.length) (by omega) inner entered rfl

/-! ## Where reading comes to -/

section Course

variable (files : SourceFiles)

/-- While it reads a source from one state, the reader comes in another to a statement. -/
def Meets (source : Source) (reader : Reader) (statement : Statement) (state : Reader) : Prop :=
  ∃ before after reached,
    Statement.ofSource source.file source.text = before ++ statement :: after ∧
    statements (inclusion files (readSource files)) before (enter source reader) =
      .ok () reached ∧
    state = { reached with here := statement.place }

/-- In a statement of a source the reader begins to read an included file. -/
inductive Enters (source : Source) (reader : Reader) (statement : Statement) :
    Source → Reader → Prop where
  | mk {state there : Reader} {file : String} {inner : Source}
      (hmeets : Meets files source reader statement state)
      (hincludes : Includes statement.words state file there)
      (hroom : there.inclusions.length < there.depthLimit)
      (hfile : fileSource files (there.includedPath file) = .ok inner) :
      Enters source reader statement inner there.inside

/-- Reading a source, the reader comes to read a source inside it, itself or one that is
included. The places of the statements that include one another are listed outermost first. -/
inductive ComesTo : Source → Reader → List Location → Source → Reader → Prop where
  | outset (source : Source) (reader : Reader) : ComesTo source reader [] source reader
  | inclusion {source inner last : Source} {reader entered state : Reader}
      {statement : Statement} {trail : List Location}
      (henters : Enters files source reader statement inner entered)
      (h : ComesTo inner entered trail last state) :
      ComesTo source reader (statement.place :: trail) last state

end Course

section Course

variable {files : SourceFiles} {source inner last : Source} {reader entered state : Reader}
  {statement : Statement} {trail : List Location}

theorem Meets.mem (h : Meets files source reader statement state) :
    statement ∈ Statement.ofSource source.file source.text := by
  obtain ⟨before, after, -, hlines, -⟩ := h
  rw [hlines]
  exact List.mem_append_right _ List.mem_cons_self

/-- The reader comes to each statement in the inclusions in which it began, and in the
directory of the source. -/
theorem Meets.spec (h : Meets files source reader statement state) :
    state.inclusions = reader.inclusions ∧ state.depthLimit = reader.depthLimit ∧
      state.directories = source.directory.toList ++ reader.directories ∧
      state.here = statement.place := by
  obtain ⟨before, after, reached, -, hbefore, rfl⟩ := h
  have hreturns : Returns (enter source reader)
      (left (statements (inclusion files (readSource files)) before (enter source reader))) :=
    statements_returns
      (fun file _ => inclusion_returns (fun _ _ => readSource_returns files _) file) before
  rw [hbefore, enter_eq] at hreturns
  exact ⟨hreturns.inclusions, hreturns.depthLimit, hreturns.directories, rfl⟩

theorem Enters.spec (h : Enters files source reader statement inner entered) :
    entered.inclusions = reader.inclusions ++ [statement.place] ∧
      entered.depthLimit = reader.depthLimit ∧
      entered.directories = source.directory.toList ++ reader.directories ∧
      reader.inclusions.length < reader.depthLimit := by
  cases h with
  | mk hmeets hincludes hroom hfile =>
      obtain ⟨hinclusions, hlimit, hdirectories, hhere⟩ := hmeets.spec
      obtain ⟨hreturns, hstill⟩ := hincludes.turns.returns
      rw [hreturns.inclusions, hreturns.depthLimit, hinclusions, hlimit] at hroom
      refine ⟨?_, ?_, ?_, hroom⟩
      · rw [inside, hreturns.inclusions, hinclusions, hstill, hhere]
      · exact hreturns.depthLimit.trans hlimit
      · exact hreturns.directories.trans hdirectories

theorem head?_directories (source : Source) (directories : List String) :
    (source.directory.toList ++ directories).head? =
      source.directory.or directories.head? := by
  cases source.directory with
  | none => rfl
  | some directory => rfl

theorem Enters.mem (h : Enters files source reader statement inner entered) :
    statement ∈ Statement.ofSource source.file source.text := by
  cases h with
  | mk hmeets => exact hmeets.mem

/-- The file that a statement enters is the one that its words name, as seen from the
directory of its source. -/
theorem Enters.includedFile (h : Enters files source reader statement inner entered) :
    ∃ file, includedFile? statement.words = some file ∧
      fileSource files (pathFrom (source.directory.or reader.directories.head?) file) =
        .ok inner := by
  cases h with
  | mk hmeets hincludes hroom hfile =>
      obtain ⟨-, -, hdirectories, -⟩ := hmeets.spec
      refine ⟨_, hincludes.names, ?_⟩
      rwa [includedPath_eq, hincludes.turns.returns.1.directories, hdirectories,
        head?_directories] at hfile

/-- In a source that the reader comes to, its inclusions are those that led there, and they
are within the limit. -/
theorem ComesTo.spec (h : ComesTo files source reader trail last state) :
    state.inclusions = reader.inclusions ++ trail ∧ state.depthLimit = reader.depthLimit ∧
      (trail ≠ [] → state.inclusions.length ≤ reader.depthLimit) := by
  induction h with
  | outset => exact ⟨by simp, rfl, fun h => absurd rfl h⟩
  | @inclusion source inner last reader entered state statement trail henters _ ih =>
      obtain ⟨hinclusions, hlimit, -, hroom⟩ := henters.spec
      obtain ⟨hstate, hstateLimit, hlength⟩ := ih
      refine ⟨?_, hstateLimit.trans hlimit, fun _ => ?_⟩
      · rw [hstate, hinclusions, List.append_assoc]
        rfl
      · rw [hlimit] at hlength
        by_cases hnil : trail = []
        · rw [hstate, hinclusions, hnil, List.append_nil, List.length_append]
          exact hroom
        · exact hlength hnil

end Course

/-! ## Lines -/

/-- The source has a line with the given words at a place. -/
def Source.HasLine (source : Source) (place : Location) (words : List String) : Prop :=
  place.file = source.file ∧ 1 ≤ place.line ∧
    ∃ line, (source.text.toList.splitOn '\n')[place.line - 1]? = some line ∧
      Statement.lineWords line = words

theorem line_of_mem_ofLines
    {file : String} {number : Nat} {lines : List (List Char)} {statement : Statement}
    (h : statement ∈ Statement.ofLines file number lines) :
    statement.place.file = file ∧ number ≤ statement.place.line ∧
      ∃ line, lines[statement.place.line - number]? = some line ∧
        Statement.lineWords line = statement.words := by
  induction lines generalizing number with
  | nil => cases h
  | cons line rest ih =>
      rw [Statement.ofLines] at h
      have hlater : statement ∈ Statement.ofLines file (number + 1) rest →
          statement.place.file = file ∧ number ≤ statement.place.line ∧
            ∃ found, (line :: rest)[statement.place.line - number]? = some found ∧
              Statement.lineWords found = statement.words := by
        intro hmem
        obtain ⟨hfile, hnumber, found, hfound, hwords⟩ := ih hmem
        have hline : statement.place.line - number = statement.place.line - (number + 1) + 1 := by
          omega
        refine ⟨hfile, by omega, found, ?_, hwords⟩
        rw [hline, List.getElem?_cons_succ, hfound]
      split at h
      · exact hlater h
      · next words _ =>
          rcases List.mem_cons.mp h with rfl | hmem
          · exact ⟨rfl, Nat.le_refl _, line, by simp, rfl⟩
          · exact hlater hmem

theorem Source.hasLine_of_mem
    {source : Source} {statement : Statement}
    (h : statement ∈ Statement.ofSource source.file source.text) :
    source.HasLine statement.place statement.words :=
  line_of_mem_ofLines h

/-- A trail of lines leads from a source, whose files are looked up in a directory, to a
place: each line includes the file of the next one, and the last includes the file of the
place. -/
inductive Linked (files : SourceFiles) :
    Source → Option String → List Location → Location → Prop where
  | last {source : Source} {directory : Option String} {place : Location} {words : List String}
      (hline : source.HasLine place words) : Linked files source directory [] place
  | next {source inner : Source} {directory : Option String} {line place : Location}
      {words : List String} {file : String} {trail : List Location}
      (hline : source.HasLine line words) (hincludes : includedFile? words = some file)
      (hfile : fileSource files (pathFrom directory file) = .ok inner)
      (h : Linked files inner (inner.directory.or directory) trail place) :
      Linked files source directory (line :: trail) place

theorem ComesTo.linked
    {files : SourceFiles} {source last : Source} {reader state : Reader} {trail : List Location}
    (h : ComesTo files source reader trail last state) {statement : Statement}
    (hstatement : statement ∈ Statement.ofSource last.file last.text) :
    Linked files source (source.directory.or reader.directories.head?) trail
      statement.place := by
  induction h with
  | outset => exact .last (Source.hasLine_of_mem hstatement)
  | inclusion henters _ ih =>
      obtain ⟨file, hnamed, hfile⟩ := henters.includedFile
      obtain ⟨-, -, hdirectories, -⟩ := henters.spec
      have hinner := ih hstatement
      rw [hdirectories, head?_directories] at hinner
      exact .next (Source.hasLine_of_mem henters.mem) hnamed hfile hinner

/-! ## Faults -/

/-- The first statement that fails stops the reading, and the report gets its place. -/
theorem statements_eq_error
    {onInclude : String → Reading Unit} {list : List Statement} {reader next : Reader}
    {report : Report} (h : statements onInclude list reader = .error report next) :
    ∃ before statement after reached own,
      list = before ++ statement :: after ∧
      statements onInclude before reader = .ok () reached ∧
      dispatch onInclude statement.words { reached with here := statement.place } =
        .error own next ∧
      report = own.locate statement.place reached.inclusions := by
  induction list generalizing reader with
  | nil => cases h
  | cons statement rest ih =>
      rw [statements_cons_apply] at h
      split at h
      · next reached hrun =>
          obtain ⟨before, failing, after, last, own, rfl, hbefore, hown, hreport⟩ := ih h
          refine ⟨statement :: before, failing, after, last, own, rfl, ?_, hown, hreport⟩
          rw [statements_cons_apply, hrun]
          exact hbefore
      · next own failed hrun =>
          cases h
          exact ⟨[], statement, rest, reader, own, rfl, rfl, hrun, rfl⟩

/-- Reading a source, the reader comes along a trail of inclusions upon a fault in the
statement at a place. -/
def ComesUpon (files : SourceFiles) (source : Source) (reader : Reader) (fault : Fault)
    (trail : List Location) (place : Location) : Prop :=
  ∃ inner entered statement state next,
    ComesTo files source reader trail inner entered ∧
    Meets files inner entered statement state ∧ statement.place = place ∧
    dispatch (inclusion files (readSource files)) statement.words state =
      .error (.ofFault fault) next

theorem ComesUpon.linked
    {files : SourceFiles} {source : Source} {reader : Reader} {fault : Fault}
    {trail : List Location} {place : Location}
    (h : ComesUpon files source reader fault trail place) :
    Linked files source (source.directory.or reader.directories.head?) trail place := by
  obtain ⟨inner, entered, statement, state, next, hcomes, hmeets, rfl, -⟩ := h
  exact hcomes.linked hmeets.mem

theorem error_of_afterwards
    {α : Type} {step : Reading α} {change : Reader → Reader} {reader next : Reader}
    {report : Report} (h : afterwards step change reader = .error report next) :
    ∃ failed, step reader = .error report failed := by
  unfold afterwards at h
  split at h
  · cases h
  · next failed hrun =>
      cases h
      exact ⟨failed, hrun⟩

/-- An inclusion fails in itself, or in the file that it includes. -/
theorem inclusion_eq_error
    {files : SourceFiles} {read : Source → Reading Unit} {file : String} {there next : Reader}
    {report : Report} (h : inclusion files read file there = .error report next) :
    (∃ fault, report = .ofFault fault) ∨
      ∃ inner failed, there.inclusions.length < there.depthLimit ∧
        fileSource files (there.includedPath file) = .ok inner ∧
        read inner there.inside = .error report failed := by
  rw [inclusion, get_bind_apply] at h
  split at h
  · cases h
    exact .inl ⟨_, rfl⟩
  · next hroom =>
      rw [includeFile_apply] at h
      split at h
      · cases h
        exact .inl ⟨_, rfl⟩
      · next inner hfile =>
          obtain ⟨failed, hfailed⟩ := error_of_afterwards h
          exact .inr ⟨inner, failed, Nat.lt_of_not_le hroom, hfile, hfailed⟩

theorem locate_of_place
    {report : Report} {place : Location} (h : report.place = some place) (other : Location)
    (trail : List Location) : report.locate other trail = report := by
  rw [Report.locate, h]

/-- The report of a fault has the place where the fault arose and lists the inclusions that
led there. -/
theorem report_of_readSource
    {files : SourceFiles} {source : Source} {reader next : Reader} {report : Report}
    (h : readSource files source reader = .error report next) :
    ∃ trail place, report = ⟨report.fault, some place, reader.inclusions ++ trail⟩ ∧
      ComesUpon files source reader report.fault trail place := by
  induction hroom : reader.depthLimit - reader.inclusions.length using Nat.strongRecOn
    generalizing source reader next report with
  | ind room ih =>
      rw [readSource_eq] at h
      obtain ⟨failed, hfailed⟩ := error_of_afterwards h
      obtain ⟨before, statement, after, reached, own, hlines, hbefore, hown, rfl⟩ :=
        statements_eq_error hfailed
      have hmeets : Meets files source reader statement { reached with here := statement.place } :=
        ⟨before, after, reached, hlines, hbefore, rfl⟩
      obtain ⟨hinclusions, -⟩ := hmeets.spec
      -- a fault of the statement itself has no place yet, and gets that of the statement
      have hitself : ∀ fault, own = .ofFault fault →
          ∃ trail place,
            own.locate statement.place reached.inclusions =
              ⟨(own.locate statement.place reached.inclusions).fault, some place,
                reader.inclusions ++ trail⟩ ∧
            ComesUpon files source reader
              (own.locate statement.place reached.inclusions).fault trail place := by
        rintro fault rfl
        refine ⟨[], statement.place, ?_, source, reader, statement, _, _, .outset _ _, hmeets,
          rfl, hown⟩
        rw [List.append_nil, ← hinclusions]
        rfl
      rcases dispatch_cases statement.words { reached with here := statement.place } with
        ⟨file, there, hincludes⟩ | hsame
      · rw [hincludes.dispatch] at hown
        rcases inclusion_eq_error hown with
          ⟨fault, hof⟩ | ⟨inner, stopped, hless, hfile, hinner⟩
        · exact hitself fault hof
        · have henters : Enters files source reader statement inner there.inside :=
            .mk hmeets hincludes hless hfile
          obtain ⟨hentered, hlimit, -, hshallow⟩ := henters.spec
          have hsmaller :
              there.inside.depthLimit - there.inside.inclusions.length < room := by
            rw [hentered, hlimit, List.length_append, List.length_singleton]
            omega
          obtain ⟨trail, place, hreport, last, entered, found, state, stop, hcomes, hrest⟩ :=
            ih _ hsmaller hinner rfl
          have hplace : own.place = some place := by rw [hreport]
          rw [locate_of_place hplace]
          refine ⟨statement.place :: trail, place, ?_, last, entered, found, state, stop,
            .inclusion henters hcomes, hrest⟩
          rw [hentered, List.append_assoc] at hreport
          exact hreport
      · rw [hsame] at hown
        obtain ⟨fault, hof⟩ := error_of_line hown
        exact hitself fault hof

/-- Reading keeps account of inclusions, for all files, also such that include themselves.
The recursion of reading has one solution only, so it comes to an end. Afterwards, by
success and by failure, the reader is in the inclusions and directories in which it began.
Everywhere on the way its inclusions are within the limit if they were at the start. And a
report has the place of the statement in which the fault arose, in the source then being
read, and the inclusions that led there, each of which includes the file of the next. -/
theorem readSource_accounts (files : SourceFiles) (source : Source) (reader : Reader) :
    (∀ read : Source → Reading Unit,
      (∀ source, read source = readStatements (inclusion files read) source) ↔
        read = readSource files) ∧
    Returns reader (left (readSource files source reader)) ∧
    (reader.inclusions.length ≤ reader.depthLimit → ∀ trail inner entered,
      ComesTo files source reader trail inner entered →
        entered.inclusions.length ≤ reader.depthLimit ∧
        ∀ statement state, Meets files inner entered statement state →
          state.inclusions = entered.inclusions) ∧
    ∀ report next, readSource files source reader = .error report next →
      ∃ trail place, report.place = some place ∧
        report.includedFrom = reader.inclusions ++ trail ∧
        ComesUpon files source reader report.fault trail place ∧
        Linked files source (source.directory.or reader.directories.head?) trail place := by
  refine ⟨fun read => ⟨eq_readSource, ?_⟩, readSource_returns files source, ?_, ?_⟩
  · rintro rfl source
    exact readSource_eq files source
  · intro hstart trail inner entered hcomes
    refine ⟨?_, fun statement state hmeets => hmeets.spec.1⟩
    cases hcomes with
    | outset => exact hstart
    | inclusion henters h => exact (ComesTo.inclusion henters h).spec.2.2 (List.cons_ne_nil _ _)
  · intro report next hrun
    obtain ⟨trail, place, hreport, hupon⟩ := report_of_readSource hrun
    exact ⟨trail, place, by rw [hreport], by rw [hreport], hupon, hupon.linked⟩

/-- A file that includes itself. -/
def refrainFiles : SourceFiles := fun path =>
  if path = "refrain" then .ok "include refrain" else .error .missing

/-- A source that includes the file in its second line. -/
def refrain : Source := ⟨"\ninclude refrain", "song", none⟩

/-- The place of a report and the inclusions that it lists, if reading fails. -/
def attribution : EStateM.Result Report Reader Unit → Option (Option Location × List Location)
  | .ok _ _ => none
  | .error report _ => some (report.place, report.includedFrom)

/-- Two inclusions deep the refrain may not include itself once more. The report names its
line, under the line that includes it and the line of the source. -/
theorem refrain_accounts :
    ∃ report next, readSource refrainFiles refrain (initial 2) = .error report next ∧
      report.place = some ⟨"refrain", 1⟩ ∧
      report.includedFrom = [⟨"song", 2⟩, ⟨"refrain", 1⟩] ∧
      Linked refrainFiles refrain none [⟨"song", 2⟩, ⟨"refrain", 1⟩] ⟨"refrain", 1⟩ ∧
      Returns (initial 2) next := by
  have hfails : attribution (readSource refrainFiles refrain (initial 2)) =
      some (some ⟨"refrain", 1⟩, [⟨"song", 2⟩, ⟨"refrain", 1⟩]) := by
    decide +kernel
  obtain ⟨-, hreturns, -, hreports⟩ := readSource_accounts refrainFiles refrain (initial 2)
  cases hrun : readSource refrainFiles refrain (initial 2) with
  | ok _ next =>
      rw [hrun] at hfails
      cases hfails
  | error report next =>
      rw [hrun] at hfails hreturns
      obtain ⟨hplace, hfrom⟩ := Prod.mk.inj (Option.some.inj hfails)
      obtain ⟨trail, place, hplace', hfrom', -, hlinked⟩ := hreports report next hrun
      obtain rfl := Option.some.inj (hplace'.symm.trans hplace)
      obtain rfl : trail = _ := hfrom'.symm.trans hfrom
      exact ⟨report, next, rfl, hplace, hfrom, hlinked, hreturns⟩

end Reader

end Chiptune
