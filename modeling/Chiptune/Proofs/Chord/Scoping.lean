import Chiptune.Pitch
import Chiptune.Proofs.Chord.Naming
import Mathlib.Logic.Relation

/-!
# The scope of chord names

The contexts that grow from one root share a book of chord names. What a name means in a
context is told here by the history of the tree alone, without layers or lineages: the
context's own definition decides, else that of the nearest context around it, else the
built-in chord. A definition is seen inside its context only, and is never replaced.
-/

namespace Chiptune

/-- Contexts in the order of their creation, with the book that they share. -/
structure PitchTree where
  contexts : List PitchState
  book : ChordBook

namespace PitchTree

/-- The outermost context alone. -/
def root : PitchTree := ⟨[.initial], .blank⟩

/-- What happened to a tree. -/
inductive Change where
  | nested (parent : Nat)
  | defined (index : Nat) (name : String) (code : ChordCode)

/-- One change: a context gets a child, or a definition in it is accepted. -/
inductive Grows (tree : PitchTree) : Change → PitchTree → Prop
  | nest {index : Nat} {context : PitchState}
      (hcontext : tree.contexts[index]? = some context) :
      Grows tree (.nested index)
        ⟨tree.contexts ++ [(context.child tree.book).1], (context.child tree.book).2⟩
  | define {index : Nat} {context : PitchState} {name definition : String}
      {arpeggio : Arpeggio} {book : ChordBook}
      (hcontext : tree.contexts[index]? = some context)
      (hcode : tree.book.interpret context.lineage definition = .ok (some arpeggio))
      (hdefine : tree.book.define context.lineage name definition = .ok book) :
      Grows tree (.defined index name arpeggio.code) ⟨tree.contexts, book⟩

/-- Many changes, the last one first. -/
inductive Grown (tree : PitchTree) : List Change → PitchTree → Prop
  | refl : Grown tree [] tree
  | step {history : List Change} {middle next : PitchTree} {change : Change}
      (hbefore : Grown tree history middle) (hlast : Grows middle change next) :
      Grown tree (change :: history) next

/-! ## What a history says -/

/-- The number of contexts after a history. -/
def size : List Change → Nat
  | [] => 1
  | .nested _ :: history => size history + 1
  | .defined .. :: history => size history

/-- The context in which a context was created. -/
def parent? : List Change → Nat → Option Nat
  | [], _ => none
  | .nested parent :: history, index =>
    if index = size history then some parent else parent? history index
  | .defined .. :: history, index => parent? history index

theorem parent?_cons_of_lt
    {history : List Change} {index : Nat} (change : Change) (h : index < size history) :
    parent? (change :: history) index = parent? history index := by
  cases change with
  | nested parent => rw [parent?, if_neg (by omega)]
  | defined => rfl

/-- The code that a name was defined as in a context itself. -/
def own? : List Change → Nat → String → Option ChordCode
  | [], _, _ => none
  | .nested _ :: history, index, name => own? history index name
  | .defined context defined code :: history, index, name =>
    if index = context ∧ name = defined then some code else own? history index name

/-- What a name means in a context: the nearest definition decides. -/
inductive Means (history : List Change) (name : String) : Nat → Option ChordCode → Prop
  | own {index : Nat} {code : ChordCode} (hown : own? history index name = some code) :
      Means history name index (some code)
  | inherited {index parent : Nat} {meaning : Option ChordCode}
      (hown : own? history index name = none) (hparent : parent? history index = some parent)
      (houter : Means history name parent meaning) : Means history name index meaning
  | builtin {index : Nat} (hown : own? history index name = none)
      (hparent : parent? history index = none) :
      Means history name index (builtinChords.lookup name)

theorem Means.eq_of_own
    {history : List Change} {name : String} {index : Nat} {meaning : Option ChordCode}
    {code : ChordCode} (h : Means history name index meaning)
    (hown : own? history index name = some code) : meaning = some code := by
  cases h with
  | own hother => rw [← hother, hown]
  | inherited hnone => simp [hown] at hnone
  | builtin hnone => simp [hown] at hnone

/-- One context was created in another. -/
def Child (history : List Change) (inner outer : Nat) : Prop :=
  parent? history inner = some outer

/-- One context is a descendant of another. -/
def Descends (history : List Change) (inner outer : Nat) : Prop :=
  Relation.TransGen (Child history) inner outer

/-! ## Lineages -/

/-- The lineage goes from a context up to the root. -/
inductive IsPath (history : List Change) : Nat → Lineage → Prop
  | top {index : Nat} (hparent : parent? history index = none) :
      IsPath history index [index]
  | inside {index parent : Nat} {outer : Lineage}
      (hparent : parent? history index = some parent) (houter : IsPath history parent outer) :
      IsPath history index (index :: outer)

section IsPath

variable {history : List Change} {index : Nat} {lineage : Lineage}

theorem IsPath.exists_cons (h : IsPath history index lineage) :
    ∃ outer, lineage = index :: outer := by
  cases h with
  | top => exact ⟨[], rfl⟩
  | inside => exact ⟨_, rfl⟩

/-- The layers that a context sees are its own and those of the contexts around it. -/
theorem IsPath.descends_of_mem
    {seen : Nat} (h : IsPath history index lineage) (hseen : seen ∈ lineage) :
    seen = index ∨ Descends history index seen := by
  induction h with
  | top => exact .inl (List.mem_singleton.mp hseen)
  | @inside index parent outer hparent _ ih =>
      rcases List.mem_cons.mp hseen with heq | houter
      · exact .inl heq
      · right
        rcases ih houter with rfl | hdescends
        · exact .single hparent
        · exact .head hparent hdescends

theorem IsPath.means
    {book : ChordBook} {name : String} (h : IsPath history index lineage)
    (hown : ∀ index, (book.layer index).lookup name = own? history index name) :
    Means history name index (book.lookup? lineage name) := by
  induction h with
  | @top index hparent =>
      rw [ChordBook.lookup?_cons, hown, ChordBook.lookup?_nil]
      cases hcode : own? history index name with
      | some code => exact .own hcode
      | none => exact .builtin hcode hparent
  | @inside index parent outer hparent _ ih =>
      rw [ChordBook.lookup?_cons, hown]
      cases hcode : own? history index name with
      | some code => exact .own hcode
      | none => exact .inherited hcode hparent ih

end IsPath

/-! ## The invariant -/

/-- The tree is what its history says: every context has a layer with the definitions made
in it, and its lineage leads to the root. -/
structure Accords (history : List Change) (tree : PitchTree) : Prop where
  contexts_length : tree.contexts.length = size history
  layers_length : tree.book.layers.length = size history
  parent_lt {index parent : Nat} (h : parent? history index = some parent) : parent < index
  isPath {index : Nat} {context : PitchState} (h : tree.contexts[index]? = some context) :
    IsPath history index context.lineage
  own (index : Nat) (name : String) :
    (tree.book.layer index).lookup name = own? history index name

theorem accords_root : Accords [] root where
  contexts_length := rfl
  layers_length := rfl
  parent_lt h := by cases h
  isPath {index context} h := by
    cases index with
    | zero =>
        cases h
        exact .top rfl
    | succ index => cases h
  own index name := by
    cases index with
    | zero => rfl
    | succ index => rfl

namespace Accords

variable {history : List Change} {tree next : PitchTree} {index : Nat} {context : PitchState}

theorem lt_size (h : Accords history tree) (hcontext : tree.contexts[index]? = some context) :
    index < size history := by
  obtain ⟨hlt, -⟩ := List.getElem?_eq_some_iff.mp hcontext
  rw [← h.contexts_length]
  exact hlt

/-- A context's own layer has the number of the context. -/
theorem exists_cons
    (h : Accords history tree) (hcontext : tree.contexts[index]? = some context) :
    ∃ outer, context.lineage = index :: outer ∧ index < tree.book.layers.length := by
  obtain ⟨outer, hlineage⟩ := (h.isPath hcontext).exists_cons
  refine ⟨outer, hlineage, ?_⟩
  rw [h.layers_length]
  exact h.lt_size hcontext

/-- No change moves a context that exists. -/
theorem isPath_cons
    (h : Accords history tree) (change : Change) {index : Nat} {lineage : Lineage}
    (hpath : IsPath history index lineage) (hlt : index < size history) :
    IsPath (change :: history) index lineage := by
  induction hpath with
  | top hparent => exact .top (by rw [parent?_cons_of_lt change hlt, hparent])
  | @inside index above outer hparent _ ih =>
      have habove : above < size history := Nat.lt_trans (h.parent_lt hparent) hlt
      exact .inside (by rw [parent?_cons_of_lt change hlt, hparent]) (ih habove)

theorem nest (h : Accords history tree) (hcontext : tree.contexts[index]? = some context) :
    Accords (.nested index :: history)
      ⟨tree.contexts ++ [(context.child tree.book).1], (context.child tree.book).2⟩ where
  contexts_length := by simp [size, h.contexts_length]
  layers_length := by simp [PitchState.child, ChordBook.nest, size, h.layers_length]
  parent_lt {child parent} hparent := by
    rw [parent?] at hparent
    split at hparent
    next heq =>
      cases hparent
      rw [heq]
      exact h.lt_size hcontext
    · exact h.parent_lt hparent
  isPath {child created} hchild := by
    by_cases hold : child < tree.contexts.length
    · rw [List.getElem?_append_left hold] at hchild
      exact h.isPath_cons _ (h.isPath hchild) (h.lt_size hchild)
    · rw [List.getElem?_append_right (by omega)] at hchild
      rw [List.getElem?_singleton] at hchild
      split at hchild
      next hlast =>
        cases hchild
        have hnew : child = size history := by
          rw [← h.contexts_length]
          omega
        have hlineage : (context.child tree.book).1.lineage = child :: context.lineage := by
          simp [PitchState.child, ChordBook.nest, h.layers_length, hnew]
        rw [hlineage]
        exact .inside (by rw [parent?, if_pos hnew])
          (h.isPath_cons _ (h.isPath hcontext) (h.lt_size hcontext))
      · cases hchild
  own child name := by
    rw [own?, ← h.own child name]
    exact congrArg (·.lookup name) (ChordBook.layer_nest tree.book context.lineage child)

/-- A definition that is accepted is the first of its name in its context. -/
theorem own?_eq_none
    {name definition : String} {book : ChordBook}
    (h : Accords history tree) (hcontext : tree.contexts[index]? = some context)
    (hdefine : tree.book.define context.lineage name definition = .ok book) :
    own? history index name = none := by
  obtain ⟨-, -, hnew, -⟩ := ChordBook.define_eq_ok hdefine
  obtain ⟨outer, hlineage, -⟩ := h.exists_cons hcontext
  rw [hlineage, ChordBook.definesOwn, h.own] at hnew
  simpa using hnew

theorem define
    {name definition : String} {arpeggio : Arpeggio} {book : ChordBook}
    (h : Accords history tree) (hcontext : tree.contexts[index]? = some context)
    (hcode : tree.book.interpret context.lineage definition = .ok (some arpeggio))
    (hdefine : tree.book.define context.lineage name definition = .ok book) :
    Accords (.defined index name arpeggio.code :: history) ⟨tree.contexts, book⟩ := by
  obtain ⟨-, -, -, chord, hchord, rfl⟩ := ChordBook.define_eq_ok hdefine
  cases hchord.symm.trans hcode
  obtain ⟨outer, hlineage, hlayer⟩ := h.exists_cons hcontext
  exact {
    contexts_length := h.contexts_length
    layers_length := by simp [ChordBook.record, hlineage, size, h.layers_length]
    parent_lt := h.parent_lt
    isPath := fun hother => h.isPath_cons _ (h.isPath hother) (h.lt_size hother)
    own := fun other query => by
      rw [hlineage, ChordBook.lookup_layer_record hlayer, own?, h.own] }

theorem grows {change : Change} (h : Accords history tree) (hgrows : Grows tree change next) :
    Accords (change :: history) next := by
  cases hgrows with
  | nest hcontext => exact h.nest hcontext
  | define hcontext hcode hdefine => exact h.define hcontext hcode hdefine

theorem grown {later : List Change} (h : Accords history tree) (hgrown : Grown tree later next) :
    Accords (later ++ history) next := by
  induction hgrown with
  | refl => exact h
  | step _ hlast ih => exact ih.grows hlast

theorem lt_of_descends
    {inner outer : Nat} (h : Accords history tree) (hdescends : Descends history inner outer) :
    outer < inner := by
  induction hdescends with
  | single hchild => exact h.parent_lt hchild
  | tail _ hchild ih => exact Nat.lt_trans (h.parent_lt hchild) ih

/-- A definition is not seen from a context that is neither its own nor inside it. -/
theorem lookup?_define
    {name definition : String} {book : ChordBook} {other : Nat} {seen : PitchState}
    (h : Accords history tree) (hcontext : tree.contexts[index]? = some context)
    (hdefine : tree.book.define context.lineage name definition = .ok book)
    (hother : tree.contexts[other]? = some seen)
    (hne : other ≠ index) (houtside : ¬Descends history other index) (query : String) :
    book.lookup? seen.lineage query = tree.book.lookup? seen.lineage query := by
  obtain ⟨-, -, -, chord, -, rfl⟩ := ChordBook.define_eq_ok hdefine
  obtain ⟨outer, hlineage, hlayer⟩ := h.exists_cons hcontext
  have hnot : index ∉ seen.lineage := fun hmem => by
    rcases (h.isPath hother).descends_of_mem hmem with heq | hdescends
    · exact hne heq.symm
    · exact houtside hdescends
  rw [hlineage]
  exact ChordBook.lookup?_record_of_not_mem hlayer outer name chord.code hnot query

theorem own?_grows
    {change : Change} {code : ChordCode} {name : String} (h : Accords history tree)
    (hgrows : Grows tree change next) (hown : own? history index name = some code) :
    own? (change :: history) index name = some code := by
  cases hgrows with
  | nest => exact hown
  | @define defined context query definition arpeggio book hcontext hcode hdefine =>
      have hfirst := h.own?_eq_none hcontext hdefine
      have hnot : ¬(index = defined ∧ name = query) := by
        rintro ⟨rfl, rfl⟩
        simp [hown] at hfirst
      rw [own?, if_neg hnot, hown]

theorem own?_grown
    {later : List Change} {code : ChordCode} {name : String} (h : Accords history tree)
    (hgrown : Grown tree later next) (hown : own? history index name = some code) :
    own? (later ++ history) index name = some code := by
  induction hgrown with
  | refl => exact hown
  | step hbefore hlast ih => exact (h.grown hbefore).own?_grows hlast ih

end Accords

theorem Grown.getElem?_contexts
    {tree next : PitchTree} {later : List Change} {index : Nat} {context : PitchState}
    (hgrown : Grown tree later next) (hcontext : tree.contexts[index]? = some context) :
    next.contexts[index]? = some context := by
  induction hgrown with
  | refl => exact hcontext
  | step _ hlast ih =>
      cases hlast with
      | nest =>
          obtain ⟨hlt, -⟩ := List.getElem?_eq_some_iff.mp ih
          rw [List.getElem?_append_left hlt, ih]
      | define => exact ih

/-! ## The scope of names -/

/-- Names mean in a tree what the history of the tree says. -/
structure LexicallyScoped (history : List Change) (tree : PitchTree) : Prop where
  /-- Every context has a layer of its own. -/
  has {index : Nat} {context : PitchState}
    (hcontext : tree.contexts[index]? = some context) : tree.book.Has context.lineage
  /-- The nearest definition decides, whenever it was made. -/
  nearest {index : Nat} {context : PitchState}
    (hcontext : tree.contexts[index]? = some context) (name : String) :
    Means history name index (tree.book.lookup? context.lineage name)
  /-- A definition changes nothing around its context or beside it. -/
  hidden {index other : Nat} {context seen : PitchState} {name definition : String}
    {book : ChordBook} (hcontext : tree.contexts[index]? = some context)
    (hdefine : tree.book.define context.lineage name definition = .ok book)
    (hother : tree.contexts[other]? = some seen)
    (houtside : Descends history index other ∨
      other ≠ index ∧ ¬Descends history other index) (query : String) :
    book.lookup? seen.lineage query = tree.book.lookup? seen.lineage query
  /-- A name that a context defines keeps its code there, whatever happens later. -/
  kept {index : Nat} {context : PitchState} {name : String} {code : ChordCode}
    {later : List Change} {next : PitchTree}
    (hcontext : tree.contexts[index]? = some context)
    (hown : own? history index name = some code) (hlater : Grown tree later next) :
    next.contexts[index]? = some context ∧
      own? (later ++ history) index name = some code ∧
      next.book.lookup? context.lineage name = some code

/-- In every tree that grows from the root, chord names are lexically scoped. -/
theorem lexicallyScoped_of_grown
    {history : List Change} {tree : PitchTree} (hgrown : Grown root history tree) :
    LexicallyScoped history tree := by
  have haccords : Accords history tree := by simpa using accords_root.grown hgrown
  exact {
    has := fun hcontext => by
      obtain ⟨outer, hlineage, hlayer⟩ := haccords.exists_cons hcontext
      exact ⟨_, outer, hlineage, hlayer⟩
    nearest := fun hcontext name => (haccords.isPath hcontext).means fun index =>
      haccords.own index name
    hidden := fun {index other} _ _ _ _ _ hcontext hdefine hother houtside query => by
      have hapart : other ≠ index ∧ ¬Descends history other index := by
        rcases houtside with habove | hbeside
        · have hlt := haccords.lt_of_descends habove
          refine ⟨by omega, fun hbelow => ?_⟩
          exact Nat.lt_asymm hlt (haccords.lt_of_descends hbelow)
        · exact hbeside
      exact haccords.lookup?_define hcontext hdefine hother hapart.1 hapart.2 query
    kept := fun hcontext hown hlater => by
      have hsame := hlater.getElem?_contexts hcontext
      have hstill := haccords.own?_grown hlater hown
      have hlast := haccords.grown hlater
      refine ⟨hsame, hstill, ?_⟩
      exact ((hlast.isPath hsame).means fun index => hlast.own index _).eq_of_own hstill }

/-- A context of the given lineage. -/
def seeing (lineage : Lineage) : PitchState := { PitchState.initial with lineage := lineage }

/-- The tree of the given lineages and layers. -/
def ofLineages (lineages : List Lineage) (layers : List ChordLayer) : PitchTree :=
  ⟨lineages.map seeing, ⟨layers⟩⟩

/-- The root has the children 1 and 3, and 2 is inside 1; the root and then 1 define a name
after 2 was created. -/
def medley : List Change :=
  [.defined 1 "add9" (.ofNats 2 5), .nested 0, .defined 0 "add9" (.ofNats 4 14), .nested 1,
    .nested 0]

/-- The tree of that history. -/
def medleyTree : PitchTree :=
  ofLineages [[0], [1, 0], [2, 1, 0], [3, 0]]
    [[("add9", .ofNats 4 14)], [("add9", .ofNats 2 5)], [], []]

/-- The inner context follows the later definition around it, the one beside does not. -/
theorem medley_lexicallyScoped :
    Grown root medley medleyTree ∧
      Means medley "add9" 2 (some (.ofNats 2 5)) ∧
      Means medley "add9" 3 (some (.ofNats 4 14)) := by
  let add9 : String × ChordCode := ("add9", .ofNats 4 14)
  let later : String × ChordCode := ("add9", .ofNats 2 5)
  have hsong := Grows.nest (rfl : root.contexts[0]? = some (seeing [0]))
  have hpattern := Grows.nest
    (rfl : (ofLineages [[0], [1, 0]] [[], []]).contexts[1]? = some (seeing [1, 0]))
  have hcode : ChordBook.interpret ⟨[[], [], []]⟩ [0] "4E" =
      .ok (some ⟨.ofNats 4 14, false⟩) := rfl
  have hdefine : ChordBook.define ⟨[[], [], []]⟩ [0] "add9" "4E" =
      .ok ⟨[[add9], [], []]⟩ := rfl
  have houter := Grows.define (rfl : (ofLineages [[0], [1, 0], [2, 1, 0]]
    [[], [], []]).contexts[0]? = some (seeing [0])) hcode hdefine
  have hbeside := Grows.nest (rfl : (ofLineages [[0], [1, 0], [2, 1, 0]]
    [[add9], [], []]).contexts[0]? = some (seeing [0]))
  have hcode' : ChordBook.interpret ⟨[[add9], [], [], []]⟩ [1, 0] "25" =
      .ok (some ⟨.ofNats 2 5, false⟩) := rfl
  have hdefine' : ChordBook.define ⟨[[add9], [], [], []]⟩ [1, 0] "add9" "25" =
      .ok ⟨[[add9], [later], [], []]⟩ := rfl
  have hinner := Grows.define (rfl : (ofLineages [[0], [1, 0], [2, 1, 0], [3, 0]]
    [[add9], [], [], []]).contexts[1]? = some (seeing [1, 0])) hcode' hdefine'
  have hgrown : Grown root medley medleyTree :=
    .step (.step (.step (.step (.step .refl hsong) hpattern) houter) hbeside) hinner
  have hscoped := lexicallyScoped_of_grown hgrown
  have hseen : medleyTree.contexts[2]? = some (seeing [2, 1, 0]) := rfl
  have hseen' : medleyTree.contexts[3]? = some (seeing [3, 0]) := rfl
  exact ⟨hgrown, hscoped.nearest hseen "add9", hscoped.nearest hseen' "add9"⟩

end PitchTree

end Chiptune
