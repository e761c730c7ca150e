import Chiptune.Output.Wrap
import Mathlib.Algebra.Ring.Nat
import Mathlib.Data.List.Chain

/-!
# Wrapped lines

A wrapping spreads atoms over lines in order. A line that is too long holds one atom alone, and
no line ends before it is full. There is one such wrapping for every list of atoms, and it is
the one that is written.
-/

namespace Chiptune.Output

/-- The line of some atoms behind an opening. -/
def lineOf (opening : String) (atoms : List String) : String :=
  opening ++ String.intercalate "," atoms

/-- What a line has behind an opening. -/
def behind (opening line : String) : String :=
  String.ofList (line.toList.drop opening.toList.length)

/-- The atoms are spread over lines: in order, over no line that stays empty, over no line that
is too long for more than one atom, and onto the next line only when there is no room. -/
structure IsSpread (opening : String) (atoms : List String) (groups : List (List String)) :
    Prop where
  flatten : groups.flatten = atoms
  ne_nil : ∀ group ∈ groups, group ≠ []
  fits : ∀ group ∈ groups, lineBytes < (lineOf opening group).utf8ByteSize → group.length = 1
  greedy : groups.IsChain fun group next => ∀ atom ∈ next.head?,
    lineBytes < (lineOf opening (group ++ [atom])).utf8ByteSize

/-- The lines wrap the atoms behind the opening. -/
structure IsWrapping (opening : String) (atoms lines : List String) : Prop where
  opened : ∀ line ∈ lines, opening.toList <+: line.toList
  /-- Without their openings the lines are the atoms. -/
  joined : String.intercalate "," (lines.map (behind opening)) = String.intercalate "," atoms
  spread : ∃ groups, lines = groups.map (lineOf opening) ∧ IsSpread opening atoms groups

/-! ## Bytes of lines -/

/-- The bytes of atoms with a comma behind each. -/
def taken (atoms : List String) : Nat := (atoms.map fun atom => atom.utf8ByteSize + 1).sum

@[simp] theorem taken_append (first second : List String) :
    taken (first ++ second) = taken first + taken second := by
  simp [taken]

@[simp] theorem taken_cons (atom : String) (atoms : List String) :
    taken (atom :: atoms) = atom.utf8ByteSize + 1 + taken atoms := by
  simp [taken]

@[simp] theorem taken_reverse (atoms : List String) : taken atoms.reverse = taken atoms := by
  simp [taken, List.sum_reverse]

theorem length_le_taken (atoms : List String) : atoms.length ≤ taken atoms := by
  induction atoms with
  | nil => simp
  | cons atom atoms ih =>
      rw [taken_cons, List.length_cons]
      omega

/-- A line has no comma behind its last atom. -/
theorem utf8ByteSize_lineOf (opening : String) {atoms : List String} (h : atoms ≠ []) :
    (lineOf opening atoms).utf8ByteSize + 1 = opening.utf8ByteSize + taken atoms := by
  have hatoms : (String.intercalate "," atoms).utf8ByteSize + 1 = taken atoms := by
    induction atoms with
    | nil => exact absurd rfl h
    | cons atom atoms ih =>
        cases atoms with
        | nil => simp [taken]
        | cons next rest =>
            have hcomma : ",".utf8ByteSize = 1 := rfl
            have hrest := ih (List.cons_ne_nil next rest)
            rw [String.intercalate_cons_cons, String.utf8ByteSize_append,
              String.utf8ByteSize_append, taken_cons]
            omega
  rw [lineOf, String.utf8ByteSize_append]
  omega

/-! ## Filling lines -/

variable {opening : String} {room used : Nat} {line atoms : List String}

/-- Lines are filled with the atoms in order, and with nothing else. -/
theorem flatten_fill (room : Nat) (line : List String) (used : Nat) (atoms : List String) :
    (fill room line used atoms).flatten = line.reverse ++ atoms := by
  fun_induction fill room line used atoms with
  | case1 line used hempty => simp_all
  | case2 line used hline => simp
  | case3 line used atom atoms hfull ih => simp [ih]
  | case4 line used atom atoms hroom ih => simp [ih]

/-- The line that is being filled becomes the first. -/
theorem exists_fill_eq_cons (room used : Nat) (atoms : List String) (h : line ≠ []) :
    ∃ more rest, fill room line used atoms = (line.reverse ++ more) :: rest := by
  fun_induction fill room line used atoms with
  | case1 line used hempty => exact absurd (List.isEmpty_iff.mp hempty) h
  | case2 line used hline => exact ⟨[], [], by simp⟩
  | case3 line used atom atoms hfull ih => exact ⟨[], _, by rw [List.append_nil]⟩
  | case4 line used atom atoms hroom ih =>
      obtain ⟨more, rest, hfill⟩ := ih (List.cons_ne_nil atom line)
      exact ⟨atom :: more, rest, by rw [hfill]; simp⟩

theorem ne_nil_of_mem_fill (room used : Nat) (line atoms : List String) :
    ∀ group ∈ fill room line used atoms, group ≠ [] := by
  fun_induction fill room line used atoms with
  | case1 line used hempty => simp
  | case2 line used hline => simpa using hline
  | case3 line used atom atoms hfull ih =>
      have hline : line ≠ [] := by simp_all
      exact List.forall_mem_cons.mpr ⟨by simpa using hline, ih⟩
  | case4 line used atom atoms hroom ih => exact ih

/-- A group fits, with a comma less than it takes, or is one atom. -/
theorem le_of_mem_fill
    (hused : used = taken line) (hline : line.length ≤ 1 ∨ taken line ≤ room + 1) :
    ∀ group ∈ fill room line used atoms, group.length ≤ 1 ∨ taken group ≤ room + 1 := by
  fun_induction fill room line used atoms with
  | case1 line used hempty => simp
  | case2 line used hempty => simpa using hline
  | case3 line used atom atoms hfull ih =>
      refine List.forall_mem_cons.mpr ⟨by simpa using hline, ih ?_ (.inl ?_)⟩
      · simp [taken]
      · simp
  | case4 line used atom atoms hroom ih =>
      apply ih
      · rw [taken_cons]
        omega
      · simp only [Bool.and_eq_true, Bool.not_eq_true', List.isEmpty_eq_false_iff,
          decide_eq_true_eq, not_and, not_lt] at hroom
        by_cases hempty : line = []
        · exact .inl (by simp [hempty])
        · right
          rw [taken_cons]
          have := hroom hempty
          omega

/-- The first atom of a group would not have fitted behind the group before it. -/
theorem isChain_fill (hused : used = taken line) :
    (fill room line used atoms).IsChain fun group next => ∀ atom ∈ next.head?,
      room + 1 < taken (group ++ [atom]) := by
  fun_induction fill room line used atoms with
  | case1 line used hempty => exact .nil
  | case2 line used hempty => exact .singleton _
  | case3 line used atom atoms hfull ih =>
      have hatom : atom.utf8ByteSize + 1 = taken [atom] := by simp [taken]
      refine (ih hatom).cons ?_
      obtain ⟨more, rest, hfill⟩ :=
        exists_fill_eq_cons room (atom.utf8ByteSize + 1) atoms (List.cons_ne_nil atom [])
      rw [hfill]
      intro next hnext first hfirst
      cases hnext
      cases hfirst
      simp only [Bool.and_eq_true, decide_eq_true_eq] at hfull
      rw [taken_append, taken_reverse, ← hatom]
      omega
  | case4 line used atom atoms hroom ih =>
      apply ih
      rw [taken_cons]
      omega

/-- The atoms are spread over the lines that are filled with them. -/
theorem isSpread_fill (opening : String) (atoms : List String) :
    IsSpread opening atoms (fill (lineBytes - opening.utf8ByteSize) [] 0 atoms) := by
  have hnone : 0 = taken [] := rfl
  have hgroups := ne_nil_of_mem_fill (lineBytes - opening.utf8ByteSize) 0 [] atoms
  refine ⟨flatten_fill _ _ _ _, hgroups, ?_, ?_⟩
  · intro group hgroup hlong
    have hbytes := utf8ByteSize_lineOf opening (hgroups group hgroup)
    have hlength := length_le_taken group
    have hpos := List.length_pos_iff.mpr (hgroups group hgroup)
    -- Behind an opening that fills the line there is room for one comma, and so for one atom.
    rcases le_of_mem_fill hnone (.inl (Nat.zero_le 1)) group hgroup with hone | hfits <;> omega
  · refine (isChain_fill hnone).imp fun group next hfull atom hatom => ?_
    have hbytes := utf8ByteSize_lineOf opening (List.append_ne_nil_of_right_ne_nil group
      (List.cons_ne_nil atom []))
    have := hfull atom hatom
    omega

/-! ## The only way -/

variable {groups others : List (List String)}

theorem utf8ByteSize_lineOf_le {first second : List String} (hfirst : first ≠ [])
    (h : first <+: second) :
    (lineOf opening first).utf8ByteSize ≤ (lineOf opening second).utf8ByteSize := by
  obtain ⟨rest, rfl⟩ := h
  have hbytes := utf8ByteSize_lineOf opening hfirst
  have hmore := utf8ByteSize_lineOf opening (List.append_ne_nil_of_left_ne_nil hfirst rest)
  rw [taken_append] at hmore
  omega

/-- The first line cannot end where another one goes on. -/
theorem IsSpread.length_le
    {group other : List String} (h : IsSpread opening atoms (group :: groups))
    (hother : IsSpread opening atoms (other :: others)) : other.length ≤ group.length := by
  by_contra hlonger
  have hsame : group ++ groups.flatten = other ++ others.flatten :=
    h.flatten.trans hother.flatten.symm
  obtain ⟨more, rfl⟩ : group <+: other :=
    List.prefix_of_prefix_length_le ⟨_, rfl⟩ ⟨_, hsame.symm⟩ (by omega)
  rw [List.append_assoc, List.append_cancel_left_eq] at hsame
  have hgroup := h.ne_nil group List.mem_cons_self
  rcases more with _ | ⟨atom, more⟩
  · simp at hlonger
  · -- What the other line goes on with is the first atom of the next one.
    rcases groups with _ | ⟨next, groups⟩
    · simp at hsame
    · obtain ⟨first, rest, rfl⟩ :=
        List.exists_cons_of_ne_nil (h.ne_nil next (List.mem_cons_of_mem _ List.mem_cons_self))
      obtain rfl : first = atom := (List.cons.inj hsame).1
      have hfull := (List.isChain_cons_cons.mp h.greedy).1 first rfl
      have hstart : group ++ [first] <+: group ++ first :: more := ⟨more, by simp⟩
      have hlong := hfull.trans_le (utf8ByteSize_lineOf_le (by simp) hstart)
      have hone := hother.fits _ List.mem_cons_self hlong
      have hpos := List.length_pos_iff.mpr hgroup
      rw [List.length_append, List.length_cons] at hone
      omega

theorem IsSpread.tail
    {group : List String} (h : IsSpread opening atoms (group :: groups)) :
    IsSpread opening groups.flatten groups :=
  ⟨rfl, fun other hother => h.ne_nil other (List.mem_cons_of_mem _ hother),
    fun other hother => h.fits other (List.mem_cons_of_mem _ hother), h.greedy.tail⟩

/-- Atoms are spread in one way only. -/
theorem IsSpread.unique
    (h : IsSpread opening atoms groups) (hother : IsSpread opening atoms others) :
    groups = others := by
  induction groups generalizing atoms others with
  | nil =>
      rcases others with _ | ⟨other, others⟩
      · rfl
      · have hnil := h.flatten.trans hother.flatten.symm
        exact absurd (List.append_eq_nil_iff.mp hnil.symm).1 (hother.ne_nil _ List.mem_cons_self)
  | cons group groups ih =>
      rcases others with _ | ⟨other, others⟩
      · have hnil := h.flatten.trans hother.flatten.symm
        exact absurd (List.append_eq_nil_iff.mp hnil).1 (h.ne_nil _ List.mem_cons_self)
      · have hsame : group ++ groups.flatten = other ++ others.flatten :=
          h.flatten.trans hother.flatten.symm
        have hlength := Nat.le_antisymm (hother.length_le h) (h.length_le hother)
        obtain ⟨rfl, hrest⟩ := List.append_inj hsame hlength
        rw [ih h.tail (hrest ▸ hother.tail)]

/-! ## Wrapping -/

theorem behind_lineOf (opening : String) (atoms : List String) :
    behind opening (lineOf opening atoms) = String.intercalate "," atoms := by
  rw [behind, lineOf, String.toList_append, List.drop_left, String.ofList_toList]

theorem intercalate_flatten (separator : String) (h : ∀ group ∈ groups, group ≠ []) :
    String.intercalate separator (groups.map (String.intercalate separator)) =
      String.intercalate separator groups.flatten := by
  induction groups with
  | nil => rfl
  | cons group groups ih =>
      obtain ⟨hgroup, hrest⟩ := List.forall_mem_cons.mp h
      cases groups with
      | nil => simp
      | cons next rest =>
          have hnext : (next :: rest).flatten ≠ [] :=
            List.append_ne_nil_of_left_ne_nil (hrest next List.mem_cons_self) _
          rw [List.flatten_cons, String.intercalate_append_of_ne_nil hgroup hnext, ← ih hrest,
            List.map_cons, List.map_cons, String.intercalate_cons_cons]

theorem IsSpread.isWrapping (h : IsSpread opening atoms groups) :
    IsWrapping opening atoms (groups.map (lineOf opening)) := by
  refine ⟨?_, ?_, groups, rfl, h⟩
  · intro line hline
    obtain ⟨group, -, rfl⟩ := List.mem_map.mp hline
    rw [lineOf, String.toList_append]
    exact List.prefix_append _ _
  · have hlines : groups.map (fun group => behind opening (lineOf opening group)) =
        groups.map (String.intercalate ",") :=
      List.map_congr_left fun group _ => behind_lineOf opening group
    rw [List.map_map, Function.comp_def, hlines, intercalate_flatten "," h.ne_nil, h.flatten]

/-- The lines that are written for some atoms are their only wrapping: each begins with the
opening, without openings they are the atoms, a line over 79 bytes holds one atom, and the first
atom of a line would have made the line before it too long. -/
theorem eq_wrap_iff_isWrapping (opening : String) (atoms lines : List String) :
    lines = wrap opening atoms ↔ IsWrapping opening atoms lines := by
  constructor
  · rintro rfl
    exact (isSpread_fill opening atoms).isWrapping
  · rintro ⟨-, -, groups, rfl, hspread⟩
    rw [hspread.unique (isSpread_fill opening atoms)]
    rfl

end Chiptune.Output
