import Chiptune.Rhythm.NoteLength
import Mathlib.Algebra.BigOperators.Group.List.Basic
import Mathlib.Algebra.GroupWithZero.Nat
import Mathlib.Algebra.Order.BigOperators.Group.List
import Mathlib.Algebra.Order.Group.Nat

/-!
# Row counts as note lengths

The note lengths into which a row count is split have that many rows together, never get longer,
and are the fewest. Each is the longest that fits. That this gives the fewest is due to the
lengths of the engine: one length more never adds more than one to the count.
-/

namespace Chiptune.NoteLength

theorem rows_longestWithin_le
    {n : Nat} (hpos : 0 < n) :
    (longestWithin n).rows ≤ n := by
  unfold longestWithin
  cases hfound : all.find? fun length => length.rows ≤ n with
  | none => exact hpos
  | some length =>
      have hfits := List.find?_some hfound
      simpa using hfits

/-- The rows of all note lengths of a list. -/
def totalRows (lengths : List NoteLength) : Nat := (lengths.map rows).sum

@[simp] theorem totalRows_nil : totalRows [] = 0 := rfl

@[simp] theorem totalRows_cons
    (length : NoteLength) (lengths : List NoteLength) :
    totalRows (length :: lengths) = length.rows + totalRows lengths := by
  simp [totalRows]

/-- Splitting a row count loses no row. -/
theorem totalRows_decompose
    (n : Nat) :
    totalRows (decompose n) = n := by
  induction n using Nat.strongRecOn with
  | ind n ih =>
      rw [decompose]
      split
      · next hzero => exact hzero.symm
      · next hne =>
          have hpos : 0 < n := Nat.pos_of_ne_zero hne
          have hlength := rows_pos (longestWithin n)
          have hfits := rows_longestWithin_le hpos
          rw [totalRows_cons, ih (n - (longestWithin n).rows) (by omega)]
          omega

theorem decompose_ne_nil
    {n : Nat} (hpos : 0 < n) :
    decompose n ≠ [] := by
  intro hnil
  have hrows := totalRows_decompose n
  rw [hnil, totalRows_nil] at hrows
  omega

/-! ## Longest first -/

theorem mem_all (length : NoteLength) : length ∈ all := by
  cases length <;> decide

/-- No note length within the rows is longer. -/
theorem rows_le_longestWithin
    {n : Nat} {length : NoteLength} (hfits : length.rows ≤ n) :
    length.rows ≤ (longestWithin n).rows := by
  have hsorted : all.Pairwise fun first second => second.rows ≤ first.rows := by decide
  unfold longestWithin
  cases hfound : all.find? fun length => length.rows ≤ n with
  | none =>
      have hnone := List.find?_eq_none.mp hfound length (mem_all length)
      exact absurd hfits (by simpa using hnone)
  | some longest =>
      obtain ⟨-, longer, shorter, hall, hlonger⟩ := List.find?_eq_some_iff_append.mp hfound
      have hmem := mem_all length
      rw [hall, List.mem_append, List.mem_cons] at hmem
      rcases hmem with hmem | rfl | hmem
      · -- A longer one was passed over because it did not fit.
        have hwide := hlonger length hmem
        simp only [Bool.not_eq_true', decide_eq_false_iff_not] at hwide
        exact absurd hfits hwide
      · exact Nat.le_refl _
      · rw [hall] at hsorted
        exact List.rel_of_pairwise_cons (List.pairwise_append.mp hsorted).2.1 hmem

theorem rows_le_totalRows
    {length : NoteLength} {lengths : List NoteLength} (hmem : length ∈ lengths) :
    length.rows ≤ totalRows lengths :=
  List.single_le_sum (fun _ _ => Nat.zero_le _) _ (List.mem_map_of_mem hmem)

/-- The note lengths of a row count never get longer. -/
theorem pairwise_decompose
    (n : Nat) :
    (decompose n).Pairwise fun first second => second.rows ≤ first.rows := by
  induction n using Nat.strongRecOn with
  | ind n ih =>
      rw [decompose]
      split
      · exact .nil
      · next hne =>
          have hlength := rows_pos (longestWithin n)
          refine .cons ?_ (ih (n - (longestWithin n).rows) (by omega))
          intro later hlater
          have hrows := rows_le_totalRows hlater
          rw [totalRows_decompose] at hrows
          exact rows_le_longestWithin (hrows.trans (Nat.sub_le _ _))

/-! ## The fewest -/

theorem decompose_of_pos
    {n : Nat} (hpos : 0 < n) :
    decompose n = longestWithin n :: decompose (n - (longestWithin n).rows) := by
  rw [decompose, if_neg (by omega)]

theorem decompose_zero : decompose 0 = [] := by
  rw [decompose, if_pos rfl]

theorem decompose_add_whole
    (n : Nat) :
    decompose (n + 16) = whole :: decompose n := by
  have hwhole : longestWithin (n + 16) = whole := by
    simp [longestWithin, all, rows]
  rw [decompose_of_pos (by omega), hwhole]
  rfl

theorem decompose_rows (length : NoteLength) : decompose length.rows = [length] := by
  have hlongest : longestWithin length.rows = length := by
    cases length <;> decide
  rw [decompose_of_pos length.rows_pos, hlongest, Nat.sub_self, decompose_zero]

theorem ofRows?_rows (length : NoteLength) : ofRows? length.rows = some length := by
  cases length <;> rfl

theorem rows_of_ofRows?
    {n : Nat} {length : NoteLength} (h : ofRows? n = some length) : length.rows = n := by
  simpa using List.find?_some h

/-- The note lengths that fewer rows than a whole note take: one if there is one of so many rows,
or else two. -/
def countBelowWhole (n : Nat) : Nat :=
  if n = 0 then 0 else if (ofRows? n).isSome then 1 else 2

theorem length_decompose_of_lt
    {n : Nat} (h : n < 16) :
    (decompose n).length = countBelowWhole n := by
  have hrest : ∀ n < 16, n ≠ 0 → ofRows? n = none →
      (ofRows? (n - (longestWithin n).rows)).isSome := by decide
  unfold countBelowWhole
  split
  · next hzero => rw [hzero, decompose_zero, List.length_nil]
  · next hne =>
      cases hexact : ofRows? n with
      | some length =>
          rw [← rows_of_ofRows? hexact, decompose_rows]
          rfl
      | none =>
          obtain ⟨second, hsecond⟩ := Option.isSome_iff_exists.mp (hrest n h hne hexact)
          rw [decompose_of_pos (Nat.pos_of_ne_zero hne), ← rows_of_ofRows? hsecond, decompose_rows]
          rfl

/-- The note lengths that a row count takes. -/
def count (n : Nat) : Nat := n / 16 + countBelowWhole (n % 16)

theorem count_add_whole (n k : Nat) : count (n + 16 * k) = count n + k := by
  unfold count
  rw [Nat.add_mul_mod_self_left, Nat.add_mul_div_left n k (by decide)]
  omega

theorem length_decompose
    (n : Nat) :
    (decompose n).length = count n := by
  induction n using Nat.strongRecOn with
  | ind n ih =>
      by_cases hlt : n < 16
      · rw [length_decompose_of_lt hlt, count, Nat.div_eq_of_lt hlt, Nat.mod_eq_of_lt hlt,
          Nat.zero_add]
      · obtain ⟨rest, rfl⟩ : ∃ rest, n = rest + 16 := ⟨n - 16, by omega⟩
        rw [decompose_add_whole, List.length_cons, ih rest (by omega)]
        exact (count_add_whole rest 1).symm

/-- One note length more adds at most one to the count. -/
theorem count_add_rows_le
    (n : Nat) (length : NoteLength) :
    count (n + length.rows) ≤ count n + 1 := by
  have hbelow : ∀ n < 16, count (n + length.rows) ≤ count n + 1 := by
    cases length <;> decide
  have hsplit : n + length.rows = n % 16 + length.rows + 16 * (n / 16) := by omega
  have hrest := hbelow (n % 16) (Nat.mod_lt n (by decide))
  have hcount := count_add_whole (n % 16) (n / 16)
  rw [Nat.mod_add_div] at hcount
  rw [hsplit, count_add_whole, hcount]
  omega

theorem count_totalRows_le
    (lengths : List NoteLength) :
    count (totalRows lengths) ≤ lengths.length := by
  induction lengths with
  | nil => decide
  | cons length lengths ih =>
      rw [totalRows_cons, List.length_cons, Nat.add_comm]
      exact (count_add_rows_le _ length).trans (Nat.succ_le_succ ih)

/-- The note lengths into which a row count is split never get longer, have that many rows
together, and are as few as note lengths with that many rows can be. -/
theorem decompose_isShortest
    (n : Nat) :
    (decompose n).Pairwise (fun first second => second.rows ≤ first.rows) ∧
      totalRows (decompose n) = n ∧
      ∀ lengths, totalRows lengths = n → (decompose n).length ≤ lengths.length := by
  refine ⟨pairwise_decompose n, totalRows_decompose n, ?_⟩
  rintro lengths rfl
  rw [length_decompose]
  exact count_totalRows_le lengths

end Chiptune.NoteLength
