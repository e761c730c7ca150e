/-!
# Registers

Rows and semitones are counted in registers of a fixed number of bits. What does not fit
in its register wraps around.
-/

namespace Chiptune.Register

/-- A count in 32 bits. -/
def nat32 (n : Nat) : Nat := n % 4294967296

/-- A signed number in 32 bits. -/
def int32 (n : Int) : Int := n.bmod 4294967296

/-- A signed number in 64 bits. -/
def int64 (n : Int) : Int := n.bmod 18446744073709551616

/-- The numbers that a signed register of 32 bits can hold. -/
def IsInt32 (n : Int) : Prop := -2147483648 ≤ n ∧ n ≤ 2147483647

instance (n : Int) : Decidable (IsInt32 n) := inferInstanceAs (Decidable (_ ∧ _))

theorem nat32_eq_self_iff {n : Nat} : nat32 n = n ↔ n < 4294967296 := by
  unfold nat32
  omega

/-- Only the last result needs to wrap around. -/
theorem nat32_nat32_add (m n : Nat) : nat32 (nat32 m + n) = nat32 (m + n) := Nat.mod_add_mod m _ n

theorem int64_eq_self {n : Int} (hlow : -9223372036854775808 ≤ n)
    (hhigh : n < 9223372036854775808) : int64 n = n :=
  Int.bmod_eq_of_le (by omega) (by omega)

/-- A number just below the least one comes out at the upper end. -/
theorem int64_of_lt {n : Int} (hlow : -27670116110564327424 ≤ n)
    (hhigh : n < -9223372036854775808) : int64 n = n + 18446744073709551616 := by
  rw [int64, ← Int.add_bmod_right]
  exact Int.bmod_eq_of_le (by omega) (by omega)

end Chiptune.Register
