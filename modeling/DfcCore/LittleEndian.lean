import Mathlib.Data.List.Basic
import Mathlib.Tactic

/-!
# Little-endian integers

A number as a run of octets, the least significant first, and the number such a run
stands for. The run may be longer than the number needs; a number too large for the run
loses its high part.
-/
namespace DfcCore

/-- The low `k` octets of a number. -/
def leOctets : ℕ → ℕ → List UInt8
  | 0, _ => []
  | k + 1, n => UInt8.ofNat n :: leOctets k (n / 256)

/-- The number a run of octets stands for. -/
def leValue : List UInt8 → ℕ
  | [] => 0
  | b :: bs => b.toNat + 256 * leValue bs

@[simp] theorem length_leOctets (k n : ℕ) : (leOctets k n).length = k := by
  induction k generalizing n with
  | zero => rfl
  | succ k ih => simp [leOctets, ih]

theorem leValue_leOctets (k n : ℕ) : leValue (leOctets k n) = n % 256 ^ k := by
  induction k generalizing n with
  | zero => simp [leOctets, leValue, Nat.mod_one]
  | succ k ih =>
    have hb : (UInt8.ofNat n).toNat = n % 256 := by simp
    rw [leOctets, leValue, ih, hb, pow_succ, Nat.mul_comm (256 ^ k) 256]
    exact (Nat.mod_mul).symm

theorem leValue_leOctets_of_lt {k n : ℕ} (h : n < 256 ^ k) : leValue (leOctets k n) = n := by
  rw [leValue_leOctets, Nat.mod_eq_of_lt h]

theorem leValue_append (a b : List UInt8) :
    leValue (a ++ b) = leValue a + 256 ^ a.length * leValue b := by
  induction a with
  | nil => simp [leValue]
  | cons x a ih =>
    rw [List.cons_append, leValue, leValue, ih, List.length_cons, pow_succ]
    ring

theorem leValue_lt (l : List UInt8) : leValue l < 256 ^ l.length := by
  induction l with
  | nil => simp [leValue]
  | cons x l ih =>
    have hx : x.toNat < 256 := x.toNat_lt
    rw [leValue, List.length_cons, pow_succ]
    omega

theorem leOctets_leValue (l : List UInt8) : leOctets l.length (leValue l) = l := by
  induction l with
  | nil => rfl
  | cons x l ih =>
    have hx : x.toNat < 256 := x.toNat_lt
    have hhead : UInt8.ofNat (x.toNat + 256 * leValue l) = x := by
      apply UInt8.toNat_inj.mp
      rw [UInt8.toNat_ofNat']
      omega
    have hdiv : (x.toNat + 256 * leValue l) / 256 = leValue l := by omega
    rw [leValue, List.length_cons, leOctets, hhead, hdiv, ih]

end DfcCore
