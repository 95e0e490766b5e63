import Mathlib.Data.List.Basic
import Mathlib.Data.List.Range
import Mathlib.Tactic

/-!
# Octet arrays

A C octet array is a total map from indices to octets; the bound of the array is
the business of whoever indexes it. The four operations are the ones C code
performs on such arrays: reading a run of octets, `memcpy`, `memset` and
`memmove`. Every lemma says which octets an operation changes and which it keeps.
-/
namespace DfcCore

/-- A property of octets that holds of the 256 values holds of every octet. -/
theorem forall_octet {p : UInt8 → Prop} (h : ∀ n : Fin 256, p (UInt8.ofNat n)) (b : UInt8) :
    p b := by
  have hb := h ⟨b.toNat, b.toNat_lt⟩
  simpa using hb

/-- An octet array, indexed from zero. -/
abbrev Mem := ℕ → UInt8

namespace Mem

/-- The `n` octets at `off`. -/
def read (m : Mem) (off n : ℕ) : List UInt8 := (List.range n).map fun i => m (off + i)

/-- `memcpy(m + off, bs, length)`. -/
def write (m : Mem) (off : ℕ) (bs : List UInt8) : Mem := fun i =>
  if off ≤ i ∧ i < off + bs.length then bs.getD (i - off) 0 else m i

/-- `memset(m + off, v, n)`. -/
def fill (m : Mem) (off n : ℕ) (v : UInt8) : Mem := fun i =>
  if off ≤ i ∧ i < off + n then v else m i

/-- `memmove(m + dst, m + src, n)`. -/
def move (m : Mem) (dst src n : ℕ) : Mem := fun i =>
  if dst ≤ i ∧ i < dst + n then m (src + (i - dst)) else m i

/-- The array of zeros left by a wipe. -/
def zero : Mem := fun _ => 0

@[simp] theorem zero_apply (i : ℕ) : zero i = 0 := rfl

@[simp] theorem length_read (m : Mem) (off n : ℕ) : (m.read off n).length = n := by simp [read]

theorem read_congr {m m' : Mem} {off off' n : ℕ}
    (h : ∀ i < n, m (off + i) = m' (off' + i)) : m.read off n = m'.read off' n := by
  simp only [read]
  apply List.map_congr_left
  intro i hi
  exact h i (List.mem_range.mp hi)

theorem read_eq_iff {m m' : Mem} {off off' n : ℕ} :
    m.read off n = m'.read off' n ↔ ∀ i < n, m (off + i) = m' (off' + i) := by
  refine ⟨fun h i hi => ?_, read_congr⟩
  have hh := congrArg (fun l => l[i]?) h
  simpa [read, hi] using hh

theorem read_add (m : Mem) (off n k : ℕ) :
    m.read off (n + k) = m.read off n ++ m.read (off + n) k := by
  simp [read, List.range_add, List.map_append, Function.comp_def, Nat.add_assoc]

@[simp] theorem read_zero_length (m : Mem) (off : ℕ) : m.read off 0 = [] := rfl

theorem read_take (m : Mem) (off n k : ℕ) (h : k ≤ n) :
    (m.read off n).take k = m.read off k := by
  obtain ⟨d, rfl⟩ := Nat.exists_eq_add_of_le h
  rw [read_add, List.take_append_of_le_length (by simp)]
  simp

@[simp] theorem read_zero (off n : ℕ) : zero.read off n = List.replicate n 0 := by
  apply List.ext_getElem <;> simp [read]

theorem write_apply_of_lt {m : Mem} {off i : ℕ} {bs : List UInt8} (h : i < bs.length) :
    m.write off bs (off + i) = bs[i] := by
  simp [write, h]

theorem write_apply_of_out {m : Mem} {off i : ℕ} {bs : List UInt8}
    (h : i < off ∨ off + bs.length ≤ i) : m.write off bs i = m i := by
  rw [write, if_neg]
  omega

theorem fill_apply_of_out {m : Mem} {off n i : ℕ} {v : UInt8}
    (h : i < off ∨ off + n ≤ i) : m.fill off n v i = m i := by
  rw [fill, if_neg]
  omega

theorem move_apply_of_out {m : Mem} {dst src n i : ℕ}
    (h : i < dst ∨ dst + n ≤ i) : m.move dst src n i = m i := by
  rw [move, if_neg]
  omega

/-- Two copies in a row are one copy. -/
theorem write_append (m : Mem) (off : ℕ) (a b : List UInt8) :
    (m.write off a).write (off + a.length) b = m.write off (a ++ b) := by
  funext i
  simp only [write, List.length_append, List.getD_eq_getElem?_getD, List.getElem?_append]
  by_cases h₁ : off + a.length ≤ i ∧ i < off + a.length + b.length
  · rw [if_pos h₁, if_pos (by omega), if_neg (by omega), Nat.sub_sub]
  · rw [if_neg h₁]
    by_cases h₂ : off ≤ i ∧ i < off + a.length
    · rw [if_pos h₂, if_pos (by omega), if_pos (by omega)]
    · rw [if_neg h₂, if_neg (by omega)]

/-- A copy over the whole of what was just cleared. -/
theorem write_fill (m : Mem) (off : ℕ) (bs : List UInt8) (v : UInt8) :
    (m.fill off bs.length v).write off bs = m.write off bs := by
  funext i
  simp only [write, fill]
  split_ifs <;> rfl

@[simp] theorem write_nil (m : Mem) (off : ℕ) : m.write off [] = m := by
  funext i
  exact write_apply_of_out (by simp; omega)

/-- Reading back what was copied. -/
@[simp] theorem read_write_self (m : Mem) (off : ℕ) (bs : List UInt8) :
    (m.write off bs).read off bs.length = bs := by
  apply List.ext_getElem (by simp)
  intro i h₁ h₂
  simp [read, write, h₂]

theorem read_write_self' {m : Mem} {off n : ℕ} {bs : List UInt8} (h : bs.length = n) :
    (m.write off bs).read off n = bs := by
  subst h
  simp

/-- A copy does not reach a run of octets disjoint from its target. -/
theorem read_write_of_disjoint {m : Mem} {off a n : ℕ} {bs : List UInt8}
    (h : a + n ≤ off ∨ off + bs.length ≤ a) : (m.write off bs).read a n = m.read a n :=
  read_congr fun i hi => write_apply_of_out (by omega)

theorem read_fill_of_disjoint {m : Mem} {off k a n : ℕ} {v : UInt8}
    (h : a + n ≤ off ∨ off + k ≤ a) : (m.fill off k v).read a n = m.read a n :=
  read_congr fun i hi => fill_apply_of_out (by omega)

theorem read_fill_self (m : Mem) (off n : ℕ) (v : UInt8) :
    (m.fill off n v).read off n = List.replicate n v := by
  apply List.ext_getElem (by simp)
  intro i h₁ h₂
  have hi : i < n := by simpa using h₁
  simp [read, fill, hi]

end Mem

end DfcCore
