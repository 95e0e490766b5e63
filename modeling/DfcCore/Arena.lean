import DfcCore.Memory
import Mathlib.Algebra.BigOperators.Group.Finset.Basic
import Mathlib.Algebra.BigOperators.Ring.Finset

/-!
# Compacting pools

A pool is one array shared by a finite family of owners. Every owner holds one
slice, given by an offset and a length; an owner of length zero holds nothing.
New slices are cut at the end of the used part, and releasing a slice closes the
hole by moving everything behind it down. `Packed` is the representation
invariant of such a pool and the lemmas below are its proof rules: one for each
way an allocator changes a slice or the family of owners.
-/
namespace DfcCore.Arena
open scoped BigOperators

variable {ι κ : Type*} {S : Finset ι} {off len : ι → ℕ} {used : ℕ}

/-- The slices of `S` are pairwise disjoint, lie inside the used part, and fill it. -/
structure Packed (S : Finset ι) (off len : ι → ℕ) (used : ℕ) : Prop where
  bound : ∀ i ∈ S, len i ≠ 0 → off i + len i ≤ used
  disjoint : ∀ i ∈ S, ∀ j ∈ S, i ≠ j → len i ≠ 0 → len j ≠ 0 →
    off i + len i ≤ off j ∨ off j + len j ≤ off i
  total : ∑ i ∈ S, len i = used

/-- Where a slice stands after the hole at `hole` of `size` octets was closed. -/
def closeHole (hole size o : ℕ) : ℕ := if hole < o then o - size else o

namespace Packed

/-- Offsets of empty slices are irrelevant. -/
theorem congr {off' len' : ι → ℕ} (h : Packed S off len used)
    (hl : ∀ i ∈ S, len' i = len i) (ho : ∀ i ∈ S, len i ≠ 0 → off' i = off i) :
    Packed S off' len' used where
  bound i hi hn := by
    rw [hl i hi] at hn ⊢
    rw [ho i hi hn]
    exact h.bound i hi hn
  disjoint i hi j hj hij hni hnj := by
    rw [hl i hi] at hni ⊢
    rw [hl j hj] at hnj ⊢
    rw [ho i hi hni, ho j hj hnj]
    exact h.disjoint i hi j hj hij hni hnj
  total := by rw [Finset.sum_congr rfl hl, h.total]

theorem empty (off len : ι → ℕ) : Packed ∅ off len 0 where
  bound := by simp
  disjoint := by simp
  total := by simp

theorem le_used [DecidableEq ι] (h : Packed S off len used) {i : ι} (hi : i ∈ S) :
    len i ≤ used := by
  rw [← h.total]
  exact Finset.single_le_sum (f := len) (fun _ _ => Nat.zero_le _) hi

/-- The octets the other owners hold determine the used part without the slice of `i`. -/
theorem rest_eq [DecidableEq ι] {off' len' : ι → ℕ} {used' : ℕ} (h : Packed S off len used)
    (h' : Packed S off' len' used') {i : ι} (hi : i ∈ S)
    (hl : ∀ j ∈ S, j ≠ i → len' j = len j) : used' - len' i = used - len i := by
  have hsum := Finset.add_sum_erase S len hi
  have hsum' := Finset.add_sum_erase S len' hi
  have he : ∑ j ∈ S.erase i, len' j = ∑ j ∈ S.erase i, len j := by
    apply Finset.sum_congr rfl
    intro j hj
    exact hl j (Finset.mem_of_mem_erase hj) (Finset.ne_of_mem_erase hj)
  have ht := h.total
  have ht' := h'.total
  omega

/-- Renaming the owners along an injection keeps the pool packed. -/
theorem map [DecidableEq κ] {S' : Finset κ} {off' len' : κ → ℕ} (h : Packed S off len used)
    (f : ι → κ) (hf : ∀ i ∈ S, ∀ j ∈ S, f i = f j → i = j) (hS : S' = S.image f)
    (hl : ∀ i ∈ S, len' (f i) = len i) (ho : ∀ i ∈ S, len i ≠ 0 → off' (f i) = off i) :
    Packed S' off' len' used where
  bound k hk hn := by
    subst hS
    obtain ⟨i, hi, rfl⟩ := Finset.mem_image.mp hk
    rw [hl i hi] at hn ⊢
    rw [ho i hi hn]
    exact h.bound i hi hn
  disjoint k hk m hm hkm hnk hnm := by
    subst hS
    obtain ⟨i, hi, rfl⟩ := Finset.mem_image.mp hk
    obtain ⟨j, hj, rfl⟩ := Finset.mem_image.mp hm
    rw [hl i hi] at hnk ⊢
    rw [hl j hj] at hnm ⊢
    rw [ho i hi hnk, ho j hj hnm]
    exact h.disjoint i hi j hj (fun he => hkm (by rw [he])) hnk hnm
  total := by
    subst hS
    rw [Finset.sum_image hf, Finset.sum_congr rfl hl, h.total]

/-- An owner that holds nothing may leave. -/
theorem erase [DecidableEq ι] (h : Packed S off len used) {i : ι} (h0 : len i = 0) :
    Packed (S.erase i) off len used where
  bound j hj := h.bound j (Finset.mem_of_mem_erase hj)
  disjoint j hj k hk :=
    h.disjoint j (Finset.mem_of_mem_erase hj) k (Finset.mem_of_mem_erase hk)
  total := by rw [Finset.sum_erase _ h0, h.total]

/-- An owner that holds nothing may join. -/
theorem insert [DecidableEq ι] (h : Packed S off len used) {i : ι} (hi : i ∉ S)
    (h0 : len i = 0) : Packed (Insert.insert i S) off len used where
  bound j hj hn := by
    rcases Finset.mem_insert.mp hj with rfl | hj
    · exact absurd h0 hn
    · exact h.bound j hj hn
  disjoint j hj k hk hjk hnj hnk := by
    rcases Finset.mem_insert.mp hj with rfl | hj
    · exact absurd h0 hnj
    rcases Finset.mem_insert.mp hk with rfl | hk
    · exact absurd h0 hnk
    exact h.disjoint j hj k hk hjk hnj hnk
  total := by rw [Finset.sum_insert hi, h0, zero_add, h.total]

/-- Closing the hole of a released slice. -/
theorem release [DecidableEq ι] {off' len' : ι → ℕ} (h : Packed S off len used) {i : ι}
    (hi : i ∈ S) (hn : len i ≠ 0) (hi' : len' i = 0)
    (hl : ∀ j ∈ S, j ≠ i → len' j = len j)
    (ho : ∀ j ∈ S, j ≠ i → len j ≠ 0 → off' j = closeHole (off i) (len i) (off j)) :
    Packed S off' len' (used - len i) where
  bound j hj hnj := by
    have hji : j ≠ i := fun he => hnj (by rw [he, hi'])
    rw [hl j hj hji] at hnj ⊢
    rw [ho j hj hji hnj, closeHole]
    have hbi := h.bound i hi hn
    have hbj := h.bound j hj hnj
    have hd := h.disjoint i hi j hj (Ne.symm hji) hn hnj
    split_ifs <;> omega
  disjoint j hj k hk hjk hnj hnk := by
    have hji : j ≠ i := fun he => hnj (by rw [he, hi'])
    have hki : k ≠ i := fun he => hnk (by rw [he, hi'])
    rw [hl j hj hji] at hnj ⊢
    rw [hl k hk hki] at hnk ⊢
    rw [ho j hj hji hnj, ho k hk hki hnk, closeHole, closeHole]
    have hdj := h.disjoint i hi j hj (Ne.symm hji) hn hnj
    have hdk := h.disjoint i hi k hk (Ne.symm hki) hn hnk
    have hd := h.disjoint j hj k hk hjk hnj hnk
    split_ifs <;> omega
  total := by
    have hsum := Finset.add_sum_erase S len hi
    have hsum' := Finset.add_sum_erase S len' hi
    have he : ∑ j ∈ S.erase i, len' j = ∑ j ∈ S.erase i, len j := by
      apply Finset.sum_congr rfl
      intro j hj
      exact hl j (Finset.mem_of_mem_erase hj) (Finset.ne_of_mem_erase hj)
    have ht := h.total
    omega

/-- Cutting a fresh slice of `n` octets at the end of the used part. -/
theorem append [DecidableEq ι] {off' len' : ι → ℕ} (h : Packed S off len used) {i : ι} {n : ℕ}
    (hi : i ∈ S) (h0 : len i = 0) (hi' : len' i = n) (hoi : off' i = used)
    (hl : ∀ j ∈ S, j ≠ i → len' j = len j)
    (ho : ∀ j ∈ S, j ≠ i → len j ≠ 0 → off' j = off j) :
    Packed S off' len' (used + n) where
  bound j hj hnj := by
    by_cases hji : j = i
    · rw [hji, hoi, hi']
    · rw [hl j hj hji] at hnj ⊢
      rw [ho j hj hji hnj]
      have := h.bound j hj hnj
      omega
  disjoint j hj k hk hjk hnj hnk := by
    by_cases hji : j = i
    · have hki : k ≠ i := fun he => hjk (by rw [hji, he])
      rw [hl k hk hki] at hnk ⊢
      rw [hji, hoi, ho k hk hki hnk]
      exact Or.inr (h.bound k hk hnk)
    · rw [hl j hj hji] at hnj ⊢
      rw [ho j hj hji hnj]
      by_cases hki : k = i
      · rw [hki, hoi]
        exact Or.inl (h.bound j hj hnj)
      · rw [hl k hk hki] at hnk ⊢
        rw [ho k hk hki hnk]
        exact h.disjoint j hj k hk hjk hnj hnk
  total := by
    have hsum := Finset.add_sum_erase S len hi
    have hsum' := Finset.add_sum_erase S len' hi
    have he : ∑ j ∈ S.erase i, len' j = ∑ j ∈ S.erase i, len j := by
      apply Finset.sum_congr rfl
      intro j hj
      exact hl j (Finset.mem_of_mem_erase hj) (Finset.ne_of_mem_erase hj)
    have ht := h.total
    omega

/-- Growing the slice that ends where the used part ends. -/
theorem grow [DecidableEq ι] {len' : ι → ℕ} (h : Packed S off len used) {i : ι} {n : ℕ}
    (hi : i ∈ S) (hn : len i ≠ 0) (hlast : off i + len i = used) (hi' : len' i = len i + n)
    (hl : ∀ j ∈ S, j ≠ i → len' j = len j) : Packed S off len' (used + n) where
  bound j hj hnj := by
    by_cases hji : j = i
    · rw [hji, hi']; omega
    · rw [hl j hj hji] at hnj ⊢
      have := h.bound j hj hnj
      omega
  disjoint j hj k hk hjk hnj hnk := by
    by_cases hji : j = i
    · have hki : k ≠ i := fun he => hjk (by rw [hji, he])
      rw [hl k hk hki] at hnk ⊢
      rw [hji]
      have := h.disjoint i hi k hk (Ne.symm hki) hn hnk
      have := h.bound k hk hnk
      right; omega
    · rw [hl j hj hji] at hnj ⊢
      have hbj := h.bound j hj hnj
      by_cases hki : k = i
      · rw [hki]
        have := h.disjoint i hi j hj (Ne.symm hji) hn hnj
        left; omega
      · rw [hl k hk hki] at hnk ⊢
        exact h.disjoint j hj k hk hjk hnj hnk
  total := by
    have hsum := Finset.add_sum_erase S len hi
    have hsum' := Finset.add_sum_erase S len' hi
    have he : ∑ j ∈ S.erase i, len' j = ∑ j ∈ S.erase i, len j := by
      apply Finset.sum_congr rfl
      intro j hj
      exact hl j (Finset.mem_of_mem_erase hj) (Finset.ne_of_mem_erase hj)
    have ht := h.total
    omega

end Packed

/-- The array after the hole at `hole` of `size` octets was closed: everything
behind it moved down, and the octets that fell free wiped. -/
def closeHoleMem (m : Mem) (used hole size : ℕ) : Mem :=
  (m.move hole (hole + size) (used - (hole + size))).fill (used - size) size 0

/-- Closing a hole keeps the contents of every other slice. -/
theorem read_closeHoleMem {m : Mem} {hole size o n : ℕ} (hu : hole + size ≤ used)
    (hs : size ≠ 0) (hn : n ≠ 0) (hb : o + n ≤ used)
    (hd : hole + size ≤ o ∨ o + n ≤ hole) :
    (closeHoleMem m used hole size).read (closeHole hole size o) n = m.read o n := by
  apply Mem.read_congr
  intro i hi
  simp only [closeHoleMem, closeHole, Mem.fill, Mem.move]
  rcases hd with hd | hd
  · have h₁ : hole < o := by omega
    simp only [h₁, if_true]
    rw [if_neg (by omega), if_pos (by omega)]
    congr 1
    omega
  · have h₁ : ¬ hole < o := by omega
    simp only [h₁, if_false]
    rw [if_neg (by omega), if_neg (by omega)]

/-- Closing a hole keeps the octets behind the used part zero. -/
theorem closeHoleMem_zero {m : Mem} {hole size limit : ℕ} (hu : hole + size ≤ used)
    (hz : ∀ i, used ≤ i → i < limit → m i = 0) :
    ∀ i, used - size ≤ i → i < limit → closeHoleMem m used hole size i = 0 := by
  intro i hi hl
  simp only [closeHoleMem, Mem.fill, Mem.move]
  split_ifs with h₁ h₂
  · rfl
  · omega
  · exact hz i (by omega) hl

end DfcCore.Arena
