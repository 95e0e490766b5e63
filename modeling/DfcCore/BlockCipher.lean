import DfcCore.Cmac
import Mathlib.Tactic

/-!
# Block ciphers and chaining

A block cipher is a permutation of the blocks of one width for every key. Chaining runs a
function over the blocks of a string from an initial value, forward as an encryption does and
backward as a decryption does, and gives the chaining value it ends with. Backward undoes
forward whenever the one function undoes the other, whichever of them is the encryption.
-/
namespace DfcCore
open Cmac

/-- A permutation of the blocks of `width` octets for every key. -/
structure BlockCipher (width : ℕ) where
  encrypt : List UInt8 → List UInt8 → List UInt8
  decrypt : List UInt8 → List UInt8 → List UInt8
  length_encrypt : ∀ key block, block.length = width → (encrypt key block).length = width
  length_decrypt : ∀ key block, block.length = width → (decrypt key block).length = width
  decrypt_encrypt : ∀ key block, block.length = width → decrypt key (encrypt key block) = block
  encrypt_decrypt : ∀ key block, block.length = width → encrypt key (decrypt key block) = block

/-- The cipher that leaves every block as it is. -/
def identityCipher (width : ℕ) : BlockCipher width where
  encrypt _ block := block
  decrypt _ block := block
  length_encrypt _ _ h := h
  length_decrypt _ _ h := h
  decrypt_encrypt _ _ _ := rfl
  encrypt_decrypt _ _ _ := rfl

namespace Cbc
variable (f g : List UInt8 → List UInt8) (width : ℕ)

/-- Chains `n` blocks: each is combined with the output before it, then transformed. -/
def forward : ℕ → List UInt8 → List UInt8 → List UInt8 × List UInt8
  | 0, iv, _ => ([], iv)
  | n + 1, iv, data =>
    let block := f (xorBlock (data.take width) iv)
    let rest := forward n block (data.drop width)
    (block ++ rest.1, rest.2)

/-- Chains `n` blocks: each is transformed, then combined with the input before it. -/
def backward : ℕ → List UInt8 → List UInt8 → List UInt8 × List UInt8
  | 0, iv, _ => ([], iv)
  | n + 1, iv, data =>
    let block := data.take width
    let rest := backward n block (data.drop width)
    (xorBlock (g block) iv ++ rest.1, rest.2)

end Cbc

theorem length_xorBlock (a b : List UInt8) : (xorBlock a b).length = min a.length b.length := by
  simp [xorBlock]

theorem xorBlock_comm (a b : List UInt8) : xorBlock a b = xorBlock b a := by
  simp only [xorBlock]
  exact List.zipWith_comm_of_comm UInt8.xor_comm

theorem xorBlock_self_right {a b : List UInt8} (h : a.length = b.length) :
    xorBlock (xorBlock a b) b = a := by
  induction a generalizing b with
  | nil => simp [xorBlock]
  | cons x a ih =>
    cases b with
    | nil => simp at h
    | cons y b =>
      have htail : xorBlock (xorBlock a b) b = a := ih (by simpa using h)
      simpa [xorBlock, UInt8.xor_assoc] using htail

namespace Cbc
variable {f g : List UInt8 → List UInt8} {width : ℕ}

theorem length_forward (hf : ∀ b, b.length = width → (f b).length = width) (n : ℕ)
    {iv data : List UInt8} (hiv : iv.length = width) (hdata : data.length = n * width) :
    (forward f width n iv data).1.length = n * width ∧
      (forward f width n iv data).2.length = width := by
  induction n generalizing iv data with
  | zero => simpa [forward] using hiv
  | succ n ih =>
    have hsplit : (n + 1) * width = width + n * width := by ring
    have hblock : (f (xorBlock (data.take width) iv)).length = width := by
      apply hf
      rw [length_xorBlock, List.length_take, hdata, hiv, hsplit]
      omega
    have hdrop : (data.drop width).length = n * width := by
      rw [List.length_drop]
      omega
    have hrest := ih hblock hdrop
    simp only [forward, List.length_append]
    exact ⟨by omega, hrest.2⟩

theorem length_backward (hg : ∀ b, b.length = width → (g b).length = width) (n : ℕ)
    {iv data : List UInt8} (hiv : iv.length = width) (hdata : data.length = n * width) :
    (backward g width n iv data).1.length = n * width := by
  induction n generalizing iv data with
  | zero => simp [backward]
  | succ n ih =>
    have hsplit : (n + 1) * width = width + n * width := by ring
    have htake : (data.take width).length = width := by
      rw [List.length_take]
      omega
    have hdrop : (data.drop width).length = n * width := by
      rw [List.length_drop]
      omega
    have hrest := ih htake hdrop
    simp only [backward, List.length_append, length_xorBlock, hg _ htake, hiv, Nat.min_self]
    omega

/-- Backward chaining undoes forward chaining and ends with the same chaining value. -/
theorem backward_forward (hf : ∀ b, b.length = width → (f b).length = width)
    (hgf : ∀ b, b.length = width → g (f b) = b) (n : ℕ) {iv data : List UInt8}
    (hiv : iv.length = width) (hdata : data.length = n * width) :
    backward g width n iv (forward f width n iv data).1 =
      (data, (forward f width n iv data).2) := by
  induction n generalizing iv data with
  | zero =>
    have hnil : data = [] := by simpa using hdata
    simp [forward, backward, hnil]
  | succ n ih =>
    have hsplit : (n + 1) * width = width + n * width := by ring
    have htake : (data.take width).length = width := by
      rw [List.length_take]
      omega
    have hin : (xorBlock (data.take width) iv).length = width := by
      rw [length_xorBlock, htake, hiv, Nat.min_self]
    have hblock := hf _ hin
    have hdrop : (data.drop width).length = n * width := by
      rw [List.length_drop]
      omega
    have hrest := ih hblock hdrop
    simp only [forward, backward]
    rw [List.take_append_of_le_length (by omega), List.drop_append_of_le_length (by omega),
      List.take_of_length_le (by omega), List.drop_of_length_le (by omega), List.nil_append, hrest,
      hgf _ hin, xorBlock_self_right (by omega)]
    simp

end Cbc

end DfcCore
