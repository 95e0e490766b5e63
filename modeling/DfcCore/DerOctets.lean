import DfcCore.Memory
import Mathlib.Data.List.Basic
import Mathlib.Data.Nat.ModEq
import Mathlib.Tactic

/-!
# Lengths and integers in the DER subset

The octets of a definite length of at most two length octets, and of a minimal
two's-complement INTEGER of at most eight. The reader of integers accepts exactly the
octets the writer makes.
-/
namespace DfcCore.Der

/-- The last `k` octets of `n`, most significant first. -/
def beOctets : ℕ → ℕ → List UInt8
  | 0, _ => []
  | k + 1, n => UInt8.ofNat (n / 256 ^ k) :: beOctets k n

/-- The number the octets spell. -/
def beNat (s : List UInt8) : ℕ := s.foldl (fun v b => v * 256 + b.toNat) 0

@[simp] theorem length_beOctets (k n : ℕ) : (beOctets k n).length = k := by
  induction k with
  | zero => rfl
  | succ k ih => simp [beOctets, ih]

theorem foldl_beNat (s : List UInt8) (v : ℕ) :
    s.foldl (fun v b => v * 256 + b.toNat) v = v * 256 ^ s.length + beNat s := by
  induction s generalizing v with
  | nil => simp [beNat]
  | cons b s ih =>
    rw [beNat, List.foldl_cons, List.foldl_cons, ih, ih]
    simp only [List.length_cons, pow_succ]
    ring

theorem beNat_cons (b : UInt8) (s : List UInt8) :
    beNat (b :: s) = b.toNat * 256 ^ s.length + beNat s := by
  rw [beNat, List.foldl_cons, foldl_beNat]
  simp

theorem beNat_lt (s : List UInt8) : beNat s < 256 ^ s.length := by
  induction s with
  | nil => simp [beNat]
  | cons b s ih =>
    have hb := b.toNat_lt
    rw [beNat_cons, List.length_cons, pow_succ]
    have : b.toNat * 256 ^ s.length ≤ 255 * 256 ^ s.length := Nat.mul_le_mul_right _ (by omega)
    omega

theorem beNat_beOctets (k n : ℕ) : beNat (beOctets k n) = n % 256 ^ k := by
  induction k with
  | zero => simp [beOctets, beNat, Nat.mod_one]
  | succ k ih =>
    rw [beOctets, beNat_cons, ih, length_beOctets, UInt8.toNat_ofNat']
    rw [show (2 : ℕ) ^ 8 = 256 from rfl, pow_succ, Nat.mod_mul, mul_comm, add_comm]

theorem beOctets_eq_of_mod {k n m : ℕ} (h : n % 256 ^ k = m % 256 ^ k) :
    beOctets k n = beOctets k m := by
  induction k with
  | zero => rfl
  | succ k ih =>
    rw [pow_succ] at h
    have hlow : n % 256 ^ k = m % 256 ^ k := by
      rw [← Nat.mod_mul_right_mod n (256 ^ k) 256, h, Nat.mod_mul_right_mod]
    rw [beOctets, beOctets, ih hlow]
    congr 1
    apply UInt8.toNat_inj.mp
    rw [UInt8.toNat_ofNat', UInt8.toNat_ofNat']
    have hn := Nat.mod_mul (x := n) (a := 256 ^ k) (b := 256)
    have hm := Nat.mod_mul (x := m) (a := 256 ^ k) (b := 256)
    have hpos : 0 < 256 ^ k := by positivity
    have heq : 256 ^ k * (n / 256 ^ k % 256) = 256 ^ k * (m / 256 ^ k % 256) := by omega
    simpa using Nat.eq_of_mul_eq_mul_left hpos heq

theorem beOctets_beNat (s : List UInt8) : beOctets s.length (beNat s) = s := by
  induction s with
  | nil => rfl
  | cons b s ih =>
    have hlt := beNat_lt s
    have hpos : 0 < 256 ^ s.length := by positivity
    have htop : (b.toNat * 256 ^ s.length + beNat s) / 256 ^ s.length = b.toNat := by
      rw [mul_comm, Nat.mul_add_div hpos, Nat.div_eq_of_lt hlt, add_zero]
    have hlow : (b.toNat * 256 ^ s.length + beNat s) % 256 ^ s.length =
        beNat s % 256 ^ s.length := by
      rw [mul_comm, Nat.mul_add_mod]
    rw [List.length_cons, beOctets, beNat_cons, htop, beOctets_eq_of_mod hlow, ih]
    simp

/-- The length octets of `w_len`. Above `0xFFFF` there are none. -/
def encLen (n : ℕ) : List UInt8 :=
  if n < 128 then [UInt8.ofNat n]
  else if n < 256 then [0x81, UInt8.ofNat n]
  else if n ≤ 0xFFFF then [0x82, UInt8.ofNat (n / 256), UInt8.ofNat n]
  else []

/-- Identifier, length and body. -/
def encTlv (tag : UInt8) (body : List UInt8) : List UInt8 := tag :: (encLen body.length ++ body)

/-- Octets a length takes beyond the short form. -/
def lenExtra (n : ℕ) : ℕ := if 256 ≤ n then 2 else if 128 ≤ n then 1 else 0

theorem length_encLen {n : ℕ} (h : n ≤ 0xFFFF) : (encLen n).length = 1 + lenExtra n := by
  unfold encLen lenExtra
  split_ifs <;> first | rfl | omega

theorem length_encTlv (tag : UInt8) {body : List UInt8} (h : body.length ≤ 0xFFFF) :
    (encTlv tag body).length = 2 + lenExtra body.length + body.length := by
  simp only [encTlv, List.length_cons, List.length_append, length_encLen h]
  omega

theorem length_body_le (tag : UInt8) (body : List UInt8) :
    body.length + 1 ≤ (encTlv tag body).length := by
  simp only [encTlv, List.length_cons, List.length_append]
  omega

/-- Whether the first of two leading octets only repeats the sign. -/
def redundant (a b : UInt8) : Bool :=
  (a == 0x00 && b &&& 0x80 == 0) || (a == 0xFF && b &&& 0x80 != 0)

/-- Drops redundant leading octets. -/
def trimSign : List UInt8 → List UInt8
  | a :: b :: s => if redundant a b then trimSign (b :: s) else a :: b :: s
  | s => s

/-- The octets of `w_int`: eight of them, big-endian, then trimmed. -/
def encInt (v : ℤ) : List UInt8 := trimSign (beOctets 8 (v % 2 ^ 64).toNat)

/-- `(int64_t)v` of an unsigned 64-bit value. -/
def int64Of (v : ℕ) : ℤ := if v < 2 ^ 63 then v else (v : ℤ) - 2 ^ 64

/-- The accumulation of `r_int`, from the sign extension of the first octet. -/
def accumulate (s : List UInt8) : ℕ :=
  s.foldl (fun v b => (v * 256 + b.toNat) % 2 ^ 64)
    (if s.headD 0 &&& 0x80 != 0 then 2 ^ 64 - 1 else 0)

/-- The value of `r_int` on the body of a component. -/
def decInt (s : List UInt8) : Option ℤ :=
  if s.length = 0 ∨ 8 < s.length then none
  else if 1 < s.length ∧ redundant (s.getD 0 0) (s.getD 1 0) then none
  else some (int64Of (accumulate s))

theorem foldl_accumulate (s : List UInt8) (v : ℕ) (hv : v < 2 ^ 64) :
    s.foldl (fun v b => (v * 256 + b.toNat) % 2 ^ 64) v =
      (v * 256 ^ s.length + beNat s) % 2 ^ 64 := by
  induction s generalizing v with
  | nil => simpa [beNat] using (Nat.mod_eq_of_lt hv).symm
  | cons b s ih =>
    rw [List.foldl_cons, ih _ (Nat.mod_lt _ (by norm_num)), beNat_cons, List.length_cons]
    have hstep : (v * 256 + b.toNat) % 2 ^ 64 * 256 ^ s.length + beNat s ≡
        (v * 256 + b.toNat) * 256 ^ s.length + beNat s [MOD 2 ^ 64] :=
      Nat.ModEq.add_right _ (Nat.ModEq.mul_right _ (Nat.mod_modEq _ _))
    refine hstep.trans ?_
    rw [pow_succ 256]
    congr 1
    ring

theorem accumulate_lt (s : List UInt8) : accumulate s < 2 ^ 64 := by
  rw [accumulate, foldl_accumulate]
  · exact Nat.mod_lt _ (by norm_num)
  · split_ifs <;> norm_num

/-- Eight octets leave nothing of the sign extension. -/
theorem accumulate_eight {s : List UInt8} (h : s.length = 8) : accumulate s = beNat s := by
  have hlt := beNat_lt s
  rw [h] at hlt
  rw [accumulate, foldl_accumulate, h]
  · have h256 : (256 : ℕ) ^ 8 = 2 ^ 64 := by norm_num
    rw [h256] at hlt ⊢
    rw [add_comm, Nat.add_mul_mod_self_right, Nat.mod_eq_of_lt hlt]
  · split_ifs <;> norm_num

/-- A redundant octet and the one behind it have the same sign. -/
theorem redundant_sign {a b : UInt8} (h : redundant a b = true) :
    (a = 0 ∧ b &&& 0x80 = 0) ∨ (a = 0xFF ∧ b &&& 0x80 ≠ 0) := by
  simpa [redundant] using h

theorem accumulate_redundant {a b : UInt8} (s : List UInt8) (h : redundant a b = true) :
    accumulate (a :: b :: s) = accumulate (b :: s) := by
  rcases redundant_sign h with ⟨ha, hb⟩ | ⟨ha, hb⟩
  · simp [accumulate, ha, hb]
  · have hff : (0xFF : UInt8) &&& 0x80 ≠ 0 := by decide
    simp [accumulate, ha, hb, hff]

theorem accumulate_trimSign (s : List UInt8) : accumulate (trimSign s) = accumulate s := by
  induction s with
  | nil => rfl
  | cons a s ih =>
    cases s with
    | nil => rfl
    | cons b s =>
      rw [trimSign]
      split_ifs with h
      · rw [ih, accumulate_redundant s h]
      · rfl

theorem length_trimSign_le (s : List UInt8) : (trimSign s).length ≤ s.length := by
  induction s with
  | nil => exact le_rfl
  | cons a s ih =>
    cases s with
    | nil => exact le_rfl
    | cons b s =>
      rw [trimSign]
      split_ifs
      · exact le_trans ih (by simp)
      · exact le_rfl

theorem trimSign_ne_nil {s : List UInt8} (h : s ≠ []) : trimSign s ≠ [] := by
  induction s with
  | nil => exact absurd rfl h
  | cons a s ih =>
    cases s with
    | nil => exact h
    | cons b s =>
      rw [trimSign]
      split_ifs
      · exact ih (by simp)
      · simp

/-- A list no octet can be trimmed from. -/
def Minimal (s : List UInt8) : Prop := ¬(1 < s.length ∧ redundant (s.getD 0 0) (s.getD 1 0))

theorem minimal_trimSign (s : List UInt8) : Minimal (trimSign s) := by
  induction s with
  | nil => simp [trimSign, Minimal]
  | cons a s ih =>
    cases s with
    | nil => simp [trimSign, Minimal]
    | cons b s =>
      rw [trimSign]
      split_ifs with h
      · exact ih
      · simpa [Minimal] using h

theorem trimSign_of_minimal {s : List UInt8} (h : Minimal s) : trimSign s = s := by
  match s with
  | [] => rfl
  | [_] => rfl
  | a :: b :: s =>
    have hr : ¬ redundant a b = true := by simpa [Minimal] using h
    rw [trimSign, if_neg hr]

/-- The octets widened to eight by repeating the sign. -/
def signExtend (s : List UInt8) (k : ℕ) : List UInt8 :=
  List.replicate k (if s.headD 0 &&& 0x80 != 0 then 0xFF else 0x00) ++ s

theorem redundant_signExtend (s : List UInt8) (k : ℕ) :
    redundant (if s.headD 0 &&& 0x80 != 0 then 0xFF else 0x00)
    ((signExtend s k).headD 0) = true := by
  have hff : (0xFF : UInt8) &&& 0x80 ≠ 0 := by decide
  cases k with
  | zero =>
    simp only [signExtend, List.replicate_zero, List.nil_append]
    split_ifs with hs
    · simpa [redundant] using hs
    · simpa [redundant] using hs
  | succ k =>
    simp only [signExtend, List.replicate_succ, List.cons_append, List.headD_cons]
    split_ifs with hs
    · simp [redundant, hff]
    · simp [redundant]

theorem signExtend_succ (s : List UInt8) (k : ℕ) :
    signExtend s (k + 1) = (if s.headD 0 &&& 0x80 != 0 then 0xFF else 0x00) :: signExtend s k := by
  simp [signExtend, List.replicate_succ]

theorem signExtend_ne_nil {s : List UInt8} (h : s ≠ []) (k : ℕ) : signExtend s k ≠ [] := by
  simp [signExtend, h]

theorem trimSign_signExtend {s : List UInt8} (h : s ≠ []) (k : ℕ) :
    trimSign (signExtend s k) = trimSign s := by
  induction k with
  | zero => simp [signExtend]
  | succ k ih =>
    obtain ⟨b, t, ht⟩ := List.exists_cons_of_ne_nil (signExtend_ne_nil h k)
    have hr := redundant_signExtend s k
    rw [ht, List.headD_cons] at hr
    rw [signExtend_succ, ht, trimSign, if_pos hr, ← ht, ih]

theorem accumulate_signExtend {s : List UInt8} (h : s ≠ []) (k : ℕ) :
    accumulate (signExtend s k) = accumulate s := by
  rw [← accumulate_trimSign (signExtend s k), trimSign_signExtend h, accumulate_trimSign]

theorem int64Of_toNat {v : ℕ} (h : v < 2 ^ 64) : (int64Of v % 2 ^ 64).toNat = v := by
  unfold int64Of
  split_ifs <;> omega

theorem int64Of_bounds {v : ℕ} (h : v < 2 ^ 64) : -2 ^ 63 ≤ int64Of v ∧ int64Of v < 2 ^ 63 := by
  unfold int64Of
  split_ifs <;> omega

theorem int64Of_mod {v : ℤ} (h : -2 ^ 63 ≤ v) (h' : v < 2 ^ 63) :
    int64Of (v % 2 ^ 64).toNat = v := by
  unfold int64Of
  split_ifs <;> omega

/-- The reader of integers accepts exactly what the writer makes. -/
theorem decInt_eq_some {s : List UInt8} {v : ℤ} :
    decInt s = some v ↔ s = encInt v ∧ -2 ^ 63 ≤ v ∧ v < 2 ^ 63 := by
  constructor
  · intro h
    unfold decInt at h
    split_ifs at h with h₁ h₂
    simp only [Option.some.injEq] at h
    have hs : s ≠ [] := fun hn => h₁ (Or.inl (by simp [hn]))
    have hlen : s.length ≤ 8 := by omega
    have hlt := accumulate_lt s
    subst h
    refine ⟨?_, int64Of_bounds hlt⟩
    have hext : (signExtend s (8 - s.length)).length = 8 := by
      simp only [signExtend, List.length_append, List.length_replicate]
      omega
    have hval : beNat (signExtend s (8 - s.length)) = accumulate s := by
      rw [← accumulate_eight hext, accumulate_signExtend hs]
    have hoct : beOctets 8 (accumulate s) = signExtend s (8 - s.length) := by
      have hback := beOctets_beNat (signExtend s (8 - s.length))
      rwa [hext, hval] at hback
    rw [encInt, int64Of_toNat hlt, hoct, trimSign_signExtend hs, trimSign_of_minimal h₂]
  · rintro ⟨rfl, hlo, hhi⟩
    have hne : beOctets 8 (v % 2 ^ 64).toNat ≠ [] := by simp [beOctets]
    have h₁ : ¬((encInt v).length = 0 ∨ 8 < (encInt v).length) := by
      have hle := length_trimSign_le (beOctets 8 (v % 2 ^ 64).toNat)
      have hpos := List.length_pos_of_ne_nil (trimSign_ne_nil hne)
      rw [length_beOctets] at hle
      rw [encInt]
      omega
    have h₂ : Minimal (encInt v) := minimal_trimSign _
    rw [Minimal] at h₂
    rw [decInt, if_neg h₁, if_neg h₂, encInt, accumulate_trimSign,
      accumulate_eight (length_beOctets 8 _), beNat_beOctets]
    have hmod : (v % 2 ^ 64).toNat % 256 ^ 8 = (v % 2 ^ 64).toNat := by
      apply Nat.mod_eq_of_lt
      omega
    rw [hmod, int64Of_mod hlo hhi]

theorem length_encInt_le (v : ℤ) : (encInt v).length ≤ 8 := by
  have h := length_trimSign_le (beOctets 8 (v % 2 ^ 64).toNat)
  rwa [length_beOctets] at h

theorem encInt_injective {v w : ℤ} (hv : -2 ^ 63 ≤ v) (hv' : v < 2 ^ 63) (hw : -2 ^ 63 ≤ w)
    (hw' : w < 2 ^ 63) (h : encInt v = encInt w) : v = w := by
  have h₁ := decInt_eq_some.mpr ⟨rfl, hv, hv'⟩
  have h₂ := decInt_eq_some.mpr ⟨rfl, hw, hw'⟩
  rw [h, h₂, Option.some.injEq] at h₁
  exact h₁.symm

abbrev Slice := List UInt8

structure Tlv where
  tag : UInt8
  body : Slice
  deriving Repr, DecidableEq

/-- The body of a BOOLEAN. -/
def encBool (v : Bool) : Slice := [if v then 0xFF else 0x00]

/-- The octets of an optional component. -/
def optTlv (tag : UInt8) : Option Slice → Slice
  | none => []
  | some body => encTlv tag body

/-- The octets of a SEQUENCE body from its components in declaration order. -/
def encFields (l : List (UInt8 × Option Slice)) : Slice := l.flatMap fun p => optTlv p.1 p.2

/-- The octets of a sequence of TLVs. -/
def encItems (items : List Tlv) : Slice := items.flatMap fun t => encTlv t.tag t.body

end DfcCore.Der
