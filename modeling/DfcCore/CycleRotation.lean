import Mathlib.Data.Nat.ModEq
import Mathlib.Data.Int.GCD
import Mathlib.Tactic

/-!
# Rotation by cycle leaders

An array of `count` places is rotated in place by `shift`: each place is filled from the one
`shift` further on, around each of the `gcd count shift` cycles in turn, with one place kept
aside. A cycle meets each of its `count / gcd count shift` places once, and the cycles together
meet every place.
-/
namespace CycleRotation

section Orbit
variable {count shift cycle : ℕ}

/-- The place that is met after `t` steps. -/
def place (count shift cycle t : ℕ) : ℕ := (cycle + t * shift) % count

/-- The number of places of a cycle. -/
def cycleLength (count shift : ℕ) : ℕ := count / Nat.gcd count shift

theorem cycleLength_pos (hcount : 0 < count) : 0 < cycleLength count shift :=
  Nat.div_pos (Nat.gcd_le_left _ hcount) (Nat.gcd_pos_of_pos_left _ hcount)

theorem cycleLength_le (count shift : ℕ) : cycleLength count shift ≤ count :=
  Nat.div_le_self ..

theorem place_zero (hcycle : cycle < count) : place count shift cycle 0 = cycle := by
  rw [place, Nat.zero_mul, Nat.add_zero, Nat.mod_eq_of_lt hcycle]

theorem place_succ (count shift cycle t : ℕ) :
    (place count shift cycle t + shift) % count = place count shift cycle (t + 1) := by
  rw [place, place, Nat.mod_add_mod, Nat.succ_mul, Nat.add_assoc]

/-- Two steps meet at one place exactly when they are whole turns apart. -/
theorem place_eq_iff (hcount : 0 < count) {t s : ℕ} :
    place count shift cycle t = place count shift cycle s ↔
      t ≡ s [MOD cycleLength count shift] := by
  constructor
  · intro h
    have hmul : t * shift ≡ s * shift [MOD count] := Nat.ModEq.add_left_cancel' cycle h
    exact hmul.cancel_right_div_gcd hcount
  · intro h
    obtain ⟨k, hk⟩ := Nat.gcd_dvd_right count shift
    have hturn : cycleLength count shift * shift = count * k := by
      rw [cycleLength, hk, ← Nat.mul_assoc, ← hk, Nat.div_mul_cancel (Nat.gcd_dvd_left _ _)]
    have hmul : t * shift ≡ s * shift [MOD cycleLength count shift * shift] := h.mul_right' shift
    rw [hturn] at hmul
    exact (hmul.of_mul_right k).add_left cycle

theorem place_injOn (hcount : 0 < count) {t s : ℕ} (ht : t < cycleLength count shift)
    (hs : s < cycleLength count shift)
    (h : place count shift cycle t = place count shift cycle s) : t = s :=
  ((place_eq_iff hcount).mp h).eq_of_lt_of_lt ht hs

/-- A walk is back at its start after a whole turn and not before. -/
theorem place_eq_cycle_iff (hcycle : cycle < count) {t : ℕ} (ht : 0 < t)
    (hle : t ≤ cycleLength count shift) :
    place count shift cycle t = cycle ↔ t = cycleLength count shift := by
  have hcount : 0 < count := by omega
  have hstart : place count shift cycle t = cycle ↔
      place count shift cycle t = place count shift cycle 0 := by rw [place_zero hcycle]
  rw [hstart, place_eq_iff hcount, Nat.modEq_zero_iff_dvd]
  exact ⟨fun h => Nat.le_antisymm hle (Nat.le_of_dvd ht h), fun h => h ▸ dvd_rfl⟩

/-- The places of a cycle are those that leave the remainder of its start. -/
theorem exists_place_iff (hshift : 0 < shift) (hlt : shift < count)
    (hcycle : cycle < Nat.gcd count shift) {j : ℕ} (hj : j < count) :
    (∃ t < cycleLength count shift, place count shift cycle t = j) ↔
      j % Nat.gcd count shift = cycle := by
  have hcount : 0 < count := by omega
  constructor
  · rintro ⟨t, -, rfl⟩
    have hdvd : Nat.gcd count shift ∣ t * shift := (Nat.gcd_dvd_right _ _).mul_left t
    rw [place, Nat.mod_mod_of_dvd _ (Nat.gcd_dvd_left _ _), Nat.add_mod,
      Nat.mod_eq_zero_of_dvd hdvd, Nat.add_zero, Nat.mod_mod, Nat.mod_eq_of_lt hcycle]
  · intro h
    -- a multiple of the shift leaves the divisor, so one leaves the way from the start to `j`
    have hgcd : Nat.gcd shift count < count :=
      (Nat.gcd_le_left _ hshift).trans_lt hlt
    obtain ⟨m, -, hm⟩ := Nat.exists_mul_mod_eq_gcd hgcd
    rw [Nat.gcd_comm] at hm
    have hq := Nat.div_add_mod j (Nat.gcd count shift)
    rw [h] at hq
    set q := j / Nat.gcd count shift with hqdef
    have hmod : shift * m ≡ Nat.gcd count shift [MOD count] := by
      rw [Nat.ModEq, hm, Nat.mod_eq_of_lt (by rw [Nat.gcd_comm]; exact hgcd)]
    have hreach : place count shift cycle (q * m) = j := by
      have hsteps : q * m * shift = shift * m * q := by ring
      have hall : cycle + q * m * shift ≡ j [MOD count] := by
        rw [hsteps, ← hq, Nat.add_comm]
        exact (hmod.mul_right q).add_right cycle
      rw [place, hall, Nat.mod_eq_of_lt hj]
    refine ⟨q * m % cycleLength count shift, Nat.mod_lt _ (cycleLength_pos hcount), ?_⟩
    rw [← hreach, place_eq_iff hcount]
    exact Nat.mod_modEq _ _

end Orbit

section Walk
variable {α : Type*} {count shift cycle : ℕ}

/-- The walk around one cycle: each place is filled from the next until the next is the start.
At most `fuel` places are met. -/
def walk (f : ℕ → α) (count shift cycle : ℕ) : ℕ → ℕ → (ℕ → α) × ℕ
  | 0, current => (f, current)
  | fuel + 1, current =>
    let next := (current + shift) % count
    if next = cycle then (f, current)
    else walk (Function.update f current (f next)) count shift cycle fuel next

/-- What a walk from step `t` on leaves: it ends one step before the turn is whole, with every
place it met filled from the next one. -/
structure Walked (f g : ℕ → α) (count shift cycle t : ℕ) : Prop where
  moved : ∀ s, t ≤ s → s + 1 < cycleLength count shift →
    g (place count shift cycle s) = f (place count shift cycle (s + 1))
  kept : ∀ j, (∀ s, t ≤ s → s + 1 < cycleLength count shift → j ≠ place count shift cycle s) →
    g j = f j

theorem walk_from (hcycle : cycle < count) (f : ℕ → α) {fuel t : ℕ}
    (ht : t < cycleLength count shift) (hfuel : cycleLength count shift ≤ t + fuel) :
    (walk f count shift cycle fuel (place count shift cycle t)).2 =
        place count shift cycle (cycleLength count shift - 1) ∧
      Walked f (walk f count shift cycle fuel (place count shift cycle t)).1
        count shift cycle t := by
  have hcount : 0 < count := by omega
  induction fuel generalizing f t with
  | zero => omega
  | succ fuel ih =>
    rw [walk, place_succ]
    have hback := @place_eq_cycle_iff count shift cycle hcycle (t + 1) (by omega) (by omega)
    by_cases hend : t + 1 = cycleLength count shift
    · rw [if_pos (hback.mpr hend)]
      refine ⟨by rw [← hend, Nat.add_sub_cancel], fun s hts hs => by omega, fun j _ => rfl⟩
    · rw [if_neg (fun h => hend (hback.mp h))]
      obtain ⟨hlast, hmoved, hkept⟩ := ih (Function.update f (place count shift cycle t)
        (f (place count shift cycle (t + 1)))) (show t + 1 < cycleLength count shift by omega)
        (by omega)
      have hother : ∀ s, t < s → s < cycleLength count shift →
          place count shift cycle s ≠ place count shift cycle t := by
        intro s hts hs h
        exact absurd (place_injOn hcount hs ht h) (by omega)
      refine ⟨hlast, ?_, ?_⟩
      · intro s hts hs
        rcases Nat.eq_or_lt_of_le hts with rfl | hts
        · rw [hkept _ (fun s hts hs => (hother s (by omega) (by omega)).symm),
            Function.update_self]
        · rw [hmoved s hts hs, Function.update_of_ne (hother (s + 1) (by omega) hs)]
      · intro j hj
        rw [hkept j (fun s hts hs => hj s (by omega) hs),
          Function.update_of_ne (hj t le_rfl (by omega))]

/-- One cycle: the walk, and the start put where it ended. -/
def rotateCycle (f : ℕ → α) (count shift cycle : ℕ) : ℕ → α :=
  let walked := walk f count shift cycle count cycle
  Function.update walked.1 walked.2 (f cycle)

theorem rotateCycle_apply (hshift : 0 < shift) (hlt : shift < count)
    (hcycle : cycle < Nat.gcd count shift) (f : ℕ → α) {j : ℕ} (hj : j < count) :
    rotateCycle f count shift cycle j =
      if j % Nat.gcd count shift = cycle then f ((j + shift) % count) else f j := by
  have hcount : 0 < count := by omega
  have hcycleLt : cycle < count := hcycle.trans_le (Nat.gcd_le_left _ hcount)
  have hpos := @cycleLength_pos count shift hcount
  have hfuel : cycleLength count shift ≤ 0 + count := by
    rw [Nat.zero_add]
    exact cycleLength_le count shift
  have hwalk := walk_from hcycleLt f hpos hfuel
  rw [place_zero hcycleLt] at hwalk
  obtain ⟨hlast, hmoved, hkept⟩ := hwalk
  rw [rotateCycle, hlast]
  by_cases hmet : ∃ t < cycleLength count shift, place count shift cycle t = j
  · rw [if_pos ((exists_place_iff hshift hlt hcycle hj).mp hmet)]
    obtain ⟨t, ht, rfl⟩ := hmet
    rw [place_succ]
    by_cases hend : t + 1 = cycleLength count shift
    · have hback := (@place_eq_cycle_iff count shift cycle hcycleLt (t + 1) (by omega)
        (by omega)).mpr hend
      rw [← hend, Nat.add_sub_cancel, Function.update_self, hback]
    · have hne : place count shift cycle t ≠
          place count shift cycle (cycleLength count shift - 1) := by
        intro h
        exact absurd (place_injOn hcount ht (by omega) h) (by omega)
      rw [Function.update_of_ne hne, hmoved t (by omega) (by omega)]
  · rw [if_neg (fun h => hmet ((exists_place_iff hshift hlt hcycle hj).mpr h))]
    have hout : ∀ t < cycleLength count shift, j ≠ place count shift cycle t :=
      fun t ht h => hmet ⟨t, ht, h.symm⟩
    rw [Function.update_of_ne (hout _ (by omega)), hkept j (fun s _ hs => hout s (by omega))]

end Walk

section Rotate
variable {α : Type*} {count shift : ℕ}

def rotate (f : ℕ → α) (count shift : ℕ) : ℕ → α :=
  (List.range (Nat.gcd count shift)).foldl (fun f cycle => rotateCycle f count shift cycle) f

/-- After the first cycles the places with their remainders are filled from `shift` further
on. -/
theorem rotateCycles_apply (hshift : 0 < shift) (hlt : shift < count) (f : ℕ → α) {cycles : ℕ}
    (hcycles : cycles ≤ Nat.gcd count shift) {j : ℕ} (hj : j < count) :
    (List.range cycles).foldl (fun f cycle => rotateCycle f count shift cycle) f j =
      if j % Nat.gcd count shift < cycles then f ((j + shift) % count) else f j := by
  have hcount : 0 < count := by omega
  induction cycles generalizing j with
  | zero => rw [if_neg (Nat.not_lt_zero _)]; rfl
  | succ cycles ih =>
    have hnext : (j + shift) % count % Nat.gcd count shift = j % Nat.gcd count shift := by
      rw [Nat.mod_mod_of_dvd _ (Nat.gcd_dvd_left _ _), Nat.add_mod,
        Nat.mod_eq_zero_of_dvd (Nat.gcd_dvd_right _ _), Nat.add_zero, Nat.mod_mod]
    rw [List.range_succ, List.foldl_append, List.foldl_cons, List.foldl_nil,
      rotateCycle_apply hshift hlt (by omega) _ hj]
    by_cases hthis : j % Nat.gcd count shift = cycles
    · rw [if_pos hthis, if_pos (by omega), ih (by omega) (Nat.mod_lt _ hcount), hnext,
        if_neg (by omega)]
    · rw [if_neg hthis, ih (by omega) hj]
      by_cases hbefore : j % Nat.gcd count shift < cycles
      · rw [if_pos hbefore, if_pos (by omega)]
      · rw [if_neg hbefore, if_neg (by omega)]

/-- The cycles together rotate the array. -/
theorem rotate_apply (hshift : 0 < shift) (hlt : shift < count) (f : ℕ → α) {j : ℕ}
    (hj : j < count) : rotate f count shift j = f ((j + shift) % count) := by
  rw [rotate, rotateCycles_apply hshift hlt f le_rfl hj,
    if_pos (Nat.mod_lt _ (Nat.gcd_pos_of_pos_left _ (by omega)))]

end Rotate

end CycleRotation
