import DfcCore.DerReader

/-!
# What a failing computation ensures

A postcondition for both ends of a computation that may fail: what holds of the value it
returns and what holds of the error it stops with. The rules follow the shape of a `do`
block, one for each kind of line.
-/
namespace DfcCore
open Der
variable {ε α β : Type} {P : α → Prop} {Q : β → Prop} {R : ε → Prop}

/-- The value satisfies `P`, or the error satisfies `R`. -/
def Ensures (P : α → Prop) (R : ε → Prop) : Except ε α → Prop
  | .ok a => P a
  | .error err => R err

namespace Ensures

theorem pure {a : α} (h : P a) : Ensures P R (Pure.pure a : Except ε α) := h

theorem bind {x : Except ε α} {f : α → Except ε β} (hx : Ensures P R x)
    (hf : ∀ a, P a → Ensures Q R (f a)) : Ensures Q R (x >>= f) := by
  cases x with
  | error err => exact hx
  | ok a => exact hf a hx

theorem refuseIf {p : Prop} [Decidable p] {err : ε} (h : p → R err) :
    Ensures (fun _ => ¬p) R (Der.refuseIf p err) := by
  unfold Der.refuseIf
  split_ifs with hp
  · exact h hp
  · exact hp

theorem orFail {o : Option α} {err : ε} (h : o = none → R err) :
    Ensures (fun a => o = some a) R (Der.orFail err o) := by
  cases o with
  | none => exact h rfl
  | some a => exact rfl

theorem ite {p : Prop} [Decidable p] {x y : Except ε α} (hx : p → Ensures P R x)
    (hy : ¬p → Ensures P R y) : Ensures P R (if p then x else y) := by
  split_ifs with hp
  · exact hx hp
  · exact hy hp

theorem imp {P' : α → Prop} {R' : ε → Prop} {x : Except ε α} (h : Ensures P R x)
    (hP : ∀ a, P a → P' a) (hR : ∀ err, R err → R' err) : Ensures P' R' x := by
  cases x with
  | error err => exact hR err h
  | ok a => exact hP a h

theorem of_ok {x : Except ε α} {a : α} (h : Ensures P R x) (hx : x = .ok a) : P a := by
  subst hx
  exact h

theorem of_error {x : Except ε α} {err : ε} (h : Ensures P R x) (hx : x = .error err) : R err := by
  subst hx
  exact h

end Ensures

/-- Whatever a computation stops with satisfies `R`. -/
def StopsWith (R : ε → Prop) (x : Except ε α) : Prop := Ensures (fun _ => True) R x

namespace StopsWith

@[simp] theorem pure (a : α) : StopsWith R (Pure.pure a : Except ε α) := trivial

@[simp] theorem ok (a : α) : StopsWith R (.ok a : Except ε α) := trivial

@[simp] theorem error_iff {err : ε} : StopsWith R (.error err : Except ε α) ↔ R err := Iff.rfl

@[simp] theorem bind_iff {x : Except ε α} {f : α → Except ε β} :
    StopsWith R (x >>= f) ↔ StopsWith R x ∧ ∀ a, x = .ok a → StopsWith R (f a) := by
  cases x with
  | error err => exact (and_iff_left (by simp)).symm
  | ok a => exact ⟨fun h => ⟨trivial, fun _ hb => Except.ok.inj hb ▸ h⟩, fun h => h.2 a rfl⟩

@[simp] theorem map_iff {x : Except ε α} {f : α → β} :
    StopsWith R (f <$> x) ↔ StopsWith R x := by
  cases x <;> rfl

@[simp] theorem refuseIf {p : Prop} [Decidable p] {err : ε} (h : R err) :
    StopsWith R (Der.refuseIf p err) :=
  (Ensures.refuseIf fun _ => h).imp (fun _ _ => trivial) fun _ => id

@[simp] theorem orFail {o : Option α} {err : ε} (h : R err) : StopsWith R (Der.orFail err o) :=
  (Ensures.orFail fun _ => h).imp (fun _ _ => trivial) fun _ => id

@[simp] theorem orRefuse {x : α × Bool} {err : ε} (h : R err) :
    StopsWith R (Der.orRefuse err x) := by
  obtain ⟨a, _ | _⟩ := x
  · exact h
  · exact trivial

@[simp] theorem ite_iff {p : Prop} [Decidable p] {x y : Except ε α} :
    StopsWith R (if p then x else y) ↔ (p → StopsWith R x) ∧ (¬p → StopsWith R y) := by
  split_ifs with hp <;> simp [hp]

/-- A walk stops where its step does, or at octets that are no TLV. -/
@[simp] theorem rWalk {σ : Type} {bad : ε} {step : σ → Tlv → Except ε σ} (hbad : R bad)
    (hstep : ∀ st tlv, StopsWith R (step st tlv)) (fuel : ℕ) (s : Slice) (st : σ) :
    StopsWith R (Der.rWalk bad step fuel s st) := by
  induction fuel generalizing s st with
  | zero => cases s <;> simp [Der.rWalk, hbad]
  | succ fuel ih =>
    cases s with
    | nil => simp [Der.rWalk]
    | cons b s =>
      cases htlv : rTlv (b :: s) with
      | none => simp [Der.rWalk, htlv, hbad]
      | some read =>
        have hone := hstep st read.1
        cases hst : step st read.1 with
        | error err => simpa [Der.rWalk, htlv, hst] using hone
        | ok next => simp [Der.rWalk, htlv, hst, ih]

end StopsWith

end DfcCore
