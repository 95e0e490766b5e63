import DfcCore.Memory

/-!
# Octets in ASCII hexadecimal

Two digits for each octet, the high half first. What is written with the upper-case alphabet
reads back, also by a reader that takes both cases.
-/
namespace DfcCore.AsciiHex

/-- The digit of a half octet. -/
def digit (n : ℕ) : UInt8 := UInt8.ofNat (if n < 10 then 0x30 + n else 0x41 + (n - 10))

def encode (octets : List UInt8) : List UInt8 :=
  octets.flatMap fun b => [digit (b.toNat / 16), digit (b.toNat % 16)]

/-- The value of a digit, of either case. -/
def nibble (value : UInt8) : Option ℕ :=
  if 0x30 ≤ value ∧ value ≤ 0x39 then some (value.toNat - 0x30)
  else if 0x41 ≤ value ∧ value ≤ 0x46 then some (value.toNat - 0x41 + 10)
  else if 0x61 ≤ value ∧ value ≤ 0x66 then some (value.toNat - 0x61 + 10)
  else none

/-- Reads digits in pairs; an odd digit at the end is refused. -/
def decode : List UInt8 → Option (List UInt8)
  | [] => some []
  | [_] => none
  | a :: b :: rest =>
    match nibble a, nibble b, decode rest with
    | some high, some low, some octets => some (UInt8.ofNat (high * 16 + low) :: octets)
    | _, _, _ => none

def valid (digits : List UInt8) : Bool := digits.all fun d => (nibble d).isSome

theorem nibble_digit : ∀ n : Fin 16, nibble (digit n) = some n.val := by decide

theorem length_encode (octets : List UInt8) : (encode octets).length = 2 * octets.length := by
  induction octets with
  | nil => rfl
  | cons b octets ih =>
    rw [encode, List.flatMap_cons, List.length_append, ← encode, ih]
    simp only [List.length_cons, List.length_nil]
    omega

theorem encode_cons (b : UInt8) (octets : List UInt8) :
    encode (b :: octets) = digit (b.toNat / 16) :: digit (b.toNat % 16) :: encode octets := rfl

theorem nibble_high (b : UInt8) : nibble (digit (b.toNat / 16)) = some (b.toNat / 16) :=
  nibble_digit ⟨b.toNat / 16, by have := b.toNat_lt; omega⟩

theorem nibble_low (b : UInt8) : nibble (digit (b.toNat % 16)) = some (b.toNat % 16) :=
  nibble_digit ⟨b.toNat % 16, Nat.mod_lt _ (by decide)⟩

theorem decode_encode (octets : List UInt8) : decode (encode octets) = some octets := by
  induction octets with
  | nil => rfl
  | cons b octets ih =>
    have hjoin : b.toNat / 16 * 16 + b.toNat % 16 = b.toNat := by omega
    rw [encode_cons, decode, nibble_high, nibble_low, ih]
    simp only [hjoin, UInt8.ofNat_toNat]

theorem valid_encode (octets : List UInt8) : valid (encode octets) = true := by
  induction octets with
  | nil => rfl
  | cons b octets ih =>
    simpa [encode_cons, valid, nibble_high, nibble_low] using ih

end DfcCore.AsciiHex
