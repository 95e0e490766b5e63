import DfcCore.SecureMessaging

/-!
# CMAC over segments

`dfc_aes_cmac_context_compute` and `dfc_des_cmac_context_compute` take a message as a list of
segments. Whole blocks are chained straight from a segment while nothing is pending and more
follows; all other octets pass through a pending block that is chained only when an octet is
known to follow it. Against them stands the code as the standard defines it, block by block over
the whole message, with the doubling of the subkeys as an operation on numbers. The two agree
however the message is cut.
-/
namespace DfcCore
open Cmac

/-- The number an octet string stands for, the first octet leading. -/
def beValue (octets : List UInt8) : ℕ := leValue octets.reverse

/-- A number in `width` octets, the most significant first. -/
def beOctets (width n : ℕ) : List UInt8 := (leOctets width n).reverse

namespace CmacShape
variable (shape : CmacShape) (encrypt : List UInt8 → List UInt8)

/-- Doubling in the field of the blocks: one bit to the left, and the reduction where a bit was
shifted out. -/
def fieldDouble (block : List UInt8) : List UInt8 :=
  let bits := 8 * shape.width
  let shifted := 2 * beValue block % 2 ^ bits
  beOctets shape.width
    (if (beValue block).testBit (bits - 1) then shifted ^^^ shape.reduction.toNat else shifted)

/-- The code of a message by the standard, chained from `iv`: the blocks before the last, then
the last under the first subkey where it is whole, else padded and under the second. -/
def standardCmac (iv message : List UInt8) : List UInt8 :=
  let subkey1 := shape.fieldDouble (encrypt (List.replicate shape.width 0))
  let subkey2 := shape.fieldDouble subkey1
  let blocks := (message.length - 1) / shape.width
  let last := message.drop (blocks * shape.width)
  let chained := (Cbc.forward encrypt shape.width blocks iv message).2
  encrypt (xorBlock chained (if last.length = shape.width then xorBlock last subkey1
    else xorBlock (last ++ 0x80 :: List.replicate (shape.width - 1 - last.length) 0) subkey2))

end CmacShape

inductive DfcCmacFinalMode where
  | standard | prePadded
  deriving Repr, DecidableEq

namespace CmacShape
variable (shape : CmacShape) (encrypt : List UInt8 → List UInt8)

/-- The loop over the octets of one segment, from the chaining value and the pending block. A
turn takes at least one octet, so the length of the segment is turns enough. -/
def segmentLoop : ℕ → List UInt8 × List UInt8 → List UInt8 → List UInt8 × List UInt8
  | 0, s, _ => s
  | turns + 1, (x, pending), data =>
    if data = [] then (x, pending)
    else if pending = [] ∧ shape.width < data.length then
      segmentLoop turns (encrypt (xorBlock x (data.take shape.width)), []) (data.drop shape.width)
    else
      let (x, pending) :=
        if pending.length = shape.width then (encrypt (xorBlock x pending), []) else (x, pending)
      let taken := min (shape.width - pending.length) data.length
      segmentLoop turns (x, pending ++ data.take taken) (data.drop taken)

def takeSegment (s : List UInt8 × List UInt8) (segment : List UInt8) :
    List UInt8 × List UInt8 := shape.segmentLoop encrypt segment.length s segment

/-- `dfc_aes_cmac_context_compute` and `dfc_des_cmac_context_compute`. `sizeMax` is the largest
size of the platform. -/
def contextCompute (sizeMax : ℕ) (segments : List (List UInt8)) (iv : List UInt8)
    (finalMode : DfcCmacFinalMode) : Option (List UInt8) :=
  let subkey1 := shape.doubled (encrypt (List.replicate shape.width 0))
  let subkey2 := shape.doubled subkey1
  let totalLen := (segments.map List.length).sum
  if sizeMax < totalLen + (shape.width - 1) then none
  else
    let (x, pending) := segments.foldl (shape.takeSegment encrypt) (iv, [])
    match finalMode with
    | .prePadded =>
      if totalLen = 0 ∨ pending.length ≠ shape.width then none
      else some (encrypt (xorBlock x (xorBlock pending subkey2)))
    | .standard =>
      if totalLen ≠ 0 ∧ pending.length = shape.width then
        some (encrypt (xorBlock x (xorBlock pending subkey1)))
      else
        let padded := pending ++ 0x80 :: List.replicate (shape.width - 1 - pending.length) 0
        some (encrypt (xorBlock x (xorBlock padded subkey2)))

end CmacShape

def dfcAesCmacContextCompute (aes : BlockCipher 16) (key : List UInt8) (sizeMax : ℕ)
    (segments : List (List UInt8)) (iv : List UInt8) (finalMode : DfcCmacFinalMode) :
    Option (List UInt8) :=
  aesCmacShape.contextCompute (aes.encrypt key) sizeMax segments iv finalMode

def dfcDesCmacContextCompute (des : BlockCipher 8) (key : List UInt8) (sizeMax : ℕ)
    (segments : List (List UInt8)) (iv : List UInt8) (finalMode : DfcCmacFinalMode) :
    Option (List UInt8) :=
  desCmacShape.contextCompute (des.encrypt key) sizeMax segments iv finalMode

theorem beValue_cons (b : UInt8) (rest : List UInt8) :
    beValue (b :: rest) = b.toNat * 256 ^ rest.length + beValue rest := by
  rw [beValue, List.reverse_cons, leValue_append, List.length_reverse, beValue, leValue, leValue]
  ring

theorem beValue_lt (l : List UInt8) : beValue l < 256 ^ l.length := by
  have h := leValue_lt l.reverse
  rwa [List.length_reverse] at h

theorem beOctets_beValue (l : List UInt8) : beOctets l.length (beValue l) = l := by
  have h := leOctets_leValue l.reverse
  rw [List.length_reverse] at h
  rw [beOctets, beValue, h, List.reverse_reverse]

theorem octet_high_set (b : UInt8) : b &&& 0x80 ≠ 0 ↔ 128 ≤ b.toNat := by
  revert b
  exact forall_octet (by decide +kernel)

theorem toNat_shiftLeft_one (b : UInt8) : (b <<< 1).toNat = 2 * b.toNat % 256 := by
  rw [UInt8.toNat_shiftLeft, Nat.shiftLeft_eq, Nat.mul_comm]
  rfl

theorem toNat_shift_carry (b b' : UInt8) :
    (if b' &&& 0x80 ≠ 0 then (b <<< 1) + 1 else b <<< 1).toNat =
      (2 * b.toNat + b'.toNat / 128) % 256 := by
  have hb' : b'.toNat < 256 := b'.toNat_lt
  split_ifs with hcarry
  · have hge := (octet_high_set b').mp hcarry
    rw [UInt8.toNat_add, toNat_shiftLeft_one, UInt8.toNat_one]
    omega
  · have hlt := mt (octet_high_set b').mpr hcarry
    rw [toNat_shiftLeft_one]
    omega

/-- The bit shifted out of a string is the high bit of its first octet. -/
theorem beValue_cons_carry (b : UInt8) (rest : List UInt8) :
    2 * beValue (b :: rest) / 256 ^ (rest.length + 1) = b.toNat / 128 := by
  have hrest := beValue_lt rest
  have hpos : 0 < 256 ^ rest.length := by positivity
  rw [beValue_cons, pow_succ, ← Nat.div_div_eq_div_mul,
    show 2 * (b.toNat * 256 ^ rest.length + beValue rest) =
      2 * beValue rest + 2 * b.toNat * 256 ^ rest.length by ring, Nat.add_mul_div_right _ _ hpos]
  have hsmall : 2 * beValue rest / 256 ^ rest.length < 2 := by
    rw [Nat.div_lt_iff_lt_mul hpos]
    omega
  generalize 2 * beValue rest / 256 ^ rest.length = low at hsmall
  omega

/-- The shift over a string is the shift of its number. -/
theorem beValue_bitShiftLeft (l : List UInt8) :
    beValue (bitShiftLeft l) = 2 * beValue l % 256 ^ l.length := by
  induction l with
  | nil => simp [bitShiftLeft, beValue, leValue]
  | cons b rest ih =>
    cases rest with
    | nil => simpa [bitShiftLeft, beValue, leValue] using toNat_shiftLeft_one b
    | cons b' rest =>
      have hpos : 0 < 256 ^ (rest.length + 1) := by positivity
      have hsplit : 2 * (b.toNat * 256 ^ (rest.length + 1) + beValue (b' :: rest)) =
          2 * beValue (b' :: rest) + 2 * b.toNat * 256 ^ (rest.length + 1) := by ring
      rw [bitShiftLeft, beValue_cons, toNat_shift_carry, ih, length_bitShiftLeft, beValue_cons b,
        List.length_cons, List.length_cons, List.length_cons, pow_succ _ (rest.length + 1),
        Nat.mod_mul, hsplit, Nat.add_mul_mod_self_right, Nat.add_mul_div_right _ _ hpos,
        beValue_cons_carry, Nat.add_comm (b'.toNat / 128)]
      ring

/-- The reduction only touches the last octet. -/
theorem beOctets_xor_octet (k n : ℕ) (r : UInt8) :
    beOctets (k + 1) (n ^^^ r.toNat) =
      (beOctets (k + 1) n).dropLast ++ [(beOctets (k + 1) n).getLastD 0 ^^^ r] := by
  have hdiv : (n ^^^ r.toNat) / 256 = n / 256 := by
    have hr : r.toNat / 2 ^ 8 = 0 := Nat.div_eq_of_lt r.toNat_lt
    have hxor := @Nat.xor_div_two_pow n r.toNat 8
    rwa [hr, Nat.xor_zero] at hxor
  have hhead : UInt8.ofNat (n ^^^ r.toNat) = UInt8.ofNat n ^^^ r := by
    rw [UInt8.ofNat_xor, UInt8.ofNat_toNat]
  simp [beOctets, leOctets, hdiv, hhead]

namespace CmacShape
variable {shape : CmacShape} {encrypt : List UInt8 → List UInt8}

/-- Octets that the pending block has room for are only kept. -/
theorem foldl_absorb_room (x pending octets : List UInt8)
    (h : pending.length + octets.length ≤ shape.width) :
    octets.foldl (shape.absorb encrypt) (x, pending) = (x, pending ++ octets) := by
  induction octets generalizing pending with
  | nil => simp
  | cons octet octets ih =>
    rw [List.length_cons] at h
    have hroom : pending.length ≠ shape.width := by omega
    have hrest : (pending ++ [octet]).length + octets.length ≤ shape.width := by
      rw [List.length_append, List.length_singleton]
      omega
    rw [List.foldl_cons, absorb, if_neg hroom, ih _ hrest, List.append_assoc,
      List.singleton_append]

/-- A whole pending block may be chained as soon as an octet is known to follow. -/
theorem foldl_absorb_full (hwidth : 0 < shape.width) (x : List UInt8) {pending : List UInt8}
    (hfull : pending.length = shape.width) {octets : List UInt8} (hne : octets ≠ []) :
    octets.foldl (shape.absorb encrypt) (x, pending) =
      octets.foldl (shape.absorb encrypt) (encrypt (xorBlock x pending), []) := by
  obtain ⟨octet, octets, rfl⟩ := List.exists_cons_of_ne_nil hne
  have hempty : ([] : List UInt8).length ≠ shape.width := by
    rw [List.length_nil]
    omega
  rw [List.foldl_cons, List.foldl_cons, absorb, absorb, if_pos hfull, if_neg hempty,
    List.nil_append]

/-- A block from the start of the octets, with more behind it, is chained at once. -/
theorem foldl_absorb_block (hwidth : 0 < shape.width) (x : List UInt8) {octets : List UInt8}
    (hlong : shape.width < octets.length) :
    octets.foldl (shape.absorb encrypt) (x, []) =
      (octets.drop shape.width).foldl (shape.absorb encrypt)
        (encrypt (xorBlock x (octets.take shape.width)), []) := by
  have htake : (octets.take shape.width).length = shape.width := by
    rw [List.length_take]
    omega
  have hrest : octets.drop shape.width ≠ [] := by
    rw [Ne, List.drop_eq_nil_iff]
    omega
  have hkeep : (octets.take shape.width).foldl (shape.absorb encrypt) (x, []) =
      (x, octets.take shape.width) := by
    rw [foldl_absorb_room _ _ _ (by rw [List.length_nil]; omega), List.nil_append]
  conv_lhs => rw [← List.take_append_drop shape.width octets, List.foldl_append, hkeep]
  exact foldl_absorb_full hwidth x htake hrest

/-- A turn that fills up the pending block. -/
theorem foldl_absorb_take (x pending octets : List UInt8) (hpending : pending.length ≤ shape.width)
    (taken : ℕ) (htaken : taken = min (shape.width - pending.length) octets.length) :
    octets.foldl (shape.absorb encrypt) (x, pending) =
      (octets.drop taken).foldl (shape.absorb encrypt) (x, pending ++ octets.take taken) := by
  have hroom : pending.length + (octets.take taken).length ≤ shape.width := by
    rw [List.length_take]
    omega
  conv_lhs => rw [← List.take_append_drop taken octets, List.foldl_append,
    foldl_absorb_room _ _ _ hroom]

/-- The loop over a segment takes in its octets one after another. -/
theorem segmentLoop_eq_foldl (hwidth : 0 < shape.width) (turns : ℕ)
    {s : List UInt8 × List UInt8} (hpending : s.2.length ≤ shape.width) {data : List UInt8}
    (hturns : data.length ≤ turns) :
    shape.segmentLoop encrypt turns s data = data.foldl (shape.absorb encrypt) s := by
  induction turns generalizing s data with
  | zero =>
    have hnil : data = [] := List.length_eq_zero_iff.mp (by omega)
    rw [hnil]
    rfl
  | succ turns ih =>
    obtain ⟨x, pending⟩ := s
    have hpending : pending.length ≤ shape.width := hpending
    unfold segmentLoop
    by_cases hnil : data = []
    · rw [if_pos hnil, hnil]
      rfl
    have hpos : 0 < data.length := List.length_pos_iff.mpr hnil
    rw [if_neg hnil]
    by_cases hdirect : pending = [] ∧ shape.width < data.length
    · obtain ⟨rfl, hlong⟩ := hdirect
      rw [if_pos ⟨rfl, hlong⟩, ih (Nat.zero_le _) (by rw [List.length_drop]; omega),
        foldl_absorb_block hwidth x hlong]
    rw [if_neg hdirect]
    -- the block kept back so far is chained first, as an octet follows it
    have hturn : ∀ x pending : List UInt8, pending.length < shape.width →
        shape.segmentLoop encrypt turns
            (x, pending ++ data.take (min (shape.width - pending.length) data.length))
            (data.drop (min (shape.width - pending.length) data.length)) =
          data.foldl (shape.absorb encrypt) (x, pending) := by
      intro x pending hroom
      have hlen : (pending ++ data.take
          (min (shape.width - pending.length) data.length)).length ≤ shape.width := by
        rw [List.length_append, List.length_take]
        omega
      rw [ih hlen (by rw [List.length_drop]; omega), ← foldl_absorb_take _ _ _ hroom.le _ rfl]
    by_cases hfull : pending.length = shape.width
    · rw [if_pos hfull, foldl_absorb_full hwidth x hfull hnil]
      exact hturn _ [] hwidth
    · rw [if_neg hfull]
      exact hturn x pending (by omega)

theorem takeSegment_eq_foldl (hwidth : 0 < shape.width) {s : List UInt8 × List UInt8}
    (hpending : s.2.length ≤ shape.width) (segment : List UInt8) :
    shape.takeSegment encrypt s segment = segment.foldl (shape.absorb encrypt) s :=
  segmentLoop_eq_foldl hwidth segment.length hpending le_rfl

/-- At most one block is kept back. -/
theorem length_pending_le (hwidth : 0 < shape.width) (octets : List UInt8)
    {s : List UInt8 × List UInt8} (hpending : s.2.length ≤ shape.width) :
    (octets.foldl (shape.absorb encrypt) s).2.length ≤ shape.width := by
  induction octets generalizing s with
  | nil => exact hpending
  | cons octet octets ih =>
    rw [List.foldl_cons]
    apply ih
    unfold absorb
    split_ifs with hfull
    · exact hwidth
    · rw [List.length_append, List.length_singleton]
      omega

/-- Segments are taken in as the octets of their concatenation. -/
theorem foldl_takeSegment (hwidth : 0 < shape.width) (segments : List (List UInt8))
    {s : List UInt8 × List UInt8} (hpending : s.2.length ≤ shape.width) :
    segments.foldl (shape.takeSegment encrypt) s =
      segments.flatten.foldl (shape.absorb encrypt) s := by
  induction segments generalizing s with
  | nil => rfl
  | cons segment segments ih =>
    rw [List.foldl_cons, List.flatten_cons, List.foldl_append,
      takeSegment_eq_foldl hwidth hpending, ih (length_pending_le hwidth segment hpending)]

/-- The subkeys of the code are those of the standard. -/
theorem doubled_eq_fieldDouble (block : List UInt8) (hlen : block.length = shape.width)
    (hwidth : 0 < shape.width) : shape.doubled block = shape.fieldDouble block := by
  have hne : block ≠ [] := List.length_pos_iff.mp (hlen ▸ hwidth)
  obtain ⟨b, rest, rfl⟩ := List.exists_cons_of_ne_nil hne
  rw [List.length_cons] at hlen
  have hbits : 2 ^ (8 * shape.width) = 256 ^ (rest.length + 1) := by
    rw [← hlen, pow_mul]
    rfl
  have hshifted : bitShiftLeft (b :: rest) =
      beOctets shape.width (2 * beValue (b :: rest) % 2 ^ (8 * shape.width)) := by
    rw [hbits, ← List.length_cons, ← beValue_bitShiftLeft]
    conv_lhs => rw [← beOctets_beValue (bitShiftLeft (b :: rest))]
    rw [length_bitShiftLeft, List.length_cons, hlen]
  have hhigh : (beValue (b :: rest)).testBit (8 * shape.width - 1) = true ↔ b &&& 0x80 ≠ 0 := by
    have hdiv : beValue (b :: rest) / 2 ^ (8 * shape.width - 1) = b.toNat / 128 := by
      rw [← beValue_cons_carry b rest, ← hbits,
        show 8 * shape.width = 8 * shape.width - 1 + 1 by omega, pow_succ', Nat.add_sub_cancel,
        Nat.mul_div_mul_left _ _ (by decide)]
    have hb : b.toNat < 256 := b.toNat_lt
    rw [Nat.testBit_eq_decide_div_mod_eq, hdiv, decide_eq_true_iff, octet_high_set]
    omega
  unfold doubled fieldDouble
  simp only [List.headD_cons, hhigh, hshifted]
  split_ifs
  · rw [← hlen, beOctets_xor_octet]
  · rfl

/-- One octet after another chains the blocks before the last and keeps the last back. -/
theorem foldl_absorb_eq_forward (hwidth : 0 < shape.width) (blocks : ℕ) (iv : List UInt8)
    {message : List UInt8} (hblocks : blocks = (message.length - 1) / shape.width) :
    message.foldl (shape.absorb encrypt) (iv, []) =
      ((Cbc.forward encrypt shape.width blocks iv message).2,
        message.drop (blocks * shape.width)) := by
  induction blocks generalizing iv message with
  | zero =>
    have hshort : message.length ≤ shape.width := by
      have hlt := (Nat.div_eq_zero_iff.mp hblocks.symm).resolve_left (by omega)
      omega
    rw [foldl_absorb_room _ _ _ (by rw [List.length_nil]; omega), List.nil_append, Nat.zero_mul,
      List.drop_zero]
    rfl
  | succ blocks ih =>
    have hle : (blocks + 1) * shape.width ≤ message.length - 1 := by
      rw [hblocks]
      exact Nat.div_mul_le_self ..
    have hlong : shape.width < message.length := by
      rw [Nat.succ_mul] at hle
      omega
    have hrest : blocks = ((message.drop shape.width).length - 1) / shape.width := by
      have hsub : (message.drop shape.width).length - 1 = message.length - 1 - shape.width := by
        rw [List.length_drop]
        omega
      have hdiv := Nat.div_eq_sub_div hwidth (show shape.width ≤ message.length - 1 by omega)
      rw [hsub]
      omega
    rw [foldl_absorb_block hwidth iv hlong, ih _ hrest, List.drop_drop, xorBlock_comm iv,
      Nat.succ_mul, Nat.add_comm shape.width]
    rfl

/-- The chained blocks do not depend on what lies behind them. -/
theorem forward_append (blocks : ℕ) (iv : List UInt8) {message : List UInt8} (tail : List UInt8)
    (hlen : blocks * shape.width ≤ message.length) :
    Cbc.forward encrypt shape.width blocks iv (message ++ tail) =
      Cbc.forward encrypt shape.width blocks iv message := by
  induction blocks generalizing iv message with
  | zero => rfl
  | succ blocks ih =>
    rw [Nat.succ_mul] at hlen
    have hwidth : shape.width ≤ message.length := by omega
    have hrest : blocks * shape.width ≤ (message.drop shape.width).length := by
      rw [List.length_drop]
      omega
    simp only [Cbc.forward, List.take_append_of_le_length hwidth,
      List.drop_append_of_le_length hwidth, ih _ hrest]

section
variable (hwidth : 0 < shape.width)
  (hencrypt : ∀ b, b.length = shape.width → (encrypt b).length = shape.width)
include hwidth hencrypt

theorem subkeys_eq :
    shape.doubled (encrypt (List.replicate shape.width 0)) =
        shape.fieldDouble (encrypt (List.replicate shape.width 0)) ∧
      shape.doubled (shape.fieldDouble (encrypt (List.replicate shape.width 0))) =
        shape.fieldDouble (shape.fieldDouble (encrypt (List.replicate shape.width 0))) := by
  have hzero : (encrypt (List.replicate shape.width 0)).length = shape.width :=
    hencrypt _ (List.length_replicate ..)
  have hfirst := doubled_eq_fieldDouble _ hzero hwidth
  have hlen := @length_doubled shape (encrypt (List.replicate shape.width 0)) (by omega)
  rw [hfirst] at hlen
  exact ⟨hfirst, doubled_eq_fieldDouble _ (hlen.trans hzero) hwidth⟩

/-- The code over segments, chained from `iv`, is that of the standard over the message they
make up. -/
theorem contextCompute_standard (sizeMax : ℕ) (segments : List (List UInt8)) (iv : List UInt8) :
    shape.contextCompute encrypt sizeMax segments iv .standard =
      if segments.flatten.length + (shape.width - 1) ≤ sizeMax then
        some (shape.standardCmac encrypt iv segments.flatten)
      else none := by
  obtain ⟨hsubkey1, hsubkey2⟩ := subkeys_eq hwidth hencrypt
  have htotal : (segments.map List.length).sum = segments.flatten.length :=
    List.length_flatten.symm
  have hstate := @foldl_takeSegment shape encrypt hwidth segments (iv, []) (Nat.zero_le _)
  unfold contextCompute standardCmac
  rw [hstate, foldl_absorb_eq_forward hwidth _ iv rfl, htotal]
  simp only [hsubkey1, hsubkey2]
  by_cases hfits : segments.flatten.length + (shape.width - 1) ≤ sizeMax
  · rw [if_neg (Nat.not_lt.mpr hfits), if_pos hfits]
    generalize segments.flatten = message
    -- a message of no octets leaves a last block that is not whole
    have hempty : (message.drop ((message.length - 1) / shape.width * shape.width)).length =
        shape.width → message.length ≠ 0 := by
      rw [List.length_drop]
      omega
    by_cases hwhole : (message.drop ((message.length - 1) / shape.width * shape.width)).length =
        shape.width
    · rw [if_pos ⟨hempty hwhole, hwhole⟩, if_pos hwhole]
    · rw [if_neg (fun h => hwhole h.2), if_neg hwhole]
  · rw [if_pos (Nat.not_le.mp hfits), if_neg hfits]

/-- A message padded by the caller has the code of the message itself. -/
theorem contextCompute_prePadded (sizeMax : ℕ) (segments : List (List UInt8))
    (iv message : List UInt8) (hopen : message.length % shape.width ≠ 0)
    (hsegments : segments.flatten = message ++ 0x80 ::
      List.replicate (shape.width - 1 - message.length % shape.width) 0) :
    shape.contextCompute encrypt sizeMax segments iv .prePadded =
      if segments.flatten.length + (shape.width - 1) ≤ sizeMax then
        some (shape.standardCmac encrypt iv message)
      else none := by
  obtain ⟨hsubkey1, hsubkey2⟩ := subkeys_eq hwidth hencrypt
  have htotal : (segments.map List.length).sum = segments.flatten.length :=
    List.length_flatten.symm
  have hstate := @foldl_takeSegment shape encrypt hwidth segments (iv, []) (Nat.zero_le _)
  have hrem := Nat.mod_lt message.length hwidth
  have hsplit := Nat.div_add_mod message.length shape.width
  have hcomm := Nat.mul_comm shape.width (message.length / shape.width)
  have hdiv : ∀ r < shape.width, (shape.width * (message.length / shape.width) + r) /
      shape.width = message.length / shape.width := by
    intro r hr
    rw [Nat.mul_add_div hwidth, Nat.div_eq_of_lt hr, Nat.add_zero]
  have hflat : segments.flatten.length =
      shape.width * (message.length / shape.width) + shape.width := by
    rw [hsegments, List.length_append, List.length_cons, List.length_replicate]
    omega
  have hblocks : message.length / shape.width = (message.length - 1) / shape.width := by
    rw [← hdiv (message.length % shape.width - 1) (by omega)]
    congr 1
    omega
  have hblocks' : message.length / shape.width =
      (segments.flatten.length - 1) / shape.width := by
    rw [hflat, Nat.add_sub_assoc hwidth, hdiv _ (by omega)]
  have hle : message.length / shape.width * shape.width ≤ message.length := by omega
  have hlast : (message.drop (message.length / shape.width * shape.width)).length =
      message.length % shape.width := by
    rw [List.length_drop]
    omega
  have hwhole : (segments.flatten.drop (message.length / shape.width * shape.width)).length =
      shape.width := by
    rw [List.length_drop]
    omega
  have hpositive : ¬(segments.flatten.length = 0 ∨
      (segments.flatten.drop (message.length / shape.width * shape.width)).length ≠
        shape.width) := by omega
  unfold contextCompute standardCmac
  rw [hstate, foldl_absorb_eq_forward hwidth _ iv hblocks', htotal]
  simp only [hsubkey1, hsubkey2, if_neg hpositive, ← hblocks, hlast, if_neg hrem.ne]
  by_cases hfits : segments.flatten.length + (shape.width - 1) ≤ sizeMax
  · rw [if_neg (Nat.not_lt.mpr hfits), if_pos hfits, hsegments,
      forward_append _ _ _ hle, List.drop_append_of_le_length hle]
  · rw [if_pos (Nat.not_le.mp hfits), if_neg hfits]

theorem contextCompute_prePadded_eq_standard (sizeMax : ℕ) (segments : List (List UInt8))
    (iv message : List UInt8) (hopen : message.length % shape.width ≠ 0)
    (hsegments : segments.flatten = message ++ 0x80 ::
      List.replicate (shape.width - 1 - message.length % shape.width) 0) :
    shape.contextCompute encrypt sizeMax segments iv .prePadded =
      if segments.flatten.length + (shape.width - 1) ≤ sizeMax then
        shape.contextCompute encrypt sizeMax [message] iv .standard
      else none := by
  rw [contextCompute_prePadded hwidth hencrypt sizeMax segments iv message hopen hsegments,
    contextCompute_standard hwidth hencrypt, List.flatten_singleton]
  have hshorter : message.length ≤ segments.flatten.length := by
    rw [hsegments, List.length_append]
    exact Nat.le_add_right ..
  by_cases hfits : segments.flatten.length + (shape.width - 1) ≤ sizeMax
  · rw [if_pos hfits, if_pos hfits, if_pos (by omega)]
  · rw [if_neg hfits, if_neg hfits]

/-- Taken in one octet after another, as `aes_cmac_segments_with_iv` and
`des_cmac_segments_with_iv` are modelled, the code is the same. -/
theorem cmacWithIv_eq_standardCmac (iv message : List UInt8) :
    shape.cmacWithIv encrypt iv message = shape.standardCmac encrypt iv message := by
  obtain ⟨hsubkey1, hsubkey2⟩ := subkeys_eq hwidth hencrypt
  unfold cmacWithIv lastBlock standardCmac
  rw [foldl_absorb_eq_forward hwidth _ iv rfl]
  simp only [hsubkey1, hsubkey2]

end

end CmacShape

/-- The one-pass code of `aes_cmac` and the code over one segment from zero are the same. -/
theorem dfcAesCmacContextCompute_eq_aesCmac (aes : BlockCipher 16) (key message : List UInt8)
    (sizeMax : ℕ) :
    dfcAesCmacContextCompute aes key sizeMax [message] zeroBlock .standard =
      if message.length + 15 ≤ sizeMax then some (aesCmac aes.encrypt key message) else none := by
  have hwidth : 0 < aesCmacShape.width := by decide
  have hchain : ∀ (octets : List UInt8) (s : Chain),
      ((octets.foldl (Chain.absorb (aes.encrypt key)) s).value,
        (octets.foldl (Chain.absorb (aes.encrypt key)) s).rest) =
        octets.foldl (aesCmacShape.absorb (aes.encrypt key)) (s.value, s.rest) := by
    intro octets
    induction octets with
    | nil => exact fun s => rfl
    | cons octet octets ih =>
      intro s
      rw [List.foldl_cons, List.foldl_cons, ih]
      congr 1
      unfold Chain.absorb CmacShape.absorb
      split_ifs with hfull hfull' hfull'
      · rfl
      · exact absurd hfull hfull'
      · exact absurd hfull' hfull
      · rfl
  have hcmac : aesCmacShape.cmacWithIv (aes.encrypt key) zeroBlock message =
      aesCmac aes.encrypt key message := by
    unfold CmacShape.cmacWithIv aesCmac cmac
    rw [← hchain message {}]
    rfl
  have hstandard := CmacShape.contextCompute_standard hwidth (aes.length_encrypt key) sizeMax
    [message] zeroBlock
  rw [← CmacShape.cmacWithIv_eq_standardCmac hwidth (aes.length_encrypt key),
    List.flatten_singleton, hcmac] at hstandard
  exact hstandard

/-- For every permutation, initial value and list of segments, the code in standard mode is that
of the standard over the concatenation, for AES and for DES; in pre-padded mode, a message that
does not end with a block and is followed by its padding has the code of the message alone.
Only lengths that do not fit a size are refused. -/
theorem segmentedCmac_is_standard (aes : BlockCipher 16) (des : BlockCipher 8)
    (key iv : List UInt8) (sizeMax : ℕ) (segments : List (List UInt8)) :
    (dfcAesCmacContextCompute aes key sizeMax segments iv .standard =
      if segments.flatten.length + 15 ≤ sizeMax then
        some (aesCmacShape.standardCmac (aes.encrypt key) iv segments.flatten)
      else none) ∧
    (dfcDesCmacContextCompute des key sizeMax segments iv .standard =
      if segments.flatten.length + 7 ≤ sizeMax then
        some (desCmacShape.standardCmac (des.encrypt key) iv segments.flatten)
      else none) ∧
    (∀ message : List UInt8, message.length % 16 ≠ 0 →
      segments.flatten = message ++ 0x80 :: List.replicate (15 - message.length % 16) 0 →
      dfcAesCmacContextCompute aes key sizeMax segments iv .prePadded =
        if segments.flatten.length + 15 ≤ sizeMax then
          dfcAesCmacContextCompute aes key sizeMax [message] iv .standard
        else none) ∧
    (∀ message : List UInt8, message.length % 8 ≠ 0 →
      segments.flatten = message ++ 0x80 :: List.replicate (7 - message.length % 8) 0 →
      dfcDesCmacContextCompute des key sizeMax segments iv .prePadded =
        if segments.flatten.length + 7 ≤ sizeMax then
          dfcDesCmacContextCompute des key sizeMax [message] iv .standard
        else none) := by
  have haes : 0 < aesCmacShape.width := by decide
  have hdes : 0 < desCmacShape.width := by decide
  refine ⟨?_, ?_, ?_, ?_⟩
  · exact CmacShape.contextCompute_standard haes (aes.length_encrypt key) sizeMax segments iv
  · exact CmacShape.contextCompute_standard hdes (des.length_encrypt key) sizeMax segments iv
  · intro message hopen hsegments
    exact CmacShape.contextCompute_prePadded_eq_standard haes (aes.length_encrypt key) sizeMax
      segments iv message hopen hsegments
  · intro message hopen hsegments
    exact CmacShape.contextCompute_prePadded_eq_standard hdes (des.length_encrypt key) sizeMax
      segments iv message hopen hsegments

/-- Three octets padded by the caller and cut in two inside the padding. -/
theorem segmentedCmac_is_standard_threeOctets :
    dfcDesCmacContextCompute (identityCipher 8) [] 64 [[1, 2, 3, 0x80], [], [0, 0, 0, 0]]
        (List.replicate 8 0) .prePadded =
      dfcDesCmacContextCompute (identityCipher 8) [] 64 [[1, 2, 3]] (List.replicate 8 0)
        .standard := by
  have hpadded := (segmentedCmac_is_standard (identityCipher 16) (identityCipher 8) []
    (List.replicate 8 0) 64 [[1, 2, 3, 0x80], [], [0, 0, 0, 0]]).2.2.2 [1, 2, 3] (by decide)
    (by decide)
  rwa [if_pos (by decide)] at hpadded

end DfcCore
