import DfcCore.BlockCipher
import DfcCore.Memory

/-!
# AES-128

The block cipher of FIPS 197 with a 128-bit key. A block and a round key are sixteen octets,
column after column. Decryption runs the rounds backwards: mixing a column four times and
shifting the rows four times change nothing, so three times undo once.
-/
namespace DfcCore.Aes

/-- The substitution box in sixteen rows, entry `16 * r + k` at bit `8 * k` of row `r`. -/
def sbox : List ℕ :=
  [0x76abd7fe2b670130c56f6bf27b777c63, 0xc072a49cafa2d4adf04759fa7dc982ca,
    0x1531d871f1e5a534ccf73f362693fdb7, 0x75b227ebe28012079a059618c323c704,
    0x842fe329b3d63b52a05a6e1b1a2c8309, 0xcf584c4a39becb6a5bb1fc20ed00d153,
    0xa89f3c507f02f94585334d43fbaaefd0, 0xd2f3ff1021dab6bcf5389d928f40a351,
    0x73195d643d7ea7c41744975fec130ccd, 0xdb0b5ede14b8ee4688902a22dc4f8160,
    0x79e4959162acd3c25c2406490a3a32e0, 0x08ae7a65eaf4566ca94ed58d6d37c8e7,
    0x8a8bbd4b1f74dde8c6b4a61c2e2578ba, 0x9e1dc186b95735610ef6034866b53e70,
    0xdf2855cee9871e9b948ed9691198f8e1, 0x16bb54b00f2d99416842e6bf0d89a18c]

/-- The entry of an octet in a box of this layout. -/
def boxEntry (box : List ℕ) (b : UInt8) : UInt8 :=
  UInt8.ofNat (box.getD (b.toNat / 16) 0 >>> (8 * (b.toNat % 16)))

def subOctet (b : UInt8) : UInt8 := boxEntry sbox b

/-- Multiplication by `x` in the field of 256 elements. -/
def xtime (b : UInt8) : UInt8 := (b <<< 1) ^^^ (if b < 0x80 then 0 else 0x1B)

def shiftRows (s : List UInt8) : List UInt8 :=
  (List.range 16).map fun i => s.getD ((i + 4 * (i % 4)) % 16) 0

def mixColumn (a b c d : UInt8) : List UInt8 :=
  let all := a ^^^ b ^^^ c ^^^ d
  [a ^^^ all ^^^ xtime (a ^^^ b), b ^^^ all ^^^ xtime (b ^^^ c), c ^^^ all ^^^ xtime (c ^^^ d),
    d ^^^ all ^^^ xtime (d ^^^ a)]

def mixColumns : List UInt8 → List UInt8
  | a :: b :: c :: d :: rest => mixColumn a b c d ++ mixColumns rest
  | _ => []

def xor (s t : List UInt8) : List UInt8 := List.zipWith (· ^^^ ·) s t

/-- The round key that follows one. -/
def nextKey (constant : UInt8) (key : List UInt8) : List UInt8 :=
  let word (i : ℕ) := (key.drop (4 * i)).take 4
  let rotated := (word 3).drop 1 ++ (word 3).take 1
  let w₀ := xor (xor (word 0) (rotated.map subOctet)) [constant, 0, 0, 0]
  let w₁ := xor (word 1) w₀
  let w₂ := xor (word 2) w₁
  w₀ ++ w₁ ++ w₂ ++ xor (word 3) w₂

/-- The rounds of the constants given, the last of which mixes no columns. -/
def rounds : List UInt8 → List UInt8 → List UInt8 → List UInt8
  | [], _, s => s
  | constant :: constants, key, s =>
    let key := nextKey constant key
    let shifted := shiftRows (s.map subOctet)
    rounds constants key (xor (if constants = [] then shifted else mixColumns shifted) key)

def encrypt (key block : List UInt8) : List UInt8 :=
  rounds [0x01, 0x02, 0x04, 0x08, 0x10, 0x20, 0x40, 0x80, 0x1B, 0x36] key (xor block key)

/-- The example vector of the standard. -/
example : encrypt [0x00, 0x01, 0x02, 0x03, 0x04, 0x05, 0x06, 0x07, 0x08, 0x09, 0x0A, 0x0B, 0x0C,
      0x0D, 0x0E, 0x0F]
    [0x00, 0x11, 0x22, 0x33, 0x44, 0x55, 0x66, 0x77, 0x88, 0x99, 0xAA, 0xBB, 0xCC, 0xDD, 0xEE,
      0xFF] =
    [0x69, 0xC4, 0xE0, 0xD8, 0x6A, 0x7B, 0x04, 0x30, 0xD8, 0xCD, 0xB7, 0x80, 0x70, 0xB4, 0xC5,
      0x5A] := by
  decide +kernel

/-- The inverse of the substitution box, in the same layout. -/
def unsbox : List ℕ :=
  [0xfbd7f3819ea340bf38a53630d56a0952, 0xcbe9dec444438e3487ff2f9b8239e37c,
    0x4ec3fa420b954cee3d23c2a632947b54, 0x25d18b6d49a25b76b224d92866a12e08,
    0x92b6655dcc5ca4d41698688664f6f872, 0x849d8da75746155edab9edfd5048706c,
    0x0645b3b80558e4f70ad3bc8c00abd890, 0x6b8a130103bdafc1020f3fca8f1e2cd0,
    0x73e6b4f0cecff297eadc674f4111913a, 0x6edf751ce837f9e28535ade72274ac96,
    0x1bbe18aa0e62b76f89c5291d711af147, 0xf45acd78fec0db9a2079d2c64b3e56fc,
    0x5fec8027591012b131c7078833a8dd1f, 0xef9cc9939f7ae52d0d4ab519a97f5160,
    0x619953833cbbebc8b0f52aae4d3be0a0, 0x7d0c2155631469e126d677ba7e042b17]

def unsubOctet (b : UInt8) : UInt8 := boxEntry unsbox b

def unshiftRows (s : List UInt8) : List UInt8 := shiftRows (shiftRows (shiftRows s))

def unmixColumns (s : List UInt8) : List UInt8 := mixColumns (mixColumns (mixColumns s))

/-- Undoes the rounds of the constants given. -/
def unrounds : List UInt8 → List UInt8 → List UInt8 → List UInt8
  | [], _, s => s
  | constant :: constants, key, s =>
    let key := nextKey constant key
    let keyed := xor (unrounds constants key s) key
    (unshiftRows (if constants = [] then keyed else unmixColumns keyed)).map unsubOctet

def decrypt (key block : List UInt8) : List UInt8 :=
  xor (unrounds [0x01, 0x02, 0x04, 0x08, 0x10, 0x20, 0x40, 0x80, 0x1B, 0x36] key block) key

theorem unsubOctet_subOctet (b : UInt8) : unsubOctet (subOctet b) = b := by
  revert b
  exact forall_octet (by decide +kernel)

theorem subOctet_unsubOctet (b : UInt8) : subOctet (unsubOctet b) = b := by
  revert b
  exact forall_octet (by decide +kernel)

theorem lt_half_iff (a : UInt8) : a < 0x80 ↔ a.toBitVec.msb = false := by
  rw [BitVec.msb_eq_false_iff_two_mul_lt, UInt8.lt_iff_toNat_lt]
  change a.toNat < 128 ↔ 2 * a.toNat < 256
  omega

/-- Whether an octet is carried out of by doubling is linear, and so is doubling. -/
theorem xtime_xor (a b : UInt8) : xtime (a ^^^ b) = xtime a ^^^ xtime b := by
  have hshift : (a ^^^ b) <<< 1 = (a <<< 1) ^^^ (b <<< 1) := by
    simp [UInt8.shiftLeft_xor]
  have hmsb : a ^^^ b < 0x80 ↔ (a < 0x80 ↔ b < 0x80) := by
    rw [lt_half_iff, lt_half_iff, lt_half_iff, UInt8.toBitVec_xor, BitVec.msb_xor]
    cases a.toBitVec.msb <;> cases b.toBitVec.msb <;> simp
  unfold xtime
  rw [hshift]
  by_cases ha : a < 0x80
  · by_cases hb : b < 0x80
    · simp [ha, hb, hmsb]
    · simp only [ha, hb, hmsb, iff_false, not_true_eq_false, if_true, if_false]
      ac_rfl
  · by_cases hb : b < 0x80
    · simp only [ha, hb, hmsb, iff_true, if_true, if_false]
      ac_rfl
    · simp only [ha, hb, hmsb, if_true, if_false]
      have hzero : (0 : UInt8) = 0x1B ^^^ 0x1B := by decide
      rw [hzero]
      ac_rfl

/-- The sum of a mixed column is the sum of the column. -/
theorem xor_mixed (a b c d t p q r s : UInt8) :
    (a ^^^ t ^^^ p) ^^^ (b ^^^ t ^^^ q) ^^^ (c ^^^ t ^^^ r) ^^^ (d ^^^ t ^^^ s) =
      (a ^^^ b ^^^ c ^^^ d) ^^^ (p ^^^ q ^^^ r ^^^ s) := by
  calc (a ^^^ t ^^^ p) ^^^ (b ^^^ t ^^^ q) ^^^ (c ^^^ t ^^^ r) ^^^ (d ^^^ t ^^^ s)
      = (a ^^^ b ^^^ c ^^^ d) ^^^ (p ^^^ q ^^^ r ^^^ s) ^^^ (t ^^^ t) ^^^ (t ^^^ t) := by ac_rfl
    _ = (a ^^^ b ^^^ c ^^^ d) ^^^ (p ^^^ q ^^^ r ^^^ s) := by simp

/-- Going round the column, the differences of neighbours cancel. -/
theorem xtime_round (a b c d : UInt8) :
    xtime (a ^^^ b) ^^^ xtime (b ^^^ c) ^^^ xtime (c ^^^ d) ^^^ xtime (d ^^^ a) = 0 := by
  have hround : (a ^^^ b) ^^^ (b ^^^ c) ^^^ (c ^^^ d) ^^^ (d ^^^ a) =
      (a ^^^ a) ^^^ (b ^^^ b) ^^^ (c ^^^ c) ^^^ (d ^^^ d) := by ac_rfl
  simp only [← xtime_xor, hround, UInt8.xor_self]
  decide

/-- One octet of a column mixed twice: `t` is the sum of the column, `p` and `q` what its
neighbours add. -/
theorem xor_mixed_twice (a b c t : UInt8) :
    let p := xtime (a ^^^ b)
    let q := xtime (b ^^^ c)
    (a ^^^ t ^^^ p) ^^^ t ^^^ xtime ((a ^^^ t ^^^ p) ^^^ (b ^^^ t ^^^ q)) =
      a ^^^ xtime (xtime (a ^^^ c)) := by
  intro p q
  have hsum : (a ^^^ t ^^^ p) ^^^ (b ^^^ t ^^^ q) = (a ^^^ b) ^^^ (p ^^^ q) := by
    calc (a ^^^ t ^^^ p) ^^^ (b ^^^ t ^^^ q) = (a ^^^ b) ^^^ (p ^^^ q) ^^^ (t ^^^ t) := by ac_rfl
      _ = (a ^^^ b) ^^^ (p ^^^ q) := by simp
  have hneighbours : (a ^^^ b) ^^^ (b ^^^ c) = a ^^^ c := by
    calc (a ^^^ b) ^^^ (b ^^^ c) = (a ^^^ c) ^^^ (b ^^^ b) := by ac_rfl
      _ = a ^^^ c := by simp
  have hpq : p ^^^ q = xtime (a ^^^ c) := by rw [← xtime_xor, hneighbours]
  rw [hsum, xtime_xor, hpq]
  calc (a ^^^ t ^^^ p) ^^^ t ^^^ (p ^^^ xtime (xtime (a ^^^ c)))
      = a ^^^ xtime (xtime (a ^^^ c)) ^^^ (t ^^^ t) ^^^ (p ^^^ p) := by ac_rfl
    _ = a ^^^ xtime (xtime (a ^^^ c)) := by simp

/-- Mixing twice keeps the odd and the even rows apart. -/
theorem mixColumns_twice (a b c d : UInt8) (rest : List UInt8) :
    mixColumns (mixColumns (a :: b :: c :: d :: rest)) =
      (a ^^^ xtime (xtime (a ^^^ c))) :: (b ^^^ xtime (xtime (b ^^^ d))) ::
        (c ^^^ xtime (xtime (c ^^^ a))) :: (d ^^^ xtime (xtime (d ^^^ b))) ::
          mixColumns (mixColumns rest) := by
  simp only [mixColumns, mixColumn, List.cons_append, List.nil_append]
  rw [xor_mixed, xtime_round, UInt8.xor_zero]
  simp only [xor_mixed_twice]

/-- Induction column by column. -/
theorem columns_induction {motive : List UInt8 → Prop} (nil : motive [])
    (column : ∀ a b c d rest, motive rest → motive (a :: b :: c :: d :: rest)) (n : ℕ)
    {s : List UInt8} (h : s.length = 4 * n) : motive s := by
  induction n generalizing s with
  | zero =>
    rw [List.length_eq_zero_iff.mp h]
    exact nil
  | succ n ih =>
    match s, h with
    | a :: b :: c :: d :: rest, h =>
      refine column a b c d rest (ih ?_)
      simp only [List.length_cons] at h
      omega

theorem mixColumns_four (n : ℕ) {s : List UInt8} (h : s.length = 4 * n) :
    mixColumns (mixColumns (mixColumns (mixColumns s))) = s := by
  have hpair (a c : UInt8) :
      (a ^^^ xtime (xtime (a ^^^ c))) ^^^ (c ^^^ xtime (xtime (c ^^^ a))) = a ^^^ c := by
    rw [UInt8.xor_comm c a]
    calc (a ^^^ xtime (xtime (a ^^^ c))) ^^^ (c ^^^ xtime (xtime (a ^^^ c)))
        = (a ^^^ c) ^^^ (xtime (xtime (a ^^^ c)) ^^^ xtime (xtime (a ^^^ c))) := by ac_rfl
      _ = a ^^^ c := by simp
  have hundo (a c : UInt8) :
      (a ^^^ xtime (xtime (a ^^^ c))) ^^^
        xtime (xtime ((a ^^^ xtime (xtime (a ^^^ c))) ^^^ (c ^^^ xtime (xtime (c ^^^ a))))) =
        a := by
    rw [hpair, UInt8.xor_assoc, UInt8.xor_self, UInt8.xor_zero]
  refine columns_induction
    (motive := fun s => mixColumns (mixColumns (mixColumns (mixColumns s))) = s) rfl ?_ n h
  intro a b c d rest hrest
  rw [mixColumns_twice, mixColumns_twice, hrest, hundo, hundo, hundo, hundo]

theorem length_mixColumns (n : ℕ) {s : List UInt8} (h : s.length = 4 * n) :
    (mixColumns s).length = s.length := by
  refine columns_induction (motive := fun s => (mixColumns s).length = s.length) rfl ?_ n h
  intro a b c d rest hrest
  simp [mixColumns, mixColumn, hrest]

theorem length_shiftRows (s : List UInt8) : (shiftRows s).length = 16 := by simp [shiftRows]

theorem shiftRows_four {s : List UInt8} (h : s.length = 16) :
    shiftRows (shiftRows (shiftRows (shiftRows s))) = s := by
  apply List.ext_getElem
  · rw [length_shiftRows, h]
  intro i hi hi'
  have h16 : i < 16 := h ▸ hi'
  have hlt (j : ℕ) : (j + 4 * (j % 4)) % 16 < 16 := Nat.mod_lt _ (by decide)
  have hindex : ∀ j : Fin 16, (fun j => (j + 4 * (j % 4)) % 16)^[4] j.val = j.val := by decide
  simp only [shiftRows, List.getElem_map, List.getElem_range, List.getD_eq_getElem?_getD,
    List.getElem?_map, List.getElem?_range (hlt _), Option.map_some, Option.getD_some]
  have hi4 := hindex ⟨i, h16⟩
  simp only [Function.iterate_succ, Function.iterate_zero, Function.comp, id] at hi4
  rw [hi4, List.getElem?_eq_getElem hi', Option.getD_some]

/-- A block after one round, before the key is added. -/
def roundBody (last : Bool) (s : List UInt8) : List UInt8 :=
  let shifted := shiftRows (s.map subOctet)
  if last then shifted else mixColumns shifted

def unroundBody (last : Bool) (s : List UInt8) : List UInt8 :=
  (unshiftRows (if last then s else unmixColumns s)).map unsubOctet

theorem length_roundBody (last : Bool) (s : List UInt8) : (roundBody last s).length = 16 := by
  unfold roundBody
  cases last with
  | true => exact length_shiftRows _
  | false =>
    have hlen := length_shiftRows (s.map subOctet)
    exact (length_mixColumns 4 (by rw [hlen])).trans hlen

theorem length_unroundBody (last : Bool) (s : List UInt8) : (unroundBody last s).length = 16 := by
  rw [unroundBody, List.length_map, unshiftRows, length_shiftRows]

theorem unroundBody_roundBody (last : Bool) {s : List UInt8} (h : s.length = 16) :
    unroundBody last (roundBody last s) = s := by
  have hmap : (s.map subOctet).length = 16 := by rw [List.length_map, h]
  have hlen := length_shiftRows (s.map subOctet)
  have hmix : (if last then roundBody last s else unmixColumns (roundBody last s)) =
      shiftRows (s.map subOctet) := by
    cases last with
    | true => rfl
    | false => exact mixColumns_four 4 (by rw [hlen])
  rw [unroundBody, hmix, unshiftRows, shiftRows_four hmap, List.map_map]
  simp [Function.comp_def, unsubOctet_subOctet]

theorem roundBody_unroundBody (last : Bool) {s : List UInt8} (h : s.length = 16) :
    roundBody last (unroundBody last s) = s := by
  have hsub (t : List UInt8) : (t.map unsubOctet).map subOctet = t := by
    simp [Function.comp_def, subOctet_unsubOctet]
  have hmix : (unmixColumns s).length = 16 := by
    have h₁ := length_mixColumns 4 (s := s) (by rw [h])
    have h₂ := length_mixColumns 4 (s := mixColumns s) (by omega)
    have h₃ := length_mixColumns 4 (s := mixColumns (mixColumns s)) (by omega)
    exact h₃.trans (h₂.trans (h₁.trans h))
  cases last with
  | true =>
    simp only [roundBody, unroundBody, if_true]
    rw [hsub]
    exact shiftRows_four h
  | false =>
    simp only [roundBody, unroundBody, Bool.false_eq_true, if_false]
    rw [hsub]
    change mixColumns (shiftRows (shiftRows (shiftRows (shiftRows (unmixColumns s))))) = s
    rw [shiftRows_four hmix]
    exact mixColumns_four 4 (by rw [h])

theorem xor_xor_self {s t : List UInt8} (h : s.length = t.length) : xor (xor s t) t = s :=
  xorBlock_self_right h

theorem length_xor {s t : List UInt8} (hs : s.length = 16) (ht : t.length = 16) :
    (xor s t).length = 16 := by
  simp [xor, hs, ht]

theorem length_nextKey (constant : UInt8) {key : List UInt8} (h : key.length = 16) :
    (nextKey constant key).length = 16 := by
  simp [nextKey, xor, h]

theorem rounds_cons (constant : UInt8) (constants key s : List UInt8) :
    rounds (constant :: constants) key s = rounds constants (nextKey constant key)
      (xor (roundBody (constants.isEmpty) s) (nextKey constant key)) := by
  cases constants <;> rfl

theorem unrounds_cons (constant : UInt8) (constants key s : List UInt8) :
    unrounds (constant :: constants) key s = unroundBody constants.isEmpty
      (xor (unrounds constants (nextKey constant key) s) (nextKey constant key)) := by
  cases constants <;> rfl

theorem length_rounds (constants : List UInt8) {key s : List UInt8} (hkey : key.length = 16)
    (hs : s.length = 16) : (rounds constants key s).length = 16 := by
  induction constants generalizing key s with
  | nil => exact hs
  | cons constant constants ih =>
    have hnext := length_nextKey constant hkey
    rw [rounds_cons]
    exact ih hnext (length_xor (length_roundBody _ _) hnext)

theorem length_unrounds (constants : List UInt8) {key s : List UInt8} (hs : s.length = 16) :
    (unrounds constants key s).length = 16 := by
  cases constants with
  | nil => exact hs
  | cons constant constants => rw [unrounds_cons, length_unroundBody]

theorem unrounds_rounds (constants : List UInt8) {key s : List UInt8} (hkey : key.length = 16)
    (hs : s.length = 16) : unrounds constants key (rounds constants key s) = s := by
  induction constants generalizing key s with
  | nil => rfl
  | cons constant constants ih =>
    have hnext := length_nextKey constant hkey
    have hbody := length_roundBody constants.isEmpty s
    rw [rounds_cons, unrounds_cons, ih hnext (length_xor hbody hnext), xor_xor_self (by omega),
      unroundBody_roundBody _ hs]

theorem rounds_unrounds (constants : List UInt8) {key s : List UInt8} (hkey : key.length = 16)
    (hs : s.length = 16) : rounds constants key (unrounds constants key s) = s := by
  induction constants generalizing key s with
  | nil => rfl
  | cons constant constants ih =>
    have hnext := length_nextKey constant hkey
    have hrest : (unrounds constants (nextKey constant key) s).length = 16 :=
      length_unrounds constants hs
    rw [unrounds_cons, rounds_cons, roundBody_unroundBody _ (length_xor hrest hnext),
      xor_xor_self (by omega), ih hnext hs]

/-- The cipher for keys of sixteen octets; a string of another length is no key. -/
def aesCipher : BlockCipher 16 where
  encrypt key block := if key.length = 16 then encrypt key block else block
  decrypt key block := if key.length = 16 then decrypt key block else block
  length_encrypt key block h := by
    split_ifs with hkey
    · exact length_rounds _ hkey (length_xor h hkey)
    · exact h
  length_decrypt key block h := by
    split_ifs with hkey
    · exact length_xor (length_unrounds _ h) hkey
    · exact h
  decrypt_encrypt key block h := by
    split_ifs with hkey
    · rw [decrypt, encrypt, unrounds_rounds _ hkey (length_xor h hkey), xor_xor_self (by omega)]
    · rfl
  encrypt_decrypt key block h := by
    split_ifs with hkey
    · have hlen : (unrounds [0x01, 0x02, 0x04, 0x08, 0x10, 0x20, 0x40, 0x80, 0x1B, 0x36] key
          block).length = 16 := length_unrounds _ h
      rw [decrypt, encrypt, xor_xor_self (by omega), rounds_unrounds _ hkey h]
    · rfl

end DfcCore.Aes
