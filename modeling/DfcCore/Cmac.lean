import Mathlib.Data.List.Basic
import Mathlib.Data.Nat.Notation

/-!
# Message authentication by a block cipher

CMAC over blocks of sixteen octets, computed in one pass over the message, and an
accumulator that takes a message piece by piece and keeps the last whole block back until
it is known not to be the final one. The block cipher is an arbitrary function on octet
strings. On messages of whole blocks both compute the same code.
-/
namespace DfcCore.Cmac

/-- Octets of one block. -/
abbrev blockSize : ℕ := 16

abbrev zeroBlock : List UInt8 := List.replicate blockSize 0

/-- Octet-wise exclusive or. -/
def xorBlock (a b : List UInt8) : List UInt8 := List.zipWith (· ^^^ ·) a b

theorem xorBlock_assoc (a b c : List UInt8) :
    xorBlock (xorBlock a b) c = xorBlock a (xorBlock b c) := by
  induction a generalizing b c with
  | nil => simp [xorBlock]
  | cons x a ih =>
    cases b with
    | nil => simp [xorBlock]
    | cons y b =>
      cases c with
      | nil => simp [xorBlock]
      | cons z c => simpa [xorBlock, UInt8.xor_assoc] using ih b c

/-- One bit to the left over the whole string, the first octet leading. -/
def bitShiftLeft : List UInt8 → List UInt8
  | [] => []
  | [b] => [b <<< 1]
  | b :: b' :: rest =>
    (if b' &&& 0x80 ≠ 0 then (b <<< 1) + 1 else b <<< 1) :: bitShiftLeft (b' :: rest)

/-- Doubling in the field of the cipher's blocks. -/
def double (block : List UInt8) : List UInt8 :=
  let shifted := bitShiftLeft block
  if block.headD 0 &&& 0x80 ≠ 0 then
    shifted.dropLast ++ [shifted.getLastD 0 ^^^ 0x87]
  else shifted

section
variable (encrypt : List UInt8 → List UInt8)

def subkey1 : List UInt8 := double (encrypt zeroBlock)

def subkey2 : List UInt8 := double (subkey1 encrypt)

/-- The chaining value and the octets not yet chained. -/
structure Chain where
  value : List UInt8 := zeroBlock
  rest : List UInt8 := []
  deriving Repr, DecidableEq

/-- A full block is chained only when an octet follows it. -/
def Chain.absorb (s : Chain) (octet : UInt8) : Chain :=
  if s.rest.length = blockSize then ⟨encrypt (xorBlock s.value s.rest), [octet]⟩
  else { s with rest := s.rest ++ [octet] }

/-- The last block under its subkey: padded, unless it is whole. -/
def finalBlock (rest : List UInt8) : List UInt8 :=
  if rest.length = blockSize then xorBlock rest (subkey1 encrypt)
  else
    xorBlock (rest ++ 0x80 :: List.replicate (blockSize - 1 - rest.length) 0) (subkey2 encrypt)

def cmac (message : List UInt8) : List UInt8 :=
  let s := message.foldl (Chain.absorb encrypt) {}
  encrypt (xorBlock s.value (finalBlock encrypt s.rest))

/-- A message taken in so far: the chaining value and the last whole block. -/
structure Accumulator where
  chain : List UInt8 := zeroBlock
  pending : Option (List UInt8) := none
  deriving Repr, DecidableEq

def Accumulator.pushBlock (a : Accumulator) (block : List UInt8) : Accumulator :=
  match a.pending with
  | none => { a with pending := some block }
  | some pending => ⟨encrypt (xorBlock a.chain pending), some block⟩

/-- Gathers octets into blocks. -/
def Accumulator.push (s : Accumulator × List UInt8) (octet : UInt8) : Accumulator × List UInt8 :=
  if (s.2 ++ [octet]).length = blockSize then (s.1.pushBlock encrypt (s.2 ++ [octet]), [])
  else (s.1, s.2 ++ [octet])

/-- Takes in a piece, with the octets of a block that it leaves open. -/
def Accumulator.add (a : Accumulator) (octets : List UInt8) : Accumulator × List UInt8 :=
  octets.foldl (Accumulator.push encrypt) (a, [])

def Accumulator.finalize (a : Accumulator) : Option (List UInt8) :=
  a.pending.map fun pending =>
    encrypt (xorBlock (xorBlock a.chain pending) (subkey1 encrypt))

/-- The one pass over a message, as the accumulator and the open block see it. -/
def Accumulator.toChain (s : Accumulator × List UInt8) : Chain :=
  match s.1.pending with
  | none => ⟨s.1.chain, s.2⟩
  | some pending =>
    if s.2 = [] then ⟨s.1.chain, pending⟩ else ⟨encrypt (xorBlock s.1.chain pending), s.2⟩

/-- What holds between two octets: a block held back is whole, an open one is not. -/
structure Accumulator.Open (s : Accumulator × List UInt8) : Prop where
  whole : ∀ pending ∈ s.1.pending, pending.length = blockSize
  short : s.2.length < blockSize

theorem Accumulator.push_of_full {s : Accumulator × List UInt8} {octet : UInt8}
    (h : s.2.length + 1 = blockSize) :
    Accumulator.push encrypt s octet = (s.1.pushBlock encrypt (s.2 ++ [octet]), []) := by
  rw [Accumulator.push, if_pos (by simpa using h)]

theorem Accumulator.push_of_short {s : Accumulator × List UInt8} {octet : UInt8}
    (h : s.2.length + 1 ≠ blockSize) :
    Accumulator.push encrypt s octet = (s.1, s.2 ++ [octet]) := by
  rw [Accumulator.push, if_neg (by simpa using h)]

theorem Accumulator.Open.push {s : Accumulator × List UInt8} (h : Accumulator.Open s)
    (octet : UInt8) : Accumulator.Open (Accumulator.push encrypt s octet) := by
  have hshort := h.short
  by_cases hfull : s.2.length + 1 = blockSize
  · rw [Accumulator.push_of_full encrypt hfull]
    refine ⟨?_, Nat.zero_lt_succ _⟩
    intro pending hp
    have hlen : (s.2 ++ [octet]).length = blockSize := by simpa using hfull
    unfold Accumulator.pushBlock at hp
    split at hp
    · exact Option.some.inj hp ▸ hlen
    · exact Option.some.inj hp ▸ hlen
  · rw [Accumulator.push_of_short encrypt hfull]
    refine ⟨h.whole, ?_⟩
    rw [List.length_append, List.length_singleton]
    omega

theorem Accumulator.toChain_push {s : Accumulator × List UInt8} (h : Accumulator.Open s)
    (octet : UInt8) : Accumulator.toChain encrypt (Accumulator.push encrypt s octet) =
      (Accumulator.toChain encrypt s).absorb encrypt octet := by
  obtain ⟨⟨chain, pending⟩, block⟩ := s
  have hne : block.length ≠ blockSize := Nat.ne_of_lt h.short
  cases pending with
  | none =>
    by_cases hfull : block.length + 1 = blockSize
    · rw [Accumulator.push_of_full encrypt hfull]
      simp [Accumulator.toChain, Accumulator.pushBlock, Chain.absorb, hne]
    · rw [Accumulator.push_of_short encrypt hfull]
      simp [Accumulator.toChain, Chain.absorb, hne]
  | some pending =>
    have hwhole : pending.length = blockSize := h.whole pending rfl
    by_cases hblock : block = []
    · subst hblock
      have hopen : ([] : List UInt8).length + 1 ≠ blockSize := by decide
      rw [Accumulator.push_of_short encrypt hopen]
      simp [Accumulator.toChain, Chain.absorb, hwhole]
    · by_cases hfull : block.length + 1 = blockSize
      · rw [Accumulator.push_of_full encrypt hfull]
        simp [Accumulator.toChain, Accumulator.pushBlock, Chain.absorb, hne, hblock]
      · rw [Accumulator.push_of_short encrypt hfull]
        simp [Accumulator.toChain, Chain.absorb, hne, hblock]

/-- The octets taken in since the start drive the one pass. -/
theorem Accumulator.toChain_foldl (octets : List UInt8) {s : Accumulator × List UInt8}
    (h : Accumulator.Open s) :
    Accumulator.Open (octets.foldl (Accumulator.push encrypt) s) ∧
      Accumulator.toChain encrypt (octets.foldl (Accumulator.push encrypt) s) =
        octets.foldl (Chain.absorb encrypt) (Accumulator.toChain encrypt s) := by
  induction octets generalizing s with
  | nil => exact ⟨h, rfl⟩
  | cons octet octets ih =>
    rw [List.foldl_cons, List.foldl_cons, ← Accumulator.toChain_push encrypt h]
    exact ih (h.push encrypt octet)

theorem Accumulator.length_push (s : Accumulator × List UInt8) (octet : UInt8)
    (h : s.2.length < blockSize) :
    (Accumulator.push encrypt s octet).2.length = (s.2.length + 1) % blockSize := by
  by_cases hfull : s.2.length + 1 = blockSize
  · rw [Accumulator.push_of_full encrypt hfull, hfull, Nat.mod_self, List.length_nil]
  · rw [Accumulator.push_of_short encrypt hfull, Nat.mod_eq_of_lt (by omega), List.length_append,
      List.length_singleton]

theorem Accumulator.length_foldl (octets : List UInt8) (s : Accumulator × List UInt8)
    (h : s.2.length < blockSize) :
    (octets.foldl (Accumulator.push encrypt) s).2.length =
      (s.2.length + octets.length) % blockSize := by
  induction octets generalizing s with
  | nil => simpa using (Nat.mod_eq_of_lt h).symm
  | cons octet octets ih =>
    have hstep := Accumulator.length_push encrypt s octet h
    rw [List.foldl_cons, ih _ (hstep ▸ Nat.mod_lt _ (by decide)), hstep, List.length_cons,
      Nat.mod_add_mod]
    congr 1
    omega

/-- An accumulator that has taken in the whole blocks of `message`. -/
structure Accumulator.Holds (a : Accumulator) (message : List UInt8) : Prop where
  whole : ∀ pending ∈ a.pending, pending.length = blockSize
  chain : Accumulator.toChain encrypt (a, []) = message.foldl (Chain.absorb encrypt) {}

theorem Accumulator.Holds.empty : Accumulator.Holds encrypt {} [] where
  whole := by simp
  chain := rfl

variable {encrypt}

/-- A piece of whole blocks leaves no block open and extends the message. -/
theorem Accumulator.Holds.add {a : Accumulator} {message octets : List UInt8}
    (h : a.Holds encrypt message) (hlen : octets.length % blockSize = 0) :
    (a.add encrypt octets).2 = [] ∧ (a.add encrypt octets).1.Holds encrypt (message ++ octets) := by
  have hopen : Accumulator.Open (a, []) := ⟨h.whole, Nat.zero_lt_succ _⟩
  obtain ⟨hafter, hchain⟩ := Accumulator.toChain_foldl encrypt octets hopen
  have hlength := Accumulator.length_foldl encrypt octets (a, []) (Nat.zero_lt_succ _)
  have hnil : (a.add encrypt octets).2 = [] := by
    apply List.eq_nil_of_length_eq_zero
    rw [Accumulator.add, hlength]
    simpa using hlen
  refine ⟨hnil, hafter.whole, ?_⟩
  have hpair : ((a.add encrypt octets).1, []) = a.add encrypt octets := by rw [← hnil]
  rw [hpair, List.foldl_append, ← h.chain]
  exact hchain

/-- A block is held back as soon as one was taken in. -/
theorem Accumulator.Holds.pending_isSome {a : Accumulator} {message : List UInt8}
    (h : a.Holds encrypt message) (hne : message ≠ []) : a.pending.isSome = true := by
  have hrest : ∀ (octets : List UInt8) (s : Chain), s.rest ≠ [] ∨ octets ≠ [] →
      (octets.foldl (Chain.absorb encrypt) s).rest ≠ [] := by
    intro octets
    induction octets with
    | nil => intro s hs; simpa using hs
    | cons octet octets ih =>
      intro s _
      refine ih _ (.inl ?_)
      unfold Chain.absorb
      split_ifs <;> simp
  have hchain := congrArg Chain.rest h.chain
  cases hp : a.pending with
  | some pending => rfl
  | none =>
    simp only [Accumulator.toChain, hp] at hchain
    exact absurd hchain.symm (hrest message {} (.inr hne))

/-- The accumulator and the one pass give the same code. -/
theorem Accumulator.Holds.finalize_eq {a : Accumulator} {message : List UInt8}
    (h : a.Holds encrypt message) (hne : message ≠ []) :
    a.finalize encrypt = some (cmac encrypt message) := by
  obtain ⟨pending, hp⟩ := Option.isSome_iff_exists.1 (h.pending_isSome hne)
  have hwhole : pending.length = blockSize := h.whole pending hp
  have hchain := h.chain
  simp only [Accumulator.toChain, hp, if_true] at hchain
  rw [Accumulator.finalize, hp, Option.map_some, cmac, ← hchain, finalBlock, if_pos hwhole,
    xorBlock_assoc]

end

end DfcCore.Cmac
