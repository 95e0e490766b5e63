import Mathlib.Data.Nat.Bitwise
import DfcCore.Image

/-!
# The layout of key sets

An application with key sets keeps them in three memories: the octets of every key in the
key pool, the versions of the keys of set zero in its record, and all that is left in
the metadata pool. This module says where each of them stands and that a store to one
place leaves the others alone.
-/
namespace DfcCore

theorem toNat_setBit {k : ℕ} (hk : k < 16) : ((1 : UInt16) <<< UInt16.ofNat k).toNat = 2 ^ k := by
  have hmod : (UInt16.ofNat k).toNat % 16 = k := by
    rw [UInt16.toNat_ofNat']
    omega
  rw [UInt16.toNat_shiftLeft, hmod, UInt16.toNat_one, Nat.shiftLeft_eq, Nat.one_mul]
  exact Nat.mod_eq_of_lt (Nat.pow_lt_pow_right (by omega) hk)

theorem maskBit_eq (m : UInt16) {k : ℕ} (hk : k < 16) :
    (m &&& ((1 : UInt16) <<< UInt16.ofNat k) != 0) = m.toNat.testBit k := by
  have hz : (m &&& ((1 : UInt16) <<< UInt16.ofNat k)) = 0 ↔ m.toNat.testBit k = false := by
    rw [← UInt16.toNat_inj, UInt16.toNat_and, toNat_setBit hk, Nat.and_comm, Nat.two_pow_and,
      UInt16.toNat_zero]
    cases m.toNat.testBit k <;> simp
  cases hb : m.toNat.testBit k with
  | true =>
    rw [bne_iff_ne, Ne, hz, hb]
    simp
  | false =>
    rw [hz.mpr hb]
    rfl

/-- The mask with the bit of a set stored. -/
def putBit (mask : UInt16) (set : ℕ) (initialized : Bool) : UInt16 :=
  if initialized then mask ||| (1 <<< UInt16.ofNat set) else mask &&& ~~~(1 <<< UInt16.ofNat set)

theorem testBit_putBit (m : UInt16) {k j : ℕ} (hk : k < 16) (hj : j < 16) (v : Bool) :
    (putBit m k v).toNat.testBit j = if j = k then v else m.toNat.testBit j := by
  have hbit : (2 ^ k : ℕ).testBit j = decide (k = j) := Nat.testBit_two_pow
  rw [putBit]
  cases v with
  | true =>
    rw [if_pos rfl, UInt16.toNat_or, toNat_setBit hk, Nat.testBit_or, hbit]
    split_ifs with h
    · simp [h]
    · simp [Ne.symm h]
  | false =>
    have hnot : (~~~((1 : UInt16) <<< UInt16.ofNat k)).toNat = 2 ^ 16 - (2 ^ k + 1) := by
      rw [UInt16.toNat_not, toNat_setBit hk, Nat.sub_sub, Nat.add_comm]
      rfl
    rw [if_neg (by simp), UInt16.toNat_and, hnot, Nat.testBit_and,
      Nat.testBit_two_pow_sub_succ (Nat.pow_lt_pow_right (by omega) hk), hbit]
    split_ifs with h
    · simp [h]
    · simp [Ne.symm h, hj]

theorem octets_join (m : UInt16) :
    m.toUInt8.toUInt16 ||| ((m >>> 8).toUInt8.toUInt16 <<< 8) = m := by
  have hm := m.toNat_lt
  have h8 : (8 : UInt16).toNat % 16 = 8 := by decide
  have hor := Nat.shiftLeft_add_eq_or_of_lt (i := 8) (b := m.toNat % 256) (by omega) (m.toNat / 256)
  apply UInt16.toNat_inj.mp
  rw [UInt16.toNat_or, UInt16.toNat_shiftLeft, UInt8.toNat_toUInt16, UInt8.toNat_toUInt16,
    UInt16.toNat_toUInt8, UInt16.toNat_toUInt8, UInt16.toNat_shiftRight, h8,
    Nat.shiftRight_eq_div_pow]
  have hhigh : m.toNat / 2 ^ 8 % 2 ^ 8 = m.toNat / 256 := by omega
  have hlow : m.toNat % 2 ^ 8 = m.toNat % 256 := rfl
  have hfit : (m.toNat / 256) <<< 8 % 2 ^ 16 = (m.toNat / 256) <<< 8 :=
    Nat.mod_eq_of_lt (by rw [Nat.shiftLeft_eq]; omega)
  rw [hhigh, hlow, hfit, Nat.or_comm, ← hor, Nat.shiftLeft_eq]
  omega

/-- Where the keys and the metadata of an application stand. -/
structure SetLayout where
  keys : ℕ
  metadata : ℕ
  keyCount : ℕ
  setCount : ℕ
  stride : ℕ

/-- The memories an application's key sets are kept in. -/
structure SetMems where
  keys : Mem
  metadata : Mem
  versions : Mem

namespace SetLayout
variable (L : SetLayout)

/-- The place of a key. -/
def keyCell (set slot : ℕ) : ℕ := L.keys + (set * L.keyCount + slot) * L.stride

/-- The place of the version of a key of a set behind the first. -/
def versionCell (set slot : ℕ) : ℕ :=
  L.metadata + (2 * L.setCount + 2 + (set - 1) * L.keyCount + slot)

/-- The place of the initialized mask. -/
def maskCell : ℕ := L.metadata + 2 * L.setCount

end SetLayout

namespace SetMems

def keyImage (L : SetLayout) (m : SetMems) (set slot width : ℕ) : KeyImage where
  value := m.keys.read (L.keyCell set slot) width
  version := if set = 0 then m.versions slot else m.metadata (L.versionCell set slot)

def mask (L : SetLayout) (m : SetMems) : UInt16 :=
  (m.metadata L.maskCell).toUInt16 ||| ((m.metadata (L.maskCell + 1)).toUInt16 <<< 8)

/-- The image of a set. -/
def setImage (L : SetLayout) (m : SetMems) (set : ℕ) : KeySetImage where
  version := m.metadata (L.metadata + set)
  type := m.metadata (L.metadata + L.setCount + set)
  initialized := m.mask L &&& (1 <<< UInt16.ofNat set) != 0
  keys := (List.range L.keyCount).map fun slot =>
    m.keyImage L set slot (dfcKeySetTypeLength (m.metadata (L.metadata + L.setCount + set)))

/-- A key and its version stored. -/
def storeKey (L : SetLayout) (set slot : ℕ) (m : SetMems) (k : KeyImage) : SetMems where
  keys := m.keys.write (L.keyCell set slot) k.value
  metadata := if set = 0 then m.metadata else m.metadata.write (L.versionCell set slot) [k.version]
  versions := if set = 0 then m.versions.write slot [k.version] else m.versions

/-- The keys of a set stored from `slot` on. -/
def storeKeys (L : SetLayout) (set : ℕ) : ℕ → SetMems → List KeyImage → SetMems
  | _, m, [] => m
  | slot, m, k :: keys => storeKeys L set (slot + 1) (m.storeKey L set slot k) keys

/-- The version, the type and the initialized bit of a set stored. -/
def storeHeader (L : SetLayout) (set : ℕ) (m : SetMems) (s : KeySetImage) : SetMems :=
  let m := { m with
    metadata := (m.metadata.write (L.metadata + set) [s.version]).write
      (L.metadata + L.setCount + set) [s.type] }
  let mask := putBit (m.mask L) set s.initialized
  { m with metadata := m.metadata.write L.maskCell [mask.toUInt8, (mask >>> 8).toUInt8] }

/-- The sets stored from `set` on. -/
def storeSets (L : SetLayout) : ℕ → SetMems → List KeySetImage → SetMems
  | _, m, [] => m
  | set, m, s :: sets =>
    storeSets L (set + 1) ((m.storeHeader L set s).storeKeys L set 0 s.keys) sets

end SetMems

section Stores
variable {L : SetLayout}

theorem keyIndex_injective {keyCount set set' slot slot' : ℕ} (h : slot < keyCount)
    (h' : slot' < keyCount) (heq : set * keyCount + slot = set' * keyCount + slot') :
    set = set' ∧ slot = slot' := by
  have hdiv : (set * keyCount + slot) / keyCount =
      (set' * keyCount + slot') / keyCount := by rw [heq]
  rw [Nat.mul_comm, Nat.mul_add_div (by omega), Nat.mul_comm, Nat.mul_add_div (by omega),
    Nat.div_eq_of_lt h, Nat.div_eq_of_lt h', Nat.add_zero, Nat.add_zero] at hdiv
  subst hdiv
  exact ⟨rfl, by omega⟩

/-- Two keys that fit their places do not meet. -/
theorem keyCell_disjoint {set set' slot slot' w w' : ℕ} (h : slot < L.keyCount)
    (h' : slot' < L.keyCount) (hne : ¬(set' = set ∧ slot' = slot)) (hw : w ≤ L.stride)
    (hw' : w' ≤ L.stride) :
    L.keyCell set' slot' + w' ≤ L.keyCell set slot ∨
      L.keyCell set slot + w ≤ L.keyCell set' slot' := by
  have hidx : set' * L.keyCount + slot' ≠ set * L.keyCount + slot :=
    fun heq => hne (keyIndex_injective h' h heq)
  rw [SetLayout.keyCell, SetLayout.keyCell]
  rcases Nat.lt_or_gt_of_ne hidx with hlt | hlt
  · left
    have hmul := Nat.mul_le_mul_right L.stride hlt
    rw [Nat.succ_mul] at hmul
    omega
  · right
    have hmul := Nat.mul_le_mul_right L.stride hlt
    rw [Nat.succ_mul] at hmul
    omega

theorem storeKey_self {set slot : ℕ} {m : SetMems} {k : KeyImage} :
    (m.storeKey L set slot k).keyImage L set slot k.value.length = k := by
  rw [SetMems.keyImage, SetMems.storeKey]
  by_cases h0 : set = 0
  · simp [h0, Mem.write]
  · simp [h0, Mem.write]

theorem storeKey_other {set set' slot slot' w : ℕ} {m : SetMems} {k : KeyImage}
    (h : slot < L.keyCount) (h' : slot' < L.keyCount) (hne : ¬(set' = set ∧ slot' = slot))
    (hk : k.value.length ≤ L.stride) (hw : w ≤ L.stride) :
    (m.storeKey L set slot k).keyImage L set' slot' w = m.keyImage L set' slot' w := by
  have hvalue : (m.keys.write (L.keyCell set slot) k.value).read (L.keyCell set' slot') w =
      m.keys.read (L.keyCell set' slot') w :=
    Mem.read_write_of_disjoint (keyCell_disjoint h h' hne hk hw)
  rw [SetMems.keyImage, SetMems.storeKey, hvalue, SetMems.keyImage]
  congr 1
  by_cases h0' : set' = 0
  · simp only [h0', if_true]
    split_ifs with h0
    · exact Mem.write_apply_of_out (by
        have : slot' ≠ slot := fun hs => hne ⟨h0'.trans h0.symm, hs⟩
        simp only [List.length_singleton]
        omega)
    · rfl
  · simp only [h0', if_false]
    split_ifs with h0
    · rfl
    · refine Mem.write_apply_of_out ?_
      have hcell : L.versionCell set' slot' ≠ L.versionCell set slot := by
        intro heq
        rw [SetLayout.versionCell, SetLayout.versionCell] at heq
        have : set' - 1 = set - 1 ∧ slot' = slot := keyIndex_injective h' h (by omega)
        exact hne ⟨by omega, this.2⟩
      simp only [List.length_singleton]
      omega

/-- The header of a set does not depend on keys. -/
theorem storeKey_metadata {set slot : ℕ} {m : SetMems} {k : KeyImage} {a : ℕ}
    (ha : a < L.metadata + 2 * L.setCount + 2) :
    (m.storeKey L set slot k).metadata a = m.metadata a := by
  rw [SetMems.storeKey]
  dsimp only
  split_ifs
  · rfl
  · refine Mem.write_apply_of_out ?_
    rw [SetLayout.versionCell]
    omega

theorem storeKeys_metadata {set slot : ℕ} {m : SetMems} {keys : List KeyImage} {a : ℕ}
    (ha : a < L.metadata + 2 * L.setCount + 2) :
    (m.storeKeys L set slot keys).metadata a = m.metadata a := by
  induction keys generalizing slot m with
  | nil => rfl
  | cons k keys ih => rw [SetMems.storeKeys, ih, storeKey_metadata ha]

theorem storeKeys_other {set set' slot slot' w : ℕ} {m : SetMems} {keys : List KeyImage}
    (h : slot + keys.length ≤ L.keyCount) (h' : slot' < L.keyCount)
    (hne : set' ≠ set ∨ slot' < slot) (hk : ∀ k ∈ keys, k.value.length ≤ L.stride)
    (hw : w ≤ L.stride) :
    (m.storeKeys L set slot keys).keyImage L set' slot' w = m.keyImage L set' slot' w := by
  induction keys generalizing slot m with
  | nil => rfl
  | cons k keys ih =>
    rw [List.length_cons] at h
    rw [List.forall_mem_cons] at hk
    rw [SetMems.storeKeys, ih (by omega) (by omega) hk.2,
      storeKey_other (by omega) h' (by omega) hk.1 hw]

/-- The keys that were stored are read back. -/
theorem storeKeys_self (set slot : ℕ) {w : ℕ} (m : SetMems) {keys : List KeyImage}
    (h : slot + keys.length ≤ L.keyCount) (hk : ∀ k ∈ keys, k.value.length = w)
    (hw : w ≤ L.stride) :
    (List.range' slot keys.length).map (fun n => (m.storeKeys L set slot keys).keyImage L set n w) =
      keys := by
  induction keys generalizing slot m with
  | nil => rfl
  | cons k keys ih =>
    rw [List.length_cons] at h
    rw [List.forall_mem_cons] at hk
    have hrest : ∀ k ∈ keys, k.value.length ≤ L.stride := fun k hmem => (hk.2 k hmem).trans_le hw
    rw [List.length_cons, List.range'_succ, List.map_cons, SetMems.storeKeys,
      ih _ _ (by omega) hk.2, storeKeys_other (by omega) (by omega) (by omega) hrest hw, ← hk.1,
      storeKey_self]

theorem storeHeader_keyImage {set set' slot' w : ℕ} {m : SetMems} {s : KeySetImage}
    (hs : set < L.setCount) :
    (m.storeHeader L set s).keyImage L set' slot' w = m.keyImage L set' slot' w := by
  rw [SetMems.keyImage, SetMems.keyImage, SetMems.storeHeader]
  congr 1
  dsimp only
  split_ifs
  · rfl
  · rw [Mem.write_apply_of_out, Mem.write_apply_of_out, Mem.write_apply_of_out] <;>
      simp only [List.length_cons, List.length_nil, SetLayout.versionCell, SetLayout.maskCell] <;>
      omega

theorem storeHeader_mask {set : ℕ} {m : SetMems} {s : KeySetImage} (hs : set < L.setCount) :
    (m.storeHeader L set s).mask L = putBit (m.mask L) set s.initialized := by
  have hold : (SetMems.mask L { m with
      metadata := (m.metadata.write (L.metadata + set) [s.version]).write
        (L.metadata + L.setCount + set) [s.type] }) = m.mask L := by
    rw [SetMems.mask, SetMems.mask]
    dsimp only
    rw [Mem.write_apply_of_out, Mem.write_apply_of_out, Mem.write_apply_of_out,
      Mem.write_apply_of_out] <;> simp only [List.length_singleton, SetLayout.maskCell] <;> omega
  rw [SetMems.storeHeader]
  dsimp only
  rw [hold, SetMems.mask]
  dsimp only
  generalize putBit (m.mask L) set s.initialized = mask
  have hlow (mem : Mem) (a b : UInt8) : mem.write L.maskCell [a, b] L.maskCell = a := by
    simp [Mem.write]
  have hhigh (mem : Mem) (a b : UInt8) : mem.write L.maskCell [a, b] (L.maskCell + 1) = b := by
    simp [Mem.write]
  rw [hlow, hhigh, octets_join]

/-- The header of a set that was stored. -/
theorem storeHeader_metadata {set set' : ℕ} {m : SetMems} {s : KeySetImage} (hs : set < L.setCount)
    (hs' : set' < L.setCount) :
    (m.storeHeader L set s).metadata (L.metadata + set') =
        (if set' = set then s.version else m.metadata (L.metadata + set')) ∧
      (m.storeHeader L set s).metadata (L.metadata + L.setCount + set') =
        if set' = set then s.type else m.metadata (L.metadata + L.setCount + set') := by
  rw [SetMems.storeHeader]
  dsimp only
  constructor
  · rw [Mem.write_apply_of_out (by simp only [SetLayout.maskCell]; omega),
      Mem.write_apply_of_out (by simp only [List.length_singleton]; omega)]
    split_ifs with h
    · simp [h, Mem.write]
    · exact Mem.write_apply_of_out (by simp only [List.length_singleton]; omega)
  · rw [Mem.write_apply_of_out (by simp only [SetLayout.maskCell]; omega)]
    split_ifs with h
    · simp [h, Mem.write]
    · rw [Mem.write_apply_of_out (by simp only [List.length_singleton]; omega),
        Mem.write_apply_of_out (by simp only [List.length_singleton]; omega)]

/-- The sets a record with this layout can hold. -/
structure SetFits (L : SetLayout) (s : KeySetImage) : Prop where
  width : dfcKeySetTypeLength s.type ≤ L.stride
  count : s.keys.length = L.keyCount
  length : ∀ k ∈ s.keys, k.value.length = dfcKeySetTypeLength s.type

theorem mask_storeKeys {set slot : ℕ} {m : SetMems} {keys : List KeyImage} :
    (m.storeKeys L set slot keys).mask L = m.mask L := by
  rw [SetMems.mask, SetMems.mask, storeKeys_metadata, storeKeys_metadata] <;>
    rw [SetLayout.maskCell] <;> omega

theorem storeSet_self {set : ℕ} {m : SetMems} {s : KeySetImage} (hc : L.setCount ≤ 16)
    (hs : set < L.setCount) (hfit : SetFits L s) :
    ((m.storeHeader L set s).storeKeys L set 0 s.keys).setImage L set = s := by
  obtain ⟨hversion, htype⟩ := storeHeader_metadata (m := m) (s := s) hs hs
  rw [if_pos rfl] at hversion htype
  have hkeys := storeKeys_self set 0 (m.storeHeader L set s) (by have := hfit.count; omega)
    hfit.length hfit.width
  rw [hfit.count, ← List.range_eq_range'] at hkeys
  rw [SetMems.setImage, storeKeys_metadata (by omega), storeKeys_metadata (by omega),
    hversion, htype, mask_storeKeys, storeHeader_mask hs, maskBit_eq _ (by omega),
    testBit_putBit _ (by omega) (by omega), if_pos rfl, hkeys]

theorem storeSet_other {set set' : ℕ} {m : SetMems} {s : KeySetImage} (hc : L.setCount ≤ 16)
    (hs : set < L.setCount) (hs' : set' < L.setCount) (hne : set' ≠ set) (hfit : SetFits L s)
    (hw : dfcKeySetTypeLength (m.setImage L set').type ≤ L.stride) :
    ((m.storeHeader L set s).storeKeys L set 0 s.keys).setImage L set' = m.setImage L set' := by
  obtain ⟨hversion, htype⟩ := storeHeader_metadata (m := m) (s := s) hs hs'
  rw [if_neg hne] at hversion htype
  have hlen : ∀ k ∈ s.keys, k.value.length ≤ L.stride := fun k hk =>
    (hfit.length k hk).trans_le hfit.width
  rw [SetMems.setImage, storeKeys_metadata (by omega), storeKeys_metadata (by omega),
    hversion, htype, mask_storeKeys, storeHeader_mask hs, maskBit_eq _ (by omega),
    testBit_putBit _ (by omega) (by omega), if_neg hne, SetMems.setImage, maskBit_eq _ (by omega)]
  have hw' : dfcKeySetTypeLength (m.metadata (L.metadata + L.setCount + set')) ≤ L.stride := hw
  congr 1
  apply List.map_congr_left
  intro slot hslot
  rw [List.mem_range] at hslot
  rw [storeKeys_other (by have := hfit.count; omega) hslot (Or.inl hne) hlen hw',
    storeHeader_keyImage hs]

theorem storeSets_other {set set' : ℕ} {m : SetMems} {sets : List KeySetImage}
    (hc : L.setCount ≤ 16) (hs : set + sets.length ≤ L.setCount) (hlt : set' < set)
    (hs' : set' < L.setCount) (hfit : ∀ s ∈ sets, SetFits L s)
    (hw : dfcKeySetTypeLength (m.setImage L set').type ≤ L.stride) :
    (m.storeSets L set sets).setImage L set' = m.setImage L set' := by
  induction sets generalizing set m with
  | nil => rfl
  | cons s sets ih =>
    rw [List.length_cons] at hs
    rw [List.forall_mem_cons] at hfit
    have hstep := storeSet_other (m := m) hc (by omega : set < L.setCount) hs' (by omega) hfit.1 hw
    rw [SetMems.storeSets, ih (by omega) (by omega) hfit.2 (by rw [hstep]; exact hw), hstep]

/-- The sets that were stored are read back. -/
theorem storeSets_self {set : ℕ} {m : SetMems} {sets : List KeySetImage} (hc : L.setCount ≤ 16)
    (hs : set + sets.length ≤ L.setCount) (hfit : ∀ s ∈ sets, SetFits L s) :
    (List.range' set sets.length).map (fun n => (m.storeSets L set sets).setImage L n) = sets := by
  induction sets generalizing set m with
  | nil => rfl
  | cons s sets ih =>
    rw [List.length_cons] at hs
    rw [List.forall_mem_cons] at hfit
    have hself := storeSet_self (m := m) hc (by omega : set < L.setCount) hfit.1
    rw [List.length_cons, List.range'_succ, List.map_cons, SetMems.storeSets, ih (by omega) hfit.2,
      storeSets_other hc (by omega) (by omega) (by omega) hfit.2 (by
        rw [hself]; exact hfit.1.width), hself]

end Stores

end DfcCore
