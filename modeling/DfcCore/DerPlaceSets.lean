import DfcCore.KeySetLayout
import DfcCore.DerPlaceKeys

/-!
# Key sets in a vacant record

The key sets of a decoded application stand behind the used parts of the key pool and of
the metadata pool. The loops over the sets and their keys are stores into that layout.
-/
namespace DfcCore
open Der

/-- The record of an application keeps its key sets by a layout. -/
structure HasLayout (c : DfcCredential) (i : ℕ) (L : SetLayout) : Prop where
  numKeys : (c.apps i).numKeys = L.keyCount
  numKeySets : (c.apps i).numKeySets = L.setCount
  keyOffset : (c.apps i).keyOffset = L.keys
  keyPoolLen : (c.apps i).keyPoolLen = L.keyCount * L.setCount * L.stride
  keyStorageLen : (c.apps i).keyStorageLen = L.stride
  stride : L.stride = 16 ∨ L.stride = 24
  keyCount : 0 < L.keyCount ∧ L.keyCount ≤ dfcMaxKeys
  setCount : dfcKeySetMinimumCount ≤ L.setCount ∧ L.setCount ≤ dfcMaxKeySets
  keysFit : L.keys + L.keyCount * L.setCount * L.stride ≤ c.keyPoolUsed
  pool : c.keyPoolUsed ≤ dfcKeyPoolSize
  metadata : dfcKeySetMetadataSlice c (c.apps i) = some L.metadata

/-- The memories the key sets of an application are kept in. -/
def memsOf (c : DfcCredential) (i : ℕ) : SetMems where
  keys := c.keyPool
  metadata := c.keySetMetadataPool
  versions := (c.apps i).keyVersions

def putMems (c : DfcCredential) (i : ℕ) (m : SetMems) : DfcCredential :=
  { c.modifyApp i fun a => { a with keyVersions := m.versions } with
    keyPool := m.keys
    keySetMetadataPool := m.metadata }

theorem putMems_memsOf (c : DfcCredential) (i : ℕ) : putMems c i (memsOf c i) = c := by
  simp [putMems, memsOf, DfcCredential.modifyApp]

theorem memsOf_putMems (c : DfcCredential) (i : ℕ) (m : SetMems) :
    memsOf (putMems c i m) i = m := by
  simp [putMems, memsOf, DfcCredential.modifyApp]

theorem putMems_putMems (c : DfcCredential) (i : ℕ) (m m' : SetMems) :
    putMems (putMems c i m) i m' = putMems c i m' := by
  simp [putMems, DfcCredential.modifyApp]

theorem metadataSlice_putMems (c : DfcCredential) (i : ℕ) (m : SetMems) :
    dfcKeySetMetadataSlice (putMems c i m) ((putMems c i m).apps i) =
      dfcKeySetMetadataSlice c (c.apps i) := by
  simp [putMems, DfcCredential.modifyApp, dfcKeySetMetadataSlice]

theorem HasLayout.put {c : DfcCredential} {i : ℕ} {L : SetLayout} (h : HasLayout c i L)
    (m : SetMems) : HasLayout (putMems c i m) i L where
  numKeys := by simpa [putMems, DfcCredential.modifyApp] using h.numKeys
  numKeySets := by simpa [putMems, DfcCredential.modifyApp] using h.numKeySets
  keyOffset := by simpa [putMems, DfcCredential.modifyApp] using h.keyOffset
  keyPoolLen := by simpa [putMems, DfcCredential.modifyApp] using h.keyPoolLen
  keyStorageLen := by simpa [putMems, DfcCredential.modifyApp] using h.keyStorageLen
  stride := h.stride
  keyCount := h.keyCount
  setCount := h.setCount
  keysFit := h.keysFit
  pool := h.pool
  metadata := by rw [metadataSlice_putMems, h.metadata]

section Layout
variable {c : DfcCredential} {i : ℕ} {L : SetLayout}

theorem HasLayout.keyInSet (h : HasLayout c i L) {set slot : ℕ} (hset : set < L.setCount)
    (hslot : slot < L.keyCount) :
    dfcCredentialKeyInSet c (c.apps i) set slot = some (L.keyCell set slot) := by
  have hstride := storedKeyLength_eq h.stride
  have hpool := h.pool
  have hfit := h.keysFit
  have hidx : (set * L.keyCount + slot + 1) ≤ L.keyCount * L.setCount := by
    have hmul := Nat.mul_le_mul_right L.keyCount hset
    rw [Nat.succ_mul, Nat.mul_comm L.setCount] at hmul
    omega
  have hlen : (set * L.keyCount + slot + 1) * L.stride ≤ L.keyCount * L.setCount * L.stride :=
    Nat.mul_le_mul_right _ hidx
  have hpos : 0 < L.stride := by have := h.stride; omega
  have hne : 0 < (set * L.keyCount + slot + 1) * L.stride := by positivity
  rw [dfcCredentialKeyInSet, h.numKeySets, h.numKeys, if_neg (by omega), dfcCredentialKeyAt,
    h.keyOffset, h.keyPoolLen, h.keyStorageLen]
  simp only [hstride, dfcKeyPoolNone, dfcKeyPoolSize] at hpool ⊢
  rw [if_neg (by omega), if_neg (by omega), if_neg (by omega), if_neg (by omega),
    SetLayout.keyCell]

theorem HasLayout.keyVersionInSet (h : HasLayout c i L) {set slot : ℕ} (hset : set < L.setCount)
    (hslot : slot < L.keyCount) :
    dfcCredentialKeyVersionInSet c (c.apps i) set slot =
      some (if set = 0 then (c.apps i).keyVersions slot
        else c.keySetMetadataPool (L.versionCell set slot)) := by
  rw [dfcCredentialKeyVersionInSet, h.numKeySets, h.numKeys, if_neg (by omega), h.metadata]
  split_ifs
  · rfl
  · rfl

theorem HasLayout.keySetImage_eq (h : HasLayout c i L) {set : ℕ} (hset : set < L.setCount) :
    keySetImage c (c.apps i) set = (memsOf c i).setImage L set := by
  have hset' : set < (c.apps i).numKeySets := by rw [h.numKeySets]; exact hset
  have hmin := h.setCount.1
  rw [keySetImage, keySetVersion_eq h.metadata hset', keySetType_eq h.metadata hset',
    SetMems.setImage]
  simp only [Option.getD_some, h.numKeySets, h.numKeys]
  congr 1
  · rw [dfcCredentialKeySetIsInitialized, h.numKeySets, if_neg (by omega), if_neg (by omega),
      h.metadata]
    dsimp only
    rw [keySetInitializedMask, h.numKeySets]
    rfl
  · apply List.map_congr_left
    intro slot hslot
    rw [List.mem_range] at hslot
    rw [h.keyInSet hset hslot, h.keyVersionInSet hset hslot]
    rfl

theorem HasLayout.loadSetKey_eq (h : HasLayout c i L) {set slot : ℕ} (hset : set < L.setCount)
    (hslot : slot < L.keyCount) (k : KeyImage) :
    loadSetKey i set (c, slot) k =
    (putMems c i ((memsOf c i).storeKey L set slot k), slot + 1) := by
  have hmeta : dfcKeySetMetadataSlice
      { c with keyPool := c.keyPool.write (L.keyCell set slot) k.value } (c.apps i) =
      some L.metadata := h.metadata
  rw [loadSetKey]
  simp only [h.keyInSet hset hslot, Option.getD_some, dfcCredentialStoreKeyVersionInSet,
    h.numKeySets, h.numKeys, hmeta]
  rw [if_neg (by omega)]
  by_cases h0 : set = 0
  · simp [h0, SetMems.storeKey, memsOf, putMems, DfcCredential.modifyApp]
  · simp [h0, SetMems.storeKey, memsOf, putMems, DfcCredential.modifyApp,
      SetLayout.versionCell]

theorem HasLayout.foldl_loadSetKey (h : HasLayout c i L) {set slot : ℕ} (hset : set < L.setCount)
    {keys : List KeyImage} (hslot : slot + keys.length ≤ L.keyCount) :
    keys.foldl (loadSetKey i set) (c, slot) =
      (putMems c i ((memsOf c i).storeKeys L set slot keys), slot + keys.length) := by
  induction keys generalizing c slot with
  | nil => rw [SetMems.storeKeys, putMems_memsOf]; rfl
  | cons k keys ih =>
    rw [List.length_cons] at hslot ⊢
    rw [List.foldl_cons, h.loadSetKey_eq hset (by omega), ih (h.put _) (by omega), memsOf_putMems,
      putMems_putMems, SetMems.storeKeys]
    congr 1
    omega

theorem HasLayout.allFrom_setKeyLoadable (h : HasLayout c i L) {set slot required : ℕ}
    (hset : set < L.setCount) {keys : List KeyImage} (hslot : slot ≤ L.keyCount) :
    AllFrom (SetKeyLoadable i set L.keyCount required) (loadSetKey i set) (c, slot) keys ↔
      slot + keys.length ≤ L.keyCount ∧ ∀ k ∈ keys, k.value.length = required := by
  have hmax := h.keyCount.2
  induction keys generalizing c slot with
  | nil => simpa [AllFrom] using hslot
  | cons k keys ih =>
    rw [AllFrom, List.length_cons, List.forall_mem_cons]
    constructor
    · rintro ⟨hk, hrest⟩
      have hlt : slot < L.keyCount := hk.slot.1
      rw [h.loadSetKey_eq hset hlt] at hrest
      obtain ⟨hcount, hlen⟩ := (ih (h.put _) hlt).mp hrest
      exact ⟨by omega, hk.length, hlen⟩
    · rintro ⟨hlen, hk, hrest⟩
      rw [h.loadSetKey_eq hset (by omega)]
      refine ⟨⟨⟨by dsimp only; omega, by dsimp only; omega⟩, hk, ?_, ?_⟩,
        (ih (h.put _) (by omega)).mpr ⟨by omega, hrest⟩⟩
      · dsimp only
        rw [h.keyInSet hset (by omega)]
        rfl
      · dsimp only
        rw [h.keyVersionInSet hset (by omega)]
        rfl

theorem HasLayout.storeKeySetHeader_eq (h : HasLayout c i L) {set : ℕ} (hset : set < L.setCount)
    (s : KeySetImage) :
    storeKeySetHeader c i set s = putMems c i ((memsOf c i).storeHeader L set s) := by
  have hset' : set < (c.apps i).numKeySets := by rw [h.numKeySets]; exact hset
  rw [storeKeySetHeader, keySetVersion_eq h.metadata hset', keySetType_eq h.metadata hset']
  simp only [Option.getD_some, h.numKeySets]
  generalize hpool : (c.keySetMetadataPool.write (L.metadata + set) [s.version]).write
    (L.metadata + L.setCount + set) [s.type] = pool
  have hmeta : dfcKeySetMetadataSlice { c with keySetMetadataPool := pool } (c.apps i) =
      some L.metadata := h.metadata
  simp only [dfcCredentialKeySetSetInitialized, hmeta, h.numKeySets]
  rw [if_neg (by omega), SetMems.storeHeader]
  simp only [keySetStoreInitializedMask, keySetInitializedMask, h.numKeySets, putMems, memsOf,
    hpool, SetMems.mask, SetLayout.maskCell, putBit]
  rw [modifyApp_id c i rfl]

theorem HasLayout.loadKeySet_eq (h : HasLayout c i L) {set : ℕ} (hset : set < L.setCount)
    {s : KeySetImage} (hlen : s.keys.length ≤ L.keyCount) :
    loadKeySet i (c, set) s = (putMems c i
      (((memsOf c i).storeHeader L set s).storeKeys L set 0 s.keys), set + 1) := by
  rw [loadKeySet]
  dsimp only
  rw [h.storeKeySetHeader_eq hset, (h.put _).foldl_loadSetKey hset (by omega), memsOf_putMems,
    putMems_putMems]

theorem HasLayout.foldl_loadKeySet (h : HasLayout c i L) (set : ℕ) (sets : List KeySetImage)
    (hset : set + sets.length ≤ L.setCount) (hlen : ∀ s ∈ sets, s.keys.length ≤ L.keyCount) :
    sets.foldl (loadKeySet i) (c, set) =
      (putMems c i ((memsOf c i).storeSets L set sets), set + sets.length) := by
  induction sets generalizing c set with
  | nil => rw [SetMems.storeSets, putMems_memsOf]; rfl
  | cons s sets ih =>
    rw [List.length_cons] at hset ⊢
    rw [List.forall_mem_cons] at hlen
    rw [List.foldl_cons, h.loadKeySet_eq (by omega) hlen.1, ih (h.put _) _ (by omega) hlen.2,
      memsOf_putMems, putMems_putMems, SetMems.storeSets]
    congr 1
    omega

/-- The sets the decoder accepts; it does not ask for all of their keys. -/
structure KeySetImage.Loadable (keyCount maxSize : ℕ) (s : KeySetImage) : Prop where
  type : s.type.toNat ≤ dfcKeySetTypeAes.toNat
  width : dfcKeySetTypeLength s.type ≤ maxSize
  count : s.keys.length ≤ keyCount
  length : ∀ k ∈ s.keys, k.value.length = dfcKeySetTypeLength s.type

theorem HasLayout.allFrom_keySetLoadable (h : HasLayout c i L) {set : ℕ} {sets : List KeySetImage}
    (hset : set + sets.length ≤ L.setCount) :
    AllFrom (KeySetLoadable i L.keyCount L.stride) (loadKeySet i) (c, set) sets ↔
      ∀ s ∈ sets, s.Loadable L.keyCount L.stride := by
  have hmax := h.setCount.2
  induction sets generalizing c set with
  | nil => simp [AllFrom]
  | cons s sets ih =>
    rw [List.length_cons] at hset
    have hlt : set < L.setCount := by omega
    have hkeys : AllFrom (SetKeyLoadable i set L.keyCount (dfcKeySetTypeLength s.type))
        (loadSetKey i set) (storeKeySetHeader c i set s, 0) s.keys ↔
        s.keys.length ≤ L.keyCount ∧ ∀ k ∈ s.keys, k.value.length = dfcKeySetTypeLength s.type := by
      rw [h.storeKeySetHeader_eq hlt, (h.put _).allFrom_setKeyLoadable hlt (Nat.zero_le _),
        Nat.zero_add]
    rw [AllFrom, List.forall_mem_cons]
    constructor
    · rintro ⟨hs, hrest⟩
      obtain ⟨hcount, hlen⟩ := hkeys.mp hs.keys
      rw [h.loadKeySet_eq hlt hcount] at hrest
      exact ⟨⟨hs.type, hs.width, hcount, hlen⟩, (ih (h.put _) (by omega)).mp hrest⟩
    · rintro ⟨hs, hrest⟩
      rw [h.loadKeySet_eq hlt hs.count]
      refine ⟨⟨by dsimp only; omega, hs.type, hs.width, ?_, hkeys.mpr ⟨hs.count, hs.length⟩⟩,
        (ih (h.put _) (by omega)).mpr hrest⟩
      dsimp only
      rw [keySetVersion_eq h.metadata (by rw [h.numKeySets]; exact hlt)]
      rfl

end Layout

/-- Octets of the metadata of `count` sets of `keyCount` keys. -/
def setMetadataLen (count keyCount : ℕ) : ℕ := 2 * count + 2 + (count - 1) * keyCount

/-- The record of an application with key sets behind the used parts of the pools. -/
def DfcApplication.reserveKeySets (a : DfcApplication)
    (used metadataUsed count keyCount maxSize : ℕ) : DfcApplication :=
  { a with
    keyOffset := used, keyPoolLen := keyCount * count * maxSize, numKeys := keyCount
    keyStorageLen := maxSize, numKeySets := count, maxKeySize := maxSize
    keySetMetadataOffset := metadataUsed, keySetMetadataLen := setMetadataLen count keyCount }

/-- Fresh slices for `count` sets of `keyCount` keys, with every set initialized. -/
def reserveKeySets (c : DfcCredential) (i count keyCount maxSize : ℕ) : DfcCredential :=
  let mask : UInt16 := if count = 16 then 0xFFFF else (1 <<< UInt16.ofNat count) - 1
  { c.modifyApp i fun a =>
      a.reserveKeySets c.keyPoolUsed c.keySetMetadataPoolUsed count keyCount maxSize with
    keyPool := c.keyPool.fill c.keyPoolUsed (keyCount * count * maxSize) 0
    keyPoolUsed := c.keyPoolUsed + keyCount * count * maxSize
    keySetMetadataPool :=
      (c.keySetMetadataPool.fill c.keySetMetadataPoolUsed (setMetadataLen count keyCount) 0).write
        (c.keySetMetadataPoolUsed + 2 * count) [mask.toUInt8, (mask >>> 8).toUInt8]
    keySetMetadataPoolUsed := c.keySetMetadataPoolUsed + setMetadataLen count keyCount }

/-- What the pools and the counts have to allow. -/
structure SetsRoom (c : DfcCredential) (count keyCount maxSize : ℕ) : Prop where
  perSet : 0 < keyCount ∧ keyCount ≤ dfcMaxKeys
  sets : dfcKeySetMinimumCount ≤ count ∧ count ≤ dfcMaxKeySets
  width : maxSize = 16 ∨ maxSize = 24
  keys : c.keyPoolUsed + keyCount * count * maxSize ≤ dfcKeyPoolSize
  metadata : c.keySetMetadataPoolUsed + setMetadataLen count keyCount ≤ dfcKeySetMetadataPoolSize

theorem setMetadataLen_eq {count keyCount : ℕ} (hk : 0 < keyCount ∧ keyCount ≤ dfcMaxKeys)
    (hc : dfcKeySetMinimumCount ≤ count ∧ count ≤ dfcMaxKeySets) :
    dfcKeySetMetadataLength count keyCount = setMetadataLen count keyCount := by
  rw [dfcKeySetMetadataLength, if_neg (by omega), setMetadataLen]

/-- The layout a decoded application gets. -/
def freshLayout (c : DfcCredential) (count keyCount maxSize : ℕ) : SetLayout where
  keys := c.keyPoolUsed
  metadata := c.keySetMetadataPoolUsed
  keyCount := keyCount
  setCount := count
  stride := maxSize

theorem metadataSlice_reserved {c : DfcCredential} {count keyCount maxSize : ℕ}
    (h : SetsRoom c count keyCount maxSize) {c' : DfcCredential} {a : DfcApplication}
    (hused : c'.keySetMetadataPoolUsed = c.keySetMetadataPoolUsed + setMetadataLen count keyCount)
    (hsets : a.numKeySets = count) (hkeys : a.numKeys = keyCount)
    (ho : a.keySetMetadataOffset = c.keySetMetadataPoolUsed)
    (hl : a.keySetMetadataLen = setMetadataLen count keyCount) :
    dfcKeySetMetadataSlice c' a = some c.keySetMetadataPoolUsed := by
  have hmeta := h.metadata
  have hc := h.sets
  have hpos : 0 < setMetadataLen count keyCount := by
    rw [setMetadataLen]
    omega
  simp only [dfcKeySetMetadataSlice, hsets, hkeys, ho, hl, hused,
    setMetadataLen_eq h.perSet h.sets]
  have hsize : dfcKeySetMetadataPoolSize = 896 := by decide
  simp only [hsize, dfcKeySetMetadataPoolNone] at hmeta ⊢
  rw [if_neg (by omega), if_neg (by omega)]

theorem hasLayout_reserved {c : DfcCredential} {i count keyCount maxSize : ℕ}
    (h : SetsRoom c count keyCount maxSize) :
    HasLayout (reserveKeySets c i count keyCount maxSize) i
      (freshLayout c count keyCount maxSize) where
  numKeys := by simp [reserveKeySets, DfcCredential.modifyApp, DfcApplication.reserveKeySets,
    freshLayout]
  numKeySets := by simp [reserveKeySets, DfcCredential.modifyApp, DfcApplication.reserveKeySets,
    freshLayout]
  keyOffset := by simp [reserveKeySets, DfcCredential.modifyApp, DfcApplication.reserveKeySets,
    freshLayout]
  keyPoolLen := by simp [reserveKeySets, DfcCredential.modifyApp, DfcApplication.reserveKeySets,
    freshLayout]
  keyStorageLen := by simp [reserveKeySets, DfcCredential.modifyApp,
    DfcApplication.reserveKeySets, freshLayout]
  stride := h.width
  keyCount := h.perSet
  setCount := h.sets
  keysFit := le_rfl
  pool := h.keys
  metadata := by
    apply metadataSlice_reserved h <;>
      simp [reserveKeySets, DfcCredential.modifyApp, DfcApplication.reserveKeySets]

theorem metadataCanResize_vacant {c : DfcCredential} {i want : ℕ}
    (ho : (c.apps i).keySetMetadataOffset = dfcKeySetMetadataPoolNone)
    (hl : (c.apps i).keySetMetadataLen = 0)
    (hused : c.keySetMetadataPoolUsed ≤ dfcKeySetMetadataPoolSize) :
    dfcKeySetMetadataCanResize c i want = true ↔
      c.keySetMetadataPoolUsed + want ≤ dfcKeySetMetadataPoolSize := by
  have hresolve : dfcPoolSliceResolve dfcKeySetMetadataPoolNone 0 c.keySetMetadataPoolUsed
      dfcKeySetMetadataPoolNone = some dfcKeySetMetadataPoolNone := rfl
  rw [dfcKeySetMetadataCanResize, ho, hl, hresolve]
  split_ifs with h
  · simp only [false_iff]
    omega
  · simp only [ne_eq, not_true_eq_false, if_false, decide_eq_true_eq]
    omega

/-- The part of the reservation in the key pool. -/
def reserveSetKeys (c : DfcCredential) (i count keyCount maxSize : ℕ) : DfcCredential :=
  { c.modifyApp i fun a =>
      { a with
        keyOffset := c.keyPoolUsed, keyPoolLen := keyCount * count * maxSize
        numKeys := keyCount, keyStorageLen := maxSize } with
    keyPool := c.keyPool.fill c.keyPoolUsed (keyCount * count * maxSize) 0
    keyPoolUsed := c.keyPoolUsed + keyCount * count * maxSize }

theorem setKeyCounts_cutSets {c : DfcCredential} {i count keyCount maxSize : ℕ}
    (h : SetsRoom c count keyCount maxSize) (hk : (c.apps i).keyLen ≤ dfcMaxKeyLen) :
    setKeyCounts (dfcCredentialCutKeySlice (noKeys c (some i)) (some i)
      (keyCount * count * maxSize))
        (some i) keyCount (c.apps i).keyLen maxSize =
        reserveSetKeys c i count keyCount maxSize := by
  have hroom := h.keys
  have hn := h.perSet
  have hw := h.width
  simp only [dfcMaxKeys, dfcMaxKeyLen, dfcKeyPoolSize] at hn hk hroom
  have h₁ : u8 keyCount = keyCount := u8_of_lt (by omega)
  have h₂ : u8 (c.apps i).keyLen = (c.apps i).keyLen := u8_of_lt (by omega)
  have h₃ : u8 maxSize = maxSize := u8_of_lt (by omega)
  have h₄ : u16 c.keyPoolUsed = c.keyPoolUsed := u16_of_lt (by omega)
  have h₅ : u16 (keyCount * count * maxSize) = keyCount * count * maxSize := u16_of_lt (by omega)
  have h₆ : u16 (c.keyPoolUsed + keyCount * count * maxSize) =
      c.keyPoolUsed + keyCount * count * maxSize := u16_of_lt (by omega)
  have hu : (noKeys c (some i)).keyPoolUsed = c.keyPoolUsed := rfl
  simp only [dfcCredentialCutKeySlice, hu, h₄, h₅, h₆]
  simp only [noKeys, setKeyCounts, setKeyOffset, setKeyPoolLen, setNumKeys, setKeyLen,
    setKeyStorageLen, reserveSetKeys, h₁, h₂, h₃, DfcCredential.modifyApp, Function.update_self,
    Function.update_idem, DfcApplication.dropKeys]

theorem metadataResize_vacant {c : DfcCredential} {i want : ℕ}
    (ho : (c.apps i).keySetMetadataOffset = dfcKeySetMetadataPoolNone)
    (hl : (c.apps i).keySetMetadataLen = 0) (hw : want ≠ 0)
    (hroom : c.keySetMetadataPoolUsed + want ≤ dfcKeySetMetadataPoolSize) :
    dfcKeySetMetadataResize c i want =
      ({ c.modifyApp i fun a =>
          { a with
            keySetMetadataOffset := c.keySetMetadataPoolUsed, keySetMetadataLen := want } with
        keySetMetadataPool := c.keySetMetadataPool.fill c.keySetMetadataPoolUsed want 0
        keySetMetadataPoolUsed := c.keySetMetadataPoolUsed + want }, true) := by
  have hcan := (metadataCanResize_vacant ho hl (by omega)).mpr hroom
  have hsize : dfcKeySetMetadataPoolSize = 896 := by decide
  have h₁ : u16 c.keySetMetadataPoolUsed = c.keySetMetadataPoolUsed := u16_of_lt (by omega)
  have h₂ : u16 want = want := u16_of_lt (by omega)
  have h₃ : u16 (c.keySetMetadataPoolUsed + want) = c.keySetMetadataPoolUsed + want :=
    u16_of_lt (by omega)
  rw [dfcKeySetMetadataResize, hcan, metadataRelease_vacant ho hl]
  simp only [Bool.not_true, Bool.false_eq_true, if_false, hw, h₁, h₂, h₃]

theorem keySetsResize_room {c : DfcCredential} {i count keyCount maxSize : ℕ}
    (hv : (c.apps i).Vacant) (hused : PoolsBounded c) (hk : (c.apps i).keyLen ≤ dfcMaxKeyLen)
    (h : SetsRoom c count keyCount maxSize) :
    dfcCredentialKeySetsResize c i count keyCount (c.apps i).keyLen maxSize =
      (reserveKeySets c i count keyCount maxSize, true) := by
  have hn := h.perSet
  have hc := h.sets
  have hw := h.width
  have hpos : setMetadataLen count keyCount ≠ 0 := by
    rw [setMetadataLen]
    omega
  have hcan := (metadataCanResize_vacant hv.keySetMetadataOffset hv.keySetMetadataLen hused.2).mpr
    h.metadata
  have htotal : keyCount ≤ keyCount * count := Nat.le_mul_of_pos_right _ (by
    simp only [dfcKeySetMinimumCount] at hc; omega)
  have hv' : Vacant c (some i) := hv
  have hresize := (resizeTotal_vacant hv' hused.1 maxSize hn.2 htotal (by omega) hk
    (by simp only [dfcMaxKeyLen]; omega)).mpr
    ⟨by rw [storedKeyLength_eq hw]; exact h.keys, rfl⟩
  rw [storedKeyLength_eq hw, setKeyCounts_cutSets h hk] at hresize
  rw [dfcCredentialKeySetsResize, if_neg (by omega)]
  simp only [setMetadataLen_eq hn hc, hpos, hcan, hresize, Bool.not_true,
    Bool.false_eq_true, or_self, if_false]
  have hvacant : dfcKeySetMetadataResize (reserveSetKeys c i count keyCount maxSize) i
      (setMetadataLen count keyCount) = _ :=
    metadataResize_vacant
      (by simpa [reserveSetKeys, DfcCredential.modifyApp] using hv.keySetMetadataOffset)
      (by simpa [reserveSetKeys, DfcCredential.modifyApp] using hv.keySetMetadataLen)
      hpos h.metadata
  rw [hvacant]
  have hu₁ : u8 count = count := u8_of_lt (by simp only [dfcMaxKeySets] at hc; omega)
  have hu₂ : u8 maxSize = maxSize := u8_of_lt (by omega)
  dsimp only
  rw [metadataSlice_reserved h]
  · simp only [keySetStoreInitializedMask, reserveKeySets, reserveSetKeys, DfcCredential.modifyApp,
      Function.update_self, Function.update_idem, DfcApplication.reserveKeySets, hu₁, hu₂]
  · rfl
  · simp [DfcCredential.modifyApp, hu₁]
  · simp [reserveSetKeys, DfcCredential.modifyApp]
  · simp [reserveSetKeys, DfcCredential.modifyApp]
  · simp [DfcCredential.modifyApp]

theorem keySetsResize_vacant {c c' : DfcCredential} {i count keyCount maxSize : ℕ}
    (hv : (c.apps i).Vacant) (hused : PoolsBounded c) (hk : (c.apps i).keyLen ≤ dfcMaxKeyLen)
    (hn : 0 < keyCount ∧ keyCount ≤ dfcMaxKeys)
    (hc : dfcKeySetMinimumCount ≤ count ∧ count ≤ dfcMaxKeySets)
    (hw : maxSize = 16 ∨ maxSize = 24) :
    dfcCredentialKeySetsResize c i count keyCount (c.apps i).keyLen maxSize = (c', true) ↔
      SetsRoom c count keyCount maxSize ∧ c' = reserveKeySets c i count keyCount maxSize := by
  constructor
  · intro hr
    suffices h : SetsRoom c count keyCount maxSize by
      rw [keySetsResize_room hv hused hk h, Prod.mk.injEq] at hr
      exact ⟨h, hr.1.symm⟩
    have htotal : keyCount ≤ keyCount * count := Nat.le_mul_of_pos_right _ (by
      simp only [dfcKeySetMinimumCount] at hc; omega)
    rw [dfcCredentialKeySetsResize, if_neg (by omega)] at hr
    simp only [setMetadataLen_eq hn hc] at hr
    by_cases hmeta : setMetadataLen count keyCount = 0 ∨
        (!dfcKeySetMetadataCanResize c i (setMetadataLen count keyCount)) = true
    · rw [if_pos hmeta] at hr
      simp at hr
    · rw [if_neg hmeta] at hr
      simp only [not_or, Bool.not_eq_true', Bool.not_eq_false] at hmeta
      refine ⟨hn, hc, hw, ?_, (metadataCanResize_vacant hv.keySetMetadataOffset
        hv.keySetMetadataLen hused.2).mp hmeta.2⟩
      cases hx : dfcCredentialKeysResizeTotal c (some i) keyCount (keyCount * count)
          (c.apps i).keyLen maxSize with
      | mk c₁ ok =>
        cases ok with
        | false => simp [hx] at hr
        | true =>
          have hv' : Vacant c (some i) := hv
          have := (resizeTotal_vacant hv' hused.1 maxSize hn.2 htotal (by omega) hk
            (by simp only [dfcMaxKeyLen]; omega)).mp hx
          rw [storedKeyLength_eq hw] at this
          exact this.1
  · rintro ⟨h, rfl⟩
    exact keySetsResize_room hv hused hk h

/-- What the decoder makes of key sets. -/
def placeKeySets (c : DfcCredential) (i keyCount maxSize : ℕ) (settings : UInt8)
    (sets : List KeySetImage) : DfcCredential :=
  let L := freshLayout c sets.length keyCount maxSize
  let c' := (reserveKeySets c i sets.length keyCount maxSize).modifyApp i fun a =>
    { a with keySetSettings := settings }
  putMems c' i ((memsOf c' i).storeSets L 0 sets)

/-- The key sets that can be loaded into a vacant record. -/
structure KeySetsLoadable (c : DfcCredential) (i keyCount maxSize : ℕ) (settings : UInt8)
    (sets : List KeySetImage) : Prop where
  room : SetsRoom c sets.length keyCount maxSize
  each : ∀ s ∈ sets, s.Loadable keyCount maxSize
  initialized : dfcCredentialKeySetIsInitialized (placeKeySets c i keyCount maxSize settings sets)
    ((placeKeySets c i keyCount maxSize settings sets).apps i) 0 = true

theorem HasLayout.modifySettings {c : DfcCredential} {i : ℕ} {L : SetLayout} (h : HasLayout c i L)
    (settings : UInt8) :
    HasLayout (c.modifyApp i fun a => { a with keySetSettings := settings }) i L where
  numKeys := by simpa [DfcCredential.modifyApp] using h.numKeys
  numKeySets := by simpa [DfcCredential.modifyApp] using h.numKeySets
  keyOffset := by simpa [DfcCredential.modifyApp] using h.keyOffset
  keyPoolLen := by simpa [DfcCredential.modifyApp] using h.keyPoolLen
  keyStorageLen := by simpa [DfcCredential.modifyApp] using h.keyStorageLen
  stride := h.stride
  keyCount := h.keyCount
  setCount := h.setCount
  keysFit := h.keysFit
  pool := h.pool
  metadata := by simpa [DfcCredential.modifyApp, dfcKeySetMetadataSlice] using h.metadata

theorem hasLayout_settings {c : DfcCredential} {i count keyCount maxSize : ℕ} (settings : UInt8)
    (h : SetsRoom c count keyCount maxSize) :
    HasLayout ((reserveKeySets c i count keyCount maxSize).modifyApp i fun a =>
      { a with keySetSettings := settings }) i (freshLayout c count keyCount maxSize) :=
  (hasLayout_reserved h).modifySettings settings

theorem decodeKeySets_vacant {c c' : DfcCredential} {i : ℕ} {body : Slice}
    (hb : body.length ≤ 0xFFFF) (hv : (c.apps i).Vacant) (hused : PoolsBounded c)
    (hk : (c.apps i).keyLen ≤ dfcMaxKeyLen) :
    decodeKeySets c i body = .ok c' ↔ ∃ keyCount maxSize settings sets,
      body = encFields (keySetsComponents keyCount maxSize settings sets) ∧
      KeySetsLoadable c i keyCount maxSize settings sets ∧
      c' = placeKeySets c i keyCount maxSize settings sets := by
  rw [decodeKeySets_eq_ok hb]
  refine exists_congr fun keyCount => exists_congr fun maxSize => exists_congr fun settings =>
    exists_congr fun sets => and_congr_right fun _ => ?_
  constructor
  · rintro ⟨hn, hw, hc, ⟨c₁, hc₁, hall, rfl⟩, hinit⟩
    obtain ⟨hroom, rfl⟩ := (keySetsResize_vacant hv hused hk hn hc hw).mp hc₁
    have hlayout := hasLayout_settings (i := i) settings hroom
    have hall' := (hlayout.allFrom_keySetLoadable (by simp [freshLayout])).mp hall
    have hfold := hlayout.foldl_loadKeySet 0 sets (by simp [freshLayout])
      fun s hs => (hall' s hs).count
    rw [hfold] at hinit ⊢
    exact ⟨⟨hroom, hall', hinit⟩, rfl⟩
  · rintro ⟨h, rfl⟩
    have hlayout := hasLayout_settings (i := i) settings h.room
    have hfold := hlayout.foldl_loadKeySet 0 sets (by simp [freshLayout])
      fun s hs => (h.each s hs).count
    exact ⟨h.room.perSet, h.room.width, h.room.sets,
      ⟨_, keySetsResize_room hv hused hk h.room,
        (hlayout.allFrom_keySetLoadable (by simp [freshLayout])).mpr h.each, by rw [hfold]; rfl⟩,
      h.initialized⟩

end DfcCore
