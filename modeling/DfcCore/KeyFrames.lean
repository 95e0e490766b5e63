import DfcCore.FileFrames

/-!
# Key operations touch only their owner

What the other owners of keys read back after a key operation. An owner is compared
through its record without the places, the octets of its key slice and, for an
application, the octets of its metadata slice. `OwnerView` is what the accessors show
of an owner; it is determined by these three.
-/
namespace DfcCore
open Arena
variable {z : Prop}

/-- Octets a key of the owner occupies. -/
def keyStrideOf (c : DfcCredential) : Option ℕ → ℕ
  | some i => dfcCredentialStoredKeyLength (c.apps i).keyStorageLen
  | none => dfcCredentialStoredKeyLength c.piccKeyLen

/-- Everything the key accessors read of one owner. The PICC record has no key sets. -/
structure OwnerView where
  keys : ℕ → Option (List UInt8)
  keyVersions : Mem
  keysInSet : ℕ → ℕ → Option (List UInt8)
  keyVersionsInSet : ℕ → ℕ → Option UInt8
  setVersions : ℕ → Option UInt8
  setTypes : ℕ → Option UInt8
  initialized : ℕ → Bool

def keyOctets (c : DfcCredential) (p : Option ℕ) (slot : ℕ) : Option (List UInt8) :=
  (dfcCredentialKey c p slot).map fun k => c.keyPool.read k (keyStrideOf c p)

def keyOctetsInSet (c : DfcCredential) (i set slot : ℕ) : Option (List UInt8) :=
  (dfcCredentialKeyInSet c (c.apps i) set slot).map fun k =>
    c.keyPool.read k (keyStrideOf c (some i))

def ownerView (c : DfcCredential) (p : Option ℕ) : OwnerView where
  keys := keyOctets c p
  keyVersions := keyVersionsOf c p
  keysInSet := match p with
    | some i => keyOctetsInSet c i
    | none => fun _ _ => none
  keyVersionsInSet := match p with
    | some i => dfcCredentialKeyVersionInSet c (c.apps i)
    | none => fun _ _ => none
  setVersions := match p with
    | some i => fun set => (dfcCredentialKeySetVersion c (c.apps i) set).map c.keySetMetadataPool
    | none => fun _ => none
  setTypes := match p with
    | some i => fun set => (dfcCredentialKeySetType c (c.apps i) set).map c.keySetMetadataPool
    | none => fun _ => none
  initialized := match p with
    | some i => dfcCredentialKeySetIsInitialized c (c.apps i)
    | none => fun _ => false

/-- The key slice of `p` in `c` is that of `q` in `c'`. -/
structure SameKeys (c c' : DfcCredential) (p q : Option ℕ) : Prop where
  len : keyPoolLenOf c' q = keyPoolLenOf c p
  slice : c'.keyPool.read (keyOffsetOf c' q) (keyPoolLenOf c p) =
    c.keyPool.read (keyOffsetOf c p) (keyPoolLenOf c p)

/-- The PICC record of `c` is that of `c'`. -/
structure SamePicc (c c' : DfcCredential) : Prop extends SameKeys c c' none none where
  numKeys : c'.piccNumKeys = c.piccNumKeys
  keyLen : c'.piccKeyLen = c.piccKeyLen
  keyVersions : c'.piccKeyVersions = c.piccKeyVersions

/-- Application `i` of `c` is application `j` of `c'`. -/
structure SameApp (c c' : DfcCredential) (i j : ℕ) : Prop
    extends SameKeys c c' (some i) (some j) where
  record : (c'.apps j).unplaced = (c.apps i).unplaced
  metadata : c'.keySetMetadataPool.read (c'.apps j).keySetMetadataOffset
      (c.apps i).keySetMetadataLen =
    c.keySetMetadataPool.read (c.apps i).keySetMetadataOffset (c.apps i).keySetMetadataLen

/-- Owner `p` of `c` is owner `q` of `c'`. -/
def SameOwner (c c' : DfcCredential) : Option ℕ → Option ℕ → Prop
  | none, none => SamePicc c c'
  | some i, some j => SameApp c c' i j
  | _, _ => False

theorem SameKeys.trans {a b c : DfcCredential} {p q r : Option ℕ} (h : SameKeys a b p q)
    (h' : SameKeys b c q r) : SameKeys a c p r where
  len := h'.len.trans h.len
  slice := by
    have hs := h'.slice
    rw [h.len] at hs
    exact hs.trans h.slice

theorem SamePicc.trans {a b c : DfcCredential} (h : SamePicc a b) (h' : SamePicc b c) :
    SamePicc a c where
  toSameKeys := h.toSameKeys.trans h'.toSameKeys
  numKeys := h'.numKeys.trans h.numKeys
  keyLen := h'.keyLen.trans h.keyLen
  keyVersions := h'.keyVersions.trans h.keyVersions

theorem SameApp.trans {a b c : DfcCredential} {i j k : ℕ} (h : SameApp a b i j)
    (h' : SameApp b c j k) : SameApp a c i k where
  toSameKeys := h.toSameKeys.trans h'.toSameKeys
  record := h'.record.trans h.record
  metadata := by
    have hs := h'.metadata
    rw [keySetMetadataLen_of_unplaced h.record] at hs
    exact hs.trans h.metadata

theorem SameOwner.refl (c : DfcCredential) (p : Option ℕ) : SameOwner c c p p := by
  cases p with
  | none => exact ⟨⟨rfl, rfl⟩, rfl, rfl, rfl⟩
  | some i => exact ⟨⟨rfl, rfl⟩, rfl, rfl⟩

theorem SameOwner.trans {a b c : DfcCredential} {p q r : Option ℕ} (h : SameOwner a b p q)
    (h' : SameOwner b c q r) : SameOwner a c p r := by
  match p, q, r, h, h' with
  | none, none, none, h, h' => exact SamePicc.trans h h'
  | some _, some _, some _, h, h' => exact SameApp.trans h h'

/-- Keys read from equal slices of pools in order are equal. -/
theorem SameKeys.keyAt {n m : ℕ} {c c' : DfcCredential} {p q : Option ℕ} (hs : SameKeys c c' p q)
    (h : KeyPoolInv z n c) (h' : KeyPoolInv z m c') (hp : p ∈ keyOwners n) (hq : q ∈ keyOwners m)
    (numKeys keyLen slot : ℕ) :
    (dfcCredentialKeyAt c' (keyOffsetOf c' q) (keyPoolLenOf c' q) numKeys keyLen slot).map
        (fun k => c'.keyPool.read k (dfcCredentialStoredKeyLength keyLen)) =
      (dfcCredentialKeyAt c (keyOffsetOf c p) (keyPoolLenOf c p) numKeys keyLen slot).map
        (fun k => c.keyPool.read k (dfcCredentialStoredKeyLength keyLen)) := by
  rw [dfcCredentialKeyAt, dfcCredentialKeyAt, hs.len]
  by_cases h0 : keyPoolLenOf c p = 0
  · simp only [h0, or_true, if_true, Option.map_none]
  obtain ⟨hb, hoff⟩ := h.slice hp h0
  obtain ⟨hb', hoff'⟩ := h'.slice hq (by rw [hs.len]; exact h0)
  rw [hs.len] at hb'
  have hheld : ¬ (keyOffsetOf c p = dfcKeyPoolNone ∨ keyPoolLenOf c p = 0) := by
    simp only [hoff, h0, or_self, not_false_iff]
  have hheld' : ¬ (keyOffsetOf c' q = dfcKeyPoolNone ∨ keyPoolLenOf c p = 0) := by
    simp only [hoff', h0, or_self, not_false_iff]
  rw [if_neg hheld, if_neg hheld']
  by_cases h₁ : numKeys ≤ slot
  · rw [if_pos h₁, if_pos h₁]
    rfl
  rw [if_neg h₁, if_neg h₁]
  dsimp only
  by_cases h₂ : keyPoolLenOf c p < (slot + 1) * dfcCredentialStoredKeyLength keyLen
  · rw [if_pos h₂, if_pos h₂]
    rfl
  rw [if_neg h₂, if_neg h₂, if_neg (by omega), if_neg (by omega), Option.map_some, Option.map_some]
  congr 1
  apply Mem.read_congr
  intro t ht
  rw [Nat.add_mul, one_mul] at h₂
  rw [add_assoc, add_assoc]
  exact Mem.read_eq_iff.mp hs.slice _ (by omega)

/-- In a pool in order the metadata of an application resolves by its counts alone. -/
theorem MetadataPoolInv.slice_eq {n : ℕ} {c : DfcCredential} (h : MetadataPoolInv n c) {i : ℕ}
    (hi : i < n) :
    dfcKeySetMetadataSlice c (c.apps i) =
      if (c.apps i).numKeySets < dfcKeySetMinimumCount ∨
          dfcKeySetMetadataLength (c.apps i).numKeySets (c.apps i).numKeys = 0 ∨
          (c.apps i).keySetMetadataLen ≠
            dfcKeySetMetadataLength (c.apps i).numKeySets (c.apps i).numKeys
      then none else some (c.apps i).keySetMetadataOffset := by
  have hfit := h.fit
  rw [dfcKeySetMetadataSlice]
  by_cases h₁ : (c.apps i).numKeySets < dfcKeySetMinimumCount
  · rw [if_pos (Or.inl h₁), if_pos (Or.inl h₁)]
  rw [if_neg (by omega)]
  dsimp only
  by_cases h₂ : dfcKeySetMetadataLength (c.apps i).numKeySets (c.apps i).numKeys = 0
  · rw [if_pos (Or.inl h₂), if_pos (Or.inr (Or.inl h₂))]
  by_cases h₃ : (c.apps i).keySetMetadataLen ≠
      dfcKeySetMetadataLength (c.apps i).numKeySets (c.apps i).numKeys
  · rw [if_pos (Or.inr (Or.inl h₃)), if_pos (Or.inr (Or.inr h₃))]
  rw [not_not] at h₃
  obtain ⟨hb, hoff⟩ := h.slice hi (by rw [h₃]; exact h₂)
  rw [if_neg (by omega), if_neg (by omega)]

/-- Metadata of the same application resolves in both credentials or in neither. -/
theorem SameApp.metadataSlice {n m : ℕ} {c c' : DfcCredential} {i j : ℕ} (hs : SameApp c c' i j)
    (h : MetadataPoolInv n c) (h' : MetadataPoolInv m c') (hi : i < n) (hj : j < m) :
    dfcKeySetMetadataSlice c (c.apps i) = none ∧ dfcKeySetMetadataSlice c' (c'.apps j) = none ∨
    dfcKeySetMetadataSlice c (c.apps i) = some (c.apps i).keySetMetadataOffset ∧
      dfcKeySetMetadataSlice c' (c'.apps j) = some (c'.apps j).keySetMetadataOffset ∧
      ∀ k < (c.apps i).keySetMetadataLen,
        c'.keySetMetadataPool ((c'.apps j).keySetMetadataOffset + k) =
          c.keySetMetadataPool ((c.apps i).keySetMetadataOffset + k) := by
  rw [h.slice_eq hi, h'.slice_eq hj, numKeySets_of_unplaced hs.record,
    numKeys_of_unplaced hs.record, keySetMetadataLen_of_unplaced hs.record]
  split_ifs
  · exact Or.inl ⟨rfl, rfl⟩
  · exact Or.inr ⟨rfl, rfl, Mem.read_eq_iff.mp hs.metadata⟩

theorem keyVersions_of_unplaced {a b : DfcApplication} (h : a.unplaced = b.unplaced) :
    a.keyVersions = b.keyVersions :=
  show a.unplaced.keyVersions = b.unplaced.keyVersions by rw [h]

/-- Place of a key version in the metadata slice. -/
theorem keyVersionPlace_lt {sets keys set slot : ℕ} (hset : set < sets) (h0 : set ≠ 0)
    (hslot : slot < keys) :
    2 * sets + 2 + (set - 1) * keys + slot < 2 * sets + 2 + (sets - 1) * keys := by
  have hle : set - 1 + 1 ≤ sets - 1 := by omega
  have hmul := Nat.mul_le_mul_right keys hle
  rw [Nat.add_mul, one_mul] at hmul
  omega

theorem SameApp.ownerView_eq {n m : ℕ} {c c' : DfcCredential} {i j : ℕ} (hs : SameApp c c' i j)
    (h : PoolCore z n c) (h' : PoolCore z m c') (hi : i < n) (hj : j < m) :
    ownerView c' (some j) = ownerView c (some i) := by
  have hkeys := numKeys_of_unplaced hs.record
  have hsets := numKeySets_of_unplaced hs.record
  have hstore := keyStorageLen_of_unplaced hs.record
  have hat := hs.toSameKeys.keyAt h.keys h'.keys (by simpa using hi) (by simpa using hj)
  have hslice := hs.metadataSlice h.metadata h'.metadata hi hj
  have hk : keyOctets c' (some j) = keyOctets c (some i) := by
    funext slot
    simp only [keyOctets, dfcCredentialKey, keyStrideOf, hkeys, hstore]
    exact hat _ _ _
  have hks : keyOctetsInSet c' j = keyOctetsInSet c i := by
    funext set slot
    simp only [keyOctetsInSet, dfcCredentialKeyInSet, keyStrideOf, hkeys, hstore, hsets]
    split_ifs
    · rfl
    · exact hat _ _ _
  have hkv : dfcCredentialKeyVersionInSet c' (c'.apps j) =
      dfcCredentialKeyVersionInSet c (c.apps i) := by
    funext set slot
    simp only [dfcCredentialKeyVersionInSet, hkeys, hsets, keyVersions_of_unplaced hs.record]
    split_ifs with h₁ h₂
    · rfl
    · rfl
    · obtain ⟨ha, hb⟩ | ⟨ha, hb, hread⟩ := hslice
      · rw [ha, hb]
      · have hplace : 2 * (c.apps i).numKeySets + 2 + (set - 1) * (c.apps i).numKeys + slot <
            (c.apps i).keySetMetadataLen := by
          rw [(keySetMetadataSlice_some ha).len]
          exact keyVersionPlace_lt (by omega) h₂ (by omega)
        rw [ha, hb]
        simp only [hread _ hplace]
  have hsv : (fun set => (dfcCredentialKeySetVersion c' (c'.apps j) set).map
      c'.keySetMetadataPool) =
      fun set => (dfcCredentialKeySetVersion c (c.apps i) set).map c.keySetMetadataPool := by
    funext set
    simp only [dfcCredentialKeySetVersion, hsets]
    obtain ⟨ha, hb⟩ | ⟨ha, hb, hread⟩ := hslice
    · rw [ha, hb]
      rfl
    · rw [ha, hb]
      by_cases hset : set < (c.apps i).numKeySets
      · simp only [if_pos hset, Option.map_some]
        rw [hread _ (by rw [(keySetMetadataSlice_some ha).len]; omega)]
      · simp only [if_neg hset, Option.map_none]
  have hst : (fun set => (dfcCredentialKeySetType c' (c'.apps j) set).map c'.keySetMetadataPool) =
      fun set => (dfcCredentialKeySetType c (c.apps i) set).map c.keySetMetadataPool := by
    funext set
    simp only [dfcCredentialKeySetType, hsets]
    obtain ⟨ha, hb⟩ | ⟨ha, hb, hread⟩ := hslice
    · rw [ha, hb]
      rfl
    · rw [ha, hb]
      by_cases hset : set < (c.apps i).numKeySets
      · simp only [if_pos hset, Option.map_some, add_assoc]
        rw [hread _ (by rw [(keySetMetadataSlice_some ha).len]; omega)]
      · simp only [if_neg hset, Option.map_none]
  have hin : dfcCredentialKeySetIsInitialized c' (c'.apps j) =
      dfcCredentialKeySetIsInitialized c (c.apps i) := by
    funext set
    simp only [dfcCredentialKeySetIsInitialized, hsets]
    obtain ⟨ha, hb⟩ | ⟨ha, hb, hread⟩ := hslice
    · rw [ha, hb]
    · have hlen := (keySetMetadataSlice_some ha).len
      rw [ha, hb]
      simp only [keySetInitializedMask, hsets, add_assoc]
      rw [hread _ (by omega), hread _ (by omega)]
  rw [ownerView, ownerView]
  simp only [hk, hks, hkv, hsv, hst, hin, keyVersionsOf, keyVersions_of_unplaced hs.record]

theorem SameOwner.ownerView_eq {n m : ℕ} {c c' : DfcCredential} {p q : Option ℕ}
    (hs : SameOwner c c' p q) (h : PoolCore z n c) (h' : PoolCore z m c') (hp : p ∈ keyOwners n)
    (hq : q ∈ keyOwners m) : ownerView c' q = ownerView c p := by
  match p, q, hs with
  | none, none, hs =>
    have hs : SamePicc c c' := hs
    have hk : keyOctets c' none = keyOctets c none := by
      funext slot
      simp only [keyOctets, dfcCredentialKey, keyStrideOf, hs.numKeys, hs.keyLen]
      exact hs.toSameKeys.keyAt h.keys h'.keys hp hq _ _ _
    rw [ownerView, ownerView]
    simp only [hk, keyVersionsOf, hs.keyVersions]
  | some i, some j, hs =>
    exact SameApp.ownerView_eq hs h h' ((some_mem_keyOwners n i).mp hp)
      ((some_mem_keyOwners m j).mp hq)

theorem sameOwner_modifyApp (c : DfcCredential) {i : ℕ} (f : DfcApplication → DfcApplication)
    {q : Option ℕ} (hq : q ≠ some i) : SameOwner c (c.modifyApp i f) q q := by
  cases q with
  | none => exact ⟨⟨rfl, rfl⟩, rfl, rfl, rfl⟩
  | some j =>
    have hj : (c.modifyApp i f).apps j = c.apps j := by
      rw [modifyApp_apps, if_neg (fun h => hq (by rw [h]))]
    refine ⟨⟨?_, ?_⟩, ?_, ?_⟩
    · simp only [keyPoolLenOf, hj]
    · simp only [keyOffsetOf, hj]
      rfl
    · rw [hj]
    · rw [hj]
      rfl

theorem metadataCompact_pool {c : DfcCredential} {o l : ℕ} (hl : l ≠ 0)
    (ho : o ≠ dfcKeySetMetadataPoolNone)
    (hfit : c.keySetMetadataPoolUsed ≤ dfcKeySetMetadataPoolSize) :
    (dfcKeySetMetadataCompactAfterRelease c o l).keySetMetadataPool =
      closeHoleMem c.keySetMetadataPool c.keySetMetadataPoolUsed o l := by
  have hu : u16 (c.keySetMetadataPoolUsed - l) = c.keySetMetadataPoolUsed - l := by
    apply u16_of_lt
    simp only [dfcKeySetMetadataPoolSize, dfcKeyPoolSize] at hfit
    omega
  rw [dfcKeySetMetadataCompactAfterRelease, if_neg (by simp [hl, ho])]
  simp only [hu, move_tail_eq, closeHoleMem]

/-- Releasing the metadata of `i` keeps that of `j`. -/
theorem MetadataPoolInv.release_slice {n : ℕ} {c : DfcCredential} (h : MetadataPoolInv n c)
    {i j : ℕ} (hi : i < n) (hj : j < n) (hji : j ≠ i) :
    (dfcKeySetMetadataRelease c i).keySetMetadataPool.read
        ((dfcKeySetMetadataRelease c i).apps j).keySetMetadataOffset
        (c.apps j).keySetMetadataLen =
      c.keySetMetadataPool.read (c.apps j).keySetMetadataOffset (c.apps j).keySetMetadataLen := by
  by_cases h0 : (c.apps j).keySetMetadataLen = 0
  · rw [h0]; rfl
  rw [dfcKeySetMetadataRelease]
  by_cases hn : (c.apps i).keySetMetadataLen = 0
  · rw [if_pos (Or.inr hn), modifyApp_apps, if_neg hji]
    rfl
  obtain ⟨hb, hoff⟩ := h.slice hi hn
  obtain ⟨hbj, hoffj⟩ := h.slice hj h0
  have hfit := h.fit
  have hu : (c.modifyApp i DfcApplication.dropMetadata).keySetMetadataPoolUsed =
    c.keySetMetadataPoolUsed := rfl
  have hd := h.packed.disjoint i (Finset.mem_range.mpr hi) j (Finset.mem_range.mpr hj)
    (Ne.symm hji) hn h0
  rw [if_neg (by simp [hoff, hn]), if_neg (by rw [hu]; omega)]
  rw [metadataCompact_pool hn hoff (by rw [hu]; exact hfit), metadataCompact_offset hn hoff,
    modifyApp_apps, if_neg hji, hu, poolOffsetAfterRelease_eq (by
      simp only [dfcKeySetMetadataPoolSize, dfcKeyPoolSize] at hfit
      omega)]
  exact read_closeHoleMem hb hn h0 hbj hd

theorem MetadataPoolInv.sameOwner_release {n : ℕ} {c : DfcCredential} (h : MetadataPoolInv n c)
    {i : ℕ} (hi : i < n) {q : Option ℕ} (hq : q ∈ keyOwners n) (hqi : q ≠ some i) :
    SameOwner c (dfcKeySetMetadataRelease c i) q q := by
  obtain ⟨apps, pool, used, hf⟩ := metadataRelease_frame c i
  cases q with
  | none =>
    rw [hf]
    exact ⟨⟨rfl, rfl⟩, rfl, rfl, rfl⟩
  | some j =>
    have hji : j ≠ i := fun he => hqi (by rw [he])
    have hj : j < n := (some_mem_keyOwners n j).mp hq
    obtain ⟨hrec, hko⟩ := metadataRelease_apps c i j
    rw [if_neg hji] at hrec
    refine ⟨⟨keyPoolLen_of_unplaced hrec, ?_⟩, hrec, h.release_slice hi hj hji⟩
    simp only [keyOffsetOf, hko]
    rw [hf]

/-- Closing the hole of `p` keeps the key slice of `q`. The premises are those of
`KeyPoolInv.compact`. -/
theorem KeyPoolInv.sameKeys_compact {n : ℕ} {c c' : DfcCredential} (h : KeyPoolInv z n c)
    {p q : Option ℕ} (hp : p ∈ keyOwners n) (hn : keyPoolLenOf c p ≠ 0)
    (hu : c'.keyPoolUsed = c.keyPoolUsed) (hm : c'.keyPool = c.keyPool)
    (ho : keyOffsetOf c' q = keyOffsetOf c q) (hl : keyPoolLenOf c' q = keyPoolLenOf c q)
    (hq : q ∈ keyOwners n) (hqp : q ≠ p) :
    SameKeys c (dfcKeyPoolCompactAfterRelease c' (keyOffsetOf c p) (keyPoolLenOf c p)) q q := by
  refine ⟨by rw [keyPoolCompact_len, hl], ?_⟩
  by_cases h0 : keyPoolLenOf c q = 0
  · rw [h0]; rfl
  obtain ⟨hb, hoff⟩ := h.slice hp hn
  obtain ⟨hbq, -⟩ := h.slice hq h0
  have hfit := h.fit
  have hd := h.packed.disjoint p hp q hq (Ne.symm hqp) hn h0
  rw [(keyPoolCompact_pool hn hoff (by rw [hu]; exact hfit)).2, keyPoolCompact_offset hn hoff, ho,
    hm, hu, poolOffsetAfterRelease_eq (by simp only [dfcKeyPoolSize] at hfit; omega)]
  exact read_closeHoleMem hb hn h0 hbq hd

/-- Compaction of the key pool leaves the metadata pool alone. -/
theorem keyPoolCompact_metadata (c : DfcCredential) (o l : ℕ) :
    (dfcKeyPoolCompactAfterRelease c o l).keySetMetadataPool = c.keySetMetadataPool := by
  obtain ⟨_, _, _, _, hf⟩ := keyPoolCompact_frame c o l
  rw [hf]

/-- Dropping the record of `p` keeps the other owners, before the hole is closed. -/
theorem PoolCore.sameOwner_dropKeyRecord {n : ℕ} {c : DfcCredential} (h : PoolCore z n c)
    {p q : Option ℕ} (hp : p ∈ keyOwners n) (hq : q ∈ keyOwners n) (hqp : q ≠ p) :
    SameOwner c (dfcCredentialDropKeyRecord c p) q q := by
  cases p with
  | none =>
    cases q with
    | none => exact absurd rfl hqp
    | some j => exact ⟨⟨rfl, rfl⟩, rfl, rfl⟩
  | some i =>
    have hi : i < n := (some_mem_keyOwners n i).mp hp
    rw [dropKeyRecord_some]
    have hframe : MetadataPoolInv n (c.modifyApp i DfcApplication.dropKeys) := by
      refine h.metadata.frame rfl (fun j => ?_) (fun j => ?_)
      all_goals
        rw [modifyApp_apps]
        split_ifs with hj
        · rw [hj]; rfl
        · rfl
    exact (sameOwner_modifyApp c _ hqp).trans (hframe.sameOwner_release hi hq hqp)

theorem PoolCore.sameOwner_keysRelease {n : ℕ} {c : DfcCredential} (h : PoolCore z n c)
    {p q : Option ℕ} (hp : p ∈ keyOwners n) (hq : q ∈ keyOwners n) (hqp : q ≠ p) :
    SameOwner c (dfcCredentialKeysRelease c p) q q := by
  have hdrop := h.sameOwner_dropKeyRecord hp hq hqp
  rw [dfcCredentialKeysRelease]
  by_cases hheld : keyOffsetOf c p ≠ dfcKeyPoolNone ∧ 0 < keyPoolLenOf c p
  swap
  · rw [if_neg hheld]
    exact hdrop
  rw [if_pos hheld]
  obtain ⟨hpool, hused⟩ := dropKeyRecord_pool c p
  have ho := dropKeyRecord_offset c p q
  have hl := dropKeyRecord_len c p q
  rw [if_neg hqp] at ho hl
  have hkeys := h.keys.sameKeys_compact hp (Nat.ne_of_gt hheld.2) hused hpool ho hl hq hqp
  cases q with
  | none =>
    have hdrop : SamePicc c (dfcCredentialDropKeyRecord c p) := hdrop
    obtain ⟨_, _, _, _, hf⟩ := keyPoolCompact_frame (dfcCredentialDropKeyRecord c p)
      (keyOffsetOf c p) (keyPoolLenOf c p)
    refine ⟨hkeys, ?_, ?_, ?_⟩
    · rw [hf]; exact hdrop.numKeys
    · rw [hf]; exact hdrop.keyLen
    · rw [hf]; exact hdrop.keyVersions
  | some j =>
    have hdrop : SameApp c (dfcCredentialDropKeyRecord c p) j j := hdrop
    obtain ⟨hrec, hmo⟩ := keyPoolCompact_apps (dfcCredentialDropKeyRecord c p)
      (keyOffsetOf c p) (keyPoolLenOf c p) j
    refine ⟨hkeys, hrec.trans hdrop.record, ?_⟩
    rw [keyPoolCompact_metadata, hmo]
    exact hdrop.metadata

theorem sameOwner_setKeyCounts (c : DfcCredential) {p q : Option ℕ} (a b d : ℕ) (hqp : q ≠ p) :
    SameOwner c (setKeyCounts c p a b d) q q := by
  cases p with
  | none =>
    cases q with
    | none => exact absurd rfl hqp
    | some j => exact ⟨⟨rfl, rfl⟩, rfl, rfl⟩
  | some i =>
    simp only [setKeyCounts, setKeyStorageLen, setKeyLen, setNumKeys, modifyApp_modifyApp]
    exact sameOwner_modifyApp c _ hqp

theorem sameOwner_setCountsOnly (c : DfcCredential) {p q : Option ℕ} (a b : ℕ) (hqp : q ≠ p) :
    SameOwner c (setKeyLen (setNumKeys c p a) p b) q q := by
  cases p with
  | none =>
    cases q with
    | none => exact absurd rfl hqp
    | some j => exact ⟨⟨rfl, rfl⟩, rfl, rfl⟩
  | some i =>
    simp only [setKeyLen, setNumKeys, modifyApp_modifyApp]
    exact sameOwner_modifyApp c _ hqp

/-- A key slice cut behind the used part overlaps no other. -/
theorem KeyPoolInv.sameOwner_cut {n : ℕ} {c : DfcCredential} (h : KeyPoolInv z n c)
    {p q : Option ℕ} (want : ℕ) (hq : q ∈ keyOwners n) (hqp : q ≠ p) :
    SameOwner c (dfcCredentialCutKeySlice c p want) q q := by
  have ho := cutKeySlice_offset c p want q
  have hl := cutKeySlice_len c p want q
  rw [if_neg hqp] at ho hl
  have hkeys : SameKeys c (dfcCredentialCutKeySlice c p want) q q := by
    refine ⟨hl, ?_⟩
    rw [ho, (cutKeySlice_pool c p want).1]
    by_cases h0 : keyPoolLenOf c q = 0
    · rw [h0]; rfl
    · exact Mem.read_fill_of_disjoint (Or.inl (h.slice hq h0).1)
  cases q with
  | none =>
    cases p with
    | none => exact absurd rfl hqp
    | some i => exact ⟨hkeys, rfl, rfl, rfl⟩
  | some j =>
    have hj := cutKeySlice_apps c p want j
    rw [if_neg (Ne.symm hqp)] at hj
    refine ⟨hkeys, by rw [hj], ?_⟩
    rw [hj]
    cases p <;> rfl

theorem PoolCore.sameOwner_keysResizeTotal {n : ℕ} {c : DfcCredential} (h : PoolCore z n c)
    {p q : Option ℕ} (hp : p ∈ keyOwners n) (hq : q ∈ keyOwners n) (hqp : q ≠ p)
    (numKeys allocatedKeys keyLen storageKeyLen : ℕ) :
    SameOwner c (dfcCredentialKeysResizeTotal c p numKeys allocatedKeys keyLen storageKeyLen).1
      q q := by
  have hrel := h.sameOwner_keysRelease hp hq hqp
  obtain hc | ⟨-, -, -, -, ⟨hc, -, -⟩ | ⟨hc, -⟩ | ⟨hc, -, -⟩⟩ :=
    keysResizeTotal_cases h.keys hp numKeys allocatedKeys keyLen storageKeyLen
  all_goals rw [hc]
  · exact SameOwner.refl c q
  · exact sameOwner_setKeyCounts c _ _ _ hqp
  · exact hrel.trans (sameOwner_setCountsOnly _ _ _ hqp)
  · exact (hrel.trans ((h.keysRelease hp).keys.sameOwner_cut _ hq hqp)).trans
      (sameOwner_setKeyCounts _ _ _ _ hqp)

/-- A metadata slice cut behind the used part overlaps no other. -/
theorem PoolCore.sameOwner_metadataResize {n : ℕ} {c : DfcCredential} (h : PoolCore z n c)
    {i : ℕ} (hi : i < n) {q : Option ℕ} (hq : q ∈ keyOwners n) (hqi : q ≠ some i) (want : ℕ) :
    SameOwner c (dfcKeySetMetadataResize c i want).1 q q := by
  have hrel := h.metadata.sameOwner_release hi hq hqi
  rw [dfcKeySetMetadataResize]
  by_cases hcan : (!dfcKeySetMetadataCanResize c i want) = true
  · rw [if_pos hcan]
    exact SameOwner.refl c q
  rw [if_neg hcan]
  by_cases h0 : want = 0
  · simp only [if_pos h0]
    exact hrel
  simp only [if_neg h0]
  refine hrel.trans ?_
  cases q with
  | none => exact ⟨⟨rfl, rfl⟩, rfl, rfl, rfl⟩
  | some j =>
    have hji : j ≠ i := fun he => hqi (by rw [he])
    have hj : j < n := (some_mem_keyOwners n j).mp hq
    refine ⟨⟨?_, ?_⟩, ?_, ?_⟩
    · simp only [keyPoolLenOf, modifyApp_apps, if_neg hji]
    · simp only [keyOffsetOf, modifyApp_apps, if_neg hji]
      rfl
    · simp only [modifyApp_apps, if_neg hji]
    · simp only [modifyApp_apps, if_neg hji]
      by_cases hl : ((dfcKeySetMetadataRelease c i).apps j).keySetMetadataLen = 0
      · rw [hl]; rfl
      · exact Mem.read_fill_of_disjoint (Or.inl ((h.metadata.release hi).1.slice hj hl).1)

theorem PoolInv.sameOwner_keysResize {n : ℕ} {c : DfcCredential} (h : PoolInv z n c)
    {p q : Option ℕ} (hp : p ∈ keyOwners n) (hq : q ∈ keyOwners n) (hqp : q ≠ p)
    (numKeys keyLen : ℕ) : SameOwner c (dfcCredentialKeysResize c p numKeys keyLen).1 q q := by
  have htotal := h.toPoolCore.sameOwner_keysResizeTotal hp hq hqp numKeys numKeys keyLen keyLen
  rw [dfcCredentialKeysResize]
  cases hr : dfcCredentialKeysResizeTotal c p numKeys numKeys keyLen keyLen with
  | mk c' ok =>
    have hs := h.toPoolCore.keysResizeTotal hp hr
    rw [hr] at htotal
    cases ok with
    | false => exact htotal
    | true =>
      cases p with
      | none => exact htotal
      | some i =>
        simp only [if_true] at hs
        have hi : i < n := (some_mem_keyOwners n i).mp hp
        have hedit : PoolCore z n (c'.modifyApp i fun app =>
            { app with numKeySets := 1, maxKeySize := 0, keySetSettings := 0 }) :=
          hs.core.modifyApp i (fun _ => rfl) (fun _ => rfl) (fun _ => rfl) (fun _ => rfl)
        exact (htotal.trans (sameOwner_modifyApp c' _ hqp)).trans
          (hedit.sameOwner_metadataResize hi hq hqp 0)

/-- The mask of `numKeySets` initialized sets. -/
def allSetsMask (numKeySets : ℕ) : UInt16 :=
  if numKeySets = 16 then 0xFFFF else (1 <<< UInt16.ofNat numKeySets) - 1

/-- The credential in which `dfc_credential_key_sets_resize` stores the mask: the keys and
the metadata of `i` have their new sizes. -/
def keySetsSized (c : DfcCredential) (i numKeySets numKeys activeKeyLen maxKeySize : ℕ) :
    DfcCredential :=
  ((dfcKeySetMetadataResize
    (dfcCredentialKeysResizeTotal c (some i) numKeys (numKeys * numKeySets) activeKeyLen
      maxKeySize).1 i (dfcKeySetMetadataLength numKeySets numKeys)).1).modifyApp i fun app =>
        { app with numKeySets := u8 numKeySets, maxKeySize := u8 maxKeySize }

/-- Everything `dfc_credential_key_sets_resize` can do when the pools are in order: refuse
without a change, or resize both slices of `i` and mark every set initialized. -/
theorem keySetsResize_cases {n : ℕ} {c : DfcCredential} (h : PoolCore z n c) {i : ℕ} (hi : i < n)
    (numKeySets numKeys activeKeyLen maxKeySize : ℕ) :
    dfcCredentialKeySetsResize c i numKeySets numKeys activeKeyLen maxKeySize = (c, false) ∨
    ∃ d, d = keySetsSized c i numKeySets numKeys activeKeyLen maxKeySize ∧ PoolCore z n d ∧
      MetadataSlice d (d.apps i) (d.apps i).keySetMetadataOffset ∧
      dfcCredentialKeySetsResize c i numKeySets numKeys activeKeyLen maxKeySize =
        (keySetStoreInitializedMask d (d.apps i) (d.apps i).keySetMetadataOffset
          (allSetsMask numKeySets), true) := by
  rw [dfcCredentialKeySetsResize, keySetsSized]
  by_cases h₁ : numKeySets < dfcKeySetMinimumCount ∨ dfcMaxKeySets < numKeySets
  · rw [if_pos h₁]
    exact Or.inl rfl
  rw [if_neg h₁]
  by_cases h₂ : dfcKeySetMetadataLength numKeySets numKeys = 0 ∨
      (!dfcKeySetMetadataCanResize c i (dfcKeySetMetadataLength numKeySets numKeys)) = true
  · simp only [h₂, if_true, true_or]
  simp only [h₂, if_false]
  rw [not_or] at h₂
  have hcan := (h.metadata.canResize hi).mp (by simpa using h₂.2)
  have hns : u8 numKeySets = numKeySets := by
    apply u8_of_lt
    simp only [dfcMaxKeySets, dfcKeySetMinimumCount] at h₁
    omega
  cases hr : dfcCredentialKeysResizeTotal c (some i) numKeys (numKeys * numKeySets) activeKeyLen
      maxKeySize with
  | mk c₁ ok =>
    have hs := h.keysResizeTotal ((some_mem_keyOwners n i).mpr hi) hr
    cases ok with
    | false =>
      simp only [Bool.false_eq_true, if_false] at hs
      rw [hs]
      exact Or.inl rfl
    | true =>
      simp only [if_true] at hs
      obtain ⟨hcore, happs⟩ := hs.core.metadataResize hi
        (dfcKeySetMetadataLength numKeySets numKeys)
      dsimp only
      cases hm : dfcKeySetMetadataResize c₁ i (dfcKeySetMetadataLength numKeySets numKeys) with
      | mk c₂ ok₂ =>
        rw [hm] at hcore happs
        -- The octets of the other applications decide whether the metadata fits, and
        -- resizing the keys has not touched them.
        have hcan' : dfcKeySetMetadataCanResize c₁ i
            (dfcKeySetMetadataLength numKeySets numKeys) = true := by
          rw [hs.core.metadata.canResize hi, h.metadata.packed.rest_eq hs.core.metadata.packed
            (Finset.mem_range.mpr hi) (fun j _ hji =>
              keySetMetadataLen_of_unplaced (hs.others j (by simpa using Ne.symm hji)))]
          exact hcan
        have hok : ok₂ = true := by
          have hh := congrArg Prod.snd hm
          simp only [dfcKeySetMetadataResize, hcan', Bool.not_true, Bool.false_eq_true, if_false,
            h₂.1] at hh
          exact hh.symm
        subst hok
        have hu := happs i
        rw [if_pos ⟨rfl, rfl⟩] at hu
        have hd : PoolCore z n (c₂.modifyApp i fun app =>
            { app with numKeySets := u8 numKeySets, maxKeySize := u8 maxKeySize }) :=
          hcore.modifyApp i (fun _ => rfl) (fun _ => rfl) (fun _ => rfl) (fun _ => rfl)
        have hsets : ((c₂.modifyApp i fun app =>
              { app with numKeySets := u8 numKeySets, maxKeySize := u8 maxKeySize }).apps
            i).numKeySets = numKeySets := by
          rw [modifyApp_apps, if_pos rfl, hns]
        have hlen : ((c₂.modifyApp i fun app =>
            { app with numKeySets := u8 numKeySets, maxKeySize := u8 maxKeySize }).apps
              i).keySetMetadataLen = dfcKeySetMetadataLength numKeySets numKeys := by
          rw [modifyApp_apps, if_pos rfl]
          exact keySetMetadataLen_of_unplaced hu
        have hkeys : ((c₂.modifyApp i fun app =>
            { app with numKeySets := u8 numKeySets, maxKeySize := u8 maxKeySize }).apps i).numKeys =
            numKeys := by
          rw [modifyApp_apps, if_pos rfl]
          exact (numKeys_of_unplaced hu).trans (hs.counts i rfl).1
        dsimp only
        generalize (c₂.modifyApp i fun app =>
          { app with numKeySets := u8 numKeySets, maxKeySize := u8 maxKeySize }) = d at *
        have hslice := hd.metadata.slice_eq hi
        rw [hsets, hlen, hkeys, if_neg (by omega)] at hslice
        refine Or.inr ⟨d, rfl, hd, keySetMetadataSlice_some hslice, ?_⟩
        rw [hslice]
        rfl

/-- Storing the mask of `i` writes inside its own metadata. -/
theorem MetadataPoolInv.sameOwner_storeMask {n : ℕ} {c : DfcCredential} (h : MetadataPoolInv n c)
    {i : ℕ} (hi : i < n) (hm : MetadataSlice c (c.apps i) (c.apps i).keySetMetadataOffset)
    {q : Option ℕ} (hq : q ∈ keyOwners n) (hqi : q ≠ some i) (mask : UInt16) :
    SameOwner c (keySetStoreInitializedMask c (c.apps i) (c.apps i).keySetMetadataOffset mask)
      q q := by
  cases q with
  | none => exact ⟨⟨rfl, rfl⟩, rfl, rfl, rfl⟩
  | some j =>
    have hji : j ≠ i := fun he => hqi (by rw [he])
    have hj : j < n := (some_mem_keyOwners n j).mp hq
    refine ⟨⟨rfl, rfl⟩, rfl, ?_⟩
    by_cases h0 : (c.apps j).keySetMetadataLen = 0
    · rw [h0]; rfl
    have hd := h.packed.disjoint i (Finset.mem_range.mpr hi) j (Finset.mem_range.mpr hj)
      (Ne.symm hji) hm.len_ne_zero h0
    have hlen := hm.len
    simp only [keySetStoreInitializedMask]
    apply Mem.read_write_of_disjoint
    simp only [List.length_cons, List.length_nil]
    omega

/-- A resize of the key slice keeps the pools in order, whatever it answers. -/
theorem PoolCore.keysResizeTotal_core {n : ℕ} {c : DfcCredential} (h : PoolCore z n c)
    {p : Option ℕ} (hp : p ∈ keyOwners n) (numKeys allocatedKeys keyLen storageKeyLen : ℕ) :
    PoolCore z n (dfcCredentialKeysResizeTotal c p numKeys allocatedKeys
      keyLen storageKeyLen).1 := by
  cases hr : dfcCredentialKeysResizeTotal c p numKeys allocatedKeys keyLen storageKeyLen with
  | mk c' ok =>
    have hs := h.keysResizeTotal hp hr
    cases ok with
    | false =>
      simp only [Bool.false_eq_true, if_false] at hs
      rw [hs]
      exact h
    | true =>
      simp only [if_true] at hs
      exact hs.core

theorem PoolCore.sameOwner_keySetsResize {n : ℕ} {c : DfcCredential} (h : PoolCore z n c)
    {i : ℕ} (hi : i < n) {q : Option ℕ} (hq : q ∈ keyOwners n) (hqi : q ≠ some i)
    (numKeySets numKeys activeKeyLen maxKeySize : ℕ) :
    SameOwner c (dfcCredentialKeySetsResize c i numKeySets numKeys activeKeyLen maxKeySize).1
      q q := by
  have hp : some i ∈ keyOwners n := (some_mem_keyOwners n i).mpr hi
  obtain hc | ⟨d, hd, hcore, hslice, hc⟩ :=
    keySetsResize_cases h hi numKeySets numKeys activeKeyLen maxKeySize
  · rw [hc]
    exact SameOwner.refl c q
  rw [hc]
  refine SameOwner.trans ?_ (hcore.metadata.sameOwner_storeMask hi hslice hq hqi _)
  have htotal := h.sameOwner_keysResizeTotal hp hq hqi numKeys (numKeys * numKeySets)
    activeKeyLen maxKeySize
  have hresized := h.keysResizeTotal_core hp numKeys (numKeys * numKeySets) activeKeyLen maxKeySize
  rw [hd, keySetsSized]
  exact (htotal.trans (hresized.sameOwner_metadataResize hi hq hqi _)).trans
    (sameOwner_modifyApp _ _ hqi)

end DfcCore
