import DfcCore.KeySetRotation
import DfcCore.PoolFrames

/-!
# Initialized masks over runs

No call sets a bit of an initialized mask behind the last set of its application. So after any
sequence of calls an application whose metadata resolves has key sets as a roll expects them.
-/
namespace DfcCore

variable {z : Prop} {c c' : DfcCredential}

/-- The mask of an application has no bit behind its last set. -/
def MaskWithin (c : DfcCredential) (i : ℕ) : Prop :=
  (dfcKeySetMetadataSlice c (c.apps i)).isSome →
    ((memsOf c i).mask (layoutOf c i)).toNat < 2 ^ (c.apps i).numKeySets

def MasksWithin (n : ℕ) (c : DfcCredential) : Prop := ∀ i < n, MaskWithin c i

theorem maskWithin_of_none {i : ℕ} (h : dfcKeySetMetadataSlice c (c.apps i) = none) :
    MaskWithin c i := by
  intro hsome
  rw [h] at hsome
  cases hsome

/-- Of its record a mask needs where it stands and how many sets and keys there are. -/
def metadataShape (app : DfcApplication) : ℕ × ℕ × ℕ × ℕ :=
  (app.numKeySets, app.numKeys, app.keySetMetadataOffset, app.keySetMetadataLen)

theorem MaskWithin.congr {i : ℕ} (h : MaskWithin c i)
    (hpool : c'.keySetMetadataPool = c.keySetMetadataPool)
    (hused : c'.keySetMetadataPoolUsed = c.keySetMetadataPoolUsed)
    (hshape : metadataShape (c'.apps i) = metadataShape (c.apps i)) : MaskWithin c' i := by
  simp only [metadataShape, Prod.mk.injEq] at hshape
  obtain ⟨hsets, hkeys, hoffset, hlen⟩ := hshape
  simpa only [MaskWithin, dfcKeySetMetadataSlice, SetMems.mask, SetLayout.maskCell, memsOf,
    layoutOf, hsets, hkeys, hoffset, hlen, hpool, hused] using h

/-- The mask goes with the application. -/
theorem SameApp.maskWithin {n m i j : ℕ} (hs : SameApp c c' i j) (h : MetadataPoolInv n c)
    (h' : MetadataPoolInv m c') (hi : i < n) (hj : j < m) (hmask : MaskWithin c i) :
    MaskWithin c' j := by
  rcases hs.metadataSlice h h' hi hj with ⟨-, hnone⟩ | ⟨hsome, -, hoctets⟩
  · exact maskWithin_of_none hnone
  · intro _
    have hwithin := hmask (by rw [hsome]; rfl)
    have hlen := (keySetMetadataSlice_some hsome).len
    have hsets := numKeySets_of_unplaced hs.record
    have hlow := hoctets (2 * (c.apps i).numKeySets) (by omega)
    have hhigh := hoctets (2 * (c.apps i).numKeySets + 1) (by omega)
    have heq : (memsOf c' j).mask (layoutOf c' j) = (memsOf c i).mask (layoutOf c i) := by
      simp only [SetMems.mask, SetLayout.maskCell, layoutOf, memsOf, hsets]
      rw [hlow, Nat.add_assoc, hhigh, Nat.add_assoc]
    rw [heq, hsets]
    exact hwithin

/-- A call that has one application of its own and leaves the others what they have. -/
theorem MasksWithin.of_others {n i : ℕ} (hm : MasksWithin n c) (h : PoolCore z n c)
    (h' : PoolCore z n c') (hothers : ∀ j < n, j ≠ i → SameOwner c c' (some j) (some j))
    (hown : MaskWithin c' i) : MasksWithin n c' := by
  intro j hj
  by_cases hji : j = i
  · subst hji
    exact hown
  · have hs : SameApp c c' j j := hothers j hj hji
    exact hs.maskWithin h.metadata h'.metadata hj hj (hm j hj)

theorem metadataSlice_of_numKeySets {i : ℕ}
    (h : (c.apps i).numKeySets < dfcKeySetMinimumCount) :
    dfcKeySetMetadataSlice c (c.apps i) = none := by
  rw [dfcKeySetMetadataSlice, if_pos (Or.inl h)]

theorem metadataSlice_of_len {i : ℕ} (h : (c.apps i).keySetMetadataLen = 0) :
    dfcKeySetMetadataSlice c (c.apps i) = none := by
  cases hs : dfcKeySetMetadataSlice c (c.apps i) with
  | none => rfl
  | some data => exact absurd h (keySetMetadataSlice_some hs).len_ne_zero

/-- File operations keep all masks. -/
theorem MasksWithin.ofFiles {n : ℕ} (hm : MasksWithin n c) (h : FileFrame c c') :
    MasksWithin n c' := by
  obtain ⟨_, _, _, _, rfl⟩ := h
  exact hm

/-- A mask stored is the mask read. -/
theorem mask_storeInitializedMask (i : ℕ) (mask : UInt16) :
    (memsOf (keySetStoreInitializedMask c (c.apps i) (c.apps i).keySetMetadataOffset mask) i).mask
      (layoutOf (keySetStoreInitializedMask c (c.apps i) (c.apps i).keySetMetadataOffset mask) i) =
        mask := by
  simp only [keySetStoreInitializedMask, memsOf, layoutOf, SetMems.mask, SetLayout.maskCell]
  have hlow (pool : Mem) (at' : ℕ) (a b : UInt8) : pool.write at' [a, b] at' = a := by
    simp [Mem.write]
  have hhigh (pool : Mem) (at' : ℕ) (a b : UInt8) : pool.write at' [a, b] (at' + 1) = b := by
    simp [Mem.write]
  rw [hlow, hhigh, octets_join]

theorem allSetsMask_lt {numKeySets : ℕ} (h : numKeySets ≤ 16) :
    (allSetsMask numKeySets).toNat < 2 ^ numKeySets := by
  interval_cases numKeySets <;> decide

section Keys
variable {n : ℕ} (h : PoolInv z n c) (hm : MasksWithin n c)
include h hm

/-- Keys that are resized belong to an application without key sets. -/
theorem MasksWithin.keysResize {p : Option ℕ} (hp : p ∈ keyOwners n)
    (numKeys keyLen : ℕ) : MasksWithin n (dfcCredentialKeysResize c p numKeys keyLen).1 := by
  have h' := h.keysResize hp numKeys keyLen
  have hothers : ∀ j < n, some j ≠ p →
      SameOwner c (dfcCredentialKeysResize c p numKeys keyLen).1 (some j) (some j) :=
    fun j hj hjp => h.sameOwner_keysResize hp ((some_mem_keyOwners _ j).mpr hj) hjp numKeys keyLen
  cases p with
  | none =>
    intro j hj
    have hs : SameApp c (dfcCredentialKeysResize c none numKeys keyLen).1 j j :=
      hothers j hj (by simp)
    exact hs.maskWithin h.metadata h'.metadata hj hj (hm j hj)
  | some i =>
    have hi : i < n := (some_mem_keyOwners _ i).mp hp
    cases hok : (dfcCredentialKeysResize c (some i) numKeys keyLen).2 with
    | false => rwa [keysResize_false h.toPoolCore hi numKeys keyLen hok]
    | true =>
      refine hm.of_others h.toPoolCore h'.toPoolCore
        (fun j hj hji => hothers j hj (by simpa using hji)) ?_
      refine maskWithin_of_none (metadataSlice_of_numKeySets ?_)
      rw [dfcCredentialKeysResize] at hok ⊢
      cases hr : dfcCredentialKeysResizeTotal c (some i) numKeys numKeys keyLen keyLen with
      | mk c₁ ok =>
        rw [hr] at hok
        cases ok with
        | false => exact absurd hok Bool.false_ne_true
        | true =>
          have hs := h.toPoolCore.keysResizeTotal hp hr
          simp only [if_true] at hs
          have hedit : PoolCore z n (c₁.modifyApp i fun app =>
              { app with numKeySets := 1, maxKeySize := 0, keySetSettings := 0 }) :=
            hs.core.modifyApp i (fun _ => rfl) (fun _ => rfl) (fun _ => rfl) (fun _ => rfl)
          have hu := (hedit.metadataResize hi 0).2 i
          have hsets := numKeySets_of_unplaced hu
          have hone : ((dfcKeySetMetadataResize (c₁.modifyApp i fun app =>
              { app with numKeySets := 1, maxKeySize := 0, keySetSettings := 0 }) i 0).1.apps
                i).numKeySets = 1 := by
            rw [hsets]
            split_ifs
            · simp [DfcCredential.modifyApp]
            · simp [DfcCredential.modifyApp]
          show ((dfcKeySetMetadataResize (c₁.modifyApp i fun app =>
              { app with numKeySets := 1, maxKeySize := 0, keySetSettings := 0 }) i 0).1.apps
                i).numKeySets < _
          rw [hone]
          decide

theorem MasksWithin.keysRelease {p : Option ℕ} (hp : p ∈ keyOwners n) :
    MasksWithin n (dfcCredentialKeysRelease c p) := by
  have h' := h.keysRelease hp
  intro j hj
  by_cases hjp : some j = p
  · have hu := keysRelease_apps c p j
    rw [if_pos hjp.symm] at hu
    exact maskWithin_of_none (metadataSlice_of_len (keySetMetadataLen_of_unplaced hu))
  · have hs : SameApp c (dfcCredentialKeysRelease c p) j j :=
      h.toPoolCore.sameOwner_keysRelease hp ((some_mem_keyOwners _ j).mpr hj) hjp
    exact hs.maskWithin h.metadata h'.metadata hj hj (hm j hj)

/-- A resize of key sets marks exactly these. -/
theorem MasksWithin.keySetsResize {i : ℕ} (hi : i < n)
    (numKeySets numKeys activeKeyLen maxKeySize : ℕ) :
    MasksWithin n (dfcCredentialKeySetsResize c i numKeySets numKeys
      activeKeyLen maxKeySize).1 := by
  have h' := h.keySetsResize hi numKeySets numKeys activeKeyLen maxKeySize
  refine hm.of_others h.toPoolCore h'.toPoolCore (fun j hj hji =>
    h.toPoolCore.sameOwner_keySetsResize hi ((some_mem_keyOwners _ j).mpr hj)
      (by simpa using hji) _ _ _ _) ?_
  obtain hc | ⟨d, hd, -, -, hc⟩ :=
    keySetsResize_cases h.toPoolCore hi numKeySets numKeys activeKeyLen maxKeySize
  · rw [hc]
    exact hm i hi
  · have hcount : ¬(numKeySets < dfcKeySetMinimumCount ∨ dfcMaxKeySets < numKeySets) := by
      intro hout
      rw [dfcCredentialKeySetsResize, if_pos hout] at hc
      exact absurd (congrArg Prod.snd hc) Bool.false_ne_true
    simp only [dfcKeySetMinimumCount, dfcMaxKeySets] at hcount
    have hsets : (d.apps i).numKeySets = numKeySets := by
      rw [hd, keySetsSized, modifyApp_apps, if_pos rfl]
      exact u8_of_lt (by omega)
    rw [hc]
    intro _
    rw [mask_storeInitializedMask]
    show _ < 2 ^ (d.apps i).numKeySets
    rw [hsets]
    exact allSetsMask_lt (by omega)

theorem MasksWithin.rollKeySet {i : ℕ} (hi : i < n) (set : ℕ) :
    MasksWithin n (dfcCredentialRollKeySet c i set).1 := by
  by_cases hset : set = 0 ∨ (c.apps i).numKeySets ≤ set
  · rw [dfcCredentialRollKeySet, if_pos hset]
    exact hm
  cases hslice : dfcKeySetMetadataSlice c (c.apps i) with
  | none =>
    have hnone : (dfcKeySetMetadataSlice c (c.apps i)).isNone = true := by rw [hslice]; rfl
    rw [dfcCredentialRollKeySet, if_neg hset, if_pos hnone]
    exact hm
  | some data =>
    have hkeySets : HasKeySets c i :=
      ⟨by rw [hslice]; rfl, h.blocks i hi (keySetMetadataSlice_some hslice).len_ne_zero,
        hm i hi (by rw [hslice]; rfl)⟩
    obtain ⟨hrolled, -⟩ := hkeySets.rolled (by omega) (show set < _ by omega)
    refine hm.of_others h.toPoolCore (h.rollKeySet hi set).toPoolCore
      (fun j hj hji => hrolled.sameOwner hkeySets h.toPoolCore hi
        ((some_mem_keyOwners _ j).mpr hj) (by simpa using hji)) ?_
    exact fun _ => (hrolled.hasKeySets hkeySets).mask

end Keys

section Calls
variable (h : PoolInv z c.numApps c) (hm : MasksWithin c.numApps c)
include h hm

theorem MasksWithin.deleteApplicationAt (i : ℕ) :
    MasksWithin (dfcCredentialDeleteApplicationAt c i).1.numApps
      (dfcCredentialDeleteApplicationAt c i).1 := by
  have h' := h.deleteApplicationAt i
  by_cases hi : c.numApps ≤ i
  · rw [dfcCredentialDeleteApplicationAt, if_pos hi]
    exact hm
  have hp : some i ∈ keyOwners c.numApps := by simpa using hi
  have hrel := h.keysRelease hp
  obtain ⟨-, hframe⟩ := dropFilesOf_spec i
    (dfcCredentialKeysRelease c (some i)).numFiles hrel.files 0
  have hlast := hframe.numApps.trans (keysRelease_numApps c (some i))
  obtain ⟨n, hn⟩ : ∃ n, c.numApps = n + 1 := ⟨c.numApps - 1, by omega⟩
  have hcount : (dfcCredentialDeleteApplicationAt c i).1.numApps = n := by
    rw [dfcCredentialDeleteApplicationAt, if_neg hi]
    dsimp only
    rw [hlast, hn]
    rfl
  intro k hk
  rw [hcount] at hk
  -- the application that stands at `k` stood one further on before
  obtain ⟨j, hj, hji, hjk⟩ : ∃ j, j < c.numApps ∧ j ≠ i ∧ indexWithout i j = k := by
    by_cases hki : k < i
    · exact ⟨k, by omega, by omega, if_pos hki⟩
    · refine ⟨k + 1, by omega, by omega, ?_⟩
      rw [indexWithout, if_neg (by omega)]
      rfl
  have hpm : some j ∈ keyOwners c.numApps := (some_mem_keyOwners _ j).mpr hj
  have hpi : some j ≠ some i := by simpa using hji
  have hs : SameOwner c (dfcCredentialDeleteApplicationAt c i).1 (some j)
      ((some j).map (indexWithout i)) := by
    refine (h.toPoolCore.sameOwner_keysRelease hp hpm hpi).trans
      ((hframe.sameOwner (some j)).trans ?_)
    rw [dfcCredentialDeleteApplicationAt, if_neg hi]
    dsimp only
    rw [hlast, hn, Nat.add_sub_cancel]
    exact sameOwner_shiftApps _ (by omega) (by rw [← hn]; exact hpm) hpi
  rw [Option.map_some, hjk] at hs
  have hsame : SameApp c (dfcCredentialDeleteApplicationAt c i).1 j k := hs
  exact hsame.maskWithin h.metadata h'.metadata hj (by omega) (hm j hj)

theorem MasksWithin.createApplication (aid : Mem) (keySettings1 keySettings2 : UInt8) :
    MasksWithin
      (dfcCredentialCreateApplicationDesfireOrder c aid keySettings1 keySettings2).1.numApps
      (dfcCredentialCreateApplicationDesfireOrder c aid keySettings1 keySettings2).1 := by
  rw [dfcCredentialCreateApplicationDesfireOrder]
  generalize (keySettings2 &&& dfcNumKeysMask).toNat = numKeys
  generalize dfcCredentialKeyLength keySettings2 = keyLen
  by_cases h₁ : dfcMaxApps ≤ c.numApps
  · rw [if_pos h₁]
    exact hm
  rw [if_neg h₁]
  by_cases h₂ : (dfcCredentialFindApplicationDesfireOrder c aid).isSome = true
  · rw [if_pos h₂]
    exact hm
  rw [if_neg h₂]
  by_cases h₃ : numKeys = 0 ∨ dfcEv1MaxKeysPerApp < numKeys ∨ dfcMaxKeys < numKeys
  · simp only [h₃, if_true]
    exact hm
  simp only [h₃, if_false]
  have hblank : PoolInv z (c.numApps + 1)
      (c.modifyApp c.numApps fun _ => dfcCredentialResetApplication) :=
    (h.resetApplication le_rfl).count (by rw [modifyApp_apps, if_pos rfl])
  have hblankMasks : MasksWithin (c.numApps + 1)
      (c.modifyApp c.numApps fun _ => dfcCredentialResetApplication) := by
    intro j hj
    by_cases hlast : j = c.numApps
    · refine maskWithin_of_none (metadataSlice_of_len ?_)
      rw [modifyApp_apps, if_pos hlast]
      rfl
    · have hs : SameApp c (c.modifyApp c.numApps fun _ => dfcCredentialResetApplication) j j :=
        @sameOwner_modifyApp c c.numApps _ (some j) (by simpa using hlast)
      exact hs.maskWithin h.metadata hblank.metadata (by omega) hj (hm j (by omega))
  have hres := hblank.keysResize (by simp : some c.numApps ∈ keyOwners (c.numApps + 1))
    numKeys keyLen
  have hresMasks := hblankMasks.keysResize hblank
    (by simp : some c.numApps ∈ keyOwners (c.numApps + 1)) numKeys keyLen
  have hnum := keysResize_numApps hblank.keys
    (by simp : some c.numApps ∈ keyOwners (c.numApps + 1)) numKeys keyLen
  cases hr : dfcCredentialKeysResize (c.modifyApp c.numApps fun _ => dfcCredentialResetApplication)
      (some c.numApps) numKeys keyLen with
  | mk c' ok =>
    rw [hr] at hres hresMasks hnum
    have hnum : c'.numApps = c.numApps := hnum
    cases ok with
    | false =>
      intro j hj
      have hj : j < c'.numApps := hj
      exact hresMasks j (by omega)
    | true =>
      intro j hj
      have hj : j < c'.numApps + 1 := hj
      refine (hresMasks j (by omega)).congr rfl rfl ?_
      rw [modifyApp_apps]
      by_cases hlast : j = c.numApps
      · rw [if_pos hlast, hlast]
        rfl
      · rw [if_neg hlast]

end Calls

theorem fileFrame_materializeContents (c : DfcCredential) (sizeMax scratchLen : ℕ) :
    FileFrame c (dfcCredentialMaterializeContents c sizeMax scratchLen).1 := by
  rw [dfcCredentialMaterializeContents]
  generalize List.range c.numFiles = files
  generalize true = ok
  induction files generalizing c ok with
  | nil => exact FileFrame.refl c
  | cons file files ih => exact (fileFrame_materializeFile c sizeMax scratchLen file).trans (ih _ _)

/-- A call that changes what is kept of key sets. -/
inductive KeySetOp where
  | pool (op : PoolOp)
  | setInitialized (app set : ℕ) (initialized : Bool)
  /-- The stores through the pointers to the version and the type of a set. -/
  | storeSetVersion (app set : ℕ) (version : UInt8)
  | storeSetType (app set : ℕ) (type : UInt8)
  | storeKeyVersion (app set slot : ℕ) (version : UInt8)

/-- A store into the metadata pool, where there is a place for it. -/
def storeMetadata (c : DfcCredential) (at' : Option ℕ) (octet : UInt8) : DfcCredential :=
  match at' with
  | some at' => { c with keySetMetadataPool := c.keySetMetadataPool.write at' [octet] }
  | none => c

def KeySetOp.exec (c : DfcCredential) : KeySetOp → DfcCredential
  | pool op => op.step c
  | setInitialized i set initialized => (dfcCredentialKeySetSetInitialized c i set initialized).1
  | storeSetVersion i set version =>
    storeMetadata c (dfcCredentialKeySetVersion c (c.apps i) set) version
  | storeSetType i set type => storeMetadata c (dfcCredentialKeySetType c (c.apps i) set) type
  | storeKeyVersion i set slot version =>
    (dfcCredentialStoreKeyVersionInSet c i set slot version).getD c

/-- A call on an application that is not counted does not happen. -/
def KeySetOp.step (c : DfcCredential) (op : KeySetOp) : DfcCredential :=
  match op with
  | pool op => op.step c
  | setInitialized i _ _ | storeSetVersion i _ _ | storeSetType i _ _ | storeKeyVersion i _ _ _ =>
    if i < c.numApps then op.exec c else c

def keySetRun (ops : List KeySetOp) : DfcCredential := ops.foldl KeySetOp.step dfcCredentialClear

theorem MasksWithin.poolExec (h : PoolInv z c.numApps c) (hm : MasksWithin c.numApps c)
    {op : PoolOp} (hop : op.callable c = true) :
    MasksWithin (op.exec c).numApps (op.exec c) := by
  have hfile {c' : DfcCredential} (hf : FileFrame c c') : MasksWithin c'.numApps c' := by
    rw [hf.numApps]
    exact hm.ofFiles hf
  cases op with
  | clear =>
    intro i hi
    have hi : i < dfcCredentialClear.numApps := hi
    rw [clear_numApps] at hi
    omega
  | createApplication aid s₁ s₂ => exact hm.createApplication h aid s₁ s₂
  | keysResize app numKeys keyLen =>
    have hp : app ∈ keyOwners c.numApps := by
      cases app with
      | none => simp
      | some i => simpa [PoolOp.callable] using hop
    rw [PoolOp.exec, keysResize_numApps h.keys hp]
    exact hm.keysResize h hp numKeys keyLen
  | keySetsResize i sets keys active max =>
    have hi : i < c.numApps := by simpa [PoolOp.callable] using hop
    rw [PoolOp.exec, keySetsResize_numApps h.keys hi]
    exact hm.keySetsResize h hi sets keys active max
  | keysRelease app =>
    have hp : app ∈ keyOwners c.numApps := by
      cases app with
      | none => simp
      | some i => simpa [PoolOp.callable] using hop
    rw [PoolOp.exec, keysRelease_numApps]
    exact hm.keysRelease h hp
  | rollKeySet i set =>
    have hi : i < c.numApps := by simpa [PoolOp.callable] using hop
    rw [PoolOp.exec, rollKeySet_numApps]
    exact hm.rollKeySet h hi set
  | deleteApplicationAt i => exact hm.deleteApplicationAt h i
  | createFile appIndex number => exact hfile (fileFrame_create c appIndex number)
  | fileResize i dataLen => exact hfile (fileFrame_resize c i dataLen)
  | fileRelease i => exact hfile (fileFrame_release c i)
  | deleteFile appIndex number => exact hfile (fileFrame_delete c appIndex number)
  | materializeContents sizeMax scratchLen =>
    exact hfile (fileFrame_materializeContents c sizeMax scratchLen)
  | formatPicc =>
    intro i hi
    have hi : i < (dfcCredentialFormatPicc c).numApps := hi
    have hnone : (dfcCredentialFormatPicc c).numApps = 0 := by
      rw [dfcCredentialFormatPicc]
    omega
  | describeFile i type state => exact hfile ⟨_, _, _, _, rfl⟩

/-- A store inside the metadata slice of one application that leaves its mask within. -/
theorem MasksWithin.write {n i data at' : ℕ} (hm : MasksWithin n c) (h : PoolInv z n c)
    (hi : i < n) (hdata : dfcKeySetMetadataSlice c (c.apps i) = some data)
    {octets : List UInt8} (hstart : data ≤ at')
    (hend : at' + octets.length ≤ data + (c.apps i).keySetMetadataLen)
    (hown : MaskWithin { c with
      keySetMetadataPool := c.keySetMetadataPool.write at' octets } i) :
    PoolInv z n { c with keySetMetadataPool := c.keySetMetadataPool.write at' octets } ∧
      MasksWithin n { c with keySetMetadataPool := c.keySetMetadataPool.write at' octets } := by
  have h' : PoolInv z n { c with
      keySetMetadataPool := c.keySetMetadataPool.write at' octets } :=
    h.frameMetadata ⟨_, _, rfl⟩ (fun _ => rfl) (fun _ => rfl) (fun _ => rfl) (fun _ => rfl)
      (fun _ => rfl) (fun _ => rfl) (fun _ => rfl)
  have hslice := keySetMetadataSlice_some hdata
  refine ⟨h', hm.of_others h.toPoolCore h'.toPoolCore (fun j hj hji => ?_) hown⟩
  refine ⟨⟨rfl, rfl⟩, rfl, ?_⟩
  by_cases hempty : (c.apps j).keySetMetadataLen = 0
  · rw [hempty]
    rfl
  have hdisjoint := h.metadata.packed.disjoint i (Finset.mem_range.mpr hi) j
    (Finset.mem_range.mpr hj) (Ne.symm hji) hslice.len_ne_zero hempty
  have hdataStart := hslice.start
  show (c.keySetMetadataPool.write at' octets).read (c.apps j).keySetMetadataOffset _ = _
  exact Mem.read_write_of_disjoint (by omega)

/-- A store beside the mask. -/
theorem MasksWithin.storeOctet {n i data at' : ℕ} (hm : MasksWithin n c) (h : PoolInv z n c)
    (hi : i < n) (hdata : dfcKeySetMetadataSlice c (c.apps i) = some data) (octet : UInt8)
    (hstart : data ≤ at') (hend : at' < data + (c.apps i).keySetMetadataLen)
    (hbeside : at' < data + 2 * (c.apps i).numKeySets ∨
      data + 2 * (c.apps i).numKeySets + 2 ≤ at') :
    PoolInv z n { c with keySetMetadataPool := c.keySetMetadataPool.write at' [octet] } ∧
      MasksWithin n { c with keySetMetadataPool := c.keySetMetadataPool.write at' [octet] } := by
  refine hm.write h hi hdata hstart (by rw [List.length_singleton]; omega) ?_
  intro _
  have hwithin := hm i hi (by rw [hdata]; rfl)
  have hdataStart := (keySetMetadataSlice_some hdata).start
  rw [hdataStart] at hbeside
  have heq : (memsOf { c with
      keySetMetadataPool := c.keySetMetadataPool.write at' [octet] } i).mask (layoutOf c i) =
        (memsOf c i).mask (layoutOf c i) := by
    simp only [SetMems.mask, SetLayout.maskCell, memsOf, layoutOf]
    rw [Mem.write_apply_of_out (by rw [List.length_singleton]; omega),
      Mem.write_apply_of_out (by rw [List.length_singleton]; omega)]
  show ((memsOf { c with
      keySetMetadataPool := c.keySetMetadataPool.write at' [octet] } i).mask
        (layoutOf c i)).toNat < _
  rw [heq]
  exact hwithin

theorem putBit_lt {mask : UInt16} {set sets : ℕ} (hset : set < sets) (hsets : sets ≤ 16)
    (h : mask.toNat < 2 ^ sets) (initialized : Bool) :
    (putBit mask set initialized).toNat < 2 ^ sets := by
  rw [putBit]
  cases initialized with
  | true =>
    rw [if_pos rfl, UInt16.toNat_or, toNat_setBit (by omega)]
    exact Nat.or_lt_two_pow h (Nat.pow_lt_pow_right (by omega) hset)
  | false =>
    rw [if_neg Bool.false_ne_true, UInt16.toNat_and]
    exact (Nat.and_le_left).trans_lt h

theorem MasksWithin.setInitialized {n i : ℕ} (hm : MasksWithin n c) (h : PoolInv z n c)
    (hi : i < n) (set : ℕ) (initialized : Bool) :
    PoolInv z n (dfcCredentialKeySetSetInitialized c i set initialized).1 ∧
      MasksWithin n (dfcCredentialKeySetSetInitialized c i set initialized).1 := by
  rw [dfcCredentialKeySetSetInitialized]
  cases hdata : dfcKeySetMetadataSlice c (c.apps i) with
  | none => exact ⟨h, hm⟩
  | some data =>
    by_cases hset : (c.apps i).numKeySets ≤ set
    · simp only [hset, if_true]
      exact ⟨h, hm⟩
    simp only [hset, if_false]
    have hslice := keySetMetadataSlice_some hdata
    have hwithin := hm i hi (by rw [hdata]; rfl)
    have hlen := hslice.len
    have hmax : (c.apps i).numKeySets ≤ 16 := hslice.setsMax
    refine hm.write h hi hdata (by omega)
      (by simp only [List.length_cons, List.length_nil]; omega) ?_
    intro _
    rw [mask_memsOf hdata] at hwithin
    rw [hslice.start] at hwithin ⊢
    refine (congrArg UInt16.toNat (mask_storeInitializedMask i _)).trans_lt ?_
    exact putBit_lt (by omega) hmax hwithin initialized

theorem MasksWithin.storeKeyVersion {n i : ℕ} (hm : MasksWithin n c) (h : PoolInv z n c)
    (hi : i < n) (set slot : ℕ) (version : UInt8) :
    PoolInv z n ((dfcCredentialStoreKeyVersionInSet c i set slot version).getD c) ∧
      MasksWithin n ((dfcCredentialStoreKeyVersionInSet c i set slot version).getD c) := by
  rw [dfcCredentialStoreKeyVersionInSet]
  by_cases hout : (c.apps i).numKeySets ≤ set ∨ (c.apps i).numKeys ≤ slot
  · simp only [hout, if_true]
    exact ⟨h, hm⟩
  simp only [hout, if_false]
  by_cases hzero : set = 0
  · simp only [hzero, if_true, Option.getD_some]
    constructor
    · refine h.frameMetadata ⟨_, _, rfl⟩ ?_ ?_ ?_ ?_ ?_ ?_ ?_
      all_goals
        intro j
        rw [modifyApp_apps]
        split_ifs with hj
        · rw [hj]
        · rfl
    · intro j hj
      refine (hm j hj).congr rfl rfl ?_
      rw [modifyApp_apps]
      split_ifs with hji
      · rw [hji]
        rfl
      · rfl
  simp only [hzero, if_false]
  cases hdata : dfcKeySetMetadataSlice c (c.apps i) with
  | none => exact ⟨h, hm⟩
  | some data =>
    have hlen := (keySetMetadataSlice_some hdata).len
    have hplace := @keyVersionPlace_lt (c.apps i).numKeySets (c.apps i).numKeys set slot
      (by omega) hzero (by omega)
    exact hm.storeOctet h hi hdata version (by omega) (by omega) (by omega)

theorem MasksWithin.storeMetadata {n i data at' : ℕ} (hm : MasksWithin n c) (h : PoolInv z n c)
    (hi : i < n) (hdata : dfcKeySetMetadataSlice c (c.apps i) = some data) (octet : UInt8)
    (hstart : data ≤ at') (hend : at' < data + 2 * (c.apps i).numKeySets) :
    PoolInv z n (DfcCore.storeMetadata c (some at') octet) ∧
      MasksWithin n (DfcCore.storeMetadata c (some at') octet) := by
  have hlen := (keySetMetadataSlice_some hdata).len
  exact hm.storeOctet h hi hdata octet hstart (by omega) (Or.inl hend)

theorem setInitialized_numApps (c : DfcCredential) (i set : ℕ) (initialized : Bool) :
    (dfcCredentialKeySetSetInitialized c i set initialized).1.numApps = c.numApps := by
  rw [dfcCredentialKeySetSetInitialized]
  cases dfcKeySetMetadataSlice c (c.apps i) with
  | none => rfl
  | some data =>
    simp only
    by_cases hset : (c.apps i).numKeySets ≤ set
    · rw [if_pos hset]
    · rw [if_neg hset]
      rfl

theorem storeKeyVersion_numApps (c : DfcCredential) (i set slot : ℕ) (version : UInt8) :
    ((dfcCredentialStoreKeyVersionInSet c i set slot version).getD c).numApps = c.numApps := by
  rw [dfcCredentialStoreKeyVersionInSet]
  split_ifs
  · rfl
  · rfl
  · cases dfcKeySetMetadataSlice c (c.apps i) <;> rfl

theorem storeMetadata_numApps (c : DfcCredential) (at' : Option ℕ) (octet : UInt8) :
    (storeMetadata c at' octet).numApps = c.numApps := by
  cases at' <;> rfl

/-- One call on a counted application. -/
theorem keySetExec_inv (h : PoolInv z c.numApps c) (hm : MasksWithin c.numApps c) {i : ℕ}
    (hi : i < c.numApps) :
    (∀ set initialized, PoolInv z c.numApps
        (KeySetOp.setInitialized i set initialized |>.exec c) ∧
      MasksWithin c.numApps (KeySetOp.setInitialized i set initialized |>.exec c)) ∧
    (∀ set version, PoolInv z c.numApps (KeySetOp.storeSetVersion i set version |>.exec c) ∧
      MasksWithin c.numApps (KeySetOp.storeSetVersion i set version |>.exec c)) ∧
    ∀ set type, PoolInv z c.numApps (KeySetOp.storeSetType i set type |>.exec c) ∧
      MasksWithin c.numApps (KeySetOp.storeSetType i set type |>.exec c) := by
  refine ⟨fun set initialized => hm.setInitialized h hi set initialized, ?_, ?_⟩
  · intro set version
    rw [KeySetOp.exec, dfcCredentialKeySetVersion]
    cases hdata : dfcKeySetMetadataSlice c (c.apps i) with
    | none => exact ⟨h, hm⟩
    | some data =>
      simp only
      split_ifs with hset
      · exact hm.storeMetadata h hi hdata version (by omega) (by omega)
      · exact ⟨h, hm⟩
  · intro set type
    rw [KeySetOp.exec, dfcCredentialKeySetType]
    cases hdata : dfcKeySetMetadataSlice c (c.apps i) with
    | none => exact ⟨h, hm⟩
    | some data =>
      simp only
      split_ifs with hset
      · exact hm.storeMetadata h hi hdata type (by omega) (by omega)
      · exact ⟨h, hm⟩

theorem keySetStep_inv (h : PoolInv z c.numApps c) (hm : MasksWithin c.numApps c)
    (op : KeySetOp) :
    PoolInv z (op.step c).numApps (op.step c) ∧ MasksWithin (op.step c).numApps (op.step c) := by
  cases op with
  | pool op =>
    refine ⟨h.step op, ?_⟩
    show MasksWithin (op.step c).numApps (op.step c)
    rw [PoolOp.step]
    split_ifs with hop
    · exact hm.poolExec h hop
    · exact hm
  | setInitialized i set initialized =>
    rw [KeySetOp.step]
    split_ifs with hi
    · rw [KeySetOp.exec, setInitialized_numApps]
      exact (keySetExec_inv h hm hi).1 set initialized
    · exact ⟨h, hm⟩
  | storeSetVersion i set version =>
    rw [KeySetOp.step]
    split_ifs with hi
    · rw [KeySetOp.exec, storeMetadata_numApps]
      exact (keySetExec_inv h hm hi).2.1 set version
    · exact ⟨h, hm⟩
  | storeSetType i set type =>
    rw [KeySetOp.step]
    split_ifs with hi
    · rw [KeySetOp.exec, storeMetadata_numApps]
      exact (keySetExec_inv h hm hi).2.2 set type
    · exact ⟨h, hm⟩
  | storeKeyVersion i set slot version =>
    rw [KeySetOp.step]
    split_ifs with hi
    · rw [KeySetOp.exec, storeKeyVersion_numApps]
      exact hm.storeKeyVersion h hi set slot version
    · exact ⟨h, hm⟩

/-- After any sequence of calls the key sets of an application are as a roll expects them. -/
theorem keySetRun_hasKeySets (ops : List KeySetOp) {i : ℕ} (hi : i < (keySetRun ops).numApps)
    (h : (dfcKeySetMetadataSlice (keySetRun ops) ((keySetRun ops).apps i)).isSome) :
    HasKeySets (keySetRun ops) i := by
  have hrun : ∀ c : DfcCredential, PoolInv True c.numApps c → MasksWithin c.numApps c →
      PoolInv True (ops.foldl KeySetOp.step c).numApps (ops.foldl KeySetOp.step c) ∧
        MasksWithin (ops.foldl KeySetOp.step c).numApps (ops.foldl KeySetOp.step c) := by
    clear h hi
    induction ops with
    | nil => exact fun c hc hm => ⟨hc, hm⟩
    | cons op ops ih =>
      intro c hc hm
      obtain ⟨hc', hm'⟩ := keySetStep_inv hc hm op
      exact ih _ hc' hm'
  have hclear : PoolInv True dfcCredentialClear.numApps dfcCredentialClear ∧
      MasksWithin dfcCredentialClear.numApps dfcCredentialClear := by
    rw [clear_numApps]
    exact ⟨poolInv_clear, fun i hi => absurd hi (Nat.not_lt_zero i)⟩
  obtain ⟨hinv, hmasks⟩ := hrun dfcCredentialClear hclear.1 hclear.2
  obtain ⟨data, hdata⟩ := Option.isSome_iff_exists.mp h
  exact ⟨h, hinv.blocks i hi (keySetMetadataSlice_some hdata).len_ne_zero, hmasks i hi h⟩

end DfcCore
