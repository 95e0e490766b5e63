import DfcCore.DerRoundTrip
import DfcCore.Materialize
import DfcCore.PoolRuns

/-!
# The pools of a decoded card

The decoder writes the keys of an owner and the octets of a file behind the used part of their
pool, and takes no more than fits. So whatever image it accepts, the slices of the card it makes
fill the pools without gaps and without overlap, and behind them the pools are zero: the invariant
that every operation on the pools keeps.
-/
namespace DfcCore
open Arena Der

variable {z : Prop} {c c' : DfcCredential} {owner : ℕ} {x : FileImage}

/-- A new owner joins with a slice behind the used part. -/
theorem Arena.Packed.join {ι : Type*} [DecidableEq ι] {S : Finset ι} {off len off' len' : ι → ℕ}
    {used : ℕ} (h : Packed S off len used) {i : ι} (hi : i ∉ S)
    (hoff : ∀ j ∈ S, off' j = off j) (hlen : ∀ j ∈ S, len' j = len j)
    (hnew : len' i ≠ 0 → off' i = used) : Packed (Insert.insert i S) off' len' (used + len' i) := by
  constructor
  · intro j hj hn
    obtain rfl | hj := Finset.mem_insert.mp hj
    · rw [hnew hn]
    · rw [hlen j hj] at hn ⊢
      rw [hoff j hj]
      exact (h.bound j hj hn).trans (Nat.le_add_right _ _)
  · intro j hj k hk hjk hnj hnk
    by_cases hji : j = i
    · have hkS := Finset.mem_of_mem_insert_of_ne hk fun hki => hjk (hji.trans hki.symm)
      rw [hlen k hkS] at hnk ⊢
      rw [hji] at hnj ⊢
      rw [hnew hnj, hoff k hkS]
      exact .inr (h.bound k hkS hnk)
    · have hjS := Finset.mem_of_mem_insert_of_ne hj hji
      rw [hlen j hjS] at hnj ⊢
      rw [hoff j hjS]
      by_cases hki : k = i
      · rw [hki] at hnk ⊢
        rw [hnew hnk]
        exact .inl (h.bound j hjS hnj)
      · have hkS := Finset.mem_of_mem_insert_of_ne hk hki
        rw [hlen k hkS] at hnk ⊢
        rw [hoff k hkS]
        exact h.disjoint j hjS k hkS hjk hnj hnk
  · rw [Finset.sum_insert hi, Finset.sum_congr rfl hlen, h.total, Nat.add_comm]

/-- The octets of a file the decoder takes fit behind the used part. -/
theorem FileImage.Loadable.fits (hx : x.Loadable owner c)
    (hused : c.filePoolUsed ≤ dfcFilePoolSize) :
    c.filePoolUsed + x.contents.octets.length ≤ dfcFilePoolSize := by
  have hcontents := hx.contents
  cases hkind : x.contents with
  | data size known complete =>
    rw [hkind] at hcontents
    by_cases hnone : known = []
    · rw [ContentsImage.octets, hnone]
      exact hused
    · exact (hcontents.2.2.2.2.1 hnone).2
  | value => exact hused
  | record size maxRecords count complete records =>
    rw [hkind] at hcontents
    obtain ⟨-, -, -, -, -, -, -, hlength, -, -, hfits⟩ := hcontents
    by_cases hnone : records = []
    · rw [ContentsImage.octets, hnone]
      exact hused
    · have hroom := (hfits hnone).2
      rwa [← length_flatten_of_forall hlength] at hroom
  | transactionMac => exact hused

/-- Where a loaded file has its octets. -/
theorem loadedFile_place (owner used : ℕ) (x : FileImage) :
    (loadedFile owner used x).dataLen = x.contents.octets.length ∧
      (loadedFile owner used x).dataOffset =
        if x.contents.octets = [] then dfcFilePoolNone else used := by
  have hsdm (file : DfcFile) (sdm : Option SdmImage) :
      (fillSdm file sdm).dataLen = file.dataLen ∧
      (fillSdm file sdm).dataOffset = file.dataOffset := by
    cases sdm with
    | none => exact ⟨rfl, rfl⟩
    | some s =>
      have hlen (file : DfcFile) : file.noFlags.dataLen = file.dataLen := rfl
      have hoffset (file : DfcFile) : file.noFlags.dataOffset = file.dataOffset := rfl
      rw [fillSdm, ← hlen, ← hoffset, noFlags_storeSdm]
      exact ⟨rfl, rfl⟩
  have hfilled : NoSlice (fillContents (newFile owner x) x.contents) := by
    cases x.contents <;> exact ⟨rfl, rfl⟩
  unfold loadedFile
  rw [(hsdm _ _).1, (hsdm _ _).2]
  unfold DfcFile.withSlice
  split_ifs with hnone
  · rw [hnone]
    exact ⟨hfilled.2, hfilled.1⟩
  · exact ⟨rfl, rfl⟩

theorem FilePoolInv.loadFile (h : FilePoolInv z c) (hx : x.Loadable owner c) :
    FilePoolInv z (DfcCore.loadFile owner c x) := by
  obtain ⟨hlen, hoffset⟩ := loadedFile_place owner c.filePoolUsed x
  have hold {i : ℕ} (hi : i < c.numFiles) : (DfcCore.loadFile owner c x).files i = c.files i := by
    rw [loadFile_eq]
    exact Function.update_of_ne (by omega) _ _
  have hnew : (DfcCore.loadFile owner c x).files c.numFiles =
      loadedFile owner c.filePoolUsed x := by
    rw [loadFile_eq]
    exact Function.update_self _ _ _
  have hnum : (DfcCore.loadFile owner c x).numFiles = c.numFiles + 1 := by rw [loadFile_eq]
  have hused : (DfcCore.loadFile owner c x).filePoolUsed =
      c.filePoolUsed + ((DfcCore.loadFile owner c x).files c.numFiles).dataLen := by
    rw [hnew, hlen, loadFile_eq]
  constructor
  · rw [hnum, hused, Finset.range_add_one]
    refine h.packed.join Finset.notMem_range_self (fun i hi => ?_) (fun i hi => ?_) fun hne => ?_
    · rw [hold (Finset.mem_range.mp hi)]
    · rw [hold (Finset.mem_range.mp hi)]
    · rw [hnew, hlen] at hne
      rw [hnew, hoffset, if_neg fun hnone => hne (by rw [hnone]; rfl)]
  · rw [hused, hnew, hlen]
    exact hx.fits h.fit
  · intro hz a ha hsize
    rw [hused, hnew, hlen] at ha
    rw [loadFile_eq]
    exact (Mem.write_apply_of_out (.inr ha)).trans (h.zero hz a (by omega) hsize)
  · intro i hi hnone
    rw [hnum] at hi
    obtain rfl | hlt := Nat.eq_or_lt_of_le (Nat.le_of_lt_succ hi)
    · rw [hnew, hlen] at hnone
      rw [hnew, hoffset, if_pos (List.eq_nil_of_length_eq_zero hnone)]
    · rw [hold hlt] at hnone ⊢
      exact h.sentinel i hlt hnone

theorem FilePoolInv.loadFiles (h : FilePoolInv z c) {files : List FileImage}
    (hload : AllFrom (FileImage.Loadable owner) (DfcCore.loadFile owner) c files) :
    FilePoolInv z (files.foldl (DfcCore.loadFile owner) c) := by
  induction files generalizing c with
  | nil => exact h
  | cons x files ih => exact ih (h.loadFile hload.1) hload.2

/-- Where an application has its keys and key sets, and how many they are. -/
def DfcApplication.places (a : DfcApplication) : ℕ × ℕ × ℕ × ℕ × ℕ × ℕ × ℕ :=
  (a.keyOffset, a.keyPoolLen, a.keySetMetadataOffset, a.keySetMetadataLen, a.numKeys, a.numKeySets,
    a.keyStorageLen)

/-- Application `n` has got its keys, behind the used part of the pools. -/
structure KeysJoined (c c' : DfcCredential) (n : ℕ) : Prop where
  picc : c'.piccKeyOffset = c.piccKeyOffset ∧ c'.piccKeyPoolLen = c.piccKeyPoolLen
  other : ∀ j ≠ n, (c'.apps j).places = (c.apps j).places
  keyUsed : c'.keyPoolUsed = c.keyPoolUsed + (c'.apps n).keyPoolLen
  keyFit : c'.keyPoolUsed ≤ dfcKeyPoolSize
  keyPlace : (c'.apps n).keyOffset =
    if (c'.apps n).keyPoolLen = 0 then dfcKeyPoolNone else c.keyPoolUsed
  keyPool : ∀ a, c'.keyPoolUsed ≤ a → c'.keyPool a = c.keyPool a
  metadataUsed : c'.keySetMetadataPoolUsed =
    c.keySetMetadataPoolUsed + (c'.apps n).keySetMetadataLen
  metadataFit : c'.keySetMetadataPoolUsed ≤ dfcKeySetMetadataPoolSize
  metadataPlace : (c'.apps n).keySetMetadataOffset =
    if (c'.apps n).keySetMetadataLen = 0 then dfcKeySetMetadataPoolNone
    else c.keySetMetadataPoolUsed
  block : (c'.apps n).keySetMetadataLen ≠ 0 → (c'.apps n).keyPoolLen =
    (c'.apps n).numKeys * (c'.apps n).numKeySets *
      dfcCredentialStoredKeyLength (c'.apps n).keyStorageLen

theorem keyOwners_succ (n : ℕ) : keyOwners (n + 1) = Insert.insert (some n) (keyOwners n) := by
  ext o
  cases o with
  | none => simp
  | some j =>
    simp only [some_mem_keyOwners, Finset.mem_insert, Option.some.injEq]
    omega

namespace KeysJoined
variable {n : ℕ} (h : KeysJoined c c' n)
include h

theorem keyOwner {o : Option ℕ} (ho : o ∈ keyOwners n) :
    keyOffsetOf c' o = keyOffsetOf c o ∧ keyPoolLenOf c' o = keyPoolLenOf c o := by
  cases o with
  | none => exact h.picc
  | some j =>
    have hj : j ≠ n := ((some_mem_keyOwners n j).mp ho).ne
    have hplaces := h.other j hj
    exact ⟨congrArg (fun p => p.1) hplaces, congrArg (fun p => p.2.1) hplaces⟩

theorem keys (hinv : KeyPoolInv z n c) : KeyPoolInv z (n + 1) c' := by
  have hnot : some n ∉ keyOwners n := by simp
  constructor
  · rw [keyOwners_succ, h.keyUsed]
    refine hinv.packed.join hnot (fun o ho => (h.keyOwner ho).1) (fun o ho => (h.keyOwner ho).2)
      fun hne => ?_
    exact h.keyPlace.trans (if_neg hne)
  · exact h.keyFit
  · intro hz a ha hsize
    rw [h.keyPool a ha]
    exact hinv.zero hz a (by rw [h.keyUsed] at ha; omega) hsize
  · intro o ho hnone
    rw [keyOwners_succ] at ho
    obtain rfl | ho := Finset.mem_insert.mp ho
    · exact h.keyPlace.trans (if_pos hnone)
    · rw [(h.keyOwner ho).2] at hnone
      rw [(h.keyOwner ho).1]
      exact hinv.sentinel o ho hnone

theorem metadata (hinv : MetadataPoolInv n c) : MetadataPoolInv (n + 1) c' := by
  have hold {j : ℕ} (hj : j ∈ Finset.range n) :
      (c'.apps j).keySetMetadataOffset = (c.apps j).keySetMetadataOffset ∧
        (c'.apps j).keySetMetadataLen = (c.apps j).keySetMetadataLen := by
    have hplaces := h.other j (Finset.mem_range.mp hj).ne
    exact ⟨congrArg (fun p => p.2.2.1) hplaces, congrArg (fun p => p.2.2.2.1) hplaces⟩
  constructor
  · rw [Finset.range_add_one, h.metadataUsed]
    refine hinv.packed.join Finset.notMem_range_self (fun j hj => (hold hj).1)
      (fun j hj => (hold hj).2) fun hne => ?_
    exact h.metadataPlace.trans (if_neg hne)
  · exact h.metadataFit
  · intro j hj hnone
    obtain rfl | hlt := Nat.eq_or_lt_of_le (Nat.le_of_lt_succ hj)
    · exact h.metadataPlace.trans (if_pos hnone)
    · rw [(hold (Finset.mem_range.mpr hlt)).2] at hnone
      rw [(hold (Finset.mem_range.mpr hlt)).1]
      exact hinv.sentinel j hlt hnone

theorem blocks (hinv : KeyBlocksFit n c) : KeyBlocksFit (n + 1) c' := by
  intro j hj hne
  obtain rfl | hlt := Nat.eq_or_lt_of_le (Nat.le_of_lt_succ hj)
  · exact h.block hne
  · have hplaces := h.other j hlt.ne
    simp only [DfcApplication.places, Prod.mk.injEq] at hplaces
    obtain ⟨-, hlen, -, hmetadata, hkeys, hsets, hstorage⟩ := hplaces
    rw [hmetadata] at hne
    rw [hlen, hkeys, hsets, hstorage]
    exact hinv j hlt hne

end KeysJoined

/-- Storing the sets leaves alone what stands behind their keys. -/
theorem storeKeys_behind {L : SetLayout} {set slot : ℕ} {m : SetMems} {keys : List KeyImage}
    (hwidth : ∀ k ∈ keys, k.value.length ≤ L.stride) (hslot : slot + keys.length ≤ L.keyCount)
    {a : ℕ} (ha : L.keys + (set + 1) * L.keyCount * L.stride ≤ a) :
    (m.storeKeys L set slot keys).keys a = m.keys a := by
  induction keys generalizing slot m with
  | nil => rfl
  | cons k keys ih =>
    rw [List.length_cons] at hslot
    rw [SetMems.storeKeys, ih (fun k' hk' => hwidth k' (List.mem_cons_of_mem _ hk')) (by omega)]
    have hk := hwidth k List.mem_cons_self
    have hcell : (set * L.keyCount + slot + 1) * L.stride ≤ (set + 1) * L.keyCount * L.stride :=
      Nat.mul_le_mul_right _ (by rw [Nat.succ_mul]; omega)
    rw [Nat.succ_mul] at hcell
    refine Mem.write_apply_of_out (.inr ?_)
    unfold SetLayout.keyCell
    omega

theorem storeSets_behind {L : SetLayout} {set : ℕ} {m : SetMems} {sets : List KeySetImage}
    (hload : ∀ s ∈ sets, s.Loadable L.keyCount L.stride) {a : ℕ}
    (ha : L.keys + (set + sets.length) * L.keyCount * L.stride ≤ a) :
    (m.storeSets L set sets).keys a = m.keys a := by
  induction sets generalizing set m with
  | nil => rfl
  | cons s sets ih =>
    have hs := hload s List.mem_cons_self
    rw [List.length_cons] at ha
    have hnext : L.keys + (set + 1 + sets.length) * L.keyCount * L.stride ≤ a := by
      rwa [Nat.add_assoc, Nat.add_comm 1]
    have hfirst : (set + 1) * L.keyCount * L.stride ≤
        (set + 1 + sets.length) * L.keyCount * L.stride :=
      Nat.mul_le_mul_right _ (Nat.mul_le_mul_right _ (Nat.le_add_right _ _))
    rw [SetMems.storeSets, ih (fun s' hs' => hload s' (List.mem_cons_of_mem _ hs')) hnext,
      storeKeys_behind (fun k hk => (hs.length k hk).le.trans hs.width)
        (by rw [Nat.zero_add]; exact hs.count) (by omega)]
    rfl

/-- The octets of the keys fill the slice cut for them. -/
theorem KeysLoadable.length_values {keyLen : ℕ} {keys : List KeyImage}
    (h : KeysLoadable c keyLen keys) :
    (keys.flatMap KeyImage.value).length = keys.length * keyLen := by
  have hvalues : ∀ r ∈ keys.map KeyImage.value, r.length = keyLen := by
    intro r hr
    obtain ⟨k, hk, rfl⟩ := List.mem_map.mp hr
    exact h.length k hk
  rw [List.flatMap_def, length_flatten_of_forall hvalues, List.length_map]

/-- A vacant application gets a list of keys. -/
theorem keysJoined_placeKeys {n keyLen : ℕ} {keys : List KeyImage} (hvacant : (c.apps n).Vacant)
    (hmetadata : c.keySetMetadataPoolUsed ≤ dfcKeySetMetadataPoolSize)
    (hkeyLen : keyLen ≠ 0) (hload : KeysLoadable c keyLen keys) :
    KeysJoined c (placeKeys c (some n) keyLen keys) n := by
  have hvalues := hload.length_values
  have hroom := hload.room
  have hnone := hvacant.keySetMetadataLen
  have hoffset := hvacant.keySetMetadataOffset
  unfold placeKeys
  split_ifs with hempty
  · subst hempty
    have happ : (noKeys c (some n)).apps n = (c.apps n).dropKeys := Function.update_self _ _ _
    constructor
    case other =>
      intro j hj
      rw [show (noKeys c (some n)).apps j = c.apps j from Function.update_of_ne hj _ _]
    case keyFit => exact (Nat.le_add_right _ _).trans hroom
    case metadataFit => exact hmetadata
    all_goals simp [noKeys, DfcCredential.modifyApp, DfcApplication.dropKeys, hnone, hoffset]
  · have hpos : keys.length * keyLen ≠ 0 :=
      Nat.mul_ne_zero (fun h0 => hempty (List.eq_nil_of_length_eq_zero h0)) hkeyLen
    constructor
    case other =>
      intro j hj
      simp [storeKeys, storeKeyVersions, reserveKeys, DfcCredential.modifyApp, hj]
    case keyFit => exact hroom
    case metadataFit => exact hmetadata
    case keyPool =>
      intro a ha
      have hbehind : c.keyPoolUsed + keys.length * keyLen ≤ a := ha
      simp only [storeKeys, storeKeyVersions, reserveKeys, DfcCredential.modifyApp]
      rw [Mem.write_apply_of_out (by omega), Mem.fill_apply_of_out (by omega)]
    all_goals simp [storeKeys, storeKeyVersions, reserveKeys, DfcCredential.modifyApp,
      DfcApplication.reserveKeys, hnone, hoffset, hpos]

/-- A vacant application gets its key sets. -/
theorem keysJoined_placeKeySets {n keyCount maxSize : ℕ} {settings : UInt8}
    {sets : List KeySetImage} (hload : KeySetsLoadable c n keyCount maxSize settings sets) :
    KeysJoined c (placeKeySets c n keyCount maxSize settings sets) n := by
  have hroom := hload.room
  have hwidth : dfcCredentialStoredKeyLength maxSize = maxSize := by
    obtain h | h := hroom.width <;> rw [h] <;> rfl
  have hkeys : keyCount * sets.length * maxSize ≠ 0 := by
    have hsets := hroom.sets.1
    simp only [dfcKeySetMinimumCount] at hsets
    obtain h | h := hroom.width
    all_goals exact Nat.mul_ne_zero (Nat.mul_ne_zero hroom.perSet.1.ne' (by omega)) (by omega)
  have hmetadata : setMetadataLen sets.length keyCount ≠ 0 := by
    have hsets := hroom.sets.1
    simp only [dfcKeySetMinimumCount] at hsets
    rw [setMetadataLen]
    omega
  constructor
  case other =>
    intro j hj
    rw [placeKeySets_apps c n keyCount maxSize settings sets hj]
  case keyFit => exact hroom.keys
  case metadataFit => exact hroom.metadata
  case keyPool =>
    intro a ha
    have hbehind : c.keyPoolUsed + keyCount * sets.length * maxSize ≤ a := ha
    unfold placeKeySets putMems
    dsimp only
    rw [storeSets_behind hload.each]
    · exact Mem.fill_apply_of_out (.inr hbehind)
    · rwa [Nat.zero_add, Nat.mul_comm sets.length]
  all_goals simp [placeKeySets, putMems, reserveKeySets, DfcCredential.modifyApp,
    DfcApplication.reserveKeySets, hkeys, hmetadata, hwidth]

/-- The keys of an application, in either form. -/
theorem keysJoined_placeKeyStore {n : ℕ} {keys : KeyStoreImage} (hvacant : (c.apps n).Vacant)
    (hmetadata : c.keySetMetadataPoolUsed ≤ dfcKeySetMetadataPoolSize)
    (hkeyLen : (c.apps n).keyLen ≠ 0) (hload : keys.Loadable c n) :
    KeysJoined c (placeKeyStore c n keys) n := by
  cases keys with
  | list keys => exact keysJoined_placeKeys hvacant hmetadata hkeyLen hload
  | sets keyCount maxSize settings sets => exact keysJoined_placeKeySets hload

theorem storeAppTail_places (app : DfcApplication) (capability : Option Slice)
    (delegated : Option DelegatedImage) (smDisable : Option UInt8) :
    (storeAppTail app capability delegated smDisable).places = app.places := by
  cases delegated <;> rfl

/-- An application up to its files joins the others. -/
theorem keysJoined_loadAppRecord {version : ℕ} {a : AppImage} (hc : Loading c)
    (ha : a.Loadable version c) : KeysJoined c (loadAppRecord version c a) c.numApps := by
  obtain ⟨n, hn⟩ : ∃ n, n = c.numApps := ⟨_, rfl⟩
  obtain ⟨named, hnamed⟩ : ∃ named, named = c.modifyApp n fun app =>
      storeAppSettings version app a.toAppSettingsImage := ⟨_, rfl⟩
  have hself : named.apps n = storeAppSettings version (c.apps n) a.toAppSettingsImage := by
    rw [hnamed]
    exact Function.update_self _ _ _
  have hother {j : ℕ} (hj : j ≠ n) : named.apps j = c.apps j := by
    rw [hnamed]
    exact Function.update_of_ne hj _ _
  have hfresh := hc.fresh n hn.ge
  have hjoined : KeysJoined named (placeKeyStore named n a.keys) n := by
    refine keysJoined_placeKeyStore ?_ ?_ ?_ (hnamed ▸ hn ▸ ha.keys)
    · rw [hself, hfresh]
      exact ⟨rfl, rfl, rfl, rfl, rfl, rfl, rfl⟩
    · rw [hnamed]
      exact hc.pools.2
    · rw [hself]
      show dfcCredentialKeyLength a.keySettings2 ≠ 0
      obtain h | h := keyLength_cases a.keySettings2 <;> rw [h] <;> decide
  have hrecord : loadAppRecord version c a = countApp ((placeKeyStore named n a.keys).modifyApp n
      fun app => storeAppTail app a.capabilityData a.delegated a.smDisable) := by
    rw [loadAppRecord, ← hn, ← hnamed]
  rw [hrecord, ← hn]
  generalize placeKeyStore named n a.keys = placed at hjoined ⊢
  have hplaced (j : ℕ) : ((countApp (placed.modifyApp n fun app =>
      storeAppTail app a.capabilityData a.delegated a.smDisable)).apps j).places =
        (placed.apps j).places := by
    by_cases hj : j = n
    · subst hj
      exact (congrArg DfcApplication.places (Function.update_self _ _ _)).trans
        (storeAppTail_places _ _ _ _)
    · exact congrArg DfcApplication.places (Function.update_of_ne hj _ _)
  have hlast := hplaced n
  simp only [DfcApplication.places, Prod.mk.injEq] at hlast
  obtain ⟨hoff, hlen, hmetaOff, hmetaLen, hkeys, hsets, hstorage⟩ := hlast
  constructor
  · have hpicc := hjoined.picc
    rw [hnamed] at hpicc
    exact hpicc
  · intro j hj
    rw [hplaced, hjoined.other j hj, hother hj]
  · rw [hlen]
    have hused := hjoined.keyUsed
    rw [hnamed] at hused
    exact hused
  · exact hjoined.keyFit
  · rw [hlen, hoff, hjoined.keyPlace, hnamed]
    rfl
  · intro b hb
    have hpool := hjoined.keyPool b hb
    rw [hnamed] at hpool
    exact hpool
  · rw [hmetaLen]
    have hused := hjoined.metadataUsed
    rw [hnamed] at hused
    exact hused
  · exact hjoined.metadataFit
  · rw [hmetaLen, hmetaOff, hjoined.metadataPlace, hnamed]
    rfl
  · rw [hmetaLen, hlen, hkeys, hsets, hstorage]
    exact hjoined.block

theorem PoolInv.loadFiles {n : ℕ} (h : PoolInv z n c) {files : List FileImage}
    (hload : AllFrom (FileImage.Loadable owner) (DfcCore.loadFile owner) c files) :
    PoolInv z n (files.foldl (DfcCore.loadFile owner) c) := by
  refine h.samePools ?_ (h.files.loadFiles hload)
  obtain ⟨fs, numFiles, pool, used, heq⟩ := foldl_loadFile_frame owner files c
  rw [heq]
  exact ⟨rfl, rfl, ⟨rfl, rfl⟩, rfl, rfl⟩

theorem FilePoolInv.loadAppRecord (h : FilePoolInv z c) (version : ℕ) (a : AppImage) :
    FilePoolInv z (DfcCore.loadAppRecord version c a) := by
  have hkeys : KeysAppended (c.modifyApp c.numApps fun app =>
      storeAppSettings version app a.toAppSettingsImage) (placeKeyStore (c.modifyApp c.numApps
        fun app => storeAppSettings version app a.toAppSettingsImage) c.numApps a.keys) := by
    cases a.keys with
    | list keys => exact keysAppended_placeKeys _ _ _ keys
    | sets keyCount maxSize settings sets => exact keysAppended_placeKeySets _ _ _ _ settings sets
  have hrest := hkeys.rest
  have hfiles : (DfcCore.loadAppRecord version c a).files = c.files :=
    (congrArg DfcCredential.files hrest :)
  refine h.frame (congrArg DfcCredential.numFiles hrest :)
    (congrArg DfcCredential.filePoolUsed hrest :) (fun b _ _ => ?_) (fun i => by rw [hfiles])
    fun i => by rw [hfiles]
  exact congrFun (congrArg DfcCredential.filePool hrest :) b

theorem PoolInv.loadApp {version : ℕ} {a : AppImage} (h : PoolInv z c.numApps c) (hc : Loading c)
    (ha : a.Loadable version c) :
    PoolInv z (DfcCore.loadApp version c a).numApps (DfcCore.loadApp version c a) := by
  have hjoined := keysJoined_loadAppRecord hc ha
  have hrecord : PoolInv z (c.numApps + 1) (loadAppRecord version c a) :=
    { keys := hjoined.keys h.keys
      metadata := hjoined.metadata h.metadata
      files := h.files.loadAppRecord version a
      blocks := hjoined.blocks h.blocks }
  have hnum : (DfcCore.loadApp version c a).numApps = c.numApps + 1 := by
    obtain ⟨fs, n, pool, used, hfiles⟩ := foldl_loadFile_frame c.numApps a.files
      (loadAppRecord version c a)
    rw [DfcCore.loadApp, hfiles, loadAppRecord]
    simp [countApp, DfcCredential.modifyApp, placeKeyStore_numApps]
  rw [hnum]
  exact hrecord.loadFiles ha.files

theorem PoolInv.loadApps {version : ℕ} {apps : List AppImage} (h : PoolInv z c.numApps c)
    (hc : Loading c)
    (hload : AllFrom (AppImage.Loadable version) (DfcCore.loadApp version) c apps) :
    PoolInv z (apps.foldl (DfcCore.loadApp version) c).numApps
      (apps.foldl (DfcCore.loadApp version) c) := by
  induction apps generalizing c with
  | nil => exact h
  | cons a apps ih => exact ih (h.loadApp hc hload.1) (hc.loadApp hload.1) hload.2

/-- The PICC alone has the whole key pool. -/
theorem packed_picc (hplace : c.piccKeyPoolLen ≠ 0 → c.piccKeyOffset = 0)
    (hlen : c.keyPoolUsed = c.piccKeyPoolLen) :
    Packed (keyOwners 0) (keyOffsetOf c) (keyPoolLenOf c) c.keyPoolUsed := by
  have hjoined : Packed (Insert.insert none ∅) (keyOffsetOf c) (keyPoolLenOf c)
      (0 + keyPoolLenOf c none) :=
    (Packed.empty (keyOffsetOf c) (keyPoolLenOf c)).join (Finset.notMem_empty none) (by simp)
      (by simp) hplace
  rwa [Nat.zero_add, show keyPoolLenOf c none = c.piccKeyPoolLen from rfl, ← hlen,
    insert_empty_eq, ← keyOwners_zero] at hjoined

theorem sentinel_picc (h : c.piccKeyPoolLen = 0 → c.piccKeyOffset = dfcKeyPoolNone) :
    ∀ o ∈ keyOwners 0, keyPoolLenOf c o = 0 → keyOffsetOf c o = dfcKeyPoolNone := by
  intro o ho hzero
  rw [keyOwners_zero, Finset.mem_singleton] at ho
  subst ho
  exact h hzero

/-- The keys of the PICC come first. -/
theorem poolInv_placeKeys_picc {keyLen : ℕ} {keys : List KeyImage} (hused : c.keyPoolUsed = 0)
    (hpool : c.keyPool = Mem.zero) (hkeyLen : keyLen ≠ 0) (hload : KeysLoadable c keyLen keys)
    (hmetadata : MetadataPoolInv 0 c) (hfiles : FilePoolInv True c) :
    PoolInv True 0 (placeKeys c none keyLen keys) := by
  have hvalues := hload.length_values
  have hroom := hload.room
  have hfree : KeyBlocksFit 0 (placeKeys c none keyLen keys) := fun i hi =>
    absurd hi (Nat.not_lt_zero i)
  unfold placeKeys at hfree ⊢
  split_ifs at hfree ⊢ with hempty
  · refine ⟨⟨⟨packed_picc (fun hne => absurd rfl hne) hused, ?_, ?_, sentinel_picc fun _ => rfl⟩,
      ?_, ?_⟩, hfree⟩
    · exact hused.trans_le (Nat.zero_le _)
    · exact fun _ a _ _ => congrFun hpool a
    · exact hmetadata.frame rfl (fun _ => rfl) fun _ => rfl
    · exact hfiles.frame rfl rfl (fun _ _ _ => rfl) (fun _ => rfl) fun _ => rfl
  · have hpos : keys.length * keyLen ≠ 0 :=
      Nat.mul_ne_zero (fun h0 => hempty (List.eq_nil_of_length_eq_zero h0)) hkeyLen
    refine ⟨⟨⟨packed_picc (fun _ => hused) ?_, hroom, ?_, sentinel_picc fun h0 => absurd h0 hpos⟩,
      ?_, ?_⟩, hfree⟩
    · show c.keyPoolUsed + keys.length * keyLen = keys.length * keyLen
      rw [hused, Nat.zero_add]
    · intro _ a ha _
      have hbehind : c.keyPoolUsed + keys.length * keyLen ≤ a := ha
      simp only [storeKeys, storeKeyVersions, reserveKeys]
      rw [Mem.write_apply_of_out (by omega), Mem.fill_apply_of_out (by omega), hpool]
      rfl
    · exact hmetadata.frame rfl (fun _ => rfl) fun _ => rfl
    · exact hfiles.frame rfl rfl (fun _ _ _ => rfl) (fun _ => rfl) fun _ => rfl

theorem poolInv_loadPicc {version : ℕ} {card : CardImage} {p : PiccImage}
    (hp : p.Loadable version (storeCard dfcCredentialClear card)) :
    PoolInv True (loadPicc version (storeCard dfcCredentialClear card) p).numApps
      (loadPicc version (storeCard dfcCredentialClear card) p) := by
  have hkept {c c' : DfcCredential} (h : PoolInv True c.numApps c) (hsame : SamePools c c')
      (hnum : c'.numApps = c.numApps) (hfiles : FilePoolInv True c') :
      PoolInv True c'.numApps c' := hnum ▸ h.samePools hsame hfiles
  have hfile {c c' : DfcCredential} (h : PoolInv True c.numApps c)
      (hsame : (c'.numFiles, c'.filePoolUsed, c'.filePool, c'.files) =
        (c.numFiles, c.filePoolUsed, c.filePool, c.files)) : FilePoolInv True c' := by
    simp only [Prod.mk.injEq] at hsame
    obtain ⟨hnum, hused, hpool, hfiles⟩ := hsame
    exact h.files.frame hnum hused (fun _ _ _ => by rw [hpool]) (fun i => by rw [hfiles])
      fun i => by rw [hfiles]
  refine loadPicc_ind (q := fun c => PoolInv True c.numApps c)
    (fun _ _ h => hkept h ⟨rfl, rfl, ⟨rfl, rfl⟩, rfl, rfl⟩ rfl (hfile h rfl))
    (fun _ _ h => hkept h ⟨rfl, rfl, ⟨rfl, rfl⟩, rfl, rfl⟩ rfl (hfile h rfl))
    (fun _ _ h => hkept h ⟨rfl, rfl, ⟨rfl, rfl⟩, rfl, rfl⟩ rfl (hfile h rfl))
    (fun _ _ h => hkept h ⟨rfl, rfl, ⟨rfl, rfl⟩, rfl, rfl⟩ rfl (hfile h rfl)) ?_
  have hseeded := seeded_storeCard card
  have hclear : PoolInv True 0 dfcCredentialClear := poolInv_clear
  have hkeys : PoolInv True 0 (placeKeys (unseeded (storePiccSettings version
      (storeCard dfcCredentialClear card) p.toPiccSettingsImage)) none
      (dfcCredentialKeyLength p.keySettings2) p.keys) := by
    refine poolInv_placeKeys_picc rfl hseeded.pool ?_ hp.keys ?_ ?_
    · obtain h | h := keyLength_cases p.keySettings2 <;> rw [h] <;> decide
    · exact hclear.metadata.frame rfl (fun _ => rfl) fun _ => rfl
    · exact hclear.files.frame rfl rfl (fun _ _ _ => rfl) (fun _ => rfl) fun _ => rfl
  rwa [placeKeys_numApps]

/-- Whatever image the decoder accepts, the pools of the card are in order. -/
theorem poolInv_of_decode {input : Slice} (h : decodeCredential input = .ok c) :
    PoolInv True c.numApps c := by
  obtain ⟨version, w, -, -, hload, -, rfl⟩ := decodeCredential_eq_ok.1 h
  have happs := (poolInv_loadPicc hload.picc).loadApps (loading_loadPicc hload.picc) hload.apps
  have hfiles := happs.loadFiles hload.files
  have hnum : (loadImage version w).numApps = (w.apps.foldl (loadApp version)
      (loadPicc version (storeCard dfcCredentialClear w.card) w.picc)).numApps := by
    obtain ⟨fs, n, pool, used, heq⟩ := foldl_loadFile_frame dfcFileOwnerPicc w.picc.files
      (w.apps.foldl (loadApp version)
        (loadPicc version (storeCard dfcCredentialClear w.card) w.picc))
    rw [loadImage, heq]
  have himage : PoolInv True (loadImage version w).numApps (loadImage version w) := by
    rw [hnum]
    exact hfiles
  exact himage.samePools ⟨rfl, rfl, ⟨rfl, rfl⟩, rfl, rfl⟩
    (himage.files.frame rfl rfl (fun _ _ _ => rfl) (fun _ => rfl) fun _ => rfl)

/-- Whatever octets the public decoder is given, it leaves a card with sound pools: the one it read
or the empty one. -/
theorem dfcDerDecode_poolInv (input : Slice) :
    PoolInv True (dfcDerDecode input).2.numApps (dfcDerDecode input).2 := by
  by_cases hok : (dfcDerDecode input).1 = .ok
  · exact poolInv_of_decode (dfcDerDecode_eq_ok.mp (Prod.ext hok rfl))
  · rw [dfcDerDecode_of_ne_ok hok]
    exact poolInv_clear

/-- Whatever image the decoder accepts and whatever calls on the pools follow, the slices of each
pool are disjoint and fill its used part, and the key and file pools are zero behind it. -/
theorem decoded_poolsPacked {input : Slice} (h : decodeCredential input = .ok c)
    (ops : List PoolOp) : PoolsPacked (ops.foldl PoolOp.step c) := by
  have hrun : PoolInv True (ops.foldl PoolOp.step c).numApps (ops.foldl PoolOp.step c) := by
    have hstart := poolInv_of_decode h
    clear h
    induction ops generalizing c with
    | nil => exact hstart
    | cons op ops ih => exact ih (hstart.step op)
  exact hrun.toPacked

theorem decoded_poolsPacked_zeroCredit : ∃ c,
    decodeCredential (encImage dfcFormatVersion zeroCreditImage) = .ok c ∧
    PoolsPacked ([.createFile 0 1, .fileResize 0 32, .materializeContents (2 ^ 64 - 1) 8,
      .deleteApplicationAt 0].foldl PoolOp.step c) := by
  obtain ⟨c, hc⟩ := decodes_zeroCreditImage
  exact ⟨c, hc, decoded_poolsPacked hc _⟩

theorem record_size_pos_of_modelCheck {i : ℕ} (hcheck : modelCheck c = .ok ())
    (hi : i < c.numFiles) (hrecord : dfcFileTypeIsRecord (c.files i).type = true) :
    0 < (c.files i).state.record.size := by
  have hfile := modelFileCheck_of_modelCheck hcheck hi
  unfold modelFileCheck at hfile
  simp only [bind_eq_ok, refuseIf_eq_ok, exists_const] at hfile
  obtain ⟨-, -, -, -, -, -, -, _, hcontents, -⟩ := hfile
  have hother : dfcFileTypeIsData (c.files i).type = false ∧
      (c.files i).type ≠ dfcFileTypeValue ∧ (c.files i).type ≠ dfcFileTypeTransactionMac := by
    simp only [dfcFileTypeIsRecord, Bool.or_eq_true, beq_iff_eq] at hrecord
    obtain htype | htype := hrecord <;> rw [htype] <;> decide
  unfold modelContentsCheck at hcontents
  rw [hother.1, if_neg Bool.false_ne_true, if_neg hother.2.1, if_neg hother.2.2] at hcontents
  unfold modelRecordCheck at hcontents
  simp only [bind_eq_ok, refuseIf_eq_ok, exists_const, not_or] at hcontents
  exact Nat.pos_of_ne_zero hcontents.1.1

/-- What a decoded card is when its contents are complete. -/
structure CompleteCard (c : DfcCredential) : Prop where
  pools : PoolInv True c.numApps c
  apps : c.numApps ≤ dfcMaxApps
  count : c.numFiles ≤ dfcMaxFiles
  settled : ∀ i < c.numFiles, (c.files i).transactionPending = false
  records : ∀ i < c.numFiles, dfcFileTypeIsRecord (c.files i).type = true →
    0 < (c.files i).state.record.size ∧
      (c.files i).state.record.count * (c.files i).state.record.size ≤ (c.files i).dataLen

theorem completeCard_of_decode {input : Slice} {sizeMax scratchLen : ℕ}
    (hdecode : decodeCredential input = .ok c) (hsize : dfcFilePoolSize ≤ sizeMax)
    (hcounted : ∀ i < c.numFiles, Counted sizeMax (c.files i))
    (hcomplete : dfcCredentialMaterializeContents c sizeMax scratchLen = (c', true)) :
    CompleteCard c' := by
  have hinv := poolInv_of_decode hdecode
  obtain ⟨hquiet, hcheck⟩ := decodeCredential_quiet hdecode
  have hdone := (materializeContents_completes hinv hsize scratchLen).1 hcounted
  obtain ⟨-, happs⟩ := hinv.materializeContents sizeMax scratchLen
  rw [hcomplete] at hdone happs
  have hnum : c'.numFiles = c.numFiles := hdone.numFiles
  have hsame {i : ℕ} (hi : i < c'.numFiles) := (hdone.files i (hnum ▸ hi)).sameRecord
  have hcounts : c.numApps ≤ dfcMaxApps ∧ c.numFiles ≤ dfcMaxFiles := by
    unfold modelCheck at hcheck
    simp only [bind_eq_ok, refuseIf_eq_ok, exists_and_left, not_or, not_lt] at hcheck
    exact hcheck.1
  refine ⟨hdone.pools, happs.trans_le hcounts.1, hnum.trans_le hcounts.2, fun i hi => ?_,
    fun i hi hrecord => ?_⟩
  · rw [(hsame hi).2.2]
    exact (hquiet i).transactionPending
  · obtain ⟨htype, hstate, -⟩ := hsame hi
    rw [htype] at hrecord
    have hpos := record_size_pos_of_modelCheck hcheck (hnum ▸ hi) hrecord
    have hdeclared : declaredLength (c'.files i) =
        some ((c'.files i).state.record.count * (c'.files i).state.record.size) := by
      rw [← htype] at hrecord
      simp only [dfcFileTypeIsRecord, Bool.or_eq_true, beq_iff_eq] at hrecord
      unfold declaredLength
      obtain hlinear | hcyclic := hrecord
      · rw [hlinear]
        rfl
      · rw [hcyclic]
        rfl
    rw [← hstate] at hpos
    exact ⟨hpos, hdone.answer.mp rfl i (hnum ▸ hi) _ hdeclared⟩

end DfcCore
