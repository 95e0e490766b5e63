import DfcCore.DerReadBackFiles

/-!
# Reading back a card

The decoder only adds: an application, a file or octets that have been stored are not touched
by what is loaded after them. `Grown` says so for two states of a decode, and what an image shows
of a record in every grown state is what it shows when the decode is over. Put together, the image
of a loaded card is the image it was loaded from, except where the decoder accepts two images for
one card: a limited-credit value of zero, and a key set without all of its keys.
-/
namespace DfcCore
open Der

/-- The fields of a credential that belong to no application, file or pool. -/
def DfcCredential.head (c : DfcCredential) : DfcCredential :=
  { c with
    numApps := 0, apps := fun _ => {}, numFiles := 0, files := fun _ => {}
    filePoolUsed := 0, filePool := Mem.zero, keyPoolUsed := 0, keyPool := Mem.zero
    keySetMetadataPoolUsed := 0, keySetMetadataPool := Mem.zero }

/-- What a later state of a decode keeps of an earlier one. -/
structure Grown (c c' : DfcCredential) : Prop where
  head : c'.head = c.head
  numApps : c.numApps ≤ c'.numApps
  apps : ∀ i < c.numApps, c'.apps i = c.apps i
  numFiles : c.numFiles ≤ c'.numFiles
  files : ∀ n < c.numFiles, c'.files n = c.files n
  fileUsed : c.filePoolUsed ≤ c'.filePoolUsed
  filePool : ∀ a < c.filePoolUsed, c'.filePool a = c.filePool a
  keyUsed : c.keyPoolUsed ≤ c'.keyPoolUsed
  keyPool : ∀ a < c.keyPoolUsed, c'.keyPool a = c.keyPool a
  bounds : PoolsBounded c'
  metadataUsed : c.keySetMetadataPoolUsed ≤ c'.keySetMetadataPoolUsed
  metadata : ∀ a < c.keySetMetadataPoolUsed, c'.keySetMetadataPool a = c.keySetMetadataPool a

section Growing
variable {c c' c'' : DfcCredential}

theorem Grown.refl (h : PoolsBounded c) : Grown c c where
  head := rfl
  numApps := le_rfl
  apps := fun _ _ => rfl
  numFiles := le_rfl
  files := fun _ _ => rfl
  fileUsed := le_rfl
  filePool := fun _ _ => rfl
  keyUsed := le_rfl
  keyPool := fun _ _ => rfl
  bounds := h
  metadataUsed := le_rfl
  metadata := fun _ _ => rfl

theorem Grown.trans (h : Grown c c') (h' : Grown c' c'') : Grown c c'' where
  head := h'.head.trans h.head
  numApps := h.numApps.trans h'.numApps
  apps := fun i hi => (h'.apps i (hi.trans_le h.numApps)).trans (h.apps i hi)
  numFiles := h.numFiles.trans h'.numFiles
  files := fun n hn => (h'.files n (hn.trans_le h.numFiles)).trans (h.files n hn)
  fileUsed := h.fileUsed.trans h'.fileUsed
  filePool := fun a ha => (h'.filePool a (ha.trans_le h.fileUsed)).trans (h.filePool a ha)
  keyUsed := h.keyUsed.trans h'.keyUsed
  keyPool := fun a ha => (h'.keyPool a (ha.trans_le h.keyUsed)).trans (h.keyPool a ha)
  bounds := h'.bounds
  metadataUsed := h.metadataUsed.trans h'.metadataUsed
  metadata := fun a ha =>
    (h'.metadata a (ha.trans_le h.metadataUsed)).trans (h.metadata a ha)

theorem Grown.readFile (h : Grown c c') {off n : ℕ} (hn : off + n ≤ c.filePoolUsed) :
    c'.filePool.read off n = c.filePool.read off n :=
  Mem.read_congr fun i hi => h.filePool _ (by omega)

/-- Loading a file adds a record and octets. -/
theorem grown_loadFile (owner : ℕ) (x : FileImage) (h : PoolsBounded c) :
    Grown c (loadFile owner c x) := by
  rw [loadFile_eq]
  exact { Grown.refl h with
    numFiles := Nat.le_succ _
    files := fun n hn => Function.update_of_ne (by omega) _ _
    fileUsed := Nat.le_add_right _ _
    filePool := fun a ha => Mem.write_apply_of_out (by omega)
    head := rfl }

theorem grown_foldl_loadFile (owner : ℕ) (files : List FileImage) (h : PoolsBounded c) :
    Grown c (files.foldl (loadFile owner) c) := by
  induction files generalizing c with
  | nil => exact Grown.refl h
  | cons x files ih =>
    have hstep := grown_loadFile owner x h
    exact hstep.trans (ih hstep.bounds)

/-- Stores into a layout leave alone what stands before it. -/
theorem storeKeys_before {L : SetLayout} {set slot : ℕ} {m : SetMems} {keys : List KeyImage} :
    (∀ a < L.keys, (m.storeKeys L set slot keys).keys a = m.keys a) ∧
      ∀ a < L.metadata, (m.storeKeys L set slot keys).metadata a = m.metadata a := by
  refine ⟨fun a ha => ?_, fun a ha => storeKeys_metadata (by omega)⟩
  induction keys generalizing slot m with
  | nil => rfl
  | cons k keys ih =>
    have hcell : L.keys ≤ L.keyCell set slot := Nat.le_add_right _ _
    rw [SetMems.storeKeys, ih]
    exact Mem.write_apply_of_out (by omega)

theorem storeSets_before {L : SetLayout} {set : ℕ} {m : SetMems} {sets : List KeySetImage} :
    (∀ a < L.keys, (m.storeSets L set sets).keys a = m.keys a) ∧
      ∀ a < L.metadata, (m.storeSets L set sets).metadata a = m.metadata a := by
  induction sets generalizing set m with
  | nil => exact ⟨fun _ _ => rfl, fun _ _ => rfl⟩
  | cons s sets ih =>
    rw [SetMems.storeSets]
    obtain ⟨hkeys, hmeta⟩ := @ih (set + 1) ((m.storeHeader L set s).storeKeys L set 0 s.keys)
    refine ⟨fun a ha => ?_, fun a ha => ?_⟩
    · rw [hkeys a ha, storeKeys_before.1 a ha]
      rfl
    · rw [hmeta a ha, storeKeys_before.2 a ha, SetMems.storeHeader]
      have hmask : L.metadata ≤ L.maskCell := Nat.le_add_right _ _
      dsimp only
      rw [Mem.write_apply_of_out (by omega), Mem.write_apply_of_out (by omega),
        Mem.write_apply_of_out (by omega)]

/-- What loading the keys of an application changes, and keeps of the pools. -/
structure KeysAppended (c c' : DfcCredential) : Prop where
  rest : c' = { c with
    apps := c'.apps, keyPool := c'.keyPool, keyPoolUsed := c'.keyPoolUsed
    keySetMetadataPool := c'.keySetMetadataPool
    keySetMetadataPoolUsed := c'.keySetMetadataPoolUsed }
  keyUsed : c.keyPoolUsed ≤ c'.keyPoolUsed
  keyPool : ∀ a < c.keyPoolUsed, c'.keyPool a = c.keyPool a
  metadataUsed : c.keySetMetadataPoolUsed ≤ c'.keySetMetadataPoolUsed
  metadata : ∀ a < c.keySetMetadataPoolUsed, c'.keySetMetadataPool a = c.keySetMetadataPool a

theorem keysAppended_placeKeys (c : DfcCredential) (i keyLen : ℕ) (keys : List KeyImage) :
    KeysAppended c (placeKeys c (some i) keyLen keys) := by
  rw [placeKeys]
  split_ifs
  · exact ⟨rfl, le_rfl, fun _ _ => rfl, le_rfl, fun _ _ => rfl⟩
  · refine ⟨rfl, Nat.le_add_right _ _, fun a ha => ?_, le_rfl, fun _ _ => rfl⟩
    simp only [storeKeys, storeKeyVersions, reserveKeys, DfcCredential.modifyApp]
    rw [Mem.write_apply_of_out (by omega), Mem.fill_apply_of_out (by omega)]

theorem keysAppended_placeKeySets (c : DfcCredential) (i keyCount maxSize : ℕ) (settings : UInt8)
    (sets : List KeySetImage) :
    KeysAppended c (placeKeySets c i keyCount maxSize settings sets) := by
  obtain ⟨c₁, hc₁⟩ : ∃ c₁, c₁ = (reserveKeySets c i sets.length keyCount maxSize).modifyApp i
      fun a => { a with keySetSettings := settings } := ⟨_, rfl⟩
  have hkeys : ∀ a < c.keyPoolUsed, c₁.keyPool a = c.keyPool a := by
    intro a ha
    rw [hc₁]
    exact Mem.fill_apply_of_out (Or.inl ha)
  have hmetadata : ∀ a < c.keySetMetadataPoolUsed,
      c₁.keySetMetadataPool a = c.keySetMetadataPool a := by
    intro a ha
    simp only [hc₁, reserveKeySets, DfcCredential.modifyApp]
    rw [Mem.write_apply_of_out (by omega), Mem.fill_apply_of_out (Or.inl ha)]
  have hstored := @storeSets_before (freshLayout c sets.length keyCount maxSize) 0 (memsOf c₁ i)
    sets
  have hplace : placeKeySets c i keyCount maxSize settings sets = putMems c₁ i
      ((memsOf c₁ i).storeSets (freshLayout c sets.length keyCount maxSize) 0 sets) := by
    rw [placeKeySets, ← hc₁]
  generalize (memsOf c₁ i).storeSets (freshLayout c sets.length keyCount maxSize) 0 sets = m
    at hstored hplace
  rw [hplace]
  refine ⟨?_, ?_, fun a ha => (hstored.1 a ha).trans (hkeys a ha), ?_,
    fun a ha => (hstored.2 a ha).trans (hmetadata a ha)⟩
  · simp only [putMems, hc₁, reserveKeySets, DfcCredential.modifyApp]
  · rw [putMems, hc₁]
    exact Nat.le_add_right _ _
  · rw [putMems, hc₁]
    exact Nat.le_add_right _ _

/-- Keys are added behind the keys of the other owners. -/
theorem grown_placeKeyStore {i : ℕ} {keys : KeyStoreImage} (hi : c.numApps ≤ i)
    (hpools : PoolsBounded c) (hload : keys.Loadable c i) : Grown c (placeKeyStore c i keys) := by
  have hbound := poolsBounded_placeKeyStore hpools hload
  have happs : ∀ j < c.numApps, (placeKeyStore c i keys).apps j = c.apps j :=
    fun j hj => placeKeyStore_apps c i keys (by omega)
  have hframe : KeysAppended c (placeKeyStore c i keys) := by
    cases keys with
    | list keys => exact keysAppended_placeKeys c i _ keys
    | sets keyCount maxSize settings sets =>
      exact keysAppended_placeKeySets c i keyCount maxSize settings sets
  generalize placeKeyStore c i keys = c' at hbound happs hframe ⊢
  have hrest := hframe.rest
  exact
    { head := (congrArg DfcCredential.head hrest :)
      numApps := (congrArg DfcCredential.numApps hrest :).ge
      apps := happs
      numFiles := (congrArg DfcCredential.numFiles hrest :).ge
      files := fun n _ => (congrArg (fun c => c.files n) hrest :)
      fileUsed := (congrArg DfcCredential.filePoolUsed hrest :).ge
      filePool := fun a _ => (congrArg (fun c => c.filePool a) hrest :)
      keyUsed := hframe.keyUsed
      keyPool := hframe.keyPool
      bounds := hbound
      metadataUsed := hframe.metadataUsed
      metadata := hframe.metadata }

theorem Grown.countApp {i : ℕ} {f : DfcApplication → DfcApplication} (h : Grown c c')
    (hi : c.numApps ≤ i) : Grown c (countApp (c'.modifyApp i f)) :=
  { head := h.head
    numApps := h.numApps.trans (Nat.le_succ _)
    apps := fun j hj => (Function.update_of_ne (by omega) _ _).trans (h.apps j hj)
    numFiles := h.numFiles
    files := h.files
    fileUsed := h.fileUsed
    filePool := h.filePool
    keyUsed := h.keyUsed
    keyPool := h.keyPool
    bounds := h.bounds
    metadataUsed := h.metadataUsed
    metadata := h.metadata }

/-- An application is added behind the last one. -/
theorem grown_loadAppRecord {version : ℕ} {a : AppImage} (hc : Loading c)
    (ha : a.Loadable version c) : Grown c (loadAppRecord version c a) := by
  have hsettings : Grown c (c.modifyApp c.numApps fun app =>
      storeAppSettings version app a.toAppSettingsImage) :=
    { head := rfl
      numApps := le_rfl
      apps := fun i hi => Function.update_of_ne (by omega) _ _
      numFiles := le_rfl
      files := fun _ _ => rfl
      fileUsed := le_rfl
      filePool := fun _ _ => rfl
      keyUsed := le_rfl
      keyPool := fun _ _ => rfl
      bounds := hc.pools
      metadataUsed := le_rfl
      metadata := fun _ _ => rfl }
  have hkeys := grown_placeKeyStore (c := c.modifyApp c.numApps fun app =>
    storeAppSettings version app a.toAppSettingsImage) (i := c.numApps) le_rfl hc.pools ha.keys
  exact (hsettings.trans hkeys).countApp le_rfl

theorem grown_loadApp {version : ℕ} {a : AppImage} (hc : Loading c) (ha : a.Loadable version c) :
    Grown c (loadApp version c a) := by
  have hrecord := grown_loadAppRecord hc ha
  exact hrecord.trans (grown_foldl_loadFile c.numApps a.files hrecord.bounds)

theorem grown_foldl_loadApp {version : ℕ} {apps : List AppImage} (hc : Loading c)
    (hl : AllFrom (AppImage.Loadable version) (loadApp version) c apps) :
    Grown c (apps.foldl (loadApp version) c) := by
  induction apps generalizing c with
  | nil => exact Grown.refl hc.pools
  | cons a apps ih => exact (grown_loadApp hc hl.1).trans (ih (hc.loadApp hl.1) hl.2)

end Growing

/-- What holds now and in every later state of the decode. -/
def Settled (c : DfcCredential) (p : DfcCredential → Prop) : Prop := ∀ c', Grown c c' → p c'

theorem Settled.grow {c c' : DfcCredential} {p : DfcCredential → Prop} (h : Settled c p)
    (hg : Grown c c') : Settled c' p := fun _ hc => h _ (hg.trans hc)

/-- The record at `n` shows a file of an owner. -/
def ShowsFile (n : ℕ) (p : ℕ × FileImage) (c : DfcCredential) : Prop :=
  (c.files n).appIndex = p.1 ∧ fileImage c (c.files n) = p.2

theorem settled_loadFile {c : DfcCredential} {owner : ℕ} {x : FileImage} (ho : owner < 256)
    (hx : x.Loadable owner c) (hcanon : x.contents.Canonical) :
    Settled (loadFile owner c x) (ShowsFile c.numFiles (owner, x)) := by
  intro c' hg
  have hfile : c'.files c.numFiles = loadedFile owner c.filePoolUsed x := by
    rw [hg.files _ (by rw [loadFile_eq]; exact Nat.lt_succ_self _), loadFile_eq]
    exact Function.update_self _ _ _
  have hused : c.filePoolUsed + x.contents.octets.length ≤ (loadFile owner c x).filePoolUsed := by
    rw [loadFile_eq]
  have hbound : x.contents.octets ≠ [] → c.filePoolUsed ≠ dfcFilePoolNone := by
    intro hne hnone
    have hfits : c.filePoolUsed ≤ dfcFilePoolSize := by
      have hc := hx.contents
      cases hcont : x.contents with
      | data size known complete =>
        rw [hcont] at hc hne
        exact (Nat.le_add_right _ _).trans (hc.2.2.2.2.1 hne).2
      | record size maxRecords count complete records =>
        rw [hcont] at hc hne
        have hrec : records ≠ [] := fun h => hne (by rw [h]; rfl)
        exact (Nat.le_add_right _ _).trans (hc.2.2.2.2.2.2.2.2.2.2 hrec).2
      | value => rw [hcont] at hne; exact absurd rfl hne
      | transactionMac => rw [hcont] at hne; exact absurd rfl hne
    simp only [dfcFilePoolSize, dfcFilePoolNone] at hfits hnone
    omega
  have hplaced : SlicePlaced c' c.filePoolUsed x.contents.octets := by
    refine ⟨?_, hused.trans hg.fileUsed, hbound⟩
    rw [hg.readFile hused, loadFile_eq]
    exact Mem.read_write_self _ _ _
  refine ⟨?_, ?_⟩
  · rw [hfile]
    have hindex : (loadedFile owner c.filePoolUsed x).appIndex = u8 owner :=
      congrArg DfcFile.appIndex (head_loadedFile owner c.filePoolUsed x)
    rw [hindex, u8_of_lt ho]
  · rw [hfile]
    exact fileImage_loadedFile hx.contents hx.sdm hcanon hplaced

/-- The key list of an owner in the key pool. -/
theorem keys_read {m v : Mem} {off keyLen n : ℕ} {keys : List KeyImage}
    (hl : ∀ k ∈ keys, k.value.length = keyLen)
    (hread : m.read off (keys.length * keyLen) = keys.flatMap KeyImage.value)
    (hversions : v.read n keys.length = keys.map KeyImage.version) :
    (List.range keys.length).map
      (fun slot => KeyImage.mk (m.read (off + slot * keyLen) keyLen) (v (n + slot))) = keys := by
  induction keys generalizing off n with
  | nil => rfl
  | cons k keys ih =>
    rw [List.forall_mem_cons] at hl
    rw [List.length_cons, Nat.succ_mul, Nat.add_comm, Mem.read_add, List.flatMap_cons] at hread
    obtain ⟨hvalue, hvalues⟩ := List.append_inj hread (by rw [Mem.length_read, hl.1])
    rw [List.length_cons, Nat.add_comm, Mem.read_add, List.map_cons] at hversions
    rw [← List.singleton_append] at hversions
    obtain ⟨hversion, hversions⟩ := List.append_inj hversions (by simp)
    have hfirst : v n = k.version := by simpa [Mem.read] using hversion
    rw [List.length_cons, List.range_succ_eq_map, List.map_cons, List.map_map, Nat.zero_mul,
      Nat.add_zero, Nat.add_zero, hvalue, hfirst]
    congr 1
    conv_rhs => rw [← ih hl.2 hvalues hversions]
    apply List.map_congr_left
    intro i _
    simp only [Function.comp_apply, Nat.succ_eq_add_one, Nat.succ_mul]
    congr 2 <;> omega

/-- The keys of an owner and where they are found. -/
structure KeysAt (c : DfcCredential) (app : Option ℕ) (used keyLen : ℕ) (keys : List KeyImage) :
    Prop where
  count : numKeysOf c app = keys.length
  width : keys ≠ [] → dfcCredentialStoredKeyLength (keyLenOf c app) = keyLen
  found : ∀ slot < keys.length, dfcCredentialKey c app slot = some (used + slot * keyLen)
  value : c.keyPool.read used (keys.length * keyLen) = keys.flatMap KeyImage.value
  version : (keyVersionsOf c app).read 0 keys.length = keys.map KeyImage.version

theorem KeysAt.image {c : DfcCredential} {app : Option ℕ} {used keyLen : ℕ} {keys : List KeyImage}
    (h : KeysAt c app used keyLen keys) (hl : ∀ k ∈ keys, k.value.length = keyLen) :
    keyListImage c app = keys := by
  rw [keyListImage, h.count]
  refine Eq.trans ?_ (keys_read hl h.value h.version)
  apply List.map_congr_left
  intro slot hslot
  have hlt := List.mem_range.mp hslot
  have hne : keys ≠ [] := fun hnil => by simp [hnil] at hlt
  rw [h.found slot hlt, h.width hne, Option.getD_some, Nat.zero_add]

theorem keyAt_found {c : DfcCredential} {offset n keyLen slot : ℕ} (hk : keyLen = 16 ∨ keyLen = 24)
    (hslot : slot < n) (hfit : offset + n * keyLen ≤ c.keyPoolUsed)
    (hused : c.keyPoolUsed ≤ dfcKeyPoolSize) :
    dfcCredentialKeyAt c offset (n * keyLen) n keyLen slot = some (offset + slot * keyLen) := by
  have hpos : 0 < n * keyLen := Nat.mul_pos (by omega) (by omega)
  have hmul : (slot + 1) * keyLen ≤ n * keyLen := Nat.mul_le_mul_right _ hslot
  simp only [dfcCredentialKeyAt, storedKeyLength_eq hk, dfcKeyPoolNone, dfcKeyPoolSize] at hused ⊢
  rw [if_neg (by omega), if_neg (by omega), if_neg (by omega), if_neg (by omega)]

theorem length_keyValues {keys : List KeyImage} {width : ℕ}
    (hl : ∀ k ∈ keys, k.value.length = width) :
    (keys.flatMap KeyImage.value).length = keys.length * width := by
  induction keys with
  | nil => simp
  | cons k keys ih =>
    rw [List.forall_mem_cons] at hl
    rw [List.flatMap_cons, List.length_append, hl.1, ih hl.2, List.length_cons, Nat.succ_mul,
      Nat.add_comm]

/-- Where the keys of an owner are looked up, with their versions. -/
def keyPlace (c : DfcCredential) : Option ℕ → (ℕ × ℕ × ℕ × ℕ × ℕ) × Mem
  | some i =>
    let a := c.apps i
    ((a.keyOffset, a.keyPoolLen, a.numKeys, a.keyLen, a.keyStorageLen), a.keyVersions)
  | none =>
    ((c.piccKeyOffset, c.piccKeyPoolLen, c.piccNumKeys, c.piccKeyLen, c.piccKeyLen),
      c.piccKeyVersions)

theorem keyPlace_eq {c : DfcCredential} {app : Option ℕ} {off len n keyLen storage : ℕ} {v : Mem}
    (h : keyPlace c app = ((off, len, n, keyLen, storage), v)) :
    numKeysOf c app = n ∧ keyLenOf c app = keyLen ∧ keyVersionsOf c app = v ∧
      ∀ slot, dfcCredentialKey c app slot = dfcCredentialKeyAt c off len n storage slot := by
  cases app with
  | none =>
    cases h
    exact ⟨rfl, rfl, rfl, fun _ => rfl⟩
  | some i =>
    cases h
    exact ⟨rfl, rfl, rfl, fun _ => rfl⟩

theorem keyPlace_storeKeys (c : DfcCredential) (app : Option ℕ) (keyLen : ℕ)
    (keys : List KeyImage) :
    keyPlace (storeKeys (reserveKeys c app keys.length keyLen) app c.keyPoolUsed 0 keys) app =
      ((c.keyPoolUsed, keys.length * keyLen, keys.length, keyLen, keyLen),
        (keyVersionsOf c app).write 0 (keys.map KeyImage.version)) := by
  cases app with
  | none => rfl
  | some i =>
    simp [keyPlace, storeKeys, storeKeyVersions, reserveKeys, DfcCredential.modifyApp,
      DfcApplication.reserveKeys, keyVersionsOf]

/-- The keys of an owner that were placed, as long as their place and their octets stay. -/
theorem keyList_placed {c c' : DfcCredential} {app : Option ℕ} {keyLen : ℕ} {keys : List KeyImage}
    (hk : keyLen = 16 ∨ keyLen = 24) (hload : KeysLoadable c keyLen keys)
    (hplace : keyPlace c' app = keyPlace (placeKeys c app keyLen keys) app)
    (hused : (placeKeys c app keyLen keys).keyPoolUsed ≤ c'.keyPoolUsed)
    (hpool : ∀ a < (placeKeys c app keyLen keys).keyPoolUsed,
      c'.keyPool a = (placeKeys c app keyLen keys).keyPool a)
    (hbound : c'.keyPoolUsed ≤ dfcKeyPoolSize) : keyListImage c' app = keys := by
  have hlen := length_keyValues hload.length
  rw [placeKeys] at hplace hused hpool
  split_ifs at hplace hused hpool with hnil
  · have hnum : numKeysOf c' app = 0 := by
      refine (keyPlace_eq (h := hplace)).1.trans ?_
      cases app with
      | none => rfl
      | some i => simp [noKeys, DfcCredential.modifyApp, DfcApplication.dropKeys]
    rw [keyListImage, hnum, hnil]
    rfl
  · rw [keyPlace_storeKeys] at hplace
    obtain ⟨hnum, hkl, hver, hkey⟩ := keyPlace_eq hplace
    have hstore : storeKeys (reserveKeys c app keys.length keyLen) app c.keyPoolUsed 0 keys =
        { storeKeys (reserveKeys c app keys.length keyLen) app c.keyPoolUsed 0 keys with
          keyPool := (c.keyPool.fill c.keyPoolUsed (keys.length * keyLen) 0).write c.keyPoolUsed
            (keys.flatMap KeyImage.value)
          keyPoolUsed := c.keyPoolUsed + keys.length * keyLen } := by
      cases app <;> rfl
    rw [hstore] at hused hpool
    have hread : c'.keyPool.read c.keyPoolUsed (keys.length * keyLen) =
        ((c.keyPool.fill c.keyPoolUsed (keys.length * keyLen) 0).write c.keyPoolUsed
          (keys.flatMap KeyImage.value)).read c.keyPoolUsed (keys.length * keyLen) :=
      Mem.read_congr fun a ha => hpool _ (Nat.add_lt_add_left ha _)
    have hat : KeysAt c' app c.keyPoolUsed keyLen keys := by
      refine ⟨hnum, fun _ => ?_, fun slot hslot => ?_, ?_, ?_⟩
      · rw [hkl, storedKeyLength_eq hk]
      · rw [hkey]
        exact keyAt_found hk hslot hused hbound
      · rw [hread, Mem.read_write_self' hlen]
      · rw [hver]
        exact Mem.read_write_self' (by simp)
    exact hat.image hload.length

/-- The fields of an application record that say where its keys are. -/
def DfcApplication.keyView (a : DfcApplication) : DfcApplication where
  keyOffset := a.keyOffset
  keyPoolLen := a.keyPoolLen
  numKeys := a.numKeys
  keyLen := a.keyLen
  keyStorageLen := a.keyStorageLen
  keySetMetadataOffset := a.keySetMetadataOffset
  keySetMetadataLen := a.keySetMetadataLen
  keyVersions := a.keyVersions
  numKeySets := a.numKeySets
  maxKeySize := a.maxKeySize
  keySetSettings := a.keySetSettings

/-- What keeps the keys of an application as they are. -/
structure KeysKept (c c' : DfcCredential) (i : ℕ) : Prop where
  view : (c'.apps i).keyView = (c.apps i).keyView
  bounds : PoolsBounded c'
  keyUsed : c.keyPoolUsed ≤ c'.keyPoolUsed
  keyPool : ∀ a < c.keyPoolUsed, c'.keyPool a = c.keyPool a
  metadataUsed : c.keySetMetadataPoolUsed ≤ c'.keySetMetadataPoolUsed
  metadata : ∀ a < c.keySetMetadataPoolUsed, c'.keySetMetadataPool a = c.keySetMetadataPool a

section Kept
variable {c c' : DfcCredential} {i : ℕ}

theorem KeysKept.keyList {keyLen : ℕ} {keys : List KeyImage}
    (h : KeysKept (placeKeys c (some i) keyLen keys) c' i) (hk : keyLen = 16 ∨ keyLen = 24)
    (hload : KeysLoadable c keyLen keys) : keyListImage c' (some i) = keys :=
  keyList_placed hk hload (congrArg (fun a : DfcApplication => ((a.keyOffset, a.keyPoolLen,
    a.numKeys, a.keyLen, a.keyStorageLen), a.keyVersions)) h.view :) h.keyUsed h.keyPool h.bounds.1

/-- The image of a set depends on the octets of its layout. -/
theorem setImage_congr {L : SetLayout} {m m' : SetMems} {set : ℕ}
    (hkeys : ∀ a < L.keys + L.keyCount * L.setCount * L.stride, m'.keys a = m.keys a)
    (hmeta : ∀ a < L.metadata + setMetadataLen L.setCount L.keyCount, m'.metadata a = m.metadata a)
    (hver : m'.versions = m.versions) (hs : set < L.setCount)
    (hw : dfcKeySetTypeLength (m.metadata (L.metadata + L.setCount + set)) ≤ L.stride) :
    m'.setImage L set = m.setImage L set := by
  have hversion := hmeta (L.metadata + set) (by rw [setMetadataLen]; omega)
  have htype := hmeta (L.metadata + L.setCount + set) (by rw [setMetadataLen]; omega)
  have hlow := hmeta L.maskCell (by rw [setMetadataLen, SetLayout.maskCell]; omega)
  have hhigh := hmeta (L.maskCell + 1) (by rw [setMetadataLen, SetLayout.maskCell]; omega)
  rw [SetMems.setImage, SetMems.setImage, SetMems.mask, SetMems.mask, hversion, htype, hlow, hhigh]
  congr 1
  apply List.map_congr_left
  intro slot hslot
  have hlt := List.mem_range.mp hslot
  have hidx : set * L.keyCount + slot + 1 ≤ L.keyCount * L.setCount := by
    have hmul := Nat.mul_le_mul_right L.keyCount hs
    rw [Nat.succ_mul, Nat.mul_comm L.setCount] at hmul
    omega
  have hcell := Nat.mul_le_mul_right L.stride hidx
  rw [Nat.succ_mul] at hcell
  rw [SetMems.keyImage, SetMems.keyImage, hver]
  congr 1
  · exact Mem.read_congr fun a ha => hkeys _ (by rw [SetLayout.keyCell]; omega)
  · split_ifs with h0
    · rfl
    · refine hmeta _ ?_
      have hmul : (set - 1) * L.keyCount + L.keyCount ≤ (L.setCount - 1) * L.keyCount := by
        have := Nat.mul_le_mul_right L.keyCount (show set - 1 + 1 ≤ L.setCount - 1 by omega)
        rwa [Nat.succ_mul] at this
      rw [SetLayout.versionCell, setMetadataLen]
      omega

theorem KeysKept.hasLayout {L : SetLayout} (h : KeysKept c c' i) (hat : HasLayout c i L) :
    HasLayout c' i L := by
  have hview := h.view
  have hnum : (c'.apps i).numKeys = (c.apps i).numKeys := (congrArg DfcApplication.numKeys hview :)
  have hsets : (c'.apps i).numKeySets = (c.apps i).numKeySets :=
    (congrArg DfcApplication.numKeySets hview :)
  have hoff : (c'.apps i).keyOffset = (c.apps i).keyOffset :=
    (congrArg DfcApplication.keyOffset hview :)
  have hlen : (c'.apps i).keyPoolLen = (c.apps i).keyPoolLen :=
    (congrArg DfcApplication.keyPoolLen hview :)
  have hstorage : (c'.apps i).keyStorageLen = (c.apps i).keyStorageLen :=
    (congrArg DfcApplication.keyStorageLen hview :)
  have hmoff : (c'.apps i).keySetMetadataOffset = (c.apps i).keySetMetadataOffset :=
    (congrArg DfcApplication.keySetMetadataOffset hview :)
  have hmlen : (c'.apps i).keySetMetadataLen = (c.apps i).keySetMetadataLen :=
    (congrArg DfcApplication.keySetMetadataLen hview :)
  have hmeta := hat.metadata
  have hused := h.metadataUsed
  have hbound := h.bounds.2
  refine ⟨hnum.trans hat.numKeys, hsets.trans hat.numKeySets, hoff.trans hat.keyOffset,
    hlen.trans hat.keyPoolLen, hstorage.trans hat.keyStorageLen, hat.stride, hat.keyCount,
    hat.setCount, hat.keysFit.trans h.keyUsed, h.bounds.1, ?_⟩
  rw [dfcKeySetMetadataSlice] at hmeta ⊢
  rw [hsets, hnum, hmoff, hmlen]
  dsimp only at hmeta ⊢
  split_ifs at hmeta with h₁ h₂
  rw [if_neg (by omega), if_neg (by omega)]
  exact hmeta

/-- The key sets of an application record that has been loaded. -/
theorem KeysKept.keySets {keyCount maxSize : ℕ} {settings : UInt8} {sets : List KeySetImage}
    (h : KeysKept (placeKeySets c i keyCount maxSize settings sets) c' i)
    (hload : KeySetsLoadable c i keyCount maxSize settings sets)
    (hfull : ∀ s ∈ sets, s.keys.length = keyCount) :
    (List.range sets.length).map (keySetImage c' (c'.apps i)) = sets := by
  obtain ⟨L, hL⟩ : ∃ L, L = freshLayout c sets.length keyCount maxSize := ⟨_, rfl⟩
  obtain ⟨c₁, hc₁⟩ : ∃ c₁, c₁ = (reserveKeySets c i sets.length keyCount maxSize).modifyApp i
      fun a => { a with keySetSettings := settings } := ⟨_, rfl⟩
  have hplace : placeKeySets c i keyCount maxSize settings sets =
      putMems c₁ i ((memsOf c₁ i).storeSets L 0 sets) := by rw [placeKeySets, ← hc₁, hL]
  have hlayout : HasLayout c₁ i L := by rw [hc₁, hL]; exact hasLayout_settings settings hload.room
  rw [hplace] at h
  have hlayout' := h.hasLayout (hlayout.put _)
  have hcount : L.setCount = sets.length := by rw [hL]; rfl
  have hc16 : L.setCount ≤ 16 := hlayout.setCount.2
  have hfit : ∀ s ∈ sets, SetFits L s := by
    intro s hs
    have hload := hload.each s hs
    rw [hL]
    exact ⟨hload.width, hfull s hs, hload.length⟩
  have hself := storeSets_self (m := memsOf c₁ i) hc16 (by omega : 0 + sets.length ≤ _) hfit
  rw [← List.range_eq_range'] at hself
  refine Eq.trans (List.map_congr_left fun set hset => ?_) hself
  have hlt : set < L.setCount := by rw [hcount]; exact List.mem_range.mp hset
  have hmem : ((memsOf c₁ i).storeSets L 0 sets).setImage L set ∈ sets := by
    have himage := List.mem_map_of_mem
      (f := fun n => ((memsOf c₁ i).storeSets L 0 sets).setImage L n) hset
    rwa [hself] at himage
  rw [hlayout'.keySetImage_eq hlt]
  refine setImage_congr (fun a ha => ?_) (fun a ha => ?_) ?_ hlt (hfit _ hmem).width
  · exact h.keyPool a (ha.trans_le hlayout.keysFit)
  · refine h.metadata a ?_
    have hused : c₁.keySetMetadataPoolUsed =
        L.metadata + setMetadataLen L.setCount L.keyCount := by rw [hc₁, hL]; rfl
    exact ha.trans_le hused.ge
  · exact (congrArg DfcApplication.keyVersions h.view :).trans
      (congrArg SetMems.versions (memsOf_putMems c₁ i _))

/-- Every set lists all of its keys. -/
def KeyStoreImage.Full : KeyStoreImage → Prop
  | .list _ => True
  | .sets keyCount _ _ keySets => ∀ s ∈ keySets, s.keys.length = keyCount

theorem KeysKept.keyStore {keys : KeyStoreImage} (h : KeysKept (placeKeyStore c i keys) c' i)
    (hv : (c.apps i).Vacant) (hk : (c.apps i).keyLen = 16 ∨ (c.apps i).keyLen = 24)
    (hload : keys.Loadable c i) (hfull : keys.Full) : keyStoreImage c' i = keys := by
  have hview := h.view
  cases keys with
  | list keys =>
    have hsets : (c'.apps i).numKeySets = 1 := by
      refine (congrArg DfcApplication.numKeySets hview :).trans (Eq.trans ?_ hv.numKeySets)
      rw [placeKeyStore, placeKeys]
      split_ifs
      · simp [noKeys, DfcCredential.modifyApp, DfcApplication.dropKeys, DfcApplication.keyView]
      · simp [storeKeys, storeKeyVersions, reserveKeys, DfcCredential.modifyApp,
          DfcApplication.keyView, DfcApplication.reserveKeys]
    have hlist := KeysKept.keyList h hk hload
    rw [keyStoreImage]
    simp only [hsets, dfcKeySetMinimumCount, Nat.one_lt_ofNat, if_true, hlist]
  | sets keyCount maxSize settings sets =>
    have hrecord : ((placeKeySets c i keyCount maxSize settings sets).apps i).keyView =
        { ((c.apps i).reserveKeySets c.keyPoolUsed c.keySetMetadataPoolUsed sets.length keyCount
            maxSize).keyView with
          keySetSettings := settings
          keyVersions :=
            ((placeKeySets c i keyCount maxSize settings sets).apps i).keyVersions } := by
      simp [placeKeySets, putMems, reserveKeySets, DfcCredential.modifyApp, DfcApplication.keyView,
        DfcApplication.reserveKeySets]
    rw [placeKeyStore, hrecord] at hview
    have hnum : (c'.apps i).numKeys = keyCount := (congrArg DfcApplication.numKeys hview :)
    have hsets : (c'.apps i).numKeySets = sets.length :=
      (congrArg DfcApplication.numKeySets hview :)
    have hmax : (c'.apps i).maxKeySize = maxSize := (congrArg DfcApplication.maxKeySize hview :)
    have hset : (c'.apps i).keySetSettings = settings :=
      (congrArg DfcApplication.keySetSettings hview :)
    have hmin := (KeySetsLoadable.room hload).sets.1
    rw [keyStoreImage]
    simp only [hnum, hsets, hmax, hset, KeysKept.keySets h hload hfull]
    rw [if_neg (by omega)]

end Kept

/-- The fields of an application record that say nothing about its keys. -/
def DfcApplication.restView (a : DfcApplication) : DfcApplication :=
  { a with
    keyOffset := 0, keyPoolLen := 0, numKeys := 0, keyLen := 0, keyStorageLen := 0
    keySetMetadataOffset := 0, keySetMetadataLen := 0, keyVersions := Mem.zero, numKeySets := 0
    maxKeySize := 0, keySetSettings := 0 }

theorem restView_placeKeyStore (c : DfcCredential) (i : ℕ) (keys : KeyStoreImage) :
    ((placeKeyStore c i keys).apps i).restView = (c.apps i).restView := by
  cases keys with
  | list keys =>
    rw [placeKeyStore, placeKeys]
    split_ifs
    · simp [noKeys, DfcCredential.modifyApp, DfcApplication.dropKeys, DfcApplication.restView]
    · simp [storeKeys, storeKeyVersions, reserveKeys, DfcCredential.modifyApp,
        DfcApplication.restView, DfcApplication.reserveKeys]
  | sets keyCount maxSize settings sets =>
    simp [placeKeyStore, placeKeySets, putMems, reserveKeySets, DfcCredential.modifyApp,
      DfcApplication.restView, DfcApplication.reserveKeySets]

theorem storeAppTail_views (a : DfcApplication) (capability : Option Slice)
    (delegated : Option DelegatedImage) (smDisable : Option UInt8) :
    (storeAppTail a capability delegated smDisable).keyView = a.keyView ∧
      (storeAppTail a capability delegated smDisable).restView =
        storeAppTail a.restView capability delegated smDisable := by
  cases delegated with
  | none => exact ⟨rfl, rfl⟩
  | some d => exact ⟨rfl, rfl⟩

theorem placeKeyStore_numFiles (c : DfcCredential) (i : ℕ) (keys : KeyStoreImage) :
    (placeKeyStore c i keys).numFiles = c.numFiles := by
  cases keys with
  | list keys =>
    rw [placeKeyStore, placeKeys]
    split_ifs <;> rfl
  | sets =>
    simp only [placeKeyStore, placeKeySets, putMems, reserveKeySets, DfcCredential.modifyApp]

theorem loadAppRecord_numApps (version : ℕ) (c : DfcCredential) (a : AppImage) :
    (loadAppRecord version c a).numApps = c.numApps + 1 := by
  rw [loadAppRecord]
  simp [countApp, DfcCredential.modifyApp, placeKeyStore_numApps]

theorem length_le_of_loadable {version : ℕ} {c : DfcCredential} {apps : List AppImage}
    (hroom : c.numApps ≤ dfcMaxApps)
    (hl : AllFrom (AppImage.Loadable version) (loadApp version) c apps) :
    c.numApps + apps.length ≤ dfcMaxApps := by
  induction apps generalizing c with
  | nil => exact hroom
  | cons a apps ih =>
    have hnum : (loadApp version c a).numApps = c.numApps + 1 := by
      obtain ⟨fs, n, pool, used, hfiles⟩ := foldl_loadFile_frame c.numApps a.files
        (loadAppRecord version c a)
      rw [loadApp, hfiles]
      exact loadAppRecord_numApps version c a
    have hrest := ih (c := loadApp version c a) (by rw [hnum]; exact hl.1.room) hl.2
    rw [List.length_cons]
    omega

/-- The application at `i` shows an image, its files apart. -/
def ShowsApp (i : ℕ) (a : AppImage) (c : DfcCredential) : Prop :=
  { appImage c i with files := a.files } = a

/-- What the settings of a loaded record show. -/
theorem appImage_restView {c : DfcCredential} {i : ℕ} {a : AppImage} {version : ℕ}
    (hver : 6 ≤ version) (hload : a.toAppSettingsImage.Loadable version c)
    (hcap : ∀ bs ∈ a.capabilityData, bs.length = 10) {c' : DfcCredential}
    (hrest : (c'.apps i).restView = storeAppTail (storeAppSettings version {}
      a.toAppSettingsImage).restView a.capabilityData a.delegated a.smDisable)
    (hkeys : keyStoreImage c' i = a.keys) : ShowsApp i a c' := by
  obtain ⟨x, keys, files, capability, delegated, smDisable⟩ := a
  have hname : (storeAppSettings version {} x).restView.isoAid.read 0
      (storeAppSettings version {} x).restView.isoAidLen = x.dfName := by
    simp only [storeAppSettings, DfcApplication.restView]
    split_ifs with hnil
    · rw [hnil]
      rfl
    · exact Mem.read_write_self _ _ _
  have hauth : (storeAppSettings version {} x).restView.hasAuthCommands = true ∧
      (storeAppSettings version {} x).restView.authCommands = x.authCommands := by
    simp [storeAppSettings, DfcApplication.restView, storeAuth, hver]
  have hpref : whenSet (storeAppSettings version {} x).restView.hasPreferredAuthCommand
      (storeAppSettings version {} x).restView.preferredAuthCommand = x.preferredAuthCommand := by
    simp [storeAppSettings, DfcApplication.restView, storeAuth, hver, whenSet_getD]
  have hfid : whenSet (storeAppSettings version {} x).restView.hasIsoFileId
      (storeAppSettings version {} x).restView.isoFileId = x.isoFileId := by
    simp [storeAppSettings, DfcApplication.restView, whenSet_getD]
  have haid : (storeAppSettings version {} x).restView.aid.read 0 3 = x.aid :=
    Mem.read_write_self' hload.aid
  have hks1 : (storeAppSettings version {} x).restView.keySettings1 = x.keySettings1 := rfl
  have hks2 : (storeAppSettings version {} x).restView.keySettings2 = x.keySettings2 := rfl
  have hfresh : (storeAppSettings version {} x).restView.hasCapabilityData = false ∧
      (storeAppSettings version {} x).restView.delegated = false ∧
      (storeAppSettings version {} x).restView.hasSmDisable = false := ⟨rfl, rfl, rfl⟩
  generalize (storeAppSettings version {} x).restView = r at *
  -- The image of the record, read off what is left of the record without its keys.
  have himage (d : DfcApplication) (hd : (c'.apps i).restView = d) :
      { appImage c' i with files := files } =
        (⟨⟨d.aid.read 0 3, whenSet d.hasIsoFileId d.isoFileId, d.isoAid.read 0 d.isoAidLen,
          d.keySettings1, d.keySettings2, dfcCredentialAppAuthCommands c' d,
          whenSet d.hasPreferredAuthCommand d.preferredAuthCommand⟩, keyStoreImage c' i, files,
          whenSet d.hasCapabilityData (d.capabilityData.read 0 10),
          whenSet d.delegated (delegatedImage d),
          whenSet d.hasSmDisable d.smDisable⟩ : AppImage) := by
    subst hd
    rfl
  have hcapability : whenSet capability.isSome
      ((r.capabilityData.write 0 (capability.getD [])).read 0 10) = capability := by
    cases capability with
    | none => rfl
    | some bs => exact congrArg some (Mem.read_write_self' (hcap bs rfl))
  rw [ShowsApp, himage _ hrest, hkeys]
  cases delegated with
  | none =>
    simp only [storeAppTail, loadDelegated, dfcCredentialAppAuthCommands, hauth, hfresh, hname,
      hpref, hfid, haid, hks1, hks2, Bool.or_false, whenSet_getD, hcapability, if_true,
      whenSet_false]
  | some d =>
    simp only [storeAppTail, loadDelegated, storeDelegated, delegatedImage,
      dfcCredentialAppAuthCommands, hauth, hfresh, hname, hpref, hfid, haid, hks1, hks2,
      Bool.or_false, whenSet_getD, hcapability, if_true, whenSet_true]

theorem settled_loadAppRecord {version : ℕ} {c : DfcCredential} {a : AppImage} (hver : 6 ≤ version)
    (hc : Loading c) (ha : a.Loadable version c) (hfull : a.keys.Full) :
    Settled (loadAppRecord version c a) (ShowsApp c.numApps a) := by
  intro c' hg
  obtain ⟨c₁, hc₁⟩ : ∃ c₁, c₁ = c.modifyApp c.numApps fun app =>
    storeAppSettings version app a.toAppSettingsImage := ⟨_, rfl⟩
  have happ : c₁.apps c.numApps = storeAppSettings version {} a.toAppSettingsImage := by
    rw [hc₁]
    simp [DfcCredential.modifyApp, hc.fresh _ le_rfl]
  have hrecord : loadAppRecord version c a = countApp ((placeKeyStore c₁ c.numApps a.keys).modifyApp
      c.numApps fun app => storeAppTail app a.capabilityData a.delegated a.smDisable) := by
    rw [loadAppRecord, ← hc₁]
  have hkeys := ha.keys
  rw [← hc₁] at hkeys
  have hnum := loadAppRecord_numApps version c a
  have hself : c'.apps c.numApps = storeAppTail ((placeKeyStore c₁ c.numApps a.keys).apps c.numApps)
      a.capabilityData a.delegated a.smDisable := by
    rw [hg.apps _ (by omega), hrecord]
    simp [countApp, DfcCredential.modifyApp]
  have hviews := storeAppTail_views ((placeKeyStore c₁ c.numApps a.keys).apps c.numApps)
    a.capabilityData a.delegated a.smDisable
  have hkept : KeysKept (placeKeyStore c₁ c.numApps a.keys) c' c.numApps := by
    refine ⟨by rw [hself, hviews.1], hg.bounds, ?_, ?_, ?_, ?_⟩
    · have hused := hg.keyUsed
      rwa [hrecord] at hused
    · have hpool := hg.keyPool
      rwa [hrecord] at hpool
    · have hused := hg.metadataUsed
      rwa [hrecord] at hused
    · have hpool := hg.metadata
      rwa [hrecord] at hpool
  have hstore := hkept.keyStore (by rw [happ]; exact vacant_storeAppSettings vacant_default _)
    (by rw [happ]; exact keyLength_cases _) hkeys hfull
  refine appImage_restView hver ha.settings ha.capability ?_ hstore
  rw [hself, hviews.2, restView_placeKeyStore, happ]

/-- What a state of the decode shows: applications and files in the order they were loaded. -/
structure Loaded (c : DfcCredential) (apps : List AppImage) (files : List (ℕ × FileImage)) :
    Prop where
  bounds : PoolsBounded c
  numApps : c.numApps = apps.length
  numFiles : c.numFiles = files.length
  apps : ∀ i a, apps[i]? = some a → Settled c (ShowsApp i a)
  files : ∀ n p, files[n]? = some p → Settled c (ShowsFile n p)

section Lists
variable {c : DfcCredential} {apps : List AppImage} {files : List (ℕ × FileImage)}

theorem Loaded.loadFile {owner : ℕ} {x : FileImage} (h : Loaded c apps files) (ho : owner < 256)
    (hx : x.Loadable owner c) (hcanon : x.contents.Canonical) :
    Loaded (loadFile owner c x) apps (files ++ [(owner, x)]) := by
  have hg := grown_loadFile owner x h.bounds
  refine ⟨hg.bounds, ?_, ?_, fun i a ha => (h.apps i a ha).grow hg, fun n p hp => ?_⟩
  · rw [loadFile_eq]
    exact h.numApps
  · rw [loadFile_eq, List.length_append]
    exact congrArg (· + 1) h.numFiles
  · rw [List.getElem?_append] at hp
    split_ifs at hp with hn
    · exact (h.files n p hp).grow hg
    · rw [List.getElem?_singleton] at hp
      split_ifs at hp with hzero
      have hlast : n = c.numFiles := by
        have := h.numFiles
        omega
      cases hp
      rw [hlast]
      exact settled_loadFile ho hx hcanon

theorem Loaded.loadFiles {owner : ℕ} {l : List FileImage} (h : Loaded c apps files)
    (ho : owner < 256) (hl : AllFrom (FileImage.Loadable owner) (DfcCore.loadFile owner) c l)
    (hcanon : ∀ x ∈ l, x.contents.Canonical) :
    Loaded (l.foldl (DfcCore.loadFile owner) c) apps (files ++ l.map (Prod.mk owner)) := by
  induction l generalizing c files with
  | nil => rwa [List.map_nil, List.append_nil]
  | cons x l ih =>
    rw [List.forall_mem_cons] at hcanon
    have hstep := ih (h.loadFile ho hl.1 hcanon.1) hl.2 hcanon.2
    rwa [List.append_assoc] at hstep

/-- An image of an application that no other one shares its record with. -/
structure AppImage.Canonical (a : AppImage) : Prop where
  keys : a.keys.Full
  files : ∀ x ∈ a.files, x.contents.Canonical

theorem Loaded.loadApp {version : ℕ} {a : AppImage} (h : Loaded c apps files) (hver : 6 ≤ version)
    (hc : Loading c) (ha : a.Loadable version c) (hcanon : a.Canonical) :
    Loaded (loadApp version c a) (apps ++ [a]) (files ++ a.files.map (Prod.mk apps.length)) := by
  have hg := grown_loadAppRecord hc ha
  have hnum := loadAppRecord_numApps version c a
  have hfiles : (loadAppRecord version c a).numFiles = c.numFiles := by
    rw [loadAppRecord]
    simp [countApp, DfcCredential.modifyApp, placeKeyStore_numFiles]
  have happs := h.numApps
  have hrecord : Loaded (loadAppRecord version c a) (apps ++ [a]) files := by
    refine ⟨hg.bounds, ?_, hfiles.trans h.numFiles, fun i b hb => ?_,
      fun n p hp => (h.files n p hp).grow hg⟩
    · rw [hnum, happs, List.length_append]
      rfl
    · rw [List.getElem?_append] at hb
      split_ifs at hb with hi
      · exact (h.apps i b hb).grow hg
      · rw [List.getElem?_singleton] at hb
        split_ifs at hb with hzero
        have hlast : i = c.numApps := by omega
        cases hb
        rw [hlast]
        exact settled_loadAppRecord hver hc ha hcanon.keys
  have howner : c.numApps < 256 := ha.room.trans (by decide)
  have hloaded := hrecord.loadFiles howner ha.files hcanon.files
  rwa [← happs]

/-- The files of the applications from the one at `i` on, with their owners. -/
def ownedFiles : ℕ → List AppImage → List (ℕ × FileImage)
  | _, [] => []
  | i, a :: apps => a.files.map (Prod.mk i) ++ ownedFiles (i + 1) apps

theorem Loaded.loadApps {version : ℕ} {l : List AppImage} (h : Loaded c apps files)
    (hver : 6 ≤ version) (hc : Loading c)
    (hl : AllFrom (AppImage.Loadable version) (DfcCore.loadApp version) c l)
    (hcanon : ∀ a ∈ l, a.Canonical) :
    Loaded (l.foldl (DfcCore.loadApp version) c) (apps ++ l)
      (files ++ ownedFiles apps.length l) := by
  induction l generalizing c apps files with
  | nil =>
    rw [ownedFiles, List.append_nil, List.append_nil]
    exact h
  | cons a l ih =>
    rw [List.forall_mem_cons] at hcanon
    have hstep := ih (h.loadApp hver hc hl.1 hcanon.1) (hc.loadApp hl.1) hl.2 hcanon.2
    rw [List.length_append, List.append_assoc, List.append_assoc] at hstep
    exact hstep

/-- The files of an owner, read off a list of files with their owners. -/
theorem Loaded.filesOf (h : Loaded c apps files) (owner : ℕ) :
    (filesOf c owner).map (fileImage c) = (files.filter fun p => p.1 = owner).map Prod.snd := by
  have hshows : ∀ n p, files[n]? = some p → ShowsFile n p c :=
    fun n p hp => h.files n p hp c (Grown.refl h.bounds)
  let shown : DfcFile → ℕ × FileImage := fun f => (f.appIndex, fileImage c f)
  have hall : ((List.range c.numFiles).map c.files).map shown = files := by
    rw [h.numFiles]
    refine List.ext_getElem (by simp) fun n h₁ h₂ => ?_
    obtain ⟨hindex, himage⟩ := hshows n files[n] (List.getElem?_eq_getElem h₂)
    simp only [List.getElem_map, List.getElem_range, shown, hindex, himage]
  rw [DfcCore.filesOf, ← hall, List.filter_map (f := shown), List.map_map]
  rfl

end Lists

section Picc
variable {card : CardImage} {p : PiccImage} {version : ℕ}

theorem whenSet_read {o : Option Slice} {n : ℕ} (h : ∀ bs ∈ o, bs.length = n) (m : Mem) :
    whenSet o.isSome ((m.write 0 (o.getD [])).read 0 n) = o := by
  cases o with
  | none => rfl
  | some bs => exact congrArg some (Mem.read_write_self' (h bs rfl))

/-- A part of the image that the PICC record does not hold. -/
theorem keep_placeKeys {α : Type} {f : DfcCredential → α} {c : DfcCredential} {keyLen : ℕ}
    {keys : List KeyImage} (hno : f (noKeys c none) = f c)
    (hstore : f (storeKeys (reserveKeys c none keys.length keyLen) none c.keyPoolUsed 0 keys) =
      f c) :
    f (placeKeys c none keyLen keys) = f c := by
  rw [placeKeys]
  split_ifs
  · exact hno
  · exact hstore

theorem cardImage_loadPicc (h : card.Loadable version) :
    cardImage (loadPicc version (storeCard dfcCredentialClear card) p) = card := by
  refine loadPicc_ind (q := fun c => cardImage c = card) (fun _ _ h => h) (fun _ _ h => h)
    (fun _ _ h => h) (fun _ _ h => h) ?_
  refine (keep_placeKeys (f := cardImage) rfl rfl).trans ?_
  obtain ⟨generation, storage, uid, provenance, signature, hardware, software⟩ := card
  have hflags : dfcCredentialClear.card.hasHardwareVersion = false ∧
      dfcCredentialClear.card.hasSoftwareVersion = false ∧
      dfcCredentialClear.piccHasStaticSignature = false := ⟨rfl, rfl, rfl⟩
  have hsettings (c : DfcCredential) (s : PiccSettingsImage) :
      cardImage (unseeded (storePiccSettings version c s)) = cardImage c := rfl
  rw [hsettings]
  simp only [cardImage, storeCard, hflags, Bool.or_false, whenSet_read h.staticSignature,
    whenSet_read h.hardwareVersion, whenSet_read h.softwareVersion, Mem.read_write_self]

/-- The settings of the PICC record. -/
def piccSettingsImage (c : DfcCredential) : PiccSettingsImage := (piccImage c).toPiccSettingsImage

theorem piccSettings_loadPicc (hver : 6 ≤ version)
    (hp : p.Loadable version (storeCard dfcCredentialClear card)) :
    piccSettingsImage (loadPicc version (storeCard dfcCredentialClear card) p) =
      p.toPiccSettingsImage := by
  refine loadPicc_ind (q := fun c => piccSettingsImage c = p.toPiccSettingsImage) (fun _ _ h => h)
    (fun _ _ h => h) (fun _ _ h => h) (fun _ _ h => h) ?_
  refine (keep_placeKeys (f := piccSettingsImage) rfl rfl).trans ?_
  obtain ⟨c, hc⟩ : ∃ c, c = storeCard dfcCredentialClear card := ⟨_, rfl⟩
  have hflags : c.piccHasPreferredAuthCommand = false ∧ c.piccHasSak = false ∧
      c.piccHasAtqa = false ∧ c.piccHasSmDisable = false ∧ c.piccAtsLen = 0 := by
    rw [hc]
    exact ⟨rfl, rfl, rfl, rfl, rfl⟩
  have hatqa := hp.settings.atqa
  rw [← hc]
  generalize p.toPiccSettingsImage = s at *
  have hats : (c.piccAts.write 0 s.ats).read 0 (if s.ats = [] then 0 else s.ats.length) =
      s.ats := by
    split_ifs with hnil
    · rw [hnil]
      rfl
    · exact Mem.read_write_self _ _ _
  simp only [piccSettingsImage, piccImage, unseeded, storePiccSettings, storeAuth, hver, if_true,
    dfcCredentialPiccAuthCommands, hflags, Bool.or_false, whenSet_getD, whenSet_read hatqa, hats,
    UInt8.ofNat_toNat]

theorem keep_loadGroup {α β : Type} (f : DfcCredential → β)
    (store : DfcCredential → α → DfcCredential)
    (h : ∀ c a, f (store c a) = f c) (c : DfcCredential) (o : Option α) :
    f (loadGroup store c o) = f c :=
  loadGroup_ind (q := fun c' => f c' = f c) (fun c' a hc => (h c' a).trans hc) rfl o

/-- The optional groups of the PICC record. -/
theorem piccGroups_loadPicc (hp : p.Loadable version (storeCard dfcCredentialClear card)) :
    let c := loadPicc version (storeCard dfcCredentialClear card) p
    (piccImage c).ev2Capabilities = p.ev2Capabilities ∧ (piccImage c).proximity = p.proximity ∧
      (piccImage c).virtualCard = p.virtualCard ∧ (piccImage c).dam = p.dam := by
  obtain ⟨c₁, hc₁⟩ : ∃ c₁, c₁ = placeKeys (unseeded (storePiccSettings version
      (storeCard dfcCredentialClear card) p.toPiccSettingsImage)) none
      (dfcCredentialKeyLength p.keySettings2) p.keys := ⟨_, rfl⟩
  have hflags : (c₁.piccHasEv2Capabilities, c₁.piccHasProximityKey, c₁.piccHasProximityBitrate,
      c₁.virtualCardConfigured, c₁.piccHasDamKeys) = (false, false, false, false, false) := by
    rw [hc₁]
    exact keep_placeKeys (f := fun c => (c.piccHasEv2Capabilities, c.piccHasProximityKey,
      c.piccHasProximityBitrate, c.virtualCardConfigured, c.piccHasDamKeys)) rfl rfl
  simp only [Prod.mk.injEq] at hflags
  obtain ⟨f₁, f₂, f₃, f₄, f₅⟩ := hflags
  have hload : loadPicc version (storeCard dfcCredentialClear card) p =
      loadGroup storeDam (loadGroup storeVirtualCard
        (loadGroup storeProximity (storeEv2Capabilities c₁ p.ev2Capabilities)
        p.proximity) p.virtualCard) p.dam := by
    rw [hc₁]
    rfl
  dsimp only
  rw [hload]
  refine ⟨?_, ?_, ?_, ?_⟩
  · let f : DfcCredential → Option Slice := fun c => (piccImage c).ev2Capabilities
    refine (keep_loadGroup f storeDam (fun _ _ => rfl) _ _).trans ?_
    refine (keep_loadGroup f storeVirtualCard (fun _ _ => rfl) _ _).trans ?_
    refine (keep_loadGroup f storeProximity (fun _ _ => rfl) _ _).trans ?_
    simp only [f, piccImage, storeEv2Capabilities, f₁, Bool.or_false,
      whenSet_read hp.ev2Capabilities]
  · let f : DfcCredential → Option ProximityImage := fun c => (piccImage c).proximity
    refine (keep_loadGroup f storeDam (fun _ _ => rfl) _ _).trans ?_
    refine (keep_loadGroup f storeVirtualCard (fun _ _ => rfl) _ _).trans ?_
    have hkey := hp.proximity
    cases hprox : p.proximity with
    | none => simp only [f, loadGroup, piccImage, storeEv2Capabilities, f₂, whenSet_false]
    | some x =>
      simp only [f, loadGroup, piccImage, storeEv2Capabilities, storeProximity, proximityImage, f₃,
        Bool.or_false, whenSet_getD, whenSet_true, Mem.read_write_self' (hkey x hprox)]
  · let f : DfcCredential → Option VirtualCardImage := fun c => (piccImage c).virtualCard
    refine (keep_loadGroup f storeDam (fun _ _ => rfl) _ _).trans ?_
    have hc : (loadGroup storeProximity (storeEv2Capabilities c₁ p.ev2Capabilities)
        p.proximity).virtualCardConfigured = false :=
      (keep_loadGroup DfcCredential.virtualCardConfigured storeProximity (fun _ _ => rfl) _ _).trans
        f₄
    generalize loadGroup storeProximity (storeEv2Capabilities c₁ p.ev2Capabilities) p.proximity = c₂
      at hc ⊢
    have hvc := hp.virtualCard
    cases hv : p.virtualCard with
    | none => simp only [f, loadGroup, piccImage, hc, whenSet_false]
    | some v =>
      obtain ⟨-, hcaps, -, hmac, henc⟩ := hvc v hv
      simp only [f, loadGroup, piccImage, storeVirtualCard, virtualCardImage, whenSet_true,
        Mem.read_write_self, Mem.read_write_self' hcaps, Mem.read_write_self' hmac,
        Mem.read_write_self' henc]
  · have hc : (loadGroup storeVirtualCard (loadGroup storeProximity (storeEv2Capabilities c₁
        p.ev2Capabilities) p.proximity) p.virtualCard).piccHasDamKeys = false :=
      (keep_loadGroup DfcCredential.piccHasDamKeys storeVirtualCard (fun _ _ => rfl) _ _).trans
        ((keep_loadGroup DfcCredential.piccHasDamKeys storeProximity (fun _ _ => rfl) _ _).trans f₅)
    generalize loadGroup storeVirtualCard (loadGroup storeProximity (storeEv2Capabilities c₁
      p.ev2Capabilities) p.proximity) p.virtualCard = c₂ at hc ⊢
    have hdam := hp.dam
    cases hd : p.dam with
    | none => simp only [loadGroup, piccImage, hc, whenSet_false]
    | some d =>
      obtain ⟨hauth, hmac, henc⟩ := hdam d hd
      simp only [loadGroup, piccImage, storeDam, damImage, whenSet_true,
        Mem.read_write_self' hauth, Mem.read_write_self' hmac, Mem.read_write_self' henc]

/-- The keys of the PICC record are the first ones in the pool. -/
theorem piccKeys_loadPicc (hp : p.Loadable version (storeCard dfcCredentialClear card)) :
    Settled (loadPicc version (storeCard dfcCredentialClear card) p)
      fun c => keyListImage c none = p.keys := by
  intro c' hg
  obtain ⟨c₁, hc₁⟩ : ∃ c₁, c₁ = placeKeys (unseeded (storePiccSettings version
      (storeCard dfcCredentialClear card) p.toPiccSettingsImage)) none
      (dfcCredentialKeyLength p.keySettings2) p.keys := ⟨_, rfl⟩
  have hkept : (keyPlace (loadPicc version (storeCard dfcCredentialClear card) p) none,
      (loadPicc version (storeCard dfcCredentialClear card) p).keyPool,
      (loadPicc version (storeCard dfcCredentialClear card) p).keyPoolUsed) =
      (keyPlace c₁ none, c₁.keyPool, c₁.keyPoolUsed) :=
    loadPicc_ind (q := fun c => (keyPlace c none, c.keyPool, c.keyPoolUsed) =
      (keyPlace c₁ none, c₁.keyPool, c₁.keyPoolUsed)) (fun _ _ h => h) (fun _ _ h => h)
      (fun _ _ h => h) (fun _ _ h => h) (by rw [hc₁])
  have hhead : keyPlace c' none =
      keyPlace (loadPicc version (storeCard dfcCredentialClear card) p) none :=
    (congrArg (fun c => keyPlace c none) hg.head :)
  have hused := hg.keyUsed
  have hpool := hg.keyPool
  simp only [Prod.mk.injEq] at hkept
  obtain ⟨hplace, hkeys, hlast⟩ := hkept
  rw [hlast] at hused
  rw [hlast, hkeys] at hpool
  rw [hplace] at hhead
  rw [hc₁] at hused hpool hhead
  exact keyList_placed (keyLength_cases _) hp.keys hhead hused hpool hg.bounds.1

end Picc

theorem mem_ownedFiles {i : ℕ} {apps : List AppImage} {p : ℕ × FileImage}
    (h : p ∈ ownedFiles i apps) : i ≤ p.1 ∧ p.1 < i + apps.length := by
  induction apps generalizing i with
  | nil => simp [ownedFiles] at h
  | cons a apps ih =>
    rw [ownedFiles, List.mem_append] at h
    rw [List.length_cons]
    rcases h with h | h
    · obtain ⟨x, -, rfl⟩ := List.mem_map.mp h
      dsimp only
      omega
    · have := ih h
      omega

theorem filter_map_mk (owner o : ℕ) (files : List FileImage) :
    ((files.map (Prod.mk owner)).filter fun p => p.1 = o).map Prod.snd =
      if owner = o then files else [] := by
  have hconst : ((fun p : ℕ × FileImage => decide (p.1 = o)) ∘ Prod.mk owner) =
      fun _ => decide (owner = o) := rfl
  rw [List.filter_map, hconst, List.map_map]
  split_ifs with h
  · simp [h]
  · simp [h]

theorem filter_ownedFiles {i k : ℕ} {apps : List AppImage} {a : AppImage} (h : apps[k]? = some a) :
    ((ownedFiles i apps).filter fun p => p.1 = i + k).map Prod.snd = a.files := by
  induction apps generalizing i k with
  | nil => simp at h
  | cons b apps ih =>
    rw [ownedFiles, List.filter_append, List.map_append, filter_map_mk]
    cases k with
    | zero =>
      have hnone : (ownedFiles (i + 1) apps).filter (fun p => p.1 = i + 0) = [] := by
        rw [List.filter_eq_nil_iff]
        intro p hp
        have := (mem_ownedFiles hp).1
        simp only [decide_eq_true_eq]
        omega
      rw [List.getElem?_cons_zero, Option.some.injEq] at h
      rw [hnone, h]
      simp
    | succ k =>
      rw [List.getElem?_cons_succ] at h
      have hrest := ih (i := i + 1) h
      rw [show i + 1 + k = i + (k + 1) by omega] at hrest
      rw [hrest, if_neg (by omega), List.nil_append]

/-- An image that no other one shares its card with. -/
structure Image.Canonical (w : Image) : Prop where
  files : ∀ x ∈ w.picc.files, x.contents.Canonical
  apps : ∀ a ∈ w.apps, a.Canonical

theorem loaded_loadImage {version : ℕ} {w : Image} (hver : 6 ≤ version) (hw : w.Loadable version)
    (hcanon : w.Canonical) :
    Loaded (loadImage version w) w.apps
        (ownedFiles 0 w.apps ++ w.picc.files.map (Prod.mk dfcFileOwnerPicc)) ∧
      Grown (loadPicc version (storeCard dfcCredentialClear w.card) w.picc) (loadImage version w) ∧
      w.apps.length ≤ dfcMaxApps := by
  have hloading := loading_loadPicc hw.picc
  have hcounts : ((loadPicc version (storeCard dfcCredentialClear w.card) w.picc).numApps,
      (loadPicc version (storeCard dfcCredentialClear w.card) w.picc).numFiles) = (0, 0) :=
    loadPicc_ind (q := fun c => (c.numApps, c.numFiles) = (0, 0)) (fun _ _ h => h) (fun _ _ h => h)
      (fun _ _ h => h) (fun _ _ h => h)
      (keep_placeKeys (f := fun c => (c.numApps, c.numFiles)) rfl rfl)
  simp only [Prod.mk.injEq] at hcounts
  have hstart : Loaded (loadPicc version (storeCard dfcCredentialClear w.card) w.picc) [] [] :=
    ⟨hloading.pools, hcounts.1, hcounts.2, by simp, by simp⟩
  have happs := hstart.loadApps hver hloading hw.apps hcanon.apps
  have hgrown := grown_foldl_loadApp hloading hw.apps
  have hlength := length_le_of_loadable (by rw [hcounts.1]; exact Nat.zero_le _) hw.apps
  refine ⟨happs.loadFiles (by decide) hw.files hcanon.files,
    hgrown.trans (grown_foldl_loadFile dfcFileOwnerPicc w.picc.files hgrown.bounds), ?_⟩
  rwa [hcounts.1, Nat.zero_add] at hlength

/-- The image of a loaded card is the image it was loaded from. -/
theorem imageOf_loadImage {version : ℕ} {w : Image} (hver : 6 ≤ version) (hw : w.Loadable version)
    (hcanon : w.Canonical) : imageOf (loadImage version w) = w := by
  obtain ⟨hloaded, hgrown, hmax⟩ := loaded_loadImage hver hw hcanon
  have hcard := cardImage_loadPicc (p := w.picc) hw.card
  have hsettings := piccSettings_loadPicc hver hw.picc
  have hgroups := piccGroups_loadPicc hw.picc
  have hkeys := piccKeys_loadPicc hw.picc _ hgrown
  have hhead := hgrown.head
  generalize loadImage version w = c at *
  generalize loadPicc version (storeCard dfcCredentialClear w.card) w.picc = c₁ at *
  have hfiles := hloaded.filesOf
  obtain ⟨card, ⟨settings, keys, files, caps, prox, vc, dam⟩, apps⟩ := w
  dsimp only at *
  have happs : (List.range c.numApps).map (appImage c) = apps := by
    rw [hloaded.numApps]
    refine List.ext_getElem (by simp) fun i h₁ h₂ => ?_
    have hi := List.getElem?_eq_getElem h₂
    have hshow : { appImage c i with files := apps[i].files } = apps[i] :=
      hloaded.apps i _ hi c (Grown.refl hloaded.bounds)
    have hown : (appImage c i).files = apps[i].files := by
      have hfilter := filter_ownedFiles (i := 0) hi
      rw [Nat.zero_add] at hfilter
      have hpicc := filter_map_mk dfcFileOwnerPicc i files
      rw [if_neg (by simp only [dfcFileOwnerPicc, dfcMaxApps] at hmax ⊢; omega)] at hpicc
      refine (hfiles i).trans ?_
      rw [List.filter_append, List.map_append, hfilter, hpicc, List.append_nil]
    rw [List.getElem_map, List.getElem_range, ← hshow, ← hown]
  have hpicc : (filesOf c dfcFileOwnerPicc).map (fileImage c) = files := by
    have hnone : (ownedFiles 0 apps).filter (fun p => p.1 = dfcFileOwnerPicc) = [] := by
      rw [List.filter_eq_nil_iff]
      intro p hp
      have := (mem_ownedFiles hp).2
      simp only [dfcFileOwnerPicc, dfcMaxApps, decide_eq_true_eq] at hmax ⊢
      omega
    rw [hfiles, List.filter_append, List.map_append, hnone, filter_map_mk, if_pos rfl]
    rfl
  obtain ⟨hcaps, hprox, hvc, hdam⟩ := hgroups
  have hrecord : piccImage c = ⟨piccSettingsImage c, keyListImage c none,
      (filesOf c dfcFileOwnerPicc).map (fileImage c), (piccImage c).ev2Capabilities,
      (piccImage c).proximity, (piccImage c).virtualCard, (piccImage c).dam⟩ := rfl
  have hcardC : cardImage c = card := (congrArg cardImage hhead :).trans hcard
  have hsettingsC : piccSettingsImage c = settings :=
    (congrArg piccSettingsImage hhead :).trans hsettings
  have hcapsC : (piccImage c).ev2Capabilities = caps :=
    (congrArg (fun c => (piccImage c).ev2Capabilities) hhead :).trans hcaps
  have hproxC : (piccImage c).proximity = prox :=
    (congrArg (fun c => (piccImage c).proximity) hhead :).trans hprox
  have hvcC : (piccImage c).virtualCard = vc :=
    (congrArg (fun c => (piccImage c).virtualCard) hhead :).trans hvc
  have hdamC : (piccImage c).dam = dam :=
    (congrArg (fun c => (piccImage c).dam) hhead :).trans hdam
  rw [imageOf, happs, hrecord, hpicc, hkeys, hcardC, hsettingsC, hcapsC, hproxC, hvcC, hdamC]

end DfcCore
