import DfcCore.Credential

/-!
# The three shared pools

The functions of `dfc_credential.c` that own the key pool, the key-set metadata
pool and the file pool. An owner argument that is a pointer in C is an index here;
`none` stands for the `NULL` application, which selects the PICC record. A function
that reports success returns the credential together with that flag, because it may
have been changed in either case. A pointer into a pool is its index in the pool.
-/
namespace DfcCore

def dfcCredentialFindApplicationDesfireOrder (c : DfcCredential) (aid : Mem) : Option ℕ :=
  (List.range c.numApps).find? fun i =>
    aid 0 == (c.apps i).aid 2 && aid 1 == (c.apps i).aid 1 && aid 2 == (c.apps i).aid 0

def dfcCredentialFindFileInApp (c : DfcCredential) (appIndex : ℕ) (number : UInt8) : Option ℕ :=
  (List.range c.numFiles).find? fun i =>
    (c.files i).appIndex == appIndex && (c.files i).number == number

def dfcPoolSliceResolve (offset length used none' : ℕ) : Option ℕ :=
  if length = 0 then
    if offset ≠ 0 ∧ offset ≠ none' then none else some none'
  else if offset = none' ∨ used < offset ∨ used - offset < length then none
  else some offset

/-- The fix-up of an offset another owner holds, after `freedLen` octets at
`freedOffset` fell free. -/
def poolOffsetAfterRelease (freedOffset freedLen none' offset : ℕ) : ℕ :=
  if offset ≠ none' ∧ freedOffset < offset then u16 (offset - freedLen) else offset

def dfcFilePoolCompactAfterRelease (c : DfcCredential) (freedOffset freedLen : ℕ) :
    DfcCredential :=
  if freedLen = 0 ∨ freedOffset = dfcFilePoolNone then c
  else
    let tail := c.filePoolUsed - (freedOffset + freedLen)
    let pool := if 0 < tail then c.filePool.move freedOffset (freedOffset + freedLen) tail
                else c.filePool
    let used := u16 (c.filePoolUsed - freedLen)
    { c with
      filePool := pool.fill used freedLen 0
      filePoolUsed := used
      files := fun i =>
        let other := c.files i
        if i < c.numFiles then
          { other with
            dataOffset := poolOffsetAfterRelease freedOffset freedLen dfcFilePoolNone
              other.dataOffset }
        else other }

def dfcFileData (c : DfcCredential) (file : DfcFile) : Option ℕ :=
  if file.dataOffset = dfcFilePoolNone ∨ file.dataLen = 0 then none
  else if c.filePoolUsed < file.dataOffset + file.dataLen then none
  else some file.dataOffset

def dfcCredentialFilePoolFree (c : DfcCredential) : ℕ :=
  if dfcFilePoolSize ≤ c.filePoolUsed then 0 else dfcFilePoolSize - c.filePoolUsed

/-- Drops the slice fields of a file record. -/
def DfcFile.dropSlice (file : DfcFile) : DfcFile :=
  { file with dataOffset := dfcFilePoolNone, dataLen := 0 }

/-- The release of the old slice in `dfc_file_resize`. -/
def dfcFileDropOldSlice (c : DfcCredential) (i oldOffset : ℕ) : DfcCredential :=
  if oldOffset ≠ dfcFilePoolNone then
    dfcFilePoolCompactAfterRelease (c.modifyFile i DfcFile.dropSlice) oldOffset
      (c.files i).dataLen
  else c

/-- The new slice of `dfc_file_resize`, cut at the end of the used part. -/
def dfcFileCutSlice (c : DfcCredential) (i dataLen : ℕ) : DfcCredential :=
  if dataLen = 0 then c.modifyFile i DfcFile.dropSlice
  else
    { c.modifyFile i fun file =>
          { file with dataOffset := u16 c.filePoolUsed, dataLen := u16 dataLen } with
      filePool := c.filePool.fill (u16 c.filePoolUsed) dataLen 0
      filePoolUsed := u16 (c.filePoolUsed + dataLen) }

def dfcFileResize (c : DfcCredential) (i dataLen : ℕ) : DfcCredential × Bool :=
  let file := c.files i
  if dfcMaxFileData < dataLen then (c, false)
  else if dfcFilePoolSize < dataLen then (c, false)
  else if dfcFilePoolSize < c.filePoolUsed then (c, false)
  else match dfcPoolSliceResolve file.dataOffset file.dataLen c.filePoolUsed dfcFilePoolNone with
  | none => (c, false)
  | some oldOffset =>
    if oldOffset ≠ dfcFilePoolNone ∧ file.dataLen = dataLen then (c, true)
    else if oldOffset ≠ dfcFilePoolNone ∧ c.filePoolUsed < file.dataLen then (c, false)
    else
      let usedWithoutOld :=
        if oldOffset ≠ dfcFilePoolNone then c.filePoolUsed - file.dataLen else c.filePoolUsed
      if dfcFilePoolSize - usedWithoutOld < dataLen then (c, false)
      else
        -- Capacity is known before the old slice goes.
        (dfcFileCutSlice (dfcFileDropOldSlice c i oldOffset) i dataLen, true)

def dfcFileRelease (c : DfcCredential) (i : ℕ) : DfcCredential :=
  let file := c.files i
  if file.dataOffset = dfcFilePoolNone then
    c.modifyFile i fun file => { file with dataLen := 0 }
  else
    dfcFilePoolCompactAfterRelease (c.modifyFile i DfcFile.dropSlice) file.dataOffset file.dataLen

/-- The `memmove` and `memset` that take the file at `i` out of the array. -/
def dfcFilesRemove (c : DfcCredential) (i : ℕ) : DfcCredential :=
  let last := c.numFiles - 1
  { c with
    numFiles := last
    files := fun j =>
      if j = last then {} else if i ≤ j ∧ j < last then c.files (j + 1) else c.files j }

def dfcCredentialCreateFile (c : DfcCredential) (appIndex : ℕ) (number : UInt8) :
    DfcCredential × Option ℕ :=
  if c.numApps ≤ appIndex then (c, none)
  else if dfcMaxFiles ≤ c.numFiles then (c, none)
  else if (dfcCredentialFindFileInApp c appIndex number).isSome then (c, none)
  else
    ({ c with
        numFiles := c.numFiles + 1
        files := Function.update c.files c.numFiles
          { appIndex := u8 appIndex, number := number, dataOffset := dfcFilePoolNone } },
      some c.numFiles)

def dfcCredentialDeleteFile (c : DfcCredential) (appIndex : ℕ) (number : UInt8) :
    DfcCredential × Bool :=
  match dfcCredentialFindFileInApp c appIndex number with
  | none => (c, false)
  | some i => (dfcFilesRemove (dfcFileRelease c i) i, true)

def dfcKeySetMetadataLength (numKeySets numKeys : ℕ) : ℕ :=
  if numKeySets < dfcKeySetMinimumCount ∨ dfcMaxKeySets < numKeySets ∨ numKeys = 0 ∨
      dfcMaxKeys < numKeys then 0
  else 2 * numKeySets + 2 + (numKeySets - 1) * numKeys

/-- The metadata slice of an application, as its start in the metadata pool. -/
def dfcKeySetMetadataSlice (c : DfcCredential) (app : DfcApplication) : Option ℕ :=
  if app.numKeySets < dfcKeySetMinimumCount ∨
      dfcKeySetMetadataPoolSize < c.keySetMetadataPoolUsed then none
  else
    let expected := dfcKeySetMetadataLength app.numKeySets app.numKeys
    if expected = 0 ∨ app.keySetMetadataLen ≠ expected ∨
        app.keySetMetadataOffset = dfcKeySetMetadataPoolNone ∨
        dfcKeySetMetadataPoolSize < app.keySetMetadataOffset ∨
        dfcKeySetMetadataPoolSize - app.keySetMetadataOffset < expected ∨
        c.keySetMetadataPoolUsed < app.keySetMetadataOffset ∨
        c.keySetMetadataPoolUsed - app.keySetMetadataOffset < expected then none
    else some app.keySetMetadataOffset

def dfcKeySetMetadataCompactAfterRelease (c : DfcCredential) (freedOffset freedLen : ℕ) :
    DfcCredential :=
  if freedLen = 0 ∨ freedOffset = dfcKeySetMetadataPoolNone then c
  else
    let tail := c.keySetMetadataPoolUsed - (freedOffset + freedLen)
    let pool :=
      if 0 < tail then c.keySetMetadataPool.move freedOffset (freedOffset + freedLen) tail
      else c.keySetMetadataPool
    let used := u16 (c.keySetMetadataPoolUsed - freedLen)
    { c with
      keySetMetadataPool := pool.fill used freedLen 0
      keySetMetadataPoolUsed := used
      apps := fun i =>
        { c.apps i with
          keySetMetadataOffset := poolOffsetAfterRelease freedOffset freedLen
            dfcKeySetMetadataPoolNone (c.apps i).keySetMetadataOffset } }

/-- Drops the metadata slice fields of an application record. -/
def DfcApplication.dropMetadata (app : DfcApplication) : DfcApplication :=
  { app with keySetMetadataOffset := dfcKeySetMetadataPoolNone, keySetMetadataLen := 0 }

def dfcKeySetMetadataRelease (c : DfcCredential) (i : ℕ) : DfcCredential :=
  let oldOffset := (c.apps i).keySetMetadataOffset
  let oldLen := (c.apps i).keySetMetadataLen
  let c := c.modifyApp i DfcApplication.dropMetadata
  if oldOffset = dfcKeySetMetadataPoolNone ∨ oldLen = 0 then c
  else if c.keySetMetadataPoolUsed < oldOffset ∨ c.keySetMetadataPoolUsed - oldOffset < oldLen
  then c
  else dfcKeySetMetadataCompactAfterRelease c oldOffset oldLen

def dfcKeySetMetadataCanResize (c : DfcCredential) (i want : ℕ) : Bool :=
  if dfcKeySetMetadataPoolSize < want ∨ dfcKeySetMetadataPoolSize < c.keySetMetadataPoolUsed
  then false
  else match dfcPoolSliceResolve (c.apps i).keySetMetadataOffset (c.apps i).keySetMetadataLen
      c.keySetMetadataPoolUsed dfcKeySetMetadataPoolNone with
  | none => false
  | some oldOffset =>
    let usedWithoutOld :=
      if oldOffset ≠ dfcKeySetMetadataPoolNone
      then c.keySetMetadataPoolUsed - (c.apps i).keySetMetadataLen
      else c.keySetMetadataPoolUsed
    decide (want ≤ dfcKeySetMetadataPoolSize - usedWithoutOld)

def dfcKeySetMetadataResize (c : DfcCredential) (i want : ℕ) : DfcCredential × Bool :=
  if !dfcKeySetMetadataCanResize c i want then (c, false)
  else
    let c := dfcKeySetMetadataRelease c i
    if want = 0 then (c, true)
    else
      ({ c.modifyApp i fun app =>
            { app with
              keySetMetadataOffset := u16 c.keySetMetadataPoolUsed
              keySetMetadataLen := u16 want } with
          keySetMetadataPool := c.keySetMetadataPool.fill c.keySetMetadataPoolUsed want 0
          keySetMetadataPoolUsed := u16 (c.keySetMetadataPoolUsed + want) }, true)

/-- Where the version of a key set stands in the metadata pool. -/
def dfcCredentialKeySetVersion (c : DfcCredential) (app : DfcApplication) (set : ℕ) : Option ℕ :=
  match dfcKeySetMetadataSlice c app with
  | some data => if set < app.numKeySets then some (data + set) else none
  | none => none

/-- Where the type of a key set stands in the metadata pool. -/
def dfcCredentialKeySetType (c : DfcCredential) (app : DfcApplication) (set : ℕ) : Option ℕ :=
  match dfcKeySetMetadataSlice c app with
  | some data => if set < app.numKeySets then some (data + app.numKeySets + set) else none
  | none => none

theorem keySetVersion_eq {c : DfcCredential} {app : DfcApplication} {set data : ℕ}
    (h : dfcKeySetMetadataSlice c app = some data) (hset : set < app.numKeySets) :
    dfcCredentialKeySetVersion c app set = some (data + set) := by
  simp [dfcCredentialKeySetVersion, h, hset]

theorem keySetType_eq {c : DfcCredential} {app : DfcApplication} {set data : ℕ}
    (h : dfcKeySetMetadataSlice c app = some data) (hset : set < app.numKeySets) :
    dfcCredentialKeySetType c app set = some (data + app.numKeySets + set) := by
  simp [dfcCredentialKeySetType, h, hset]

/-- The initialized mask, two octets behind the versions and the types. -/
def keySetInitializedMask (c : DfcCredential) (app : DfcApplication) (data : ℕ) : UInt16 :=
  let maskOffset := 2 * app.numKeySets
  (c.keySetMetadataPool (data + maskOffset)).toUInt16 |||
    ((c.keySetMetadataPool (data + maskOffset + 1)).toUInt16 <<< 8)

/-- Stores the initialized mask back, low octet first. -/
def keySetStoreInitializedMask (c : DfcCredential) (app : DfcApplication) (data : ℕ)
    (mask : UInt16) : DfcCredential :=
  { c with
    keySetMetadataPool := c.keySetMetadataPool.write (data + 2 * app.numKeySets)
      [mask.toUInt8, (mask >>> 8).toUInt8] }

def dfcCredentialKeySetIsInitialized (c : DfcCredential) (app : DfcApplication) (set : ℕ) :
    Bool :=
  if app.numKeySets ≤ set then false
  else if app.numKeySets < dfcKeySetMinimumCount then set == 0
  else match dfcKeySetMetadataSlice c app with
  | none => false
  | some data => keySetInitializedMask c app data &&& (1 <<< UInt16.ofNat set) != 0

def dfcCredentialKeySetSetInitialized (c : DfcCredential) (i set : ℕ) (initialized : Bool) :
    DfcCredential × Bool :=
  let app := c.apps i
  match dfcKeySetMetadataSlice c app with
  | none => (c, false)
  | some data =>
    if app.numKeySets ≤ set then (c, false)
    else
      let mask := keySetInitializedMask c app data
      let bit : UInt16 := 1 <<< UInt16.ofNat set
      let mask := if initialized then mask ||| bit else mask &&& ~~~bit
      (keySetStoreInitializedMask c app data mask, true)

def keyOffsetOf (c : DfcCredential) : Option ℕ → ℕ
  | some i => (c.apps i).keyOffset
  | none => c.piccKeyOffset

def keyPoolLenOf (c : DfcCredential) : Option ℕ → ℕ
  | some i => (c.apps i).keyPoolLen
  | none => c.piccKeyPoolLen

def numKeysOf (c : DfcCredential) : Option ℕ → ℕ
  | some i => (c.apps i).numKeys
  | none => c.piccNumKeys

def keyLenOf (c : DfcCredential) : Option ℕ → ℕ
  | some i => (c.apps i).keyLen
  | none => c.piccKeyLen

def keyVersionsOf (c : DfcCredential) : Option ℕ → Mem
  | some i => (c.apps i).keyVersions
  | none => c.piccKeyVersions

def setKeyOffset (c : DfcCredential) (app : Option ℕ) (offset : ℕ) : DfcCredential :=
  match app with
  | some i => c.modifyApp i fun app => { app with keyOffset := offset }
  | none => { c with piccKeyOffset := offset }

def setKeyPoolLen (c : DfcCredential) (app : Option ℕ) (length : ℕ) : DfcCredential :=
  match app with
  | some i => c.modifyApp i fun app => { app with keyPoolLen := length }
  | none => { c with piccKeyPoolLen := length }

def setNumKeys (c : DfcCredential) (app : Option ℕ) (count : ℕ) : DfcCredential :=
  match app with
  | some i => c.modifyApp i fun app => { app with numKeys := count }
  | none => { c with piccNumKeys := count }

def setKeyLen (c : DfcCredential) (app : Option ℕ) (length : ℕ) : DfcCredential :=
  match app with
  | some i => c.modifyApp i fun app => { app with keyLen := length }
  | none => { c with piccKeyLen := length }

/-- The storage width is kept for applications only. -/
def setKeyStorageLen (c : DfcCredential) (app : Option ℕ) (length : ℕ) : DfcCredential :=
  match app with
  | some i => c.modifyApp i fun app => { app with keyStorageLen := length }
  | none => c

def dfcKeyPoolCompactAfterRelease (c : DfcCredential) (freedOffset freedLen : ℕ) :
    DfcCredential :=
  if freedLen = 0 ∨ freedOffset = dfcKeyPoolNone then c
  else
    let tail := c.keyPoolUsed - (freedOffset + freedLen)
    let pool := if 0 < tail then c.keyPool.move freedOffset (freedOffset + freedLen) tail
                else c.keyPool
    let used := u16 (c.keyPoolUsed - freedLen)
    { c with
      keyPool := pool.fill used freedLen 0
      keyPoolUsed := used
      -- Every record of the array, also those not yet counted.
      apps := fun i =>
        { c.apps i with
          keyOffset := poolOffsetAfterRelease freedOffset freedLen dfcKeyPoolNone
            (c.apps i).keyOffset }
      piccKeyOffset :=
        poolOffsetAfterRelease freedOffset freedLen dfcKeyPoolNone c.piccKeyOffset }

def dfcCredentialKeyAt (c : DfcCredential) (offset poolLen numKeys keyLen slot : ℕ) : Option ℕ :=
  if offset = dfcKeyPoolNone ∨ poolLen = 0 then none
  else if numKeys ≤ slot then none
  else
    let stride := dfcCredentialStoredKeyLength keyLen
    if poolLen < (slot + 1) * stride then none
    else if c.keyPoolUsed < offset + poolLen then none
    else some (offset + slot * stride)

/-- Where the key of a slot stands in the key pool. -/
def dfcCredentialKey (c : DfcCredential) (app : Option ℕ) (slot : ℕ) : Option ℕ :=
  match app with
  | some i =>
    let a := c.apps i
    dfcCredentialKeyAt c a.keyOffset a.keyPoolLen a.numKeys a.keyStorageLen slot
  | none =>
    dfcCredentialKeyAt c c.piccKeyOffset c.piccKeyPoolLen c.piccNumKeys c.piccKeyLen slot

/-- The part of `dfc_credential_keys_release` before the compaction: the record drops
its slice, and an application its metadata. -/
def dfcCredentialDropKeyRecord (c : DfcCredential) (app : Option ℕ) : DfcCredential :=
  let c := setKeyOffset c app dfcKeyPoolNone
  let c := setKeyPoolLen c app 0
  let c := setNumKeys c app 0
  let c := setKeyLen c app 0
  let c := setKeyStorageLen c app 0
  match app with
  | some i => dfcKeySetMetadataRelease c i
  | none => c

def dfcCredentialKeysRelease (c : DfcCredential) (app : Option ℕ) : DfcCredential :=
  let oldOffset := keyOffsetOf c app
  let oldLen := keyPoolLenOf c app
  let c := dfcCredentialDropKeyRecord c app
  if oldOffset ≠ dfcKeyPoolNone ∧ 0 < oldLen then dfcKeyPoolCompactAfterRelease c oldOffset oldLen
  else c

/-- The counts a resize records once the slice is in place. -/
def setKeyCounts (c : DfcCredential) (app : Option ℕ) (numKeys keyLen storageKeyLen : ℕ) :
    DfcCredential :=
  setKeyStorageLen (setKeyLen (setNumKeys c app (u8 numKeys)) app (u8 keyLen)) app
    (u8 storageKeyLen)

/-- A fresh key slice of `want` octets, cut at the end of the used part. -/
def dfcCredentialCutKeySlice (c : DfcCredential) (app : Option ℕ) (want : ℕ) : DfcCredential :=
  let used := c.keyPoolUsed
  let c := setKeyPoolLen (setKeyOffset c app (u16 used)) app (u16 want)
  { c with keyPool := c.keyPool.fill used want 0, keyPoolUsed := u16 (used + want) }

def dfcCredentialKeysResizeTotal (c : DfcCredential) (app : Option ℕ)
    (numKeys allocatedKeys keyLen storageKeyLen : ℕ) : DfcCredential × Bool :=
  if dfcMaxKeys < numKeys then (c, false)
  else if dfcMaxKeyLen < keyLen ∨ dfcMaxKeyLen < storageKeyLen then (c, false)
  else if allocatedKeys < numKeys then (c, false)
  else
    let offset := keyOffsetOf c app
    let poolLen := keyPoolLenOf c app
    let stride := dfcCredentialStoredKeyLength storageKeyLen
    if dfcKeyPoolSize / stride < allocatedKeys then (c, false)
    else
      let want := allocatedKeys * stride
      if dfcKeyPoolSize < want then (c, false)
      else if dfcKeyPoolSize < c.keyPoolUsed then (c, false)
      else match dfcPoolSliceResolve offset poolLen c.keyPoolUsed dfcKeyPoolNone with
      | none => (c, false)
      | some oldOffset =>
        if oldOffset ≠ dfcKeyPoolNone ∧ poolLen = want ∧ 0 < want then
          -- Same footprint: the material stays, only the counts can change.
          (setKeyCounts c app numKeys keyLen storageKeyLen, true)
        else if oldOffset ≠ dfcKeyPoolNone ∧ c.keyPoolUsed < poolLen then (c, false)
        else
          let usedWithoutOld :=
            if oldOffset ≠ dfcKeyPoolNone then c.keyPoolUsed - poolLen else c.keyPoolUsed
          if dfcKeyPoolSize - usedWithoutOld < want then (c, false)
          else
            let c := dfcCredentialKeysRelease c app
            if want = 0 then (setKeyLen (setNumKeys c app (u8 numKeys)) app (u8 keyLen), true)
            else
              (setKeyCounts (dfcCredentialCutKeySlice c app want) app numKeys keyLen storageKeyLen,
                true)

def dfcCredentialKeysResize (c : DfcCredential) (app : Option ℕ) (numKeys keyLen : ℕ) :
    DfcCredential × Bool :=
  match dfcCredentialKeysResizeTotal c app numKeys numKeys keyLen keyLen with
  | (c, false) => (c, false)
  | (c, true) =>
    match app with
    | none => (c, true)
    | some i =>
      dfcKeySetMetadataResize
        (c.modifyApp i fun app =>
          { app with numKeySets := 1, maxKeySize := 0, keySetSettings := 0 }) i 0

def dfcCredentialKeySetsResize (c : DfcCredential)
    (i numKeySets numKeys activeKeyLen maxKeySize : ℕ) :
    DfcCredential × Bool :=
  if numKeySets < dfcKeySetMinimumCount ∨ dfcMaxKeySets < numKeySets then (c, false)
  else
    let metadataLen := dfcKeySetMetadataLength numKeySets numKeys
    if metadataLen = 0 ∨ !dfcKeySetMetadataCanResize c i metadataLen then (c, false)
    else match dfcCredentialKeysResizeTotal c (some i) numKeys (numKeys * numKeySets) activeKeyLen
        maxKeySize with
    | (c, false) => (c, false)
    | (c, true) => match dfcKeySetMetadataResize c i metadataLen with
      | (c, false) => (c, false)
      | (c, true) =>
        let c := c.modifyApp i fun app =>
          { app with numKeySets := u8 numKeySets, maxKeySize := u8 maxKeySize }
        match dfcKeySetMetadataSlice c (c.apps i) with
        | none => (c, false)
        | some data =>
          let initializedMask : UInt16 :=
            if numKeySets = 16 then 0xFFFF else (1 <<< UInt16.ofNat numKeySets) - 1
          (keySetStoreInitializedMask c (c.apps i) data initializedMask, true)

def dfcCredentialKeyInSet (c : DfcCredential) (app : DfcApplication) (set slot : ℕ) : Option ℕ :=
  if app.numKeySets ≤ set ∨ app.numKeys ≤ slot then none
  else dfcCredentialKeyAt c app.keyOffset app.keyPoolLen (app.numKeys * app.numKeySets)
    app.keyStorageLen (set * app.numKeys + slot)

/-- Version of a key in a set. Set zero keeps its versions in the record, the others
in the metadata slice. -/
def dfcCredentialKeyVersionInSet (c : DfcCredential) (app : DfcApplication) (set slot : ℕ) :
    Option UInt8 :=
  if app.numKeySets ≤ set ∨ app.numKeys ≤ slot then none
  else if set = 0 then some (app.keyVersions slot)
  else match dfcKeySetMetadataSlice c app with
  | none => none
  | some data =>
    some (c.keySetMetadataPool (data + (2 * app.numKeySets + 2 + (set - 1) * app.numKeys + slot)))

/-- The store through the pointer `dfc_credential_key_version_in_set` returns. -/
def dfcCredentialStoreKeyVersionInSet (c : DfcCredential) (i set slot : ℕ) (version : UInt8) :
    Option DfcCredential :=
  let app := c.apps i
  if app.numKeySets ≤ set ∨ app.numKeys ≤ slot then none
  else if set = 0 then
    some (c.modifyApp i fun app => { app with keyVersions := app.keyVersions.write slot [version] })
  else match dfcKeySetMetadataSlice c app with
  | none => none
  | some data =>
    some { c with
      keySetMetadataPool := c.keySetMetadataPool.write
        (data + (2 * app.numKeySets + 2 + (set - 1) * app.numKeys + slot)) [version] }

def dfcCredentialRotateKeySetMetadata (c : DfcCredential) (i : ℕ) : DfcCredential × Bool :=
  let app := c.apps i
  match dfcKeySetMetadataSlice c app with
  | none => (c, false)
  | some data =>
    let n := app.numKeySets
    let maskOffset := data + 2 * n
    let mask := keySetInitializedMask c app data
    let additional := maskOffset + 2
    let firstVersions := app.keyVersions.read 0 app.numKeys
    let pool := c.keySetMetadataPool
    let keyVersions := app.keyVersions.write 0 (pool.read additional app.numKeys)
    let pool := if dfcKeySetMinimumCount < n
      then pool.move additional (additional + app.numKeys)
        ((n - dfcKeySetMinimumCount) * app.numKeys)
      else pool
    let pool := pool.write (additional + (n - dfcKeySetMinimumCount) * app.numKeys) firstVersions
    let firstSetVersion := pool data
    let firstSetType := pool (data + n)
    let pool := pool.move data (data + 1) (n - 1)
    let pool := pool.move (data + n) (data + n + 1) (n - 1)
    let pool := pool.write (data + (n - 1)) [firstSetVersion]
    let pool := pool.write (data + n + (n - 1)) [firstSetType]
    let firstInitialized := mask &&& 1 != 0
    let mask := mask >>> 1
    let mask := if firstInitialized then mask ||| (1 <<< UInt16.ofNat (n - 1)) else mask
    let c := c.modifyApp i fun app => { app with keyVersions := keyVersions }
    (keySetStoreInitializedMask { c with keySetMetadataPool := pool } app data mask, true)

/-- One cycle of the block rotation: blocks move to the place of their predecessor
until the walk is back at `cycle`. The walk visits at most `fuel` blocks. -/
def dfcRotateCycle (m : Mem) (base count width shift cycle : ℕ) : ℕ → ℕ → Mem × ℕ
  | 0, current => (m, current)
  | fuel + 1, current =>
    let next := (current + shift) % count
    if next = cycle then (m, current)
    else dfcRotateCycle (m.write (base + current * width) (m.read (base + next * width) width))
      base count width shift cycle fuel next

/-- `dfc_rotate_key_blocks_left` on the blocks at `base`. A cycle has fewer steps than
there are blocks. -/
def dfcRotateKeyBlocksLeft (m : Mem) (base count width shift : ℕ) : Mem :=
  (List.range (Nat.gcd count shift)).foldl (fun m cycle =>
    let scratch := m.read (base + cycle * width) width
    let (m, current) := dfcRotateCycle m base count width shift cycle count cycle
    m.write (base + current * width) scratch) m

/-- Rotates the metadata `n` times, stopping at a failure. -/
def dfcCredentialRotateKeySetMetadataTimes (c : DfcCredential) (i : ℕ) : ℕ → DfcCredential × Bool
  | 0 => (c, true)
  | n + 1 =>
    match dfcCredentialRotateKeySetMetadata c i with
    | (c, false) => (c, false)
    | (c, true) => dfcCredentialRotateKeySetMetadataTimes c i n

def dfcCredentialRollKeySet (c : DfcCredential) (i set : ℕ) : DfcCredential × Bool :=
  let app := c.apps i
  if set = 0 ∨ app.numKeySets ≤ set then (c, false)
  else if (dfcKeySetMetadataSlice c app).isNone then (c, false)
  else
    let keyWidth := dfcCredentialStoredKeyLength app.keyStorageLen
    let blockCount := app.numKeys * app.numKeySets
    let shift := set * app.numKeys
    let c := { c with
      keyPool := dfcRotateKeyBlocksLeft c.keyPool app.keyOffset blockCount keyWidth shift }
    match dfcCredentialRotateKeySetMetadataTimes c i set with
    | (c, false) => (c, false)
    | (c, true) => match dfcCredentialKeySetType c (c.apps i) 0 with
      | none => (c, false)
      | some at' =>
        let activeType := c.keySetMetadataPool at'
        (c.modifyApp i fun app =>
          { app with
            keyLen := dfcKeySetTypeLength activeType
            keySettings2 := app.keySettings2 &&& ~~~dfcKeyTypeMask |||
              dfcKeyTypeForSetType activeType }, true)

def dfcCredentialCreateApplicationDesfireOrder (c : DfcCredential) (aid : Mem)
    (keySettings1 keySettings2 : UInt8) : DfcCredential × Option ℕ :=
  if dfcMaxApps ≤ c.numApps then (c, none)
  else if (dfcCredentialFindApplicationDesfireOrder c aid).isSome then (c, none)
  else
    let numKeys := (keySettings2 &&& dfcNumKeysMask).toNat
    if numKeys = 0 ∨ dfcEv1MaxKeysPerApp < numKeys ∨ dfcMaxKeys < numKeys then (c, none)
    else
      let i := c.numApps
      let c := c.modifyApp i fun _ => dfcCredentialResetApplication
      -- Key material is reserved before the application counts as created.
      match dfcCredentialKeysResize c (some i) numKeys (dfcCredentialKeyLength keySettings2) with
      | (c, false) => (c, none)
      | (c, true) =>
        let keyType := keySettings2 &&& dfcKeyTypeMask
        let c := { c with numApps := c.numApps + 1 }
        (c.modifyApp i fun app =>
          { app with
            aid := app.aid.write 0 [aid 2, aid 1, aid 0]
            keySettings1 := keySettings1
            keySettings2 := keySettings2
            authCommand :=
              if keyType == dfcKeyTypeAes then dfcCmdAuthenticateAes
              else if keyType == dfcKeyType3k3des then dfcCmdAuthenticateIso
              else dfcCmdAuthenticateLegacy }, some i)

/-- The file walk of `dfc_credential_delete_application_at`: a file of the application
is released and taken out, a file of a later one is renumbered. Every turn takes a
file out or advances, so `numFiles` turns suffice. -/
def dfcCredentialDropFilesOf (c : DfcCredential) (appIndex : ℕ) : ℕ → ℕ → DfcCredential
  | 0, _ => c
  | fuel + 1, i =>
    if c.numFiles ≤ i then c
    else if (c.files i).appIndex = appIndex then
      dfcCredentialDropFilesOf (dfcFilesRemove (dfcFileRelease c i) i) appIndex fuel i
    else
      -- The PICC owner is larger than every application index and must not move.
      let c := if (c.files i).appIndex ≠ dfcFileOwnerPicc ∧ appIndex < (c.files i).appIndex then
          c.modifyFile i fun file => { file with appIndex := u8 (file.appIndex - 1) }
        else c
      dfcCredentialDropFilesOf c appIndex fuel (i + 1)

def dfcCredentialDeleteApplicationAt (c : DfcCredential) (appIndex : ℕ) : DfcCredential × Bool :=
  if c.numApps ≤ appIndex then (c, false)
  else
    -- Released before the array shifts: the fix-up needs the records in place.
    let c := dfcCredentialKeysRelease c (some appIndex)
    let c := dfcCredentialDropFilesOf c appIndex c.numFiles 0
    let last := c.numApps - 1
    ({ c with
        numApps := last
        apps := fun j =>
          if j = last then dfcCredentialResetApplication
          else if appIndex ≤ j ∧ j < last then c.apps (j + 1) else c.apps j }, true)

def dfcCredentialFormatPicc (c : DfcCredential) : DfcCredential :=
  let oldKeyUsed := c.keyPoolUsed
  let c :=
    if c.piccKeyOffset ≠ dfcKeyPoolNone ∧ 0 < c.piccKeyPoolLen ∧ c.piccKeyOffset ≤ oldKeyUsed ∧
        c.piccKeyPoolLen ≤ oldKeyUsed - c.piccKeyOffset then
      { c with
        keyPool := if 0 < c.piccKeyOffset then c.keyPool.move 0 c.piccKeyOffset c.piccKeyPoolLen
                   else c.keyPool
        piccKeyOffset := 0
        keyPoolUsed := c.piccKeyPoolLen }
    else { c with piccKeyOffset := dfcKeyPoolNone, piccKeyPoolLen := 0, keyPoolUsed := 0 }
  let keyPool := if c.keyPoolUsed < oldKeyUsed
    then c.keyPool.fill c.keyPoolUsed (oldKeyUsed - c.keyPoolUsed) 0 else c.keyPool
  let metadataPool := if 0 < c.keySetMetadataPoolUsed
    then c.keySetMetadataPool.fill 0 c.keySetMetadataPoolUsed 0 else c.keySetMetadataPool
  let filePool := if 0 < c.filePoolUsed then c.filePool.fill 0 c.filePoolUsed 0 else c.filePool
  { c with
    keyPool := keyPool
    keySetMetadataPool := metadataPool
    keySetMetadataPoolUsed := 0
    apps := fun _ => dfcCredentialResetApplication
    files := fun i => if i < c.numFiles then {} else c.files i
    filePool := filePool
    numApps := 0
    numFiles := 0
    filePoolUsed := 0 }

/-- The empty credential: factory PICC settings and one seeded master key. -/
def dfcCredentialClear : DfcCredential :=
  (dfcCredentialKeysResize
    { piccKeySettings1 := 0x0F
      piccKeySettings2 := dfcKeyTypeDes2k3des ||| 1
      piccAuthCommand := dfcCmdAuthenticateLegacy
      card := { generation := dfcGenerationEv1, storage := dfcDefaultCardStorage,
                uidProvenance := dfcUidProvenanceReal }
      piccKeyOffset := dfcKeyPoolNone } none 1 8).1

def dfcFileSetDataSize (c : DfcCredential) (i size : ℕ) : DfcCredential × Bool :=
  if !dfcFileTypeIsData (c.files i).type then (c, false)
  else match dfcFileResize c i size with
  | (c, false) => (c, false)
  | (c, true) => match dfcFileSetDeclaredSize (c.files i) size with
    | none => (c, false)
    | some file => (c.modifyFile i fun _ => { file with contentsComplete := true }, true)

/-- The length a file's slice has when its contents are complete, in the `size_t` of the target,
whose largest value is `sizeMax`; a file that keeps no slice has none. -/
def dfcFileWantedLength (sizeMax : ℕ) (file : DfcFile) : Option ℕ :=
  if file.type == dfcFileTypeStandardData || file.type == dfcFileTypeBackupData then
    some (file.state.data.declaredSize % (sizeMax + 1))
  else if file.type == dfcFileTypeLinearRecord || file.type == dfcFileTypeCyclicRecord then
    some (file.state.record.count * file.state.record.size % (sizeMax + 1))
  else none

/-- One turn of the loop of `dfc_credential_materialize_contents`. -/
def dfcCredentialMaterializeFile (c : DfcCredential) (sizeMax scratchLen i : ℕ) :
    DfcCredential × Bool :=
  let file := c.files i
  let complete : DfcFile → DfcFile := fun file => { file with contentsComplete := true }
  match dfcFileWantedLength sizeMax file with
  | none => (c, true)
  | some want =>
    if want ≤ file.dataLen then (c.modifyFile i complete, true)
    else
      let knownLen := file.dataLen
      if scratchLen < knownLen then (c, false)
      else if 0 < knownLen ∧ file.dataOffset ≠ dfcFilePoolNone ∧
          file.dataOffset + knownLen = c.filePoolUsed ∧ want ≤ dfcMaxFileData ∧
          want - knownLen ≤ dfcCredentialFilePoolFree c then
        -- The slice ends where the used part ends, so it grows in place.
        let grow := want - knownLen
        ({ c.modifyFile i fun file =>
              { file with dataLen := u16 want, contentsComplete := true } with
            filePool := c.filePool.fill c.filePoolUsed grow 0
            filePoolUsed := u16 (c.filePoolUsed + grow) }, true)
      else
        let known := match dfcFileData c file with
          | some src => c.filePool.read src knownLen
          | none => []
        match dfcFileResize c i want with
        | (c, false) => (c, false)
        | (c, true) =>
          let c := match dfcFileData c (c.files i) with
            | some dst => { c with filePool := c.filePool.write dst known }
            | none => c
          (c.modifyFile i complete, true)

def dfcCredentialMaterializeContents (c : DfcCredential) (sizeMax scratchLen : ℕ) :
    DfcCredential × Bool :=
  (List.range c.numFiles).foldl (fun (acc : DfcCredential × Bool) i =>
    let (c, ok) := dfcCredentialMaterializeFile acc.1 sizeMax scratchLen i
    (c, acc.2 && ok)) (c, true)

end DfcCore
