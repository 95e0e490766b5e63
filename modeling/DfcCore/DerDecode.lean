import DfcCore.Validate
import DfcCore.DerFormat

/-!
# The binary decoder

`decode_credential` and the functions below it, with the status each of them reports.
A failed decode leaves the empty credential, whatever was written before, so a decoder
here returns the changed credential or the status. The fields a decoder assigns one by
one are collected in the image they describe and stored together.
-/
namespace DfcCore
open Der

def rOctet (field : Option Slice) : Option UInt8 := (rOctets field 1).map fun raw => raw.getD 0 0

def rU16 (field : Option Slice) : Option UInt16 :=
  (rOctets field 2).map fun raw =>
    (raw.getD 0 0).toUInt16 <<< (8 : UInt16) ||| (raw.getD 1 0).toUInt16

def sdmOrder : List UInt8 :=
  [Tag.sdmOptions, Tag.sdmRights, Tag.sdmUidOff, Tag.sdmCounterOff, Tag.sdmPiccOff,
    Tag.sdmMacInOff, Tag.sdmMacOff, Tag.sdmEncOff, Tag.sdmEncLen, Tag.sdmLimit,
    Tag.sdmReadCounter]

/-- One optional SDM offset. -/
def sdmOffset (f : Fields) (tag : UInt8) : Option (Option UInt32) :=
  rOptional (fun field => (rUint field dfcU24Max).map UInt32.ofNat) (fGet f tag)

/-- The assignments of `decode_sdm`. -/
def storeSdm (file : DfcFile) (s : SdmImage) : DfcFile :=
  let data := file.state.data
  let file := file.withData
    { data with
      sdm := { data.sdm with
        options := s.options
        accessRights := s.accessRights
        uidOffset := s.uidOffset.getD data.sdm.uidOffset
        counterOffset := s.counterOffset.getD data.sdm.counterOffset
        piccDataOffset := s.piccDataOffset.getD data.sdm.piccDataOffset
        macInputOffset := s.macInputOffset.getD data.sdm.macInputOffset
        macOffset := s.macOffset.getD data.sdm.macOffset
        encryptedFileOffset := (s.encryptedFile.map Prod.fst).getD data.sdm.encryptedFileOffset
        encryptedFileLength := (s.encryptedFile.map Prod.snd).getD data.sdm.encryptedFileLength
        counterLimit := s.counterLimit.getD data.sdm.counterLimit }
      sdmReadCounter := s.readCounter }
  let file := dfcFileSdmFlagSet file .uidOffset s.uidOffset.isSome
  let file := dfcFileSdmFlagSet file .counterOffset s.counterOffset.isSome
  let file := dfcFileSdmFlagSet file .piccDataOffset s.piccDataOffset.isSome
  let file := dfcFileSdmFlagSet file .macInputOffset s.macInputOffset.isSome
  let file := dfcFileSdmFlagSet file .macOffset s.macOffset.isSome
  let file := dfcFileSdmFlagSet file .encryptedFile s.encryptedFile.isSome
  let file := dfcFileSdmFlagSet file .counterLimit s.counterLimit.isSome
  dfcFileSdmFlagSet file .enabled true

def decodeSdm (file : DfcFile) (body : Slice) : Except DfcModelStatus DfcFile := do
  let f ← orFail .malformed (rFields body sdmOrder)
  let options ← orFail .malformed (rOctet (fGet f Tag.sdmOptions))
  let rights ← orFail .malformed (rU16 (fGet f Tag.sdmRights))
  let uid ← orFail .malformed (sdmOffset f Tag.sdmUidOff)
  let counter ← orFail .malformed (sdmOffset f Tag.sdmCounterOff)
  let picc ← orFail .malformed (sdmOffset f Tag.sdmPiccOff)
  let macInput ← orFail .malformed (sdmOffset f Tag.sdmMacInOff)
  let mac ← orFail .malformed (sdmOffset f Tag.sdmMacOff)
  let encOffset ← orFail .malformed (sdmOffset f Tag.sdmEncOff)
  -- The encrypted offset and its length occur together.
  refuseIf ((fGet f Tag.sdmEncLen).isSome ≠ encOffset.isSome) .malformed
  let encLength ← orFail .malformed (sdmOffset f Tag.sdmEncLen)
  let limit ← orFail .malformed (sdmOffset f Tag.sdmLimit)
  let readCounter ← orFail .malformed (rUint (fGet f Tag.sdmReadCounter) dfcU24Max)
  pure (storeSdm file
    { options := options, accessRights := rights, uidOffset := uid, counterOffset := counter
      piccDataOffset := picc, macInputOffset := macInput, macOffset := mac
      encryptedFile := encOffset.map fun o => (o, encLength.getD 0)
      counterLimit := limit, readCounter := UInt32.ofNat readCounter })

def keyOrder : List UInt8 := [Tag.keySlot, Tag.keyValue, Tag.keyVersion]

/-- The probe that counts the items of a SEQUENCE OF before its slice is reserved. -/
def countItems (body : Slice) : Except DfcModelStatus ℕ :=
  rWalk .malformed (fun n tlv => do
    refuseIf (tlv.tag ≠ Tag.sequence) .malformed
    pure (n + 1)) body.length body 0

/-- The components of a key: its number has to be `slot` and its length `keyLen`. -/
def decodeKeyFields (body : Slice) (slot keyLen : ℕ) :
    Except DfcModelStatus (Slice × Option Slice) := do
  let f ← orFail .malformed (rFields body keyOrder)
  let number ← orFail .malformed (rUint (fGet f Tag.keySlot) (dfcMaxKeys - 1))
  refuseIf (number ≠ slot) .malformed
  let value ← orFail .malformed (fGet f Tag.keyValue)
  refuseIf (value.length ≠ keyLen) .malformed
  pure (value, fGet f Tag.keyVersion)

/-- The store through `versions`. -/
def storeKeyVersion (c : DfcCredential) (app : Option ℕ) (slot : ℕ) (version : UInt8) :
    DfcCredential :=
  match app with
  | some i => c.modifyApp i fun a => { a with keyVersions := a.keyVersions.write slot [version] }
  | none => { c with piccKeyVersions := c.piccKeyVersions.write slot [version] }

/-- One turn of the key loop of `decode_keys`. -/
def decodeKey (app : Option ℕ) (keyLen : ℕ) (st : DfcCredential × ℕ) (tlv : Tlv) :
    Except DfcModelStatus (DfcCredential × ℕ) := do
  let (c, n) := st
  refuseIf (tlv.tag ≠ Tag.sequence) .malformed
  let (value, versionField) ← decodeKeyFields tlv.body n keyLen
  let dst ← orFail .capacity (dfcCredentialKey c app n)
  let c := { c with keyPool := c.keyPool.write dst value }
  let version ← orFail .malformed (rOctet versionField)
  pure (storeKeyVersion c app n version, n + 1)

def decodeKeys (c : DfcCredential) (app : Option ℕ) (body : Slice) (keyLen maxKeys : ℕ) :
    Except DfcModelStatus DfcCredential := do
  let count ← countItems body
  refuseIf (maxKeys < count) .capacity
  if count = 0 then
    -- A cleared credential is seeded with a master key, which has to go again.
    pure (dfcCredentialKeysRelease c app)
  else do
    let c ← orRefuse .capacity (dfcCredentialKeysResize c app count keyLen)
    let (c, _) ← rWalk .malformed (decodeKey app keyLen) body.length body (c, 0)
    pure c

def keySetsOrder : List UInt8 := [Tag.ksKeyCount, Tag.ksMaxSize, Tag.ksSettings, Tag.ksSets]

def keySetOrder : List UInt8 :=
  [Tag.setNumber, Tag.setVersion, Tag.setType, Tag.setInitialized, Tag.setKeys]

/-- One turn of the key loop of `decode_key_sets`. -/
def decodeKeySetKey (i index keyCount required : ℕ) (st : DfcCredential × ℕ) (tlv : Tlv) :
    Except DfcModelStatus (DfcCredential × ℕ) := do
  let (c, slot) := st
  refuseIf (tlv.tag ≠ Tag.sequence) .malformed
  refuseIf (keyCount ≤ slot) .malformed
  let (value, versionField) ← decodeKeyFields tlv.body slot required
  let dst ← orFail .capacity (dfcCredentialKeyInSet c (c.apps i) index slot)
  refuseIf ((dfcCredentialKeyVersionInSet c (c.apps i) index slot).isNone = true) .capacity
  let c := { c with keyPool := c.keyPool.write dst value }
  let version ← orFail .malformed (rOctet versionField)
  let c ← orFail .capacity (dfcCredentialStoreKeyVersionInSet c i index slot version)
  pure (c, slot + 1)

/-- One turn of the set loop of `decode_key_sets`. -/
def decodeKeySet (i keyCount maxSize : ℕ) (st : DfcCredential × ℕ) (item : Tlv) :
    Except DfcModelStatus (DfcCredential × ℕ) := do
  let (c, index) := st
  let sf ← orFail .malformed (rFields item.body keySetOrder)
  let number ← orFail .malformed (rUint (fGet sf Tag.setNumber) (dfcMaxKeySets - 1))
  refuseIf (number ≠ index) .malformed
  let type ← orFail .malformed (rUint (fGet sf Tag.setType) 0xFF)
  refuseIf (dfcKeySetTypeAes.toNat < type) .malformed
  let required := dfcKeySetTypeLength (UInt8.ofNat type)
  refuseIf (maxSize < required) .malformed
  let setVersion ← orFail .malformed (dfcCredentialKeySetVersion c (c.apps i) index)
  let setType ← orFail .malformed (dfcCredentialKeySetType c (c.apps i) index)
  let version ← orFail .malformed (rOctet (fGet sf Tag.setVersion))
  let c := { c with
    keySetMetadataPool := (c.keySetMetadataPool.write setVersion [version]).write setType
      [UInt8.ofNat type] }
  let initialized ← orFail .malformed (rBool (fGet sf Tag.setInitialized))
  let c ← orRefuse .malformed (dfcCredentialKeySetSetInitialized c i index initialized)
  let keys ← orFail .malformed (fGet sf Tag.setKeys)
  let (c, _) ← rWalk .malformed (decodeKeySetKey i index keyCount required) keys.length keys (c, 0)
  pure (c, index + 1)

def decodeKeySets (c : DfcCredential) (i : ℕ) (body : Slice) :
    Except DfcModelStatus DfcCredential := do
  let f ← orFail .malformed (rFields body keySetsOrder)
  let keyCount ← orFail .malformed (rUint (fGet f Tag.ksKeyCount) dfcMaxKeys)
  refuseIf (keyCount = 0) .malformed
  let maxSize ← orFail .malformed (rUint (fGet f Tag.ksMaxSize) 24)
  refuseIf (maxSize ≠ 16 ∧ maxSize ≠ 24) .malformed
  let settings ← orFail .malformed (rOctet (fGet f Tag.ksSettings))
  let sets ← orFail .malformed (fGet f Tag.ksSets)
  let count ← countItems sets
  refuseIf (count < dfcKeySetMinimumCount) .malformed
  refuseIf (dfcMaxKeySets < count) .capacity
  let c ← orRefuse .capacity
    (dfcCredentialKeySetsResize c i count keyCount (c.apps i).keyLen maxSize)
  let c := c.modifyApp i fun a => { a with keySetSettings := settings }
  let (c, _) ← rWalk .malformed (decodeKeySet i keyCount maxSize) sets.length sets (c, 0)
  refuseIf (dfcCredentialKeySetIsInitialized c (c.apps i) 0 = false) .malformed
  pure c

def dataOrder : List UInt8 := [Tag.dataSize, Tag.dataKnown, Tag.dataComplete]

def valueOrder : List UInt8 :=
  [Tag.valLower, Tag.valUpper, Tag.valCurrent, Tag.valLimited, Tag.valLimit]

def recordOrder : List UInt8 :=
  [Tag.recSize, Tag.recMax, Tag.recCurrent, Tag.recComplete, Tag.recRecords]

def transactionMacOrder : List UInt8 :=
  [Tag.tmacCounter, Tag.tmacValue, Tag.tmacKeyType, Tag.tmacKeyVersion, Tag.tmacKey,
    Tag.tmacReaderId]

def fileOrder : List UInt8 :=
  [Tag.fileNumber, Tag.fileType, Tag.fileComm, Tag.fileRights, Tag.fileIsoFid, Tag.fileData,
    Tag.fileValue, Tag.fileRecord, Tag.fileTmac, Tag.fileSdm]

/-- Reserves the slice of the file at `i` and copies its octets there. -/
def decodeOctets (c : DfcCredential) (i : ℕ) (octets : Slice) :
    Except DfcModelStatus DfcCredential := do
  let c ← orRefuse .capacity (dfcFileResize c i octets.length)
  let dst ← orFail .capacity (dfcFileData c (c.files i))
  pure { c with filePool := c.filePool.write dst octets }

/-- The optional known contents of a data file. -/
def decodeKnown (c : DfcCredential) (i size : ℕ) : Option Slice →
    Except DfcModelStatus DfcCredential
  | none => pure c
  | some known => do
    refuseIf (known.length = 0 ∨ size < known.length) .malformed
    decodeOctets c i known

def decodeDataContents (c : DfcCredential) (i : ℕ) (body : Slice) :
    Except DfcModelStatus DfcCredential := do
  let d ← orFail .malformed (rFields body dataOrder)
  let size ← orFail .malformed (rUint (fGet d Tag.dataSize) dfcU24Max)
  refuseIf (size = 0) .malformed
  let file ← orFail .malformed (dfcFileSetDeclaredSize (c.files i) size)
  let complete ← orFail .malformed (rBool (fGet d Tag.dataComplete))
  let c ← decodeKnown (c.modifyFile i fun _ => file.withComplete complete) i size
    (fGet d Tag.dataKnown)
  refuseIf (complete = true ∧ (c.files i).dataLen ≠ size) .malformed
  pure c

def decodeValueContents (c : DfcCredential) (i : ℕ) (body : Slice) :
    Except DfcModelStatus DfcCredential := do
  let v ← orFail .malformed (rFields body valueOrder)
  let lower ← orFail .malformed (rInt (fGet v Tag.valLower))
  let upper ← orFail .malformed (rInt (fGet v Tag.valUpper))
  let current ← orFail .malformed (rInt (fGet v Tag.valCurrent))
  refuseIf (lower < -2 ^ 31 ∨ 2 ^ 31 - 1 < upper ∨ current < -2 ^ 31 ∨ 2 ^ 31 - 1 < current)
    .malformed
  refuseIf (current < lower ∨ upper < current) .malformed
  let limited ← orFail .malformed (rOctet (fGet v Tag.valLimited))
  let limit ← orFail .malformed (rOptional rInt (fGet v Tag.valLimit))
  refuseIf (limit.getD 0 < 0 ∨ 2 ^ 31 - 1 < limit.getD 0) .malformed
  pure (c.modifyFile i fun file => file.withValue
    { file.state.value with
      lowerLimit := Int32.ofInt lower
      upperLimit := Int32.ofInt upper
      current := Int32.ofInt current
      limitedCredit := limited
      limitedCreditValue := (limit.map Int32.ofInt).getD file.state.value.limitedCreditValue })

def decodeTransactionMacContents (c : DfcCredential) (i : ℕ) (body : Slice) :
    Except DfcModelStatus DfcCredential := do
  let tm ← orFail .malformed (rFields body transactionMacOrder)
  let counter ← orFail .malformed (rUint (fGet tm Tag.tmacCounter) (2 ^ 32 - 1))
  let mac ← orFail .malformed (rOctets (fGet tm Tag.tmacValue) 8)
  let keyType ← orFail .malformed (rOctet (fGet tm Tag.tmacKeyType))
  let keyVersion ← orFail .malformed (rOctet (fGet tm Tag.tmacKeyVersion))
  let key ← orFail .malformed (rOctets (fGet tm Tag.tmacKey) 16)
  let readerId ← orFail .malformed (rOctets (fGet tm Tag.tmacReaderId) 16)
  pure (c.modifyFile i fun file =>
    let t := file.state.transactionMac
    file.withTransactionMac
      { counter := UInt32.ofNat counter
        mac := t.mac.write 0 mac
        keyType := keyType
        keyVersion := keyVersion
        key := t.key.write 0 key
        previousReaderId := t.previousReaderId.write 0 readerId })

/-- The first walk over the records, which counts them. -/
def countRecords (size : ℕ) (body : Slice) : Except DfcModelStatus ℕ :=
  rWalk .malformed (fun stored item => do
    refuseIf (item.tag ≠ Tag.octets) .malformed
    refuseIf (item.body.length ≠ size) .malformed
    pure (stored + 1)) body.length body 0

/-- The second walk over the records, which copies them from `dst` on. -/
def copyRecords (dst : ℕ) (c : DfcCredential) (body : Slice) :
    Except DfcModelStatus DfcCredential :=
  do
  let (c, _) ← rWalk .malformed (fun (st : DfcCredential × ℕ) item =>
    pure ({ st.1 with filePool := st.1.filePool.write (dst + st.2) item.body },
      st.2 + item.body.length)) body.length body (c, 0)
  pure c

def decodeRecordContents (c : DfcCredential) (i : ℕ) (body : Slice) :
    Except DfcModelStatus DfcCredential := do
  let r ← orFail .malformed (rFields body recordOrder)
  let size ← orFail .malformed (rUint (fGet r Tag.recSize) dfcU24Max)
  refuseIf (size = 0) .malformed
  let maxRecords ← orFail .malformed (rUint (fGet r Tag.recMax) dfcU24Max)
  refuseIf (maxRecords = 0) .malformed
  let count ← orFail .malformed (rUint (fGet r Tag.recCurrent) dfcU24Max)
  refuseIf (maxRecords < count) .malformed
  refuseIf ((c.files i).type = dfcFileTypeCyclicRecord ∧ maxRecords < 2) .malformed
  let complete ← orFail .malformed (rBool (fGet r Tag.recComplete))
  let c := c.modifyFile i fun file => (file.withRecord
    { size := size, maxRecords := maxRecords, count := count }).withComplete complete
  let recs ← orFail .malformed (fGet r Tag.recRecords)
  let stored ← countRecords size recs
  refuseIf (count < stored) .malformed
  refuseIf (complete = true ∧ stored ≠ count) .malformed
  if 0 < stored then do
    let c ← orRefuse .capacity (dfcFileResize c i (stored * size))
    let dst ← orFail .capacity (dfcFileData c (c.files i))
    copyRecords dst c recs
  else pure c

/-- The type selects the alternative of the contents. -/
def decodeContents (c : DfcCredential) (i : ℕ) (f : Fields) :
    Except DfcModelStatus DfcCredential := do
  let data := fGet f Tag.fileData
  let value := fGet f Tag.fileValue
  let record := fGet f Tag.fileRecord
  let tmac := fGet f Tag.fileTmac
  refuseIf ((if data.isSome then 1 else 0) + (if value.isSome then 1 else 0) +
    (if record.isSome then 1 else 0) + (if tmac.isSome then 1 else 0) ≠ 1) .malformed
  if dfcFileTypeIsData (c.files i).type then do
    let body ← orFail .malformed data
    decodeDataContents c i body
  else if (c.files i).type == dfcFileTypeValue then do
    let body ← orFail .malformed value
    decodeValueContents c i body
  else if (c.files i).type == dfcFileTypeTransactionMac then do
    let body ← orFail .malformed tmac
    decodeTransactionMacContents c i body
  else do
    let body ← orFail .malformed record
    decodeRecordContents c i body

/-- Secure dynamic messaging belongs to a standard data file only. -/
def decodeFileSdm (c : DfcCredential) (i : ℕ) : Option Slice → Except DfcModelStatus DfcCredential
  | none => pure c
  | some sdm => do
    refuseIf ((c.files i).type ≠ dfcFileTypeStandardData) .malformed
    let file ← decodeSdm (c.files i) sdm
    pure (c.modifyFile i fun _ => file)

/-- The record behind the last file is counted. -/
def countFile (c : DfcCredential) : DfcCredential := { c with numFiles := c.numFiles + 1 }

def decodeFile (owner : ℕ) (c : DfcCredential) (body : Slice) :
    Except DfcModelStatus DfcCredential :=
  do
  let f ← orFail .malformed (rFields body fileOrder)
  let number ← orFail .malformed (rUint (fGet f Tag.fileNumber) dfcEv1MaxFileNumber)
  let type ← orFail .malformed (rUint (fGet f Tag.fileType) 0xFF)
  refuseIf (dfcFileTypeTransactionMac.toNat < type) .malformed
  refuseIf (dfcMaxFiles ≤ c.numFiles) .capacity
  refuseIf (∃ j < c.numFiles, (c.files j).appIndex = owner ∧
    (c.files j).number = UInt8.ofNat number) .malformed
  let comm ← orFail .malformed (rOctet (fGet f Tag.fileComm))
  let rights ← orFail .malformed (rU16 (fGet f Tag.fileRights))
  let fid ← orFail .malformed (rOptional rU16 (fGet f Tag.fileIsoFid))
  refuseIf (fid.any dfcIsoFileIdIsReserved = true) .malformed
  let i := c.numFiles
  let c := c.modifyFile i fun _ =>
    { appIndex := u8 owner, number := UInt8.ofNat number, type := UInt8.ofNat type
      dataOffset := dfcFilePoolNone, commSettings := comm, accessRights := rights
      hasIsoFileId := fid.isSome, isoFileId := fid.getD 0 }
  let c ← decodeContents c i f
  let c ← decodeFileSdm c i (fGet f Tag.fileSdm)
  pure (countFile c)

def decodeFiles (owner : ℕ) (c : DfcCredential) (body : Slice) :
    Except DfcModelStatus DfcCredential :=
  rWalk .malformed (fun c tlv => do
    refuseIf (tlv.tag ≠ Tag.sequence) .malformed
    decodeFile owner c tlv.body) body.length body c

def authCommandFor (code : ℕ) : UInt8 :=
  if code = 2 then dfcCmdAuthenticateAes
  else if code = 1 then dfcCmdAuthenticateIso
  else dfcCmdAuthenticateLegacy

/-- The authentication fields of the PICC record or of an application. -/
structure AuthRecord where
  authCommand : UInt8
  hasAuthCommands : Bool
  authCommands : UInt8
  hasPreferredAuthCommand : Bool
  preferredAuthCommand : UInt8
  deriving Repr, DecidableEq

/-- The assignments of the authentication fields. -/
def storeAuth (version : ℕ) (code : ℕ) (preferred : Option UInt8) (a : AuthRecord) : AuthRecord :=
  if 6 ≤ version then
    { a with
      authCommands := UInt8.ofNat code, hasAuthCommands := true
      preferredAuthCommand := preferred.getD a.preferredAuthCommand
      hasPreferredAuthCommand := preferred.isSome || a.hasPreferredAuthCommand }
  else
    { a with
      authCommand := authCommandFor code
      preferredAuthCommand := UInt8.ofNat (2 ^ code)
      hasPreferredAuthCommand := true }

/-- The mask of commands and the preferred one. Before version 6 the format has one
authentication mode in their place. -/
def decodeAuth (version : ℕ) (auth preferred : Option Slice) :
    Except DfcModelStatus (UInt8 × Option UInt8) := do
  let code ← orFail .malformed (rUint auth (if 6 ≤ version then dfcAuthCommandAll.toNat else 2))
  if 6 ≤ version then do
    let value ← orFail .malformed
      (rOptional (fun field => (rUint field dfcAuthCommandAll.toNat).map UInt8.ofNat) preferred)
    pure (UInt8.ofNat code, value)
  else do
    refuseIf (preferred.isSome = true) .malformed
    pure (UInt8.ofNat code, none)

def delegatedOrder : List UInt8 :=
  [Tag.delSlot, Tag.delVersion, Tag.delQuota, Tag.delFree, Tag.delFormatDisabled]

/-- The assignments of `decode_delegated`. -/
def storeDelegated (app : DfcApplication) (d : DelegatedImage) : DfcApplication :=
  { app with
    delegatedSlotNumber := d.slotNumber, delegatedSlotVersion := d.slotVersion
    delegatedQuotaLimit := d.quotaLimit, delegatedFreeBlocks := d.freeBlocks
    delegatedFormatDisabled := d.formatDisabled, delegated := true }

def decodeDelegated (app : DfcApplication) (body : Slice) (version : ℕ) :
    Except DfcModelStatus DfcApplication := do
  let f ← orFail .malformed (rFields body delegatedOrder)
  let slot ← orFail .malformed (rUint (fGet f Tag.delSlot) 0xFFFF)
  let slotVersion ← orFail .malformed (rOctet (fGet f Tag.delVersion))
  let quota ← orFail .malformed (rUint (fGet f Tag.delQuota) 0xFFFF)
  let freeBlocks ← orFail .malformed (rUint (fGet f Tag.delFree) 0xFFFF)
  refuseIf (quota < freeBlocks) .malformed
  refuseIf (version < 6 ∧ (fGet f Tag.delFormatDisabled).isSome = true) .malformed
  let formatDisabled ← orFail .malformed (rDefaultFalse f Tag.delFormatDisabled)
  pure (storeDelegated app
    { slotNumber := UInt16.ofNat slot, slotVersion := slotVersion
      quotaLimit := UInt16.ofNat quota, freeBlocks := UInt16.ofNat freeBlocks
      formatDisabled := formatDisabled })

def decodeAppDelegated (version : ℕ) (app : DfcApplication) :
    Option Slice → Except DfcModelStatus DfcApplication
  | none => pure app
  | some delegated => decodeDelegated app delegated version

def appOrder : List UInt8 :=
  [Tag.appAid, Tag.appIsoFid, Tag.appDfName, Tag.appKs1, Tag.appKs2, Tag.appAuth, Tag.appKeys,
    Tag.appFiles, Tag.appKeySets, Tag.appCapability, Tag.appDelegated, Tag.appSmDisable,
    Tag.appPreferredAuth]

/-- The assignments of an application's settings. -/
def storeAppSettings (version : ℕ) (app : DfcApplication) (a : AppSettingsImage) : DfcApplication :=
  let auth := storeAuth version a.authCommands.toNat a.preferredAuthCommand
    ⟨app.authCommand, app.hasAuthCommands, app.authCommands, app.hasPreferredAuthCommand,
      app.preferredAuthCommand⟩
  { app with
    aid := app.aid.write 0 a.aid
    hasIsoFileId := a.isoFileId.isSome || app.hasIsoFileId
    isoFileId := a.isoFileId.getD app.isoFileId
    isoAid := app.isoAid.write 0 a.dfName
    isoAidLen := if a.dfName = [] then app.isoAidLen else a.dfName.length
    keySettings1 := a.keySettings1, keySettings2 := a.keySettings2
    authCommand := auth.authCommand, hasAuthCommands := auth.hasAuthCommands
    authCommands := auth.authCommands
    hasPreferredAuthCommand := auth.hasPreferredAuthCommand
    preferredAuthCommand := auth.preferredAuthCommand
    keyLen := dfcCredentialKeyLength a.keySettings2 }

/-- The components of an application up to its keys. -/
def decodeAppSettings (version : ℕ) (c : DfcCredential) (i : ℕ) (af : Fields) :
    Except DfcModelStatus DfcApplication := do
  let aid ← orFail .malformed (rOctets (fGet af Tag.appAid) 3)
  refuseIf (∃ j < c.numApps, (c.apps j).aid.read 0 3 = aid) .malformed
  let fid ← orFail .malformed (rOptional rU16 (fGet af Tag.appIsoFid))
  refuseIf (fid.any dfcIsoFileIdIsReserved = true) .malformed
  let df := fGet af Tag.appDfName
  refuseIf (df.any (fun df => df.length == 0 || decide (16 < df.length)) = true) .malformed
  let ks1 ← orFail .malformed (rOctet (fGet af Tag.appKs1))
  let ks2 ← orFail .malformed (rOctet (fGet af Tag.appKs2))
  let (authCommands, preferred) ← decodeAuth version (fGet af Tag.appAuth)
    (fGet af Tag.appPreferredAuth)
  pure (storeAppSettings version (c.apps i)
    { aid := aid, isoFileId := fid, dfName := df.getD [], keySettings1 := ks1, keySettings2 := ks2
      authCommands := authCommands, preferredAuthCommand := preferred })

/-- Exactly one key storage alternative is required. -/
def decodeKeyStore (c : DfcCredential) (i : ℕ) (af : Fields) :
    Except DfcModelStatus DfcCredential :=
  match fGet af Tag.appKeys, fGet af Tag.appKeySets with
  | some keys, none => decodeKeys c (some i) keys (c.apps i).keyLen dfcMaxKeys
  | none, some sets => decodeKeySets c i sets
  | _, _ => .error .malformed

/-- The components of an application behind its keys. -/
def decodeAppTail (version : ℕ) (app : DfcApplication) (af : Fields) :
    Except DfcModelStatus DfcApplication := do
  let capability ← orFail .malformed
    (rOptional (fun field => rOctets field 10) (fGet af Tag.appCapability))
  let app := { app with
    capabilityData := app.capabilityData.write 0 (capability.getD [])
    hasCapabilityData := capability.isSome || app.hasCapabilityData }
  let app ← decodeAppDelegated version app (fGet af Tag.appDelegated)
  refuseIf ((fGet af Tag.appSmDisable).isSome = true ∧ version < 6) .malformed
  let smDisable ← orFail .malformed (rOptional rOctet (fGet af Tag.appSmDisable))
  pure { app with
    smDisable := smDisable.getD app.smDisable
    hasSmDisable := smDisable.isSome || app.hasSmDisable }

/-- The record behind the last application is counted. -/
def countApp (c : DfcCredential) : DfcCredential := { c with numApps := c.numApps + 1 }

/-- One turn of the application loop of `decode_credential`. -/
def decodeApp (version : ℕ) (c : DfcCredential) (tlv : Tlv) : Except DfcModelStatus DfcCredential :=
  do
  refuseIf (tlv.tag ≠ Tag.sequence) .malformed
  refuseIf (dfcMaxApps ≤ c.numApps) .capacity
  let af ← orFail .malformed (rFields tlv.body appOrder)
  let i := c.numApps
  let app ← decodeAppSettings version c i af
  let c ← decodeKeyStore (c.modifyApp i fun _ => app) i af
  let app ← decodeAppTail version (c.apps i) af
  let c := countApp (c.modifyApp i fun _ => app)
  let files ← orFail .malformed (fGet af Tag.appFiles)
  decodeFiles i c files

def cardOrderV4 : List UInt8 :=
  [Tag.cardGeneration, Tag.cardStorage, Tag.cardUid, Tag.cardProvenance, Tag.cardSignature]

def cardOrderV5 : List UInt8 := cardOrderV4 ++ [Tag.cardHardwareVersion, Tag.cardSoftwareVersion]

/-- The assignments of the card fields. -/
def storeCard (c : DfcCredential) (card : CardImage) : DfcCredential :=
  { c with
    uid := c.uid.write 0 card.uid
    uidLen := card.uid.length
    card :=
      { generation := card.generation
        storage := card.storage
        uidProvenance := card.uidProvenance
        hardwareVersion := c.card.hardwareVersion.write 0 (card.hardwareVersion.getD [])
        hasHardwareVersion := card.hardwareVersion.isSome || c.card.hasHardwareVersion
        softwareVersion := c.card.softwareVersion.write 0 (card.softwareVersion.getD [])
        hasSoftwareVersion := card.softwareVersion.isSome || c.card.hasSoftwareVersion }
    piccStaticSignature := c.piccStaticSignature.write 0 (card.staticSignature.getD [])
    piccHasStaticSignature := card.staticSignature.isSome || c.piccHasStaticSignature }

def decodeCard (version : ℕ) (c : DfcCredential) (body : Slice) :
    Except DfcModelStatus DfcCredential := do
  let caf ← orFail .malformed
    (rFields body (if version = dfcMinReadFormatVersion then cardOrderV4 else cardOrderV5))
  let generation ← orFail .malformed (rUint (fGet caf Tag.cardGeneration) 0xFF)
  refuseIf (generation < dfcGenerationEv1 ∨ dfcGenerationEv3 < generation) .malformed
  let storage ← orFail .malformed (rUint (fGet caf Tag.cardStorage) 0xFFFFFFFF)
  let provenance ← orFail .malformed (rUint (fGet caf Tag.cardProvenance) 0xFF)
  refuseIf (dfcUidProvenanceUnknown < provenance) .malformed
  let uid ← orFail .malformed (fGet caf Tag.cardUid)
  refuseIf (uid.length ≠ 4 ∧ uid.length ≠ 7 ∧ uid.length ≠ 10) .malformed
  let hardware ← orFail .malformed
    (rOptional (fun field => rOctets field 7) (fGet caf Tag.cardHardwareVersion))
  let software ← orFail .malformed
    (rOptional (fun field => rOctets field 7) (fGet caf Tag.cardSoftwareVersion))
  let signature ← orFail .malformed
    (rOptional (fun field => rOctets field 56) (fGet caf Tag.cardSignature))
  pure (storeCard c
    { generation := generation, storage := UInt32.ofNat storage, uid := uid
      uidProvenance := provenance, staticSignature := signature
      hardwareVersion := hardware, softwareVersion := software })

def proximityOrder : List UInt8 :=
  [Tag.proxKey, Tag.proxOption, Tag.proxPublished, Tag.proxBitrate]

/-- The assignments of `decode_proximity`. -/
def storeProximity (c : DfcCredential) (x : ProximityImage) : DfcCredential :=
  { c with
    piccProximityKey := c.piccProximityKey.write 0 x.key
    piccProximityOption := x.option
    piccProximityPublishedResponseTime := x.publishedResponseTime
    piccProximityBitrate := x.bitrate.getD c.piccProximityBitrate
    piccHasProximityBitrate := x.bitrate.isSome || c.piccHasProximityBitrate
    piccHasProximityKey := true }

def decodeProximity (c : DfcCredential) (body : Slice) : Except DfcModelStatus DfcCredential := do
  let f ← orFail .malformed (rFields body proximityOrder)
  let key ← orFail .malformed (rOctets (fGet f Tag.proxKey) 16)
  let option ← orFail .malformed (rOctet (fGet f Tag.proxOption))
  let published ← orFail .malformed (rUint (fGet f Tag.proxPublished) 0xFFFF)
  let bitrate ← orFail .malformed (rOptional rOctet (fGet f Tag.proxBitrate))
  pure (storeProximity c
    { key := key, option := option, publishedResponseTime := UInt16.ofNat published
      bitrate := bitrate })

def virtualCardOrder : List UInt8 :=
  [Tag.vcInstallId, Tag.vcInfo, Tag.vcCaps, Tag.vcUid, Tag.vcMacKey, Tag.vcEncKey, Tag.vcAuthReq,
    Tag.vcProxReq]

/-- The assignments of `decode_virtual_card`. -/
def storeVirtualCard (c : DfcCredential) (v : VirtualCardImage) : DfcCredential :=
  { c with
    virtualCardInstallationId := c.virtualCardInstallationId.write 0 v.installationId
    virtualCardInstallationIdLen := v.installationId.length
    virtualCardInformation := v.information
    virtualCardCapabilities := c.virtualCardCapabilities.write 0 v.capabilities
    virtualCardUid := c.virtualCardUid.write 0 v.uid
    virtualCardUidLen := v.uid.length
    virtualCardSelectMacKey := c.virtualCardSelectMacKey.write 0 v.selectMacKey
    virtualCardSelectEncryptionKey := c.virtualCardSelectEncryptionKey.write 0 v.selectEncryptionKey
    virtualCardAuthenticationMandatory := v.authenticationMandatory
    virtualCardProximityMandatory := v.proximityMandatory
    virtualCardConfigured := true }

def decodeVirtualCard (c : DfcCredential) (body : Slice) : Except DfcModelStatus DfcCredential := do
  let f ← orFail .malformed (rFields body virtualCardOrder)
  let install ← orFail .malformed (fGet f Tag.vcInstallId)
  refuseIf (install.length = 0 ∨ dfcVirtualCardMaxInstallationIdLength < install.length) .malformed
  let information ← orFail .malformed (rOctet (fGet f Tag.vcInfo))
  let capabilities ← orFail .malformed (rOctets (fGet f Tag.vcCaps) 2)
  let uid ← orFail .malformed (fGet f Tag.vcUid)
  refuseIf (uid.length ≠ 4 ∧ uid.length ≠ 7 ∧ uid.length ≠ 10) .malformed
  let macKey ← orFail .malformed (rOctets (fGet f Tag.vcMacKey) 16)
  let encryptionKey ← orFail .malformed (rOctets (fGet f Tag.vcEncKey) 16)
  let authentication ← orFail .malformed (rBool (fGet f Tag.vcAuthReq))
  let proximity ← orFail .malformed (rBool (fGet f Tag.vcProxReq))
  pure (storeVirtualCard c
    { installationId := install, information := information, capabilities := capabilities
      uid := uid, selectMacKey := macKey, selectEncryptionKey := encryptionKey
      authenticationMandatory := authentication, proximityMandatory := proximity })

def damOrder : List UInt8 := [Tag.damAuth, Tag.damMac, Tag.damEnc]

/-- The assignments of `decode_dam`. -/
def storeDam (c : DfcCredential) (d : DamImage) : DfcCredential :=
  { c with
    piccDamAuthKey := c.piccDamAuthKey.write 0 d.authKey
    piccDamMacKey := c.piccDamMacKey.write 0 d.macKey
    piccDamEncryptionKey := c.piccDamEncryptionKey.write 0 d.encryptionKey
    piccHasDamKeys := true }

def decodeDam (c : DfcCredential) (body : Slice) : Except DfcModelStatus DfcCredential := do
  let f ← orFail .malformed (rFields body damOrder)
  let authKey ← orFail .malformed (rOctets (fGet f Tag.damAuth) 16)
  let macKey ← orFail .malformed (rOctets (fGet f Tag.damMac) 16)
  let encryptionKey ← orFail .malformed (rOctets (fGet f Tag.damEnc) 16)
  pure (storeDam c { authKey := authKey, macKey := macKey, encryptionKey := encryptionKey })

def piccOrder : List UInt8 :=
  [Tag.piccKs1, Tag.piccKs2, Tag.piccAuth, Tag.piccRandomId, Tag.piccFormatDis, Tag.piccAts,
    Tag.piccSak, Tag.piccAtqa, Tag.piccSmDisable, Tag.piccKeys, Tag.piccFiles, Tag.piccEv2Caps,
    Tag.piccProximity, Tag.piccVcard, Tag.piccDam, Tag.piccPreferredAuth, Tag.piccRandomIdLegacy]

/-- The assignments of the PICC settings. -/
def storePiccSettings (version : ℕ) (c : DfcCredential) (p : PiccSettingsImage) : DfcCredential :=
  let auth := storeAuth version p.authCommands.toNat p.preferredAuthCommand
    ⟨c.piccAuthCommand, c.piccHasAuthCommands, c.piccAuthCommands, c.piccHasPreferredAuthCommand,
      c.piccPreferredAuthCommand⟩
  { c with
    piccKeySettings1 := p.keySettings1, piccKeySettings2 := p.keySettings2
    piccAuthCommand := auth.authCommand, piccHasAuthCommands := auth.hasAuthCommands
    piccAuthCommands := auth.authCommands
    piccHasPreferredAuthCommand := auth.hasPreferredAuthCommand
    piccPreferredAuthCommand := auth.preferredAuthCommand
    piccKeyLen := dfcCredentialKeyLength p.keySettings2
    piccRandomId := p.randomId, piccRandomIdLegacy := p.randomIdLegacy
    piccFormatDisabled := p.formatDisabled
    piccAts := c.piccAts.write 0 p.ats
    piccAtsLen := if p.ats = [] then c.piccAtsLen else p.ats.length
    piccSak := p.sak.getD c.piccSak, piccHasSak := p.sak.isSome || c.piccHasSak
    piccAtqa := c.piccAtqa.write 0 (p.atqa.getD []), piccHasAtqa := p.atqa.isSome || c.piccHasAtqa
    piccSmDisable := p.smDisable.getD c.piccSmDisable
    piccHasSmDisable := p.smDisable.isSome || c.piccHasSmDisable }

/-- The PICC settings up to the keys. -/
def decodePiccSettings (version : ℕ) (c : DfcCredential) (pf : Fields) :
    Except DfcModelStatus DfcCredential := do
  let ks1 ← orFail .malformed (rOctet (fGet pf Tag.piccKs1))
  let ks2 ← orFail .malformed (rOctet (fGet pf Tag.piccKs2))
  let (authCommands, preferred) ← decodeAuth version (fGet pf Tag.piccAuth)
    (fGet pf Tag.piccPreferredAuth)
  let randomId ← orFail .malformed (rDefaultFalse pf Tag.piccRandomId)
  refuseIf (version < 6 ∧ (fGet pf Tag.piccRandomIdLegacy).isSome = true) .malformed
  let randomIdLegacy ← orFail .malformed (rDefaultFalse pf Tag.piccRandomIdLegacy)
  let formatDisabled ← orFail .malformed (rDefaultFalse pf Tag.piccFormatDis)
  let ats := fGet pf Tag.piccAts
  refuseIf (ats.any (fun ats => ats.length == 0) = true) .malformed
  refuseIf (ats.any (fun ats => decide (dfcPiccAtsMax < ats.length)) = true) .capacity
  let sak ← orFail .malformed (rOptional rOctet (fGet pf Tag.piccSak))
  let atqa ← orFail .malformed (rOptional (fun field => rOctets field 2) (fGet pf Tag.piccAtqa))
  let smDisable ← orFail .malformed (rOptional rOctet (fGet pf Tag.piccSmDisable))
  pure (storePiccSettings version c
    { keySettings1 := ks1, keySettings2 := ks2, authCommands := authCommands
      preferredAuthCommand := preferred, randomId := randomId, randomIdLegacy := randomIdLegacy
      formatDisabled := formatDisabled, ats := ats.getD [], sak := sak, atqa := atqa
      smDisable := smDisable })

/-- An optional group of components. -/
def decodeGroup (decode : DfcCredential → Slice → Except DfcModelStatus DfcCredential)
    (c : DfcCredential) (field : Option Slice) : Except DfcModelStatus DfcCredential :=
  match field with
  | none => pure c
  | some body => decode c body

/-- The EV2 capabilities of a card that has them. -/
def storeEv2Capabilities (c : DfcCredential) (caps : Option Slice) : DfcCredential :=
  { c with
    piccEv2Capabilities := c.piccEv2Capabilities.write 0 (caps.getD [])
    piccHasEv2Capabilities := caps.isSome || c.piccHasEv2Capabilities }

/-- The PICC settings without the files, which are read after the applications. -/
def decodePicc (version : ℕ) (c : DfcCredential) (pf : Fields) :
    Except DfcModelStatus DfcCredential := do
  let c ← decodePiccSettings version c pf
  let keys ← orFail .malformed (fGet pf Tag.piccKeys)
  let c ← decodeKeys c none keys c.piccKeyLen dfcMaxKeys
  let caps ← orFail .malformed (rOptional (fun field => rOctets field 6) (fGet pf Tag.piccEv2Caps))
  let c := storeEv2Capabilities c caps
  let c ← decodeGroup decodeProximity c (fGet pf Tag.piccProximity)
  let c ← decodeGroup decodeVirtualCard c (fGet pf Tag.piccVcard)
  decodeGroup decodeDam c (fGet pf Tag.piccDam)

def credentialOrder : List UInt8 := [Tag.credVersion, Tag.credCard, Tag.credPicc, Tag.credApps]

def decodeCredential (input : Slice) : Except DfcModelStatus DfcCredential := do
  refuseIf (dfcDerMaxSize < input.length) .malformed
  let (root, rest) ← orFail .malformed (rTlv input)
  refuseIf (root.tag ≠ Tag.credential) .malformed
  refuseIf (rest.length ≠ 0) .malformed
  let cf ← orFail .malformed (rFields root.body credentialOrder)
  let version ← orFail .malformed (rUint (fGet cf Tag.credVersion) 0xFF)
  refuseIf (version < dfcMinReadFormatVersion ∨ dfcFormatVersion < version) .unsupported
  let card ← orFail .malformed (fGet cf Tag.credCard)
  let c ← decodeCard version dfcCredentialClear card
  let picc ← orFail .malformed (fGet cf Tag.credPicc)
  let pf ← orFail .malformed (rFields picc piccOrder)
  let c ← decodePicc version c pf
  -- Applications come before the PICC files so that owner indices resolve.
  let apps ← orFail .malformed (fGet cf Tag.credApps)
  let c ← rWalk .malformed (decodeApp version) apps.length apps c
  let files ← orFail .malformed (fGet pf Tag.piccFiles)
  let c ← decodeFiles dfcFileOwnerPicc c files
  modelCheck c
  pure { c with dirty := false }

/-- The status of a decode and the credential it leaves. Every failure leaves the empty
credential. -/
def dfcDerDecode (input : Slice) : DfcModelStatus × DfcCredential :=
  match decodeCredential input with
  | .ok c => (.ok, c)
  | .error st => (st, dfcCredentialClear)

end DfcCore
