import DfcCore.Pools

/-!
# The card image

What a credential means as a card: its settings, its applications in order with their
keys, and for every owner the sequence of its files with their contents. Pool offsets,
the reserved tail of a record slice, uncommitted value changes and the relative order of
files of different owners are not part of it. Both file formats are descriptions of an
image.
-/
namespace DfcCore

/-- A key and its version. -/
structure KeyImage where
  value : List UInt8
  version : UInt8
  deriving Repr, DecidableEq

structure KeySetImage where
  version : UInt8
  type : UInt8
  initialized : Bool
  keys : List KeyImage
  deriving Repr, DecidableEq

/-- The two ways an application keeps its keys. -/
inductive KeyStoreImage where
  | list (keys : List KeyImage)
  | sets (keyCount maxKeySize : ℕ) (settings : UInt8) (sets : List KeySetImage)
  deriving Repr, DecidableEq

structure DelegatedImage where
  slotNumber : UInt16
  slotVersion : UInt8
  quotaLimit : UInt16
  freeBlocks : UInt16
  formatDisabled : Bool
  deriving Repr, DecidableEq

/-- Secure dynamic messaging; an offset that is not in use is absent. -/
structure SdmImage where
  options : UInt8
  accessRights : UInt16
  uidOffset : Option UInt32
  counterOffset : Option UInt32
  piccDataOffset : Option UInt32
  macInputOffset : Option UInt32
  macOffset : Option UInt32
  encryptedFile : Option (UInt32 × UInt32)
  counterLimit : Option UInt32
  readCounter : UInt32
  deriving Repr, DecidableEq

/-- The contents of a file by its kind. Only contents that are octets can be incomplete. A
limited-credit value of zero is not recorded. -/
inductive ContentsImage where
  | data (size : ℕ) (known : List UInt8) (complete : Bool)
  | value (lower upper current : Int32) (limitedCredit : UInt8) (limitedCreditValue : Option Int32)
  | record (size maxRecords count : ℕ) (complete : Bool) (records : List (List UInt8))
  | transactionMac (counter : UInt32) (mac : List UInt8) (keyType keyVersion : UInt8)
      (key previousReaderId : List UInt8)
  deriving Repr, DecidableEq

structure FileImage where
  number : UInt8
  type : UInt8
  commSettings : UInt8
  accessRights : UInt16
  isoFileId : Option UInt16
  contents : ContentsImage
  sdm : Option SdmImage
  deriving Repr, DecidableEq

/-- The settings of an application. -/
structure AppSettingsImage where
  aid : List UInt8
  isoFileId : Option UInt16
  dfName : List UInt8
  keySettings1 : UInt8
  keySettings2 : UInt8
  authCommands : UInt8
  preferredAuthCommand : Option UInt8
  deriving Repr, DecidableEq

structure AppImage extends AppSettingsImage where
  keys : KeyStoreImage
  files : List FileImage
  capabilityData : Option (List UInt8)
  delegated : Option DelegatedImage
  smDisable : Option UInt8
  deriving Repr, DecidableEq

structure CardImage where
  generation : ℕ
  storage : UInt32
  uid : List UInt8
  uidProvenance : ℕ
  staticSignature : Option (List UInt8)
  hardwareVersion : Option (List UInt8)
  softwareVersion : Option (List UInt8)
  deriving Repr, DecidableEq

structure ProximityImage where
  key : List UInt8
  option : UInt8
  publishedResponseTime : UInt16
  bitrate : Option UInt8
  deriving Repr, DecidableEq

structure VirtualCardImage where
  installationId : List UInt8
  information : UInt8
  capabilities : List UInt8
  uid : List UInt8
  selectMacKey : List UInt8
  selectEncryptionKey : List UInt8
  authenticationMandatory : Bool
  proximityMandatory : Bool
  deriving Repr, DecidableEq

structure DamImage where
  authKey : List UInt8
  macKey : List UInt8
  encryptionKey : List UInt8
  deriving Repr, DecidableEq

/-- The settings of the PICC record. -/
structure PiccSettingsImage where
  keySettings1 : UInt8
  keySettings2 : UInt8
  authCommands : UInt8
  preferredAuthCommand : Option UInt8
  randomId : Bool
  randomIdLegacy : Bool
  formatDisabled : Bool
  ats : List UInt8
  sak : Option UInt8
  atqa : Option (List UInt8)
  smDisable : Option UInt8
  deriving Repr, DecidableEq

structure PiccImage extends PiccSettingsImage where
  keys : List KeyImage
  files : List FileImage
  ev2Capabilities : Option (List UInt8)
  proximity : Option ProximityImage
  virtualCard : Option VirtualCardImage
  dam : Option DamImage
  deriving Repr, DecidableEq

structure Image where
  card : CardImage
  picc : PiccImage
  apps : List AppImage
  deriving Repr, DecidableEq

/-- A value that is recorded only under a flag. -/
def whenSet {α : Type} (flag : Bool) (a : α) : Option α := if flag then some a else none

@[simp] theorem whenSet_true {α : Type} (a : α) : whenSet true a = some a := rfl

@[simp] theorem whenSet_false {α : Type} (a : α) : whenSet false a = none := rfl

@[simp] theorem map_whenSet {α β : Type} (f : α → β) (flag : Bool) (a : α) :
    (whenSet flag a).map f = whenSet flag (f a) := by
  cases flag <;> rfl

/-- The key list of an application, or of the PICC record for `none`. -/
def keyListImage (c : DfcCredential) (app : Option ℕ) : List KeyImage :=
  (List.range (numKeysOf c app)).map fun slot =>
    { value := c.keyPool.read ((dfcCredentialKey c app slot).getD 0)
        (dfcCredentialStoredKeyLength (keyLenOf c app))
      version := keyVersionsOf c app slot }

def keySetImage (c : DfcCredential) (app : DfcApplication) (set : ℕ) : KeySetImage :=
  let type := c.keySetMetadataPool ((dfcCredentialKeySetType c app set).getD 0)
  { version := c.keySetMetadataPool ((dfcCredentialKeySetVersion c app set).getD 0)
    type := type
    initialized := dfcCredentialKeySetIsInitialized c app set
    keys := (List.range app.numKeys).map fun slot =>
      { value := c.keyPool.read ((dfcCredentialKeyInSet c app set slot).getD 0)
          (dfcKeySetTypeLength type)
        version := (dfcCredentialKeyVersionInSet c app set slot).getD 0 } }

def keyStoreImage (c : DfcCredential) (i : ℕ) : KeyStoreImage :=
  let app := c.apps i
  if app.numKeySets < dfcKeySetMinimumCount then .list (keyListImage c (some i))
  else .sets app.numKeys app.maxKeySize app.keySetSettings
    ((List.range app.numKeySets).map (keySetImage c app))

def delegatedImage (app : DfcApplication) : DelegatedImage where
  slotNumber := app.delegatedSlotNumber
  slotVersion := app.delegatedSlotVersion
  quotaLimit := app.delegatedQuotaLimit
  freeBlocks := app.delegatedFreeBlocks
  formatDisabled := app.delegatedFormatDisabled

def sdmImage (f : DfcFile) : SdmImage :=
  let sdm := f.state.data.sdm
  { options := sdm.options
    accessRights := sdm.accessRights
    uidOffset := whenSet (dfcFileSdmFlagIsSet f .uidOffset) sdm.uidOffset
    counterOffset := whenSet (dfcFileSdmFlagIsSet f .counterOffset) sdm.counterOffset
    piccDataOffset := whenSet (dfcFileSdmFlagIsSet f .piccDataOffset) sdm.piccDataOffset
    macInputOffset := whenSet (dfcFileSdmFlagIsSet f .macInputOffset) sdm.macInputOffset
    macOffset := whenSet (dfcFileSdmFlagIsSet f .macOffset) sdm.macOffset
    encryptedFile := whenSet (dfcFileSdmFlagIsSet f .encryptedFile)
      (sdm.encryptedFileOffset, sdm.encryptedFileLength)
    counterLimit := whenSet (dfcFileSdmFlagIsSet f .counterLimit) sdm.counterLimit
    readCounter := f.state.data.sdmReadCounter }

/-- The octets of a file's slice. -/
def knownContents (c : DfcCredential) (f : DfcFile) : List UInt8 :=
  match dfcFileData c f with
  | some data => c.filePool.read data f.dataLen
  | none => []

/-- The records a file holds, without a reserved tail. -/
def storedRecords (f : DfcFile) : ℕ :=
  let count := if f.state.record.size = 0 then 0 else f.dataLen / f.state.record.size
  if f.state.record.count < count then f.state.record.count else count

def contentsImage (c : DfcCredential) (f : DfcFile) : ContentsImage :=
  if dfcFileTypeIsData f.type then
    .data f.state.data.declaredSize (knownContents c f) f.contentsComplete
  else if f.type == dfcFileTypeValue then
    let v := f.state.value
    .value v.lowerLimit v.upperLimit v.current v.limitedCredit
      (whenSet (v.limitedCreditValue != 0) v.limitedCreditValue)
  else if dfcFileTypeIsRecord f.type then
    let r := f.state.record
    .record r.size r.maxRecords r.count f.contentsComplete
      ((List.range (storedRecords f)).map fun i =>
        c.filePool.read ((dfcFileData c f).getD 0 + i * r.size) r.size)
  else
    let t := f.state.transactionMac
    .transactionMac t.counter (t.mac.read 0 8) t.keyType t.keyVersion (t.key.read 0 16)
      (t.previousReaderId.read 0 16)

def fileImage (c : DfcCredential) (f : DfcFile) : FileImage where
  number := f.number
  type := f.type
  commSettings := f.commSettings
  accessRights := f.accessRights
  isoFileId := whenSet f.hasIsoFileId f.isoFileId
  contents := contentsImage c f
  sdm := whenSet (dfcFileSdmFlagIsSet f .enabled) (sdmImage f)

/-- The files of an owner, in the order of the file array. -/
def filesOf (c : DfcCredential) (owner : ℕ) : List DfcFile :=
  ((List.range c.numFiles).map c.files).filter fun f => f.appIndex = owner

def appImage (c : DfcCredential) (i : ℕ) : AppImage :=
  let app := c.apps i
  { aid := app.aid.read 0 3
    isoFileId := whenSet app.hasIsoFileId app.isoFileId
    dfName := app.isoAid.read 0 app.isoAidLen
    keySettings1 := app.keySettings1
    keySettings2 := app.keySettings2
    authCommands := dfcCredentialAppAuthCommands c app
    keys := keyStoreImage c i
    files := (filesOf c i).map (fileImage c)
    capabilityData := whenSet app.hasCapabilityData (app.capabilityData.read 0 10)
    delegated := whenSet app.delegated (delegatedImage app)
    smDisable := whenSet app.hasSmDisable app.smDisable
    preferredAuthCommand := whenSet app.hasPreferredAuthCommand app.preferredAuthCommand }

def cardImage (c : DfcCredential) : CardImage where
  generation := c.card.generation
  storage := c.card.storage
  uid := c.uid.read 0 c.uidLen
  uidProvenance := c.card.uidProvenance
  staticSignature := whenSet c.piccHasStaticSignature (c.piccStaticSignature.read 0 56)
  hardwareVersion := whenSet c.card.hasHardwareVersion (c.card.hardwareVersion.read 0 7)
  softwareVersion := whenSet c.card.hasSoftwareVersion (c.card.softwareVersion.read 0 7)

def proximityImage (c : DfcCredential) : ProximityImage where
  key := c.piccProximityKey.read 0 16
  option := c.piccProximityOption
  publishedResponseTime := c.piccProximityPublishedResponseTime
  bitrate := whenSet c.piccHasProximityBitrate c.piccProximityBitrate

def virtualCardImage (c : DfcCredential) : VirtualCardImage where
  installationId := c.virtualCardInstallationId.read 0 c.virtualCardInstallationIdLen
  information := c.virtualCardInformation
  capabilities := c.virtualCardCapabilities.read 0 2
  uid := c.virtualCardUid.read 0 c.virtualCardUidLen
  selectMacKey := c.virtualCardSelectMacKey.read 0 16
  selectEncryptionKey := c.virtualCardSelectEncryptionKey.read 0 16
  authenticationMandatory := c.virtualCardAuthenticationMandatory
  proximityMandatory := c.virtualCardProximityMandatory

def damImage (c : DfcCredential) : DamImage where
  authKey := c.piccDamAuthKey.read 0 16
  macKey := c.piccDamMacKey.read 0 16
  encryptionKey := c.piccDamEncryptionKey.read 0 16

def piccImage (c : DfcCredential) : PiccImage where
  keySettings1 := c.piccKeySettings1
  keySettings2 := c.piccKeySettings2
  authCommands := dfcCredentialPiccAuthCommands c
  randomId := c.piccRandomId
  formatDisabled := c.piccFormatDisabled
  ats := c.piccAts.read 0 c.piccAtsLen
  sak := whenSet c.piccHasSak c.piccSak
  atqa := whenSet c.piccHasAtqa (c.piccAtqa.read 0 2)
  smDisable := whenSet c.piccHasSmDisable c.piccSmDisable
  keys := keyListImage c none
  files := (filesOf c dfcFileOwnerPicc).map (fileImage c)
  ev2Capabilities := whenSet c.piccHasEv2Capabilities (c.piccEv2Capabilities.read 0 6)
  proximity := whenSet c.piccHasProximityKey (proximityImage c)
  virtualCard := whenSet c.virtualCardConfigured (virtualCardImage c)
  dam := whenSet c.piccHasDamKeys (damImage c)
  preferredAuthCommand := whenSet c.piccHasPreferredAuthCommand c.piccPreferredAuthCommand
  randomIdLegacy := c.piccRandomIdLegacy

def imageOf (c : DfcCredential) : Image where
  card := cardImage c
  picc := piccImage c
  apps := (List.range c.numApps).map (appImage c)

end DfcCore
