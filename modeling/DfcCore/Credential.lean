import DfcCore.Memory

/-!
# The credential model

The in-memory card image of `dfc_credential.h`, for the build with every feature
enabled and the default capacities. Octets and fixed-width data values keep their
widths; counts, lengths and pool offsets are natural numbers that the code narrows
explicitly. An array is a total map from indices, of which the code uses the part
below the array's length. `DfcFileState` keeps the four alternatives of the C union
side by side: the `type` octet selects the one that is read, and no other is.
-/
namespace DfcCore

abbrev dfcMaxApps : ℕ := 28
abbrev dfcMaxFiles : ℕ := 32
abbrev dfcMaxKeys : ℕ := 14
abbrev dfcMaxKeyLen : ℕ := 24
abbrev dfcMaxKeySets : ℕ := 16
abbrev dfcKeySetMinimumCount : ℕ := 2
abbrev dfcEv1MaxKeysPerApp : ℕ := 14
abbrev dfcEv1MaxFileNumber : ℕ := 0x1F
abbrev dfcFilePoolSize : ℕ := 8192
abbrev dfcMaxFileData : ℕ := 2048
abbrev dfcKeyPoolSize : ℕ := 4096
abbrev dfcKeySetMetadataPoolSize : ℕ :=
  (dfcKeyPoolSize / 32) * 7 + ((dfcKeyPoolSize % 32) * 7 + 31) / 32
/-- `UINT16_MAX`, the sentinel offset of an owner that holds no slice. -/
abbrev dfcFilePoolNone : ℕ := 65535
abbrev dfcKeyPoolNone : ℕ := 65535
abbrev dfcKeySetMetadataPoolNone : ℕ := 65535
/-- Owner index of a PICC-level file. -/
abbrev dfcFileOwnerPicc : ℕ := 255
abbrev dfcPiccAtsMax : ℕ := 20
abbrev dfcVirtualCardMaxInstallationIdLength : ℕ := 16
abbrev dfcDefaultCardStorage : UInt32 := 2048

/-- Narrowing to `uint8_t`. -/
def u8 (n : ℕ) : ℕ := n % 256

/-- Narrowing to `uint16_t`, the width of the pool offsets. -/
def u16 (n : ℕ) : ℕ := n % 65536

theorem u8_of_lt {n : ℕ} (h : n < 256) : u8 n = n := Nat.mod_eq_of_lt h

theorem u16_of_lt {n : ℕ} (h : n < 65536) : u16 n = n := Nat.mod_eq_of_lt h

abbrev dfcCmdAuthenticateLegacy : UInt8 := 0x0A
abbrev dfcCmdAuthenticateIso : UInt8 := 0x1A
abbrev dfcCmdAuthenticateAes : UInt8 := 0xAA

abbrev dfcAuthCommandD40 : UInt8 := 0x01
abbrev dfcAuthCommandIsoNative : UInt8 := 0x02
abbrev dfcAuthCommandAes : UInt8 := 0x04
abbrev dfcAuthCommandEv2First : UInt8 := 0x08
abbrev dfcAuthCommandEv2NonFirst : UInt8 := 0x10
abbrev dfcAuthCommandIso7816 : UInt8 := 0x20
abbrev dfcAuthCommandAll : UInt8 := 0x3F

abbrev dfcSmDisableD40 : UInt8 := 0x01
abbrev dfcSmDisableEv1 : UInt8 := 0x02
abbrev dfcSmDisableEv2ChainedWrite : UInt8 := 0x04

abbrev dfcKeyTypeDes2k3des : UInt8 := 0x00
abbrev dfcKeyType3k3des : UInt8 := 0x40
abbrev dfcKeyTypeAes : UInt8 := 0x80
abbrev dfcKeyTypeMask : UInt8 := 0xC0
abbrev dfcNumKeysMask : UInt8 := 0x0F

abbrev dfcKeySetType2k3des : UInt8 := 0x00
abbrev dfcKeySetType3k3des : UInt8 := 0x01
abbrev dfcKeySetTypeAes : UInt8 := 0x02
abbrev dfcKeySetMaximum16Byte : ℕ := 0x10
abbrev dfcKeySetMaximum24Byte : ℕ := 0x18

/-- The bits of the communication settings that name the mode. -/
abbrev dfcCommModeMask : UInt8 := 0x03

abbrev dfcFileTypeStandardData : UInt8 := 0x00
abbrev dfcFileTypeBackupData : UInt8 := 0x01
abbrev dfcFileTypeValue : UInt8 := 0x02
abbrev dfcFileTypeLinearRecord : UInt8 := 0x03
abbrev dfcFileTypeCyclicRecord : UInt8 := 0x04
abbrev dfcFileTypeTransactionMac : UInt8 := 0x05

abbrev dfcGenerationEv1 : ℕ := 1
abbrev dfcGenerationEv2 : ℕ := 2
abbrev dfcGenerationEv3 : ℕ := 3

abbrev dfcUidProvenanceReal : ℕ := 0
abbrev dfcUidProvenanceUnknown : ℕ := 2

/-- One status vocabulary for the in-memory model and both credential codecs. -/
inductive DfcModelStatus where
  | ok | malformed | unsupported | capacity
  deriving Repr, DecidableEq

structure DfcSdmSettings where
  flags : UInt8 := 0
  options : UInt8 := 0
  accessRights : UInt16 := 0
  uidOffset : UInt32 := 0
  counterOffset : UInt32 := 0
  piccDataOffset : UInt32 := 0
  macInputOffset : UInt32 := 0
  encryptedFileOffset : UInt32 := 0
  encryptedFileLength : UInt32 := 0
  macOffset : UInt32 := 0
  counterLimit : UInt32 := 0
  deriving Repr, DecidableEq

/-- `DfcSdmFlag`, the bits of `DfcSdmSettings.flags`. -/
inductive DfcSdmFlag where
  | enabled | uidOffset | counterOffset | piccDataOffset | macInputOffset | encryptedFile
  | macOffset | counterLimit
  deriving Repr, DecidableEq

def DfcSdmFlag.bit : DfcSdmFlag → UInt8
  | enabled => 0x01
  | uidOffset => 0x02
  | counterOffset => 0x04
  | piccDataOffset => 0x08
  | macInputOffset => 0x10
  | encryptedFile => 0x20
  | macOffset => 0x40
  | counterLimit => 0x80

structure DfcValueFileState where
  lowerLimit : Int32 := 0
  upperLimit : Int32 := 0
  current : Int32 := 0
  pendingDelta : Int32 := 0
  pendingValue : Int32 := 0
  limitedCreditValue : Int32 := 0
  limitedCreditPending : Int32 := 0
  limitedCredit : UInt8 := 0
  pending : Bool := false
  pendingAbsolute : Bool := false
  deriving Repr, DecidableEq

structure DfcRecordFileState where
  size : ℕ := 0
  maxRecords : ℕ := 0
  count : ℕ := 0
  deriving Repr, DecidableEq

structure DfcTransactionMacFileState where
  counter : UInt32 := 0
  key : Mem := Mem.zero
  mac : Mem := Mem.zero
  previousReaderId : Mem := Mem.zero
  keyType : UInt8 := 0
  keyVersion : UInt8 := 0

structure DfcDataFileState where
  declaredSize : ℕ := 0
  sdm : DfcSdmSettings := {}
  sdmReadCounter : UInt32 := 0
  deriving Repr, DecidableEq

structure DfcFileState where
  data : DfcDataFileState := {}
  value : DfcValueFileState := {}
  record : DfcRecordFileState := {}
  transactionMac : DfcTransactionMacFileState := {}

/-- A file record. `dataOffset` and `dataLen` are its slice of the file pool. The
defaults are the record `memset` leaves. -/
structure DfcFile where
  appIndex : ℕ := 0
  dataOffset : ℕ := 0
  dataLen : ℕ := 0
  accessRights : UInt16 := 0
  isoFileId : UInt16 := 0
  number : UInt8 := 0
  type : UInt8 := 0
  commSettings : UInt8 := 0
  hasIsoFileId : Bool := false
  contentsComplete : Bool := false
  transactionPending : Bool := false
  state : DfcFileState := {}

def dfcFileTypeIsData (type : UInt8) : Bool :=
  type == dfcFileTypeStandardData || type == dfcFileTypeBackupData

def dfcFileTypeIsRecord (type : UInt8) : Bool :=
  type == dfcFileTypeLinearRecord || type == dfcFileTypeCyclicRecord

def dfcSdmFlagIsSet (settings : DfcSdmSettings) (flag : DfcSdmFlag) : Bool :=
  settings.flags &&& flag.bit != 0

def dfcSdmFlagSet (settings : DfcSdmSettings) (flag : DfcSdmFlag) (value : Bool) :
    DfcSdmSettings :=
  if value then { settings with flags := settings.flags ||| flag.bit }
  else { settings with flags := settings.flags &&& ~~~flag.bit }

def dfcFileSdmFlagIsSet (file : DfcFile) (flag : DfcSdmFlag) : Bool :=
  file.type == dfcFileTypeStandardData && dfcSdmFlagIsSet file.state.data.sdm flag

/-- Replaces the data alternative of a file's state. -/
def DfcFile.withData (file : DfcFile) (data : DfcDataFileState) : DfcFile :=
  { file with state := { file.state with data := data } }

def DfcFile.withValue (file : DfcFile) (value : DfcValueFileState) : DfcFile :=
  { file with state := { file.state with value := value } }

def DfcFile.withRecord (file : DfcFile) (record : DfcRecordFileState) : DfcFile :=
  { file with state := { file.state with record := record } }

def DfcFile.withTransactionMac (file : DfcFile) (tmac : DfcTransactionMacFileState) : DfcFile :=
  { file with state := { file.state with transactionMac := tmac } }

def DfcFile.withComplete (file : DfcFile) (complete : Bool) : DfcFile :=
  { file with contentsComplete := complete }

def dfcFileSdmFlagSet (file : DfcFile) (flag : DfcSdmFlag) (value : Bool) : DfcFile :=
  if file.type != dfcFileTypeStandardData then file
  else file.withData { file.state.data with sdm := dfcSdmFlagSet file.state.data.sdm flag value }

/-- The tag check stands at the write boundary, so another alternative is never hit. -/
def dfcFileSetDeclaredSize (file : DfcFile) (size : ℕ) : Option DfcFile :=
  if !dfcFileTypeIsData file.type then none
  else some (file.withData { file.state.data with declaredSize := size })

def dfcFileGetDeclaredSize (file : DfcFile) : Option ℕ :=
  if !dfcFileTypeIsData file.type then none else some file.state.data.declaredSize

/-- An application record. `keyOffset` and `keyPoolLen` are its slice of the key
pool, `keySetMetadataOffset` and `keySetMetadataLen` its slice of the metadata pool.
The defaults are the record `dfc_credential_reset_application` leaves. -/
structure DfcApplication where
  keyOffset : ℕ := dfcKeyPoolNone
  keyPoolLen : ℕ := 0
  isoAidLen : ℕ := 0
  numKeys : ℕ := 0
  keyLen : ℕ := 0
  keyStorageLen : ℕ := 0
  keySetMetadataOffset : ℕ := dfcKeySetMetadataPoolNone
  keySetMetadataLen : ℕ := 0
  isoFileId : UInt16 := 0
  delegatedSlotNumber : UInt16 := 0
  delegatedQuotaLimit : UInt16 := 0
  delegatedFreeBlocks : UInt16 := 0
  delegatedSlotVersion : UInt8 := 0
  delegated : Bool := false
  delegatedFormatDisabled : Bool := false
  aid : Mem := Mem.zero
  isoAid : Mem := Mem.zero
  hasIsoFileId : Bool := false
  keySettings1 : UInt8 := 0
  keySettings2 : UInt8 := 0
  authCommand : UInt8 := 0
  hasAuthCommands : Bool := false
  authCommands : UInt8 := 0
  hasPreferredAuthCommand : Bool := false
  preferredAuthCommand : UInt8 := 0
  hasSmDisable : Bool := false
  smDisable : UInt8 := 0
  keyVersions : Mem := Mem.zero
  numKeySets : ℕ := 1
  maxKeySize : ℕ := 0
  keySetSettings : UInt8 := 0
  hasCapabilityData : Bool := false
  capabilityData : Mem := Mem.zero

/-- `dfc_credential_reset_application`. -/
def dfcCredentialResetApplication : DfcApplication := {}

structure DfcCard where
  generation : ℕ := 0
  storage : UInt32 := 0
  uidProvenance : ℕ := 0
  hasHardwareVersion : Bool := false
  hasSoftwareVersion : Bool := false
  hardwareVersion : Mem := Mem.zero
  softwareVersion : Mem := Mem.zero

/-- The whole card image. The defaults are the octets a wipe leaves, except that a
wiped application array already carries its sentinels. -/
structure DfcCredential where
  uidLen : ℕ := 0
  piccKeyOffset : ℕ := 0
  piccKeyPoolLen : ℕ := 0
  piccNumKeys : ℕ := 0
  piccKeyLen : ℕ := 0
  piccAtsLen : ℕ := 0
  virtualCardInstallationIdLen : ℕ := 0
  virtualCardUidLen : ℕ := 0
  numApps : ℕ := 0
  numFiles : ℕ := 0
  filePoolUsed : ℕ := 0
  keyPoolUsed : ℕ := 0
  apps : ℕ → DfcApplication := fun _ => {}
  files : ℕ → DfcFile := fun _ => {}
  card : DfcCard := {}
  piccProximityPublishedResponseTime : UInt16 := 0
  piccHasProximityKey : Bool := false
  piccProximityKey : Mem := Mem.zero
  piccProximityOption : UInt8 := 0
  piccHasProximityBitrate : Bool := false
  piccProximityBitrate : UInt8 := 0
  uid : Mem := Mem.zero
  piccKeySettings1 : UInt8 := 0
  piccKeySettings2 : UInt8 := 0
  piccAuthCommand : UInt8 := 0
  piccHasAuthCommands : Bool := false
  piccAuthCommands : UInt8 := 0
  piccHasPreferredAuthCommand : Bool := false
  piccPreferredAuthCommand : UInt8 := 0
  piccKeyVersions : Mem := Mem.zero
  piccRandomId : Bool := false
  piccRandomIdLegacy : Bool := false
  piccFormatDisabled : Bool := false
  piccAts : Mem := Mem.zero
  piccHasSak : Bool := false
  piccSak : UInt8 := 0
  piccHasAtqa : Bool := false
  piccAtqa : Mem := Mem.zero
  piccHasSmDisable : Bool := false
  piccSmDisable : UInt8 := 0
  piccHasEv2Capabilities : Bool := false
  piccEv2Capabilities : Mem := Mem.zero
  piccHasStaticSignature : Bool := false
  piccStaticSignature : Mem := Mem.zero
  virtualCardConfigured : Bool := false
  virtualCardInstallationId : Mem := Mem.zero
  virtualCardInformation : UInt8 := 0
  virtualCardCapabilities : Mem := Mem.zero
  virtualCardUid : Mem := Mem.zero
  virtualCardSelectMacKey : Mem := Mem.zero
  virtualCardSelectEncryptionKey : Mem := Mem.zero
  virtualCardAuthenticationMandatory : Bool := false
  virtualCardProximityMandatory : Bool := false
  piccHasDamKeys : Bool := false
  piccDamAuthKey : Mem := Mem.zero
  piccDamMacKey : Mem := Mem.zero
  piccDamEncryptionKey : Mem := Mem.zero
  filePool : Mem := Mem.zero
  keyPool : Mem := Mem.zero
  keySetMetadataPool : Mem := Mem.zero
  keySetMetadataPoolUsed : ℕ := 0
  dirty : Bool := false

namespace DfcCredential

/-- Rewrites the application at `i` in place. -/
def modifyApp (c : DfcCredential) (i : ℕ) (f : DfcApplication → DfcApplication) :
    DfcCredential :=
  { c with apps := Function.update c.apps i (f (c.apps i)) }

/-- Rewrites the file at `i` in place. -/
def modifyFile (c : DfcCredential) (i : ℕ) (f : DfcFile → DfcFile) : DfcCredential :=
  { c with files := Function.update c.files i (f (c.files i)) }

end DfcCredential

def dfcUidLengthIsValid (length : ℕ) : Bool := length == 4 || length == 7 || length == 10

def dfcIsoFileIdIsReserved (value : UInt16) : Bool :=
  value == 0x0000 || value == 0x3F00 || value == 0x3FFF || value == 0xFFFF

/-- Mode in bits 0 and 1, additional rights in bit 7, secure dynamic messaging in bit 6. -/
def dfcCommunicationSettingsIsValid (value : UInt8) : Bool :=
  value &&& ~~~(0x80 ||| 0x40 ||| 0x03) == 0

/-- One logical access-right nibble. -/
def dfcAccessNibble (accessRights : UInt16) (shift : ℕ) : ℕ := accessRights.toNat / 2 ^ shift % 16

abbrev dfcAccessFree : ℕ := 0x0E
abbrev dfcAccessDeny : ℕ := 0x0F

def accessNibbleIsValid (value keyCount : ℕ) : Bool :=
  decide (dfcAccessFree ≤ value) || decide (value < keyCount)

def dfcAccessRightsAreValid (rights : UInt16) (keyCount : ℕ) : Bool :=
  [0, 4, 8, 12].all fun shift => accessNibbleIsValid (dfcAccessNibble rights shift) keyCount

def dfcTransactionMacAccessRightsAreValid (rights : UInt16) (keyCount : ℕ) : Bool :=
  dfcAccessRightsAreValid rights keyCount && dfcAccessNibble rights 8 == dfcAccessDeny

def dfcSdmAccessRightsAreValid (rights : UInt16) (keyCount : ℕ) : Bool :=
  accessNibbleIsValid (dfcAccessNibble rights 12) keyCount &&
  accessNibbleIsValid (dfcAccessNibble rights 8) keyCount &&
  dfcAccessNibble rights 4 == dfcAccessDeny &&
  accessNibbleIsValid (dfcAccessNibble rights 0) keyCount

def dfcTransactionMacKeyTypeIsValid (value : UInt8) : Bool := value == 0x02

/-- 16 or 24 for a valid key-set type, and zero for an invalid one. -/
def dfcKeySetTypeLength (type : UInt8) : ℕ :=
  if type == dfcKeySetType3k3des then dfcKeySetMaximum24Byte
  else if type == dfcKeySetType2k3des || type == dfcKeySetTypeAes then dfcKeySetMaximum16Byte
  else 0

def dfcKeyTypeForSetType (type : UInt8) : UInt8 :=
  if type == dfcKeySetType3k3des then dfcKeyType3k3des
  else if type == dfcKeySetTypeAes then dfcKeyTypeAes
  else dfcKeyTypeDes2k3des

/-- Per-key octets selected by the crypto-type bits of Key Settings 2. -/
def dfcCredentialKeyLength (keySettings2 : UInt8) : ℕ :=
  if keySettings2 &&& dfcKeyTypeMask == dfcKeyType3k3des then 24 else 16

/-- Octets a key occupies in the pool: a slot is always 16 or 24 wide. -/
def dfcCredentialStoredKeyLength (keyLen : ℕ) : ℕ := if keyLen = 24 then 24 else 16

theorem storedKeyLength_pos (n : ℕ) : 0 < dfcCredentialStoredKeyLength n := by
  unfold dfcCredentialStoredKeyLength
  split_ifs <;> omega

/-- Every command family is compiled in. -/
def dfcCredentialCompiledAuthCommands : UInt8 :=
  dfcAuthCommandD40 ||| dfcAuthCommandIsoNative ||| dfcAuthCommandAes |||
    (dfcAuthCommandEv2First ||| dfcAuthCommandEv2NonFirst) ||| dfcAuthCommandIso7816

def dfcCredentialPossibleAuthCommands (keySettings2 : UInt8) (generation : ℕ) : UInt8 :=
  if keySettings2 &&& dfcKeyTypeMask == dfcKeyTypeAes then
    dfcAuthCommandAes |||
      (if dfcGenerationEv2 ≤ generation then dfcAuthCommandEv2First ||| dfcAuthCommandEv2NonFirst
       else 0)
  else if keySettings2 &&& dfcKeyTypeMask == dfcKeyType3k3des then dfcAuthCommandIsoNative
  else dfcAuthCommandD40 ||| dfcAuthCommandIsoNative

def dfcCredentialDefaultAuthCommands (keySettings2 : UInt8) (generation : ℕ) : UInt8 :=
  dfcCredentialPossibleAuthCommands keySettings2 generation &&& dfcCredentialCompiledAuthCommands

def dfcCredentialPiccAuthCommands (c : DfcCredential) : UInt8 :=
  if c.piccHasAuthCommands then c.piccAuthCommands
  else dfcCredentialDefaultAuthCommands c.piccKeySettings2 c.card.generation

def dfcCredentialAppAuthCommands (c : DfcCredential) (app : DfcApplication) : UInt8 :=
  if app.hasAuthCommands then app.authCommands
  else dfcCredentialDefaultAuthCommands app.keySettings2 c.card.generation

end DfcCore
