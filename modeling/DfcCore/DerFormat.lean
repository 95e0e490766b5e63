import DfcCore.Image
import DfcCore.DerReader

/-!
# The binary format

The identifiers of the `.dfcb` format and the octets that describe an image: for every
SEQUENCE its components in declaration order, with the bodies of those that are there.
-/
namespace DfcCore
open Der

namespace Tag

abbrev credential : UInt8 := 0x60
abbrev sequence : UInt8 := 0x30
abbrev octets : UInt8 := 0x04

abbrev credVersion : UInt8 := 0x80
abbrev credCard : UInt8 := 0xA1
abbrev credPicc : UInt8 := 0xA2
abbrev credApps : UInt8 := 0xA3

abbrev cardGeneration : UInt8 := 0x80
abbrev cardStorage : UInt8 := 0x81
abbrev cardUid : UInt8 := 0x82
abbrev cardProvenance : UInt8 := 0x83
abbrev cardSignature : UInt8 := 0x84
abbrev cardHardwareVersion : UInt8 := 0x85
abbrev cardSoftwareVersion : UInt8 := 0x86

abbrev piccKs1 : UInt8 := 0x80
abbrev piccKs2 : UInt8 := 0x81
abbrev piccAuth : UInt8 := 0x82
abbrev piccRandomId : UInt8 := 0x83
abbrev piccFormatDis : UInt8 := 0x84
abbrev piccAts : UInt8 := 0x85
abbrev piccSak : UInt8 := 0x86
abbrev piccAtqa : UInt8 := 0x87
abbrev piccSmDisable : UInt8 := 0x88
abbrev piccKeys : UInt8 := 0xA9
abbrev piccFiles : UInt8 := 0xAA
abbrev piccEv2Caps : UInt8 := 0x8B
abbrev piccProximity : UInt8 := 0xAC
abbrev piccVcard : UInt8 := 0xAD
abbrev piccDam : UInt8 := 0xAE
abbrev piccPreferredAuth : UInt8 := 0x8F
abbrev piccRandomIdLegacy : UInt8 := 0x90

abbrev proxKey : UInt8 := 0x80
abbrev proxOption : UInt8 := 0x81
abbrev proxPublished : UInt8 := 0x82
abbrev proxBitrate : UInt8 := 0x83

abbrev vcInstallId : UInt8 := 0x80
abbrev vcInfo : UInt8 := 0x81
abbrev vcCaps : UInt8 := 0x82
abbrev vcUid : UInt8 := 0x83
abbrev vcMacKey : UInt8 := 0x84
abbrev vcEncKey : UInt8 := 0x85
abbrev vcAuthReq : UInt8 := 0x86
abbrev vcProxReq : UInt8 := 0x87

abbrev damAuth : UInt8 := 0x80
abbrev damMac : UInt8 := 0x81
abbrev damEnc : UInt8 := 0x82

abbrev appAid : UInt8 := 0x80
abbrev appIsoFid : UInt8 := 0x81
abbrev appDfName : UInt8 := 0x82
abbrev appKs1 : UInt8 := 0x83
abbrev appKs2 : UInt8 := 0x84
abbrev appAuth : UInt8 := 0x85
abbrev appKeys : UInt8 := 0xA6
abbrev appFiles : UInt8 := 0xA7
abbrev appKeySets : UInt8 := 0xA8
abbrev appCapability : UInt8 := 0x89
abbrev appDelegated : UInt8 := 0xAA
abbrev appSmDisable : UInt8 := 0x8B
abbrev appPreferredAuth : UInt8 := 0x8C

abbrev ksKeyCount : UInt8 := 0x80
abbrev ksMaxSize : UInt8 := 0x81
abbrev ksSettings : UInt8 := 0x82
abbrev ksSets : UInt8 := 0xA3

abbrev setNumber : UInt8 := 0x80
abbrev setVersion : UInt8 := 0x81
abbrev setType : UInt8 := 0x82
abbrev setInitialized : UInt8 := 0x83
abbrev setKeys : UInt8 := 0xA4

abbrev delSlot : UInt8 := 0x80
abbrev delVersion : UInt8 := 0x81
abbrev delQuota : UInt8 := 0x82
abbrev delFree : UInt8 := 0x83
abbrev delFormatDisabled : UInt8 := 0x84

abbrev keySlot : UInt8 := 0x80
abbrev keyValue : UInt8 := 0x81
abbrev keyVersion : UInt8 := 0x82

abbrev fileNumber : UInt8 := 0x80
abbrev fileType : UInt8 := 0x81
abbrev fileComm : UInt8 := 0x82
abbrev fileRights : UInt8 := 0x83
abbrev fileIsoFid : UInt8 := 0x84
abbrev fileData : UInt8 := 0xA5
abbrev fileValue : UInt8 := 0xA6
abbrev fileRecord : UInt8 := 0xA7
abbrev fileTmac : UInt8 := 0xA8
abbrev fileSdm : UInt8 := 0xA9

abbrev sdmOptions : UInt8 := 0x80
abbrev sdmRights : UInt8 := 0x81
abbrev sdmUidOff : UInt8 := 0x82
abbrev sdmCounterOff : UInt8 := 0x83
abbrev sdmPiccOff : UInt8 := 0x84
abbrev sdmMacInOff : UInt8 := 0x85
abbrev sdmMacOff : UInt8 := 0x86
abbrev sdmEncOff : UInt8 := 0x87
abbrev sdmEncLen : UInt8 := 0x88
abbrev sdmLimit : UInt8 := 0x89
abbrev sdmReadCounter : UInt8 := 0x8A

abbrev dataSize : UInt8 := 0x80
abbrev dataKnown : UInt8 := 0x81
abbrev dataComplete : UInt8 := 0x82

abbrev valLower : UInt8 := 0x80
abbrev valUpper : UInt8 := 0x81
abbrev valCurrent : UInt8 := 0x82
abbrev valLimited : UInt8 := 0x83
abbrev valLimit : UInt8 := 0x84

abbrev recSize : UInt8 := 0x80
abbrev recMax : UInt8 := 0x81
abbrev recCurrent : UInt8 := 0x82
abbrev recComplete : UInt8 := 0x83
abbrev recRecords : UInt8 := 0xA4

abbrev tmacCounter : UInt8 := 0x80
abbrev tmacValue : UInt8 := 0x81
abbrev tmacKeyType : UInt8 := 0x82
abbrev tmacKeyVersion : UInt8 := 0x83
abbrev tmacKey : UInt8 := 0x84
abbrev tmacReaderId : UInt8 := 0x85

end Tag

abbrev dfcFormatVersion : ℕ := 6
abbrev dfcMinReadFormatVersion : ℕ := 4
abbrev dfcDerMaxSize : ℕ := 65535

/-- Components of a SEQUENCE in declaration order. -/
abbrev Components := List (UInt8 × Option Slice)

/-- Two octets, high one first. -/
def u16Octets (v : UInt16) : Slice := [(v >>> 8).toUInt8, v.toUInt8]

/-- An integer component. -/
def intField (v : ℤ) : Option Slice := some (encInt v)

def octetField (b : UInt8) : Option Slice := some [b]

def boolField (b : Bool) : Option Slice := some (encBool b)

/-- A DEFAULT FALSE component. -/
def defaultFalseField (b : Bool) : Option Slice := if b then some (encBool true) else none

/-- A component that is left out when it would be empty. -/
def nonemptyField (bs : Slice) : Option Slice := if bs = [] then none else some bs

/-- A TLV of a list. -/
def sequenceItem (components : Components) : Tlv := ⟨Tag.sequence, encFields components⟩

def keyComponents (slot : ℕ) (k : KeyImage) : Components :=
  [(Tag.keySlot, intField slot), (Tag.keyValue, some k.value),
    (Tag.keyVersion, octetField k.version)]

/-- The keys of a list, numbered from `n`. -/
def keyItems (n : ℕ) : List KeyImage → List Tlv
  | [] => []
  | k :: keys => sequenceItem (keyComponents n k) :: keyItems (n + 1) keys

def encKeys (keys : List KeyImage) : Slice := encItems (keyItems 0 keys)

def keySetComponents (n : ℕ) (s : KeySetImage) : Components :=
  [(Tag.setNumber, intField n), (Tag.setVersion, octetField s.version),
    (Tag.setType, intField s.type.toNat), (Tag.setInitialized, boolField s.initialized),
    (Tag.setKeys, some (encKeys s.keys))]

/-- The key sets of a list, numbered from `n`. -/
def keySetItems (n : ℕ) : List KeySetImage → List Tlv
  | [] => []
  | s :: sets => sequenceItem (keySetComponents n s) :: keySetItems (n + 1) sets

def keySetsComponents (keyCount maxKeySize : ℕ) (settings : UInt8) (sets : List KeySetImage) :
    Components :=
  [(Tag.ksKeyCount, intField keyCount), (Tag.ksMaxSize, intField maxKeySize),
    (Tag.ksSettings, octetField settings), (Tag.ksSets, some (encItems (keySetItems 0 sets)))]

def delegatedComponents (d : DelegatedImage) : Components :=
  [(Tag.delSlot, intField d.slotNumber.toNat), (Tag.delVersion, octetField d.slotVersion),
    (Tag.delQuota, intField d.quotaLimit.toNat), (Tag.delFree, intField d.freeBlocks.toNat),
    (Tag.delFormatDisabled, defaultFalseField d.formatDisabled)]

def offsetField (v : Option UInt32) : Option Slice := v.map fun v => encInt v.toNat

def sdmComponents (s : SdmImage) : Components :=
  [(Tag.sdmOptions, octetField s.options), (Tag.sdmRights, some (u16Octets s.accessRights)),
    (Tag.sdmUidOff, offsetField s.uidOffset), (Tag.sdmCounterOff, offsetField s.counterOffset),
    (Tag.sdmPiccOff, offsetField s.piccDataOffset),
    (Tag.sdmMacInOff, offsetField s.macInputOffset), (Tag.sdmMacOff, offsetField s.macOffset),
    (Tag.sdmEncOff, offsetField (s.encryptedFile.map Prod.fst)),
    (Tag.sdmEncLen, offsetField (s.encryptedFile.map Prod.snd)),
    (Tag.sdmLimit, offsetField s.counterLimit),
    (Tag.sdmReadCounter, intField s.readCounter.toNat)]

/-- The records of a file. -/
def recordItems (records : List Slice) : List Tlv := records.map fun r => ⟨Tag.octets, r⟩

/-- The components of the contents; which identifier they stand under depends on the kind. -/
def contentsComponents : ContentsImage → Components
  | .data size known complete =>
    [(Tag.dataSize, intField size), (Tag.dataKnown, nonemptyField known),
      (Tag.dataComplete, boolField complete)]
  | .value lower upper current limited limit =>
    [(Tag.valLower, intField lower.toInt), (Tag.valUpper, intField upper.toInt),
      (Tag.valCurrent, intField current.toInt), (Tag.valLimited, octetField limited),
      (Tag.valLimit, limit.map fun v => encInt v.toInt)]
  | .record size maxRecords count complete records =>
    [(Tag.recSize, intField size), (Tag.recMax, intField maxRecords),
      (Tag.recCurrent, intField count), (Tag.recComplete, boolField complete),
      (Tag.recRecords, some (encItems (recordItems records)))]
  | .transactionMac counter mac keyType keyVersion key readerId =>
    [(Tag.tmacCounter, intField counter.toNat), (Tag.tmacValue, some mac),
      (Tag.tmacKeyType, octetField keyType), (Tag.tmacKeyVersion, octetField keyVersion),
      (Tag.tmacKey, some key), (Tag.tmacReaderId, some readerId)]

/-- The identifier the contents of a kind stand under. -/
def ContentsImage.tag : ContentsImage → UInt8
  | .data _ _ _ => Tag.fileData
  | .value _ _ _ _ _ => Tag.fileValue
  | .record _ _ _ _ _ => Tag.fileRecord
  | .transactionMac _ _ _ _ _ _ => Tag.fileTmac

/-- The octets of the contents if they are of the kind that stands under `tag`. -/
def contentsField (tag : UInt8) (contents : ContentsImage) : Option Slice :=
  if contents.tag = tag then some (encFields (contentsComponents contents)) else none

/-- The four alternatives of the contents, of which one is there. -/
def contentsAlternatives (x : ContentsImage) : Components :=
  [(Tag.fileData, contentsField Tag.fileData x), (Tag.fileValue, contentsField Tag.fileValue x),
    (Tag.fileRecord, contentsField Tag.fileRecord x), (Tag.fileTmac, contentsField Tag.fileTmac x)]

theorem encFields_contentsAlternatives (x : ContentsImage) :
    encFields (contentsAlternatives x) = encTlv x.tag (encFields (contentsComponents x)) := by
  have hdv : Tag.fileData ≠ Tag.fileValue := by decide
  have hdr : Tag.fileData ≠ Tag.fileRecord := by decide
  have hdt : Tag.fileData ≠ Tag.fileTmac := by decide
  have hvr : Tag.fileValue ≠ Tag.fileRecord := by decide
  have hvt : Tag.fileValue ≠ Tag.fileTmac := by decide
  have hrt : Tag.fileRecord ≠ Tag.fileTmac := by decide
  cases x <;>
    simp [contentsAlternatives, contentsField, encFields, ContentsImage.tag, optTlv, hdv, hdr, hdt,
      hvr, hvt, hrt, hdv.symm, hdr.symm, hdt.symm, hvr.symm, hvt.symm, hrt.symm]

def fileComponents (f : FileImage) : Components :=
  [(Tag.fileNumber, intField f.number.toNat), (Tag.fileType, intField f.type.toNat),
    (Tag.fileComm, octetField f.commSettings), (Tag.fileRights, some (u16Octets f.accessRights)),
    (Tag.fileIsoFid, f.isoFileId.map u16Octets)] ++ contentsAlternatives f.contents ++
  [(Tag.fileSdm, f.sdm.map fun s => encFields (sdmComponents s))]

def fileItems (files : List FileImage) : List Tlv :=
  files.map fun f => sequenceItem (fileComponents f)

/-- The key list of an application that keeps one. -/
def KeyStoreImage.listField : KeyStoreImage → Option Slice
  | .list keys => some (encKeys keys)
  | .sets _ _ _ _ => none

/-- The key sets of an application that keeps them. -/
def KeyStoreImage.setsField : KeyStoreImage → Option Slice
  | .list _ => none
  | .sets keyCount maxKeySize settings keySets =>
    some (encFields (keySetsComponents keyCount maxKeySize settings keySets))

def appComponents (a : AppImage) : Components :=
  [(Tag.appAid, some a.aid), (Tag.appIsoFid, a.isoFileId.map u16Octets),
    (Tag.appDfName, nonemptyField a.dfName), (Tag.appKs1, octetField a.keySettings1),
    (Tag.appKs2, octetField a.keySettings2), (Tag.appAuth, intField a.authCommands.toNat),
    (Tag.appKeys, a.keys.listField), (Tag.appFiles, some (encItems (fileItems a.files))),
    (Tag.appKeySets, a.keys.setsField), (Tag.appCapability, a.capabilityData),
    (Tag.appDelegated, a.delegated.map fun d => encFields (delegatedComponents d)),
    (Tag.appSmDisable, a.smDisable.map fun b => [b]),
    (Tag.appPreferredAuth, a.preferredAuthCommand.map fun b => encInt b.toNat)]

def cardComponents (c : CardImage) : Components :=
  [(Tag.cardGeneration, intField c.generation), (Tag.cardStorage, intField c.storage.toNat),
    (Tag.cardUid, some c.uid), (Tag.cardProvenance, intField c.uidProvenance),
    (Tag.cardSignature, c.staticSignature), (Tag.cardHardwareVersion, c.hardwareVersion),
    (Tag.cardSoftwareVersion, c.softwareVersion)]

def proximityComponents (p : ProximityImage) : Components :=
  [(Tag.proxKey, some p.key), (Tag.proxOption, octetField p.option),
    (Tag.proxPublished, intField p.publishedResponseTime.toNat),
    (Tag.proxBitrate, p.bitrate.map fun b => [b])]

def virtualCardComponents (v : VirtualCardImage) : Components :=
  [(Tag.vcInstallId, some v.installationId), (Tag.vcInfo, octetField v.information),
    (Tag.vcCaps, some v.capabilities), (Tag.vcUid, some v.uid),
    (Tag.vcMacKey, some v.selectMacKey), (Tag.vcEncKey, some v.selectEncryptionKey),
    (Tag.vcAuthReq, boolField v.authenticationMandatory),
    (Tag.vcProxReq, boolField v.proximityMandatory)]

def damComponents (d : DamImage) : Components :=
  [(Tag.damAuth, some d.authKey), (Tag.damMac, some d.macKey), (Tag.damEnc, some d.encryptionKey)]

def piccComponents (p : PiccImage) : Components :=
  [(Tag.piccKs1, octetField p.keySettings1), (Tag.piccKs2, octetField p.keySettings2),
    (Tag.piccAuth, intField p.authCommands.toNat), (Tag.piccRandomId, defaultFalseField p.randomId),
    (Tag.piccFormatDis, defaultFalseField p.formatDisabled), (Tag.piccAts, nonemptyField p.ats),
    (Tag.piccSak, p.sak.map fun b => [b]), (Tag.piccAtqa, p.atqa),
    (Tag.piccSmDisable, p.smDisable.map fun b => [b]), (Tag.piccKeys, some (encKeys p.keys)),
    (Tag.piccFiles, some (encItems (fileItems p.files))), (Tag.piccEv2Caps, p.ev2Capabilities),
    (Tag.piccProximity, p.proximity.map fun x => encFields (proximityComponents x)),
    (Tag.piccVcard, p.virtualCard.map fun v => encFields (virtualCardComponents v)),
    (Tag.piccDam, p.dam.map fun d => encFields (damComponents d)),
    (Tag.piccPreferredAuth, p.preferredAuthCommand.map fun b => encInt b.toNat),
    (Tag.piccRandomIdLegacy, defaultFalseField p.randomIdLegacy)]

def appItems (apps : List AppImage) : List Tlv := apps.map fun a => sequenceItem (appComponents a)

def imageComponents (version : ℕ) (i : Image) : Components :=
  [(Tag.credVersion, intField version),
    (Tag.credCard, some (encFields (cardComponents i.card))),
    (Tag.credPicc, some (encFields (piccComponents i.picc))),
    (Tag.credApps, some (encItems (appItems i.apps)))]

/-- The octets of an image under a format version. -/
def encImage (version : ℕ) (i : Image) : Slice :=
  encTlv Tag.credential (encFields (imageComponents version i))

end DfcCore
