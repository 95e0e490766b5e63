import DfcCore.Credential
import DfcCore.LittleEndian

/-!
# The reader's command encoders

The functions of `dfc_command.c` that build the commands of the application and file
life cycle. Each fills a native frame: an instruction and the data that follows it. A
pointer that may be `NULL` is an optional value, and the pointers that must not be are
the values themselves.
-/
namespace DfcCore

abbrev dfcCommandMaxData : ℕ := 255
abbrev dfcCommandDfNameMaxLength : ℕ := 16
abbrev dfcCommandUint24Max : ℕ := 0xFFFFFF
abbrev dfcCommandMaxFileNumber : ℕ := 31

abbrev dfcCmdSelectApplication : UInt8 := 0x5A
abbrev dfcCmdGetApplicationIds : UInt8 := 0x6A
abbrev dfcCmdCreateApplication : UInt8 := 0xCA
abbrev dfcCmdDeleteApplication : UInt8 := 0xDA
abbrev dfcCmdFormatPicc : UInt8 := 0xFC
abbrev dfcCmdGetFileSettings : UInt8 := 0xF5
abbrev dfcCmdCreateStdDataFile : UInt8 := 0xCD
abbrev dfcCmdCreateBackupDataFile : UInt8 := 0xCB
abbrev dfcCmdCreateLinearRecordFile : UInt8 := 0xC1
abbrev dfcCmdCreateCyclicRecordFile : UInt8 := 0xC0
abbrev dfcCmdCreateValueFile : UInt8 := 0xCC

abbrev dfcKs2IsoFileIds : UInt8 := 0x20
abbrev dfcKs2ExtendedSettings : UInt8 := 0x10
abbrev dfcExtendedSettingsKeySets : UInt8 := 0x01

abbrev dfcCommPlain : UInt8 := 0x00
abbrev dfcCommMac : UInt8 := 0x01
abbrev dfcCommEnciphered : UInt8 := 0x03

/-- Why an encoder refuses. -/
inductive DfcCommandError where
  | invalid | tooLong
  deriving Repr, DecidableEq

structure DfcCommand where
  ins : UInt8
  data : List UInt8 := []
  deriving Repr, DecidableEq

/-- `dfc_command_to_frame`, into a buffer that holds the frame. -/
def dfcCommandToFrame (command : DfcCommand) : List UInt8 := command.ins :: command.data

/-- An append-only view over a command's data field. An overflow is sticky, so that one
check at the end covers a whole encoding. -/
structure Builder where
  command : DfcCommand
  overflow : Bool := false

namespace Builder

def start (ins : UInt8) : Builder := { command := { ins := ins } }

def put (b : Builder) (bytes : List UInt8) : Builder :=
  if b.overflow ∨ dfcCommandMaxData - b.command.data.length < bytes.length then
    { b with overflow := true }
  else { b with command := { b.command with data := b.command.data ++ bytes } }

def putByte (b : Builder) (value : UInt8) : Builder := b.put [value]

def putU16 (b : Builder) (value : UInt16) : Builder := b.put (leOctets 2 value.toNat)

def putU24 (b : Builder) (value : ℕ) : Builder := b.put (leOctets 3 value)

def putI32 (b : Builder) (value : Int32) : Builder := b.put (leOctets 4 value.toUInt32.toNat)

/-- Appends an optional part when it is there. -/
def putOption {α : Type} (b : Builder) (part : Option α) (f : Builder → α → Builder) : Builder :=
  match part with
  | some a => f b a
  | none => b

def finish (b : Builder) : Except DfcCommandError DfcCommand :=
  if b.overflow then .error .tooLong else .ok b.command

/-- What a builder has gathered when nothing overflowed. -/
structure Holds (b : Builder) (ins : UInt8) (data : List UInt8) : Prop where
  ins : b.command.ins = ins
  data : b.overflow = false → b.command.data = data
  length : b.command.data.length ≤ dfcCommandMaxData

theorem holds_start (ins : UInt8) : (start ins).Holds ins [] := ⟨rfl, fun _ => rfl, by simp [start]⟩

theorem Holds.put {b : Builder} {ins : UInt8} {data : List UInt8} (h : b.Holds ins data)
    (bytes : List UInt8) : (b.put bytes).Holds ins (data ++ bytes) := by
  unfold Builder.put
  by_cases hfull : b.overflow = true ∨ dfcCommandMaxData - b.command.data.length < bytes.length
  · rw [if_pos hfull]
    exact ⟨h.ins, fun hno => by simp at hno, h.length⟩
  · rw [if_neg hfull]
    have hlen := h.length
    push Not at hfull
    refine ⟨h.ins, fun hno => by rw [← h.data hno], ?_⟩
    simp only [List.length_append]
    omega

theorem Holds.putByte {b : Builder} {ins : UInt8} {data : List UInt8} (h : b.Holds ins data)
    (value : UInt8) : (b.putByte value).Holds ins (data ++ [value]) := h.put [value]

theorem Holds.putU16 {b : Builder} {ins : UInt8} {data : List UInt8} (h : b.Holds ins data)
    (value : UInt16) : (b.putU16 value).Holds ins (data ++ leOctets 2 value.toNat) := h.put _

theorem Holds.putOption {α : Type} {b : Builder} {ins : UInt8} {data : List UInt8}
    (h : b.Holds ins data) (part : Option α) {f : Builder → α → Builder} {g : α → List UInt8}
    (hf : ∀ a, (f b a).Holds ins (data ++ g a)) :
    (b.putOption part f).Holds ins (data ++ part.elim [] g) := by
  cases part with
  | none => simpa [Builder.putOption] using h
  | some a => exact hf a

theorem Holds.finish {b : Builder} {ins : UInt8} {data : List UInt8} (h : b.Holds ins data)
    {command : DfcCommand} (hc : b.finish = .ok command) :
    command = { ins := ins, data := data } ∧ data.length ≤ dfcCommandMaxData := by
  unfold Builder.finish at hc
  by_cases hov : b.overflow = true
  · rw [if_pos hov] at hc
    cases hc
  · rw [if_neg hov] at hc
    obtain rfl : b.command = command := Except.ok.inj hc
    have hdata := h.data (by simpa using hov)
    refine ⟨?_, by rw [← hdata]; exact h.length⟩
    rw [← h.ins, ← hdata]

end Builder

/-- An application identifier, in the order the credential stores it. -/
structure Aid where
  first : UInt8
  middle : UInt8
  last : UInt8
  deriving Repr, DecidableEq

def Aid.octets (aid : Aid) : List UInt8 := [aid.first, aid.middle, aid.last]

def dfcCommandSelectApplication (aid : Aid) (secondaryAid : Option Aid) :
    Except DfcCommandError DfcCommand :=
  let b := (Builder.start dfcCmdSelectApplication).put [aid.last, aid.middle, aid.first]
  (b.putOption secondaryAid fun b aid => b.put [aid.last, aid.middle, aid.first]).finish

def dfcCommandGetApplicationIds : Except DfcCommandError DfcCommand :=
  (Builder.start dfcCmdGetApplicationIds).finish

structure DfcCommandCreateApplication where
  aid : Aid
  keySettings1 : UInt8
  keySettings2 : UInt8
  isoFileId : Option UInt16 := none
  dfName : Option (List UInt8) := none
  extendedSettings : Option UInt8 := none
  hasKeySets : Bool := false
  keySetVersion : UInt8 := 0
  keySetCount : UInt8 := 0
  keySetMaxKeySize : UInt8 := 0
  keySetRollKeyNo : UInt8 := 0
  deriving Repr, DecidableEq

def createApplicationIsValid (app : DfcCommandCreateApplication) : Bool :=
  (app.dfName.isNone || app.isoFileId.isSome) &&
  (!app.isoFileId.any dfcIsoFileIdIsReserved) &&
  (app.dfName.all fun name =>
    decide (1 ≤ name.length) && decide (name.length ≤ dfcCommandDfNameMaxLength)) &&
  match app.extendedSettings with
  | none => !app.hasKeySets
  | some settings =>
    decide (settings ≤ 0x1F) &&
    ((settings &&& dfcExtendedSettingsKeySets != 0) == app.hasKeySets) &&
    (!app.hasKeySets ||
      (decide (0x02 ≤ app.keySetCount) && decide (app.keySetCount ≤ 0x10) &&
        decide (app.keySetRollKeyNo ≤ 0x0D) &&
        (app.keySetMaxKeySize == 0x10 || app.keySetMaxKeySize == 0x18)))

/-- Key Settings 2 as sent, with the flags of the optional parts. -/
def DfcCommandCreateApplication.ks2 (app : DfcCommandCreateApplication) : UInt8 :=
  let ks2 := if app.isoFileId.isSome then app.keySettings2 ||| dfcKs2IsoFileIds
    else app.keySettings2
  if app.extendedSettings.isSome then ks2 ||| dfcKs2ExtendedSettings else ks2

/-- The extended settings octet and, where flagged, the key-set parameters. -/
def putExtendedSettings (app : DfcCommandCreateApplication) (b : Builder) (settings : UInt8) :
    Builder :=
  let b := b.putByte settings
  if app.hasKeySets then
    (((b.putByte app.keySetVersion).putByte app.keySetCount).putByte
      app.keySetMaxKeySize).putByte app.keySetRollKeyNo
  else b

def dfcCommandCreateApplication (app : DfcCommandCreateApplication) :
    Except DfcCommandError DfcCommand :=
  if createApplicationIsValid app = false then .error .invalid
  else
    let b := (Builder.start dfcCmdCreateApplication).put app.aid.octets
    let b := (b.putByte app.keySettings1).putByte app.ks2
    let b := b.putOption app.extendedSettings (putExtendedSettings app)
    let b := b.putOption app.isoFileId Builder.putU16
    (b.putOption app.dfName Builder.put).finish

def dfcCommandDeleteApplication (aid : Aid) : Except DfcCommandError DfcCommand :=
  ((Builder.start dfcCmdDeleteApplication).put aid.octets).finish

def validFileNumber (fileNo : UInt8) : Bool := decide (fileNo.toNat ≤ dfcCommandMaxFileNumber)

/-- What the three kinds of file have in common. -/
structure DfcCommandFileHead where
  fileNo : UInt8
  isoFileId : Option UInt16 := none
  commSettings : UInt8
  accessRights : UInt16
  deriving Repr, DecidableEq

def putFileHead (b : Builder) (head : DfcCommandFileHead) : Builder :=
  let b := b.putByte head.fileNo
  let b := b.putOption head.isoFileId Builder.putU16
  (b.putByte head.commSettings).putU16 head.accessRights

structure DfcCommandDataFile extends DfcCommandFileHead where
  size : ℕ
  deriving Repr, DecidableEq

def dataFile (ins : UInt8) (file : DfcCommandDataFile) : Except DfcCommandError DfcCommand :=
  if validFileNumber file.fileNo = false ∨ dfcCommandUint24Max < file.size then .error .invalid
  else if file.isoFileId.any dfcIsoFileIdIsReserved then .error .invalid
  else ((putFileHead (.start ins) file.toDfcCommandFileHead).putU24 file.size).finish

def dfcCommandCreateStandardDataFile : DfcCommandDataFile → Except DfcCommandError DfcCommand :=
  dataFile dfcCmdCreateStdDataFile

def dfcCommandCreateBackupDataFile : DfcCommandDataFile → Except DfcCommandError DfcCommand :=
  dataFile dfcCmdCreateBackupDataFile

structure DfcCommandRecordFile extends DfcCommandFileHead where
  recordSize : ℕ
  maxRecords : ℕ
  cyclic : Bool
  deriving Repr, DecidableEq

def DfcCommandRecordFile.ins (file : DfcCommandRecordFile) : UInt8 :=
  if file.cyclic then dfcCmdCreateCyclicRecordFile else dfcCmdCreateLinearRecordFile

def dfcCommandCreateRecordFile (file : DfcCommandRecordFile) :
    Except DfcCommandError DfcCommand :=
  if validFileNumber file.fileNo = false then .error .invalid
  else if file.recordSize = 0 ∨ dfcCommandUint24Max < file.recordSize then .error .invalid
  else if file.maxRecords = 0 ∨ dfcCommandUint24Max < file.maxRecords then .error .invalid
  else if file.isoFileId.any dfcIsoFileIdIsReserved then .error .invalid
  else
    (((putFileHead (.start file.ins) file.toDfcCommandFileHead).putU24 file.recordSize).putU24
      file.maxRecords).finish

/-- A value file carries no ISO identifier. -/
structure DfcCommandValueFile where
  fileNo : UInt8
  commSettings : UInt8
  accessRights : UInt16
  lowerLimit : Int32
  upperLimit : Int32
  value : Int32
  limitedCredit : UInt8
  deriving Repr, DecidableEq

def DfcCommandValueFile.head (file : DfcCommandValueFile) : DfcCommandFileHead :=
  { fileNo := file.fileNo, commSettings := file.commSettings, accessRights := file.accessRights }

def dfcCommandCreateValueFile (file : DfcCommandValueFile) : Except DfcCommandError DfcCommand :=
  if validFileNumber file.fileNo = false then .error .invalid
  else if file.upperLimit.toInt < file.lowerLimit.toInt ∨ file.value.toInt < file.lowerLimit.toInt ∨
      file.upperLimit.toInt < file.value.toInt then .error .invalid
  else
    ((((putFileHead (.start dfcCmdCreateValueFile) file.head).putI32 file.lowerLimit).putI32
      file.upperLimit).putI32 file.value |>.putByte file.limitedCredit).finish

def dfcCommandGetFileSettings (fileNo : UInt8) : Except DfcCommandError DfcCommand :=
  if validFileNumber fileNo = false then .error .invalid
  else ((Builder.start dfcCmdGetFileSettings).putByte fileNo).finish

/-- The octets of a file head on the wire. -/
def DfcCommandFileHead.octets (head : DfcCommandFileHead) : List UInt8 :=
  head.fileNo :: ((head.isoFileId.elim [] fun id => leOctets 2 id.toNat) ++
    head.commSettings :: leOctets 2 head.accessRights.toNat)

theorem holds_putFileHead (ins : UInt8) (head : DfcCommandFileHead) :
    (putFileHead (.start ins) head).Holds ins head.octets := by
  have hno := (Builder.holds_start ins).putByte head.fileNo
  have hid := hno.putOption (f := Builder.putU16) head.isoFileId hno.putU16
  have hall := (hid.putByte head.commSettings).putU16 head.accessRights
  unfold putFileHead
  simpa [DfcCommandFileHead.octets] using hall

theorem dataFile_eq_ok {ins : UInt8} {file : DfcCommandDataFile} {command : DfcCommand}
    (h : dataFile ins file = .ok command) :
    command = { ins := ins, data := file.toDfcCommandFileHead.octets ++ leOctets 3 file.size } ∧
      file.fileNo.toNat ≤ dfcCommandMaxFileNumber ∧ file.size ≤ dfcCommandUint24Max := by
  unfold dataFile at h
  split_ifs at h with h₁ h₂
  push Not at h₁
  have hheld := (holds_putFileHead ins file.toDfcCommandFileHead).put (leOctets 3 file.size)
  refine ⟨(hheld.finish h).1, ?_, h₁.2⟩
  simpa [validFileNumber] using h₁.1

theorem createRecordFile_eq_ok {file : DfcCommandRecordFile} {command : DfcCommand}
    (h : dfcCommandCreateRecordFile file = .ok command) :
    command =
        { ins := file.ins
          data := file.toDfcCommandFileHead.octets ++ leOctets 3 file.recordSize ++
            leOctets 3 file.maxRecords } ∧
      file.fileNo.toNat ≤ dfcCommandMaxFileNumber ∧ file.recordSize ≤ dfcCommandUint24Max ∧
      file.maxRecords ≤ dfcCommandUint24Max := by
  unfold dfcCommandCreateRecordFile at h
  split_ifs at h with h₁ h₂ h₃ h₄
  push Not at h₂ h₃
  have hheld := ((holds_putFileHead file.ins file.toDfcCommandFileHead).put
    (leOctets 3 file.recordSize)).put (leOctets 3 file.maxRecords)
  refine ⟨(hheld.finish h).1, ?_, h₂.2, h₃.2⟩
  simpa [validFileNumber] using h₁

theorem createValueFile_eq_ok {file : DfcCommandValueFile} {command : DfcCommand}
    (h : dfcCommandCreateValueFile file = .ok command) :
    command =
        { ins := dfcCmdCreateValueFile
          data := file.head.octets ++ leOctets 4 file.lowerLimit.toUInt32.toNat ++
            leOctets 4 file.upperLimit.toUInt32.toNat ++ leOctets 4 file.value.toUInt32.toNat ++
            [file.limitedCredit] } ∧
      file.fileNo.toNat ≤ dfcCommandMaxFileNumber := by
  unfold dfcCommandCreateValueFile at h
  split_ifs at h with h₁ h₂
  have hheld := ((((holds_putFileHead dfcCmdCreateValueFile file.head).put
    (leOctets 4 file.lowerLimit.toUInt32.toNat)).put
    (leOctets 4 file.upperLimit.toUInt32.toNat)).put
    (leOctets 4 file.value.toUInt32.toNat)).put [file.limitedCredit]
  refine ⟨(hheld.finish h).1, ?_⟩
  simpa [validFileNumber] using h₁

/-- The extended settings on the wire. -/
def DfcCommandCreateApplication.extended (app : DfcCommandCreateApplication) (settings : UInt8) :
    List UInt8 :=
  settings :: if app.hasKeySets then
    [app.keySetVersion, app.keySetCount, app.keySetMaxKeySize, app.keySetRollKeyNo] else []

theorem holds_putExtendedSettings (app : DfcCommandCreateApplication) {b : Builder} {ins : UInt8}
    {data : List UInt8} (h : b.Holds ins data) (settings : UInt8) :
    (putExtendedSettings app b settings).Holds ins (data ++ app.extended settings) := by
  have hsettings := h.putByte settings
  unfold putExtendedSettings DfcCommandCreateApplication.extended
  by_cases hsets : app.hasKeySets = true
  · have hall := (((hsettings.putByte app.keySetVersion).putByte app.keySetCount).putByte
      app.keySetMaxKeySize).putByte app.keySetRollKeyNo
    simpa [hsets] using hall
  · simpa [hsets] using hsettings

/-- The optional parts of a CreateApplication command. -/
def DfcCommandCreateApplication.options (app : DfcCommandCreateApplication) : List UInt8 :=
  app.extendedSettings.elim [] app.extended ++
    ((app.isoFileId.elim [] fun id => leOctets 2 id.toNat) ++ app.dfName.elim [] id)

theorem createApplication_eq_ok {app : DfcCommandCreateApplication} {command : DfcCommand}
    (h : dfcCommandCreateApplication app = .ok command) :
    command =
      { ins := dfcCmdCreateApplication
        data := app.aid.octets ++ app.keySettings1 :: app.ks2 :: app.options } := by
  unfold dfcCommandCreateApplication at h
  rw [ite_eq_iff] at h
  obtain ⟨-, h⟩ | ⟨-, h⟩ := h
  · cases h
  have hbase := (((Builder.holds_start dfcCmdCreateApplication).put app.aid.octets).put
    [app.keySettings1]).put [app.ks2]
  have hext := hbase.putOption app.extendedSettings (holds_putExtendedSettings app hbase)
  have hiso := hext.putOption (f := Builder.putU16) app.isoFileId hext.putU16
  have hname := hiso.putOption (f := Builder.put) (g := id) app.dfName hiso.put
  rw [(hname.finish h).1]
  simp [DfcCommandCreateApplication.options]

end DfcCore
