import DfcCore.SdmFlags
import DfcCore.FileAccess
import DfcCore.Validate

/-!
# Changing file settings

`apply_change_file_settings` of `dfc_emulator_commands_lifecycle.c`: the octets of
communication mode and access rights, followed for secure dynamic messaging by the options,
the access rights and those of the eight offsets that options and rights call for. The
settings replace the ones of the file as a whole, or a status refuses them.
-/
namespace DfcCore
open Der

abbrev dfcSdmFreeAccess : ℕ := 0x0E
abbrev dfcSdmDeniedAccess : ℕ := 0x0F
abbrev dfcSdmBaseSettingsLength : ℕ := 3
abbrev dfcSdmOffsetLength : ℕ := 3
abbrev dfcSdmHiddenCounterOffset : UInt32 := 0xFFFFFF

/-- The offsets of the settings, in the order the command carries them. -/
inductive DfcSdmField where
  | uidOffset | counterOffset | piccDataOffset | macInputOffset | encryptedFileOffset
  | encryptedFileLength | macOffset | counterLimit
  deriving Repr, DecidableEq

def DfcSdmField.all : List DfcSdmField :=
  [.uidOffset, .counterOffset, .piccDataOffset, .macInputOffset, .encryptedFileOffset,
    .encryptedFileLength, .macOffset, .counterLimit]

def setSdmField (sdm : DfcSdmSettings) (value : UInt32) : DfcSdmField → DfcSdmSettings
  | .uidOffset => dfcSdmFlagSet { sdm with uidOffset := value } .uidOffset true
  | .counterOffset =>
    dfcSdmFlagSet { sdm with counterOffset := value } .counterOffset
      (value != dfcSdmHiddenCounterOffset)
  | .piccDataOffset => dfcSdmFlagSet { sdm with piccDataOffset := value } .piccDataOffset true
  | .macInputOffset => dfcSdmFlagSet { sdm with macInputOffset := value } .macInputOffset true
  | .encryptedFileOffset =>
    dfcSdmFlagSet { sdm with encryptedFileOffset := value } .encryptedFile true
  | .encryptedFileLength => { sdm with encryptedFileLength := value }
  | .macOffset => dfcSdmFlagSet { sdm with macOffset := value } .macOffset true
  | .counterLimit => dfcSdmFlagSet { sdm with counterLimit := value } .counterLimit true

/-- Whether an option of secure dynamic messaging is on. -/
def sdmOption (options mask : UInt8) : Bool := options &&& mask != 0

def sdmMetaRead (accessRights : UInt16) : ℕ := dfcAccessNibble accessRights 12

def sdmFileRead (accessRights : UInt16) : ℕ := dfcAccessNibble accessRights 8

/-- The bits of `sdm_fields`: the offsets that options and access rights call for. -/
def sdmFieldPresent (options : UInt8) (accessRights : UInt16) : DfcSdmField → Bool
  | .uidOffset =>
    sdmMetaRead accessRights == dfcSdmFreeAccess && sdmOption options dfcSdmUidMirrorMask
  | .counterOffset =>
    sdmMetaRead accessRights == dfcSdmFreeAccess && sdmOption options dfcSdmCounterMirrorMask
  | .piccDataOffset => decide (sdmMetaRead accessRights < dfcSdmFreeAccess)
  | .macInputOffset | .macOffset => sdmFileRead accessRights != dfcSdmDeniedAccess
  | .encryptedFileOffset | .encryptedFileLength =>
    sdmFileRead accessRights != dfcSdmDeniedAccess && sdmOption options dfcSdmEncryptedFileMask
  | .counterLimit => sdmOption options dfcSdmCounterLimitMask

def sdmFields (options : UInt8) (accessRights : UInt16) : List DfcSdmField :=
  DfcSdmField.all.filter (sdmFieldPresent options accessRights)

/-- Stores the offsets one after the other, three octets each. -/
def storeSdmFields : List DfcSdmField → List UInt8 → DfcSdmSettings → DfcSdmSettings
  | [], _, sdm => sdm
  | field :: fields, cursor, sdm =>
    storeSdmFields fields (cursor.drop dfcSdmOffsetLength)
      (setSdmField sdm (UInt32.ofNat (leValue (cursor.take dfcSdmOffsetLength))) field)

def dfcEmulatorCommandAccessRightsFromWire (first second : UInt8) : UInt16 :=
  UInt16.ofNat (second.toNat * 256 + first.toNat)

/-- Every nibble among the lowest `count` that names a key names one that exists. -/
def dfcEmulatorCommandKeyReferencesExist (references count keyCount : ℕ) : Bool :=
  (List.range count).all fun i =>
    let key := references / 16 ^ i % 16
    !(decide (key < dfcAccessFree) && decide (keyCount ≤ key))

/-- The checks of the settings of secure dynamic messaging in a body of a given length. -/
def checkSdmSettings (options : UInt8) (accessRights : UInt16) (bodyLen keyCount : ℕ) :
    Except UInt8 Unit := do
  let metaRead := sdmMetaRead accessRights
  let expectedLen := 3 + dfcSdmBaseSettingsLength +
    dfcSdmOffsetLength * (sdmFields options accessRights).length
  refuseIf (bodyLen ≠ expectedLen)
    (if bodyLen < expectedLen then dfcStatusLengthError else dfcStatusParameterError)
  refuseIf (dfcAccessNibble accessRights 4 ≠ dfcSdmDeniedAccess) dfcStatusParameterError
  refuseIf ((sdmOption options (dfcSdmUidMirrorMask ||| dfcSdmCounterMirrorMask) = false ∧
      metaRead ≠ dfcSdmDeniedAccess) ∨
    (sdmOption options dfcSdmUidMirrorMask = true ∧ metaRead = dfcSdmDeniedAccess))
    dfcStatusParameterError
  refuseIf (sdmOption options dfcSdmAsciiEncodingMask = false) dfcStatusParameterError
  refuseIf (sdmOption options dfcSdmCounterMirrorMask = false ∧
    dfcAccessNibble accessRights 0 ≠ dfcSdmDeniedAccess) dfcStatusParameterError
  refuseIf (sdmFieldPresent options accessRights .macInputOffset = true ∧
    keyCount ≤ sdmFileRead accessRights) dfcStatusParameterError

/-- The settings of secure dynamic messaging a body carries behind mode and rights. -/
def readSdmSettings (body : List UInt8) (keyCount : ℕ) : Except UInt8 DfcSdmSettings := do
  refuseIf (body.length < 3 + dfcSdmBaseSettingsLength) dfcStatusLengthError
  let options := body.getD 3 0
  let accessRights := dfcEmulatorCommandAccessRightsFromWire (body.getD 4 0) (body.getD 5 0)
  checkSdmSettings options accessRights body.length keyCount
  let stored := storeSdmFields (sdmFields options accessRights)
    (body.drop (3 + dfcSdmBaseSettingsLength)) { options, accessRights }
  return dfcSdmFlagSet stored .enabled true

/-- The settings of secure dynamic messaging of a body, if its mode asks for them. -/
def bodySdmSettings (body : List UInt8) (keyCount : ℕ) : Except UInt8 (Option DfcSdmSettings) :=
  if body.getD 0 0 &&& dfcSdmEnabledMask ≠ 0 then some <$> readSdmSettings body keyCount
  else .ok none

/-- The key references of the settings, behind the four of the access rights. -/
def sdmReferences : Option DfcSdmSettings → ℕ
  | some sdm => sdmMetaRead sdm.accessRights * 16 ^ 4 + dfcAccessNibble sdm.accessRights 0 * 16 ^ 5
  | none => 0

/-- Replaces the settings of a file. Those of another kind of file share their place with its
contents and are not cleared. -/
def DfcFile.withSettings (file : DfcFile) : Option DfcSdmSettings → DfcFile
  | some sdm => file.withData { file.state.data with sdm, sdmReadCounter := 0 }
  | none =>
    if file.type = dfcFileTypeStandardData then file.withData { file.state.data with sdm := {} }
    else file

/-- The file afterwards, or the status that refuses the body. -/
def applyChangeFileSettings (keyCount : ℕ) (file : DfcFile) (body : List UInt8) :
    Except UInt8 DfcFile := do
  let commSettings := body.getD 0 0
  let accessRights := dfcEmulatorCommandAccessRightsFromWire (body.getD 1 0) (body.getD 2 0)
  refuseIf (body.length < 3) dfcStatusLengthError
  refuseIf (body.length ≠ 3 ∧ commSettings &&& dfcSdmEnabledMask = 0) dfcStatusLengthError
  refuseIf (¬dfcCommunicationSettingsIsValid commSettings) dfcStatusParameterError
  refuseIf (file.type = dfcFileTypeTransactionMac ∧
    ¬dfcTransactionMacAccessRightsAreValid accessRights keyCount) dfcStatusParameterError
  let settings ← bodySdmSettings body keyCount
  refuseIf (settings.isSome = true ∧ file.type ≠ dfcFileTypeStandardData) dfcStatusParameterError
  refuseIf (¬dfcEmulatorCommandKeyReferencesExist (accessRights.toNat + sdmReferences settings) 6
    keyCount) dfcStatusParameterError
  return { file with commSettings, accessRights }.withSettings settings

theorem sdmFlagIsSet_set (sdm : DfcSdmSettings) (set test : DfcSdmFlag) (value : Bool) :
    dfcSdmFlagIsSet (dfcSdmFlagSet sdm set value) test =
      if test = set then value else dfcSdmFlagIsSet sdm test := by
  have hflags : (dfcSdmFlagSet sdm set value).flags =
      if value then sdm.flags ||| set.bit else sdm.flags &&& ~~~set.bit := by
    rw [dfcSdmFlagSet]
    split_ifs <;> rfl
  rw [dfcSdmFlagIsSet, hflags, flag_bits]
  rfl

/-- The flag a stored offset decides. -/
def DfcSdmField.flag : DfcSdmField → Option DfcSdmFlag
  | .uidOffset => some .uidOffset
  | .counterOffset => some .counterOffset
  | .piccDataOffset => some .piccDataOffset
  | .macInputOffset => some .macInputOffset
  | .encryptedFileOffset => some .encryptedFile
  | .encryptedFileLength => none
  | .macOffset => some .macOffset
  | .counterLimit => some .counterLimit

theorem setSdmField_flag (sdm : DfcSdmSettings) (value : UInt32) (field : DfcSdmField)
    {test : DfcSdmFlag} (htest : test ≠ .counterOffset) :
    dfcSdmFlagIsSet (setSdmField sdm value field) test =
      (decide (field.flag = some test) || dfcSdmFlagIsSet sdm test) := by
  cases field <;> cases test <;>
    first
    | exact absurd rfl htest
    | (simp only [setSdmField, sdmFlagIsSet_set, DfcSdmField.flag, reduceCtorEq, Option.some.injEq,
        if_true, if_false, decide_true, decide_false, Bool.true_or, Bool.false_or]
       try rfl)

theorem setSdmField_counter (sdm : DfcSdmSettings) (value : UInt32) (field : DfcSdmField) :
    dfcSdmFlagIsSet (setSdmField sdm value field) .counterOffset = true →
      field = .counterOffset ∨ dfcSdmFlagIsSet sdm .counterOffset = true := by
  cases field with
  | counterOffset => exact fun _ => Or.inl rfl
  | _ =>
    intro h
    simp only [setSdmField, sdmFlagIsSet_set, reduceCtorEq, if_false] at h
    exact Or.inr h

theorem setSdmField_rights (sdm : DfcSdmSettings) (value : UInt32) (field : DfcSdmField) :
    (setSdmField sdm value field).options = sdm.options ∧
      (setSdmField sdm value field).accessRights = sdm.accessRights := by
  have hset (s : DfcSdmSettings) (flag : DfcSdmFlag) (on : Bool) :
      (dfcSdmFlagSet s flag on).options = s.options ∧
        (dfcSdmFlagSet s flag on).accessRights = s.accessRights := by
    unfold dfcSdmFlagSet
    split_ifs <;> exact ⟨rfl, rfl⟩
  cases field with
  | encryptedFileLength => exact ⟨rfl, rfl⟩
  | _ => exact hset _ _ _

theorem storeSdmFields_flag (fields : List DfcSdmField) (cursor : List UInt8)
    (sdm : DfcSdmSettings) {test : DfcSdmFlag} (htest : test ≠ .counterOffset) :
    dfcSdmFlagIsSet (storeSdmFields fields cursor sdm) test =
      (fields.any (fun field => decide (field.flag = some test)) || dfcSdmFlagIsSet sdm test) := by
  induction fields generalizing cursor sdm with
  | nil => simp [storeSdmFields]
  | cons field fields ih =>
    rw [storeSdmFields, ih, setSdmField_flag _ _ _ htest, List.any_cons]
    cases decide (field.flag = some test) <;> simp

theorem storeSdmFields_counter (fields : List DfcSdmField) (cursor : List UInt8)
    (sdm : DfcSdmSettings) :
    dfcSdmFlagIsSet (storeSdmFields fields cursor sdm) .counterOffset = true →
      .counterOffset ∈ fields ∨ dfcSdmFlagIsSet sdm .counterOffset = true := by
  induction fields generalizing cursor sdm with
  | nil => exact Or.inr
  | cons field fields ih =>
    intro h
    rcases ih _ _ h with hmem | hset
    · exact Or.inl (List.mem_cons_of_mem _ hmem)
    · rcases setSdmField_counter _ _ _ hset with rfl | hset
      · exact Or.inl List.mem_cons_self
      · exact Or.inr hset

theorem storeSdmFields_rights (fields : List DfcSdmField) (cursor : List UInt8)
    (sdm : DfcSdmSettings) :
    (storeSdmFields fields cursor sdm).options = sdm.options ∧
      (storeSdmFields fields cursor sdm).accessRights = sdm.accessRights := by
  induction fields generalizing cursor sdm with
  | nil => exact ⟨rfl, rfl⟩
  | cons field fields ih =>
    have hhead := setSdmField_rights sdm
      (UInt32.ofNat (leValue (cursor.take dfcSdmOffsetLength))) field
    have hrest := ih (cursor.drop dfcSdmOffsetLength)
      (setSdmField sdm (UInt32.ofNat (leValue (cursor.take dfcSdmOffsetLength))) field)
    exact ⟨hrest.1.trans hhead.1, hrest.2.trans hhead.2⟩

/-- Settings as the command stores them: the flags are those of the offsets that options and
rights call for, and options and rights go together. -/
structure SdmStored (sdm : DfcSdmSettings) : Prop where
  enabled : dfcSdmFlagIsSet sdm .enabled = true
  flag : ∀ field : DfcSdmField, ∀ flag, field.flag = some flag → flag ≠ .counterOffset →
    dfcSdmFlagIsSet sdm flag = sdmFieldPresent sdm.options sdm.accessRights field
  counter : dfcSdmFlagIsSet sdm .counterOffset = true →
    sdmFieldPresent sdm.options sdm.accessRights .counterOffset = true
  mirrors : sdmOption sdm.options (dfcSdmUidMirrorMask ||| dfcSdmCounterMirrorMask) = false →
    sdmMetaRead sdm.accessRights = dfcSdmDeniedAccess
  uidMirror : sdmOption sdm.options dfcSdmUidMirrorMask = true →
    sdmMetaRead sdm.accessRights ≠ dfcSdmDeniedAccess

theorem any_sdmFields (options : UInt8) (accessRights : UInt16) {field : DfcSdmField}
    {flag : DfcSdmFlag} (h : field.flag = some flag) :
    ((sdmFields options accessRights).any fun field => decide (field.flag = some flag)) =
      sdmFieldPresent options accessRights field := by
  rw [sdmFields, List.any_filter]
  cases field <;> simp only [DfcSdmField.flag, Option.some.injEq, reduceCtorEq] at h <;> subst h <;>
    simp [DfcSdmField.all, DfcSdmField.flag]

theorem readSdmSettings_stored {body : List UInt8} {keyCount : ℕ} {sdm : DfcSdmSettings}
    (h : readSdmSettings body keyCount = .ok sdm) : SdmStored sdm := by
  simp only [readSdmSettings, checkSdmSettings, bind_eq_ok, refuseIf_eq_ok, pure_eq_ok,
    exists_and_left, exists_const] at h
  obtain ⟨-, ⟨-, -, hmirrors, -, -, -⟩, rfl⟩ := h
  set options := body.getD 3 0
  set accessRights := dfcEmulatorCommandAccessRightsFromWire (body.getD 4 0) (body.getD 5 0)
  set stored := storeSdmFields (sdmFields options accessRights)
    (body.drop (3 + dfcSdmBaseSettingsLength)) { options, accessRights } with hstored
  have hrights : stored.options = options ∧ stored.accessRights = accessRights :=
    storeSdmFields_rights _ _ _
  have hkept : (dfcSdmFlagSet stored .enabled true).options = options ∧
      (dfcSdmFlagSet stored .enabled true).accessRights = accessRights := hrights
  rw [not_or] at hmirrors
  refine ⟨by simp [sdmFlagIsSet_set], ?_, ?_, ?_, ?_⟩
  · intro field flag hflag hne
    have hnot : flag ≠ .enabled := by
      rintro rfl
      cases field <;> simp [DfcSdmField.flag] at hflag
    have hclear : dfcSdmFlagIsSet { options, accessRights } flag = false := by
      simp [dfcSdmFlagIsSet]
    rw [sdmFlagIsSet_set, if_neg hnot, hkept.1, hkept.2, hstored, storeSdmFields_flag _ _ _ hne,
      any_sdmFields _ _ hflag, hclear, Bool.or_false]
  · intro hset
    rw [sdmFlagIsSet_set, if_neg (by decide)] at hset
    rw [hkept.1, hkept.2]
    rcases storeSdmFields_counter _ _ _ hset with hmem | hset
    · exact (List.mem_filter.mp hmem).2
    · simp [dfcSdmFlagIsSet] at hset
  · intro hnone
    rw [hkept.1] at hnone
    rw [hkept.2]
    exact not_not.mp fun hne => hmirrors.1 ⟨hnone, hne⟩
  · intro huid
    rw [hkept.1] at huid
    rw [hkept.2]
    exact fun hdenied => hmirrors.2 ⟨huid, hdenied⟩

/-- Settings that a ChangeFileSettings has stored in a standard data file. -/
def SdmSettingsAccepted (sdm : DfcSdmSettings) : Prop :=
  ∃ keyCount before body after, applyChangeFileSettings keyCount before body = .ok after ∧
    after.type = dfcFileTypeStandardData ∧ after.state.data.sdm = sdm

/-- Accepted settings in use are as the command stores them. -/
theorem SdmSettingsAccepted.stored {sdm : DfcSdmSettings} (h : SdmSettingsAccepted sdm)
    (henabled : dfcSdmFlagIsSet sdm .enabled = true) : SdmStored sdm := by
  obtain ⟨keyCount, before, body, after, happly, htype, rfl⟩ := h
  simp only [applyChangeFileSettings, bind_eq_ok, refuseIf_eq_ok, pure_eq_ok, exists_and_left,
    exists_const] at happly
  obtain ⟨-, -, -, -, settings, hread, -, -, rfl⟩ := happly
  unfold bodySdmSettings at hread
  cases settings with
  | none =>
    have hplain : before.type = dfcFileTypeStandardData := by
      by_contra hne
      simp [DfcFile.withSettings, hne] at htype
    simp [DfcFile.withSettings, hplain, DfcFile.withData, dfcSdmFlagIsSet] at henabled
  | some sdm =>
    split_ifs at hread with hsdm
    · cases hsettings : readSdmSettings body keyCount with
      | error status => simp [hsettings] at hread
      | ok stored =>
        have hstored : stored = sdm := by simpa [hsettings] using hread
        subst hstored
        exact readSdmSettings_stored hsettings
    · simp at hread

end DfcCore
