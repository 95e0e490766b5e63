import DfcCore.Pools
import DfcCore.DerReader

/-!
# Model validation

`dfc_credential_validate_model` and its helpers, check by check in the order of the
source. A check that returns early is a failing step; the validator itself reports the
status of the first step that fails. The guards of the source against the wrap of a sum
of 16-bit lengths are left out, since a sum of natural numbers does not wrap.
-/
namespace DfcCore
open Der

abbrev dfcU24Max : ℕ := 16777215

abbrev dfcSdmEnabledMask : UInt8 := 0x40
abbrev dfcSdmUidMirrorMask : UInt8 := 0x80
abbrev dfcSdmCounterMirrorMask : UInt8 := 0x40
abbrev dfcSdmCounterLimitMask : UInt8 := 0x20
abbrev dfcSdmEncryptedFileMask : UInt8 := 0x10
abbrev dfcSdmAsciiEncodingMask : UInt8 := 0x01

/-- The loop `for(i = 0; i < n; i++)` over checks. -/
def checkEach {ε : Type} (n : ℕ) (check : ℕ → Except ε Unit) : Except ε Unit :=
  (List.range n).forM check

theorem checkEach_eq_ok {ε : Type} {n : ℕ} {check : ℕ → Except ε Unit} {u : Unit} :
    checkEach n check = .ok u ↔ ∀ i < n, check i = .ok () := by
  have hall : ∀ l : List ℕ, l.forM check = .ok u ↔ ∀ i ∈ l, check i = .ok () := by
    intro l
    induction l with
    | nil => simp [List.forM, pure, Except.pure]
    | cons a l ih =>
      have hcons : (a :: l).forM check = check a >>= fun _ => l.forM check := rfl
      rw [hcons, bind_eq_ok, List.forall_mem_cons, ← ih]
      exact ⟨fun ⟨_, ha, hl⟩ => ⟨ha, hl⟩, fun ⟨ha, hl⟩ => ⟨(), ha, hl⟩⟩
  rw [checkEach, hall]
  simp

def modelSliceIsValid (offset length used capacity none' : ℕ) : Bool :=
  if capacity < used then false
  else if length = 0 then offset == none'
  else offset != none' && decide (offset ≤ used) && decide (length ≤ used - offset)

def modelSlicesOverlap (leftOffset leftLength rightOffset rightLength : ℕ) : Bool :=
  if leftLength = 0 ∨ rightLength = 0 then false
  else decide (leftOffset < rightOffset + rightLength) &&
    decide (rightOffset < leftOffset + leftLength)

def modelKeyLengthIsValid (keySettings2 : UInt8) (keyLength : ℕ) : Bool :=
  if keySettings2 &&& dfcKeyTypeMask == dfcKeyTypeDes2k3des then keyLength == 8 || keyLength == 16
  else if keySettings2 &&& dfcKeyTypeMask == dfcKeyType3k3des then keyLength == 24
  else if keySettings2 &&& dfcKeyTypeMask == dfcKeyTypeAes then keyLength == 16
  else false

/-- The key-set part of `model_key_slice_is_valid`. -/
def modelKeySetsAreValid (c : DfcCredential) (app : DfcApplication) : Bool :=
  if app.numKeys = 0 ∨ !dfcCredentialKeySetIsInitialized c app 0 then false
  else match dfcCredentialKeySetType c app 0 with
  | none => false
  | some active =>
    let activeType := c.keySetMetadataPool active
    if app.maxKeySize ≠ dfcKeySetMaximum16Byte ∧ app.maxKeySize ≠ dfcKeySetMaximum24Byte then false
    else if app.keyStorageLen ≠ app.maxKeySize then false
    else if app.maxKeySize < app.keyLen ∨ dfcKeySetTypeLength activeType ≠ app.keyLen ∨
        app.keySettings2 &&& dfcKeyTypeMask ≠ dfcKeyTypeForSetType activeType then false
    else (List.range app.numKeySets).all fun set =>
      match dfcCredentialKeySetType c app set with
      | none => false
      | some at' =>
        let width := dfcKeySetTypeLength (c.keySetMetadataPool at')
        width != 0 && decide (width ≤ app.maxKeySize)

def modelKeySliceIsValid (c : DfcCredential) : Option ℕ → Bool
  | none =>
    decide (c.piccNumKeys ≤ dfcMaxKeys) &&
    (c.piccNumKeys == 0 || modelKeyLengthIsValid c.piccKeySettings2 c.piccKeyLen) &&
    c.piccKeyPoolLen == c.piccNumKeys * dfcCredentialStoredKeyLength c.piccKeyLen &&
    modelSliceIsValid c.piccKeyOffset c.piccKeyPoolLen c.keyPoolUsed dfcKeyPoolSize dfcKeyPoolNone
  | some i =>
    let app := c.apps i
    decide (app.numKeys ≤ dfcMaxKeys) &&
    (app.numKeys == 0 || modelKeyLengthIsValid app.keySettings2 app.keyLen) &&
    decide (app.numKeySets ≠ 0) && decide (app.numKeySets ≤ dfcMaxKeySets) &&
    (if dfcKeySetMinimumCount ≤ app.numKeySets then
      modelKeySetsAreValid c app &&
      app.keyPoolLen == app.numKeys * app.numKeySets *
        dfcCredentialStoredKeyLength app.keyStorageLen
    else
      app.numKeySets == 1 &&
      app.keyPoolLen == app.numKeys * dfcCredentialStoredKeyLength app.keyLen) &&
    modelSliceIsValid app.keyOffset app.keyPoolLen c.keyPoolUsed dfcKeyPoolSize dfcKeyPoolNone

/-- The metadata check of one application. -/
def modelMetadataIsValid (c : DfcCredential) (app : DfcApplication) : Bool :=
  if app.numKeySets < dfcKeySetMinimumCount then
    app.keySetMetadataOffset == dfcKeySetMetadataPoolNone && app.keySetMetadataLen == 0
  else (dfcCredentialKeySetVersion c app 0).isSome

/-- No slice of an earlier record overlaps the one at `i`. -/
def modelNoOverlap (offset length : ℕ → ℕ) (i : ℕ) : Bool :=
  (List.range i).all fun j => !modelSlicesOverlap (offset j) (length j) (offset i) (length i)

def modelPoolsAreValid (c : DfcCredential) : Bool :=
  let apps := List.range c.numApps
  let files := List.range c.numFiles
  decide (c.keyPoolUsed ≤ dfcKeyPoolSize) && decide (c.filePoolUsed ≤ dfcFilePoolSize) &&
  decide (c.keySetMetadataPoolUsed ≤ dfcKeySetMetadataPoolSize) &&
  modelKeySliceIsValid c none &&
  (apps.all fun i =>
    modelKeySliceIsValid c (some i) &&
    !modelSlicesOverlap c.piccKeyOffset c.piccKeyPoolLen (c.apps i).keyOffset
      (c.apps i).keyPoolLen &&
    modelNoOverlap (fun j => (c.apps j).keyOffset) (fun j => (c.apps j).keyPoolLen) i) &&
  c.piccKeyPoolLen + (apps.map fun i => (c.apps i).keyPoolLen).sum == c.keyPoolUsed &&
  (apps.all fun i =>
    modelMetadataIsValid c (c.apps i) &&
    (decide ((c.apps i).numKeySets < dfcKeySetMinimumCount) ||
      modelNoOverlap (fun j => (c.apps j).keySetMetadataOffset)
        (fun j => (c.apps j).keySetMetadataLen) i)) &&
  ((apps.filter fun i => dfcKeySetMinimumCount ≤ (c.apps i).numKeySets).map fun i =>
    (c.apps i).keySetMetadataLen).sum == c.keySetMetadataPoolUsed &&
  (files.all fun i =>
    modelSliceIsValid (c.files i).dataOffset (c.files i).dataLen c.filePoolUsed dfcFilePoolSize
      dfcFilePoolNone &&
    modelNoOverlap (fun j => (c.files j).dataOffset) (fun j => (c.files j).dataLen) i) &&
  (files.map fun i => (c.files i).dataLen).sum == c.filePoolUsed

/-- The checks of the command mask, the preferred command and the disabled secure
messaging modes, which the PICC record and every application share. -/
def modelAuthCheck (hasCommands : Bool) (commands : UInt8) (hasPreferred : Bool)
    (preferred keySettings2 : UInt8) (generation : ℕ) (hasSmDisable : Bool) (smDisable : UInt8) :
    Except DfcModelStatus Unit := do
  refuseIf (commands &&& ~~~dfcAuthCommandAll ≠ 0) .malformed
  refuseIf (hasPreferred = true ∧ (preferred = 0 ∨ preferred &&& (preferred - 1) ≠ 0 ∨
    preferred &&& dfcAuthCommandAll = 0 ∨
    (if hasCommands then commands
      else dfcCredentialPossibleAuthCommands keySettings2 generation) &&& preferred = 0)) .malformed
  refuseIf (commands &&& ~~~(dfcCredentialPossibleAuthCommands keySettings2 generation |||
    dfcAuthCommandIso7816) ≠ 0) .malformed
  refuseIf (commands &&& ~~~dfcCredentialCompiledAuthCommands ≠ 0) .unsupported
  refuseIf (hasPreferred = true ∧ dfcCredentialCompiledAuthCommands &&& preferred = 0) .unsupported
  refuseIf (generation < dfcGenerationEv2 ∧
    commands &&& (dfcAuthCommandEv2First ||| dfcAuthCommandEv2NonFirst) ≠ 0) .malformed
  refuseIf (hasSmDisable = true ∧
    smDisable &&& ~~~(dfcSmDisableD40 ||| dfcSmDisableEv1 ||| dfcSmDisableEv2ChainedWrite) ≠ 0)
    .malformed

def modelAppAuthCheck (c : DfcCredential) (a : DfcApplication) : Except DfcModelStatus Unit :=
  modelAuthCheck a.hasAuthCommands (dfcCredentialAppAuthCommands c a) a.hasPreferredAuthCommand
    a.preferredAuthCommand a.keySettings2 c.card.generation a.hasSmDisable a.smDisable

/-- Whether the card uses a feature that EV2 introduced. -/
def modelHasEv2 (c : DfcCredential) : Bool :=
  c.piccHasEv2Capabilities || c.virtualCardConfigured || c.piccHasDamKeys ||
    c.piccHasStaticSignature ||
    ((List.range c.numApps).any fun i =>
      decide (dfcKeySetMinimumCount ≤ (c.apps i).numKeySets) || (c.apps i).delegated) ||
    (List.range c.numFiles).any fun i => (c.files i).type == dfcFileTypeTransactionMac

/-- Whether the card uses a feature that EV3 introduced. -/
def modelHasEv3 (c : DfcCredential) : Bool :=
  c.piccHasProximityKey ||
    ((List.range c.numApps).any fun i => (c.apps i).hasCapabilityData) ||
    (List.range c.numFiles).any fun i => dfcFileSdmFlagIsSet (c.files i) .enabled

def modelAppCheck (c : DfcCredential) (i : ℕ) : Except DfcModelStatus Unit := do
  let a := c.apps i
  refuseIf (dfcMaxKeys < a.numKeys) .malformed
  refuseIf (16 < a.isoAidLen) .malformed
  refuseIf (a.hasIsoFileId = true ∧ dfcIsoFileIdIsReserved a.isoFileId = true) .malformed
  refuseIf (∃ j < c.numApps, i < j ∧ a.aid.read 0 3 = (c.apps j).aid.read 0 3) .malformed

/-- The keys the owner of a file has. -/
def modelOwnerKeyCount (c : DfcCredential) (owner : ℕ) : ℕ :=
  if owner = dfcFileOwnerPicc then c.piccNumKeys else (c.apps owner).numKeys

def modelDataCheck (f : DfcFile) : Except DfcModelStatus Unit := do
  let declaredSize ← orFail .malformed (dfcFileGetDeclaredSize f)
  refuseIf (declaredSize = 0 ∨ dfcU24Max < declaredSize) .malformed
  refuseIf (declaredSize < f.dataLen) .malformed
  refuseIf (f.contentsComplete = true ∧ f.dataLen ≠ declaredSize) .malformed

def modelValueCheck (f : DfcFile) : Except DfcModelStatus Unit := do
  let v := f.state.value
  refuseIf (v.current.toInt < v.lowerLimit.toInt ∨ v.upperLimit.toInt < v.current.toInt) .malformed
  refuseIf (3 < v.limitedCredit ∨ (v.limitedCredit &&& 0x01 = 0 ∧ v.limitedCreditValue ≠ 0) ∨
    v.limitedCreditValue.toInt < 0) .malformed

def modelTransactionMacCheck (c : DfcCredential) (f : DfcFile) : Except DfcModelStatus Unit := do
  refuseIf (c.card.generation < dfcGenerationEv2) .malformed
  refuseIf (¬dfcTransactionMacKeyTypeIsValid f.state.transactionMac.keyType) .malformed

def modelRecordCheck (f : DfcFile) : Except DfcModelStatus Unit := do
  let r := f.state.record
  refuseIf (r.size = 0 ∨ dfcU24Max < r.size) .malformed
  refuseIf (r.maxRecords = 0 ∨ dfcU24Max < r.maxRecords) .malformed
  refuseIf (r.maxRecords < r.count) .malformed
  refuseIf (f.dataLen % r.size ≠ 0) .malformed
  let stored := f.dataLen / r.size
  let reserved := stored = r.maxRecords
  refuseIf (r.count < stored ∧ ¬reserved) .malformed
  refuseIf (f.contentsComplete = true ∧ stored ≠ r.count ∧ ¬reserved) .malformed
  refuseIf (f.type = dfcFileTypeCyclicRecord ∧ r.maxRecords < 2) .malformed

def modelContentsCheck (c : DfcCredential) (f : DfcFile) : Except DfcModelStatus Unit :=
  if dfcFileTypeIsData f.type then modelDataCheck f
  else if f.type = dfcFileTypeValue then modelValueCheck f
  else if f.type = dfcFileTypeTransactionMac then modelTransactionMacCheck c f
  else modelRecordCheck f

/-- An SDM offset that is in use addresses a position inside the file. -/
def modelSdmOffsetCheck (f : DfcFile) (flag : DfcSdmFlag) (offset : UInt32) (size : ℕ) :
    Except DfcModelStatus Unit :=
  refuseIf (dfcFileSdmFlagIsSet f flag = true ∧ size ≤ offset.toNat) .malformed

def modelSdmCheck (f : DfcFile) (keyCount : ℕ) : Except DfcModelStatus Unit := do
  let sdm := f.state.data.sdm
  refuseIf (f.type ≠ dfcFileTypeStandardData) .malformed
  refuseIf (sdm.options &&& ~~~(dfcSdmUidMirrorMask ||| dfcSdmCounterMirrorMask |||
    dfcSdmCounterLimitMask ||| dfcSdmEncryptedFileMask ||| dfcSdmAsciiEncodingMask) ≠ 0 ∨
    ¬dfcSdmAccessRightsAreValid sdm.accessRights keyCount) .malformed
  let size ← orFail .malformed (dfcFileGetDeclaredSize f)
  modelSdmOffsetCheck f .uidOffset sdm.uidOffset size
  modelSdmOffsetCheck f .counterOffset sdm.counterOffset size
  modelSdmOffsetCheck f .piccDataOffset sdm.piccDataOffset size
  modelSdmOffsetCheck f .macInputOffset sdm.macInputOffset size
  modelSdmOffsetCheck f .macOffset sdm.macOffset size
  modelSdmOffsetCheck f .encryptedFile sdm.encryptedFileOffset size
  refuseIf (dfcFileSdmFlagIsSet f .encryptedFile = true ∧
    size - sdm.encryptedFileOffset.toNat < sdm.encryptedFileLength.toNat) .malformed

def modelFileCheck (c : DfcCredential) (i : ℕ) : Except DfcModelStatus Unit := do
  let f := c.files i
  refuseIf (f.appIndex ≠ dfcFileOwnerPicc ∧ c.numApps ≤ f.appIndex) .malformed
  refuseIf (dfcEv1MaxFileNumber < f.number.toNat) .malformed
  refuseIf (dfcFileTypeTransactionMac < f.type) .unsupported
  let keyCount := modelOwnerKeyCount c f.appIndex
  refuseIf (¬dfcCommunicationSettingsIsValid f.commSettings) .malformed
  refuseIf (f.commSettings &&& dfcSdmEnabledMask ≠ 0 ∧ dfcFileSdmFlagIsSet f .enabled = false)
    .malformed
  refuseIf (if f.type = dfcFileTypeTransactionMac
    then dfcTransactionMacAccessRightsAreValid f.accessRights keyCount = false
    else dfcAccessRightsAreValid f.accessRights keyCount = false) .malformed
  refuseIf (∃ j < c.numFiles, i < j ∧ (c.files j).appIndex = f.appIndex ∧
    (c.files j).number = f.number) .malformed
  modelContentsCheck c f
  refuseIf (f.hasIsoFileId = true ∧ dfcIsoFileIdIsReserved f.isoFileId = true) .malformed
  if dfcFileSdmFlagIsSet f .enabled then modelSdmCheck f keyCount else pure ()

def modelPiccCheck (c : DfcCredential) : Except DfcModelStatus Unit := do
  refuseIf (¬dfcUidLengthIsValid c.uidLen) .malformed
  refuseIf (c.card.generation < dfcGenerationEv1 ∨ dfcGenerationEv3 < c.card.generation) .malformed
  refuseIf (dfcUidProvenanceUnknown < c.card.uidProvenance) .malformed
  refuseIf (c.piccRandomIdLegacy = true ∧ c.piccRandomId = false) .malformed
  refuseIf (dfcMaxKeys < c.piccNumKeys) .malformed
  refuseIf (dfcPiccAtsMax < c.piccAtsLen) .malformed
  modelAuthCheck c.piccHasAuthCommands (dfcCredentialPiccAuthCommands c)
    c.piccHasPreferredAuthCommand c.piccPreferredAuthCommand c.piccKeySettings2 c.card.generation
    c.piccHasSmDisable c.piccSmDisable
  refuseIf (c.virtualCardConfigured = true ∧
    (dfcVirtualCardMaxInstallationIdLength < c.virtualCardInstallationIdLen ∨
      ¬dfcUidLengthIsValid c.virtualCardUidLen)) .malformed

def modelCheck (c : DfcCredential) : Except DfcModelStatus Unit := do
  refuseIf (dfcMaxApps < c.numApps ∨ dfcMaxFiles < c.numFiles) .malformed
  refuseIf (modelPoolsAreValid c = false) .malformed
  modelPiccCheck c
  checkEach c.numApps fun i => modelAppAuthCheck c (c.apps i)
  refuseIf (modelHasEv2 c = true ∧ c.card.generation < dfcGenerationEv2) .malformed
  refuseIf (modelHasEv3 c = true ∧ c.card.generation < dfcGenerationEv3) .malformed
  checkEach c.numApps (modelAppCheck c)
  checkEach c.numFiles (modelFileCheck c)

/-- The status of a run of checks. -/
def DfcModelStatus.of {α : Type} : Except DfcModelStatus α → DfcModelStatus
  | .ok _ => .ok
  | .error st => st

def dfcCredentialValidateModel (c : DfcCredential) : DfcModelStatus := .of (modelCheck c)

end DfcCore
