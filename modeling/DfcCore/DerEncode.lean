import DfcCore.Validate
import DfcCore.DerFormat
import DfcCore.DerWriter

/-!
# The binary encoder

The body functions of `dfc_der.c`, statement by statement, and `dfc_der_encode`. A body
function that finds something it cannot encode reports an overflow, which fails the
whole encode.
-/
namespace DfcCore
open Der

def bodyKey (c : DfcCredential) (app : Option ℕ) (slot : ℕ) : Writer → Writer :=
  match dfcCredentialKey c app slot with
  | none => wOverflow
  | some value =>
    wSeq [wInt Tag.keySlot slot,
      wTlv Tag.keyValue (c.keyPool.read value (dfcCredentialStoredKeyLength (keyLenOf c app))),
      wTlv Tag.keyVersion [keyVersionsOf c app slot]]

def bodyKeys (c : DfcCredential) (app : Option ℕ) : Writer → Writer :=
  wEach (numKeysOf c app) fun slot => wConstructed Tag.sequence (bodyKey c app slot)

def bodyKeySetKey (c : DfcCredential) (app : DfcApplication) (set slot : ℕ) : Writer → Writer :=
  match dfcCredentialKeyInSet c app set slot with
  | none => wOverflow
  | some value =>
    match dfcCredentialKeyVersionInSet c app set slot, dfcCredentialKeySetType c app set with
    | some version, some type =>
      wSeq [wInt Tag.keySlot slot,
        wTlv Tag.keyValue
          (c.keyPool.read value (dfcKeySetTypeLength (c.keySetMetadataPool type))),
        wTlv Tag.keyVersion [version]]
    | _, _ => wOverflow

def bodyKeySetKeys (c : DfcCredential) (app : DfcApplication) (set : ℕ) : Writer → Writer :=
  wEach app.numKeys fun slot => wConstructed Tag.sequence (bodyKeySetKey c app set slot)

def bodyKeySet (c : DfcCredential) (app : DfcApplication) (set : ℕ) : Writer → Writer :=
  match dfcCredentialKeySetVersion c app set, dfcCredentialKeySetType c app set with
  | some version, some type =>
    wSeq [wInt Tag.setNumber set, wTlv Tag.setVersion [c.keySetMetadataPool version],
      wInt Tag.setType (c.keySetMetadataPool type).toNat,
      wBool Tag.setInitialized (dfcCredentialKeySetIsInitialized c app set),
      wConstructed Tag.setKeys (bodyKeySetKeys c app set)]
  | _, _ => wOverflow

def bodyKeySetList (c : DfcCredential) (app : DfcApplication) : Writer → Writer :=
  wEach app.numKeySets fun set => wConstructed Tag.sequence (bodyKeySet c app set)

def bodyKeySets (c : DfcCredential) (app : DfcApplication) : Writer → Writer :=
  wSeq [wInt Tag.ksKeyCount app.numKeys, wInt Tag.ksMaxSize app.maxKeySize,
    wTlv Tag.ksSettings [app.keySetSettings], wConstructed Tag.ksSets (bodyKeySetList c app)]

def bodyDataContents (c : DfcCredential) (f : DfcFile) : Writer → Writer :=
  match dfcFileGetDeclaredSize f with
  | none => wOverflow
  | some declaredSize =>
    wSeq [wInt Tag.dataSize declaredSize,
      wWhen ((dfcFileData c f).isSome && decide (0 < f.dataLen))
        (wTlv Tag.dataKnown (c.filePool.read ((dfcFileData c f).getD 0) f.dataLen)),
      wBool Tag.dataComplete f.contentsComplete]

def bodyValueContents (f : DfcFile) : Writer → Writer :=
  let v := f.state.value
  wSeq [wInt Tag.valLower v.lowerLimit.toInt, wInt Tag.valUpper v.upperLimit.toInt,
    wInt Tag.valCurrent v.current.toInt, wTlv Tag.valLimited [v.limitedCredit],
    wWhen (v.limitedCreditValue != 0) (wInt Tag.valLimit v.limitedCreditValue.toInt)]

def bodyRecords (c : DfcCredential) (f : DfcFile) : Writer → Writer :=
  let size := f.state.record.size
  let count := if size = 0 then 0 else f.dataLen / size
  let count := if f.state.record.count < count then f.state.record.count else count
  wEach count fun i =>
    wTlv Tag.octets (c.filePool.read ((dfcFileData c f).getD 0 + i * size) size)

def bodyRecordContents (c : DfcCredential) (f : DfcFile) : Writer → Writer :=
  wSeq [wInt Tag.recSize f.state.record.size, wInt Tag.recMax f.state.record.maxRecords,
    wInt Tag.recCurrent f.state.record.count, wBool Tag.recComplete f.contentsComplete,
    wConstructed Tag.recRecords (bodyRecords c f)]

def bodyTransactionMacContents (f : DfcFile) : Writer → Writer :=
  let t := f.state.transactionMac
  wSeq [wInt Tag.tmacCounter t.counter.toNat, wTlv Tag.tmacValue (t.mac.read 0 8),
    wTlv Tag.tmacKeyType [t.keyType], wTlv Tag.tmacKeyVersion [t.keyVersion],
    wTlv Tag.tmacKey (t.key.read 0 16), wTlv Tag.tmacReaderId (t.previousReaderId.read 0 16)]

def bodySdm (f : DfcFile) : Writer → Writer :=
  let sdm := f.state.data.sdm
  let offset := fun (flag : DfcSdmFlag) (tag : UInt8) (v : UInt32) =>
    wWhen (dfcFileSdmFlagIsSet f flag) (wInt tag v.toNat)
  wSeq [wTlv Tag.sdmOptions [sdm.options], wTlv Tag.sdmRights (u16Octets sdm.accessRights),
    offset .uidOffset Tag.sdmUidOff sdm.uidOffset,
    offset .counterOffset Tag.sdmCounterOff sdm.counterOffset,
    offset .piccDataOffset Tag.sdmPiccOff sdm.piccDataOffset,
    offset .macInputOffset Tag.sdmMacInOff sdm.macInputOffset,
    offset .macOffset Tag.sdmMacOff sdm.macOffset,
    offset .encryptedFile Tag.sdmEncOff sdm.encryptedFileOffset,
    offset .encryptedFile Tag.sdmEncLen sdm.encryptedFileLength,
    offset .counterLimit Tag.sdmLimit sdm.counterLimit,
    wInt Tag.sdmReadCounter f.state.data.sdmReadCounter.toNat]

/-- The `Contents` alternative of a file. A type without one cannot be encoded. -/
def bodyContents (c : DfcCredential) (f : DfcFile) : Writer → Writer :=
  if dfcFileTypeIsData f.type then wConstructed Tag.fileData (bodyDataContents c f)
  else if f.type == dfcFileTypeValue then wConstructed Tag.fileValue (bodyValueContents f)
  else if dfcFileTypeIsRecord f.type then wConstructed Tag.fileRecord (bodyRecordContents c f)
  else if f.type == dfcFileTypeTransactionMac then
    wConstructed Tag.fileTmac (bodyTransactionMacContents f)
  else wOverflow

def bodyFile (c : DfcCredential) (f : DfcFile) : Writer → Writer :=
  wSeq [wInt Tag.fileNumber f.number.toNat, wInt Tag.fileType f.type.toNat,
    wTlv Tag.fileComm [f.commSettings], wTlv Tag.fileRights (u16Octets f.accessRights),
    wWhen f.hasIsoFileId (wTlv Tag.fileIsoFid (u16Octets f.isoFileId)),
    bodyContents c f,
    wWhen (dfcFileSdmFlagIsSet f .enabled) (wConstructed Tag.fileSdm (bodySdm f))]

def bodyFiles (c : DfcCredential) (owner : ℕ) : Writer → Writer :=
  wEach c.numFiles fun i =>
    wWhen ((c.files i).appIndex == owner) (wConstructed Tag.sequence (bodyFile c (c.files i)))

def bodyCard (c : DfcCredential) : Writer → Writer :=
  wSeq [wInt Tag.cardGeneration c.card.generation, wInt Tag.cardStorage c.card.storage.toNat,
    wTlv Tag.cardUid (c.uid.read 0 c.uidLen), wInt Tag.cardProvenance c.card.uidProvenance,
    wWhen c.piccHasStaticSignature (wTlv Tag.cardSignature (c.piccStaticSignature.read 0 56)),
    wWhen c.card.hasHardwareVersion
      (wTlv Tag.cardHardwareVersion (c.card.hardwareVersion.read 0 7)),
    wWhen c.card.hasSoftwareVersion
      (wTlv Tag.cardSoftwareVersion (c.card.softwareVersion.read 0 7))]

def bodyProximity (c : DfcCredential) : Writer → Writer :=
  wSeq [wTlv Tag.proxKey (c.piccProximityKey.read 0 16),
    wTlv Tag.proxOption [c.piccProximityOption],
    wInt Tag.proxPublished c.piccProximityPublishedResponseTime.toNat,
    wWhen c.piccHasProximityBitrate (wTlv Tag.proxBitrate [c.piccProximityBitrate])]

def bodyVirtualCard (c : DfcCredential) : Writer → Writer :=
  wSeq [wTlv Tag.vcInstallId (c.virtualCardInstallationId.read 0 c.virtualCardInstallationIdLen),
    wTlv Tag.vcInfo [c.virtualCardInformation],
    wTlv Tag.vcCaps (c.virtualCardCapabilities.read 0 2),
    wTlv Tag.vcUid (c.virtualCardUid.read 0 c.virtualCardUidLen),
    wTlv Tag.vcMacKey (c.virtualCardSelectMacKey.read 0 16),
    wTlv Tag.vcEncKey (c.virtualCardSelectEncryptionKey.read 0 16),
    wBool Tag.vcAuthReq c.virtualCardAuthenticationMandatory,
    wBool Tag.vcProxReq c.virtualCardProximityMandatory]

def bodyDam (c : DfcCredential) : Writer → Writer :=
  wSeq [wTlv Tag.damAuth (c.piccDamAuthKey.read 0 16), wTlv Tag.damMac (c.piccDamMacKey.read 0 16),
    wTlv Tag.damEnc (c.piccDamEncryptionKey.read 0 16)]

def bodyPicc (c : DfcCredential) : Writer → Writer :=
  wSeq [wTlv Tag.piccKs1 [c.piccKeySettings1], wTlv Tag.piccKs2 [c.piccKeySettings2],
    wInt Tag.piccAuth (dfcCredentialPiccAuthCommands c).toNat,
    wWhen c.piccRandomId (wBool Tag.piccRandomId true),
    wWhen c.piccFormatDisabled (wBool Tag.piccFormatDis true),
    wWhen (0 < c.piccAtsLen) (wTlv Tag.piccAts (c.piccAts.read 0 c.piccAtsLen)),
    wWhen c.piccHasSak (wTlv Tag.piccSak [c.piccSak]),
    wWhen c.piccHasAtqa (wTlv Tag.piccAtqa (c.piccAtqa.read 0 2)),
    wWhen c.piccHasSmDisable (wTlv Tag.piccSmDisable [c.piccSmDisable]),
    wConstructed Tag.piccKeys (bodyKeys c none),
    wConstructed Tag.piccFiles (bodyFiles c dfcFileOwnerPicc),
    wWhen c.piccHasEv2Capabilities (wTlv Tag.piccEv2Caps (c.piccEv2Capabilities.read 0 6)),
    wWhen c.piccHasProximityKey (wConstructed Tag.piccProximity (bodyProximity c)),
    wWhen c.virtualCardConfigured (wConstructed Tag.piccVcard (bodyVirtualCard c)),
    wWhen c.piccHasDamKeys (wConstructed Tag.piccDam (bodyDam c)),
    wWhen c.piccHasPreferredAuthCommand
      (wInt Tag.piccPreferredAuth c.piccPreferredAuthCommand.toNat),
    wWhen c.piccRandomIdLegacy (wBool Tag.piccRandomIdLegacy true)]

def bodyDelegated (a : DfcApplication) : Writer → Writer :=
  wSeq [wInt Tag.delSlot a.delegatedSlotNumber.toNat, wTlv Tag.delVersion [a.delegatedSlotVersion],
    wInt Tag.delQuota a.delegatedQuotaLimit.toNat, wInt Tag.delFree a.delegatedFreeBlocks.toNat,
    wWhen a.delegatedFormatDisabled (wBool Tag.delFormatDisabled true)]

def bodyApp (c : DfcCredential) (i : ℕ) : Writer → Writer :=
  let a := c.apps i
  wSeq [wTlv Tag.appAid (a.aid.read 0 3),
    wWhen a.hasIsoFileId (wTlv Tag.appIsoFid (u16Octets a.isoFileId)),
    wWhen (0 < a.isoAidLen) (wTlv Tag.appDfName (a.isoAid.read 0 a.isoAidLen)),
    wTlv Tag.appKs1 [a.keySettings1], wTlv Tag.appKs2 [a.keySettings2],
    wInt Tag.appAuth (dfcCredentialAppAuthCommands c a).toNat,
    wWhen (a.numKeySets < dfcKeySetMinimumCount)
      (wConstructed Tag.appKeys (bodyKeys c (some i))),
    wConstructed Tag.appFiles (bodyFiles c i),
    wWhen (dfcKeySetMinimumCount ≤ a.numKeySets)
      (wConstructed Tag.appKeySets (bodyKeySets c a)),
    wWhen a.hasCapabilityData (wTlv Tag.appCapability (a.capabilityData.read 0 10)),
    wWhen a.delegated (wConstructed Tag.appDelegated (bodyDelegated a)),
    wWhen a.hasSmDisable (wTlv Tag.appSmDisable [a.smDisable]),
    wWhen a.hasPreferredAuthCommand (wInt Tag.appPreferredAuth a.preferredAuthCommand.toNat)]

def bodyApps (c : DfcCredential) : Writer → Writer :=
  wEach c.numApps fun i => wConstructed Tag.sequence (bodyApp c i)

def bodyCredential (c : DfcCredential) : Writer → Writer :=
  wSeq [wInt Tag.credVersion dfcFormatVersion, wConstructed Tag.credCard (bodyCard c),
    wConstructed Tag.credPicc (bodyPicc c), wConstructed Tag.credApps (bodyApps c)]

/-- A writer that only counts. -/
def probeWriter : Writer := { buf := none, cap := 0, len := 0, overflow := false }

def dfcDerEncodedSize (c : DfcCredential) : Except DfcModelStatus ℕ := do
  modelCheck c
  let probe := bodyCredential c probeWriter
  refuseIf (probe.overflow = true) .malformed
  let outer := probeWriter |> wByte Tag.credential |> wLen probe.len
  refuseIf (outer.overflow = true) .capacity
  let total := outer.len + probe.len
  refuseIf (dfcDerMaxSize < total) .malformed
  pure total

/-- Encodes into the buffer `out` of `cap` octets and returns what it then holds. -/
def dfcDerEncode (c : DfcCredential) (out : Mem) (cap : ℕ) : Except DfcModelStatus (List UInt8) :=
  do
  let needed ← dfcDerEncodedSize c
  refuseIf (cap < needed) .capacity
  let w := wConstructed Tag.credential (bodyCredential c)
    { buf := some out, cap := cap, len := 0, overflow := false }
  refuseIf (w.overflow = true) .capacity
  pure ((w.buf.getD out).read 0 w.len)

/-- Everything the encoder looks up is there. -/
structure Encodable (c : DfcCredential) : Prop where
  piccKeys : ∀ slot < c.piccNumKeys, (dfcCredentialKey c none slot).isSome
  keys : ∀ i < c.numApps, (c.apps i).numKeySets < dfcKeySetMinimumCount →
    ∀ slot < (c.apps i).numKeys, (dfcCredentialKey c (some i) slot).isSome
  metadata : ∀ i < c.numApps, dfcKeySetMinimumCount ≤ (c.apps i).numKeySets →
    (dfcKeySetMetadataSlice c (c.apps i)).isSome
  setKeys : ∀ i < c.numApps, dfcKeySetMinimumCount ≤ (c.apps i).numKeySets →
    ∀ set < (c.apps i).numKeySets, ∀ slot < (c.apps i).numKeys,
      (dfcCredentialKeyInSet c (c.apps i) set slot).isSome
  types : ∀ i < c.numFiles, (c.files i).type ≤ dfcFileTypeTransactionMac

theorem keyItems_map (g : ℕ → KeyImage) (k n : ℕ) :
    keyItems k ((List.range' k n).map g) =
      (List.range' k n).map fun slot => sequenceItem (keyComponents slot (g slot)) := by
  induction n generalizing k with
  | zero => rfl
  | succ n ih =>
    simp only [List.range'_succ, List.map_cons, keyItems]
    rw [ih]

theorem keySetItems_map (g : ℕ → KeySetImage) (k n : ℕ) :
    keySetItems k ((List.range' k n).map g) =
      (List.range' k n).map fun set => sequenceItem (keySetComponents set (g set)) := by
  induction n generalizing k with
  | zero => rfl
  | succ n ih =>
    simp only [List.range'_succ, List.map_cons, keySetItems]
    rw [ih]

theorem writes_keyComponents {p : Prop} (slot : ℕ) (value : Slice) (version : UInt8) :
    Writes p (wSeq [wInt Tag.keySlot slot, wTlv Tag.keyValue value, wTlv Tag.keyVersion [version]])
      (encFields (keyComponents slot ⟨value, version⟩)) :=
  .fields (.cons (writes_int _ _) (.cons (writes_tlv _ _) (.cons (writes_tlv _ _) .nil)))

theorem writes_bodyKeys {p : Prop} {c : DfcCredential} (app : Option ℕ)
    (h : p → ∀ slot < numKeysOf c app, (dfcCredentialKey c app slot).isSome) :
    Writes p (bodyKeys c app) (encKeys (keyListImage c app)) := by
  rw [encKeys, keyListImage, List.range_eq_range', keyItems_map, ← List.range_eq_range']
  refine Writes.items fun slot hs => Writes.constructed _ ?_
  rw [bodyKey]
  cases hk : dfcCredentialKey c app slot with
  | some value => exact writes_keyComponents _ _ _
  | none =>
    refine Writes.overflow (fun hp => ?_) _
    have := h hp slot hs
    rw [hk] at this
    exact absurd this (by simp)

theorem writes_bodyKeySet {p : Prop} {c : DfcCredential} {app : DfcApplication} {set : ℕ}
    (hset : set < app.numKeySets) (hm : p → (dfcKeySetMetadataSlice c app).isSome)
    (hk : p → ∀ slot < app.numKeys, (dfcCredentialKeyInSet c app set slot).isSome) :
    Writes p (bodyKeySet c app set) (encFields (keySetComponents set (keySetImage c app set))) := by
  rw [bodyKeySet]
  cases hs : dfcKeySetMetadataSlice c app with
  | none =>
    have hv : dfcCredentialKeySetVersion c app set = none := by
      rw [dfcCredentialKeySetVersion, hs]
    rw [hv]
    refine Writes.overflow (fun hp => ?_) _
    have := hm hp
    rw [hs] at this
    exact absurd this (by simp)
  | some data =>
    have hv := keySetVersion_eq hs hset
    have ht := keySetType_eq hs hset
    have hkeys : Writes p (bodyKeySetKeys c app set) (encKeys (keySetImage c app set).keys) := by
      rw [encKeys, keySetImage, List.range_eq_range', keyItems_map, ← List.range_eq_range']
      refine Writes.items fun slot hslot => Writes.constructed _ ?_
      rw [bodyKeySetKey]
      cases hval : dfcCredentialKeyInSet c app set slot with
      | none =>
        refine Writes.overflow (fun hp => ?_) _
        have := hk hp slot hslot
        rw [hval] at this
        exact absurd this (by simp)
      | some value =>
        obtain ⟨version, hver⟩ : ∃ v, dfcCredentialKeyVersionInSet c app set slot = some v := by
          rw [dfcCredentialKeyVersionInSet, if_neg (by omega), hs]
          split_ifs
          · exact ⟨_, rfl⟩
          · exact ⟨_, rfl⟩
        rw [hver, ht]
        exact writes_keyComponents _ _ _
    have hversion : (keySetImage c app set).version = c.keySetMetadataPool (data + set) := by
      rw [keySetImage, hv]
      rfl
    have htype : (keySetImage c app set).type =
        c.keySetMetadataPool (data + app.numKeySets + set) := by
      rw [keySetImage, ht]
      rfl
    rw [hv, ht, keySetComponents, hversion, htype]
    exact .fields (.cons (writes_int _ _) (.cons (writes_tlv _ _) (.cons (writes_int _ _)
      (.cons (writes_bool _ _) (.cons (hkeys.constructed _) .nil)))))

theorem writes_bodyKeySets {p : Prop} {c : DfcCredential} {app : DfcApplication}
    (hm : p → (dfcKeySetMetadataSlice c app).isSome)
    (hk : p → ∀ set < app.numKeySets, ∀ slot < app.numKeys,
      (dfcCredentialKeyInSet c app set slot).isSome) :
    Writes p (bodyKeySets c app) (encFields (keySetsComponents app.numKeys app.maxKeySize
      app.keySetSettings ((List.range app.numKeySets).map (keySetImage c app)))) := by
  have hsets : Writes p (bodyKeySetList c app)
      (encItems (keySetItems 0 ((List.range app.numKeySets).map (keySetImage c app)))) := by
    rw [List.range_eq_range', keySetItems_map, ← List.range_eq_range']
    exact Writes.items fun set hs =>
      (writes_bodyKeySet hs hm fun hp => hk hp set hs).constructed _
  exact .fields (.cons (writes_int _ _) (.cons (writes_int _ _) (.cons (writes_tlv _ _)
    (.cons (hsets.constructed _) .nil))))

theorem optTlv_nonempty (tag : UInt8) (m : Mem) (n : ℕ) :
    optTlv tag (nonemptyField (m.read 0 n)) =
      optTlv tag (if decide (0 < n) then some (m.read 0 n) else none) := by
  cases n with
  | zero => rfl
  | succ n =>
    have hne : m.read 0 (n + 1) ≠ [] := by
      intro h
      have := congrArg List.length h
      simp at this
    simp [nonemptyField, hne]

theorem writes_bodyDataContents {p : Prop} {c : DfcCredential} {f : DfcFile}
    (h : dfcFileTypeIsData f.type = true) :
    Writes p (bodyDataContents c f) (encFields (contentsComponents (contentsImage c f))) := by
  have hsize : dfcFileGetDeclaredSize f = some f.state.data.declaredSize := by
    simp [dfcFileGetDeclaredSize, h]
  have hknown : Writes p (wWhen ((dfcFileData c f).isSome && decide (0 < f.dataLen))
      (wTlv Tag.dataKnown (c.filePool.read ((dfcFileData c f).getD 0) f.dataLen)))
      (optTlv Tag.dataKnown (nonemptyField (knownContents c f))) := by
    rw [knownContents]
    cases hd : dfcFileData c f with
    | none => exact Writes.nil
    | some data =>
      have hlen : f.dataLen ≠ 0 := by
        unfold dfcFileData at hd
        split_ifs at hd with h₁
        omega
      have hne : c.filePool.read data f.dataLen ≠ [] := by
        intro he
        have := congrArg List.length he
        simp at this
        exact hlen this
      have hflag : ((some data).isSome && decide (0 < f.dataLen)) = true := by
        simp
        omega
      rw [nonemptyField, if_neg hne, hflag]
      exact writes_tlv _ _
  rw [bodyDataContents, hsize, contentsImage, if_pos h]
  exact .fields (.cons (writes_int _ _) (.cons hknown (.cons (writes_bool _ _) .nil)))

theorem writes_bodyValueContents {p : Prop} {c : DfcCredential} {f : DfcFile}
    (h : dfcFileTypeIsData f.type = false) (hv : (f.type == dfcFileTypeValue) = true) :
    Writes p (bodyValueContents f) (encFields (contentsComponents (contentsImage c f))) := by
  rw [bodyValueContents, contentsImage, if_neg (by simp [h]), if_pos hv]
  simp only [contentsComponents, map_whenSet]
  exact .fields (.cons (writes_int _ _) (.cons (writes_int _ _) (.cons (writes_int _ _)
    (.cons (writes_tlv _ _) (.cons (.when fun _ => writes_int _ _) .nil)))))

theorem writes_bodyRecordContents {p : Prop} {c : DfcCredential} {f : DfcFile}
    (h : dfcFileTypeIsData f.type = false) (hv : (f.type == dfcFileTypeValue) = false)
    (hr : dfcFileTypeIsRecord f.type = true) :
    Writes p (bodyRecordContents c f) (encFields (contentsComponents (contentsImage c f))) := by
  have hrecords : Writes p (bodyRecords c f) (encItems (recordItems ((List.range
      (storedRecords f)).map fun i => c.filePool.read
        ((dfcFileData c f).getD 0 + i * f.state.record.size) f.state.record.size))) := by
    rw [recordItems, List.map_map]
    exact Writes.items fun i _ => writes_tlv _ _
  rw [bodyRecordContents, contentsImage, if_neg (by simp [h]), if_neg (by simp [hv]), if_pos hr]
  exact .fields (.cons (writes_int _ _) (.cons (writes_int _ _) (.cons (writes_int _ _)
    (.cons (writes_bool _ _) (.cons (hrecords.constructed _) .nil)))))

theorem writes_bodyTransactionMacContents {p : Prop} {c : DfcCredential} {f : DfcFile}
    (h : dfcFileTypeIsData f.type = false) (hv : (f.type == dfcFileTypeValue) = false)
    (hr : dfcFileTypeIsRecord f.type = false) :
    Writes p (bodyTransactionMacContents f)
      (encFields (contentsComponents (contentsImage c f))) := by
  rw [bodyTransactionMacContents, contentsImage, if_neg (by simp [h]), if_neg (by simp [hv]),
    if_neg (by simp [hr])]
  exact .fields (.cons (writes_int _ _) (.cons (writes_tlv _ _) (.cons (writes_tlv _ _)
    (.cons (writes_tlv _ _) (.cons (writes_tlv _ _) (.cons (writes_tlv _ _) .nil))))))

theorem octet_type_cases (t : UInt8) (h : t ≤ dfcFileTypeTransactionMac)
    (hd : dfcFileTypeIsData t = false) (hv : (t == dfcFileTypeValue) = false)
    (hr : dfcFileTypeIsRecord t = false) : t = dfcFileTypeTransactionMac := by
  revert t
  exact forall_octet (by decide +kernel)

theorem writes_bodyContents {p : Prop} {c : DfcCredential} {f : DfcFile}
    (h : p → f.type ≤ dfcFileTypeTransactionMac) :
    Writes p (bodyContents c f) (encFields (contentsAlternatives (contentsImage c f))) := by
  rw [encFields_contentsAlternatives, bodyContents]
  cases hd : dfcFileTypeIsData f.type with
  | true =>
    have htag : (contentsImage c f).tag = Tag.fileData := by
      rw [contentsImage, if_pos hd]
      rfl
    rw [htag, if_pos rfl]
    exact (writes_bodyDataContents hd).constructed _
  | false =>
    rw [if_neg (by simp)]
    cases hv : f.type == dfcFileTypeValue with
    | true =>
      have htag : (contentsImage c f).tag = Tag.fileValue := by
        rw [contentsImage, if_neg (by simp [hd]), if_pos hv]
        rfl
      rw [htag, if_pos rfl]
      exact (writes_bodyValueContents hd hv).constructed _
    | false =>
      rw [if_neg (by simp)]
      cases hr : dfcFileTypeIsRecord f.type with
      | true =>
        have htag : (contentsImage c f).tag = Tag.fileRecord := by
          rw [contentsImage, if_neg (by simp [hd]), if_neg (by simp [hv]), if_pos hr]
          rfl
        rw [htag, if_pos rfl]
        exact (writes_bodyRecordContents hd hv hr).constructed _
      | false =>
        have htag : (contentsImage c f).tag = Tag.fileTmac := by
          rw [contentsImage, if_neg (by simp [hd]), if_neg (by simp [hv]), if_neg (by simp [hr])]
          rfl
        rw [htag, if_neg (by simp)]
        cases ht : f.type == dfcFileTypeTransactionMac with
        | true =>
          rw [if_pos rfl]
          exact (writes_bodyTransactionMacContents hd hv hr).constructed _
        | false =>
          rw [if_neg (by simp)]
          refine Writes.overflow (fun hp => ?_) _
          rw [octet_type_cases f.type (h hp) hd hv hr] at ht
          exact absurd ht (by decide)

theorem writes_bodySdm {p : Prop} (f : DfcFile) :
    Writes p (bodySdm f) (encFields (sdmComponents (sdmImage f))) := by
  simp only [bodySdm, sdmComponents, sdmImage, offsetField, map_whenSet]
  have hoff (flag : DfcSdmFlag) (tag : UInt8) (v : UInt32) : Writes p
      (wWhen (dfcFileSdmFlagIsSet f flag) (wInt tag v.toNat))
      (optTlv tag (whenSet (dfcFileSdmFlagIsSet f flag) (encInt v.toNat))) :=
    .when fun _ => writes_int _ _
  exact .fields (.cons (writes_tlv _ _) (.cons (writes_tlv _ _) (.cons (hoff _ _ _)
    (.cons (hoff _ _ _) (.cons (hoff _ _ _) (.cons (hoff _ _ _) (.cons (hoff _ _ _)
    (.cons (hoff _ _ _) (.cons (hoff _ _ _) (.cons (hoff _ _ _)
    (.cons (writes_int _ _) .nil)))))))))))

theorem writes_bodyFile {p : Prop} {c : DfcCredential} {f : DfcFile}
    (h : p → f.type ≤ dfcFileTypeTransactionMac) :
    Writes p (bodyFile c f) (encFields (fileComponents (fileImage c f))) := by
  have hhead : Writes p (wSeq [wInt Tag.fileNumber f.number.toNat, wInt Tag.fileType f.type.toNat,
      wTlv Tag.fileComm [f.commSettings], wTlv Tag.fileRights (u16Octets f.accessRights),
      wWhen f.hasIsoFileId (wTlv Tag.fileIsoFid (u16Octets f.isoFileId))])
      (encFields [(Tag.fileNumber, intField f.number.toNat), (Tag.fileType, intField f.type.toNat),
        (Tag.fileComm, octetField f.commSettings),
        (Tag.fileRights, some (u16Octets f.accessRights)),
        (Tag.fileIsoFid, whenSet f.hasIsoFileId (u16Octets f.isoFileId))]) :=
    .fields (.cons (writes_int _ _) (.cons (writes_int _ _) (.cons (writes_tlv _ _)
      (.cons (writes_tlv _ _) (.cons (.when fun _ => writes_tlv _ _) .nil)))))
  have hsdm : Writes p (wWhen (dfcFileSdmFlagIsSet f .enabled)
      (wConstructed Tag.fileSdm (bodySdm f)))
      (optTlv Tag.fileSdm
        (whenSet (dfcFileSdmFlagIsSet f .enabled) (encFields (sdmComponents (sdmImage f))))) :=
    .when fun _ => (writes_bodySdm f).constructed _
  have hall := hhead.seq ((writes_bodyContents (c := c) h).seq hsdm)
  have henc : encFields (fileComponents (fileImage c f)) =
      encFields [(Tag.fileNumber, intField f.number.toNat), (Tag.fileType, intField f.type.toNat),
        (Tag.fileComm, octetField f.commSettings),
        (Tag.fileRights, some (u16Octets f.accessRights)),
        (Tag.fileIsoFid, whenSet f.hasIsoFileId (u16Octets f.isoFileId))] ++
      (encFields (contentsAlternatives (contentsImage c f)) ++ optTlv Tag.fileSdm
        (whenSet (dfcFileSdmFlagIsSet f .enabled) (encFields (sdmComponents (sdmImage f))))) := by
    simp only [fileComponents, fileImage, map_whenSet, encFields, List.flatMap_append,
      List.flatMap_cons, List.flatMap_nil, List.append_nil, List.append_assoc]
  rw [henc]
  exact hall

theorem writes_bodyFiles {p : Prop} {c : DfcCredential} (owner : ℕ)
    (h : p → ∀ i < c.numFiles, (c.files i).type ≤ dfcFileTypeTransactionMac) :
    Writes p (bodyFiles c owner)
      (encItems (fileItems ((filesOf c owner).map (fileImage c)))) := by
  have hitems : encItems (fileItems ((filesOf c owner).map (fileImage c))) =
      (List.range c.numFiles).flatMap fun i => optTlv Tag.sequence
        (if (c.files i).appIndex == owner
          then some (encFields (fileComponents (fileImage c (c.files i)))) else none) := by
    rw [fileItems, filesOf, encItems]
    induction List.range c.numFiles with
    | nil => rfl
    | cons i l ih =>
      rw [List.flatMap_cons, ← ih, List.map_cons, List.filter_cons]
      by_cases ho : (c.files i).appIndex = owner
      · rw [if_pos (by simpa using ho), if_pos (by simpa using ho)]
        rfl
      · rw [if_neg (by simpa using ho), if_neg (by simpa using ho)]
        rfl
  rw [hitems]
  exact Writes.each fun i hi => .when fun _ => (writes_bodyFile fun hp => h hp i hi).constructed _

theorem writes_bodyCard {p : Prop} (c : DfcCredential) :
    Writes p (bodyCard c) (encFields (cardComponents (cardImage c))) :=
  .fields (.cons (writes_int _ _) (.cons (writes_int _ _) (.cons (writes_tlv _ _)
    (.cons (writes_int _ _) (.cons (.when fun _ => writes_tlv _ _)
    (.cons (.when fun _ => writes_tlv _ _) (.cons (.when fun _ => writes_tlv _ _) .nil)))))))

theorem writes_bodyProximity {p : Prop} (c : DfcCredential) :
    Writes p (bodyProximity c) (encFields (proximityComponents (proximityImage c))) := by
  simp only [proximityComponents, proximityImage, map_whenSet]
  exact .fields (.cons (writes_tlv _ _) (.cons (writes_tlv _ _) (.cons (writes_int _ _)
    (.cons (.when fun _ => writes_tlv _ _) .nil))))

theorem writes_bodyVirtualCard {p : Prop} (c : DfcCredential) :
    Writes p (bodyVirtualCard c) (encFields (virtualCardComponents (virtualCardImage c))) :=
  .fields (.cons (writes_tlv _ _) (.cons (writes_tlv _ _) (.cons (writes_tlv _ _)
    (.cons (writes_tlv _ _) (.cons (writes_tlv _ _) (.cons (writes_tlv _ _)
    (.cons (writes_bool _ _) (.cons (writes_bool _ _) .nil))))))))

theorem writes_bodyDam {p : Prop} (c : DfcCredential) :
    Writes p (bodyDam c) (encFields (damComponents (damImage c))) :=
  .fields (.cons (writes_tlv _ _) (.cons (writes_tlv _ _) (.cons (writes_tlv _ _) .nil)))

theorem writes_bodyDelegated {p : Prop} (a : DfcApplication) :
    Writes p (bodyDelegated a) (encFields (delegatedComponents (delegatedImage a))) :=
  .fields (.cons (writes_int _ _) (.cons (writes_tlv _ _) (.cons (writes_int _ _)
    (.cons (writes_int _ _) (.cons (.when fun _ => writes_bool _ _) .nil)))))

theorem writes_bodyPicc {c : DfcCredential} :
    Writes (Encodable c) (bodyPicc c) (encFields (piccComponents (piccImage c))) := by
  have hkeys := writes_bodyKeys (p := Encodable c) (c := c) none fun h => h.piccKeys
  have hfiles := writes_bodyFiles (c := c) dfcFileOwnerPicc fun h : Encodable c => h.types
  have hats : Writes (Encodable c) (wWhen (0 < c.piccAtsLen)
      (wTlv Tag.piccAts (c.piccAts.read 0 c.piccAtsLen)))
      (optTlv Tag.piccAts (nonemptyField (c.piccAts.read 0 c.piccAtsLen))) := by
    rw [optTlv_nonempty]
    exact .when fun _ => writes_tlv _ _
  simp only [piccComponents, piccImage, map_whenSet]
  exact .fields (.cons (writes_tlv _ _) (.cons (writes_tlv _ _) (.cons (writes_int _ _)
    (.cons (.when fun _ => writes_bool _ _) (.cons (.when fun _ => writes_bool _ _)
    (.cons hats (.cons (.when fun _ => writes_tlv _ _) (.cons (.when fun _ => writes_tlv _ _)
    (.cons (.when fun _ => writes_tlv _ _) (.cons (hkeys.constructed _)
    (.cons (hfiles.constructed _) (.cons (.when fun _ => writes_tlv _ _)
    (.cons (.when fun _ => (writes_bodyProximity c).constructed _)
    (.cons (.when fun _ => (writes_bodyVirtualCard c).constructed _)
    (.cons (.when fun _ => (writes_bodyDam c).constructed _)
    (.cons (.when fun _ => writes_int _ _)
    (.cons (.when fun _ => writes_bool _ _) .nil)))))))))))))))))

theorem writes_bodyApp {c : DfcCredential} {i : ℕ} (hi : i < c.numApps) :
    Writes (Encodable c) (bodyApp c i) (encFields (appComponents (appImage c i))) := by
  have hfiles := writes_bodyFiles (c := c) i fun h : Encodable c => h.types
  have hname : Writes (Encodable c) (wWhen (0 < (c.apps i).isoAidLen)
      (wTlv Tag.appDfName ((c.apps i).isoAid.read 0 (c.apps i).isoAidLen)))
      (optTlv Tag.appDfName
        (nonemptyField ((c.apps i).isoAid.read 0 (c.apps i).isoAidLen))) := by
    rw [optTlv_nonempty]
    exact .when fun _ => writes_tlv _ _
  have hkeys : Writes (Encodable c) (wWhen ((c.apps i).numKeySets < dfcKeySetMinimumCount)
      (wConstructed Tag.appKeys (bodyKeys c (some i))))
      (optTlv Tag.appKeys (keyStoreImage c i).listField) := by
    rw [keyStoreImage]
    by_cases hn : (c.apps i).numKeySets < dfcKeySetMinimumCount
    · rw [if_pos hn, decide_eq_true hn]
      exact (writes_bodyKeys (some i) fun h => h.keys i hi hn).constructed _
    · rw [if_neg hn, decide_eq_false hn]
      exact Writes.nil
  have hsets : Writes (Encodable c) (wWhen (dfcKeySetMinimumCount ≤ (c.apps i).numKeySets)
      (wConstructed Tag.appKeySets (bodyKeySets c (c.apps i))))
      (optTlv Tag.appKeySets (keyStoreImage c i).setsField) := by
    rw [keyStoreImage]
    by_cases hn : (c.apps i).numKeySets < dfcKeySetMinimumCount
    · rw [if_pos hn, decide_eq_false (by omega)]
      exact Writes.nil
    · have hge : dfcKeySetMinimumCount ≤ (c.apps i).numKeySets := by omega
      rw [if_neg hn, decide_eq_true hge]
      exact (writes_bodyKeySets (fun h : Encodable c => h.metadata i hi hge)
        fun h => h.setKeys i hi hge).constructed _
  simp only [appComponents, appImage, map_whenSet]
  exact .fields (.cons (writes_tlv _ _) (.cons (.when fun _ => writes_tlv _ _) (.cons hname
    (.cons (writes_tlv _ _) (.cons (writes_tlv _ _) (.cons (writes_int _ _) (.cons hkeys
    (.cons (hfiles.constructed _) (.cons hsets (.cons (.when fun _ => writes_tlv _ _)
    (.cons (.when fun _ => (writes_bodyDelegated _).constructed _)
    (.cons (.when fun _ => writes_tlv _ _)
    (.cons (.when fun _ => writes_int _ _) .nil)))))))))))))

theorem writes_bodyCredential (c : DfcCredential) :
    Writes (Encodable c) (bodyCredential c)
      (encFields (imageComponents dfcFormatVersion (imageOf c))) := by
  have happs : Writes (Encodable c) (bodyApps c) (encItems (appItems (imageOf c).apps)) := by
    rw [appItems, imageOf, List.map_map]
    exact Writes.items fun i hi => (writes_bodyApp hi).constructed _
  exact .fields (.cons (writes_int _ _) (.cons ((writes_bodyCard c).constructed _)
    (.cons (writes_bodyPicc.constructed _) (.cons (happs.constructed _) .nil))))

theorem probe_room {n : ℕ} (h : n ≤ 0xFFFF) : probeWriter.Room n := by
  simp only [Writer.Room, probeWriter, sizeMax]
  omega

/-- The header of the outermost component, counted. -/
theorem outer_header (n : ℕ) :
    let w := probeWriter |> wByte Tag.credential |> wLen n
    (0xFFFF < n → w.overflow = true) ∧
      (n ≤ 0xFFFF → w.overflow = false ∧ w.len = 2 + lenExtra n) := by
  intro w
  constructor
  · intro h
    simp only [w, wLen]
    rw [if_neg (by omega), if_neg (by omega), if_neg (by omega)]
  · intro h
    have hx := length_encLen h
    have hle : lenExtra n ≤ 2 := by
      unfold lenExtra
      split_ifs <;> omega
    have hw : w = probeWriter.append ([Tag.credential] ++ encLen n) :=
      ((writes_byte (p := True) Tag.credential).seq (writes_len h)).fits trivial probeWriter rfl
        (by simp [hx]; omega) (probe_room (by simp [hx]; omega))
    rw [hw]
    refine ⟨rfl, ?_⟩
    simp only [Writer.append, probeWriter, List.length_append, List.length_singleton, hx]
    omega

/-- The size the encoder announces is the length of the octets. -/
theorem dfcDerEncodedSize_eq_ok {c : DfcCredential} {n : ℕ} :
    dfcDerEncodedSize c = .ok n ↔ modelCheck c = .ok () ∧
      (bodyCredential c probeWriter).overflow = false ∧
      n = (encImage dfcFormatVersion (imageOf c)).length ∧ n ≤ dfcDerMaxSize := by
  have hdef : dfcDerEncodedSize c = .ok n ↔ modelCheck c = .ok () ∧
      (bodyCredential c probeWriter).overflow = false ∧
      (probeWriter |> wByte Tag.credential |> wLen (bodyCredential c probeWriter).len).overflow =
        false ∧
      (probeWriter |> wByte Tag.credential |> wLen (bodyCredential c probeWriter).len).len +
        (bodyCredential c probeWriter).len = n ∧ n ≤ dfcDerMaxSize := by
    simp only [dfcDerEncodedSize, bind_eq_ok, refuseIf_eq_ok, pure_eq_ok, Bool.not_eq_true,
      not_lt]
    constructor
    · rintro ⟨u, h₁, u, h₂, u, h₃, u, h₄, h₅⟩
      exact ⟨h₁, h₂, h₃, h₅, h₅ ▸ h₄⟩
    · rintro ⟨h₁, h₂, h₃, h₅, h₄⟩
      exact ⟨(), h₁, (), h₂, (), h₃, (), h₅ ▸ h₄, h₅⟩
  rw [hdef]
  refine and_congr_right fun _ => and_congr_right fun hover => ?_
  have hbody : bodyCredential c probeWriter =
      probeWriter.append (encFields (imageComponents dfcFormatVersion (imageOf c))) := by
    rcases (writes_bodyCredential c).exact probeWriter rfl with ho | he
    · rw [ho] at hover
      exact absurd hover (by simp)
    · exact he
  set body := encFields (imageComponents dfcFormatVersion (imageOf c)) with hb
  have hlen : (bodyCredential c probeWriter).len = body.length := by
    rw [hbody]
    simp [Writer.append, probeWriter]
  rw [hlen, encImage, ← hb]
  obtain ⟨hbig, hsmall⟩ := outer_header body.length
  have hge := length_body_le Tag.credential body
  by_cases h : body.length ≤ 0xFFFF
  · obtain ⟨ho, hl⟩ := hsmall h
    rw [ho, hl, length_encTlv _ h]
    simp only [true_and]
    refine and_congr_left fun _ => ?_
    omega
  · rw [hbig (by omega)]
    simp only [Bool.true_eq_false, false_and, false_iff, not_and, dfcDerMaxSize]
    omega

theorem dfcDerEncode_eq_ok {c : DfcCredential} {out : Mem} {cap : ℕ} {b : List UInt8}
    (h : dfcDerEncode c out cap = .ok b) :
    modelCheck c = .ok () ∧ b = encImage dfcFormatVersion (imageOf c) ∧
      b.length ≤ dfcDerMaxSize ∧ b.length ≤ cap := by
  simp only [dfcDerEncode, bind_eq_ok, refuseIf_eq_ok, pure_eq_ok, Bool.not_eq_true,
    not_lt] at h
  obtain ⟨n, hn, u, hcap, u', hover, rfl⟩ := h
  obtain ⟨hcheck, -, hlen, hmax⟩ := dfcDerEncodedSize_eq_ok.mp hn
  rcases ((writes_bodyCredential c).constructed Tag.credential).exact
    { buf := some out, cap := cap, len := 0, overflow := false } rfl with ho | he
  · rw [ho] at hover
    exact absurd hover (by simp)
  · rw [he]
    simp only [Writer.append, Option.map_some, Option.getD_some, Nat.zero_add, Mem.read_write_self]
    rw [hlen] at hcap hmax
    exact ⟨hcheck, rfl, hmax, hcap⟩

theorem dfcDerEncode_of_encodable {c : DfcCredential} (hcheck : modelCheck c = .ok ())
    (henc : Encodable c) {cap : ℕ} (out : Mem)
    (hmax : (encImage dfcFormatVersion (imageOf c)).length ≤ dfcDerMaxSize)
    (hcap : (encImage dfcFormatVersion (imageOf c)).length ≤ cap) :
    dfcDerEncode c out cap = .ok (encImage dfcFormatVersion (imageOf c)) := by
  have hbody := length_body_le Tag.credential
    (encFields (imageComponents dfcFormatVersion (imageOf c)))
  rw [← encImage] at hbody
  have hfits := (writes_bodyCredential c).fits henc probeWriter rfl
    (by simp only [dfcDerMaxSize] at hmax; omega)
    (probe_room (by simp only [dfcDerMaxSize] at hmax; omega))
  have hsize : dfcDerEncodedSize c = .ok (encImage dfcFormatVersion (imageOf c)).length :=
    dfcDerEncodedSize_eq_ok.mpr ⟨hcheck, by rw [hfits]; rfl, rfl, hmax⟩
  have hw := ((writes_bodyCredential c).constructed Tag.credential).fits henc
    { buf := some out, cap := cap, len := 0, overflow := false } rfl hmax
    (by
      simp only [Writer.Room, sizeMax, Nat.zero_add]
      simp only [dfcDerMaxSize] at hmax
      exact ⟨hcap, hmax.trans (by omega)⟩)
  simp only [dfcDerEncode, bind_eq_ok, refuseIf_eq_ok, pure_eq_ok, Bool.not_eq_true, not_lt]
  refine ⟨_, hsize, (), hcap, (), ?_, ?_⟩
  · rw [hw]
    rfl
  · rw [hw]
    simp only [Writer.append, Option.map_some, Option.getD_some, Nat.zero_add, Mem.read_write_self]
    rfl

end DfcCore
