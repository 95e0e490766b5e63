import DfcCore.DerLoadCredential
import DfcCore.SdmFlags

/-!
# Reading back files

The image of a loaded file is the image it was loaded from.
-/
namespace DfcCore
open Der

/-- The fields `decode_sdm` assigns besides the flags. -/
def sdmData (data : DfcDataFileState) (s : SdmImage) : DfcDataFileState :=
  { data with
    sdm := { data.sdm with
      options := s.options
      accessRights := s.accessRights
      uidOffset := s.uidOffset.getD data.sdm.uidOffset
      counterOffset := s.counterOffset.getD data.sdm.counterOffset
      piccDataOffset := s.piccDataOffset.getD data.sdm.piccDataOffset
      macInputOffset := s.macInputOffset.getD data.sdm.macInputOffset
      macOffset := s.macOffset.getD data.sdm.macOffset
      encryptedFileOffset := (s.encryptedFile.map Prod.fst).getD data.sdm.encryptedFileOffset
      encryptedFileLength := (s.encryptedFile.map Prod.snd).getD data.sdm.encryptedFileLength
      counterLimit := s.counterLimit.getD data.sdm.counterLimit }
    sdmReadCounter := s.readCounter }

theorem noFlags_storeSdm (file : DfcFile) (s : SdmImage) :
    (storeSdm file s).noFlags = (file.withData (sdmData file.state.data s)).noFlags := by
  simp only [storeSdm, noFlags_flagSet, sdmData]

/-- The flags a stored SDM image sets. -/
def SdmImage.flag (s : SdmImage) : DfcSdmFlag → Bool
  | .enabled => true
  | .uidOffset => s.uidOffset.isSome
  | .counterOffset => s.counterOffset.isSome
  | .piccDataOffset => s.piccDataOffset.isSome
  | .macInputOffset => s.macInputOffset.isSome
  | .encryptedFile => s.encryptedFile.isSome
  | .macOffset => s.macOffset.isSome
  | .counterLimit => s.counterLimit.isSome

theorem sdmFlagIsSet_storeSdm {file : DfcFile} (ht : file.type = dfcFileTypeStandardData)
    (s : SdmImage) (flag : DfcSdmFlag) :
    dfcFileSdmFlagIsSet (storeSdm file s) flag = s.flag flag := by
  have ht' : (file.withData (sdmData file.state.data s)).type = dfcFileTypeStandardData := ht
  simp only [sdmData] at ht'
  simp only [storeSdm]
  cases flag <;>
    simp only [sdmFlagIsSet_flagSet, type_flagSet, ht', reduceCtorEq, if_true, if_false,
      SdmImage.flag]

theorem whenSet_getD {α : Type} (o : Option α) (d : α) : whenSet o.isSome (o.getD d) = o := by
  cases o <;> rfl

theorem sdmImage_storeSdm {file : DfcFile} (ht : file.type = dfcFileTypeStandardData)
    (s : SdmImage) : sdmImage (storeSdm file s) = s := by
  have hdata : (storeSdm file s).noFlags.state.data =
      (file.withData (sdmData file.state.data s)).noFlags.state.data := by
    rw [noFlags_storeSdm]
  have hread (f : DfcFile) : sdmImage f =
      let sdm := f.noFlags.state.data.sdm
      { options := sdm.options
        accessRights := sdm.accessRights
        uidOffset := whenSet (dfcFileSdmFlagIsSet f .uidOffset) sdm.uidOffset
        counterOffset := whenSet (dfcFileSdmFlagIsSet f .counterOffset) sdm.counterOffset
        piccDataOffset := whenSet (dfcFileSdmFlagIsSet f .piccDataOffset) sdm.piccDataOffset
        macInputOffset := whenSet (dfcFileSdmFlagIsSet f .macInputOffset) sdm.macInputOffset
        macOffset := whenSet (dfcFileSdmFlagIsSet f .macOffset) sdm.macOffset
        encryptedFile := whenSet (dfcFileSdmFlagIsSet f .encryptedFile)
          (sdm.encryptedFileOffset, sdm.encryptedFileLength)
        counterLimit := whenSet (dfcFileSdmFlagIsSet f .counterLimit) sdm.counterLimit
        readCounter := f.noFlags.state.data.sdmReadCounter } := rfl
  rw [hread, hdata]
  simp only [sdmFlagIsSet_storeSdm ht, SdmImage.flag, DfcFile.noFlags, DfcFile.withData, sdmData,
    whenSet_getD]
  have henc : whenSet s.encryptedFile.isSome
      ((s.encryptedFile.map Prod.fst).getD file.state.data.sdm.encryptedFileOffset,
        (s.encryptedFile.map Prod.snd).getD file.state.data.sdm.encryptedFileLength) =
      s.encryptedFile := by
    cases s.encryptedFile <;> rfl
  rw [henc]

/-- The octets the contents keep in the file pool. -/
def ContentsImage.octets : ContentsImage → List UInt8
  | .data _ known _ => known
  | .record _ _ _ _ records => records.flatten
  | _ => []

/-- The record of a file with its contents, without the slice. -/
def fillContents (file : DfcFile) : ContentsImage → DfcFile
  | .data size _ complete =>
    (file.withData { file.state.data with declaredSize := size }).withComplete complete
  | .value lower upper current limited limit =>
    file.withValue
      { file.state.value with
        lowerLimit := lower
        upperLimit := upper
        current := current
        limitedCredit := limited
        limitedCreditValue := limit.getD file.state.value.limitedCreditValue }
  | .record size maxRecords count complete _ =>
    (file.withRecord { size := size, maxRecords := maxRecords, count := count }).withComplete
      complete
  | .transactionMac counter mac keyType keyVersion key readerId =>
    let t := file.state.transactionMac
    file.withTransactionMac
      { counter := counter
        mac := t.mac.write 0 mac
        keyType := keyType
        keyVersion := keyVersion
        key := t.key.write 0 key
        previousReaderId := t.previousReaderId.write 0 readerId }

/-- The slice of a record. -/
def DfcFile.withSlice (file : DfcFile) (used : ℕ) (octets : List UInt8) : DfcFile :=
  if octets = [] then file else { file with dataOffset := used, dataLen := octets.length }

def fillSdm (file : DfcFile) : Option SdmImage → DfcFile
  | none => file
  | some s => storeSdm file s

/-- The record of a loaded file whose octets start at `used`. -/
def loadedFile (owner used : ℕ) (x : FileImage) : DfcFile :=
  fillSdm ((fillContents (newFile owner x) x.contents).withSlice used x.contents.octets) x.sdm

theorem loadContents_eq (c : DfcCredential) (i : ℕ) (x : ContentsImage) :
    loadContents c i x =
      { c.modifyFile i fun file => (fillContents file x).withSlice c.filePoolUsed x.octets with
        filePool := c.filePool.write c.filePoolUsed x.octets
        filePoolUsed := c.filePoolUsed + x.octets.length } := by
  have hplace (f : DfcFile → DfcFile) (octets : Slice) : placeOctets (c.modifyFile i f) i octets =
      { c.modifyFile i fun file => (f file).withSlice c.filePoolUsed octets with
        filePool := c.filePool.write c.filePoolUsed octets
        filePoolUsed := c.filePoolUsed + octets.length } := by
    rw [placeOctets]
    split_ifs with h
    · simp [h, DfcFile.withSlice, DfcCredential.modifyFile]
    · simp [h, DfcFile.withSlice, DfcCredential.modifyFile]
  cases x with
  | data size known complete => exact hplace _ known
  | value =>
    simp [loadContents, fillContents, ContentsImage.octets, DfcFile.withSlice,
      DfcCredential.modifyFile]
  | record size maxRecords count complete records => exact hplace _ records.flatten
  | transactionMac =>
    simp [loadContents, fillContents, ContentsImage.octets, DfcFile.withSlice,
      DfcCredential.modifyFile]

/-- Loading a file appends its record and its octets. -/
theorem loadFile_eq (owner : ℕ) (c : DfcCredential) (x : FileImage) :
    loadFile owner c x =
      { c with
        files := Function.update c.files c.numFiles (loadedFile owner c.filePoolUsed x)
        numFiles := c.numFiles + 1
        filePool := c.filePool.write c.filePoolUsed x.contents.octets
        filePoolUsed := c.filePoolUsed + x.contents.octets.length } := by
  have hsdm (c : DfcCredential) (o : Option SdmImage) :
      loadSdm c c.numFiles o = c.modifyFile c.numFiles fun file => fillSdm file o := by
    cases o with
    | none => simp [loadSdm, fillSdm, DfcCredential.modifyFile]
    | some s => rfl
  have hload : loadFile owner c x = countFile (loadSdm (loadContents
      (c.modifyFile c.numFiles fun _ => newFile owner x) c.numFiles x.contents) c.numFiles x.sdm) :=
    rfl
  have hnum : c.numFiles = (loadContents
      (c.modifyFile c.numFiles fun _ => newFile owner x) c.numFiles
      x.contents).numFiles := by
    rw [loadContents_numFiles]
    rfl
  rw [hload]
  conv_lhs => arg 1; arg 2; rw [hnum]
  rw [hsdm, loadContents_eq]
  simp only [countFile, DfcCredential.modifyFile, Function.update_self, Function.update_idem,
    loadedFile]

/-- An image that no other one shares its record with: a limited-credit value of zero is
not recorded. -/
def ContentsImage.Canonical : ContentsImage → Prop
  | .value _ _ _ _ limit => limit ≠ some 0
  | _ => True

/-- Where the octets of a loaded file stand. -/
structure SlicePlaced (c : DfcCredential) (used : ℕ) (octets : List UInt8) : Prop where
  read : c.filePool.read used octets.length = octets
  fits : used + octets.length ≤ c.filePoolUsed
  bound : octets ≠ [] → used ≠ dfcFilePoolNone

theorem fileData_withSlice {c : DfcCredential} {used : ℕ} {octets : List UInt8}
    (h : SlicePlaced c used octets) (file : DfcFile) (hf : NoSlice file) :
    dfcFileData c (file.withSlice used octets) = if octets = [] then none else some used := by
  rw [DfcFile.withSlice]
  split_ifs with hnil
  · rw [dfcFileData, hf.1, if_pos (Or.inl rfl)]
  · have hlen : octets.length ≠ 0 := fun h0 => hnil (List.eq_nil_of_length_eq_zero h0)
    have hfit := h.fits
    rw [dfcFileData]
    dsimp only
    rw [if_neg (by simp [h.bound hnil, hlen]), if_neg (by omega)]

theorem dataLen_withSlice (used : ℕ) (octets : List UInt8) (file : DfcFile) (hf : NoSlice file) :
    (file.withSlice used octets).dataLen = octets.length := by
  rw [DfcFile.withSlice]
  split_ifs with hnil
  · rw [hnil, hf.2]
    rfl
  · rfl

theorem knownContents_withSlice {c : DfcCredential} {used : ℕ} {octets : List UInt8}
    (h : SlicePlaced c used octets) (file : DfcFile) (hf : NoSlice file) :
    knownContents c (file.withSlice used octets) = octets := by
  rw [knownContents, fileData_withSlice h file hf]
  split_ifs with hnil
  · exact hnil.symm
  · dsimp only
    rw [dataLen_withSlice used octets file hf, h.read]

/-- The records of a slice. -/
theorem records_read {m : Mem} {off size : ℕ} {records : List (List UInt8)}
    (hl : ∀ r ∈ records, r.length = size)
    (hread : m.read off records.flatten.length = records.flatten) :
    (List.range records.length).map (fun i => m.read (off + i * size) size) = records := by
  induction records generalizing off with
  | nil => rfl
  | cons r records ih =>
    rw [List.forall_mem_cons] at hl
    rw [List.flatten_cons, List.length_append, Mem.read_add, hl.1] at hread
    obtain ⟨hhead, htail⟩ := List.append_inj hread (by rw [Mem.length_read, hl.1])
    rw [List.length_cons, List.range_succ_eq_map, List.map_cons, List.map_map, Nat.zero_mul,
      Nat.add_zero, hhead]
    congr 1
    conv_rhs => rw [← ih hl.2 htail]
    apply List.map_congr_left
    intro i _
    simp only [Function.comp_apply, Nat.succ_eq_add_one, Nat.succ_mul]
    congr 1
    omega

theorem contentsImage_loaded {c : DfcCredential} {x : FileImage} {owner used : ℕ}
    {c₀ : DfcCredential}
    (hx : x.contents.Loadable c₀ x.type) (hcanon : x.contents.Canonical)
    (hplaced : SlicePlaced c used x.contents.octets) :
    contentsImage c ((fillContents (newFile owner x) x.contents).withSlice used x.contents.octets) =
      x.contents := by
  obtain ⟨number, type, comm, rights, fid, contents, sdm⟩ := x
  obtain ⟨-, hrecord⟩ := contents_kind type
  have htype (file : DfcFile) (octets : List UInt8) :
      (file.withSlice used octets).type = file.type := by
    rw [DfcFile.withSlice]
    split_ifs <;> rfl
  have hstate (file : DfcFile) (octets : List UInt8) :
      (file.withSlice used octets).state = file.state := by
    rw [DfcFile.withSlice]
    split_ifs <;> rfl
  have hcomplete (file : DfcFile) (octets : List UInt8) :
      (file.withSlice used octets).contentsComplete = file.contentsComplete := by
    rw [DfcFile.withSlice]
    split_ifs <;> rfl
  dsimp only at hx hcanon hplaced ⊢
  cases contents with
  | data size known complete =>
    have ht : dfcFileTypeIsData type = true := hx.1
    have hknown := knownContents_withSlice hplaced (fillContents (newFile owner
      ⟨number, type, comm, rights, fid, .data size known complete, sdm⟩)
      (.data size known complete)) ⟨rfl, rfl⟩
    simp only [contentsImage, htype, hstate, hcomplete, hknown]
    simp only [fillContents, newFile, DfcFile.withComplete, DfcFile.withData, ht, if_true,
      ContentsImage.octets]
  | value lower upper current limited limit =>
    have ht : type = dfcFileTypeValue := hx.1
    subst ht
    have hlimit : whenSet (limit.getD 0 != 0) (limit.getD 0) = limit := by
      cases limit with
      | none => rfl
      | some v =>
        have hv : (v != 0) = true := by
          rw [bne_iff_ne]
          exact fun h => hcanon (by rw [h])
        rw [Option.getD_some, hv]
        rfl
    have hdata : dfcFileTypeIsData dfcFileTypeValue = false := by decide
    simp only [contentsImage, htype, hstate]
    simp only [fillContents, newFile, DfcFile.withValue, hdata, Bool.false_eq_true, if_false,
      beq_self_eq_true, if_true]
    rw [hlimit]
  | record size maxRecords count complete records =>
    obtain ⟨ht, hpos, -, -, -, -, -, hl, hle, hall, -⟩ := hx
    obtain ⟨h₁, h₂, -⟩ := hrecord ht
    have hdataLen := dataLen_withSlice used records.flatten
      (fillContents (newFile owner
        ⟨number, type, comm, rights, fid, .record size maxRecords count complete records, sdm⟩)
        (.record size maxRecords count complete records)) ⟨rfl, rfl⟩
    have hfileData := fileData_withSlice hplaced (fillContents (newFile owner
      ⟨number, type, comm, rights, fid, .record size maxRecords count complete records, sdm⟩)
      (.record size maxRecords count complete records)) ⟨rfl, rfl⟩
    have hflat := length_flatten_of_forall hl
    have hstored : records.flatten.length / size = records.length := by
      rw [hflat, Nat.mul_div_cancel _ hpos]
    have hread := records_read hl hplaced.read
    simp only [ContentsImage.octets] at hfileData hread ⊢
    simp only [contentsImage, htype, hstate, hcomplete, storedRecords, hdataLen, hfileData]
    simp only [fillContents, newFile, DfcFile.withComplete, DfcFile.withRecord, h₁, h₂, ht,
      Bool.false_eq_true, if_false, if_true]
    have hs0 : ¬size = 0 := by omega
    have hle' : ¬count < records.length := by omega
    simp only [hs0, if_false, hstored, hle']
    congr 1
    by_cases hnil : records.flatten = []
    · have hz : records.length = 0 := by
        rw [hnil, List.length_nil] at hstored
        simpa using hstored.symm
      rw [List.eq_nil_of_length_eq_zero hz]
      rfl
    · simp only [hnil, if_false, Option.getD_some]
      exact hread
  | transactionMac counter mac keyType keyVersion key readerId =>
    obtain ⟨ht, h₁, h₂, h₃⟩ := hx
    subst ht
    have hdata : dfcFileTypeIsData dfcFileTypeTransactionMac = false := by decide
    have hvalue : (dfcFileTypeTransactionMac == dfcFileTypeValue) = false := by decide
    have hrec : dfcFileTypeIsRecord dfcFileTypeTransactionMac = false := by decide
    simp only [contentsImage, htype, hstate]
    simp only [fillContents, newFile, DfcFile.withTransactionMac, hdata, hvalue, hrec,
      Bool.false_eq_true, if_false, Mem.read_write_self' h₁, Mem.read_write_self' h₂,
      Mem.read_write_self' h₃]

/-- The contents do not depend on secure dynamic messaging. -/
theorem contentsImage_congr {c : DfcCredential} {f g : DfcFile} (htype : f.type = g.type)
    (hsize : f.state.data.declaredSize = g.state.data.declaredSize)
    (hvalue : f.state.value = g.state.value) (hrecord : f.state.record = g.state.record)
    (hmac : f.state.transactionMac = g.state.transactionMac) (ho : f.dataOffset = g.dataOffset)
    (hl : f.dataLen = g.dataLen) (hcomplete : f.contentsComplete = g.contentsComplete) :
    contentsImage c f = contentsImage c g := by
  simp only [contentsImage, knownContents, dfcFileData, storedRecords, htype, hsize,
    hvalue, hrecord, hmac, ho, hl, hcomplete]

theorem contentsImage_noFlags (c : DfcCredential) (f : DfcFile) :
    contentsImage c f.noFlags = contentsImage c f :=
  contentsImage_congr rfl rfl rfl rfl rfl rfl rfl rfl

theorem contentsImage_fillSdm (c : DfcCredential) (file : DfcFile) (o : Option SdmImage) :
    contentsImage c (fillSdm file o) = contentsImage c file := by
  cases o with
  | none => rfl
  | some s =>
    have hdata : contentsImage c (file.withData (sdmData file.state.data s)) =
        contentsImage c file :=
      contentsImage_congr rfl rfl rfl rfl rfl rfl rfl rfl
    rw [fillSdm, ← contentsImage_noFlags, noFlags_storeSdm, contentsImage_noFlags, hdata]

/-- A file without its contents. -/
def DfcFile.head (file : DfcFile) : DfcFile :=
  { file with dataOffset := 0, dataLen := 0, contentsComplete := false, state := {} }

theorem head_noFlags (file : DfcFile) : file.noFlags.head = file.head := rfl

theorem head_loadedFile (owner used : ℕ) (x : FileImage) :
    (loadedFile owner used x).head = (newFile owner x).head := by
  have hslice (file : DfcFile) (octets : List UInt8) :
      (file.withSlice used octets).head = file.head := by
    rw [DfcFile.withSlice]
    split_ifs <;> rfl
  have hcontents (file : DfcFile) (y : ContentsImage) : (fillContents file y).head = file.head := by
    cases y <;> rfl
  have hsdm (file : DfcFile) (o : Option SdmImage) : (fillSdm file o).head = file.head := by
    cases o with
    | none => rfl
    | some s =>
      have hdata : (file.withData (sdmData file.state.data s)).head = file.head := rfl
      rw [fillSdm, ← head_noFlags, noFlags_storeSdm, head_noFlags, hdata]
  rw [loadedFile, hsdm, hslice, hcontents]

theorem flagIsSet_loadedFile {owner used : ℕ} {x : FileImage}
    (hsdm : ∀ s ∈ x.sdm, x.type = dfcFileTypeStandardData ∧ s.Loadable) :
    whenSet (dfcFileSdmFlagIsSet (loadedFile owner used x) .enabled)
      (sdmImage (loadedFile owner used x)) = x.sdm := by
  have hflags : ((fillContents (newFile owner x) x.contents).withSlice used
      x.contents.octets).state.data.sdm.flags = 0 := by
    rw [DfcFile.withSlice]
    split_ifs <;> cases x.contents <;> rfl
  have htype : ((fillContents (newFile owner x) x.contents).withSlice used
      x.contents.octets).type = x.type := by
    rw [DfcFile.withSlice]
    split_ifs <;> cases x.contents <;> rfl
  rw [loadedFile]
  cases hs : x.sdm with
  | none =>
    have hclear : dfcFileSdmFlagIsSet ((fillContents (newFile owner x) x.contents).withSlice used
        x.contents.octets) .enabled = false := by
      rw [dfcFileSdmFlagIsSet, dfcSdmFlagIsSet, hflags]
      simp [DfcSdmFlag.bit]
    rw [fillSdm, hclear]
    rfl
  | some s =>
    have ht := htype.trans (hsdm s hs).1
    rw [fillSdm, sdmFlagIsSet_storeSdm ht, sdmImage_storeSdm ht]
    rfl

/-- The image of a loaded file is the image it was loaded from. -/
theorem fileImage_loadedFile {c c₀ : DfcCredential} {owner used : ℕ} {x : FileImage}
    (hx : x.contents.Loadable c₀ x.type)
    (hsdm : ∀ s ∈ x.sdm, x.type = dfcFileTypeStandardData ∧ s.Loadable)
    (hcanon : x.contents.Canonical) (hplaced : SlicePlaced c used x.contents.octets) :
    fileImage c (loadedFile owner used x) = x := by
  have hhead := head_loadedFile owner used x
  have hnumber : (loadedFile owner used x).number = x.number := congrArg DfcFile.number hhead
  have htype : (loadedFile owner used x).type = x.type := congrArg DfcFile.type hhead
  have hcomm : (loadedFile owner used x).commSettings = x.commSettings :=
    congrArg DfcFile.commSettings hhead
  have hrights : (loadedFile owner used x).accessRights = x.accessRights :=
    congrArg DfcFile.accessRights hhead
  have hhas : (loadedFile owner used x).hasIsoFileId = x.isoFileId.isSome :=
    congrArg DfcFile.hasIsoFileId hhead
  have hfid : (loadedFile owner used x).isoFileId = x.isoFileId.getD 0 :=
    congrArg DfcFile.isoFileId hhead
  have hcontents : contentsImage c (loadedFile owner used x) = x.contents := by
    rw [loadedFile, contentsImage_fillSdm]
    exact contentsImage_loaded hx hcanon hplaced
  rw [fileImage, hnumber, htype, hcomm, hrights, hhas, hfid, hcontents, whenSet_getD,
    flagIsSet_loadedFile hsdm]

end DfcCore
