import DfcCore.DerLoadCredential

/-!
# What a loaded card starts with

A card image holds no trace of a transaction: on a card the decoder has just loaded no file
is marked and no value is pending, and every file has passed the model check.
-/
namespace DfcCore
open Der

/-- Nothing of an open transaction shows in the record. -/
structure DfcFile.Quiet (file : DfcFile) : Prop where
  transactionPending : file.transactionPending = false
  pending : file.state.value.pending = false
  limitedCreditPending : file.state.value.limitedCreditPending = 0

def Quiet (c : DfcCredential) : Prop := ∀ i, (c.files i).Quiet

theorem quiet_default : ({} : DfcFile).Quiet := ⟨rfl, rfl, rfl⟩

theorem Quiet.modifyFile {c : DfcCredential} (h : Quiet c) {i : ℕ} {f : DfcFile → DfcFile}
    (hf : (c.files i).Quiet → (f (c.files i)).Quiet) : Quiet (c.modifyFile i f) := by
  intro j
  rw [modifyFile_files]
  split_ifs with hj
  · exact hf (h i)
  · exact h j

theorem Quiet.placeOctets {c : DfcCredential} (h : Quiet c) (i : ℕ) (octets : Slice) :
    Quiet (placeOctets c i octets) := by
  unfold DfcCore.placeOctets
  split_ifs
  · exact h
  · exact h.modifyFile (f := fun file =>
      { file with dataOffset := c.filePoolUsed, dataLen := octets.length })
      fun hq => ⟨hq.1, hq.2, hq.3⟩

theorem Quiet.loadContents {c : DfcCredential} (h : Quiet c) (i : ℕ) (x : ContentsImage) :
    Quiet (loadContents c i x) := by
  cases x with
  | data size known complete =>
    rw [DfcCore.loadContents]
    exact Quiet.placeOctets (h.modifyFile fun hq => ⟨hq.1, hq.2, hq.3⟩) i known
  | value lower upper current limited limit =>
    rw [DfcCore.loadContents]
    exact h.modifyFile fun hq => ⟨hq.1, hq.2, hq.3⟩
  | record size maxRecords count complete records =>
    rw [DfcCore.loadContents]
    exact Quiet.placeOctets (h.modifyFile fun hq => ⟨hq.1, hq.2, hq.3⟩) i records.flatten
  | transactionMac counter mac keyType keyVersion key readerId =>
    rw [DfcCore.loadContents]
    exact h.modifyFile fun hq => ⟨hq.1, hq.2, hq.3⟩

theorem DfcFile.Quiet.sdmFlagSet {file : DfcFile} (h : file.Quiet) (flag : DfcSdmFlag)
    (enabled : Bool) : (dfcFileSdmFlagSet file flag enabled).Quiet := by
  unfold dfcFileSdmFlagSet
  split_ifs
  · exact h
  · exact ⟨h.1, h.2, h.3⟩

theorem DfcFile.Quiet.storeSdm {file : DfcFile} (h : file.Quiet) (s : SdmImage) :
    (storeSdm file s).Quiet := by
  have hdata : (file.withData { file.state.data with
      sdm := { file.state.data.sdm with
        options := s.options
        accessRights := s.accessRights
        uidOffset := s.uidOffset.getD file.state.data.sdm.uidOffset
        counterOffset := s.counterOffset.getD file.state.data.sdm.counterOffset
        piccDataOffset := s.piccDataOffset.getD file.state.data.sdm.piccDataOffset
        macInputOffset := s.macInputOffset.getD file.state.data.sdm.macInputOffset
        macOffset := s.macOffset.getD file.state.data.sdm.macOffset
        encryptedFileOffset :=
          (s.encryptedFile.map Prod.fst).getD file.state.data.sdm.encryptedFileOffset
        encryptedFileLength :=
          (s.encryptedFile.map Prod.snd).getD file.state.data.sdm.encryptedFileLength
        counterLimit := s.counterLimit.getD file.state.data.sdm.counterLimit }
      sdmReadCounter := s.readCounter }).Quiet := ⟨h.1, h.2, h.3⟩
  unfold DfcCore.storeSdm
  exact (((((((hdata.sdmFlagSet _ _).sdmFlagSet _ _).sdmFlagSet _ _).sdmFlagSet _ _).sdmFlagSet
    _ _).sdmFlagSet _ _).sdmFlagSet _ _).sdmFlagSet _ _

theorem Quiet.loadSdm {c : DfcCredential} (h : Quiet c) (i : ℕ) (sdm : Option SdmImage) :
    Quiet (loadSdm c i sdm) := by
  cases sdm with
  | none => exact h
  | some s => exact h.modifyFile (f := fun file => DfcCore.storeSdm file s) fun hq => hq.storeSdm s

theorem Quiet.loadFile {c : DfcCredential} (h : Quiet c) (owner : ℕ) (x : FileImage) :
    Quiet (loadFile owner c x) := by
  have hnew : Quiet (c.modifyFile c.numFiles fun _ => newFile owner x) :=
    h.modifyFile fun _ => ⟨rfl, rfl, rfl⟩
  exact (hnew.loadContents c.numFiles x.contents).loadSdm c.numFiles x.sdm

theorem Quiet.foldl {α : Type} {f : DfcCredential → α → DfcCredential}
    (hf : ∀ c a, Quiet c → Quiet (f c a)) {c : DfcCredential} (h : Quiet c) (l : List α) :
    Quiet (l.foldl f c) := by
  induction l generalizing c with
  | nil => exact h
  | cons a l ih => exact ih (hf c a h)

theorem placeKeys_files (c : DfcCredential) (app : Option ℕ) (keyLen : ℕ) (keys : List KeyImage) :
    (placeKeys c app keyLen keys).files = c.files := by
  unfold placeKeys noKeys storeKeys storeKeyVersions reserveKeys
  split_ifs <;> cases app <;> rfl

theorem placeKeyStore_files (c : DfcCredential) (i : ℕ) (keys : KeyStoreImage) :
    (placeKeyStore c i keys).files = c.files := by
  cases keys with
  | list keys => exact placeKeys_files c (some i) _ keys
  | sets keyCount maxSize settings sets =>
    rw [placeKeyStore, placeKeySets, putMems]
    rfl

theorem Quiet.loadApp {c : DfcCredential} (h : Quiet c) (version : ℕ) (a : AppImage) :
    Quiet (loadApp version c a) := by
  refine Quiet.foldl (fun c x hc => hc.loadFile _ x) ?_ a.files
  intro i
  have hfiles : (loadAppRecord version c a).files = c.files :=
    placeKeyStore_files (c.modifyApp c.numApps fun app =>
      storeAppSettings version app a.toAppSettingsImage) c.numApps a.keys
  rw [hfiles]
  exact h i

theorem loadGroup_files {α : Type} {store : DfcCredential → α → DfcCredential}
    (hstore : ∀ c a, (store c a).files = c.files) (c : DfcCredential) (group : Option α) :
    (loadGroup store c group).files = c.files := by
  cases group with
  | none => rfl
  | some a => exact hstore c a

theorem loadPicc_files (version : ℕ) (c : DfcCredential) (p : PiccImage) :
    (loadPicc version c p).files = c.files := by
  unfold loadPicc
  dsimp only
  have hdam (c : DfcCredential) (d : DamImage) : (storeDam c d).files = c.files := rfl
  have hvcard (c : DfcCredential) (v : VirtualCardImage) : (storeVirtualCard c v).files = c.files :=
    rfl
  have hproximity (c : DfcCredential) (x : ProximityImage) : (storeProximity c x).files = c.files :=
    rfl
  rw [loadGroup_files hdam, loadGroup_files hvcard, loadGroup_files hproximity]
  exact placeKeys_files _ none _ p.keys

/-- A card the decoder has loaded is quiet and passes the model check. -/
theorem decodeCredential_quiet {input : Slice} {c : DfcCredential}
    (h : decodeCredential input = .ok c) : Quiet c ∧ modelCheck c = .ok () := by
  obtain ⟨version, w, -, -, -, hcheck, rfl⟩ := decodeCredential_eq_ok.1 h
  refine ⟨?_, hcheck⟩
  have hpicc : Quiet (loadPicc version (storeCard dfcCredentialClear w.card) w.picc) := by
    intro i
    rw [loadPicc_files]
    exact quiet_default
  have happs := Quiet.foldl (fun c a hc => hc.loadApp version a) hpicc w.apps
  exact Quiet.foldl (fun c x hc => hc.loadFile dfcFileOwnerPicc x) happs w.picc.files

/-- The model check, read at one file. -/
theorem modelFileCheck_of_modelCheck {c : DfcCredential} (h : modelCheck c = .ok ()) {i : ℕ}
    (hi : i < c.numFiles) : modelFileCheck c i = .ok () := by
  unfold modelCheck at h
  simp only [bind_eq_ok, refuseIf_eq_ok, checkEach_eq_ok, exists_and_left, exists_const] at h
  obtain ⟨-, -, -, -, -, -, -, hfiles⟩ := h
  exact hfiles.2 i hi

end DfcCore
