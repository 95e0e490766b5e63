import DfcCore.DerCapacity
import DfcCore.DerInjective
import DfcCore.DerReadBack
import DfcCore.DerStatus
import DfcCore.LoadedCard

/-!
# Saving and loading a card

What the encoder writes and what the decoder reads are two descriptions of one image. A card that
is saved and loaded shows the image it had; a file that is loaded and saved comes out octet for
octet where it is canonical, and otherwise as the canonical file of the same card.
-/
namespace DfcCore
open Der

/-- What is read off a credential is canonical. -/
theorem canonical_imageOf (c : DfcCredential) : (imageOf c).Canonical := by
  have hcontents (f : DfcFile) : (fileImage c f).contents.Canonical := by
    rw [fileImage]
    dsimp only
    rw [contentsImage]
    split_ifs
    · trivial
    · rw [ContentsImage.Canonical]
      cases hv : f.state.value.limitedCreditValue != 0 with
      | false => simp
      | true =>
        rw [bne_iff_ne] at hv
        simpa using hv
    · trivial
    · trivial
  have hfiles (owner : ℕ) : ∀ x ∈ (filesOf c owner).map (fileImage c), x.contents.Canonical := by
    intro x hx
    obtain ⟨f, -, rfl⟩ := List.mem_map.mp hx
    exact hcontents f
  refine ⟨hfiles dfcFileOwnerPicc, fun a ha => ?_⟩
  obtain ⟨i, -, rfl⟩ := List.mem_map.mp ha
  refine ⟨?_, hfiles i⟩
  have hkeys : (appImage c i).keys = keyStoreImage c i := rfl
  rw [hkeys, keyStoreImage]
  split_ifs
  · trivial
  · intro s hs
    obtain ⟨set, -, rfl⟩ := List.mem_map.mp hs
    simp [keySetImage]

/-- The counts of a loadable file are those of the format. -/
theorem ContentsImage.Loadable.sized {c : DfcCredential} {type : UInt8} {x : ContentsImage}
    (h : x.Loadable c type) : x.Sized := by
  cases x with
  | data size known complete =>
    have hsize := h.2.2.1
    simp only [ContentsImage.Sized, IntSized, dfcU24Max] at hsize ⊢
    omega
  | record size maxRecords count complete records =>
    obtain ⟨-, -, hsize, -, hmax, hcount, -⟩ := h
    simp only [ContentsImage.Sized, IntSized, dfcU24Max] at hsize hmax ⊢
    omega
  | value => trivial
  | transactionMac => trivial

theorem forall_of_allFrom {σ α : Type} {cond : σ → α → Prop} {load : σ → α → σ} {p : α → Prop}
    (h : ∀ st a, cond st a → p a) {st : σ} {l : List α} (hl : AllFrom cond load st l) :
    ∀ a ∈ l, p a := by
  induction l generalizing st with
  | nil => simp
  | cons a l ih => exact List.forall_mem_cons.mpr ⟨h st a hl.1, ih hl.2⟩

theorem Image.Loadable.sized {version : ℕ} {w : Image} (h : w.Loadable version) : w.Sized := by
  have hgeneration := h.card.generation.2
  have hprovenance := h.card.uidProvenance
  simp only [dfcGenerationEv3, dfcUidProvenanceUnknown] at hgeneration hprovenance
  refine ⟨by simp only [IntSized]; omega,
    forall_of_allFrom (fun _ _ hx => ContentsImage.Loadable.sized
      (FileImage.Loadable.contents hx)) h.files,
    forall_of_allFrom (fun c a ha => ?_) h.apps⟩
  refine ⟨?_, forall_of_allFrom (fun _ _ hx => ContentsImage.Loadable.sized
    (FileImage.Loadable.contents hx)) ha.files⟩
  have hkeys := ha.keys
  cases hk : a.keys with
  | list => trivial
  | sets keyCount maxSize settings sets =>
    rw [hk] at hkeys
    have hroom := KeySetsLoadable.room hkeys
    have hcount := hroom.perSet.2
    have hwidth := hroom.width
    simp only [dfcMaxKeys] at hcount
    simp only [KeyStoreImage.Sized, IntSized]
    omega

/-- The model check, read at the contents of one file. -/
theorem sized_contentsImage {c : DfcCredential} (h : modelCheck c = .ok ()) {n : ℕ}
    (hn : n < c.numFiles) : (contentsImage c (c.files n)).Sized := by
  have hcheck := modelFileCheck_of_modelCheck h hn
  simp only [modelFileCheck, bind_eq_ok, refuseIf_eq_ok, exists_const] at hcheck
  obtain ⟨-, -, -, -, -, -, -, _, hcontents, -⟩ := hcheck
  rw [contentsImage]
  split_ifs with hdata hvalue hrecord
  · unfold modelContentsCheck at hcontents
    rw [if_pos hdata] at hcontents
    simp only [modelDataCheck, bind_eq_ok, orFail_eq_ok, refuseIf_eq_ok, exists_const,
      dfcFileGetDeclaredSize, hdata, Bool.not_true, Bool.false_eq_true, if_false,
      Option.some.injEq] at hcontents
    obtain ⟨size, rfl, hsize, -⟩ := hcontents
    simp only [dfcU24Max, not_or, not_lt] at hsize
    simp only [ContentsImage.Sized, IntSized]
    omega
  · trivial
  · have hnone : (c.files n).type ≠ dfcFileTypeValue := by simpa using hvalue
    have hmac : (c.files n).type ≠ dfcFileTypeTransactionMac := by
      intro hmac
      rw [hmac] at hrecord
      exact absurd hrecord (by decide)
    unfold modelContentsCheck at hcontents
    rw [if_neg hdata, if_neg hnone, if_neg hmac] at hcontents
    simp only [modelRecordCheck, bind_eq_ok, refuseIf_eq_ok, exists_const] at hcontents
    obtain ⟨hsize, hmax, hcount, -⟩ := hcontents
    simp only [dfcU24Max, not_or, not_lt] at hsize hmax hcount
    simp only [ContentsImage.Sized, IntSized]
    omega
  · trivial

theorem sized_filesOf {c : DfcCredential} (h : modelCheck c = .ok ()) (owner : ℕ) :
    ∀ x ∈ (filesOf c owner).map (fileImage c), x.contents.Sized := by
  intro x hx
  obtain ⟨f, hf, rfl⟩ := List.mem_map.mp hx
  obtain ⟨hmem, -⟩ := List.mem_filter.mp hf
  obtain ⟨n, hn, rfl⟩ := List.mem_map.mp hmem
  exact sized_contentsImage h (List.mem_range.mp hn)

theorem maxKeySize_of_valid {c : DfcCredential} {app : DfcApplication}
    (h : modelKeySetsAreValid c app = true) :
    app.maxKeySize = dfcKeySetMaximum16Byte ∨ app.maxKeySize = dfcKeySetMaximum24Byte := by
  by_contra hneither
  have hmax : app.maxKeySize ≠ dfcKeySetMaximum16Byte ∧ app.maxKeySize ≠ dfcKeySetMaximum24Byte :=
    not_or.mp hneither
  unfold modelKeySetsAreValid at h
  cases htype : dfcCredentialKeySetType c app 0 with
  | none => simp [htype] at h
  | some active =>
    rw [htype] at h
    dsimp only at h
    rw [if_pos hmax] at h
    simp at h

theorem sized_imageOf {c : DfcCredential} (h : modelCheck c = .ok ()) : (imageOf c).Sized := by
  have hcheck := h
  simp only [modelCheck, bind_eq_ok, refuseIf_eq_ok, exists_const, Bool.not_eq_false] at hcheck
  obtain ⟨-, hpools, _, hpicc, -⟩ := hcheck
  simp only [modelPiccCheck, bind_eq_ok, refuseIf_eq_ok, exists_const] at hpicc
  obtain ⟨-, hgeneration, hprovenance, -⟩ := hpicc
  simp only [dfcGenerationEv3, dfcUidProvenanceUnknown, not_or, not_lt] at hgeneration hprovenance
  refine ⟨?_, sized_filesOf h dfcFileOwnerPicc, fun a ha => ?_⟩
  · simp only [imageOf, cardImage, IntSized]
    omega
  · obtain ⟨i, hi, rfl⟩ := List.mem_map.mp ha
    refine ⟨?_, sized_filesOf h i⟩
    have hkeys : (appImage c i).keys = keyStoreImage c i := rfl
    rw [hkeys, keyStoreImage]
    split_ifs with hsets
    · trivial
    · simp only [modelPoolsAreValid, Bool.and_eq_true, List.all_eq_true] at hpools
      obtain ⟨⟨⟨⟨⟨⟨-, hall⟩, -⟩, -⟩, -⟩, -⟩, -⟩ := hpools
      have hslice := (hall i hi).1.1
      simp only [modelKeySliceIsValid, Bool.and_eq_true, decide_eq_true_eq, not_lt.mp hsets,
        if_true] at hslice
      obtain ⟨⟨⟨⟨⟨hcount, -⟩, -⟩, -⟩, hsetsValid, -⟩, -⟩ := hslice
      have hmax := maxKeySize_of_valid hsetsValid
      simp only [dfcKeySetMaximum16Byte, dfcKeySetMaximum24Byte, dfcMaxKeys] at hmax hcount
      simp only [KeyStoreImage.Sized, IntSized]
      omega

/-- The keys of a single set are stored with the length they are looked up by. -/
def DfcApplication.StoredAsRead (a : DfcApplication) : Prop :=
  a.numKeySets < dfcKeySetMinimumCount → a.numKeys ≠ 0 → a.keyStorageLen = a.keyLen

theorem storedAsRead_placeKeyStore {c : DfcCredential} {i : ℕ} {keys : KeyStoreImage}
    (hload : keys.Loadable c i) : ((placeKeyStore c i keys).apps i).StoredAsRead := by
  intro hsets hkeys
  cases keys with
  | list keys =>
    rw [placeKeyStore, placeKeys] at hkeys ⊢
    split_ifs at hkeys ⊢
    · simp [noKeys, DfcCredential.modifyApp, DfcApplication.dropKeys] at hkeys
    · simp [storeKeys, storeKeyVersions, reserveKeys, DfcCredential.modifyApp,
        DfcApplication.reserveKeys]
  | sets keyCount maxSize settings sets =>
    have hcount : ((placeKeySets c i keyCount maxSize settings sets).apps i).numKeySets =
        sets.length := by
      simp [placeKeySets, putMems, reserveKeySets, DfcCredential.modifyApp,
        DfcApplication.reserveKeySets]
    rw [placeKeyStore, hcount] at hsets
    have hmin := (KeySetsLoadable.room hload).sets.1
    omega

/-- Every application of a state of the decode is stored as it is read. -/
theorem storedAsRead_loadApp {version : ℕ} {c : DfcCredential} {a : AppImage} (hc : Loading c)
    (ha : a.Loadable version c) (h : ∀ i < c.numApps, (c.apps i).StoredAsRead) :
    ∀ i < (loadApp version c a).numApps, ((loadApp version c a).apps i).StoredAsRead := by
  obtain ⟨fs, n, pool, used, hfiles⟩ := foldl_loadFile_frame c.numApps a.files
    (loadAppRecord version c a)
  intro i hi
  rw [loadApp, hfiles] at hi ⊢
  dsimp only at hi ⊢
  rw [loadAppRecord_numApps] at hi
  rcases Nat.lt_succ_iff_lt_or_eq.mp hi with hlt | rfl
  · rw [(grown_loadAppRecord hc ha).apps i hlt]
    exact h i hlt
  · have hrecord := storedAsRead_placeKeyStore ha.keys
    have hview := (storeAppTail_views ((placeKeyStore (c.modifyApp c.numApps fun app =>
      storeAppSettings version app a.toAppSettingsImage) c.numApps a.keys).apps c.numApps)
      a.capabilityData a.delegated a.smDisable).1
    have hself : (loadAppRecord version c a).apps c.numApps = storeAppTail ((placeKeyStore
        (c.modifyApp c.numApps fun app => storeAppSettings version app a.toAppSettingsImage)
        c.numApps a.keys).apps c.numApps) a.capabilityData a.delegated a.smDisable := by
      rw [loadAppRecord]
      simp [countApp, DfcCredential.modifyApp]
    intro hsets hkeys
    rw [hself] at hsets hkeys ⊢
    have hlen := hrecord ((congrArg DfcApplication.numKeySets hview :) ▸ hsets)
      ((congrArg DfcApplication.numKeys hview :) ▸ hkeys)
    exact (congrArg DfcApplication.keyStorageLen hview :).trans
      (hlen.trans (congrArg DfcApplication.keyLen hview :).symm)

theorem storageFits_loadImage {version : ℕ} {w : Image} (hw : w.Loadable version) :
    StorageFits (loadImage version w) := by
  have hall (apps : List AppImage) (c : DfcCredential) (hc : Loading c)
      (hl : AllFrom (AppImage.Loadable version) (loadApp version) c apps)
      (h : ∀ i < c.numApps, (c.apps i).StoredAsRead) :
      ∀ i < (apps.foldl (loadApp version) c).numApps,
        ((apps.foldl (loadApp version) c).apps i).StoredAsRead := by
    induction apps generalizing c with
    | nil => exact h
    | cons a apps ih =>
      exact ih _ (hc.loadApp hl.1) hl.2 (storedAsRead_loadApp hc hl.1 h)
  have hnone : (loadPicc version (storeCard dfcCredentialClear w.card) w.picc).numApps = 0 :=
    loadPicc_ind (q := fun c => c.numApps = 0) (fun _ _ h => h) (fun _ _ h => h) (fun _ _ h => h)
      (fun _ _ h => h) (keep_placeKeys (f := DfcCredential.numApps) rfl rfl)
  have hfits := hall w.apps _ (loading_loadPicc hw.picc) hw.apps
    (fun i hi => absurd hi (by rw [hnone]; exact Nat.not_lt_zero i))
  intro i hi hsets hkeys
  obtain ⟨fs, n, pool, used, hfiles⟩ := foldl_loadFile_frame dfcFileOwnerPicc w.picc.files
    (w.apps.foldl (loadApp version) (loadPicc version (storeCard dfcCredentialClear w.card) w.picc))
  rw [loadImage, hfiles] at hi hsets hkeys ⊢
  rw [hfits i hi hsets hkeys]

/-- The image of a card with one value file; a credit of zero is named in it. -/
def zeroCreditImage : Image :=
  let w := imageOf (twoKeyCard 16)
  { w with
    apps := w.apps.map fun a =>
      { a with
        files := [{ number := 1, type := dfcFileTypeValue, commSettings := 0, accessRights := 0,
                    isoFileId := none, contents := .value 0 10 5 0 (some 0), sdm := none }] } }

theorem decodes_of_isSome {b : Slice} (h : (decodeCredential b).toOption.isSome = true) :
    ∃ c, decodeCredential b = .ok c := by
  cases hdecode : decodeCredential b with
  | ok c => exact ⟨c, rfl⟩
  | error status =>
    rw [hdecode] at h
    cases h

theorem decodes_zeroCreditImage :
    ∃ c, decodeCredential (encImage dfcFormatVersion zeroCreditImage) = .ok c :=
  decodes_of_isSome (by decide +kernel)

theorem valid_twoKeyCard : modelCheck (twoKeyCard 16) = .ok () :=
  modelCheck_twoKeyCard (by decide +kernel)

theorem sized_zeroCreditImage : zeroCreditImage.Sized := by
  obtain ⟨hcard, hfiles, happs⟩ := sized_imageOf valid_twoKeyCard
  refine ⟨hcard, hfiles, fun a ha => ?_⟩
  obtain ⟨b, hb, rfl⟩ := List.mem_map.mp ha
  refine ⟨(happs b hb).1, fun x hx => ?_⟩
  rw [List.mem_singleton.mp hx]
  trivial

/-- What a decoded file was: one version and one image. -/
theorem decode_encImage {version : ℕ} {w : Image} {c : DfcCredential} (hw : w.Sized)
    (hversion : version ≤ dfcFormatVersion)
    (h : decodeCredential (encImage version w) = .ok c) :
    w.Loadable version ∧ c = { loadImage version w with dirty := false } := by
  obtain ⟨version', w', heq, hlen, hw', -, rfl⟩ := decodeCredential_eq_ok.mp h
  have hv := hw'.known.2
  simp only [dfcFormatVersion] at hv hversion
  obtain ⟨rfl, rfl⟩ := encImage_injective hw hw'.sized (by simp only [IntSized]; omega)
    (by simp only [IntSized]; omega) hlen heq
  exact ⟨hw', rfl⟩

/-- The files the public decoder answers `ok` for, and the card it leaves for each. -/
theorem dfcDerDecode_accepts {input : Slice} {c : DfcCredential} :
    dfcDerDecode input = (.ok, c) ↔ ∃ version w, input = encImage version w ∧
      input.length ≤ dfcDerMaxSize ∧ w.Loadable version ∧
      modelCheck (loadImage version w) = .ok () ∧ c = { loadImage version w with dirty := false } :=
  dfcDerDecode_eq_ok.trans decodeCredential_eq_ok

/-- A card that is saved and loaded shows the image it had. -/
theorem decode_encode_image {c c' : DfcCredential} {out : Mem} {cap : ℕ} {b : List UInt8}
    (hencode : dfcDerEncode c out cap = .ok b) (hdecode : decodeCredential b = .ok c') :
    imageOf c' = imageOf c := by
  obtain ⟨hcheck, rfl, -, -⟩ := dfcDerEncode_eq_ok hencode
  obtain ⟨hload, rfl⟩ := decode_encImage (sized_imageOf hcheck) le_rfl hdecode
  exact imageOf_loadImage le_rfl hload (canonical_imageOf c)

theorem decode_encode_image_twoKeys : ∃ b c, dfcDerEncode (twoKeyCard 16) Mem.zero 65536 = .ok b ∧
    decodeCredential b = .ok c ∧ imageOf c = imageOf (twoKeyCard 16) := by
  have hexact : EncodesExactly (twoKeyCard 16) :=
    (encodesExactly_iff valid_twoKeyCard).mpr fun _ _ _ _ => le_rfl
  have hmax := length_encImage_le (encoderFacts_of_modelCheck valid_twoKeyCard)
  have hencode := hexact.enough Mem.zero 65536 (hmax.trans (by decide))
  obtain ⟨c, hdecode⟩ := decodes_of_isSome
    (show (decodeCredential (encImage dfcFormatVersion (imageOf (twoKeyCard 16)))).toOption.isSome =
      true by decide +kernel)
  exact ⟨_, c, hencode, hdecode, decode_encode_image hencode hdecode⟩

/-- A loaded card can be saved, and what is written is its image. -/
theorem encode_loadImage {version : ℕ} {w : Image} (hw : w.Loadable version)
    (hcheck : modelCheck (loadImage version w) = .ok ()) {c : DfcCredential}
    (hc : c = { loadImage version w with dirty := false }) : EncodesExactly c := by
  have hvalid : modelCheck c = .ok () := by rw [hc]; exact hcheck
  have hstored : StorageFits c := by rw [hc]; exact storageFits_loadImage hw
  exact (encodesExactly_iff hvalid).mpr hstored

theorem Image.Loadable.intSized {version : ℕ} {w : Image} (h : w.Loadable version) :
    IntSized version := by
  have hv := h.known.2
  simp only [dfcFormatVersion] at hv
  simp only [IntSized]
  omega

/-- A file is accepted as the encoding of one image under one version, and what is loaded from it
is saved octet for octet exactly where it is of the version that is written and canonical. -/
theorem reencode_iff {b : Slice} {c : DfcCredential} (h : decodeCredential b = .ok c) :
    ∃ version w, b = encImage version w ∧ w.Loadable version ∧
      (∀ version' w', w'.Loadable version' → b = encImage version' w' →
        version' = version ∧ w' = w) ∧
      ∀ out cap, b.length ≤ cap →
        (dfcDerEncode c out cap = .ok b ↔ version = dfcFormatVersion ∧ w.Canonical) := by
  obtain ⟨version, w, rfl, hlen, hw, hcheck, hc⟩ := decodeCredential_eq_ok.mp h
  have hsaved := encode_loadImage hw hcheck hc
  refine ⟨version, w, rfl, hw, fun version' w' hw' heq => ?_, fun out cap hcap =>
    ⟨fun henc => ?_, ?_⟩⟩
  · obtain ⟨hversion, himage⟩ := encImage_injective hw.sized hw'.sized hw.intSized hw'.intSized
      hlen heq
    exact ⟨hversion.symm, himage.symm⟩
  · obtain ⟨hvalid, heq, -, -⟩ := dfcDerEncode_eq_ok henc
    obtain ⟨hversion, himage⟩ := encImage_injective hw.sized (sized_imageOf hvalid) hw.intSized
      (by simp only [IntSized, dfcFormatVersion]; omega) hlen heq
    rw [himage]
    exact ⟨hversion, canonical_imageOf c⟩
  · rintro ⟨rfl, hcanon⟩
    have himage : imageOf c = w := by
      rw [hc]
      exact imageOf_loadImage le_rfl hw hcanon
    have henough := hsaved.enough out cap
    rw [himage] at henough
    exact henough hcap

/-- The file that names a credit of zero is of the version that is written and not canonical. -/
theorem reencode_zeroCredit : ∃ c,
    decodeCredential (encImage dfcFormatVersion zeroCreditImage) = .ok c ∧
    ∃ version w, encImage dfcFormatVersion zeroCreditImage = encImage version w ∧
      w.Loadable version ∧
      (∀ version' w', w'.Loadable version' →
        encImage dfcFormatVersion zeroCreditImage = encImage version' w' →
        version' = version ∧ w' = w) ∧
      ∀ out cap, (encImage dfcFormatVersion zeroCreditImage).length ≤ cap →
        (dfcDerEncode c out cap = .ok (encImage dfcFormatVersion zeroCreditImage) ↔
          version = dfcFormatVersion ∧ w.Canonical) := by
  obtain ⟨c, hc⟩ := decodes_zeroCreditImage
  exact ⟨c, hc, reencode_iff hc⟩

/-- A key slot nothing was loaded into. -/
def blankKey (width : ℕ) : KeyImage := ⟨List.replicate width 0, 0⟩

/-- A set with all of its keys; those that were not listed are blank. -/
def KeySetImage.filled (keyCount : ℕ) (s : KeySetImage) : KeySetImage :=
  { s with
    keys := s.keys ++
      List.replicate (keyCount - s.keys.length) (blankKey (dfcKeySetTypeLength s.type)) }

def KeyStoreImage.normal : KeyStoreImage → KeyStoreImage
  | .list keys => .list keys
  | .sets keyCount maxSize settings keySets =>
    .sets keyCount maxSize settings (keySets.map (KeySetImage.filled keyCount))

def ContentsImage.normal : ContentsImage → ContentsImage
  | .value lower upper current limited limit =>
    .value lower upper current limited (if limit = some 0 then none else limit)
  | x => x

def FileImage.normal (x : FileImage) : FileImage := { x with contents := x.contents.normal }

def AppImage.normal (a : AppImage) : AppImage :=
  { a with keys := a.keys.normal, files := a.files.map FileImage.normal }

/-- The canonical image of the card that is loaded from an image. -/
def Image.normal (w : Image) : Image :=
  { w with
    picc := { w.picc with files := w.picc.files.map FileImage.normal }
    apps := w.apps.map AppImage.normal }

section Blank
variable {L : SetLayout} {m : SetMems} {set slot : ℕ}

/-- Nothing stands in the slot of a key. -/
def SetMems.Blank (L : SetLayout) (m : SetMems) (set slot : ℕ) : Prop :=
  m.keyImage L set slot L.stride = blankKey L.stride

/-- A blank key over a blank slot changes nothing. -/
theorem storeKey_blank (h : m.Blank L set slot) {width : ℕ} (hw : width ≤ L.stride) :
    m.storeKey L set slot (blankKey width) = m := by
  rw [SetMems.Blank, SetMems.keyImage, blankKey, KeyImage.mk.injEq] at h
  obtain ⟨hvalue, hversion⟩ := h
  have hkeys : m.keys.write (L.keyCell set slot) (blankKey width).value = m.keys := by
    funext a
    simp only [blankKey, Mem.write, List.length_replicate]
    split_ifs with ha
    · have hzero : m.keys (L.keyCell set slot + (a - L.keyCell set slot)) = 0 := by
        have hread : m.keys.read (L.keyCell set slot) L.stride = Mem.zero.read 0 L.stride :=
          hvalue.trans (Mem.read_zero 0 L.stride).symm
        simpa using Mem.read_eq_iff.mp hread (a - L.keyCell set slot) (by omega)
      rw [Nat.add_sub_cancel' ha.1] at hzero
      rw [hzero, List.getD_replicate]
      omega
    · rfl
  have hself (mem : Mem) (a : ℕ) (ha : mem a = 0) : mem.write a [0] = mem := by
    funext b
    simp only [Mem.write, List.length_singleton]
    split_ifs with hb
    · obtain rfl : b = a := by omega
      simp [ha]
    · rfl
  rw [SetMems.storeKey, hkeys]
  split_ifs at hversion ⊢ with h0
  · rw [show (blankKey width).version = 0 from rfl, hself _ _ hversion]
  · rw [show (blankKey width).version = 0 from rfl, hself _ _ hversion]

theorem storeKeys_blank {n width : ℕ} (h : ∀ k < n, m.Blank L set (slot + k))
    (hw : width ≤ L.stride) :
    m.storeKeys L set slot (List.replicate n (blankKey width)) = m := by
  induction n generalizing slot with
  | zero => rfl
  | succ n ih =>
    have hfirst : m.Blank L set slot := h 0 (Nat.succ_pos n)
    rw [List.replicate_succ, SetMems.storeKeys, storeKey_blank hfirst hw]
    refine ih fun k hk => ?_
    have hnext := h (k + 1) (Nat.succ_lt_succ hk)
    rwa [show slot + (k + 1) = slot + 1 + k by omega] at hnext

theorem storeKeys_append (m : SetMems) (keys keys' : List KeyImage) :
    m.storeKeys L set slot (keys ++ keys') =
      (m.storeKeys L set slot keys).storeKeys L set (slot + keys.length) keys' := by
  induction keys generalizing slot m with
  | nil => rfl
  | cons k keys ih =>
    rw [List.cons_append, SetMems.storeKeys, ih, SetMems.storeKeys, List.length_cons]
    congr 1
    omega

/-- The slots behind the keys that are stored. -/
theorem storeKeys_later {slot' w : ℕ} {keys : List KeyImage} (h : slot + keys.length ≤ slot')
    (h' : slot' < L.keyCount) (hk : ∀ k ∈ keys, k.value.length ≤ L.stride) (hw : w ≤ L.stride) :
    (m.storeKeys L set slot keys).keyImage L set slot' w = m.keyImage L set slot' w := by
  induction keys generalizing slot m with
  | nil => rfl
  | cons k keys ih =>
    rw [List.length_cons] at h
    rw [List.forall_mem_cons] at hk
    rw [SetMems.storeKeys, ih (by omega) hk.2, storeKey_other (by omega) h' (by omega) hk.1 hw]

/-- What the decoder accepts as a set of a layout. -/
theorem filled_loadable {keyCount maxSize : ℕ} {s : KeySetImage} (h : s.Loadable keyCount maxSize) :
    (s.filled keyCount).Loadable keyCount maxSize := by
  have hcount := h.count
  refine ⟨h.type, h.width, ?_, fun k hk => ?_⟩
  · simp only [KeySetImage.filled, List.length_append, List.length_replicate]
    omega
  · simp only [KeySetImage.filled, List.mem_append, List.mem_replicate] at hk
    rcases hk with hk | ⟨-, rfl⟩
    · exact h.length k hk
    · simp [blankKey, KeySetImage.filled]

/-- The keys that are not listed are blank already. -/
theorem storeSet_filled {s : KeySetImage} (hs : set < L.setCount)
    (h : s.Loadable L.keyCount L.stride)
    (hblank : ∀ slot < L.keyCount, m.Blank L set slot) :
    (m.storeHeader L set (s.filled L.keyCount)).storeKeys L set 0 (s.filled L.keyCount).keys =
      (m.storeHeader L set s).storeKeys L set 0 s.keys := by
  have hcount := h.count
  have hlen : ∀ k ∈ s.keys, k.value.length ≤ L.stride :=
    fun k hk => (h.length k hk).trans_le h.width
  have hheader : m.storeHeader L set (s.filled L.keyCount) = m.storeHeader L set s := rfl
  rw [hheader, show (s.filled L.keyCount).keys = s.keys ++ List.replicate _ _ from rfl,
    storeKeys_append]
  refine storeKeys_blank (fun k hk => ?_) h.width
  rw [SetMems.Blank, storeKeys_later (by omega) (by omega) hlen le_rfl, storeHeader_keyImage hs]
  exact hblank _ (by omega)

theorem storeSets_filled {sets : List KeySetImage} (hs : set + sets.length ≤ L.setCount)
    (h : ∀ s ∈ sets, s.Loadable L.keyCount L.stride)
    (hblank : ∀ set', set ≤ set' → set' < L.setCount → ∀ slot < L.keyCount, m.Blank L set' slot) :
    m.storeSets L set (sets.map (KeySetImage.filled L.keyCount)) = m.storeSets L set sets := by
  induction sets generalizing set m with
  | nil => rfl
  | cons s sets ih =>
    rw [List.length_cons] at hs
    rw [List.forall_mem_cons] at h
    have hcount := h.1.count
    rw [List.map_cons, SetMems.storeSets, SetMems.storeSets,
      storeSet_filled (by omega) h.1 (hblank set le_rfl (by omega))]
    refine ih (by omega) h.2 fun set' hset' hlt slot hslot => ?_
    rw [SetMems.Blank, storeKeys_other (by omega) hslot (Or.inl (by omega))
      (fun k hk => (h.1.length k hk).trans_le h.1.width) le_rfl, storeHeader_keyImage (by omega)]
    exact hblank set' (by omega) hlt slot hslot

end Blank

/-- The key sets of an application that is reserved are blank. -/
theorem blank_reserved {c : DfcCredential} {i count keyCount maxSize : ℕ}
    (hversions : (c.apps i).keyVersions = Mem.zero) (settings : UInt8) {set slot : ℕ}
    (hset : set < count) (hslot : slot < keyCount) :
    (memsOf ((reserveKeySets c i count keyCount maxSize).modifyApp i fun a =>
      { a with keySetSettings := settings }) i).Blank (freshLayout c count keyCount maxSize) set
        slot := by
  have hidx : set * keyCount + slot + 1 ≤ keyCount * count := by
    have hmul := Nat.mul_le_mul_right keyCount hset
    rw [Nat.succ_mul, Nat.mul_comm count] at hmul
    omega
  have hcell := Nat.mul_le_mul_right maxSize hidx
  rw [Nat.succ_mul] at hcell
  rw [SetMems.Blank, SetMems.keyImage, blankKey]
  congr 1
  · refine (Mem.read_congr fun a ha => ?_).trans (Mem.read_zero 0 maxSize)
    simp only [memsOf, DfcCredential.modifyApp, reserveKeySets, freshLayout, SetLayout.keyCell,
      Mem.fill, Mem.zero_apply]
    rw [if_pos (by simp only [freshLayout] at ha; omega)]
  · split_ifs with h0
    · simp [memsOf, DfcCredential.modifyApp, reserveKeySets, DfcApplication.reserveKeySets,
        hversions]
    · have hmul : (set - 1) * keyCount + keyCount ≤ (count - 1) * keyCount := by
        have := Nat.mul_le_mul_right keyCount (show set - 1 + 1 ≤ count - 1 by omega)
        rwa [Nat.succ_mul] at this
      simp only [memsOf, DfcCredential.modifyApp, reserveKeySets, freshLayout,
        SetLayout.versionCell]
      rw [Mem.write_apply_of_out (by simp only [List.length_cons, List.length_nil]; omega),
        Mem.fill, if_pos (by rw [setMetadataLen]; omega)]

theorem placeKeyStore_normal {c : DfcCredential} {i : ℕ} {keys : KeyStoreImage}
    (hversions : (c.apps i).keyVersions = Mem.zero) (h : keys.Loadable c i) :
    placeKeyStore c i keys.normal = placeKeyStore c i keys ∧ keys.normal.Loadable c i := by
  cases keys with
  | list keys => exact ⟨rfl, h⟩
  | sets keyCount maxSize settings sets =>
    have hplace : placeKeySets c i keyCount maxSize settings
        (sets.map (KeySetImage.filled keyCount)) =
          placeKeySets c i keyCount maxSize settings sets := by
      have hroom : 0 + sets.length ≤ (freshLayout c sets.length keyCount maxSize).setCount := by
        simp [freshLayout]
      have hfilled := storeSets_filled hroom (KeySetsLoadable.each h)
        fun set _ hset slot hslot => blank_reserved hversions settings hset hslot
      rw [placeKeySets, placeKeySets, List.length_map]
      exact congrArg (putMems _ i) hfilled
    refine ⟨hplace, ?_⟩
    have hnormal : KeySetsLoadable c i keyCount maxSize settings
        (sets.map (KeySetImage.filled keyCount)) := by
      refine ⟨by rw [List.length_map]; exact KeySetsLoadable.room h, fun s hs => ?_,
        by rw [hplace]; exact h.initialized⟩
      obtain ⟨s', hs', rfl⟩ := List.mem_map.mp hs
      exact filled_loadable (KeySetsLoadable.each h s' hs')
    exact hnormal

theorem loadFile_normal {owner : ℕ} {c : DfcCredential} {x : FileImage} (h : x.Loadable owner c) :
    loadFile owner c x.normal = loadFile owner c x ∧ x.normal.Loadable owner c := by
  obtain ⟨number, type, comm, rights, fid, contents, sdm⟩ := x
  cases contents with
  | value lower upper current limited limit =>
    have hlimit : (if limit = some 0 then none else limit).getD 0 = limit.getD 0 := by
      split_ifs with h0
      · rw [h0]
        rfl
      · rfl
    constructor
    · simp only [loadFile_eq, loadedFile, FileImage.normal, ContentsImage.normal, fillContents,
        newFile, hlimit, ContentsImage.octets]
    · obtain ⟨h₁, h₂, h₃, h₄, h₅, ⟨ht, hlow, hhigh, hnat⟩, h₇⟩ := h
      refine ⟨h₁, h₂, h₃, h₄, h₅, ⟨ht, hlow, hhigh, fun v hv => ?_⟩, h₇⟩
      split_ifs at hv with h0
      · simp at hv
      · exact hnat v hv
  | _ => exact ⟨rfl, h⟩

/-- A walk over values that load as their normal forms do. -/
theorem foldl_normal {σ α : Type} {cond : σ → α → Prop} {load : σ → α → σ} {f : α → α}
    (inv : σ → Prop) (h : ∀ st a, inv st → cond st a →
      load st (f a) = load st a ∧ cond st (f a) ∧ inv (load st a)) {st : σ} {l : List α}
    (hst : inv st) (hl : AllFrom cond load st l) :
    (l.map f).foldl load st = l.foldl load st ∧ AllFrom cond load st (l.map f) := by
  induction l generalizing st with
  | nil => exact ⟨rfl, trivial⟩
  | cons a l ih =>
    obtain ⟨heq, hcond, hinv⟩ := h st a hst hl.1
    obtain ⟨hfold, hall⟩ := ih hinv hl.2
    rw [List.map_cons, List.foldl_cons, heq]
    refine ⟨hfold, hcond, ?_⟩
    rw [heq]
    exact hall

theorem foldl_loadFile_normal {owner : ℕ} {c : DfcCredential} {files : List FileImage}
    (h : AllFrom (FileImage.Loadable owner) (loadFile owner) c files) :
    (files.map FileImage.normal).foldl (loadFile owner) c = files.foldl (loadFile owner) c ∧
      AllFrom (FileImage.Loadable owner) (loadFile owner) c (files.map FileImage.normal) :=
  foldl_normal (fun _ => True)
    (fun _ _ _ hx => ⟨(loadFile_normal hx).1, (loadFile_normal hx).2, trivial⟩) trivial h

theorem loadApp_normal {version : ℕ} {c : DfcCredential} {a : AppImage} (hc : Loading c)
    (h : a.Loadable version c) :
    loadApp version c a.normal = loadApp version c a ∧ a.normal.Loadable version c := by
  have hversions : ((c.modifyApp c.numApps fun app =>
      storeAppSettings version app a.toAppSettingsImage).apps c.numApps).keyVersions =
        Mem.zero := by
    simp [DfcCredential.modifyApp, hc.fresh _ le_rfl, storeAppSettings]
  obtain ⟨hplace, hkeys⟩ := placeKeyStore_normal hversions h.keys
  have hrecord : loadAppRecord version c a.normal = loadAppRecord version c a := by
    simp only [loadAppRecord, AppImage.normal, hplace]
  obtain ⟨hfold, hfiles⟩ := foldl_loadFile_normal h.files
  refine ⟨?_, h.room, h.settings, hkeys, h.capability, h.delegated, h.smDisable, ?_⟩
  · rw [loadApp, loadApp, hrecord]
    exact hfold
  · rw [hrecord]
    exact hfiles

/-- The card that is loaded from an image is loaded from its normal form too. -/
theorem loadImage_normal {version : ℕ} {w : Image} (h : w.Loadable version) :
    loadImage version w.normal = loadImage version w ∧ w.normal.Loadable version := by
  obtain ⟨hfold, happs⟩ := foldl_normal Loading
    (fun c a hc ha => ⟨(loadApp_normal hc ha).1, (loadApp_normal hc ha).2, hc.loadApp ha⟩)
    (loading_loadPicc h.picc) h.apps
  obtain ⟨hfold', hfiles⟩ := foldl_loadFile_normal h.files
  have hpicc : loadPicc version (storeCard dfcCredentialClear w.card) w.normal.picc =
      loadPicc version (storeCard dfcCredentialClear w.card) w.picc := rfl
  have hpicc' : w.normal.picc.Loadable version (storeCard dfcCredentialClear w.card) :=
    ⟨h.picc.settings, h.picc.keys, h.picc.ev2Capabilities, h.picc.proximity, h.picc.virtualCard,
      h.picc.dam⟩
  refine ⟨?_, h.known, h.card, hpicc', ?_, ?_⟩
  · rw [loadImage, loadImage]
    rw [show w.normal.card = w.card from rfl, hpicc,
      show w.normal.apps = w.apps.map AppImage.normal from rfl, hfold]
    exact hfold'
  · rw [show w.normal.card = w.card from rfl, hpicc]
    exact happs
  · rw [show w.normal.card = w.card from rfl, hpicc,
      show w.normal.apps = w.apps.map AppImage.normal from rfl, hfold]
    exact hfiles

theorem full_normal {c : DfcCredential} {i : ℕ} {keys : KeyStoreImage} (h : keys.Loadable c i) :
    keys.normal.Full := by
  cases keys with
  | list keys => trivial
  | sets keyCount maxSize settings sets =>
    intro s hs
    obtain ⟨s', hs', rfl⟩ := List.mem_map.mp hs
    have hcount := (KeySetsLoadable.each h s' hs').count
    simp only [KeySetImage.filled, List.length_append, List.length_replicate]
    omega

theorem canonical_normal {version : ℕ} {w : Image} (h : w.Loadable version) :
    w.normal.Canonical := by
  have hfile (x : FileImage) : x.normal.contents.Canonical := by
    obtain ⟨number, type, comm, rights, fid, contents, sdm⟩ := x
    cases contents with
    | value lower upper current limited limit =>
      simp only [FileImage.normal, ContentsImage.normal, ContentsImage.Canonical]
      split_ifs with h0
      · simp
      · exact h0
    | _ => trivial
  have hfiles (files : List FileImage) :
      ∀ x ∈ files.map FileImage.normal, x.contents.Canonical := by
    intro x hx
    obtain ⟨y, -, rfl⟩ := List.mem_map.mp hx
    exact hfile y
  have hkeys : ∀ a ∈ w.apps, a.keys.normal.Full :=
    forall_of_allFrom (fun c a ha => full_normal ha.keys) h.apps
  refine ⟨hfiles _, fun a ha => ?_⟩
  obtain ⟨b, hb, rfl⟩ := List.mem_map.mp ha
  exact ⟨hkeys b hb, hfiles _⟩

/-- A card that is loaded from a file of the version that is written, saved and loaded again is the
card that was loaded, also from a file that was not canonical; what was saved in between is the
canonical file of the card. -/
theorem decode_encode_decode {b : Slice} {c : DfcCredential} (h : decodeCredential b = .ok c) :
    ∃ version w, b = encImage version w ∧ w.Loadable version ∧ (version = dfcFormatVersion →
      (∀ out cap, (encImage dfcFormatVersion w.normal).length ≤ cap →
        dfcDerEncode c out cap = .ok (encImage dfcFormatVersion w.normal)) ∧
      decodeCredential (encImage dfcFormatVersion w.normal) = .ok c) := by
  obtain ⟨version, w, rfl, -, hload, hcheck, hc⟩ := decodeCredential_eq_ok.mp h
  refine ⟨version, w, rfl, hload, ?_⟩
  rintro rfl
  obtain ⟨heq, hnormal⟩ := loadImage_normal hload
  have himage : imageOf c = w.normal := by
    rw [hc, ← heq]
    exact imageOf_loadImage le_rfl hnormal (canonical_normal hload)
  have hvalid : modelCheck c = .ok () := by
    rw [hc]
    exact hcheck
  constructor
  · intro out cap hcap
    have henough := (encode_loadImage hload hcheck hc).enough out cap
    rw [himage] at henough
    exact henough hcap
  · have hmax := length_encImage_le (encoderFacts_of_modelCheck hvalid)
    rw [himage] at hmax
    refine decodeCredential_eq_ok.mpr ⟨_, _, rfl, hmax, hnormal, ?_, ?_⟩
    · rw [heq]
      exact hcheck
    · rw [heq]
      exact hc

/-- The value card is saved as its canonical image, without the credit of zero, and is loaded from
it as before. -/
theorem decode_encode_decode_zeroCredit : ∃ c,
    decodeCredential (encImage dfcFormatVersion zeroCreditImage) = .ok c ∧
    zeroCreditImage.normal ≠ zeroCreditImage ∧
    dfcDerEncode c Mem.zero 171 = .ok (encImage dfcFormatVersion zeroCreditImage.normal) ∧
    decodeCredential (encImage dfcFormatVersion zeroCreditImage.normal) = .ok c := by
  obtain ⟨c, hc⟩ := decodes_zeroCreditImage
  obtain ⟨version, w, himage, hload, hsaved⟩ := decode_encode_decode hc
  obtain ⟨rfl, rfl⟩ := encImage_injective sized_zeroCreditImage hload.sized
    (by simp only [IntSized, dfcFormatVersion]; omega) hload.intSized (by decide +kernel) himage
  obtain ⟨hencode, hdecode⟩ := hsaved rfl
  have hlen : (encImage dfcFormatVersion zeroCreditImage.normal).length ≤ 171 := by decide +kernel
  exact ⟨c, hc, by decide +kernel, hencode Mem.zero 171 hlen, hdecode⟩

end DfcCore
