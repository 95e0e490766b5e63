import DfcCore.DerPlaceSets

/-!
# Decoding a credential

What the decoder makes of an image, and that it accepts exactly the encodings of the
images that can be loaded and pass the model check.
-/
namespace DfcCore
open Der

def appSettingsComponents (a : AppSettingsImage) : Components :=
  [(Tag.appAid, some a.aid), (Tag.appIsoFid, a.isoFileId.map u16Octets),
    (Tag.appDfName, nonemptyField a.dfName), (Tag.appKs1, octetField a.keySettings1),
    (Tag.appKs2, octetField a.keySettings2), (Tag.appAuth, intField a.authCommands.toNat),
    (Tag.appPreferredAuth, a.preferredAuthCommand.map fun b => encInt b.toNat)]

structure AppSettingsImage.Loadable (version : ℕ) (c : DfcCredential) (a : AppSettingsImage) :
    Prop where
  aid : a.aid.length = 3
  fresh : ¬∃ j < c.numApps, (c.apps j).aid.read 0 3 = a.aid
  isoFileId : ∀ id ∈ a.isoFileId, dfcIsoFileIdIsReserved id = false
  dfName : a.dfName.length ≤ 16
  auth : AuthLoadable version a.authCommands a.preferredAuthCommand

/-- An optional component that may not be empty. -/
theorem nonemptyField_eq {field : Option Slice} {max : ℕ} :
    ¬field.any (fun df => df.length == 0 || decide (max < df.length)) = true ↔
      field = nonemptyField (field.getD []) ∧ (field.getD []).length ≤ max := by
  cases field with
  | none => simp [nonemptyField]
  | some df =>
    cases df with
    | nil => simp [nonemptyField]
    | cons x df => simp [nonemptyField]

theorem getD_nonemptyField (bs : Slice) : (nonemptyField bs).getD [] = bs := by
  rw [nonemptyField]
  split_ifs with h
  · exact h.symm
  · rfl

theorem decodeAppSettings_eq_ok {version : ℕ} {c : DfcCredential} {i : ℕ} {af : Fields}
    {app : DfcApplication} :
    decodeAppSettings version c i af = .ok app ↔ ∃ a : AppSettingsImage,
      (∀ p ∈ appSettingsComponents a, fGet af p.1 = p.2) ∧ a.Loadable version c ∧
        app = storeAppSettings version (c.apps i) a := by
  simp only [appSettingsComponents, List.forall_mem_cons, List.not_mem_nil, false_implies,
    implies_true, and_true]
  simp only [decodeAppSettings, bind_eq_ok, orFail_eq_ok, refuseIf_eq_ok, pure_eq_ok,
    rOctets_eq_some, rOctet_eq_some, rOptional_u16, any_isReserved, nonemptyField_eq]
  constructor
  · rintro ⟨aid, ⟨h₁, l₁⟩, _, hfresh, fid, h₂, _, hfid, _, ⟨h₃, l₃⟩, ks1, h₄, ks2, h₅, ⟨auth, pref⟩,
      hauth, rfl⟩
    obtain ⟨h₆, h₇, hload⟩ := decodeAuth_eq_ok.mp hauth
    exact ⟨⟨aid, fid, (fGet af Tag.appDfName).getD [], ks1, ks2, auth, pref⟩,
      ⟨h₁, h₂, h₃, h₄, h₅, h₆, h₇⟩, ⟨l₁, hfresh, hfid, l₃, hload⟩, rfl⟩
  · rintro ⟨a, ⟨h₁, h₂, h₃, h₄, h₅, h₆, h₇⟩, ha, rfl⟩
    have hdf : (fGet af Tag.appDfName).getD [] = a.dfName := by rw [h₃, getD_nonemptyField]
    refine ⟨a.aid, ⟨h₁, ha.aid⟩, (), ha.fresh, a.isoFileId, h₂, (), ha.isoFileId, (), ?_, _, h₄, _,
      h₅, (a.authCommands, a.preferredAuthCommand), decodeAuth_eq_ok.mpr ⟨h₆, h₇, ha.auth⟩, ?_⟩
    · rw [hdf]
      exact ⟨h₃, ha.dfName⟩
    · rw [hdf]

/-- What the decoder makes of the keys of an application. -/
def placeKeyStore (c : DfcCredential) (i : ℕ) : KeyStoreImage → DfcCredential
  | .list keys => placeKeys c (some i) (c.apps i).keyLen keys
  | .sets keyCount maxSize settings sets => placeKeySets c i keyCount maxSize settings sets

def KeyStoreImage.Loadable (c : DfcCredential) (i : ℕ) : KeyStoreImage → Prop
  | .list keys => KeysLoadable c (c.apps i).keyLen keys
  | .sets keyCount maxSize settings keySets =>
    KeySetsLoadable c i keyCount maxSize settings keySets

theorem decodeKeyStore_eq_ok {c c' : DfcCredential} {i : ℕ} {af : Fields}
    (hlen : ∀ tag b, fGet af tag = some b → b.length ≤ 0xFFFF) (hv : (c.apps i).Vacant)
    (hused : PoolsBounded c) (hk : (c.apps i).keyLen = 16 ∨ (c.apps i).keyLen = 24) :
    decodeKeyStore c i af = .ok c' ↔ ∃ keys : KeyStoreImage,
      fGet af Tag.appKeys = keys.listField ∧ fGet af Tag.appKeySets = keys.setsField ∧
        keys.Loadable c i ∧ c' = placeKeyStore c i keys := by
  have hk' : (c.apps i).keyLen ≤ dfcMaxKeyLen := by simp only [dfcMaxKeyLen]; omega
  rw [decodeKeyStore]
  cases hkeys : fGet af Tag.appKeys with
  | none =>
    cases hsets : fGet af Tag.appKeySets with
    | none =>
      simp only [reduceCtorEq, false_iff, not_exists]
      rintro keys ⟨h₁, h₂, -, -⟩
      cases keys <;> simp [KeyStoreImage.listField, KeyStoreImage.setsField] at h₁ h₂
    | some sets =>
      dsimp only
      rw [decodeKeySets_vacant (hlen _ _ hsets) hv hused hk']
      constructor
      · rintro ⟨keyCount, maxSize, settings, l, rfl, hl, hc'⟩
        exact ⟨.sets keyCount maxSize settings l, rfl, rfl, hl, hc'⟩
      · rintro ⟨keys, h₁, h₂, hl, hc'⟩
        cases keys with
        | list => simp [KeyStoreImage.listField] at h₁
        | sets keyCount maxSize settings l =>
          exact ⟨keyCount, maxSize, settings, l, Option.some.inj h₂, hl, hc'⟩
  | some body =>
    cases hsets : fGet af Tag.appKeySets with
    | none =>
      dsimp only
      have hv' : Vacant c (some i) := hv
      rw [decodeKeys_vacant (hlen _ _ hkeys) hv' hused hk]
      constructor
      · rintro ⟨keys, rfl, hl, hc'⟩
        exact ⟨.list keys, rfl, rfl, hl, hc'⟩
      · rintro ⟨keys, h₁, h₂, hl, hc'⟩
        cases keys with
        | list keys => exact ⟨keys, Option.some.inj h₁, hl, hc'⟩
        | sets => simp [KeyStoreImage.setsField] at h₂
    | some sets =>
      simp only [reduceCtorEq, false_iff, not_exists]
      rintro keys ⟨h₁, h₂, -, -⟩
      cases keys <;> simp [KeyStoreImage.listField, KeyStoreImage.setsField] at h₁ h₂

/-- The delegated state of an application that has one. -/
def loadDelegated (app : DfcApplication) : Option DelegatedImage → DfcApplication
  | none => app
  | some d => storeDelegated app d

/-- What the decoder makes of the components behind the keys. -/
def storeAppTail (app : DfcApplication) (capability : Option Slice)
    (delegated : Option DelegatedImage) (smDisable : Option UInt8) : DfcApplication :=
  let app := { app with
    capabilityData := app.capabilityData.write 0 (capability.getD [])
    hasCapabilityData := capability.isSome || app.hasCapabilityData }
  let app := loadDelegated app delegated
  { app with
    smDisable := smDisable.getD app.smDisable
    hasSmDisable := smDisable.isSome || app.hasSmDisable }

theorem decodeAppDelegated_eq_ok {version : ℕ} {app app' : DfcApplication} {field : Option Slice}
    (hlen : ∀ b, field = some b → b.length ≤ 0xFFFF) :
    decodeAppDelegated version app field = .ok app' ↔ ∃ o : Option DelegatedImage,
      field = o.map (fun d => encFields (delegatedComponents d)) ∧
        (∀ d ∈ o, d.Loadable version) ∧ app' = loadDelegated app o := by
  cases field with
  | none =>
    simp only [decodeAppDelegated, pure_eq_ok]
    constructor
    · rintro rfl
      exact ⟨none, rfl, by simp, rfl⟩
    · rintro ⟨o, ho, -, rfl⟩
      have hnone : o = none := by simpa using ho.symm
      rw [hnone]
      rfl
  | some body =>
    rw [decodeAppDelegated, decodeDelegated_eq_ok (hlen body rfl)]
    constructor
    · rintro ⟨d, rfl, hd, rfl⟩
      refine ⟨some d, rfl, ?_, rfl⟩
      intro d' hd'
      rw [Option.mem_some_iff] at hd'
      exact hd' ▸ hd
    · rintro ⟨o, ho, hall, rfl⟩
      obtain ⟨d, rfl, hd⟩ := Option.map_eq_some_iff.mp ho.symm
      exact ⟨d, hd.symm, hall d rfl, rfl⟩

theorem decodeAppTail_eq_ok {version : ℕ} {app app' : DfcApplication} {af : Fields}
    (hlen : ∀ tag b, fGet af tag = some b → b.length ≤ 0xFFFF) :
    decodeAppTail version app af = .ok app' ↔ ∃ (capability : Option Slice)
      (delegated : Option DelegatedImage) (smDisable : Option UInt8),
      fGet af Tag.appCapability = capability ∧
      fGet af Tag.appDelegated = delegated.map (fun d => encFields (delegatedComponents d)) ∧
      fGet af Tag.appSmDisable = smDisable.map (fun b => [b]) ∧
      (∀ bs ∈ capability, bs.length = 10) ∧ (∀ d ∈ delegated, d.Loadable version) ∧
      (version < 6 → smDisable = none) ∧
      app' = storeAppTail app capability delegated smDisable := by
  have hsome (o : Option UInt8) : (o.map fun b => ([b] : Slice)).isSome = o.isSome := by
    cases o <;> rfl
  simp only [decodeAppTail, bind_eq_ok, orFail_eq_ok, refuseIf_eq_ok, pure_eq_ok, rOptional_octets,
    rOptional_octet, decodeAppDelegated_eq_ok (hlen Tag.appDelegated)]
  constructor
  · rintro ⟨capability, ⟨h₁, l₁⟩, app₁, ⟨delegated, h₂, l₂, rfl⟩, _, hver, smDisable, h₃, rfl⟩
    refine ⟨capability, delegated, smDisable, h₁, h₂, h₃, l₁, l₂, ?_, rfl⟩
    intro hlt
    rw [h₃, hsome] at hver
    simpa using fun h => hver ⟨h, hlt⟩
  · rintro ⟨capability, delegated, smDisable, h₁, h₂, h₃, l₁, l₂, hver, rfl⟩
    refine ⟨capability, ⟨h₁, l₁⟩, _, ⟨delegated, h₂, l₂, rfl⟩, (), ?_, smDisable, h₃, rfl⟩
    rintro ⟨hs, hlt⟩
    rw [h₃, hsome, hver hlt] at hs
    exact absurd hs (by simp)

/-- A state the loop over the applications meets: the records behind the last
application are as a wipe leaves them. -/
structure Loading (c : DfcCredential) : Prop where
  fresh : ∀ j, c.numApps ≤ j → c.apps j = {}
  pools : PoolsBounded c

/-- An application up to its files. -/
def loadAppRecord (version : ℕ) (c : DfcCredential) (a : AppImage) : DfcCredential :=
  let i := c.numApps
  let c := c.modifyApp i fun app => storeAppSettings version app a.toAppSettingsImage
  let c := placeKeyStore c i a.keys
  countApp (c.modifyApp i fun app => storeAppTail app a.capabilityData a.delegated a.smDisable)

/-- What the decoder makes of an application. -/
def loadApp (version : ℕ) (c : DfcCredential) (a : AppImage) : DfcCredential :=
  a.files.foldl (loadFile c.numApps) (loadAppRecord version c a)

structure AppImage.Loadable (version : ℕ) (c : DfcCredential) (a : AppImage) : Prop where
  room : c.numApps < dfcMaxApps
  settings : a.toAppSettingsImage.Loadable version c
  keys : a.keys.Loadable (c.modifyApp c.numApps fun app =>
    storeAppSettings version app a.toAppSettingsImage) c.numApps
  capability : ∀ bs ∈ a.capabilityData, bs.length = 10
  delegated : ∀ d ∈ a.delegated, d.Loadable version
  smDisable : version < 6 → a.smDisable = none
  files : AllFrom (FileImage.Loadable c.numApps) (loadFile c.numApps) (loadAppRecord version c a)
    a.files

theorem appComponents_fields {a : AppImage} {body : Slice} (hb : body.length ≤ 0xFFFF) :
    body = encFields (appComponents a) ↔
      ∃ f, rFields body appOrder = some f ∧ ∀ p ∈ appComponents a, fGet f p.1 = p.2 :=
  eq_encFields_iff rfl (by decide) (by decide) (by decide) hb

theorem forall_mem_appComponents {a : AppImage} {f : Fields} :
    (∀ p ∈ appComponents a, fGet f p.1 = p.2) ↔
      (∀ p ∈ appSettingsComponents a.toAppSettingsImage, fGet f p.1 = p.2) ∧
      fGet f Tag.appKeys = a.keys.listField ∧ fGet f Tag.appKeySets = a.keys.setsField ∧
      fGet f Tag.appCapability = a.capabilityData ∧
      fGet f Tag.appDelegated = a.delegated.map (fun d => encFields (delegatedComponents d)) ∧
      fGet f Tag.appSmDisable = a.smDisable.map (fun b => [b]) ∧
      fGet f Tag.appFiles = some (encItems (fileItems a.files)) := by
  simp only [appComponents, appSettingsComponents, List.forall_mem_cons, List.not_mem_nil,
    false_implies, implies_true, and_true]
  constructor
  · rintro ⟨h₁, h₂, h₃, h₄, h₅, h₆, h₇, h₈, h₉, ha, hb, hc, hd⟩
    exact ⟨⟨h₁, h₂, h₃, h₄, h₅, h₆, hd⟩, h₇, h₉, ha, hb, hc, h₈⟩
  · rintro ⟨⟨h₁, h₂, h₃, h₄, h₅, h₆, hd⟩, h₇, h₉, ha, hb, hc, h₈⟩
    exact ⟨h₁, h₂, h₃, h₄, h₅, h₆, h₇, h₈, h₉, ha, hb, hc, hd⟩

theorem vacant_default : ({} : DfcApplication).Vacant := ⟨rfl, rfl, rfl, rfl, rfl, rfl, rfl⟩

theorem vacant_storeAppSettings {version : ℕ} {app : DfcApplication} (h : app.Vacant)
    (a : AppSettingsImage) : (storeAppSettings version app a).Vacant :=
  ⟨h.keyOffset, h.keyPoolLen, h.keySetMetadataOffset, h.keySetMetadataLen, h.numKeySets,
    h.maxKeySize, h.keySetSettings⟩

theorem keyLength_cases (ks2 : UInt8) :
    dfcCredentialKeyLength ks2 = 16 ∨ dfcCredentialKeyLength ks2 = 24 := by
  rw [dfcCredentialKeyLength]
  split_ifs
  · exact Or.inr rfl
  · exact Or.inl rfl

theorem placeKeys_numApps (c : DfcCredential) (app : Option ℕ) (keyLen : ℕ) (keys : List KeyImage) :
    (placeKeys c app keyLen keys).numApps = c.numApps := by
  rw [placeKeys]
  split_ifs
  · cases app <;> rfl
  · cases app <;> rfl

theorem placeKeyStore_numApps (c : DfcCredential) (i : ℕ) (keys : KeyStoreImage) :
    (placeKeyStore c i keys).numApps = c.numApps := by
  cases keys with
  | list keys => exact placeKeys_numApps c (some i) _ keys
  | sets =>
    simp only [placeKeyStore, placeKeySets, putMems, reserveKeySets, DfcCredential.modifyApp]

theorem decodeApp_eq_ok {version : ℕ} {c c' : DfcCredential} {tlv : Tlv} (hr : tlv.Readable)
    (hc : Loading c) :
    decodeApp version c tlv = .ok c' ↔ ∃ a : AppImage,
      tlv = sequenceItem (appComponents a) ∧ a.Loadable version c ∧ c' = loadApp version c a := by
  obtain ⟨tag, body⟩ := tlv
  have hbody : body.length ≤ 0xFFFF := hr.2
  -- The record behind the last application is vacant and stays so up to its keys.
  have hstart (x : AppSettingsImage) : (c.modifyApp c.numApps fun app =>
      storeAppSettings version app x).apps c.numApps =
      storeAppSettings version (c.apps c.numApps) x := by
    simp [DfcCredential.modifyApp]
  have hvacant (x : AppSettingsImage) : ((c.modifyApp c.numApps fun app =>
      storeAppSettings version app x).apps c.numApps).Vacant := by
    rw [hstart, hc.fresh _ le_rfl]
    exact vacant_storeAppSettings vacant_default x
  have hkeyLen (x : AppSettingsImage) : ((c.modifyApp c.numApps fun app =>
      storeAppSettings version app x).apps c.numApps).keyLen = 16 ∨
      ((c.modifyApp c.numApps fun app =>
        storeAppSettings version app x).apps c.numApps).keyLen = 24 := by
    rw [hstart]
    exact keyLength_cases x.keySettings2
  have hconst (x : AppSettingsImage) : (c.modifyApp c.numApps fun _ =>
      storeAppSettings version (c.apps c.numApps) x) =
      c.modifyApp c.numApps fun app => storeAppSettings version app x := by
    rw [DfcCredential.modifyApp, DfcCredential.modifyApp]
  have hconst' (c₁ : DfcCredential) (x : AppImage) : (c₁.modifyApp c.numApps fun _ =>
      storeAppTail (c₁.apps c.numApps) x.capabilityData x.delegated x.smDisable) =
      c₁.modifyApp c.numApps fun app =>
        storeAppTail app x.capabilityData x.delegated x.smDisable := by
    rw [DfcCredential.modifyApp, DfcCredential.modifyApp]
  have hflen (af : Fields) (hf : rFields body appOrder = some af) :
      ∀ t b, fGet af t = some b → b.length ≤ 0xFFFF :=
    fun t b h => (fGet_length (by decide) hf h).trans hbody
  simp only [decodeApp, bind_eq_ok, orFail_eq_ok, refuseIf_eq_ok, not_not, not_le,
    decodeAppSettings_eq_ok]
  constructor
  · rintro ⟨_, rfl, _, hroom, af, hf, app, ⟨x, hx, hxl, rfl⟩, c₁, hc₁, app₂, happ₂, files, hfiles,
      hdec⟩
    rw [hconst] at hc₁
    obtain ⟨keys, hk₁, hk₂, hkl, rfl⟩ := (decodeKeyStore_eq_ok (hflen af hf) (hvacant x) hc.pools
      (hkeyLen x)).mp hc₁
    obtain ⟨capability, delegated, smDisable, h₁, h₂, h₃, l₁, l₂, hver, rfl⟩ :=
      (decodeAppTail_eq_ok (hflen af hf)).mp happ₂
    obtain ⟨l, rfl, hall, rfl⟩ := (decodeFiles_eq_ok (hflen af hf _ _ hfiles)).mp hdec
    let a : AppImage := ⟨x, keys, l, capability, delegated, smDisable⟩
    have hrecord := hconst' (placeKeyStore (c.modifyApp c.numApps fun app =>
      storeAppSettings version app x) c.numApps keys) a
    refine ⟨a, ?_, ⟨hroom, hxl, hkl, l₁, l₂, hver, ?_⟩, ?_⟩
    · rw [sequenceItem, Tlv.mk.injEq]
      refine ⟨rfl, (appComponents_fields hbody).mpr ⟨af, hf, ?_⟩⟩
      exact forall_mem_appComponents.mpr ⟨hx, hk₁, hk₂, h₁, h₂, h₃, hfiles⟩
    · rw [loadAppRecord, ← hrecord]
      exact hall
    · rw [loadApp, loadAppRecord, ← hrecord]
  · rintro ⟨a, htlv, ha, rfl⟩
    rw [sequenceItem, Tlv.mk.injEq] at htlv
    obtain ⟨rfl, hbody'⟩ := htlv
    obtain ⟨af, hf, hget⟩ := (appComponents_fields hbody).mp hbody'
    obtain ⟨hx, hk₁, hk₂, h₁, h₂, h₃, hfiles⟩ := forall_mem_appComponents.mp hget
    have hrecord := hconst' (placeKeyStore (c.modifyApp c.numApps fun app =>
      storeAppSettings version app a.toAppSettingsImage) c.numApps a.keys) a
    refine ⟨(), rfl, (), ha.room, af, hf, _, ⟨a.toAppSettingsImage, hx, ha.settings, rfl⟩,
      placeKeyStore (c.modifyApp c.numApps fun app =>
        storeAppSettings version app a.toAppSettingsImage) c.numApps a.keys, ?_, _,
      (decodeAppTail_eq_ok (hflen af hf)).mpr ⟨_, _, _, h₁, h₂, h₃, ha.capability, ha.delegated,
        ha.smDisable, rfl⟩, _, hfiles, ?_⟩
    · rw [hconst]
      exact (decodeKeyStore_eq_ok (hflen af hf) (hvacant _) hc.pools (hkeyLen _)).mpr
        ⟨a.keys, hk₁, hk₂, ha.keys, rfl⟩
    · refine (decodeFiles_eq_ok (hflen af hf _ _ hfiles)).mpr ⟨a.files, rfl, ?_, ?_⟩
      · have hall := ha.files
        rw [loadAppRecord, ← hrecord] at hall
        exact hall
      · rw [loadApp, loadAppRecord, ← hrecord]

def piccSettingsComponents (p : PiccSettingsImage) : Components :=
  [(Tag.piccKs1, octetField p.keySettings1), (Tag.piccKs2, octetField p.keySettings2),
    (Tag.piccAuth, intField p.authCommands.toNat), (Tag.piccRandomId, defaultFalseField p.randomId),
    (Tag.piccFormatDis, defaultFalseField p.formatDisabled), (Tag.piccAts, nonemptyField p.ats),
    (Tag.piccSak, p.sak.map fun b => [b]), (Tag.piccAtqa, p.atqa),
    (Tag.piccSmDisable, p.smDisable.map fun b => [b]),
    (Tag.piccPreferredAuth, p.preferredAuthCommand.map fun b => encInt b.toNat),
    (Tag.piccRandomIdLegacy, defaultFalseField p.randomIdLegacy)]

structure PiccSettingsImage.Loadable (version : ℕ) (p : PiccSettingsImage) : Prop where
  auth : AuthLoadable version p.authCommands p.preferredAuthCommand
  randomIdLegacy : version < 6 → p.randomIdLegacy = false
  ats : p.ats.length ≤ dfcPiccAtsMax
  atqa : ∀ bs ∈ p.atqa, bs.length = 2

theorem isSome_defaultFalseField (b : Bool) : (defaultFalseField b).isSome = b := by
  cases b <;> rfl

theorem ats_eq {field : Option Slice} :
    (¬field.any (fun ats => ats.length == 0) = true ∧
      ¬field.any (fun ats => decide (dfcPiccAtsMax < ats.length)) = true) ↔
      field = nonemptyField (field.getD []) ∧ (field.getD []).length ≤ dfcPiccAtsMax := by
  cases field with
  | none => simp [nonemptyField]
  | some ats =>
    cases ats with
    | nil => simp [nonemptyField]
    | cons x ats => simp [nonemptyField]

theorem decodePiccSettings_eq_ok {version : ℕ} {c c' : DfcCredential} {pf : Fields} :
    decodePiccSettings version c pf = .ok c' ↔ ∃ p : PiccSettingsImage,
      (∀ q ∈ piccSettingsComponents p, fGet pf q.1 = q.2) ∧ p.Loadable version ∧
        c' = storePiccSettings version c p := by
  simp only [piccSettingsComponents, List.forall_mem_cons, List.not_mem_nil, false_implies,
    implies_true, and_true]
  simp only [decodePiccSettings, bind_eq_ok, orFail_eq_ok, refuseIf_eq_ok, pure_eq_ok,
    rOctet_eq_some, rDefaultFalse_eq_some, rOptional_octet, rOptional_octets]
  constructor
  · rintro ⟨ks1, h₁, ks2, h₂, ⟨auth, pref⟩, hauth, randomId, h₃, _, hver, legacy, h₄, format, h₅, _,
      hats, _, hats', sak, h₆, atqa, ⟨h₇, l₇⟩, smDisable, h₈, rfl⟩
    obtain ⟨h₉, ha, hload⟩ := decodeAuth_eq_ok.mp hauth
    obtain ⟨hb, lb⟩ := ats_eq.mp ⟨hats, hats'⟩
    refine ⟨⟨ks1, ks2, auth, pref, randomId, legacy, format,
      (fGet pf Tag.piccAts).getD [], sak, atqa, smDisable⟩,
      ⟨h₁, h₂, h₉, h₃, h₅, hb, h₆, h₇, h₈, ha, h₄⟩, ⟨hload, ?_, lb, l₇⟩, rfl⟩
    intro hlt
    have hsome := isSome_defaultFalseField legacy
    rw [defaultFalseField] at hsome
    rw [h₄, hsome] at hver
    simpa using fun h => hver ⟨hlt, h⟩
  · rintro ⟨p, ⟨h₁, h₂, h₉, h₃, h₅, hb, h₆, h₇, h₈, ha, h₄⟩, hp, rfl⟩
    have hd : (fGet pf Tag.piccAts).getD [] = p.ats := by rw [hb, getD_nonemptyField]
    obtain ⟨hats, hats'⟩ := ats_eq.mpr (show fGet pf Tag.piccAts =
      nonemptyField ((fGet pf Tag.piccAts).getD []) ∧ _ by rw [hd]; exact ⟨hb, hp.ats⟩)
    refine ⟨_, h₁, _, h₂, (p.authCommands, p.preferredAuthCommand),
      decodeAuth_eq_ok.mpr ⟨h₉, ha, hp.auth⟩, _, h₃, (), ?_, _, h₄, _, h₅, (), hats,
      (), hats', _, h₆, _, ⟨h₇, hp.atqa⟩, _, h₈, ?_⟩
    · rintro ⟨hlt, hs⟩
      rw [h₄, isSome_defaultFalseField, hp.randomIdLegacy hlt] at hs
      exact absurd hs (by simp)
    · rw [hd]

/-- An optional group of components. -/
def loadGroup {α : Type} (store : DfcCredential → α → DfcCredential) (c : DfcCredential) :
    Option α → DfcCredential
  | none => c
  | some a => store c a

theorem decodeGroup_eq_ok {α : Type}
    (decode : DfcCredential → Slice → Except DfcModelStatus DfcCredential)
    (components : α → Components) (p : α → Prop) (store : DfcCredential → α → DfcCredential)
    (h : ∀ c c' body, body.length ≤ 0xFFFF → (decode c body = .ok c' ↔
      ∃ a, body = encFields (components a) ∧ p a ∧ c' = store c a))
    (c c' : DfcCredential) {field : Option Slice}
    (hlen : ∀ b, field = some b → b.length ≤ 0xFFFF) :
    decodeGroup decode c field = .ok c' ↔ ∃ o : Option α,
      field = o.map (fun a => encFields (components a)) ∧ (∀ a ∈ o, p a) ∧
        c' = loadGroup store c o := by
  cases field with
  | none =>
    simp only [decodeGroup, pure_eq_ok]
    constructor
    · rintro rfl
      exact ⟨none, rfl, by simp, rfl⟩
    · rintro ⟨o, ho, -, rfl⟩
      have hnone : o = none := by simpa using ho.symm
      rw [hnone]
      rfl
  | some body =>
    rw [decodeGroup, h _ _ _ (hlen body rfl)]
    constructor
    · rintro ⟨a, rfl, ha, rfl⟩
      refine ⟨some a, rfl, ?_, rfl⟩
      intro a' ha'
      rw [Option.mem_some_iff] at ha'
      exact ha' ▸ ha
    · rintro ⟨o, ho, hall, rfl⟩
      obtain ⟨a, rfl, ha⟩ := Option.map_eq_some_iff.mp ho.symm
      exact ⟨a, ha.symm, hall a rfl, rfl⟩

/-- What the decoder makes of the PICC record, without its files. -/
def loadPicc (version : ℕ) (c : DfcCredential) (p : PiccImage) : DfcCredential :=
  let c := storePiccSettings version c p.toPiccSettingsImage
  let c := placeKeys (unseeded c) none c.piccKeyLen p.keys
  let c := storeEv2Capabilities c p.ev2Capabilities
  let c := loadGroup storeProximity c p.proximity
  let c := loadGroup storeVirtualCard c p.virtualCard
  loadGroup storeDam c p.dam

structure PiccImage.Loadable (version : ℕ) (c : DfcCredential) (p : PiccImage) : Prop where
  settings : p.toPiccSettingsImage.Loadable version
  keys : KeysLoadable (unseeded (storePiccSettings version c p.toPiccSettingsImage))
    (dfcCredentialKeyLength p.keySettings2) p.keys
  ev2Capabilities : ∀ bs ∈ p.ev2Capabilities, bs.length = 6
  proximity : ∀ x ∈ p.proximity, x.key.length = 16
  virtualCard : ∀ v ∈ p.virtualCard, v.Loadable
  dam : ∀ d ∈ p.dam, d.Loadable

theorem forall_mem_piccComponents {p : PiccImage} {f : Fields} :
    (∀ q ∈ piccComponents p, fGet f q.1 = q.2) ↔
      (∀ q ∈ piccSettingsComponents p.toPiccSettingsImage, fGet f q.1 = q.2) ∧
      fGet f Tag.piccKeys = some (encKeys p.keys) ∧
      fGet f Tag.piccFiles = some (encItems (fileItems p.files)) ∧
      fGet f Tag.piccEv2Caps = p.ev2Capabilities ∧
      fGet f Tag.piccProximity = p.proximity.map (fun x => encFields (proximityComponents x)) ∧
      fGet f Tag.piccVcard = p.virtualCard.map (fun v => encFields (virtualCardComponents v)) ∧
      fGet f Tag.piccDam = p.dam.map (fun d => encFields (damComponents d)) := by
  simp only [piccComponents, piccSettingsComponents, List.forall_mem_cons, List.not_mem_nil,
    false_implies, implies_true, and_true]
  constructor
  · rintro ⟨h₁, h₂, h₃, h₄, h₅, h₆, h₇, h₈, h₉, ha, hb, hc, hd, he, hf, hg, hh⟩
    exact ⟨⟨h₁, h₂, h₃, h₄, h₅, h₆, h₇, h₈, h₉, hg, hh⟩, ha, hb, hc, hd, he, hf⟩
  · rintro ⟨⟨h₁, h₂, h₃, h₄, h₅, h₆, h₇, h₈, h₉, hg, hh⟩, ha, hb, hc, hd, he, hf⟩
    exact ⟨h₁, h₂, h₃, h₄, h₅, h₆, h₇, h₈, h₉, ha, hb, hc, hd, he, hf, hg, hh⟩

theorem seeded_storePiccSettings {version : ℕ} {c : DfcCredential} (h : Seeded c)
    (p : PiccSettingsImage) : Seeded (storePiccSettings version c p) :=
  ⟨h.keyOffset, h.keyPoolLen, h.used, h.pool, h.apps⟩

theorem decodePicc_eq_ok {version : ℕ} {c c' : DfcCredential} {pf : Fields}
    (hlen : ∀ tag b, fGet pf tag = some b → b.length ≤ 0xFFFF) (hc : Seeded c)
    {files : List FileImage}
    (hfiles : fGet pf Tag.piccFiles = some (encItems (fileItems files))) :
    decodePicc version c pf = .ok c' ↔ ∃ p : PiccImage, p.files = files ∧
      (∀ q ∈ piccComponents p, fGet pf q.1 = q.2) ∧ p.Loadable version c ∧
        c' = loadPicc version c p := by
  simp only [forall_mem_piccComponents]
  have hkeys (x : PiccSettingsImage) (body : Slice) (hb : body.length ≤ 0xFFFF)
      (c₁ : DfcCredential) :
      decodeKeys (storePiccSettings version c x) none body
        (storePiccSettings version c x).piccKeyLen dfcMaxKeys = .ok c₁ ↔
      ∃ keys, body = encKeys keys ∧ KeysLoadable (unseeded (storePiccSettings version c x))
        (dfcCredentialKeyLength x.keySettings2) keys ∧
        c₁ = placeKeys (unseeded (storePiccSettings version c x)) none
          (storePiccSettings version c x).piccKeyLen keys :=
    decodeKeys_seeded hb (seeded_storePiccSettings hc x) (keyLength_cases x.keySettings2)
  have hprox (c₁ c₂ : DfcCredential) := decodeGroup_eq_ok decodeProximity proximityComponents
    (fun x => x.key.length = 16) storeProximity (fun _ _ _ hb => decodeProximity_eq_ok hb) c₁ c₂
    (hlen Tag.piccProximity)
  have hvc (c₁ c₂ : DfcCredential) := decodeGroup_eq_ok decodeVirtualCard virtualCardComponents
    VirtualCardImage.Loadable storeVirtualCard (fun _ _ _ hb => decodeVirtualCard_eq_ok hb) c₁ c₂
    (hlen Tag.piccVcard)
  have hdam (c₁ c₂ : DfcCredential) := decodeGroup_eq_ok decodeDam damComponents DamImage.Loadable
    storeDam (fun _ _ _ hb => decodeDam_eq_ok hb) c₁ c₂ (hlen Tag.piccDam)
  simp only [decodePicc, bind_eq_ok, orFail_eq_ok, decodePiccSettings_eq_ok,
    rOptional_octets, hprox, hvc, hdam]
  constructor
  · rintro ⟨c₁, ⟨x, hx, hxl, rfl⟩, body, hbody, c₂, hc₂, caps, ⟨h₁, l₁⟩, c₃,
      ⟨prox, h₂, l₂, rfl⟩, c₄, ⟨vc, h₃, l₃, rfl⟩, dam, h₄, l₄, rfl⟩
    obtain ⟨keys, rfl, hkl, rfl⟩ := (hkeys x body (hlen _ _ hbody) c₂).mp hc₂
    exact ⟨⟨x, keys, files, caps, prox, vc, dam⟩, rfl, ⟨hx, hbody, hfiles, h₁, h₂, h₃, h₄⟩,
      ⟨hxl, hkl, l₁, l₂, l₃, l₄⟩, rfl⟩
  · rintro ⟨p, hp, ⟨hx, hbody, -, h₁, h₂, h₃, h₄⟩, hload, rfl⟩
    exact ⟨_, ⟨p.toPiccSettingsImage, hx, hload.settings, rfl⟩, _, hbody, _,
      (hkeys _ _ (hlen _ _ hbody) _).mpr ⟨p.keys, rfl, hload.keys, rfl⟩, _,
      ⟨h₁, hload.ev2Capabilities⟩, _, ⟨p.proximity, h₂, hload.proximity, rfl⟩, _,
      ⟨p.virtualCard, h₃, hload.virtualCard, rfl⟩, p.dam, h₄, hload.dam, rfl⟩

theorem placeOctets_frame (c : DfcCredential) (i : ℕ) (octets : Slice) :
    ∃ files pool used, placeOctets c i octets =
      { c with files := files, filePool := pool, filePoolUsed := used } := by
  rw [placeOctets]
  split_ifs
  · exact ⟨c.files, c.filePool, c.filePoolUsed, rfl⟩
  · exact ⟨_, _, _, rfl⟩

/-- Loading a file changes files and the file pool only. -/
theorem loadFile_frame (owner : ℕ) (c : DfcCredential) (x : FileImage) :
    ∃ files numFiles pool used, loadFile owner c x =
      { c with files := files, numFiles := numFiles, filePool := pool, filePoolUsed := used } := by
  have hcontents (c : DfcCredential) (i : ℕ) (y : ContentsImage) : ∃ files pool used,
      loadContents c i y = { c with files := files, filePool := pool, filePoolUsed := used } := by
    cases y with
    | data size known complete =>
      obtain ⟨files, pool, used, h⟩ := placeOctets_frame (c.modifyFile i fun file => (file.withData
        { file.state.data with declaredSize := size }).withComplete complete) i known
      exact ⟨files, pool, used, by rw [loadContents, h, DfcCredential.modifyFile]⟩
    | value => exact ⟨_, c.filePool, c.filePoolUsed, rfl⟩
    | record size maxRecords count complete records =>
      obtain ⟨files, pool, used, h⟩ := placeOctets_frame (c.modifyFile i fun file =>
        (file.withRecord { size := size, maxRecords := maxRecords, count := count }).withComplete
          complete) i records.flatten
      exact ⟨files, pool, used, by rw [loadContents, h, DfcCredential.modifyFile]⟩
    | transactionMac => exact ⟨_, c.filePool, c.filePoolUsed, rfl⟩
  have hsdm (c : DfcCredential) (i : ℕ) (o : Option SdmImage) : ∃ files,
      loadSdm c i o = { c with files := files } := by
    cases o with
    | none => exact ⟨c.files, rfl⟩
    | some s => exact ⟨_, rfl⟩
  obtain ⟨files, pool, used, h₁⟩ := hcontents (c.modifyFile c.numFiles fun _ => newFile owner x)
    c.numFiles x.contents
  obtain ⟨files', h₂⟩ := hsdm (loadContents (c.modifyFile c.numFiles fun _ => newFile owner x)
    c.numFiles x.contents) c.numFiles x.sdm
  refine ⟨files', c.numFiles + 1, pool, used, ?_⟩
  have hload : loadFile owner c x = countFile (loadSdm (loadContents
      (c.modifyFile c.numFiles fun _ => newFile owner x) c.numFiles x.contents) c.numFiles x.sdm) :=
    rfl
  rw [hload, h₂, h₁, countFile, DfcCredential.modifyFile]

theorem foldl_loadFile_frame (owner : ℕ) (files : List FileImage) (c : DfcCredential) :
    ∃ fs numFiles pool used, files.foldl (loadFile owner) c =
      { c with files := fs, numFiles := numFiles, filePool := pool, filePoolUsed := used } := by
  induction files generalizing c with
  | nil => exact ⟨c.files, c.numFiles, c.filePool, c.filePoolUsed, rfl⟩
  | cons x files ih =>
    obtain ⟨fs, n, pool, used, h⟩ := loadFile_frame owner c x
    obtain ⟨fs', n', pool', used', h'⟩ := ih (loadFile owner c x)
    exact ⟨fs', n', pool', used', by rw [List.foldl_cons, h', h]⟩

theorem placeKeys_apps (c : DfcCredential) (i keyLen : ℕ) (keys : List KeyImage) {j : ℕ}
    (hj : j ≠ i) : (placeKeys c (some i) keyLen keys).apps j = c.apps j := by
  rw [placeKeys]
  split_ifs
  · simp [noKeys, DfcCredential.modifyApp, hj]
  · simp [storeKeys, storeKeyVersions, reserveKeys, DfcCredential.modifyApp, hj]

theorem placeKeySets_apps (c : DfcCredential) (i keyCount maxSize : ℕ) (settings : UInt8)
    (sets : List KeySetImage) {j : ℕ} (hj : j ≠ i) :
    (placeKeySets c i keyCount maxSize settings sets).apps j = c.apps j := by
  simp [placeKeySets, putMems, reserveKeySets, DfcCredential.modifyApp, hj]

theorem placeKeyStore_apps (c : DfcCredential) (i : ℕ) (keys : KeyStoreImage) {j : ℕ} (hj : j ≠ i) :
    (placeKeyStore c i keys).apps j = c.apps j := by
  cases keys with
  | list keys => exact placeKeys_apps c i _ keys hj
  | sets keyCount maxSize settings sets =>
      exact placeKeySets_apps c i keyCount maxSize settings sets hj

theorem poolsBounded_placeKeys {c : DfcCredential} {app : Option ℕ} {keyLen : ℕ}
    {keys : List KeyImage} (h : PoolsBounded c) (hload : KeysLoadable c keyLen keys) :
    PoolsBounded (placeKeys c app keyLen keys) := by
  have hroom := hload.room
  rw [placeKeys]
  split_ifs with hnil
  · cases app with
    | none => exact h
    | some i => exact h
  · cases app with
    | none => exact ⟨hroom, h.2⟩
    | some i => exact ⟨hroom, h.2⟩

theorem poolsBounded_placeKeyStore {c : DfcCredential} {i : ℕ} {keys : KeyStoreImage}
    (h : PoolsBounded c) (hload : keys.Loadable c i) : PoolsBounded (placeKeyStore c i keys) := by
  cases keys with
  | list keys => exact poolsBounded_placeKeys h hload
  | sets keyCount maxSize settings sets =>
    have hroom := KeySetsLoadable.room hload
    have hused : (placeKeySets c i keyCount maxSize settings sets).keyPoolUsed =
        c.keyPoolUsed + keyCount * sets.length * maxSize := by
      simp [placeKeySets, putMems, reserveKeySets, DfcCredential.modifyApp]
    have hmeta : (placeKeySets c i keyCount maxSize settings sets).keySetMetadataPoolUsed =
        c.keySetMetadataPoolUsed + setMetadataLen sets.length keyCount := by
      simp [placeKeySets, putMems, reserveKeySets, DfcCredential.modifyApp]
    rw [placeKeyStore, PoolsBounded, hused, hmeta]
    exact ⟨hroom.keys, hroom.metadata⟩

theorem Loading.loadApp {version : ℕ} {c : DfcCredential} {a : AppImage} (h : Loading c)
    (ha : a.Loadable version c) : Loading (loadApp version c a) := by
  obtain ⟨fs, n, pool, used, hfiles⟩ := foldl_loadFile_frame c.numApps a.files
    (loadAppRecord version c a)
  have hnum : (loadAppRecord version c a).numApps = c.numApps + 1 := by
    rw [loadAppRecord]
    simp [countApp, DfcCredential.modifyApp, placeKeyStore_numApps]
  rw [DfcCore.loadApp, hfiles]
  constructor
  · intro j hj
    dsimp only at hj ⊢
    rw [hnum] at hj
    have hne : j ≠ c.numApps := by omega
    rw [loadAppRecord]
    simp only [countApp, DfcCredential.modifyApp, ne_eq, hne, not_false_eq_true,
      Function.update_of_ne]
    rw [placeKeyStore_apps _ _ _ hne]
    simp only [ne_eq, hne, not_false_eq_true, Function.update_of_ne]
    exact h.fresh j (by omega)
  · have hpools := poolsBounded_placeKeyStore (c := c.modifyApp c.numApps fun app =>
      storeAppSettings version app a.toAppSettingsImage) h.pools ha.keys
    exact hpools

theorem seeded_clear : Seeded dfcCredentialClear where
  keyOffset := rfl
  keyPoolLen := rfl
  used := rfl
  pool := fill_zero 0 16
  apps := fun _ => rfl

theorem seeded_storeCard (card : CardImage) : Seeded (storeCard dfcCredentialClear card) :=
  ⟨seeded_clear.keyOffset, seeded_clear.keyPoolLen, seeded_clear.used, seeded_clear.pool,
    seeded_clear.apps⟩

theorem loadGroup_ind {α : Type} {store : DfcCredential → α → DfcCredential}
    {q : DfcCredential → Prop} (h : ∀ c a, q c → q (store c a)) {c : DfcCredential} (hc : q c)
    (o : Option α) : q (loadGroup store c o) := by
  cases o with
  | none => exact hc
  | some a => exact h c a hc

/-- What holds behind the PICC keys and does not depend on the other PICC fields holds
behind the PICC record. -/
theorem loadPicc_ind {version : ℕ} {c : DfcCredential} {p : PiccImage} {q : DfcCredential → Prop}
    (hcaps : ∀ c caps, q c → q (storeEv2Capabilities c caps))
    (hprox : ∀ c x, q c → q (storeProximity c x)) (hvc : ∀ c v, q c → q (storeVirtualCard c v))
    (hdam : ∀ c d, q c → q (storeDam c d))
    (hkeys : q (placeKeys (unseeded (storePiccSettings version c p.toPiccSettingsImage)) none
      (dfcCredentialKeyLength p.keySettings2) p.keys)) : q (loadPicc version c p) :=
  loadGroup_ind hdam (loadGroup_ind hvc (loadGroup_ind hprox (hcaps _ _ hkeys) _) _) _

theorem placeKeys_none_apps (c : DfcCredential) (keyLen : ℕ) (keys : List KeyImage) :
    (placeKeys c none keyLen keys).apps = c.apps := by
  rw [placeKeys]
  split_ifs <;> rfl

theorem loading_loadPicc {version : ℕ} {card : CardImage} {p : PiccImage}
    (hp : p.Loadable version (storeCard dfcCredentialClear card)) :
    Loading (loadPicc version (storeCard dfcCredentialClear card) p) := by
  refine loadPicc_ind (fun _ _ h => ⟨h.fresh, h.pools⟩) (fun _ _ h => ⟨h.fresh, h.pools⟩)
    (fun _ _ h => ⟨h.fresh, h.pools⟩) (fun _ _ h => ⟨h.fresh, h.pools⟩) ⟨?_, ?_⟩
  · intro j _
    rw [placeKeys_none_apps]
    rfl
  · exact poolsBounded_placeKeys ⟨Nat.zero_le _, Nat.zero_le _⟩ hp.keys

/-- What the decoder makes of an image. -/
def loadImage (version : ℕ) (w : Image) : DfcCredential :=
  let c := loadPicc version (storeCard dfcCredentialClear w.card) w.picc
  w.picc.files.foldl (loadFile dfcFileOwnerPicc) (w.apps.foldl (loadApp version) c)

/-- The images the decoder can load. -/
structure Image.Loadable (version : ℕ) (w : Image) : Prop where
  known : dfcMinReadFormatVersion ≤ version ∧ version ≤ dfcFormatVersion
  card : w.card.Loadable version
  picc : w.picc.Loadable version (storeCard dfcCredentialClear w.card)
  apps : AllFrom (AppImage.Loadable version) (loadApp version)
    (loadPicc version (storeCard dfcCredentialClear w.card) w.picc) w.apps
  files : AllFrom (FileImage.Loadable dfcFileOwnerPicc) (loadFile dfcFileOwnerPicc)
    (w.apps.foldl (loadApp version)
      (loadPicc version (storeCard dfcCredentialClear w.card) w.picc)) w.picc.files

theorem imageComponents_fields {version : ℕ} {w : Image} {body : Slice}
    (hb : body.length ≤ 0xFFFF) :
    body = encFields (imageComponents version w) ↔ ∃ f, rFields body credentialOrder = some f ∧
      ∀ p ∈ imageComponents version w, fGet f p.1 = p.2 :=
  eq_encFields_iff rfl (by decide) (by decide) (by decide) hb

theorem piccComponents_fields {p : PiccImage} {body : Slice} (hb : body.length ≤ 0xFFFF) :
    body = encFields (piccComponents p) ↔
      ∃ f, rFields body piccOrder = some f ∧ ∀ q ∈ piccComponents p, fGet f q.1 = q.2 :=
  eq_encFields_iff rfl (by decide) (by decide) (by decide) hb

theorem decodeApps_eq_ok {version : ℕ} {c c' : DfcCredential} {body : Slice}
    (hb : body.length ≤ 0xFFFF) (hc : Loading c) :
    rWalk .malformed (decodeApp version) body.length body c = .ok c' ↔ ∃ apps : List AppImage,
      body = encItems (appItems apps) ∧
      AllFrom (AppImage.Loadable version) (loadApp version) c apps ∧
        c' = apps.foldl (loadApp version) c := by
  rw [rWalk_loads_of Loading (decodeApp version) (fun _ a => sequenceItem (appComponents a))
    (AppImage.Loadable version) (loadApp version) hb (fun _ _ => lowTag_sequence)
    (fun _ _ h ha => h.loadApp ha) (fun _ _ _ h hr => decodeApp_eq_ok hr h) hc]
  simp only [itemsFrom_const, appItems]

/-- The decoder reads one TLV and nothing behind it. -/
theorem rTlv_all {input : Slice} {tag : UInt8} {body : Slice} (ht : LowTag tag)
    (hlen : input.length ≤ 0xFFFF) :
    rTlv input = some (⟨tag, body⟩, []) ↔ input = encTlv tag body := by
  constructor
  · intro h
    have := (rTlv_some h).1
    rwa [List.append_nil] at this
  · rintro rfl
    have hb : body.length ≤ 0xFFFF := Nat.le_of_succ_le ((length_body_le tag body).trans hlen)
    have := rTlv_encTlv [] ht hb
    rwa [List.append_nil] at this

theorem forall_mem_imageComponents {version : ℕ} {w : Image} {f : Fields} :
    (∀ p ∈ imageComponents version w, fGet f p.1 = p.2) ↔
      fGet f Tag.credVersion = intField version ∧
      fGet f Tag.credCard = some (encFields (cardComponents w.card)) ∧
      fGet f Tag.credPicc = some (encFields (piccComponents w.picc)) ∧
      fGet f Tag.credApps = some (encItems (appItems w.apps)) := by
  simp only [imageComponents, List.forall_mem_cons, List.not_mem_nil, false_implies, implies_true,
    and_true]

/-- A decode succeeds on exactly the encodings of the images that can be loaded and pass the
model check. -/
theorem decodeCredential_eq_ok {input : Slice} {c : DfcCredential} :
    decodeCredential input = .ok c ↔ ∃ (version : ℕ) (w : Image), input = encImage version w ∧
      input.length ≤ dfcDerMaxSize ∧ w.Loadable version ∧
      modelCheck (loadImage version w) = .ok () ∧
      c = { loadImage version w with dirty := false } := by
  have hlow : LowTag Tag.credential := by decide
  have hflen (body : Slice) (order : List UInt8) (hn : order.Nodup) (hb : body.length ≤ 0xFFFF)
      (f : Fields) (hf : rFields body order = some f) :
      ∀ tag b, fGet f tag = some b → b.length ≤ 0xFFFF :=
    fun tag b h => (fGet_length hn hf h).trans hb
  simp only [decodeCredential, bind_eq_ok, refuseIf_eq_ok, orFail_eq_ok, pure_eq_ok,
    not_not, not_lt, not_or, rUint_eq_some 0xFF (by decide)]
  constructor
  · rintro ⟨_, hlen, ⟨⟨tag, body⟩, rest⟩, hroot, _, htag, _, hrest, cf, hcf, version, ⟨hver, -⟩, _,
      hrange, card, hcard, c₁, hc₁, picc, hpicc, pf, hpf, c₂, hc₂, apps, happs, c₃, hc₃, files,
      hfiles, c₄, hc₄, _, hcheck, rfl⟩
    dsimp only at htag hrest hcf
    subst htag
    obtain rfl : rest = [] := List.eq_nil_of_length_eq_zero hrest
    have hinput := (rTlv_all hlow hlen).mp hroot
    have hbody : body.length ≤ 0xFFFF := by
      rw [hinput] at hlen
      exact Nat.le_of_succ_le ((length_body_le _ _).trans hlen)
    have hcfl := hflen body _ (by decide) hbody cf hcf
    have hpfl := hflen picc _ (by decide) (hcfl _ _ hpicc) pf hpf
    obtain ⟨x, rfl, hx, rfl⟩ := (decodeCard_eq_ok (hcfl _ _ hcard)).mp hc₁
    obtain ⟨fs, hfs, hfall, rfl⟩ := (decodeFiles_eq_ok (hpfl _ _ hfiles)).mp hc₄
    rw [hfs] at hfiles
    obtain ⟨p, hpf', hpget, hp, rfl⟩ := (decodePicc_eq_ok hpfl (seeded_storeCard x) hfiles).mp hc₂
    obtain ⟨as, rfl, hall, rfl⟩ := (decodeApps_eq_ok (hcfl _ _ happs) (loading_loadPicc hp)).mp hc₃
    have hpicc' := (piccComponents_fields (hcfl _ _ hpicc)).mpr ⟨pf, hpf, hpget⟩
    rw [hpicc'] at hpicc
    subst hpf'
    refine ⟨version, ⟨x, p, as⟩, ?_, hlen, ⟨hrange, hx, hp, hall, hfall⟩, hcheck, rfl⟩
    rw [encImage, hinput]
    congr 1
    exact (imageComponents_fields hbody).mpr
      ⟨cf, hcf, forall_mem_imageComponents.mpr ⟨hver, hcard, hpicc, happs⟩⟩
  · rintro ⟨version, w, hinput, hlen, hw, hcheck, rfl⟩
    have hbody : (encFields (imageComponents version w)).length ≤ 0xFFFF := by
      rw [hinput, encImage] at hlen
      exact Nat.le_of_succ_le ((length_body_le Tag.credential _).trans hlen)
    obtain ⟨cf, hcf, hget⟩ := (imageComponents_fields hbody).mp rfl
    obtain ⟨hver, hcard, hpicc, happs⟩ := forall_mem_imageComponents.mp hget
    have hcfl := hflen _ _ (by decide) hbody cf hcf
    obtain ⟨pf, hpf, hpget⟩ := (piccComponents_fields (hcfl _ _ hpicc)).mp rfl
    have hpfl := hflen _ _ (by decide) (hcfl _ _ hpicc) pf hpf
    have hfiles := (forall_mem_piccComponents.mp hpget).2.2.1
    have hv := hw.known
    simp only [dfcMinReadFormatVersion, dfcFormatVersion] at hv
    exact ⟨(), hlen, (⟨Tag.credential, _⟩, []), (rTlv_all hlow hlen).mpr hinput, (),
      rfl, (), rfl, cf, hcf, version, ⟨hver, by omega⟩, (), hw.known, _, hcard, _,
      (decodeCard_eq_ok (hcfl _ _ hcard)).mpr ⟨w.card, rfl, hw.card, rfl⟩, _, hpicc, pf, hpf, _,
      (decodePicc_eq_ok hpfl (seeded_storeCard w.card) hfiles).mpr ⟨w.picc, rfl, hpget,
        hw.picc, rfl⟩,
      _, happs, _, (decodeApps_eq_ok (hcfl _ _ happs) (loading_loadPicc hw.picc)).mpr
        ⟨w.apps, rfl, hw.apps, rfl⟩, _, hfiles, _,
      (decodeFiles_eq_ok (hpfl _ _ hfiles)).mpr ⟨w.picc.files, rfl, hw.files, rfl⟩, (), hcheck, rfl⟩

end DfcCore
