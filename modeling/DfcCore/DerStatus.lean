import DfcCore.DerDecode
import DfcCore.Outcome

/-!
# The status of a decode

`dfc_der_decode` reports the status of the pass below it. No pass stops with the status of a
success, so a decode that answers `ok` has accepted the file and leaves the card read from it;
every other leaves the empty card.
-/
namespace DfcCore
open Der

/-- A pass that stops names a failure. -/
abbrev NamesFailure {α : Type} (x : Except DfcModelStatus α) : Prop := StopsWith (· ≠ .ok) x

@[simp] theorem namesFailure_checkEach {n : ℕ} {check : ℕ → Except DfcModelStatus Unit}
    (h : ∀ i, NamesFailure (check i)) : NamesFailure (checkEach n check) := by
  unfold checkEach
  induction List.range n with
  | nil => exact StopsWith.pure ()
  | cons i is ih => exact StopsWith.bind_iff.mpr ⟨h i, fun _ _ => ih⟩

section Validation
variable (c : DfcCredential) (f : DfcFile) (i : ℕ)

@[simp] theorem namesFailure_modelAuthCheck (hasCommands : Bool) (commands : UInt8)
    (hasPreferred : Bool) (preferred keySettings2 : UInt8) (generation : ℕ) (hasSmDisable : Bool)
    (smDisable : UInt8) :
    NamesFailure (modelAuthCheck hasCommands commands hasPreferred preferred keySettings2 generation
      hasSmDisable smDisable) := by
  simp [modelAuthCheck]

@[simp] theorem namesFailure_modelContentsCheck : NamesFailure (modelContentsCheck c f) := by
  simp [modelContentsCheck, modelDataCheck, modelValueCheck, modelTransactionMacCheck,
    modelRecordCheck]

@[simp] theorem namesFailure_modelSdmCheck (keyCount : ℕ) :
    NamesFailure (modelSdmCheck f keyCount) := by
  simp [modelSdmCheck, modelSdmOffsetCheck]

@[simp] theorem namesFailure_modelFileCheck : NamesFailure (modelFileCheck c i) := by
  simp [modelFileCheck]

@[simp] theorem namesFailure_modelAppCheck : NamesFailure (modelAppCheck c i) := by
  simp [modelAppCheck]

@[simp] theorem namesFailure_modelCheck : NamesFailure (modelCheck c) := by
  simp [modelCheck, modelPiccCheck, modelAppAuthCheck]

end Validation

section Decoder
variable (c : DfcCredential) (body : Slice) (i version : ℕ)

@[simp] theorem namesFailure_decodeSdm (file : DfcFile) : NamesFailure (decodeSdm file body) := by
  simp [decodeSdm]

@[simp] theorem namesFailure_decodeKeyFields (slot keyLen : ℕ) :
    NamesFailure (decodeKeyFields body slot keyLen) := by
  simp [decodeKeyFields]

@[simp] theorem namesFailure_countItems : NamesFailure (countItems body) := by
  simp [countItems]

@[simp] theorem namesFailure_decodeKeys (app : Option ℕ) (keyLen maxKeys : ℕ) :
    NamesFailure (decodeKeys c app body keyLen maxKeys) := by
  simp [decodeKeys, decodeKey]

@[simp] theorem namesFailure_decodeKeySetKey (index keyCount required : ℕ)
    (st : DfcCredential × ℕ) (tlv : Tlv) :
    NamesFailure (decodeKeySetKey i index keyCount required st tlv) := by
  simp [decodeKeySetKey]

@[simp] theorem namesFailure_decodeKeySet (keyCount maxSize : ℕ) (st : DfcCredential × ℕ)
    (item : Tlv) : NamesFailure (decodeKeySet i keyCount maxSize st item) := by
  simp [decodeKeySet]

@[simp] theorem namesFailure_decodeKeySets : NamesFailure (decodeKeySets c i body) := by
  simp [decodeKeySets]

@[simp] theorem namesFailure_decodeDataContents : NamesFailure (decodeDataContents c i body) := by
  have hknown (c : DfcCredential) (size : ℕ) (known : Option Slice) :
      NamesFailure (decodeKnown c i size known) := by
    cases known <;> simp [decodeKnown, decodeOctets]
  simp [decodeDataContents, hknown]

@[simp] theorem namesFailure_decodeRecordContents :
    NamesFailure (decodeRecordContents c i body) := by
  simp [decodeRecordContents, countRecords, copyRecords]

@[simp] theorem namesFailure_decodeContents (f : Fields) :
    NamesFailure (decodeContents c i f) := by
  simp [decodeContents, decodeValueContents, decodeTransactionMacContents]

@[simp] theorem namesFailure_decodeFileSdm (sdm : Option Slice) :
    NamesFailure (decodeFileSdm c i sdm) := by
  cases sdm <;> simp [decodeFileSdm]

@[simp] theorem namesFailure_decodeFiles (owner : ℕ) : NamesFailure (decodeFiles owner c body) := by
  simp [decodeFiles, decodeFile]

@[simp] theorem namesFailure_decodeAuth (auth preferred : Option Slice) :
    NamesFailure (decodeAuth version auth preferred) := by
  simp [decodeAuth]

@[simp] theorem namesFailure_decodeAppSettings (af : Fields) :
    NamesFailure (decodeAppSettings version c i af) := by
  simp [decodeAppSettings]

@[simp] theorem namesFailure_decodeKeyStore (af : Fields) :
    NamesFailure (decodeKeyStore c i af) := by
  unfold decodeKeyStore
  split <;> simp

@[simp] theorem namesFailure_decodeAppTail (app : DfcApplication) (af : Fields) :
    NamesFailure (decodeAppTail version app af) := by
  have hdelegated (app : DfcApplication) (delegated : Option Slice) :
      NamesFailure (decodeAppDelegated version app delegated) := by
    cases delegated <;> simp [decodeAppDelegated, decodeDelegated]
  simp [decodeAppTail, hdelegated]

@[simp] theorem namesFailure_decodeApp (tlv : Tlv) : NamesFailure (decodeApp version c tlv) := by
  simp [decodeApp]

@[simp] theorem namesFailure_decodeCard : NamesFailure (decodeCard version c body) := by
  simp [decodeCard]

@[simp] theorem namesFailure_decodePiccSettings (pf : Fields) :
    NamesFailure (decodePiccSettings version c pf) := by
  simp [decodePiccSettings]

/-- An absent group is passed over. -/
theorem namesFailure_decodeGroup
    {decode : DfcCredential → Slice → Except DfcModelStatus DfcCredential}
    (h : ∀ c body, NamesFailure (decode c body)) (field : Option Slice) :
    NamesFailure (decodeGroup decode c field) := by
  cases field with
  | none => simp [decodeGroup]
  | some body => exact h c body

@[simp] theorem namesFailure_decodePicc (pf : Fields) : NamesFailure (decodePicc version c pf) := by
  simp [decodePicc, namesFailure_decodeGroup, decodeProximity, decodeVirtualCard, decodeDam]

theorem namesFailure_decodeCredential (input : Slice) : NamesFailure (decodeCredential input) := by
  simp [decodeCredential]

end Decoder

/-- A decode answers `ok` for the files the passes accept, and leaves the card read from them. -/
theorem dfcDerDecode_eq_ok {input : Slice} {c : DfcCredential} :
    dfcDerDecode input = (.ok, c) ↔ decodeCredential input = .ok c := by
  unfold dfcDerDecode
  cases h : decodeCredential input with
  | ok c' => simp
  | error st =>
    have hst : st ≠ .ok := (namesFailure_decodeCredential input).of_error h
    simp [hst]

/-- Every other answer leaves the empty card. -/
theorem dfcDerDecode_of_ne_ok {input : Slice} (h : (dfcDerDecode input).1 ≠ .ok) :
    (dfcDerDecode input).2 = dfcCredentialClear := by
  unfold dfcDerDecode at h ⊢
  cases hd : decodeCredential input with
  | ok c => simp [hd] at h
  | error st => rfl

end DfcCore
