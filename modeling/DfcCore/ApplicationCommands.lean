import DfcCore.NativeCommand

/-!
# Commands that take files away with their application

DeleteApplication and FormatPICC. Both end the open transaction before the file array closes up,
and both select nothing of what they have taken away. FormatPICC in a delegated application
deletes its files one by one, from the last to the first, as every deletion moves the files
behind it.
-/
namespace DfcCore
open Der

abbrev dfcApplicationGeneralOverheadBlocks : ℕ := 1
abbrev dfcDelegatedApplicationOverheadBlocks : ℕ := 1
abbrev dfcKeyStorageIndexBlocks : ℕ := 1
abbrev dfcKeyStorageKeysPerDataBlock : ℕ := 4
abbrev dfcKeyStorageUnitsPer16ByteKey : ℕ := 2
abbrev dfcKeyStorageUnitsPer24ByteKey : ℕ := 3
abbrev dfcKeyStorageSecondIndexThreshold : ℕ := 3
abbrev dfcKeyStorageThirdIndexThreshold : ℕ := 11

/-- The blocks of its quota that an application without files takes. -/
def dfcEmulatorCommandDelegatedApplicationOverheadBlocks (numKeys : UInt8) (keyLength : ℕ) : ℕ :=
  if numKeys = 0 then dfcApplicationGeneralOverheadBlocks + dfcDelegatedApplicationOverheadBlocks
  else
    let keyStorageUnits := numKeys.toNat *
      (if 16 < keyLength then dfcKeyStorageUnitsPer24ByteKey else dfcKeyStorageUnitsPer16ByteKey)
    let keyDataBlocks :=
      (keyStorageUnits + dfcKeyStorageKeysPerDataBlock - 1) / dfcKeyStorageKeysPerDataBlock
    let keyIndexBlocks := dfcKeyStorageIndexBlocks +
      (if dfcKeyStorageSecondIndexThreshold < numKeys.toNat then 1 else 0) +
      (if dfcKeyStorageThirdIndexThreshold < numKeys.toNat then 1 else 0)
    dfcApplicationGeneralOverheadBlocks + dfcDelegatedApplicationOverheadBlocks + keyIndexBlocks +
      keyDataBlocks

/-- The turns of the loop over the first `i` files, the last one first. -/
def formatSelectedApplication (c : DfcCredential) (appIndex : ℕ) : ℕ → DfcCredential
  | 0 => c
  | i + 1 =>
    formatSelectedApplication
      (if (c.files i).appIndex = appIndex then
        (dfcCredentialDeleteFile c appIndex (c.files i).number).1
      else c) appIndex i

/-- FormatPICC in a delegated application. -/
def formatDelegatedApplication (e : DfcEmulator) : Except UInt8 Answer := do
  let i ← orFail dfcStatusPermissionDenied (dfcEmulatorCurrentApp e)
  let app := e.credential.apps i
  refuseIf (app.delegated = false) dfcStatusPermissionDenied
  refuseIf (dfcEmulatorIsAuthenticatedAsMaster e = false) dfcStatusAuthenticationErr
  refuseIf (app.delegatedFormatDisabled = true) dfcStatusPermissionDenied
  -- The pending writes go back while the files still stand where the journal knows them.
  let e := (dfcEmulatorAbortTransaction e).1
  let overhead := dfcEmulatorCommandDelegatedApplicationOverheadBlocks (.ofNat app.numKeys)
    app.keyLen
  return ((e.mapCredential fun c =>
    (formatSelectedApplication c i c.numFiles).modifyApp i fun app =>
      { app with delegatedFreeBlocks :=
          if overhead ≤ app.delegatedQuotaLimit.toNat then
            .ofNat (app.delegatedQuotaLimit.toNat - overhead)
          else 0 }).markDirty, [dfcStatusOk])

def dfcEmulatorCommandFormatPicc (e : DfcEmulator) (apdu : List UInt8) : Answer :=
  e.answer do
    refuseIf (apdu.length ≠ 1) dfcStatusLengthError
    if e.selectedApplication = .app then formatDelegatedApplication e
    else
      refuseIf (e.selectedApplication ≠ .picc) dfcStatusPermissionDenied
      refuseIf (e.credential.piccFormatDisabled = true) dfcStatusIllegalCommandCode
      refuseIf (dfcEmulatorIsAuthenticatedAsMaster e = false) dfcStatusAuthenticationErr
      let e := (dfcEmulatorAbortTransaction e).1
      let e := dfcEmulatorRetireAuthentication
        (e.mapCredential fun c => dfcCredentialFormatPicc c).markDirty
      return ({ e with selectedApplication := .picc, selectedAppIndex := 0 }, [dfcStatusOk])

/-- The registry entries of these two. A shorter DeleteApplication is not answered. -/
def dispatchApplicationCommand (e : DfcEmulator) (apdu : List UInt8) : Option Handled :=
  if apdu.getD 0 0 = dfcCmdDeleteApplication then
    if apdu.length < 4 then none
    else some (.ofAnswer (dfcEmulatorCommandDeleteApplication e apdu))
  else if apdu.getD 0 0 = dfcCmdFormatPicc then
    some (.ofAnswer (dfcEmulatorCommandFormatPicc e apdu))
  else none

/-- `dfc_emulator_handle_command` on these two. -/
def dfcEmulatorHandleApplicationCommand (e : DfcEmulator) (apdu : List UInt8) :
    Option (DfcEmulator × Reply) :=
  (dispatchApplicationCommand e apdu).map (finishCommand (preserveTransactionOnFailure e apdu))

end DfcCore
