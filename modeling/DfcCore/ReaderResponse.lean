import DfcCore.Credential
import DfcCore.LittleEndian

/-!
# The reader's response decoders

`dfc_response_decode_application_ids` and `dfc_response_decode_file_settings` of
`dfc_response.c`. A decoder that fails leaves the cleared result it started with, so a
failure is its status alone.
-/
namespace DfcCore

inductive DfcResponseDecodeError where
  | malformed | unsupported | bufferTooSmall
  deriving Repr, DecidableEq

/-- The entries of a listing, each turned back into the stored order. -/
def decodeAids : List UInt8 → List (List UInt8)
  | first :: middle :: last :: rest => [last, middle, first] :: decodeAids rest
  | _ => []

def dfcResponseDecodeApplicationIds (response : List UInt8) (aidCapacity : ℕ) :
    Except DfcResponseDecodeError (List (List UInt8)) :=
  if response.length % 3 ≠ 0 then .error .malformed
  else if aidCapacity < response.length / 3 then .error .bufferTooSmall
  else .ok (decodeAids response)

inductive DfcResponseAccess where
  | free | denied | key (number : ℕ)
  deriving Repr, DecidableEq

def decodeAccess (nibble : ℕ) : DfcResponseAccess :=
  if nibble = dfcAccessFree then .free
  else if nibble = dfcAccessDeny then .denied
  else .key nibble

structure DfcResponseAccessRights where
  read : DfcResponseAccess
  write : DfcResponseAccess
  readWrite : DfcResponseAccess
  change : DfcResponseAccess
  deriving Repr, DecidableEq

def decodeAccessRights (rights : UInt16) : DfcResponseAccessRights where
  read := decodeAccess (dfcAccessNibble rights 12)
  write := decodeAccess (dfcAccessNibble rights 8)
  readWrite := decodeAccess (dfcAccessNibble rights 4)
  change := decodeAccess (dfcAccessNibble rights 0)

/-- The part of the settings that depends on the kind of file. -/
inductive DfcResponseFileBody where
  | data (size : ℕ)
  | value (lowerLimit upperLimit limitedCreditValue : Int32) (limitedCreditOptions : UInt8)
      (limitedCreditEnabled : Bool)
  | records (recordSize maxRecords currentRecords : ℕ)
  deriving Repr, DecidableEq

structure DfcResponseFileSettings where
  type : UInt8
  communicationMode : UInt8
  accessRightsRaw : UInt16
  access : DfcResponseAccessRights
  settings : DfcResponseFileBody
  deriving Repr, DecidableEq

def readI32Le (bytes : List UInt8) : Int32 := (UInt32.ofNat (leValue (bytes.take 4))).toInt32

def readU24Le (bytes : List UInt8) : ℕ := leValue (bytes.take 3)

/-- The octets a settings answer of a file type has. -/
def settingsLength (type : UInt8) : Option ℕ :=
  if dfcFileTypeIsData type then some 7
  else if type == dfcFileTypeValue then some 17
  else if dfcFileTypeIsRecord type then some 13
  else none

def decodeFileBody (type : UInt8) (response : List UInt8) :
    Except DfcResponseDecodeError DfcResponseFileBody :=
  if dfcFileTypeIsData type then .ok (.data (readU24Le (response.drop 4)))
  else if type = dfcFileTypeValue then
    let options := response.getD 16 0
    if options &&& ~~~0x03 ≠ 0 then .error .unsupported
    else .ok (.value (readI32Le (response.drop 4)) (readI32Le (response.drop 8))
      (readI32Le (response.drop 12)) options (options &&& 0x01 != 0))
  else
    .ok (.records (readU24Le (response.drop 4)) (readU24Le (response.drop 7))
      (readU24Le (response.drop 10)))

def dfcResponseDecodeFileSettings (response : List UInt8) :
    Except DfcResponseDecodeError DfcResponseFileSettings :=
  let type := response.getD 0 0
  let settings := response.getD 1 0
  let mode := settings &&& dfcCommModeMask
  let rights := UInt16.ofNat (leValue ((response.drop 2).take 2))
  if response.length < 4 then .error .malformed
  else match settingsLength type with
  | none => .error .unsupported
  | some required =>
    if settings &&& ~~~dfcCommModeMask ≠ 0 then .error .unsupported
    else if response.length ≠ required then .error .malformed
    else if mode ≠ 0x00 ∧ mode ≠ 0x01 ∧ mode ≠ 0x03 then .error .unsupported
    else match decodeFileBody type response with
    | .error st => .error st
    | .ok body =>
      .ok { type := type, communicationMode := mode, accessRightsRaw := rights
            access := decodeAccessRights rights, settings := body }

end DfcCore
