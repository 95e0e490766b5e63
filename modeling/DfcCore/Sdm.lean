import DfcCore.AsciiHex
import DfcCore.BlockCipher
import DfcCore.FileSettings

/-!
# Secure dynamic messaging

The renderer of the card (`render_sdm_read_in_place`), which mirrors the identifier, the read
counter, enciphered file data and a MAC into a copy of the file, and the back end's
`dfc_sdm_verify_ascii`, which takes such a copy apart again. The block cipher is a parameter.
A rendering that fails leaves nothing behind: its caller restores the cache and the counter.
The buffers of the verifier do not overlap.
-/
namespace DfcCore
open Der Cmac

abbrev dfcSdmReadCacheSize : ℕ := 192
abbrev dfcAesKeyLength : ℕ := 16
abbrev dfcSdmPiccDataBlockLength : ℕ := dfcAesKeyLength
abbrev dfcDesfireUidMaxLength : ℕ := 10
abbrev dfcWireMacLength : ℕ := 8
abbrev dfcSdmHexExpansion : ℕ := 2
abbrev dfcSdmPiccUidTagMask : UInt8 := 0x80

/-- `dfc_crypto_aes_cbc`: the output, and the value the initial one is updated to. -/
def dfcCryptoAesCbc (cipher : BlockCipher 16) (encrypt : Bool) (key iv input : List UInt8) :
    Option (List UInt8 × List UInt8) :=
  if key.length ≠ 16 ∨ input.length % 16 ≠ 0 then none
  else if encrypt then some (Cbc.forward (cipher.encrypt key) 16 (input.length / 16) iv input)
  else some (Cbc.backward (cipher.decrypt key) 16 (input.length / 16) iv input)

def dfcSdmDeriveSessionKey (cipher : BlockCipher 16) (staticKey : List UInt8)
    (labelHigh labelLow : UInt8) (uid : List UInt8) (includeUid : Bool) (readCounter : ℕ)
    (includeReadCounter : Bool) : Option (List UInt8) :=
  if includeUid = true ∧ uid.length ≠ 7 ∧ uid.length ≠ 10 then none
  else
    let vector := [labelHigh, labelLow, 0x00, 0x01, 0x00, 0x80] ++
      (if includeUid then uid else []) ++
      (if includeReadCounter then leOctets 3 readCounter else [])
    some (aesCmac cipher.encrypt staticKey (padded vector))

inductive DfcSdmReadFamily where
  | native | nativeIsoDep | iso7816
  deriving Repr, DecidableEq

inductive DfcSdmRenderStatus where
  | ok | failed | randomExhausted
  deriving Repr, DecidableEq

/-- The copy of a file as it was last rendered. -/
structure DfcSdmReadCache where
  valid : Bool := false
  fileNumber : UInt8 := 0
  family : DfcSdmReadFamily := .native
  octets : Mem := Mem.zero
  length : ℕ := 0

def sdmReadCacheMatches (cache : DfcSdmReadCache) (file : DfcFile) (family : DfcSdmReadFamily) :
    Bool :=
  cache.valid && cache.fileNumber == file.number && cache.family == family

def sdmRangeFits (file : DfcFile) (offset : UInt32) (length : ℕ) : Bool :=
  decide (offset.toNat ≤ file.dataLen) && decide (length ≤ file.dataLen - offset.toNat)

/-- Whether the file mirrors the option, in clear or enciphered. -/
def sdmFileOption (file : DfcFile) (mask : UInt8) : Bool :=
  sdmOption file.state.data.sdm.options mask

def sdmHasMac (file : DfcFile) : Bool :=
  dfcFileSdmFlagIsSet file .macInputOffset && dfcFileSdmFlagIsSet file .macOffset

def sdmPiccClearLength (c : DfcCredential) : ℕ :=
  if c.uidLen = dfcDesfireUidMaxLength then dfcSdmPiccDataBlockLength * 2
  else dfcSdmPiccDataBlockLength

/-- The ranges the renderer checks before it reads the file. -/
def sdmRangesAreValid (c : DfcCredential) (file : DfcFile) : Bool :=
  let sdm := file.state.data.sdm
  (!dfcFileSdmFlagIsSet file .uidOffset ||
    sdmRangeFits file sdm.uidOffset (c.uidLen * dfcSdmHexExpansion)) &&
  (!dfcFileSdmFlagIsSet file .counterOffset || sdmRangeFits file sdm.counterOffset 6) &&
  (!dfcFileSdmFlagIsSet file .piccDataOffset ||
    sdmRangeFits file sdm.piccDataOffset (sdmPiccClearLength c * dfcSdmHexExpansion)) &&
  (!sdmHasMac file || decide (sdm.macInputOffset ≤ sdm.macOffset) &&
    sdmRangeFits file sdm.macOffset (dfcWireMacLength * dfcSdmHexExpansion)) &&
  (!dfcFileSdmFlagIsSet file .encryptedFile ||
    sdm.encryptedFileLength != 0 &&
    sdm.encryptedFileLength.toNat % (dfcAesKeyLength * dfcSdmHexExpansion) == 0 &&
    sdmRangeFits file sdm.encryptedFileOffset sdm.encryptedFileLength.toNat &&
    decide (sdm.encryptedFileLength.toNat / dfcSdmHexExpansion ≤ dfcSdmReadCacheSize))

/-- The octets of the identifier. -/
def cardUid (c : DfcCredential) : List UInt8 := c.uid.read 0 c.uidLen

/-- Octets of random padding in the block of identifier and counter. -/
def sdmRandomPaddingLength (c : DfcCredential) (file : DfcFile) : ℕ :=
  sdmPiccClearLength c - 1 - c.uidLen -
    (if sdmFileOption file dfcSdmCounterMirrorMask then 3 else 0)

/-- The block of identifier and counter before it is enciphered. -/
def sdmPiccClear (c : DfcCredential) (file : DfcFile) (counter : ℕ) (padding : List UInt8) :
    List UInt8 :=
  let mirrorsCounter := sdmFileOption file dfcSdmCounterMirrorMask
  (dfcSdmPiccUidTagMask ||| (if mirrorsCounter then dfcSdmCounterMirrorMask else 0) |||
      UInt8.ofNat c.uidLen) ::
    (if c.uidLen = dfcDesfireUidMaxLength ∧ mirrorsCounter = false then padding ++ cardUid c
    else cardUid c ++ (if mirrorsCounter then leOctets 3 counter else []) ++ padding)

/-- The sixteen octets at the slot of an application's key. -/
def sdmKey (c : DfcCredential) (app : Option ℕ) (slot : ℕ) : Option (List UInt8) :=
  match app with
  | none => none
  | some i => (dfcCredentialKey c (some i) slot).map fun start =>
    c.keyPool.read start dfcAesKeyLength

/-- Whether the card's session keys depend on the identifier. -/
def sdmIncludesUid (file : DfcFile) : Bool := sdmFileOption file dfcSdmUidMirrorMask

/-- Whether the card's session keys depend on the counter. -/
def sdmIncludesCounter (file : DfcFile) : Bool :=
  sdmFileOption file dfcSdmCounterMirrorMask &&
    (sdmMetaRead file.state.data.sdm.accessRights != dfcSdmFreeAccess ||
      dfcFileSdmFlagIsSet file .counterOffset)

section
variable (cipher : BlockCipher 16)

def sdmDeriveKey (staticKey : List UInt8) (labelHigh labelLow : UInt8) (c : DfcCredential)
    (file : DfcFile) (counter : ℕ) : Option (List UInt8) :=
  dfcSdmDeriveSessionKey cipher staticKey labelHigh labelLow (cardUid c) (sdmIncludesUid file)
    counter (sdmIncludesCounter file)

/-- The identifier as it is mirrored in clear. -/
def sdmPlainUid (c : DfcCredential) : List UInt8 :=
  if c.piccRandomId then List.replicate c.uidLen 0 else cardUid c

def mirrorUid (c : DfcCredential) (file : DfcFile) (octets : Mem) : Mem :=
  if dfcFileSdmFlagIsSet file .uidOffset then
    octets.write file.state.data.sdm.uidOffset.toNat (AsciiHex.encode (sdmPlainUid c))
  else octets

def mirrorCounter (file : DfcFile) (counter : ℕ) (octets : Mem) : Mem :=
  if dfcFileSdmFlagIsSet file .counterOffset then
    octets.write file.state.data.sdm.counterOffset.toNat
      (AsciiHex.encode (leOctets 3 counter).reverse)
  else octets

/-- The enciphered block is under key zero of the application. -/
def mirrorPiccData (c : DfcCredential) (app : Option ℕ) (file : DfcFile) (counter : ℕ)
    (padding : List UInt8) (octets : Mem) : Option Mem :=
  if dfcFileSdmFlagIsSet file .piccDataOffset then do
    let metaKey ← sdmKey c app 0
    let (encrypted, _) ← dfcCryptoAesCbc cipher true metaKey zeroBlock
      (sdmPiccClear c file counter padding)
    return octets.write file.state.data.sdm.piccDataOffset.toNat (AsciiHex.encode encrypted)
  else some octets

def sdmCounterBlock (counter : ℕ) : List UInt8 := leOctets 3 counter ++ List.replicate 13 0

/-- The octets of the file that are enciphered: as many as fit the range in digits. -/
def sdmEncipheredSource (c : DfcCredential) (file : DfcFile) (start : ℕ) : List UInt8 :=
  c.filePool.read (start + file.state.data.sdm.encryptedFileOffset.toNat)
    (file.state.data.sdm.encryptedFileLength.toNat / dfcSdmHexExpansion)

def mirrorFileData (c : DfcCredential) (file : DfcFile) (start counter : ℕ)
    (fileReadKey : List UInt8) (octets : Mem) : Option Mem :=
  if dfcFileSdmFlagIsSet file .encryptedFile then do
    let sessionKey ← sdmDeriveKey cipher fileReadKey 0xC3 0x3C c file counter
    let (fileIv, _) ← dfcCryptoAesCbc cipher true sessionKey zeroBlock (sdmCounterBlock counter)
    let (encrypted, _) ← dfcCryptoAesCbc cipher true sessionKey fileIv
      (sdmEncipheredSource c file start)
    return octets.write file.state.data.sdm.encryptedFileOffset.toNat (AsciiHex.encode encrypted)
  else some octets

def mirrorMac (c : DfcCredential) (file : DfcFile) (counter : ℕ) (fileReadKey : List UInt8)
    (octets : Mem) : Option Mem :=
  if sdmHasMac file then do
    let sdm := file.state.data.sdm
    let sessionKey ← sdmDeriveKey cipher fileReadKey 0x3C 0xC3 c file counter
    let input := octets.read sdm.macInputOffset.toNat
      (sdm.macOffset.toNat - sdm.macInputOffset.toNat)
    let mac := dfcTruncateAesWireMac (aesCmac cipher.encrypt sessionKey input)
    return octets.write sdm.macOffset.toNat (AsciiHex.encode mac)
  else some octets

/-- The key of file data and MAC is looked up only where one of them is mirrored. -/
def sdmFileReadKey (c : DfcCredential) (app : Option ℕ) (file : DfcFile) : Option (List UInt8) :=
  if dfcFileSdmFlagIsSet file .encryptedFile || sdmHasMac file then
    sdmKey c app (sdmFileRead file.state.data.sdm.accessRights)
  else some []

/-- Mirrors everything the settings ask for into a copy of the file. -/
def renderSdmMirrors (c : DfcCredential) (app : Option ℕ) (file : DfcFile) (start counter : ℕ)
    (padding : List UInt8) (octets : Mem) : Option Mem := do
  let octets := octets.write 0 (c.filePool.read start file.dataLen)
  let fileReadKey ← sdmFileReadKey c app file
  let octets := mirrorCounter file counter (mirrorUid c file octets)
  let octets ← mirrorPiccData cipher c app file counter padding octets
  let octets ← mirrorFileData cipher c file start counter fileReadKey octets
  mirrorMac cipher c file counter fileReadKey octets

/-- Random octets are drawn only for the block of identifier and counter. -/
def sdmPadding (random : Option Mem) (c : DfcCredential) (file : DfcFile) :
    Except DfcSdmRenderStatus (List UInt8) :=
  if dfcFileSdmFlagIsSet file .piccDataOffset then
    orFail .randomExhausted (random.map fun m => m.read 0 (sdmRandomPaddingLength c file))
  else .ok []

/-- Renders the file at `i` into the cache, with the octets `random` gives. A copy that was
rendered for the same file and family is kept. -/
def renderSdmReadInPlace (random : Option Mem) (e : DfcEmulator) (cache : DfcSdmReadCache) (i : ℕ)
    (family : DfcSdmReadFamily) :
    Except DfcSdmRenderStatus (DfcEmulator × DfcSdmReadCache) :=
  let c := e.credential
  let file := c.files i
  if sdmReadCacheMatches cache file family then .ok (e, cache)
  else do
    refuseIf (0xFFFFFF ≤ file.state.data.sdmReadCounter) .failed
    refuseIf (dfcSdmReadCacheSize < file.dataLen) .failed
    refuseIf (sdmRangesAreValid c file = false) .failed
    let start ← orFail .failed (dfcFileData c file)
    let padding ← sdmPadding random c file
    let counter := file.state.data.sdmReadCounter + 1
    refuseIf (dfcFileSdmFlagIsSet file .counterLimit = true ∧
      file.state.data.sdm.counterLimit < counter) .failed
    let octets ← orFail .failed (renderSdmMirrors cipher c (dfcEmulatorCurrentApp e) file start
      counter.toNat padding cache.octets)
    return (e.mapCredential fun c => c.modifyFile i fun file =>
        file.withData { file.state.data with sdmReadCounter := counter },
      { valid := true, fileNumber := file.number, family, octets, length := file.dataLen })

end

inductive DfcSdmVerifyStatus where
  | malformed | unsupported | authenticationFailed | bufferTooSmall | cryptoFailed
  deriving Repr, DecidableEq

/-- Where the parts of a message stand; a field that is not present has no offset. -/
structure DfcSdmVerifyConfig where
  plainUidLength : ℕ := 0
  plainUid : Option ℕ := none
  plainReadCounter : Option ℕ := none
  encryptedPiccData : Option ℕ := none
  encryptedPiccDataLength : ℕ := 0
  encryptedFileData : Option ℕ := none
  encryptedFileDataLength : ℕ := 0
  macInputOffset : ℕ := 0
  macOffset : ℕ := 0
  deriving Repr, DecidableEq

structure DfcSdmVerifyResult where
  uid : Option (List UInt8) := none
  readCounter : Option ℕ := none
  decryptedFileDataLength : ℕ := 0
  deriving Repr, DecidableEq

def rangeFits (total offset length : ℕ) : Bool :=
  decide (offset ≤ total) && decide (length ≤ total - offset)

/-- The fields of identifier and counter: enciphered together, or each in clear. -/
def sdmCardFieldsValid (config : DfcSdmVerifyConfig) (messageLength : ℕ) : Bool :=
  match config.encryptedPiccData with
  | some offset =>
    config.plainUid.isNone && config.plainUidLength == 0 && config.plainReadCounter.isNone &&
    (config.encryptedPiccDataLength == 32 || config.encryptedPiccDataLength == 64) &&
    rangeFits messageLength offset config.encryptedPiccDataLength
  | none =>
    config.encryptedPiccDataLength == 0 &&
    (match config.plainUid with
      | some offset =>
        (config.plainUidLength == 7 || config.plainUidLength == 10) &&
        rangeFits messageLength offset (config.plainUidLength * 2)
      | none => config.plainUidLength == 0) &&
    (config.plainReadCounter.all fun offset => rangeFits messageLength offset 6)

/-- The field of enciphered file data: whole blocks inside the input of the MAC. -/
def sdmFileFieldValid (config : DfcSdmVerifyConfig) (messageLength : ℕ) : Bool :=
  match config.encryptedFileData with
  | some offset =>
    config.encryptedFileDataLength != 0 && config.encryptedFileDataLength % 32 == 0 &&
    rangeFits messageLength offset config.encryptedFileDataLength &&
    decide (config.macInputOffset ≤ offset) && decide (offset ≤ config.macOffset) &&
    decide (config.encryptedFileDataLength ≤ config.macOffset - offset)
  | none => config.encryptedFileDataLength == 0

def sdmConfigValid (config : DfcSdmVerifyConfig) (messageLength : ℕ) : Bool :=
  decide (config.macInputOffset ≤ config.macOffset) &&
  rangeFits messageLength config.macOffset 16 && sdmCardFieldsValid config messageLength &&
  sdmFileFieldValid config messageLength

/-- Takes the deciphered block of identifier and counter apart. -/
def parsePiccPlaintext (clear : List UInt8) : Option DfcSdmVerifyResult :=
  let tag := clear.headD 0
  let uidLength := (tag &&& 0x0F).toNat
  let hasUid := tag &&& 0x80 != 0
  let hasCounter := tag &&& 0x40 != 0
  if tag &&& 0x30 ≠ 0 ∨ (hasUid = false ∧ uidLength ≠ 0) ∨
      (hasUid = true ∧ uidLength ≠ 7 ∧ uidLength ≠ 10) ∨ (hasUid = false ∧ hasCounter = false) then
    none
  else
    let expectedLength := if hasUid = true ∧ uidLength = 10 ∧ hasCounter = false then 32 else 16
    let needed := 1 + uidLength + (if hasCounter then 3 else 0)
    let uidOffset :=
      if uidLength = 10 ∧ hasCounter = false then clear.length - uidLength else 1
    if clear.length ≠ expectedLength ∨ clear.length < needed then none
    else
      some
        { uid := if hasUid then some ((clear.drop uidOffset).take uidLength) else none
          readCounter :=
            if hasCounter then some (leValue ((clear.drop (1 + uidLength)).take 3)) else none }

/-- A run of octets of the message. -/
def slice (message : List UInt8) (offset length : ℕ) : List UInt8 :=
  (message.drop offset).take length

/-- The digits of every field that is present are checked before any is used. -/
def sdmDigitsAreValid (message : List UInt8) (config : DfcSdmVerifyConfig) : Bool :=
  AsciiHex.valid (slice message config.macOffset 16) &&
  (config.plainUid.all fun offset =>
    AsciiHex.valid (slice message offset (config.plainUidLength * 2))) &&
  (config.plainReadCounter.all fun offset => AsciiHex.valid (slice message offset 6)) &&
  (config.encryptedPiccData.all fun offset =>
    AsciiHex.valid (slice message offset config.encryptedPiccDataLength)) &&
  (config.encryptedFileData.all fun offset =>
    AsciiHex.valid (slice message offset config.encryptedFileDataLength))

section
variable (cipher : BlockCipher 16)

def sdmPlainUidOf (message : List UInt8) (config : DfcSdmVerifyConfig) :
    Except DfcSdmVerifyStatus (Option (List UInt8)) :=
  match config.plainUid with
  | some offset =>
    some <$> orFail .malformed (AsciiHex.decode (slice message offset (config.plainUidLength * 2)))
  | none => .ok none

def sdmPlainCounterOf (message : List UInt8) (config : DfcSdmVerifyConfig) :
    Except DfcSdmVerifyStatus (Option ℕ) :=
  match config.plainReadCounter with
  | some offset =>
    (fun octets => some (leValue octets.reverse)) <$>
      orFail .malformed (AsciiHex.decode (slice message offset 6))
  | none => .ok none

/-- Identifier and counter of a message, and the octets the initial value that began as zero
holds afterwards. -/
def sdmCandidate (message : List UInt8) (config : DfcSdmVerifyConfig)
    (metaReadKey : Option (List UInt8)) :
    Except DfcSdmVerifyStatus (DfcSdmVerifyResult × List UInt8) :=
  match config.encryptedPiccData with
  | some offset => do
    let key ← orFail .malformed metaReadKey
    let encrypted ← orFail .malformed
      (AsciiHex.decode (slice message offset config.encryptedPiccDataLength))
    let (clear, iv) ← orFail .cryptoFailed (dfcCryptoAesCbc cipher false key zeroBlock encrypted)
    let candidate ← orFail .authenticationFailed (parsePiccPlaintext clear)
    return (candidate, iv)
  | none => do
    let uid ← sdmPlainUidOf message config
    let readCounter ← sdmPlainCounterOf message config
    return ({ uid, readCounter }, zeroBlock)

/-- The file data of a message whose MAC is right. -/
def sdmDecryptFileData (message : List UInt8) (config : DfcSdmVerifyConfig)
    (fileReadKey : List UInt8) (candidate : DfcSdmVerifyResult) (zeroIv : List UInt8)
    (capacity : Option ℕ) : Except DfcSdmVerifyStatus (List UInt8) :=
  match config.encryptedFileData with
  | none => .ok []
  | some offset => do
    let uid ← orFail .unsupported candidate.uid
    let readCounter ← orFail .unsupported candidate.readCounter
    let available ← orFail .bufferTooSmall capacity
    refuseIf (available < config.encryptedFileDataLength / 2) .bufferTooSmall
    let encrypted ← orFail .malformed
      (AsciiHex.decode (slice message offset config.encryptedFileDataLength))
    let sessionKey ← orFail .cryptoFailed
      (dfcSdmDeriveSessionKey cipher fileReadKey 0xC3 0x3C uid true readCounter true)
    let (iv, _) ← orFail .cryptoFailed
      (dfcCryptoAesCbc cipher true sessionKey zeroIv (sdmCounterBlock readCounter))
    let (clear, _) ← orFail .cryptoFailed (dfcCryptoAesCbc cipher false sessionKey iv encrypted)
    return clear

/-- The verified identifier and counter with the deciphered file data, or why not. -/
def dfcSdmVerifyAscii (message : List UInt8) (config : DfcSdmVerifyConfig)
    (metaReadKey : Option (List UInt8)) (fileReadKey : List UInt8) (capacity : Option ℕ) :
    Except DfcSdmVerifyStatus (DfcSdmVerifyResult × List UInt8) := do
  refuseIf (sdmConfigValid config message.length = false) .malformed
  refuseIf (sdmDigitsAreValid message config = false) .malformed
  let (candidate, zeroIv) ← sdmCandidate cipher message config metaReadKey
  let sessionMacKey ← orFail .cryptoFailed
    (dfcSdmDeriveSessionKey cipher fileReadKey 0x3C 0xC3 (candidate.uid.getD [])
      candidate.uid.isSome (candidate.readCounter.getD 0) candidate.readCounter.isSome)
  let input := slice message config.macInputOffset (config.macOffset - config.macInputOffset)
  let expectedMac := dfcTruncateAesWireMac (aesCmac cipher.encrypt sessionMacKey input)
  let receivedMac ← orFail .malformed (AsciiHex.decode (slice message config.macOffset 16))
  refuseIf (expectedMac ≠ receivedMac) .authenticationFailed
  let clear ← sdmDecryptFileData cipher message config fileReadKey candidate zeroIv capacity
  return ({ candidate with decryptedFileDataLength := config.encryptedFileDataLength / 2 }, clear)

end

end DfcCore
