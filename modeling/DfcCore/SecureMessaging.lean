import DfcCore.NativeCommand
import DfcCore.Sdm

/-!
# Secure messaging of native sessions

What `dfc_secure_messaging.c` does to the payload of a command or an answer under a session
opened by one of the native authentications. A legacy session (D40) checks with a CRC16 and a
MAC of four octets and starts every chain from zero; the EV1 sessions check with a CRC32 that
covers the head of the command and with a CMAC, both chained from the value the last operation
left. Both block ciphers are parameters. A legacy session takes its primitive by party: the
card enciphers and the reader deciphers, in both directions.
-/
namespace DfcCore
open Cmac

abbrev dfcSmLegacyBlockSize : ℕ := 8
abbrev dfcSmLegacyMacLength : ℕ := 4
abbrev dfcSmLengthMarker : UInt8 := 0x80
abbrev dfcWorkerCmacSize : ℕ := 8
abbrev dfcCmdAuthenticateEv2First : UInt8 := 0x71
abbrev dfcCmdAuthenticateEv2NonFirst : UInt8 := 0x77
abbrev dfcCmdGetFileCounters : UInt8 := 0xF6

/-- One turn of `dfc_crc16_iso14443_extend`. -/
def crc16Octet (crc : UInt16) (octet : UInt8) : UInt16 :=
  let byte := octet ^^^ crc.toUInt8
  let byte := byte ^^^ (byte <<< 4)
  (crc >>> 8) ^^^ (byte.toUInt16 <<< 8) ^^^ (byte.toUInt16 <<< 3) ^^^ (byte.toUInt16 >>> 4)

def dfcCrc16Iso14443Extend (crc : UInt16) (data : List UInt8) : UInt16 := data.foldl crc16Octet crc

def dfcCrc16Iso14443 (data : List UInt8) : UInt16 := dfcCrc16Iso14443Extend 0x6363 data

/-- One bit of the reflected CRC32. -/
def crc32Bit (crc : UInt32) : UInt32 := (crc >>> 1) ^^^ (0xEDB88320 &&& (0 - (crc &&& 1)))

def crc32Octet (crc : UInt32) (octet : UInt8) : UInt32 := crc32Bit^[8] (crc ^^^ octet.toUInt32)

def dfcCrc32Extend (crc : UInt32) (data : List UInt8) : UInt32 := data.foldl crc32Octet crc

def dfcCrc32 (data : List UInt8) : UInt32 := dfcCrc32Extend 0xFFFFFFFF data

/-- The native authentication a session was opened by. -/
inductive DfcCipher where
  | legacy | iso | aes
  deriving Repr, DecidableEq

def DfcCipher.command : DfcCipher → UInt8
  | legacy => dfcCmdAuthenticateLegacy
  | iso => dfcCmdAuthenticateIso
  | aes => dfcCmdAuthenticateAes

def cipherAcceptsKeyLength : DfcCipher → ℕ → Bool
  | .legacy, length => length == 8 || length == 16
  | .iso, length => length == 8 || length == 16 || length == 24
  | .aes, length => length == dfcAesKeyLength

/-- A session whose key has a length its cipher takes. `iv` is the shared chaining value; a
legacy session leaves it alone. `pcd` tells the reader's end from the card's. -/
structure DfcSecureMessaging where
  cipher : DfcCipher
  sessionKey : List UInt8
  iv : List UInt8
  pcd : Bool
  keyLength : cipherAcceptsKeyLength cipher sessionKey.length = true
  ivLength : iv.length = 16

namespace DfcSecureMessaging

/-- Octets of a cipher block. -/
def blockSize (sm : DfcSecureMessaging) : ℕ :=
  if sm.cipher = .aes then dfcAesKeyLength else dfcSmLegacyBlockSize

/-- Octets of the checksum under the cipher. -/
def crcLength (sm : DfcSecureMessaging) : ℕ := if sm.cipher = .legacy then 2 else 4

/-- Rewrites the chaining value, zeros behind a short one. -/
def setIv (sm : DfcSecureMessaging) (octets : List UInt8) : DfcSecureMessaging :=
  { sm with iv := octets.takeD 16 0, ivLength := List.takeD_length .. }

end DfcSecureMessaging

/-- A CMAC chained from `iv`, over blocks of `width` octets. `reduction` is the constant of
the doubling. -/
structure CmacShape where
  width : ℕ
  reduction : UInt8

def aesCmacShape : CmacShape := ⟨16, 0x87⟩

def desCmacShape : CmacShape := ⟨8, 0x1B⟩

namespace CmacShape
variable (shape : CmacShape) (encrypt : List UInt8 → List UInt8)

def doubled (block : List UInt8) : List UInt8 :=
  let shifted := bitShiftLeft block
  if block.headD 0 &&& 0x80 ≠ 0 then
    shifted.dropLast ++ [shifted.getLastD 0 ^^^ shape.reduction]
  else shifted

/-- A full block is chained only when an octet follows it. -/
def absorb (s : List UInt8 × List UInt8) (octet : UInt8) : List UInt8 × List UInt8 :=
  if s.2.length = shape.width then (encrypt (xorBlock s.1 s.2), [octet])
  else (s.1, s.2 ++ [octet])

/-- The last block under its subkey. -/
def lastBlock (rest : List UInt8) : List UInt8 :=
  let subkey1 := shape.doubled (encrypt (List.replicate shape.width 0))
  if rest.length = shape.width then xorBlock rest subkey1
  else xorBlock (rest ++ 0x80 :: List.replicate (shape.width - 1 - rest.length) 0)
    (shape.doubled subkey1)

/-- `aes_cmac_segments_with_iv` and `des_cmac_segments_with_iv`, over the joined segments. -/
def cmacWithIv (iv message : List UInt8) : List UInt8 :=
  let s := message.foldl (shape.absorb encrypt) (iv, [])
  encrypt (xorBlock s.1 (shape.lastBlock encrypt s.2))

end CmacShape

/-- Lengths of a DES, a two-key and a three-key triple DES key. -/
def desKeyLengthIsValid (length : ℕ) : Bool := length == 8 || length == 16 || length == 24

inductive DfcCryptoDesChainDirection where
  | forward | reverse
  deriving Repr, DecidableEq

section
variable (des : BlockCipher 8) (aes : BlockCipher 16)

/-- `dfc_crypto_des_cbc`: the output, and the value the initial one is updated to. -/
def dfcCryptoDesCbc (encrypt : Bool) (key iv input : List UInt8) :
    Option (List UInt8 × List UInt8) :=
  if desKeyLengthIsValid key.length = false ∨ input.length % 8 ≠ 0 then none
  else if encrypt then some (Cbc.forward (des.encrypt key) 8 (input.length / 8) iv input)
  else some (Cbc.backward (des.decrypt key) 8 (input.length / 8) iv input)

/-- The primitive and the direction of the chain are chosen apart. -/
def dfcCryptoDesChain (primitiveEncrypt : Bool) (direction : DfcCryptoDesChainDirection)
    (key iv input : List UInt8) : Option (List UInt8) :=
  let primitive := if primitiveEncrypt then des.encrypt key else des.decrypt key
  if desKeyLengthIsValid key.length = false ∨ input.length % 8 ≠ 0 then none
  else match direction with
  | .forward => some (Cbc.forward primitive 8 (input.length / 8) iv input).1
  | .reverse => some (Cbc.backward primitive 8 (input.length / 8) iv input).1

abbrev legacyZeroIv : List UInt8 := List.replicate 8 0

/-- `d40_mac_segments`, over the joined segments: a CBC-MAC of the zero-padded payload. -/
def d40Mac (key message : List UInt8) : List UInt8 :=
  let blocks := (message.length + 7) / 8
  if message = [] then List.replicate dfcSmLegacyMacLength 0
  else (Cbc.forward (des.encrypt key) 8 blocks legacyZeroIv
    (message.takeD (blocks * 8) 0)).2.take dfcSmLegacyMacLength

namespace DfcSecureMessaging
variable (sm : DfcSecureMessaging)

/-- `compute_full_cmac_segments`. -/
def fullCmac (message : List UInt8) : List UInt8 :=
  if sm.cipher = .aes then
    aesCmacShape.cmacWithIv (aes.encrypt sm.sessionKey) sm.iv message
  else desCmacShape.cmacWithIv (des.encrypt sm.sessionKey) (sm.iv.take 8) message

/-- `cbc_encrypt` and `cbc_decrypt` of an EV1 session. The chaining value of a DES session is
the first half of the stored one. -/
def cbc (encrypt : Bool) (input : List UInt8) : Option (List UInt8 × List UInt8) :=
  if sm.cipher = .aes then dfcCryptoAesCbc aes encrypt sm.sessionKey sm.iv input
  else (dfcCryptoDesCbc des encrypt sm.sessionKey (sm.iv.take 8) input).map fun out =>
    (out.1, out.2 ++ sm.iv.drop 8)

/-- Enciphers or deciphers whole blocks, with the session afterwards. -/
def transform (encrypt : Bool) (input : List UInt8) : Option (List UInt8 × DfcSecureMessaging) :=
  if sm.cipher = .legacy then
    (dfcCryptoDesChain des (!sm.pcd) (if encrypt then .forward else .reverse) sm.sessionKey
      legacyZeroIv input).map fun out => (out, sm)
  else (sm.cbc des aes encrypt input).map fun out => (out.1, sm.setIv out.2)

end DfcSecureMessaging

/-- The commands EV1 protects. -/
def dfcSecureMessagingAppliesEv1 (cipher : DfcCipher) (cmd : UInt8) : Bool :=
  cipher != .legacy && cmd != dfcCmdSelectApplication && cmd != dfcCmdAuthenticateLegacy &&
    cmd != dfcCmdAuthenticateIso && cmd != dfcCmdAuthenticateAes &&
    cmd != dfcCmdAuthenticateEv2First && cmd != dfcCmdAuthenticateEv2NonFirst &&
    cmd != dfcCmdAdditionalFrame

/-- The commands whose EV1 form carries the command MAC. -/
def dfcSecureMessagingEv1TransmitsCommandMac (cmd : UInt8) : Bool :=
  let base := dfcFileCommandBase cmd
  base == dfcCmdWriteData || base == dfcCmdWriteRecord || base == dfcCmdUpdateRecord ||
    base == dfcCmdCredit || base == dfcCmdDebit || base == dfcCmdLimitedCredit ||
    base == dfcCmdGetFileCounters || base == dfcCmdCommitReaderId

def commModeIsValid (commMode : UInt8) : Bool :=
  commMode == dfcCommPlain || commMode == dfcCommMac || commMode == dfcCommEnciphered

/-- `dfc_secure_messaging_command_payload_length`: the octets a payload of a command takes on
the wire, under a native session or, without one, under EV2. -/
def dfcSecureMessagingCommandPayloadLength (sm : Option DfcSecureMessaging) (commMode : UInt8)
    (clearLen : ℕ) : Option ℕ :=
  let ev2 := sm.isNone
  let legacy := sm.any fun sm => sm.cipher == .legacy
  if commModeIsValid commMode = false then none
  else if commMode = dfcCommPlain then some clearLen
  else if commMode = dfcCommMac then
    some (clearLen + if legacy then dfcSmLegacyMacLength else dfcWireMacLength)
  else
    let overhead := if ev2 then 1 else if legacy then 2 else 4
    let block := match sm with
      | some sm => sm.blockSize
      | none => dfcAesKeyLength
    some ((clearLen + overhead + block - 1) / block * block +
      if ev2 then dfcWireMacLength else 0)

/-- The checksum of an enciphered payload: EV1 covers the head of the command before it and
the status of the answer behind it. -/
def DfcSecureMessaging.crcOctets (sm : DfcSecureMessaging) (head plain status : List UInt8) :
    List UInt8 :=
  if sm.cipher = .legacy then leOctets 2 (dfcCrc16Iso14443 plain).toNat
  else leOctets 4 (dfcCrc32 (head ++ plain ++ status)).toNat

/-- Octets of the cryptogram of a payload. -/
def DfcSecureMessaging.paddedLength (sm : DfcSecureMessaging) (plainLen : ℕ)
    (responsePadding : Bool) : ℕ :=
  let withCrcLen := plainLen + sm.crcLength
  let paddedLen := (withCrcLen + sm.blockSize - 1) / sm.blockSize * sm.blockSize
  if responsePadding ∧ paddedLen = withCrcLen then paddedLen + sm.blockSize else paddedLen

/-- What is enciphered for a payload: the payload, its checksum, a marker where the length is
not known on the other side, and zeros to the end of the last block. -/
def DfcSecureMessaging.paddedPayload (sm : DfcSecureMessaging) (head plain status : List UInt8)
    (responsePadding : Bool) : List UInt8 :=
  (plain ++ sm.crcOctets head plain status ++
    if responsePadding then [dfcSmLengthMarker] else []).takeD
      (sm.paddedLength plain.length responsePadding) 0

/-- `enciphered_encode`. -/
def encipheredEncode (sm : DfcSecureMessaging) (head plain status : List UInt8)
    (responsePadding : Bool) (outCapacity : ℕ) : Option (List UInt8 × DfcSecureMessaging) :=
  let paddedLen := sm.paddedLength plain.length responsePadding
  if dfcMaxFileData < plain.length ∨ dfcSmMaxCryptoSize < paddedLen ∨ outCapacity < paddedLen then
    none
  else sm.transform des aes true (sm.paddedPayload head plain status responsePadding)

/-- The first length at which the octets behind payload and checksum are padding. -/
def firstPaddedClearLength (data : List UInt8) (crcLen : ℕ) : ℕ :=
  let nonzeroEnd := (data.reverse.dropWhile (· == 0)).length
  if nonzeroEnd = 0 then 0
  else
    let lastNonzero := nonzeroEnd - 1
    let requiredCrcEnd :=
      if data.getD lastNonzero 0 = dfcSmLengthMarker then lastNonzero else lastNonzero + 1
    requiredCrcEnd - crcLen

/-- The search of `enciphered_decode` from `length` on. `crc` is the running checksum of what
lies before, `octets` is what lies behind; `stored` completes the running checksum and lays it
out as it is stored. -/
def searchBoundary {σ : Type} (crcLen : ℕ) (extend : σ → UInt8 → σ) (stored : σ → List UInt8) :
    σ → List UInt8 → ℕ → Option ℕ
  | _, [], _ => none
  | crc, octet :: octets, length =>
    if octets.length + 1 < crcLen then none
    else if (octet :: octets).take crcLen = stored crc then some length
    else searchBoundary crcLen extend stored (extend crc octet) octets (length + 1)

/-- The length at which `enciphered_decode` ends the payload: the first boundary from
`first_padded_clear_length` on whose checksum agrees. -/
def DfcSecureMessaging.clearLength (sm : DfcSecureMessaging) (head status clear : List UInt8) :
    Option ℕ :=
  let first := firstPaddedClearLength clear sm.crcLength
  if sm.cipher = .legacy then
    searchBoundary sm.crcLength crc16Octet (fun crc => leOctets 2 crc.toNat)
      (dfcCrc16Iso14443Extend 0x6363 (clear.take first)) (clear.drop first) first
  else
    searchBoundary sm.crcLength crc32Octet
      (fun crc => leOctets 4 (dfcCrc32Extend crc status).toNat)
      (dfcCrc32Extend (dfcCrc32Extend 0xFFFFFFFF head) (clear.take first)) (clear.drop first) first

/-- `enciphered_decode`. The session goes on from the new chaining value only on success. -/
def encipheredDecode (sm : DfcSecureMessaging) (head status wrapped : List UInt8)
    (outCapacity : ℕ) : Option (List UInt8) × DfcSecureMessaging :=
  if wrapped = [] ∨ dfcSmMaxCryptoSize < wrapped.length ∨ outCapacity < wrapped.length ∨
      wrapped.length % sm.blockSize ≠ 0 then (none, sm)
  else match sm.transform des aes false wrapped with
  | none => (none, sm)
  | some (clear, next) =>
    match sm.clearLength head status clear with
    | none => (none, sm)
    | some length => (some (clear.take length), next)

/-- `dfc_secure_messaging_wrap`: a command payload. No octets stand for a refusal. -/
def dfcSecureMessagingWrap (sm : DfcSecureMessaging) (commMode : UInt8) (head plain : List UInt8)
    (outCapacity : ℕ) : List UInt8 × DfcSecureMessaging :=
  if commMode = dfcCommPlain then if outCapacity < plain.length then ([], sm) else (plain, sm)
  else if commMode ≠ dfcCommEnciphered then ([], sm)
  else (encipheredEncode des aes sm head plain [] false outCapacity).getD ([], sm)

/-- `dfc_secure_messaging_unwrap`: the payload of an answer. -/
def dfcSecureMessagingUnwrap (sm : DfcSecureMessaging) (commMode status : UInt8)
    (wrapped : List UInt8) (outCapacity : ℕ) : Option (List UInt8) × DfcSecureMessaging :=
  if commMode = dfcCommPlain then
    if outCapacity < wrapped.length then (none, sm) else (some wrapped, sm)
  else if commMode ≠ dfcCommEnciphered then (none, sm)
  else encipheredDecode des aes sm [] [status] wrapped outCapacity

/-- The payload of an answer, with the marker where its length is not known at the other
end. -/
def dfcSecureMessagingGenerateResponseWithLengthMarker (sm : DfcSecureMessaging)
    (commMode status : UInt8) (plain : List UInt8) (outCapacity : ℕ) (lengthUnknown : Bool) :
    List UInt8 × DfcSecureMessaging :=
  if commMode = dfcCommPlain then if outCapacity < plain.length then ([], sm) else (plain, sm)
  else if commMode ≠ dfcCommEnciphered then ([], sm)
  else (encipheredEncode des aes sm [] plain [status] lengthUnknown outCapacity).getD ([], sm)

/-- `dfc_secure_messaging_verify_command`: no octets stand for a refusal, as for a payload of
no octets. -/
def dfcSecureMessagingVerifyCommand (sm : DfcSecureMessaging) (commMode : UInt8)
    (head wrapped : List UInt8) (outCapacity : ℕ) : List UInt8 × DfcSecureMessaging :=
  if commMode = dfcCommPlain then
    if outCapacity < wrapped.length then ([], sm) else (wrapped, sm)
  else if commMode ≠ dfcCommEnciphered then ([], sm)
  else
    let (clear, next) := encipheredDecode des aes sm head [] wrapped outCapacity
    (clear.getD [], next)

/-- `dfc_secure_messaging_wrap_d40_command_mac`. -/
def dfcSecureMessagingWrapD40CommandMac (sm : DfcSecureMessaging) (plain : List UInt8)
    (outCapacity : ℕ) : Option (List UInt8) :=
  if sm.cipher ≠ .legacy ∨ outCapacity < plain.length + dfcSmLegacyMacLength then none
  else some (plain ++ d40Mac des sm.sessionKey plain)

/-- `d40_mac_verify`. -/
def d40MacVerify (sm : DfcSecureMessaging) (wrapped : List UInt8) (outCapacity : ℕ) :
    Option (List UInt8) :=
  let plain := wrapped.take (wrapped.length - dfcSmLegacyMacLength)
  if sm.cipher ≠ .legacy ∨ wrapped.length < dfcSmLegacyMacLength ∨ outCapacity < plain.length then
    none
  else if wrapped.drop plain.length = d40Mac des sm.sessionKey plain then some plain
  else none

end

/-- The same session at the other end of the link. -/
def DfcSecureMessaging.otherEnd (sm : DfcSecureMessaging) : DfcSecureMessaging :=
  { sm with pcd := !sm.pcd }

namespace DfcSecureMessaging
variable (sm : DfcSecureMessaging) (octets : List UInt8)

@[simp] theorem otherEnd_cipher : sm.otherEnd.cipher = sm.cipher := rfl

@[simp] theorem otherEnd_sessionKey : sm.otherEnd.sessionKey = sm.sessionKey := rfl

@[simp] theorem otherEnd_iv : sm.otherEnd.iv = sm.iv := rfl

@[simp] theorem otherEnd_pcd : sm.otherEnd.pcd = !sm.pcd := rfl

end DfcSecureMessaging

section
variable {des : BlockCipher 8} {aes : BlockCipher 16} {sm : DfcSecureMessaging}

theorem DfcSecureMessaging.blockSize_cases (sm : DfcSecureMessaging) :
    sm.blockSize = 16 ∧ sm.cipher = .aes ∨ sm.blockSize = 8 ∧ sm.cipher ≠ .aes := by
  unfold DfcSecureMessaging.blockSize
  by_cases h : sm.cipher = .aes
  · exact Or.inl ⟨if_pos h, h⟩
  · exact Or.inr ⟨if_neg h, h⟩

theorem DfcSecureMessaging.desKey (hcipher : sm.cipher ≠ .aes) :
    desKeyLengthIsValid sm.sessionKey.length = true := by
  have hkey := sm.keyLength
  cases hc : sm.cipher with
  | aes => exact absurd hc hcipher
  | legacy =>
    simp only [hc, cipherAcceptsKeyLength, Bool.or_eq_true] at hkey
    simp only [desKeyLengthIsValid, Bool.or_eq_true]
    exact Or.inl hkey
  | iso =>
    rw [hc] at hkey
    exact hkey

theorem DfcSecureMessaging.aesKey (hcipher : sm.cipher = .aes) :
    sm.sessionKey.length = 16 := by
  have hkey := sm.keyLength
  rw [hcipher] at hkey
  simpa only [cipherAcceptsKeyLength, beq_iff_eq] using hkey

/-- The primitive of one party undoes that of the other. -/
theorem desPrimitive_inverse (des : BlockCipher 8) (key : List UInt8) (primitive : Bool)
    {block : List UInt8} (h : block.length = 8) :
    (if !primitive then des.encrypt key else des.decrypt key)
        ((if primitive then des.encrypt key else des.decrypt key) block) = block := by
  cases primitive with
  | false => exact des.encrypt_decrypt key block h
  | true => exact des.decrypt_encrypt key block h

theorem length_desPrimitive (des : BlockCipher 8) (key : List UInt8) (primitive : Bool)
    {block : List UInt8} (h : block.length = 8) :
    ((if primitive then des.encrypt key else des.decrypt key) block).length = 8 := by
  cases primitive with
  | false => exact des.length_decrypt key block h
  | true => exact des.length_encrypt key block h

/-- What one party chains forward, the other's primitive chains back. -/
theorem dfcCryptoDesChain_reverse (des : BlockCipher 8) {key input : List UInt8}
    (primitive : Bool) (hkey : desKeyLengthIsValid key.length = true)
    (hlen : input.length % 8 = 0) :
    ∃ out, dfcCryptoDesChain des primitive .forward key legacyZeroIv input = some out ∧
      out.length = input.length ∧
      dfcCryptoDesChain des (!primitive) .reverse key legacyZeroIv out = some input := by
  have hiv : legacyZeroIv.length = 8 := by simp
  have hblocks : input.length = input.length / 8 * 8 := by omega
  have hcheck : ¬(desKeyLengthIsValid key.length = false ∨ input.length % 8 ≠ 0) := by
    simp [hkey, hlen]
  have hout := (Cbc.length_forward (fun _ => length_desPrimitive des key primitive)
    (input.length / 8) hiv hblocks).1
  have hback := Cbc.backward_forward (fun _ => length_desPrimitive des key primitive)
    (fun _ => desPrimitive_inverse des key primitive) (input.length / 8) hiv hblocks
  rw [← hblocks] at hout
  refine ⟨_, if_neg hcheck, hout, ?_⟩
  simp only [dfcCryptoDesChain, hout, if_neg hcheck, hback]

theorem dfcCryptoDesCbc_decrypt (des : BlockCipher 8) {key iv input : List UInt8}
    (hkey : desKeyLengthIsValid key.length = true) (hlen : input.length % 8 = 0)
    (hiv : iv.length = 8) :
    ∃ out, dfcCryptoDesCbc des true key iv input = some out ∧ out.1.length = input.length ∧
      dfcCryptoDesCbc des false key iv out.1 = some (input, out.2) := by
  have hblocks : input.length = input.length / 8 * 8 := by omega
  have hcheck : ¬(desKeyLengthIsValid key.length = false ∨ input.length % 8 ≠ 0) := by
    simp [hkey, hlen]
  have hout := (Cbc.length_forward (des.length_encrypt key) (input.length / 8) hiv hblocks).1
  have hback := Cbc.backward_forward (des.length_encrypt key) (des.decrypt_encrypt key)
    (input.length / 8) hiv hblocks
  rw [← hblocks] at hout
  refine ⟨_, if_neg hcheck, hout, ?_⟩
  simp only [dfcCryptoDesCbc, hout, if_neg hcheck, Bool.false_eq_true, if_false, hback]

theorem dfcCryptoAesCbc_inverse (aes : BlockCipher 16) {key iv input : List UInt8}
    (hkey : key.length = 16) (hlen : input.length % 16 = 0) (hiv : iv.length = 16) :
    ∃ out, dfcCryptoAesCbc aes true key iv input = some out ∧ out.1.length = input.length ∧
      dfcCryptoAesCbc aes false key iv out.1 = some (input, out.2) := by
  have hblocks : input.length = input.length / 16 * 16 := by omega
  have hcheck : ¬(key.length ≠ 16 ∨ input.length % 16 ≠ 0) := by simp [hkey, hlen]
  have hout := (Cbc.length_forward (aes.length_encrypt key) (input.length / 16) hiv hblocks).1
  have hback := Cbc.backward_forward (aes.length_encrypt key) (aes.decrypt_encrypt key)
    (input.length / 16) hiv hblocks
  rw [← hblocks] at hout
  refine ⟨_, if_neg hcheck, hout, ?_⟩
  simp only [dfcCryptoAesCbc, hout, if_neg hcheck, Bool.false_eq_true, if_false, hback]

/-- What one end enciphers the other deciphers, and both go on from the same value. -/
theorem DfcSecureMessaging.transform_inverse (sm : DfcSecureMessaging) {input : List UInt8}
    (hlen : input.length % sm.blockSize = 0) :
    ∃ out next, sm.transform des aes true input = some (out, next) ∧ out.length = input.length ∧
      sm.otherEnd.transform des aes false out = some (input, next.otherEnd) ∧
      next.cipher = sm.cipher ∧ next.sessionKey = sm.sessionKey := by
  rcases sm.blockSize_cases with ⟨hsize, hcipher⟩ | ⟨hsize, hcipher⟩
  · obtain ⟨out, henc, hout, hdec⟩ := dfcCryptoAesCbc_inverse aes (sm.aesKey hcipher)
      (hsize ▸ hlen) sm.ivLength
    have hlegacy : sm.cipher ≠ .legacy := by simp [hcipher]
    refine ⟨out.1, sm.setIv out.2, ?_, hout, ?_, rfl, rfl⟩
    · rw [transform, if_neg hlegacy, cbc, if_pos hcipher, henc, Option.map_some]
    · rw [transform, otherEnd_cipher, if_neg hlegacy, cbc, otherEnd_cipher, if_pos hcipher,
        otherEnd_sessionKey, otherEnd_iv, hdec]
      rfl
  · have hmod : input.length % 8 = 0 := hsize ▸ hlen
    by_cases hlegacy : sm.cipher = .legacy
    · obtain ⟨out, henc, hout, hdec⟩ := dfcCryptoDesChain_reverse des (!sm.pcd)
        (sm.desKey hcipher) hmod
      refine ⟨out, sm, ?_, hout, ?_, rfl, rfl⟩
      · rw [transform, if_pos hlegacy, if_pos rfl, henc, Option.map_some]
      · rw [transform, otherEnd_cipher, if_pos hlegacy, if_neg Bool.false_ne_true, otherEnd_pcd,
          otherEnd_sessionKey, hdec]
        rfl
    · have hiv : (sm.iv.take 8).length = 8 := by simp [sm.ivLength]
      obtain ⟨out, henc, hout, hdec⟩ := dfcCryptoDesCbc_decrypt des (sm.desKey hcipher) hmod hiv
      refine ⟨out.1, sm.setIv (out.2 ++ sm.iv.drop 8), ?_, hout, ?_, rfl, rfl⟩
      · rw [transform, if_neg hlegacy, cbc, if_neg hcipher, henc]
        rfl
      · rw [transform, otherEnd_cipher, if_neg hlegacy, cbc, otherEnd_cipher, if_neg hcipher,
          otherEnd_sessionKey, otherEnd_iv, hdec]
        rfl

theorem takeD_of_le {α : Type} {l : List α} {n : ℕ} (a : α) (h : l.length ≤ n) :
    l.takeD n a = l ++ List.replicate (n - l.length) a := by
  induction l generalizing n with
  | nil => simp
  | cons x l ih =>
    obtain ⟨n, rfl⟩ := Nat.exists_eq_add_of_lt (Nat.lt_of_lt_of_le (Nat.succ_pos _) h)
    have hle : l.length ≤ n := by simpa using h
    simp only [Nat.zero_add, List.takeD_succ, List.head?_cons, Option.getD_some, List.tail_cons,
      ih hle, List.cons_append, List.length_cons, Nat.add_sub_add_right]

theorem DfcSecureMessaging.blockSize_pos (sm : DfcSecureMessaging) : 0 < sm.blockSize := by
  rcases sm.blockSize_cases with ⟨h, -⟩ | ⟨h, -⟩ <;> omega

@[simp] theorem DfcSecureMessaging.length_crcOctets (sm : DfcSecureMessaging)
    (head plain status : List UInt8) : (sm.crcOctets head plain status).length = sm.crcLength := by
  unfold DfcSecureMessaging.crcOctets DfcSecureMessaging.crcLength
  split_ifs <;> simp

theorem DfcSecureMessaging.length_paddedPayload (sm : DfcSecureMessaging)
    (head plain status : List UInt8) (responsePadding : Bool) :
    (sm.paddedPayload head plain status responsePadding).length =
      sm.paddedLength plain.length responsePadding := List.takeD_length ..

theorem le_roundUp {n block : ℕ} (h : 0 < block) : n ≤ (n + block - 1) / block * block := by
  have hmod := Nat.div_add_mod (n + block - 1) block
  have hlt := Nat.mod_lt (n + block - 1) h
  rw [Nat.mul_comm] at hmod
  omega

theorem DfcSecureMessaging.paddedLength_mod (sm : DfcSecureMessaging) (n : ℕ) (padding : Bool) :
    sm.paddedLength n padding % sm.blockSize = 0 := by
  unfold DfcSecureMessaging.paddedLength
  simp only
  split_ifs
  · rw [Nat.add_mod_right, Nat.mul_mod_left]
  · rw [Nat.mul_mod_left]

@[simp] theorem length_bitShiftLeft (l : List UInt8) : (bitShiftLeft l).length = l.length := by
  induction l with
  | nil => rfl
  | cons b l ih =>
    cases l with
    | nil => rfl
    | cons b' l => simpa [bitShiftLeft] using ih

namespace CmacShape
variable {shape : CmacShape} {encrypt : List UInt8 → List UInt8}

theorem length_doubled (block : List UInt8) (h : block.length ≠ 0) :
    (shape.doubled block).length = block.length := by
  unfold doubled
  simp only
  split_ifs
  · rw [List.length_append, List.length_dropLast, length_bitShiftLeft, List.length_singleton]
    omega
  · exact length_bitShiftLeft block

/-- What holds between two octets: a whole chaining value and at most one block behind it. -/
theorem length_absorb (hwidth : 0 < shape.width)
    (hencrypt : ∀ b, b.length = shape.width → (encrypt b).length = shape.width)
    (message : List UInt8) {s : List UInt8 × List UInt8} (hvalue : s.1.length = shape.width)
    (hrest : s.2.length ≤ shape.width) :
    (message.foldl (shape.absorb encrypt) s).1.length = shape.width ∧
      (message.foldl (shape.absorb encrypt) s).2.length ≤ shape.width := by
  induction message generalizing s with
  | nil => exact ⟨hvalue, hrest⟩
  | cons octet message ih =>
    rw [List.foldl_cons]
    unfold absorb
    split_ifs with hfull
    · refine ih ?_ hwidth
      apply hencrypt
      rw [length_xorBlock, hvalue, hfull, Nat.min_self]
    · refine ih hvalue ?_
      rw [List.length_append, List.length_singleton]
      omega

theorem length_cmacWithIv (hwidth : 0 < shape.width)
    (hencrypt : ∀ b, b.length = shape.width → (encrypt b).length = shape.width)
    {iv : List UInt8} (hiv : iv.length = shape.width) (message : List UInt8) :
    (shape.cmacWithIv encrypt iv message).length = shape.width := by
  obtain ⟨hvalue, hrest⟩ := length_absorb hwidth hencrypt message (s := (iv, [])) hiv
    (Nat.zero_le _)
  have hzero : (encrypt (List.replicate shape.width 0)).length = shape.width :=
    hencrypt _ (List.length_replicate ..)
  have hsub1 : (shape.doubled (encrypt (List.replicate shape.width 0))).length = shape.width :=
    (length_doubled _ (by omega)).trans hzero
  have hsub2 : (shape.doubled (shape.doubled (encrypt (List.replicate shape.width 0)))).length =
      shape.width := (length_doubled _ (by omega)).trans hsub1
  apply hencrypt
  rw [length_xorBlock, hvalue]
  unfold lastBlock
  simp only
  split_ifs with hfull
  · rw [length_xorBlock, hfull, hsub1]
    omega
  · rw [length_xorBlock, hsub2, List.length_append, List.length_cons, List.length_replicate]
    omega

end CmacShape

theorem DfcSecureMessaging.length_fullCmac (sm : DfcSecureMessaging) (message : List UInt8) :
    (sm.fullCmac des aes message).length = sm.blockSize := by
  have hiv : (sm.iv.take 8).length = 8 := by simp [sm.ivLength]
  unfold DfcSecureMessaging.fullCmac DfcSecureMessaging.blockSize
  split_ifs
  · exact CmacShape.length_cmacWithIv (by decide) (aes.length_encrypt _) sm.ivLength message
  · exact CmacShape.length_cmacWithIv (by decide) (des.length_encrypt _) hiv message

end

end DfcCore
