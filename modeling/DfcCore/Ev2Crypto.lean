import DfcCore.SecureMessaging

/-!
# EV2 secure messaging arithmetic

The functions of `dfc_ev2_crypto.c` that both parties share. A MAC covers the instruction or
the status, the command counter, the transaction identifier and the data field; a data field
is enciphered from an initial value that binds it to direction, counter and transaction. The
block cipher is a parameter.
-/
namespace DfcCore
open Cmac

abbrev dfcEv2TransactionIdentifierLength : ℕ := 4
abbrev dfcEv2MacDataMax : ℕ := dfcEmulatorChainBufferSize
abbrev dfcEv2PaddingMarker : UInt8 := 0x80

/-- Which direction a data field travels. -/
inductive DfcEv2Direction where
  | command | response
  deriving Repr, DecidableEq

def DfcEv2Direction.label : DfcEv2Direction → List UInt8
  | command => [0xA5, 0x5A]
  | response => [0x5A, 0xA5]

section
variable (aes : BlockCipher 16)

/-- `dfc_ev2_mac`, over the joined parts of the body. -/
def dfcEv2Mac (macKey : List UInt8) (lead : UInt8) (counter : ℕ)
    (transactionIdentifier body : List UInt8) : Option (List UInt8) :=
  if dfcEv2MacDataMax < body.length then none
  else some (dfcTruncateAesWireMac (aesCmac aes.encrypt macKey
    (lead :: leOctets 2 counter ++ transactionIdentifier ++ body)))

def dfcEv2DeriveIv (encryptionKey : List UInt8) (direction : DfcEv2Direction) (counter : ℕ)
    (transactionIdentifier : List UInt8) : Option (List UInt8) :=
  (dfcCryptoAesCbc aes true encryptionKey zeroBlock
    ((direction.label ++ transactionIdentifier ++ leOctets 2 counter).takeD 16 0)).map Prod.fst

/-- A data field with its padding: a marker and zeros to the end of the block. -/
def ev2Padded (clear : List UInt8) : List UInt8 :=
  (clear ++ [dfcEv2PaddingMarker]).takeD ((clear.length + 1 + 15) / 16 * 16) 0

def dfcEv2EncryptData (encryptionKey : List UInt8) (direction : DfcEv2Direction) (counter : ℕ)
    (transactionIdentifier clear : List UInt8) (encryptedCapacity : ℕ) : Option (List UInt8) := do
  let padded := ev2Padded clear
  if encryptedCapacity < padded.length ∨ dfcEv2MacDataMax < padded.length then none
  else
    let iv ← dfcEv2DeriveIv aes encryptionKey direction counter transactionIdentifier
    let (encrypted, _) ← dfcCryptoAesCbc aes true encryptionKey iv padded
    return encrypted

/-- The payload in front of the marker. -/
def ev2Unpadded (clear : List UInt8) (allowUnpadded : Bool) : Option (List UInt8) :=
  match clear.reverse.dropWhile (· == 0) with
  | marker :: rest =>
    if marker = dfcEv2PaddingMarker then some rest.reverse
    else if allowUnpadded then some clear else none
  | [] => if allowUnpadded then some clear else none

def dfcEv2DecryptData (encryptionKey : List UInt8) (direction : DfcEv2Direction) (counter : ℕ)
    (transactionIdentifier encrypted : List UInt8) (allowUnpadded : Bool) :
    Option (List UInt8) :=
  if encrypted = [] ∨ dfcEv2MacDataMax < encrypted.length ∨
      encrypted.length % dfcAesKeyLength ≠ 0 then none
  else do
    let iv ← dfcEv2DeriveIv aes encryptionKey direction counter transactionIdentifier
    let (clear, _) ← dfcCryptoAesCbc aes false encryptionKey iv encrypted
    ev2Unpadded clear allowUnpadded

end

theorem length_ev2Padded (clear : List UInt8) :
    (ev2Padded clear).length = (clear.length + 1 + 15) / 16 * 16 := List.takeD_length ..

theorem ev2Unpadded_padded (clear : List UInt8) (allowUnpadded : Bool) :
    ev2Unpadded (ev2Padded clear) allowUnpadded = some clear := by
  have hle : (clear ++ [dfcEv2PaddingMarker]).length ≤ (clear.length + 1 + 15) / 16 * 16 := by
    rw [List.length_append, List.length_singleton]
    omega
  have hzeros : ∀ (n : ℕ) (l : List UInt8),
      (List.replicate n 0 ++ dfcEv2PaddingMarker :: l).dropWhile (· == (0 : UInt8)) =
        dfcEv2PaddingMarker :: l := by
    intro n l
    induction n with
    | zero => exact List.dropWhile_cons_of_neg (by decide)
    | succ n ih => simpa [List.replicate_succ] using ih
  have hreverse : (ev2Padded clear).reverse.dropWhile (· == 0) =
      dfcEv2PaddingMarker :: clear.reverse := by
    rw [ev2Padded, takeD_of_le 0 hle, List.reverse_append, List.reverse_replicate,
      List.reverse_append, List.reverse_singleton]
    exact hzeros _ _
  rw [ev2Unpadded, hreverse]
  simp only [if_true, List.reverse_reverse]

section
variable (aes : BlockCipher 16) {key transactionIdentifier clear : List UInt8} {counter cap : ℕ}

/-- A data field one party enciphers, the other recovers. -/
theorem dfcEv2EncryptData_inverse (direction : DfcEv2Direction) (hkey : key.length = 16)
    (hcap : (ev2Padded clear).length ≤ cap) (hmax : (ev2Padded clear).length ≤ dfcEv2MacDataMax)
    (allowUnpadded : Bool) :
    ∃ out, dfcEv2EncryptData aes key direction counter transactionIdentifier clear cap = some out ∧
      out.length = (ev2Padded clear).length ∧
      dfcEv2DecryptData aes key direction counter transactionIdentifier out allowUnpadded =
        some clear := by
  have hlen := length_ev2Padded clear
  have hinput : ((direction.label ++ transactionIdentifier ++ leOctets 2 counter).takeD 16 0).length
      % 16 = 0 := by rw [List.takeD_length]
  obtain ⟨block, hderive, hblock, -⟩ := dfcCryptoAesCbc_inverse aes hkey hinput
    (by decide : Cmac.zeroBlock.length = 16)
  rw [List.takeD_length] at hblock
  have hiv : dfcEv2DeriveIv aes key direction counter transactionIdentifier = some block.1 := by
    rw [dfcEv2DeriveIv, hderive, Option.map_some]
  have hmod : (ev2Padded clear).length % 16 = 0 := by omega
  obtain ⟨out, henc, hout, hdec⟩ := dfcCryptoAesCbc_inverse aes hkey hmod hblock
  refine ⟨out.1, ?_, hout, ?_⟩
  · rw [dfcEv2EncryptData, if_neg (by omega), hiv]
    simp only [Option.bind_eq_bind, Option.bind_some, henc]
    rfl
  · have hne : out.1 ≠ [] := by
      intro hnil
      rw [hnil, List.length_nil] at hout
      omega
    rw [dfcEv2DecryptData, if_neg (by simp only [hne, false_or, dfcAesKeyLength]; omega), hiv]
    simp only [Option.bind_eq_bind, Option.bind_some, hdec]
    exact ev2Unpadded_padded clear allowUnpadded

end

end DfcCore
