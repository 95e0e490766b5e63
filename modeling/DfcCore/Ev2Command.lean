import DfcCore.ReaderExchange
import Mathlib.Data.List.DropRight

/-!
# Commands under an EV2 session

The card's side of an EV2 command, `dfc_ev2_prepare_command`: whether the command counts as
plain for its file, the check of its MAC, and the data field deciphered behind its clear head.
Against it stands what the reader builds. The parties share the table of clear heads; whether a
data field is enciphered is the caller's mode on one side and the file's effective mode on the
other, and the command arrives as it was given exactly where the two agree. Data fields are
enciphered and deciphered in memory, in place or elsewhere.
-/
namespace DfcCore
open Der

section
variable (aes : BlockCipher 16) (encryptionKey : List UInt8) (direction : DfcEv2Direction)
  (counter : ℕ) (transactionIdentifier : List UInt8)

/-- `dfc_ev2_encrypt_data` on memory, with the length it gives. -/
def dfcEv2EncryptDataAt (m : Mem) (clear clearLen encrypted encryptedCapacity : ℕ) :
    Option (Mem × ℕ) :=
  let paddedLen := (clearLen + 1 + 15) / 16 * 16
  if encryptedCapacity < paddedLen ∨ dfcEv2MacDataMax < paddedLen then none
  else do
    let m := m.move encrypted clear clearLen
    let m := m.write (encrypted + clearLen) [dfcEv2PaddingMarker]
    let m := m.fill (encrypted + clearLen + 1) (paddedLen - clearLen - 1) 0
    let iv ← dfcEv2DeriveIv aes encryptionKey direction counter transactionIdentifier
    let (octets, _) ← dfcCryptoAesCbc aes true encryptionKey iv (m.read encrypted paddedLen)
    return (m.write encrypted octets, paddedLen)

/-- The loop over the zeros at the end. -/
def paddingMarkerEnd (m : Mem) (clear : ℕ) : ℕ → ℕ
  | 0 => 0
  | marker + 1 => if m (clear + marker) = 0 then paddingMarkerEnd m clear marker else marker + 1

/-- `dfc_ev2_decrypt_data` on memory, with the length it gives. -/
def dfcEv2DecryptDataAt (m : Mem) (encrypted encryptedLen clear : ℕ) (allowUnpadded : Bool) :
    Option (Mem × ℕ) :=
  if encryptedLen = 0 ∨ dfcEv2MacDataMax < encryptedLen ∨ encryptedLen % dfcAesKeyLength ≠ 0 then
    none
  else do
    let iv ← dfcEv2DeriveIv aes encryptionKey direction counter transactionIdentifier
    let (octets, _) ← dfcCryptoAesCbc aes false encryptionKey iv (m.read encrypted encryptedLen)
    let m := m.write clear octets
    let marker := paddingMarkerEnd m clear encryptedLen
    if marker = 0 ∨ m (clear + (marker - 1)) ≠ dfcEv2PaddingMarker then
      if allowUnpadded then some (m, encryptedLen) else none
    else some (m, marker - 1)

end

/-- The mode of an access that several rights grant: plain where one of them is free and the
session's key matches none, else the configured one. -/
def commSettingsUnderRights (e : DfcEmulator) (nibbles : List ℕ) (configured : UInt8) : UInt8 :=
  let configured := configured &&& dfcCommModeMask
  if dfcEmulatorAuthenticated e = false then configured
  else if nibbles.any (· == dfcAccessFree) ∧ nibbles.any (nibbleIsAuthenticated e) = false then
    dfcCommPlain
  else configured

def dfcEmulatorFileEffectiveCommSettingsForRights (e : DfcEmulator) (file : DfcFile)
    (read write rw : Bool) (configuredComm : UInt8) : UInt8 :=
  commSettingsUnderRights e
    [if read then dfcAccessNibble file.accessRights 12 else dfcAccessDeny,
      if write then dfcAccessNibble file.accessRights 8 else dfcAccessDeny,
      if rw then dfcAccessNibble file.accessRights 4 else dfcAccessDeny] configuredComm

/-- `dfc_emulator_file_effective_comm_settings` for a mode other than the file's own. -/
def fileEffectiveCommSettings (e : DfcEmulator) (file : DfcFile) (access : DfcFileAccess)
    (configuredComm : UInt8) : UInt8 :=
  commSettingsUnderRights e
    [(fileAccessNibbles file access).1, (fileAccessNibbles file access).2] configuredComm

/-- The file a command is about, in the selected application. -/
def targetFile (e : DfcEmulator) (command : List UInt8) : Option DfcFile :=
  if command.length < 2 ∨ e.selectedApplication ≠ .app ∨
      (dfcEv2CommandMetadata (command.getD 0 0)).targetsFile = false then none
  else
    (dfcCredentialFindFileInApp e.credential e.selectedAppIndex (command.getD 1 0)).map
      e.credential.files

def commandFileAccess (command : UInt8) : Option DfcFileAccess :=
  let base := dfcFileCommandBase command
  if base = dfcCmdReadData ∨ base = dfcCmdReadRecords ∨ base = dfcCmdGetValue then some .read
  else if base = dfcCmdWriteData ∨ base = dfcCmdWriteRecord ∨ base = dfcCmdDebit ∨
      base = dfcCmdLimitedCredit then some .write
  else if base = dfcCmdUpdateRecord ∨ base = dfcCmdCredit then some .readWrite
  else if base = dfcCmdChangeFileSettings then some .change
  else none

/-- `command_file_comm`, where the command is about a file. -/
def commandFileComm (e : DfcEmulator) (command : UInt8) (file : DfcFile) : UInt8 :=
  let base := dfcFileCommandBase command
  if command = dfcCmdGetFileCounters then dfcCommEnciphered
  else match commandFileAccess command with
  | none => dfcCommPlain
  | some access =>
    if base = dfcCmdGetValue ∨ base = dfcCmdDebit then
      dfcEmulatorFileEffectiveCommSettingsForRights e file true true true file.commSettings
    else if base = dfcCmdLimitedCredit then
      dfcEmulatorFileEffectiveCommSettingsForRights e file false true true file.commSettings
    else if base = dfcCmdCredit then
      dfcEmulatorFileEffectiveCommSettingsForRights e file false false true file.commSettings
    else
      fileEffectiveCommSettings e file access
        (if command = dfcCmdChangeFileSettings then dfcCommEnciphered else file.commSettings)

/-- `plain_file_command`. A continuation is judged by the command it continues. -/
def plainFileCommand (e : DfcEmulator) (commandChain : Option (List UInt8))
    (command : List UInt8) : Bool :=
  let logical :=
    if command.getD 0 0 = dfcCmdAdditionalFrame then
      match commandChain with
      | some (ins :: chain) => ins :: chain
      | _ => command
    else command
  (targetFile e logical).any fun file =>
    commandFileComm e (logical.getD 0 0) file == dfcCommPlain

/-- The clear head behind which the card deciphers the data field. -/
def cardEncryptedHeader (e : DfcEmulator) (command : List UInt8) : Option ℕ :=
  let metadata := dfcEv2CommandMetadata (command.getD 0 0)
  if metadata.targetsFile = false ∨ ((targetFile e command).any fun file =>
      commandFileComm e (command.getD 0 0) file == dfcCommEnciphered) then
    metadata.encryptedHeaderLength
  else none

inductive DfcEv2CommandSecurity where
  | invalid | plain | plainCounted | secured | full
  deriving Repr, DecidableEq

/-- What an EV2 session of the card holds. -/
structure DfcEv2CardSession where
  keys : DfcEv2SessionKeys
  transactionIdentifier : List UInt8
  commandCounter : UInt16

section
variable (aes : BlockCipher 16)

/-- The part of `dfc_ev2_prepare_command` behind the check of the MAC. -/
def ev2ClearCommand (e : DfcEmulator) (session : DfcEv2CardSession) (command : List UInt8) :
    DfcEv2CommandSecurity × List UInt8 :=
  let ins := command.getD 0 0
  let secured := (command.drop 1).take (command.length - 1 - dfcWireMacLength)
  let full := (targetFile e command).any fun file =>
    commandFileComm e ins file == dfcCommEnciphered
  match cardEncryptedHeader e command with
  | none => (if full then .full else .secured, ins :: secured)
  | some header =>
    if secured.length ≤ header then (.invalid, [])
    else
      match dfcEv2DecryptData aes session.keys.encryptionKey .command
        session.commandCounter.toNat session.transactionIdentifier (secured.drop header)
        (ins == dfcCmdCommitReaderId) with
      | none => (.invalid, [])
      | some clear => (.full, ins :: (secured.take header ++ clear))

/-- `dfc_ev2_prepare_command`: what the command is, and its clear octets. -/
def dfcEv2PrepareCommand (e : DfcEmulator) (session : DfcEv2CardSession)
    (commandChain : Option (List UInt8)) (command : List UInt8) (clearCapacity : ℕ) :
    DfcEv2CommandSecurity × List UInt8 :=
  let ins := command.getD 0 0
  let secured := (command.drop 1).take (command.length - 1 - dfcWireMacLength)
  if command = [] then (.invalid, [])
  else if e.ev2AuthenticatedKeyNo = none then
    if clearCapacity < command.length then (.invalid, []) else (.plain, command)
  else if plainFileCommand e commandChain command then
    if session.commandCounter = 0xFFFF ∨ clearCapacity < command.length then (.invalid, [])
    else (.plainCounted, command)
  else if (dfcEv2CommandMetadata ins).emulatorBypass then
    if clearCapacity < command.length then (.invalid, []) else (.plain, command)
  else if command.length < 1 + dfcWireMacLength then (.invalid, [])
  else if dfcEv2Mac aes session.keys.macKey ins session.commandCounter.toNat
      session.transactionIdentifier secured ≠ some (command.drop (1 + secured.length)) then
    (.invalid, [])
  else if clearCapacity < 1 + secured.length then (.invalid, [])
  else ev2ClearCommand aes e session command

end

theorem Mem.read_move_self (m : Mem) (dst src n : ℕ) :
    (m.move dst src n).read dst n = m.read src n := by
  apply Mem.read_congr
  intro i hi
  simp [Mem.move, hi]

/-- What is enciphered in place is the padded field. -/
theorem read_ev2Padded (m : Mem) (clear clearLen encrypted : ℕ) :
    (((m.move encrypted clear clearLen).write (encrypted + clearLen)
      [dfcEv2PaddingMarker]).fill (encrypted + clearLen + 1)
        ((clearLen + 1 + 15) / 16 * 16 - clearLen - 1) 0).read encrypted
          ((clearLen + 1 + 15) / 16 * 16) = ev2Padded (m.read clear clearLen) := by
  have hle : clearLen + 1 ≤ (clearLen + 1 + 15) / 16 * 16 := by omega
  obtain ⟨zeros, hzeros⟩ := Nat.exists_eq_add_of_le hle
  have hpadded : ev2Padded (m.read clear clearLen) =
      m.read clear clearLen ++ [dfcEv2PaddingMarker] ++ List.replicate zeros 0 := by
    rw [ev2Padded, Mem.length_read, hzeros, takeD_of_le]
    · rw [List.length_append, Mem.length_read, List.length_singleton, Nat.add_sub_cancel_left]
    · rw [List.length_append, Mem.length_read, List.length_singleton]
      omega
  have hfill : (clearLen + 1 + 15) / 16 * 16 - clearLen - 1 = zeros := by omega
  rw [hpadded, hfill, hzeros, Mem.read_add, Mem.read_add]
  congr 1
  · congr 1
    · rw [Mem.read_fill_of_disjoint (by omega), Mem.read_write_of_disjoint (by omega),
        Mem.read_move_self]
    · rw [Mem.read_fill_of_disjoint (by omega)]
      exact Mem.read_write_self' rfl
  · rw [← Nat.add_assoc]
    exact Mem.read_fill_self ..

/-- The loop over the zeros ends behind the last octet that is not zero. -/
theorem paddingMarkerEnd_eq (m : Mem) (clear n : ℕ) :
    paddingMarkerEnd m clear n = ((m.read clear n).reverse.dropWhile (· == 0)).length := by
  induction n with
  | zero => rfl
  | succ n ih =>
    have hread : m.read clear (n + 1) = m.read clear n ++ [m (clear + n)] := by
      rw [Mem.read_add]
      rfl
    rw [paddingMarkerEnd, hread, List.reverse_append, List.reverse_singleton,
      List.singleton_append, List.dropWhile_cons]
    by_cases hzero : m (clear + n) = 0
    · rw [if_pos hzero, if_pos (by simpa using hzero), ih]
    · rw [if_neg hzero, if_neg (by simpa using hzero), List.length_cons, List.length_reverse,
        Mem.length_read]

section
variable {aes : BlockCipher 16} {key transactionIdentifier : List UInt8}
  {direction : DfcEv2Direction} {counter : ℕ}

theorem length_output_dfcCryptoAesCbc {encrypt : Bool} {iv input : List UInt8}
    {out : List UInt8 × List UInt8} (hiv : iv.length = 16)
    (h : dfcCryptoAesCbc aes encrypt key iv input = some out) : out.1.length = input.length := by
  unfold dfcCryptoAesCbc at h
  split_ifs at h with hcheck hencrypt
  · have hblocks : input.length = input.length / 16 * 16 := by omega
    rw [← Option.some.inj h, (Cbc.length_forward (aes.length_encrypt key) _ hiv hblocks).1,
      ← hblocks]
  · have hblocks : input.length = input.length / 16 * 16 := by omega
    rw [← Option.some.inj h, Cbc.length_backward (aes.length_decrypt key) _ hiv hblocks,
      ← hblocks]

theorem length_dfcEv2DeriveIv {iv : List UInt8}
    (h : dfcEv2DeriveIv aes key direction counter transactionIdentifier = some iv) :
    iv.length = 16 := by
  obtain ⟨out, hout, rfl⟩ := Option.map_eq_some_iff.mp h
  rw [length_output_dfcCryptoAesCbc (by decide) hout, List.takeD_length]

/-- What a data field is deciphered to before its padding is taken off. -/
theorem dfcEv2DecryptData_eq_some {encrypted payload : List UInt8} {allowUnpadded : Bool}
    (h : dfcEv2DecryptData aes key direction counter transactionIdentifier encrypted
      allowUnpadded = some payload) :
    ¬(encrypted = [] ∨ dfcEv2MacDataMax < encrypted.length ∨
        encrypted.length % dfcAesKeyLength ≠ 0) ∧
      ∃ iv octets last, dfcEv2DeriveIv aes key direction counter transactionIdentifier = some iv ∧
        dfcCryptoAesCbc aes false key iv encrypted = some (octets, last) ∧
        octets.length = encrypted.length ∧ ev2Unpadded octets allowUnpadded = some payload := by
  unfold dfcEv2DecryptData at h
  split_ifs at h with hguard
  obtain ⟨iv, hiv, h⟩ := Option.bind_eq_some_iff.mp h
  obtain ⟨⟨octets, last⟩, hcbc, h⟩ := Option.bind_eq_some_iff.mp h
  exact ⟨hguard, iv, octets, last, hiv, hcbc,
    length_output_dfcCryptoAesCbc (length_dfcEv2DeriveIv hiv) hcbc, h⟩

/-- The padding is taken off at the last octet that is not zero. -/
theorem ev2Unpadded_eq_some {octets payload : List UInt8} {allowUnpadded : Bool}
    (h : ev2Unpadded octets allowUnpadded = some payload) :
    let marker := (octets.reverse.dropWhile (· == 0)).length
    (marker ≠ 0 ∧ octets.getD (marker - 1) 0 = dfcEv2PaddingMarker ∧
        payload = octets.take (marker - 1) ∧ marker ≤ octets.length) ∨
      ((marker = 0 ∨ octets.getD (marker - 1) 0 ≠ dfcEv2PaddingMarker) ∧ allowUnpadded = true ∧
        payload = octets) := by
  intro marker
  have hfront : (octets.reverse.dropWhile (· == 0)).reverse <+: octets :=
    List.rdropWhile_prefix (· == 0) octets
  unfold ev2Unpadded at h
  cases hdrop : octets.reverse.dropWhile (· == 0) with
  | nil =>
    have hmarker : marker = 0 := by simp [marker, hdrop]
    simp only [hdrop] at h
    split_ifs at h with hallow
    exact Or.inr ⟨Or.inl hmarker, hallow, (Option.some.inj h).symm⟩
  | cons octet rest =>
    rw [hdrop, List.reverse_cons] at hfront
    obtain ⟨zeros, hzeros⟩ := hfront
    have hmarker : marker = rest.length + 1 := by simp [marker, hdrop]
    have hget : octets.getD (marker - 1) 0 = octet := by
      rw [← hzeros, hmarker]
      simp
    have htake : octets.take (marker - 1) = rest.reverse := by
      rw [← hzeros, hmarker, List.append_assoc, Nat.add_sub_cancel,
        List.take_append_of_le_length (by simp), List.take_of_length_le (by simp)]
    simp only [hdrop] at h
    split_ifs at h with hoctet hallow
    · refine Or.inl ⟨by omega, hget.trans hoctet, ?_, ?_⟩
      · rw [htake, Option.some.inj h]
      · rw [← hzeros, hmarker]
        simp
    · exact Or.inr ⟨Or.inr (hget ▸ hoctet), hallow, (Option.some.inj h).symm⟩

/-- A field deciphered in memory is the field, wherever it is put. -/
theorem dfcEv2DecryptDataAt_of_eq_some {m : Mem} {encrypted encryptedLen : ℕ}
    {allowUnpadded : Bool} {payload : List UInt8}
    (h : dfcEv2DecryptData aes key direction counter transactionIdentifier
      (m.read encrypted encryptedLen) allowUnpadded = some payload) (clear : ℕ) :
    ∃ m', dfcEv2DecryptDataAt aes key direction counter transactionIdentifier m encrypted
        encryptedLen clear allowUnpadded = some (m', payload.length) ∧
      m'.read clear payload.length = payload := by
  obtain ⟨hguard, iv, octets, last, hiv, hcbc, hlen, hunpadded⟩ := dfcEv2DecryptData_eq_some h
  rw [Mem.length_read] at hguard hlen
  have hnonempty : ¬(encryptedLen = 0 ∨ dfcEv2MacDataMax < encryptedLen ∨
      encryptedLen % dfcAesKeyLength ≠ 0) := by
    rintro (h0 | h1 | h2)
    · exact hguard (Or.inl (by rw [h0]; rfl))
    · exact hguard (Or.inr (Or.inl h1))
    · exact hguard (Or.inr (Or.inr h2))
  have hread : (m.write clear octets).read clear encryptedLen = octets :=
    Mem.read_write_self' hlen
  have hget : ∀ i < encryptedLen, (m.write clear octets) (clear + i) = octets.getD i 0 := by
    intro i hi
    have hi : i < octets.length := by omega
    simp [Mem.write_apply_of_lt hi, hi]
  have hmarker := paddingMarkerEnd_eq (m.write clear octets) clear encryptedLen
  rw [hread] at hmarker
  have hdo : dfcEv2DecryptDataAt aes key direction counter transactionIdentifier m encrypted
      encryptedLen clear allowUnpadded =
        if paddingMarkerEnd (m.write clear octets) clear encryptedLen = 0 ∨
            (m.write clear octets) (clear +
              (paddingMarkerEnd (m.write clear octets) clear encryptedLen - 1)) ≠
                dfcEv2PaddingMarker then
          if allowUnpadded then some (m.write clear octets, encryptedLen) else none
        else some (m.write clear octets,
          paddingMarkerEnd (m.write clear octets) clear encryptedLen - 1) := by
    rw [dfcEv2DecryptDataAt, if_neg hnonempty]
    simp only [Option.bind_eq_bind, hiv, hcbc, Option.bind_some]
  rw [hdo, hmarker]
  have hpos : 0 < encryptedLen := by omega
  have hle : (octets.reverse.dropWhile (· == 0)).length ≤ encryptedLen := by
    have hsub := (List.dropWhile_sublist (· == 0) (l := octets.reverse)).length_le
    rwa [List.length_reverse, hlen] at hsub
  rw [hget _ (by omega)]
  rcases ev2Unpadded_eq_some hunpadded with ⟨hne, hoctet, rfl, -⟩ | ⟨hno, rfl, rfl⟩
  · refine ⟨m.write clear octets, ?_, ?_⟩
    · rw [if_neg (fun h => h.elim hne (fun h => h hoctet)), List.length_take,
        Nat.min_eq_left (by omega)]
    · rw [List.length_take, Nat.min_eq_left (by omega),
        ← Mem.read_take _ _ encryptedLen _ (by omega), hread]
  · refine ⟨m.write clear payload, ?_, ?_⟩
    · rw [if_pos hno, if_pos rfl, hlen]
    · rw [hlen, hread]

/-- A data field that is enciphered in memory is deciphered to itself, wherever the two are
put. -/
theorem dfcEv2DecryptDataAt_encrypt (hkey : key.length = 16) {m m' : Mem}
    {clear clearLen encrypted encryptedCapacity encryptedLen : ℕ}
    (h : dfcEv2EncryptDataAt aes key direction counter transactionIdentifier m clear clearLen
      encrypted encryptedCapacity = some (m', encryptedLen)) (out : ℕ) (allowUnpadded : Bool) :
    ∃ m'', dfcEv2DecryptDataAt aes key direction counter transactionIdentifier m' encrypted
        encryptedLen out allowUnpadded = some (m'', clearLen) ∧
      m''.read out clearLen = m.read clear clearLen := by
  have hlen := length_ev2Padded (m.read clear clearLen)
  rw [Mem.length_read] at hlen
  unfold dfcEv2EncryptDataAt at h
  simp only at h
  split_ifs at h with hguard
  simp only [Option.bind_eq_bind, Option.bind_eq_some_iff, read_ev2Padded] at h
  obtain ⟨iv, hiv, ⟨octets, last⟩, hcbc, hresult⟩ := h
  have hoctets := length_output_dfcCryptoAesCbc (length_dfcEv2DeriveIv hiv) hcbc
  obtain ⟨hm', rfl⟩ := Prod.mk.inj (Option.some.inj hresult)
  rw [not_or, Nat.not_lt, Nat.not_lt, ← hlen] at hguard
  obtain ⟨cryptogram, henc, -, hdec⟩ := @dfcEv2EncryptData_inverse aes key
    transactionIdentifier (m.read clear clearLen) counter encryptedCapacity direction hkey hguard.1
    hguard.2 allowUnpadded
  obtain rfl : octets = cryptogram := by
    rw [dfcEv2EncryptData, if_neg (by omega)] at henc
    simpa only [Option.bind_eq_bind, hiv, hcbc, Option.bind_some, Option.pure_def,
      Option.some.injEq] using henc
  have hread : m'.read encrypted ((clearLen + 1 + 15) / 16 * 16) = octets := by
    rw [← hm']
    exact Mem.read_write_self' (hoctets.trans hlen)
  rw [← hread] at hdec
  obtain ⟨m'', hat, hout⟩ := dfcEv2DecryptDataAt_of_eq_some hdec out
  rw [Mem.length_read] at hat hout
  exact ⟨m'', hat, hout⟩

end

/-- The clear head behind which the reader enciphers the data field. -/
def readerEncryptedHeader (ins commMode : UInt8) (headerLen : Option ℕ) : Option ℕ :=
  if isFileRead ins then none
  else (ev2AlwaysEncryptedHeader ins).or
    (if commMode = dfcCommEnciphered then headerLen else none)

section
variable {aes : BlockCipher 16}

/-- A frame as the reader secures it: the field, enciphered or not, and its MAC. -/
structure SecuredFrame (aes : BlockCipher 16) (keys : DfcEv2SessionKeys)
    (transactionIdentifier : List UInt8) (counter : ℕ) (command : DfcCommand)
    (header : Option ℕ) (frame secured mac : List UInt8) : Prop where
  frame_eq : frame = secured ++ mac
  mac_length : mac.length = dfcWireMacLength
  mac_eq : dfcEv2Mac aes keys.macKey command.ins counter transactionIdentifier secured = some mac
  field : match header with
    | none => secured = command.data
    | some header => header < command.data.length ∧ ∃ encrypted,
      secured = command.data.take header ++ encrypted ∧ encrypted.length % 16 = 0 ∧
      command.data.length - header < encrypted.length ∧
      ∀ allowUnpadded, dfcEv2DecryptData aes keys.encryptionKey .command counter
        transactionIdentifier encrypted allowUnpadded = some (command.data.drop header)

theorem length_dfcEv2Mac {macKey transactionIdentifier body mac : List UInt8} {lead : UInt8}
    {counter : ℕ}
    (h : dfcEv2Mac aes macKey lead counter transactionIdentifier body = some mac) :
    mac.length = dfcWireMacLength := by
  unfold dfcEv2Mac at h
  split_ifs at h
  rw [← Option.some.inj h, dfcTruncateAesWireMac, List.length_map, List.length_range]

theorem dfcEv2DecryptData_encrypt {key transactionIdentifier clear encrypted : List UInt8}
    {direction : DfcEv2Direction} {counter cap : ℕ} (hkey : key.length = 16)
    (h : dfcEv2EncryptData aes key direction counter transactionIdentifier clear cap =
      some encrypted) :
    encrypted.length = (ev2Padded clear).length ∧ ∀ allowUnpadded,
      dfcEv2DecryptData aes key direction counter transactionIdentifier encrypted allowUnpadded =
        some clear := by
  have hguard : ¬(cap < (ev2Padded clear).length ∨
      dfcEv2MacDataMax < (ev2Padded clear).length) := by
    intro hguard
    rw [dfcEv2EncryptData, if_pos hguard] at h
    cases h
  rw [not_or, Nat.not_lt, Nat.not_lt] at hguard
  have hboth : ∀ allowUnpadded, encrypted.length = (ev2Padded clear).length ∧
      dfcEv2DecryptData aes key direction counter transactionIdentifier encrypted allowUnpadded =
        some clear := by
    intro allowUnpadded
    obtain ⟨out, hout, hlen, hdec⟩ := @dfcEv2EncryptData_inverse aes key transactionIdentifier
      clear counter cap direction hkey hguard.1 hguard.2 allowUnpadded
    obtain rfl : out = encrypted := Option.some.inj (hout.symm.trans h)
    exact ⟨hlen, hdec⟩
  exact ⟨(hboth false).1, fun allowUnpadded => (hboth allowUnpadded).2⟩

theorem DfcReaderExchange.setFrame_eq_ok {ex ex' : DfcReaderExchange} {octets : List UInt8}
    (h : ex.setFrame octets = .ok ex') : ex'.frame = octets := by
  unfold DfcReaderExchange.setFrame at h
  split_ifs at h
  cases h
  rfl

theorem prepareEv2_secured {ex ex' : DfcReaderExchange} {keys : DfcEv2SessionKeys}
    {command : DfcCommand} {headerLen : Option ℕ}
    (h : prepareEv2 aes ex keys command headerLen = .ok ex')
    (hbypass : (dfcEv2CommandMetadata command.ins).readerBypass = false)
    (hsecured : ¬((dfcEv2CommandMetadata command.ins).supportsEffectivePlain = true ∧
      ex.commMode = dfcCommPlain)) :
    ∃ secured mac, SecuredFrame aes keys ex.session.ev2TransactionIdentifier
      ex.session.ev2CommandCounter.toNat command
      (readerEncryptedHeader command.ins ex.commMode headerLen) ex'.frame secured mac := by
  unfold prepareEv2 at h
  rw [if_neg (by simp [hbypass])] at h
  simp only [if_neg hsecured] at h
  simp only [bind_eq_ok, orFail_eq_ok] at h
  obtain ⟨secured, hfield, mac, hmac, hframe⟩ := h
  refine ⟨secured, mac, DfcReaderExchange.setFrame_eq_ok hframe, length_dfcEv2Mac hmac, hmac, ?_⟩
  unfold readerEncryptedHeader
  unfold ev2SecuredField at hfield
  split at hfield
  · rename_i header hheader hread
    simp only [bind_eq_ok, refuseIf_eq_ok, orFail_eq_ok, pure_eq_ok, exists_const] at hfield
    obtain ⟨hlong, -, -, -, encrypted, hencrypt, rfl⟩ := hfield
    obtain ⟨hlen, hdecrypt⟩ := dfcEv2DecryptData_encrypt keys.encryptionKeyLength hencrypt
    rw [length_ev2Padded, List.length_drop] at hlen
    rw [hread, if_neg Bool.false_ne_true, hheader]
    exact ⟨Nat.not_le.mp hlong, encrypted, rfl, by omega, by omega, hdecrypt⟩
  · rename_i hother
    simp only [bind_eq_ok, refuseIf_eq_ok, orFail_eq_ok, pure_eq_ok, exists_const] at hfield
    obtain ⟨-, -, -, rfl⟩ := hfield
    have hnone : (if isFileRead command.ins then none
        else (ev2AlwaysEncryptedHeader command.ins).or
          (if ex.commMode = dfcCommEnciphered then headerLen else none)) = none := by
      by_cases hread : isFileRead command.ins = true
      · rw [if_pos hread]
      · rw [if_neg hread]
        cases hheader : (ev2AlwaysEncryptedHeader command.ins).or
            (if ex.commMode = dfcCommEnciphered then headerLen else none) with
        | none => rfl
        | some header => exact (hother header hheader (Bool.not_eq_true _ ▸ hread)).elim
    rw [hnone]

/-- Clear heads are short, and the command whose padding may be missing has none. -/
theorem encryptedHeaderLength_le {ins : UInt8} {header : ℕ}
    (h : (dfcEv2CommandMetadata ins).encryptedHeaderLength = some header) :
    header ≤ dfcReaderMaxClearHeaderLength ∧ ins ≠ dfcCmdCommitReaderId := by
  have hall : ∀ ins : UInt8, ∀ header ∈ (dfcEv2CommandMetadata ins).encryptedHeaderLength,
      header ≤ dfcReaderMaxClearHeaderLength ∧ ins ≠ dfcCmdCommitReaderId :=
    forall_octet (by decide +kernel)
  exact hall ins header h

theorem cardEncryptedHeader_eq_some {e : DfcEmulator} {command : List UInt8} {header : ℕ}
    (h : cardEncryptedHeader e command = some header) :
    (dfcEv2CommandMetadata (command.getD 0 0)).encryptedHeaderLength = some header := by
  unfold cardEncryptedHeader at h
  simp only at h
  split_ifs at h
  exact h

/-- A field that must have padding is shorter without it. -/
theorem length_dfcEv2DecryptData {key transactionIdentifier encrypted payload : List UInt8}
    {direction : DfcEv2Direction} {counter : ℕ}
    (h : dfcEv2DecryptData aes key direction counter transactionIdentifier encrypted false =
      some payload) : payload.length < encrypted.length ∧ encrypted.length % 16 = 0 := by
  obtain ⟨hguard, iv, octets, last, -, -, hlen, hunpadded⟩ := dfcEv2DecryptData_eq_some h
  rcases ev2Unpadded_eq_some hunpadded with ⟨hne, -, rfl, hle⟩ | ⟨-, hfalse, -⟩
  · rw [List.length_take]
    simp only [not_or, not_not] at hguard
    exact ⟨by omega, hguard.2.2⟩
  · exact absurd hfalse Bool.false_ne_true

variable {e : DfcEmulator} {session : DfcEv2CardSession} {command : DfcCommand}
  {header : Option ℕ} {frame secured mac : List UInt8}

/-- The card takes field and MAC apart as the reader put them together. -/
theorem SecuredFrame.split (h : SecuredFrame aes session.keys session.transactionIdentifier
      session.commandCounter.toNat command header frame secured mac) :
    ((command.ins :: frame).drop 1).take
        ((command.ins :: frame).length - 1 - dfcWireMacLength) = secured ∧
      (command.ins :: frame).drop (1 + secured.length) = mac ∧
      (command.ins :: frame).length = 1 + secured.length + dfcWireMacLength := by
  have hlen := h.mac_length
  rw [h.frame_eq]
  refine ⟨?_, ?_, ?_⟩
  · rw [List.drop_succ_cons, List.drop_zero, List.length_cons, List.length_append]
    exact List.take_left' (by omega)
  · rw [Nat.add_comm, List.drop_succ_cons, List.drop_left]
  · rw [List.length_cons, List.length_append]
    omega

/-- Behind its guards the card looks only at the field. -/
theorem dfcEv2PrepareCommand_of_secured
    (h : SecuredFrame aes session.keys session.transactionIdentifier
      session.commandCounter.toNat command header frame secured mac)
    (hactive : e.ev2AuthenticatedKeyNo ≠ none) {commandChain : Option (List UInt8)}
    (hplain : plainFileCommand e commandChain (command.ins :: frame) = false)
    (hbypass : (dfcEv2CommandMetadata command.ins).emulatorBypass = false) {clearCapacity : ℕ}
    (hcapacity : 1 + secured.length ≤ clearCapacity) :
    dfcEv2PrepareCommand aes e session commandChain (command.ins :: frame) clearCapacity =
      ev2ClearCommand aes e session (command.ins :: frame) := by
  obtain ⟨hsecured, hmac, hlen⟩ := h.split
  have hins : (command.ins :: frame).getD 0 0 = command.ins := rfl
  unfold dfcEv2PrepareCommand
  simp only [hsecured, hmac, hins]
  rw [if_neg (List.cons_ne_nil _ _), if_neg hactive, if_neg (by simp [hplain]),
    if_neg (by simp [hbypass]), if_neg (by omega), if_neg (not_not.mpr h.mac_eq),
    if_neg (by omega)]

/-- The clear octets are the reader's exactly where both take the same clear head. -/
theorem ev2ClearCommand_iff (h : SecuredFrame aes session.keys session.transactionIdentifier
      session.commandCounter.toNat command header frame secured mac)
    (hheader : ∀ length ∈ header, length ≤ dfcReaderMaxClearHeaderLength) :
    (ev2ClearCommand aes e session (command.ins :: frame)).2 = command.ins :: command.data ↔
      cardEncryptedHeader e (command.ins :: frame) = header := by
  obtain ⟨hsecured, -, -⟩ := h.split
  have hfield := h.field
  have hins : (command.ins :: frame).getD 0 0 = command.ins := rfl
  unfold ev2ClearCommand
  simp only [hsecured, hins]
  cases hcard : cardEncryptedHeader e (command.ins :: frame) with
  | none =>
    cases header with
    | none =>
      simp only at hfield
      simp [hfield]
    | some length =>
      obtain ⟨hlong, encrypted, rfl, -, hlonger, -⟩ := hfield
      refine iff_of_false ?_ (by simp)
      intro heq
      have hlength := congrArg List.length heq
      simp only [List.length_cons, List.length_append, List.length_take] at hlength
      omega
  | some cardLength =>
    have hmetadata := cardEncryptedHeader_eq_some hcard
    obtain ⟨hcardLength, hreaderId⟩ := encryptedHeaderLength_le hmetadata
    rw [hins] at hreaderId
    have hallow : (command.ins == dfcCmdCommitReaderId) = false := by simpa using hreaderId
    simp only [hallow]
    by_cases hshort : secured.length ≤ cardLength
    · rw [if_pos hshort]
      refine iff_of_false (by simp) ?_
      rintro rfl
      obtain ⟨hlong, encrypted, rfl, -, hlonger, -⟩ := hfield
      rw [List.length_append, List.length_take] at hshort
      omega
    rw [if_neg hshort]
    cases hdecrypt : dfcEv2DecryptData aes session.keys.encryptionKey .command
        session.commandCounter.toNat session.transactionIdentifier (secured.drop cardLength)
        false with
    | none =>
      refine iff_of_false (by simp) ?_
      rintro rfl
      obtain ⟨hlong, encrypted, rfl, -, -, hcorrect⟩ := hfield
      have htake : (command.data.take cardLength).length = cardLength := by
        rw [List.length_take]
        omega
      rw [List.drop_left' htake, hcorrect] at hdecrypt
      cases hdecrypt
    | some clear =>
      obtain ⟨hshorter, hblocks⟩ := length_dfcEv2DecryptData hdecrypt
      rw [List.length_drop] at hshorter hblocks
      cases header with
      | none =>
        simp only at hfield
        refine iff_of_false ?_ (by simp)
        intro heq
        have hlength := congrArg List.length heq
        simp only [List.length_cons, List.length_append, List.length_take, hfield] at hlength
        rw [hfield] at hshorter hshort
        omega
      | some length =>
        obtain ⟨hlong, encrypted, rfl, hmod, -, hcorrect⟩ := hfield
        have hbound := hheader length rfl
        have htake : (command.data.take length).length = length := by
          rw [List.length_take]
          omega
        -- heads that differ by less than a block leave no whole blocks behind them
        obtain rfl : cardLength = length := by
          rw [List.length_append, htake] at hblocks hshort
          simp only [dfcReaderMaxClearHeaderLength, dfcUpdateRecordHeaderSize] at hbound hcardLength
          omega
        refine iff_of_true ?_ rfl
        rw [List.drop_left' htake, hcorrect] at hdecrypt
        simp only
        rw [List.take_left' htake, ← Option.some.inj hdecrypt, List.take_append_drop]

theorem length_le_secured (h : SecuredFrame aes session.keys session.transactionIdentifier
      session.commandCounter.toNat command header frame secured mac) :
    command.data.length ≤ secured.length := by
  have hfield := h.field
  cases header with
  | none => exact (congrArg List.length hfield).ge
  | some length =>
    obtain ⟨hlong, encrypted, rfl, -, hlonger, -⟩ := hfield
    rw [List.length_append, List.length_take]
    omega

/-- A command that the card takes for plain keeps its MAC. -/
theorem dfcEv2PrepareCommand_of_plain
    (h : SecuredFrame aes session.keys session.transactionIdentifier
      session.commandCounter.toNat command header frame secured mac)
    (hactive : e.ev2AuthenticatedKeyNo ≠ none) {commandChain : Option (List UInt8)}
    (hplain : plainFileCommand e commandChain (command.ins :: frame) = true)
    (clearCapacity : ℕ) :
    (dfcEv2PrepareCommand aes e session commandChain (command.ins :: frame) clearCapacity).2 ≠
      command.ins :: command.data := by
  obtain ⟨-, -, hlen⟩ := h.split
  have hle := length_le_secured h
  unfold dfcEv2PrepareCommand
  simp only
  rw [if_neg (List.cons_ne_nil _ _), if_neg hactive, if_pos hplain]
  split_ifs with hrefused
  · exact (List.cons_ne_nil _ _).symm
  · intro heq
    have hlength := congrArg List.length heq
    rw [hlen, List.length_cons] at hlength
    simp only [dfcWireMacLength] at hlength
    omega

/-- What the reader builds under EV2 and does not send plain. -/
structure ReaderSecures (des : BlockCipher 8) (aes : BlockCipher 16) (session : DfcReaderSession)
    (keys : DfcEv2SessionKeys) (framing : DfcReaderFraming) (command : DfcCommand)
    (options : DfcReaderOptions) (ex : DfcReaderExchange) : Prop where
  keys_eq : session.keys = .ev2 keys
  begins : readerExchangeBegin des aes session framing command options = .ok ex
  unbypassed : (dfcEv2CommandMetadata command.ins).readerBypass = false
  secured : ¬((dfcEv2CommandMetadata command.ins).supportsEffectivePlain = true ∧
    options.commMode = dfcCommPlain)

/-- The clear head the reader's options ask for. -/
def optionsEncryptedHeader (command : DfcCommand) (options : DfcReaderOptions) : Option ℕ :=
  readerEncryptedHeader command.ins options.commMode
    ((options.headerLen.map UInt8.toNat).or (fileHeaderLength command.ins))

theorem readerExchangeBegin_secured {des : BlockCipher 8} {session : DfcReaderSession}
    {keys : DfcEv2SessionKeys} {framing : DfcReaderFraming} {options : DfcReaderOptions}
    {ex : DfcReaderExchange} (h : ReaderSecures des aes session keys framing command options ex) :
    readerExchangeAdmits session command options = true ∧
      ∃ secured mac, SecuredFrame aes keys session.ev2TransactionIdentifier
        session.ev2CommandCounter.toNat command (optionsEncryptedHeader command options)
        ex.frame secured mac := by
  have hbegin := h.begins
  unfold readerExchangeBegin at hbegin
  simp only [bind_eq_ok, refuseIf_eq_ok, pure_eq_ok, exists_const, Bool.not_eq_false] at hbegin
  obtain ⟨hadmits, prepared, hprepare, rfl⟩ := hbegin
  have hprepare : prepareEv2 aes (freshExchange session framing command options.commMode) keys
      command ((options.headerLen.map UInt8.toNat).or (fileHeaderLength command.ins)) =
        .ok prepared := by
    have hkeys : (freshExchange session framing command options.commMode).session.keys =
        .ev2 keys := h.keys_eq
    rw [prepareCommand, hkeys] at hprepare
    exact hprepare
  have hframe : prepared.chainFrames.frame = prepared.frame := by
    unfold DfcReaderExchange.chainFrames
    split_ifs <;> rfl
  rw [hframe]
  exact ⟨hadmits, prepareEv2_secured hprepare h.unbypassed h.secured⟩

theorem optionsEncryptedHeader_le {session : DfcReaderSession} {options : DfcReaderOptions}
    (hadmits : readerExchangeAdmits session command options = true) :
    ∀ length ∈ optionsEncryptedHeader command options,
      length ≤ dfcReaderMaxClearHeaderLength := by
  intro length hlength
  have hoption : ∀ length ∈ options.headerLen, length.toNat ≤ dfcReaderMaxClearHeaderLength := by
    simp only [readerExchangeAdmits, Bool.and_eq_true, Option.all_eq_true, decide_eq_true_eq]
      at hadmits
    exact hadmits.1.1.1.1.1.1.2
  unfold optionsEncryptedHeader readerEncryptedHeader at hlength
  split_ifs at hlength
  · cases hlength
  · rcases Option.or_eq_some_iff.mp hlength with halways | ⟨-, hfile⟩
    · unfold ev2AlwaysEncryptedHeader at halways
      split_ifs at halways
      exact (encryptedHeaderLength_le halways).1
    · rcases Option.or_eq_some_iff.mp hfile with hgiven | ⟨-, hdefault⟩
      · obtain ⟨octet, hoctet, rfl⟩ := Option.map_eq_some_iff.mp hgiven
        exact hoption octet hoctet
      · unfold fileHeaderLength at hdefault
        split_ifs at hdefault
        exact (encryptedHeaderLength_le hdefault).1
  · rw [Option.or_none] at hlength
    unfold ev2AlwaysEncryptedHeader at hlength
    split_ifs at hlength
    · cases hlength
    · exact (encryptedHeaderLength_le hlength).1

section
variable {des : BlockCipher 8} {readerSession : DfcReaderSession} {keys : DfcEv2SessionKeys}
  {framing : DfcReaderFraming} {options : DfcReaderOptions} {ex : DfcReaderExchange}

/-- The card's session with the reader's keys, identifier and counter. -/
def cardSession (session : DfcReaderSession) (keys : DfcEv2SessionKeys) : DfcEv2CardSession where
  keys := keys
  transactionIdentifier := session.ev2TransactionIdentifier
  commandCounter := session.ev2CommandCounter

/-- Whatever the reader secures the card does not let pass unsecured. -/
theorem emulatorBypass_eq_false
    (hadmits : readerExchangeAdmits readerSession command options = true)
    (hunbypassed : (dfcEv2CommandMetadata command.ins).readerBypass = false) :
    (dfcEv2CommandMetadata command.ins).emulatorBypass = false := by
  have hall : ∀ ins : UInt8, ins ≠ dfcCmdAuthenticateLegacy → ins ≠ dfcCmdAuthenticateIso →
      ins ≠ dfcCmdAuthenticateAes → (dfcEv2CommandMetadata ins).readerBypass = false →
        (dfcEv2CommandMetadata ins).emulatorBypass = false :=
    forall_octet (by decide +kernel)
  simp only [readerExchangeAdmits, Bool.and_eq_true, bne_iff_ne] at hadmits
  obtain ⟨⟨⟨⟨⟨⟨⟨⟨-, -⟩, -⟩, hlegacy⟩, hiso⟩, haes⟩, -⟩, -⟩, -⟩ := hadmits
  exact hall _ hlegacy hiso haes hunbypassed

/-- The card gets the reader's command back exactly where it takes the command for secured and
its data field for enciphered behind the same head. -/
theorem dfcEv2PrepareCommand_iff
    (h : ReaderSecures des aes readerSession keys framing command options ex)
    (hactive : e.ev2AuthenticatedKeyNo ≠ none) {clearCapacity : ℕ}
    (hcapacity : ex.frame.length - dfcWireMacLength < clearCapacity)
    (commandChain : Option (List UInt8)) :
    (dfcEv2PrepareCommand aes e (cardSession readerSession keys) commandChain
        (command.ins :: ex.frame) clearCapacity).2 = command.ins :: command.data ↔
      plainFileCommand e commandChain (command.ins :: ex.frame) = false ∧
        cardEncryptedHeader e (command.ins :: ex.frame) =
          optionsEncryptedHeader command options := by
  obtain ⟨hadmits, secured, mac, hsecured⟩ := readerExchangeBegin_secured h
  have hsecured : SecuredFrame aes (cardSession readerSession keys).keys
      (cardSession readerSession keys).transactionIdentifier
      (cardSession readerSession keys).commandCounter.toNat command
      (optionsEncryptedHeader command options) ex.frame secured mac := hsecured
  cases hplain : plainFileCommand e commandChain (command.ins :: ex.frame) with
  | true =>
    refine iff_of_false (dfcEv2PrepareCommand_of_plain hsecured hactive hplain clearCapacity) ?_
    exact fun hboth => Bool.false_ne_true hboth.1.symm
  | false =>
    have hlen := hsecured.split.2.2
    rw [List.length_cons] at hlen
    rw [dfcEv2PrepareCommand_of_secured hsecured hactive hplain
      (emulatorBypass_eq_false hadmits h.unbypassed) (by omega),
      ev2ClearCommand_iff hsecured (optionsEncryptedHeader_le hadmits)]
    exact (and_iff_right rfl).symm

/-- What the reader sends about a file goes to the card as it is where it names no head of its
own and both take the file's mode to be the same. -/
def modesAgree (e : DfcEmulator) (command : DfcCommand) (options : DfcReaderOptions)
    (file : DfcFile) : Bool :=
  if command.ins = dfcCmdChangeFileSettings ∨ command.ins = dfcCmdGetFileCounters then
    commandFileComm e command.ins file == dfcCommEnciphered
  else commandFileComm e command.ins file == options.commMode

/-- The kinds of command that name a file. -/
theorem targetsFile_cases {ins : UInt8} (h : (dfcEv2CommandMetadata ins).targetsFile = true) :
    ((ins = dfcCmdChangeFileSettings ∨ ins = dfcCmdGetFileCounters) ∧ isFileCommand ins = false ∧
        isFileRead ins = false) ∨
      (¬(ins = dfcCmdChangeFileSettings ∨ ins = dfcCmdGetFileCounters) ∧
        isFileCommand ins = true ∧ (dfcEv2CommandMetadata ins).supportsEffectivePlain = true ∧
        (isFileRead ins = true → (dfcEv2CommandMetadata ins).encryptedHeaderLength = none)) := by
  have hall : ∀ ins : UInt8, (dfcEv2CommandMetadata ins).targetsFile = true →
      ((ins = dfcCmdChangeFileSettings ∨ ins = dfcCmdGetFileCounters) ∧
          isFileCommand ins = false ∧ isFileRead ins = false) ∨
        (¬(ins = dfcCmdChangeFileSettings ∨ ins = dfcCmdGetFileCounters) ∧
          isFileCommand ins = true ∧ (dfcEv2CommandMetadata ins).supportsEffectivePlain = true ∧
          (isFileRead ins = true → (dfcEv2CommandMetadata ins).encryptedHeaderLength = none)) :=
    forall_octet (by decide +kernel)
  exact hall ins h

theorem plainFileCommand_of_unbypassed (commandChain : Option (List UInt8)) (octets : List UInt8)
    (h : (dfcEv2CommandMetadata command.ins).readerBypass = false) :
    plainFileCommand e commandChain (command.ins :: octets) =
      (targetFile e (command.ins :: octets)).any fun file =>
        commandFileComm e command.ins file == dfcCommPlain := by
  have hframe : command.ins ≠ dfcCmdAdditionalFrame := by
    intro heq
    rw [heq] at h
    exact absurd h (by decide)
  have hins : (command.ins :: octets).getD 0 0 = command.ins := rfl
  unfold plainFileCommand
  simp only [hins, if_neg hframe]

/-- A command that names no file is enciphered by the table alone. -/
theorem modes_of_no_file (commandChain : Option (List UInt8)) (octets : List UInt8)
    (hunbypassed : (dfcEv2CommandMetadata command.ins).readerBypass = false)
    (hfile : (dfcEv2CommandMetadata command.ins).targetsFile = false)
    (hgiven : options.headerLen = none ∨ options.commMode ≠ dfcCommEnciphered) :
    plainFileCommand e commandChain (command.ins :: octets) = false ∧
      cardEncryptedHeader e (command.ins :: octets) = optionsEncryptedHeader command options := by
  have hall : ∀ ins : UInt8, (dfcEv2CommandMetadata ins).targetsFile = false →
      isFileCommand ins = false ∧ isFileRead ins = false := forall_octet (by decide +kernel)
  obtain ⟨hnofile, hnoread⟩ := hall _ hfile
  have hins : (command.ins :: octets).getD 0 0 = command.ins := rfl
  have htarget : targetFile e (command.ins :: octets) = none := by
    rw [targetFile, hins, if_pos (Or.inr (Or.inr hfile))]
  have hdefault : fileHeaderLength command.ins = none := by
    rw [fileHeaderLength, if_neg (by simp [hnofile])]
  refine ⟨by rw [plainFileCommand_of_unbypassed commandChain octets hunbypassed, htarget]; rfl, ?_⟩
  unfold cardEncryptedHeader
  simp only [hins]
  rw [if_pos (Or.inl hfile), optionsEncryptedHeader, readerEncryptedHeader,
    if_neg (by simp [hnoread]), ev2AlwaysEncryptedHeader, if_neg (by simp [hnofile]), hdefault]
  rcases hgiven with hgiven | hgiven
  · rw [hgiven]
    simp
  · rw [if_neg hgiven, Option.or_none]

/-- A command about a file is enciphered by both where the two take its mode to be the same. -/
theorem modes_of_file (commandChain : Option (List UInt8)) (octets : List UInt8)
    (hunbypassed : (dfcEv2CommandMetadata command.ins).readerBypass = false)
    (hsecured : ¬((dfcEv2CommandMetadata command.ins).supportsEffectivePlain = true ∧
      options.commMode = dfcCommPlain)) {file : DfcFile}
    (hfile : targetFile e (command.ins :: octets) = some file)
    (hgiven : options.headerLen = none ∨ options.commMode ≠ dfcCommEnciphered)
    (hagree : modesAgree e command options file = true) :
    plainFileCommand e commandChain (command.ins :: octets) = false ∧
      cardEncryptedHeader e (command.ins :: octets) = optionsEncryptedHeader command options := by
  have hins : (command.ins :: octets).getD 0 0 = command.ins := rfl
  have htargets : (dfcEv2CommandMetadata command.ins).targetsFile = true := by
    cases htargets : (dfcEv2CommandMetadata command.ins).targetsFile with
    | true => rfl
    | false =>
      rw [targetFile, hins, if_pos (Or.inr (Or.inr htargets))] at hfile
      cases hfile
  have hcard : cardEncryptedHeader e (command.ins :: octets) =
      if commandFileComm e command.ins file = dfcCommEnciphered then
        (dfcEv2CommandMetadata command.ins).encryptedHeaderLength else none := by
    simp [cardEncryptedHeader, htargets, hfile]
  rw [plainFileCommand_of_unbypassed commandChain octets hunbypassed, hfile, hcard]
  unfold modesAgree at hagree
  rcases targetsFile_cases htargets with ⟨hkind, hnofile, hnoread⟩ | ⟨hkind, hisfile, hplain, hread⟩
  · rw [if_pos hkind, beq_iff_eq] at hagree
    rw [Option.any_some, hagree, if_pos rfl]
    refine ⟨rfl, ?_⟩
    have hdefault : fileHeaderLength command.ins = none := by
      rw [fileHeaderLength, if_neg (by simp [hnofile])]
    rw [optionsEncryptedHeader, readerEncryptedHeader, if_neg (by simp [hnoread]),
      ev2AlwaysEncryptedHeader, if_neg (by simp [hnofile]), hdefault]
    rcases hgiven with hgiven | hgiven
    · rw [hgiven]
      simp
    · rw [if_neg hgiven, Option.or_none]
  · rw [if_neg hkind, beq_iff_eq] at hagree
    rw [Option.any_some, hagree]
    have hmode : options.commMode ≠ dfcCommPlain := fun hmode => hsecured ⟨hplain, hmode⟩
    refine ⟨by simpa using hmode, ?_⟩
    rw [optionsEncryptedHeader, readerEncryptedHeader, ev2AlwaysEncryptedHeader, if_pos hisfile,
      Option.none_or]
    cases hreads : isFileRead command.ins with
    | true =>
      rw [hread hreads, if_pos rfl, ite_self]
    | false =>
      rw [if_neg Bool.false_ne_true]
      by_cases henc : options.commMode = dfcCommEnciphered
      · have hnone : options.headerLen = none := hgiven.resolve_right (not_not.mpr henc)
        rw [if_pos henc, if_pos henc, hnone, Option.map_none, Option.none_or, fileHeaderLength,
          if_pos ⟨hisfile, hreads⟩]
      · rw [if_neg henc, if_neg henc]

end

end

/-- Under EV2 a data field comes back from its cryptogram, in place or not; and what the reader
secures comes back from `dfc_ev2_prepare_command` exactly where the card takes it for secured
and its field for enciphered behind the same head. So it does for every command that names no
file, among them CommitReaderID, and for every command about a file of the reader's mode. -/
theorem ev2Command_roundTrip (des : BlockCipher 8) (aes : BlockCipher 16) :
    (∀ (key transactionIdentifier : List UInt8) (direction : DfcEv2Direction) (counter : ℕ)
      (m m' : Mem) (clear clearLen encrypted encryptedCapacity encryptedLen : ℕ),
      key.length = 16 → dfcEv2EncryptDataAt aes key direction counter transactionIdentifier m
        clear clearLen encrypted encryptedCapacity = some (m', encryptedLen) →
      ∀ (out : ℕ) (allowUnpadded : Bool), ∃ m'',
        dfcEv2DecryptDataAt aes key direction counter transactionIdentifier m' encrypted
          encryptedLen out allowUnpadded = some (m'', clearLen) ∧
        m''.read out clearLen = m.read clear clearLen) ∧
    ∀ (session : DfcReaderSession) (keys : DfcEv2SessionKeys) (framing : DfcReaderFraming)
      (command : DfcCommand) (options : DfcReaderOptions) (ex : DfcReaderExchange)
      (e : DfcEmulator) (commandChain : Option (List UInt8)) (clearCapacity : ℕ),
      ReaderSecures des aes session keys framing command options ex →
      e.ev2AuthenticatedKeyNo ≠ none → ex.frame.length - dfcWireMacLength < clearCapacity →
      let received := (dfcEv2PrepareCommand aes e (cardSession session keys) commandChain
        (command.ins :: ex.frame) clearCapacity).2
      (received = command.ins :: command.data ↔
        plainFileCommand e commandChain (command.ins :: ex.frame) = false ∧
          cardEncryptedHeader e (command.ins :: ex.frame) =
            optionsEncryptedHeader command options) ∧
      (command.ins = dfcCmdCommitReaderId → received = command.ins :: command.data) ∧
      (options.headerLen = none ∨ options.commMode ≠ dfcCommEnciphered →
        (dfcEv2CommandMetadata command.ins).targetsFile = false ∨
          (∃ file, targetFile e (command.ins :: ex.frame) = some file ∧
            modesAgree e command options file = true) →
        received = command.ins :: command.data) := by
  refine ⟨?_, ?_⟩
  · intro key transactionIdentifier direction counter m m' clear clearLen encrypted
      encryptedCapacity encryptedLen hkey hencrypt out allowUnpadded
    exact dfcEv2DecryptDataAt_encrypt hkey hencrypt out allowUnpadded
  · intro session keys framing command options ex e commandChain clearCapacity h hactive
      hcapacity received
    have hiff := dfcEv2PrepareCommand_iff h hactive hcapacity commandChain
    refine ⟨hiff, ?_, ?_⟩
    · intro hreader
      obtain ⟨hadmits, -⟩ := readerExchangeBegin_secured h
      have hmode : options.commMode = dfcCommMac := by
        simp only [readerExchangeAdmits, h.keys_eq, hreader, Bool.and_eq_true] at hadmits
        simpa using hadmits.2
      refine hiff.mpr (modes_of_no_file commandChain ex.frame h.unbypassed ?_ (Or.inr ?_))
      · rw [hreader]
        decide
      · rw [hmode]
        decide
    · rintro hgiven (hfile | ⟨file, hfile, hagree⟩)
      · exact hiff.mpr (modes_of_no_file commandChain ex.frame h.unbypassed hfile hgiven)
      · exact hiff.mpr
          (modes_of_file commandChain ex.frame h.unbypassed h.secured hfile hgiven hagree)

/-- A reader's EV2 session under keys of zeros. -/
def zeroKeyEv2Keys : DfcEv2SessionKeys where
  encryptionKey := List.replicate 16 0
  macKey := List.replicate 16 0
  encryptionKeyLength := by decide
  macKeyLength := by decide

def zeroKeyEv2Session : DfcReaderSession := { keys := .ev2 zeroKeyEv2Keys }

/-- A card under EV2 with one data file of the given mode that every right needs key 0 for. -/
def ev2Card (commSettings : UInt8) : DfcEmulator where
  credential := { numApps := 1, numFiles := 1, files := fun _ => { commSettings := commSettings } }
  selectedApplication := .app
  ev2AuthenticatedKeyNo := some 0

/-- Three octets written to file 0 from its start on. -/
def writeThreeOctets : DfcCommand where
  ins := dfcCmdWriteData
  data := [0, 0, 0, 0, 3, 0, 0, 1, 2, 3]

/-- What a reader under keys of zeros and the identity for a cipher sends of a command. -/
def zeroKeyExchange (command : DfcCommand) (commMode : UInt8) : Option DfcReaderExchange :=
  (readerExchangeBegin (identityCipher 8) (identityCipher 16) zeroKeyEv2Session .native command
    { commMode := commMode }).toOption

theorem readerSecures_zeroKey {command : DfcCommand} {commMode : UInt8} {ex : DfcReaderExchange}
    (h : zeroKeyExchange command commMode = some ex)
    (hunbypassed : (dfcEv2CommandMetadata command.ins).readerBypass = false)
    (hmode : commMode ≠ dfcCommPlain) :
    ReaderSecures (identityCipher 8) (identityCipher 16) zeroKeyEv2Session zeroKeyEv2Keys .native
      command { commMode := commMode } ex where
  keys_eq := rfl
  begins := by
    unfold zeroKeyExchange at h
    cases hbegin : readerExchangeBegin (identityCipher 8) (identityCipher 16) zeroKeyEv2Session
        .native command { commMode := commMode } with
    | error failure =>
      rw [hbegin] at h
      cases h
    | ok ex' =>
      rw [hbegin] at h
      rw [Option.some.inj h]
  unbypassed := hunbypassed
  secured := fun hboth => hmode hboth.2

/-- A write in full mode arrives at a file of full mode. -/
theorem ev2Command_roundTrip_writeData :
    ∃ ex, zeroKeyExchange writeThreeOctets dfcCommEnciphered = some ex ∧
      (dfcEv2PrepareCommand (identityCipher 16) (ev2Card dfcCommEnciphered)
        (cardSession zeroKeyEv2Session zeroKeyEv2Keys) none (writeThreeOctets.ins :: ex.frame)
        64).2 = writeThreeOctets.ins :: writeThreeOctets.data := by
  have hall : ∃ ex ∈ zeroKeyExchange writeThreeOctets dfcCommEnciphered,
      ex.frame.length - dfcWireMacLength < 64 ∧
        ∃ file ∈ targetFile (ev2Card dfcCommEnciphered) (writeThreeOctets.ins :: ex.frame),
          modesAgree (ev2Card dfcCommEnciphered) writeThreeOctets
            { commMode := dfcCommEnciphered } file = true := by decide +kernel
  obtain ⟨ex, hex, hlen, file, hfile, hagree⟩ := hall
  refine ⟨ex, hex, ?_⟩
  have hround := (ev2Command_roundTrip (identityCipher 8) (identityCipher 16)).2 _ _ _ _ _ _
    (ev2Card dfcCommEnciphered) none 64 (readerSecures_zeroKey hex (by decide) (by decide))
    (by decide) hlen
  exact hround.2.2 (Or.inl rfl) (Or.inr ⟨file, hfile, hagree⟩)

/-- The same write at a file whose mode on the card is MAC: it gets the cryptogram. -/
theorem ev2Command_other_mode :
    ∃ ex, zeroKeyExchange writeThreeOctets dfcCommEnciphered = some ex ∧
      ex.frame.length - dfcWireMacLength < 64 ∧
      (dfcEv2PrepareCommand (identityCipher 16) (ev2Card dfcCommMac)
        (cardSession zeroKeyEv2Session zeroKeyEv2Keys) none (writeThreeOctets.ins :: ex.frame)
        64).1 = .secured ∧
      (dfcEv2PrepareCommand (identityCipher 16) (ev2Card dfcCommMac)
        (cardSession zeroKeyEv2Session zeroKeyEv2Keys) none (writeThreeOctets.ins :: ex.frame)
        64).2 ≠ writeThreeOctets.ins :: writeThreeOctets.data := by
  have hall : ∃ ex ∈ zeroKeyExchange writeThreeOctets dfcCommEnciphered,
      ex.frame.length - dfcWireMacLength < 64 ∧
      (dfcEv2PrepareCommand (identityCipher 16) (ev2Card dfcCommMac)
        (cardSession zeroKeyEv2Session zeroKeyEv2Keys) none (writeThreeOctets.ins :: ex.frame)
        64).1 = .secured ∧
      (dfcEv2PrepareCommand (identityCipher 16) (ev2Card dfcCommMac)
        (cardSession zeroKeyEv2Session zeroKeyEv2Keys) none (writeThreeOctets.ins :: ex.frame)
        64).2 ≠ writeThreeOctets.ins :: writeThreeOctets.data := by decide +kernel
  exact hall

end DfcCore
