import DfcCore.Ev2Command

/-!
# Reader commands on the wire

How many octets a command takes once it is under the secure messaging of its session, and what
that leaves of the session. The length depends on the authentication alone, so the room for the
first frame of the next piece of a stream is known before the session moves on.
-/
namespace DfcCore
open Der

open Der

/-- The authentication behind a session. -/
inductive SessionKind where
  | none | native (cipher : DfcCipher) | ev2
  deriving Repr, DecidableEq

def DfcReaderSession.kind (session : DfcReaderSession) : SessionKind :=
  match session.keys with
  | .none => .none
  | .native sm => .native sm.cipher
  | .ev2 _ => .ev2

theorem DfcReaderSession.isEv2_of_kind {s t : DfcReaderSession} (h : s.kind = t.kind) :
    s.isEv2 = t.isEv2 := by
  unfold kind at h
  unfold isEv2
  cases hs : s.keys <;> cases ht : t.keys <;> simp_all

namespace DfcReaderExchange

theorem kind_withSm {ex : DfcReaderExchange} {sm next : DfcSecureMessaging}
    (hkeys : ex.session.keys = .native sm) (hcipher : next.cipher = sm.cipher) :
    (ex.withSm next).session.kind = ex.session.kind := by
  simp [withSm, DfcReaderSession.kind, hkeys, hcipher]

end DfcReaderExchange

section
variable {des : BlockCipher 8} {aes : BlockCipher 16} {sm next : DfcSecureMessaging}

theorem DfcSecureMessaging.transform_cipher {encrypt : Bool} {input out : List UInt8}
    (h : sm.transform des aes encrypt input = some (out, next)) : next.cipher = sm.cipher := by
  unfold transform at h
  split_ifs at h
  all_goals
    obtain ⟨x, -, hx⟩ := Option.map_eq_some_iff.mp h
    obtain ⟨-, rfl⟩ := Prod.mk.inj hx
    rfl

theorem length_dfcCryptoDesCbc_decrypt {key iv input : List UInt8} {out : List UInt8 × List UInt8}
    (hiv : iv.length = 8) (h : dfcCryptoDesCbc des false key iv input = some out) :
    out.1.length = input.length := by
  unfold dfcCryptoDesCbc at h
  rw [if_neg (by decide : ¬(false = true))] at h
  split_ifs at h with hcheck
  have hblocks : input.length = input.length / 8 * 8 := by omega
  rw [← Option.some.inj h, Cbc.length_backward (des.length_decrypt key) _ hiv hblocks, ← hblocks]

theorem length_dfcCryptoDesChain_reverse {key input out : List UInt8} {primitive : Bool}
    (h : dfcCryptoDesChain des primitive .reverse key legacyZeroIv input = some out) :
    out.length = input.length := by
  by_cases hcheck : desKeyLengthIsValid key.length = false ∨ input.length % 8 ≠ 0
  · simp [dfcCryptoDesChain, hcheck] at h
  · have hblocks : input.length = input.length / 8 * 8 := by omega
    simp only [dfcCryptoDesChain, if_neg hcheck] at h
    rw [← Option.some.inj h, Cbc.length_backward (fun _ => length_desPrimitive des key primitive) _
      (by simp) hblocks, ← hblocks]

/-- Deciphering keeps the length. -/
theorem DfcSecureMessaging.length_transform_decrypt {input out : List UInt8}
    (h : sm.transform des aes false input = some (out, next)) : out.length = input.length := by
  have hiv : (sm.iv.take 8).length = 8 := by simp [sm.ivLength]
  unfold transform at h
  by_cases hlegacy : sm.cipher = .legacy
  · rw [if_pos hlegacy, if_neg Bool.false_ne_true] at h
    obtain ⟨x, hx, heq⟩ := Option.map_eq_some_iff.mp h
    obtain ⟨rfl, -⟩ := Prod.mk.inj heq
    exact length_dfcCryptoDesChain_reverse hx
  · rw [if_neg hlegacy] at h
    obtain ⟨x, hx, heq⟩ := Option.map_eq_some_iff.mp h
    obtain ⟨rfl, -⟩ := Prod.mk.inj heq
    unfold cbc at hx
    split_ifs at hx
    · exact length_output_dfcCryptoAesCbc sm.ivLength hx
    · obtain ⟨y, hy, rfl⟩ := Option.map_eq_some_iff.mp hx
      have hlength := length_dfcCryptoDesCbc_decrypt hiv hy
      exact hlength

variable (des aes sm) in
/-- What an answer is unwrapped to fits where the answer was. -/
theorem dfcSecureMessagingUnwrap_spec (commMode status : UInt8) (wrapped : List UInt8) (cap : ℕ) :
    (∀ clear ∈ (dfcSecureMessagingUnwrap des aes sm commMode status wrapped cap).1,
      clear.length ≤ cap) ∧
    (dfcSecureMessagingUnwrap des aes sm commMode status wrapped cap).2.cipher = sm.cipher := by
  unfold dfcSecureMessagingUnwrap encipheredDecode
  split_ifs with hplain hroom hother hguard
  · simp
  · simpa using hroom
  · simp
  · simp
  · cases htransform : sm.transform des aes false wrapped with
    | none => simp
    | some read =>
      obtain ⟨clear, next⟩ := read
      have hlength := DfcSecureMessaging.length_transform_decrypt htransform
      have hcipher := DfcSecureMessaging.transform_cipher htransform
      simp only
      cases hclear : sm.clearLength [] [status] clear with
      | none => simp
      | some length =>
        simp only [Option.mem_def, Option.some.injEq, forall_eq', hcipher, and_true]
        rw [List.length_take]
        omega

theorem encipheredEncode_cipher {head plain status octets : List UInt8} {padding : Bool} {cap : ℕ}
    (h : encipheredEncode des aes sm head plain status padding cap = some (octets, next)) :
    next.cipher = sm.cipher := by
  unfold encipheredEncode at h
  simp only at h
  split_ifs at h
  exact DfcSecureMessaging.transform_cipher h

variable (des aes sm) in
theorem wrapCommandBody_cipher (commMode : UInt8) (head body : List UInt8) (cap : ℕ) :
    (wrapCommandBody des aes sm commMode head body cap).2.cipher = sm.cipher := by
  unfold wrapCommandBody dfcSecureMessagingWrap
  split_ifs
  any_goals rfl
  cases hencode : encipheredEncode des aes sm head body [] false cap with
  | none => rfl
  | some out => exact encipheredEncode_cipher hencode

theorem length_d40MacVerify {wrapped clear : List UInt8} {cap : ℕ}
    (h : d40MacVerify des sm wrapped cap = some clear) : clear.length ≤ cap := by
  unfold d40MacVerify at h
  simp only at h
  split_ifs at h with hguard
  obtain rfl := Option.some.inj h
  rw [not_or, not_or] at hguard
  exact Nat.not_lt.mp hguard.2.2

end

/-- What putting a command under the session leaves of its exchange. -/
def Prepared (ex ex' : DfcReaderExchange) : Prop :=
  ∃ session plan frame,
    ex' = { ex with session := session, responsePlan := plan, frame := frame } ∧
      session.kind = ex.session.kind ∧ frame.length ≤ dfcReaderMaxCommand

section
variable {des : BlockCipher 8} {aes : BlockCipher 16} {sm : DfcSecureMessaging}
  {ex ex' : DfcReaderExchange} {command : DfcCommand} {headerLen : Option ℕ}

theorem DfcReaderExchange.setFrame_ok {octets : List UInt8} (h : ex.setFrame octets = .ok ex') :
    ex' = { ex with frame := octets } ∧ octets.length ≤ dfcReaderMaxCommand := by
  unfold setFrame at h
  split_ifs at h with hlong
  exact ⟨(Except.ok.inj h).symm, Nat.not_lt.mp hlong⟩

/-- A command that goes out as it is, or with octets that are ready. -/
theorem prepared_setFrame {session : DfcReaderSession} {plan : ResponsePlan} {octets : List UInt8}
    (hkind : session.kind = ex.session.kind)
    (h : { ex with session := session, responsePlan := plan }.setFrame octets = .ok ex') :
    Prepared ex ex' ∧ ex'.frame = octets := by
  obtain ⟨rfl, hlength⟩ := DfcReaderExchange.setFrame_ok h
  exact ⟨⟨session, plan, octets, rfl, hkind, hlength⟩, rfl⟩

/-- A wrapped body takes the octets the length function says. -/
theorem prepareWrappedFileWrite_ok {plan : ResponsePlan} {commMode : UInt8}
    (hkeys : ex.session.keys = .native sm)
    (h : prepareWrappedFileWrite des aes { ex with responsePlan := plan } sm command commMode
      headerLen = .ok ex') :
    Prepared ex ex' ∧ ∃ header wireLen, headerLen = some header ∧ header ≤ command.data.length ∧
      dfcSecureMessagingCommandPayloadLength (some sm) commMode (command.data.length - header) =
        some wireLen ∧ ex'.frame.length = header + wireLen := by
  unfold prepareWrappedFileWrite at h
  simp only [bind_eq_ok, orFail_eq_ok, refuseIf_eq_ok, pure_eq_ok, exists_const] at h
  obtain ⟨header, hheader, hbound, wireLen, hwire, hroom, hlength, rfl⟩ := h
  rw [not_or, Nat.not_lt, Nat.not_lt] at hbound
  rw [not_or, not_not] at hlength
  have hcipher := wrapCommandBody_cipher des aes sm commMode
    (command.ins :: command.data.take header) (command.data.drop header)
    (dfcReaderMaxCommand - header)
  rw [List.length_drop] at hwire
  have hframe : (command.data.take header).length = header := by
    rw [List.length_take]
    omega
  have hmax : header ≤ dfcReaderMaxCommand := hbound.1.trans (by decide)
  refine ⟨⟨_, plan, _, rfl, ?_, ?_⟩, header, wireLen, hheader, hbound.2, hwire, ?_⟩
  · exact DfcReaderExchange.kind_withSm hkeys hcipher
  · rw [List.length_append, hframe, hlength.2]
    omega
  · rw [List.length_append, hframe, hlength.2]

theorem prepareLegacy_prepared (hkeys : ex.session.keys = .native sm)
    (h : prepareLegacy des aes ex sm command headerLen = .ok ex') : Prepared ex ex' := by
  unfold prepareLegacy at h
  simp only at h
  split_ifs at h
  · exact (prepareWrappedFileWrite_ok hkeys h).1
  · exact (prepareWrappedFileWrite_ok hkeys h).1
  · exact (prepareWrappedFileWrite_ok hkeys h).1
  all_goals exact (prepared_setFrame rfl h).1

theorem prepareEv1_prepared (hkeys : ex.session.keys = .native sm)
    (h : prepareEv1 des aes ex sm command headerLen = .ok ex') : Prepared ex ex' := by
  have hchained (octets : List UInt8) :
      (ex.withSm (sm.setIv octets)).session.kind = ex.session.kind :=
    DfcReaderExchange.kind_withSm hkeys rfl
  unfold prepareEv1 ev1Cmac at h
  simp only at h
  generalize (if command.ins = dfcCmdGetVersion then ResponsePlan.ev1GetVersion
    else ResponsePlan.ev1Cmac) = plan at h
  split_ifs at h
  · exact (prepared_setFrame rfl h).1
  · exact (prepareWrappedFileWrite_ok hkeys h).1
  · unfold prepareChangeKeyEv1 at h
    split_ifs at h
    exact (prepared_setFrame (hchained _) h).1
  · exact (prepareWrappedFileWrite_ok hkeys h).1
  all_goals exact (prepared_setFrame (hchained _) h).1

theorem prepareEv2_prepared {keys : DfcEv2SessionKeys}
    (h : prepareEv2 aes ex keys command headerLen = .ok ex') : Prepared ex ex' := by
  unfold prepareEv2 at h
  simp only at h
  split_ifs at h
  · exact (prepared_setFrame rfl h).1
  · exact (prepared_setFrame rfl h).1
  all_goals
    simp only [bind_eq_ok, orFail_eq_ok] at h
    obtain ⟨secured, -, mac, -, hframe⟩ := h
    exact (prepared_setFrame rfl hframe).1

theorem prepareCommand_prepared (h : prepareCommand des aes ex command headerLen = .ok ex') :
    Prepared ex ex' := by
  unfold prepareCommand at h
  cases hkeys : ex.session.keys with
  | none =>
    rw [hkeys] at h
    exact (prepared_setFrame rfl h).1
  | native sm =>
    simp only [hkeys] at h
    split_ifs at h
    · exact prepareLegacy_prepared hkeys h
    · exact prepareEv1_prepared hkeys h
  | ev2 keys =>
    simp only [hkeys] at h
    exact prepareEv2_prepared h

end

/-- Octets a data field of `n` octets takes on the wire. -/
def wireLength (keys : DfcReaderKeys) (commMode : UInt8) (n : ℕ) : ℕ :=
  match keys with
  | .none => n
  | .native sm =>
    if sm.cipher = .legacy ∧ commMode = dfcCommPlain then n
    else (dfcSecureMessagingCommandPayloadLength (some sm) commMode n).getD 0
  | .ev2 _ =>
    if commMode = dfcCommPlain then n
    else (dfcSecureMessagingCommandPayloadLength none commMode n).getD 0

/-- It depends on the authentication alone. -/
theorem wireLength_of_kind {s t : DfcReaderSession} (h : s.kind = t.kind) (commMode : UInt8)
    (n : ℕ) : wireLength s.keys commMode n = wireLength t.keys commMode n := by
  unfold DfcReaderSession.kind at h
  cases hs : s.keys <;> cases ht : t.keys <;> simp_all [wireLength,
    dfcSecureMessagingCommandPayloadLength, DfcSecureMessaging.blockSize]

/-- Octets in front of the data of a streamed write. -/
def StreamKind.header (kind : StreamKind) : ℕ :=
  if kind = .updateRecord then dfcEv2UpdateRecordHeaderLength else dfcEv2FileHeaderLength

def StreamKind.ins : StreamKind → UInt8
  | writeData => dfcCmdWriteData
  | writeRecord => dfcCmdWriteRecord
  | updateRecord => dfcCmdUpdateRecord

namespace StreamKind
variable (kind : StreamKind)

/-- What the streamed writes have in common. -/
theorem chained : usesNativeCommandChaining kind.ins = true := by cases kind <;> decide

theorem headerLength : fileHeaderLength kind.ins = some kind.header := by cases kind <;> decide

theorem file_unread : isFileCommand kind.ins = true ∧ isFileRead kind.ins = false := by
  cases kind <;> decide

theorem protects (cipher : DfcCipher) :
    dfcSecureMessagingAppliesEv1 cipher kind.ins = (cipher != .legacy) := by
  cases kind <;> cases cipher <;> decide

theorem transmitsMac : dfcSecureMessagingEv1TransmitsCommandMac kind.ins = true := by
  cases kind <;> decide

theorem metadata : (dfcEv2CommandMetadata kind.ins).readerBypass = false ∧
    (dfcEv2CommandMetadata kind.ins).supportsEffectivePlain = true ∧
    ev2AlwaysEncryptedHeader kind.ins = none := by
  cases kind <;> decide

theorem unlike : kind.ins ≠ dfcCmdSetConfiguration ∧ kind.ins ≠ dfcCmdCommitReaderId ∧
    kind.ins ≠ dfcCmdChangeKey ∧ responseIsAlwaysFull kind.ins = false := by
  cases kind <;> decide

theorem keepsSession (session : DfcReaderSession) {command : DfcCommand}
    (h : command.ins = kind.ins) : invalidatesSession session command = false := by
  have hne : kind.ins ∉ [dfcCmdSelectApplication, dfcCmdDeleteApplication, dfcCmdFormatPicc,
      dfcCmdChangeKey, dfcCmdChangeKeyEv2] := by cases kind <;> decide
  simp only [List.mem_cons, List.not_mem_nil, or_false, not_or] at hne
  simp [invalidatesSession, h, hne]

end StreamKind

section
variable {des : BlockCipher 8} {aes : BlockCipher 16} {sm : DfcSecureMessaging}
  {ex ex' : DfcReaderExchange} {command : DfcCommand} {kind : StreamKind}

theorem commModeIsValid_cases {commMode : UInt8} (h : commModeIsValid commMode = true) :
    commMode = dfcCommPlain ∨ commMode = dfcCommMac ∨ commMode = dfcCommEnciphered := by
  simpa [commModeIsValid, or_assoc] using h

theorem payloadLength_plain (sm : Option DfcSecureMessaging) (n : ℕ) :
    dfcSecureMessagingCommandPayloadLength sm dfcCommPlain n = some n := by
  cases sm <;> rfl

theorem payloadLength_mac (sm : Option DfcSecureMessaging) (n : ℕ) :
    dfcSecureMessagingCommandPayloadLength sm dfcCommMac n =
      some (n + if sm.any fun sm => sm.cipher == .legacy then dfcSmLegacyMacLength
        else dfcWireMacLength) := by
  cases sm <;> rfl

theorem payloadLength_ev2 (n : ℕ) :
    dfcSecureMessagingCommandPayloadLength none dfcCommEnciphered n =
      some ((n + 1 + dfcAesKeyLength - 1) / dfcAesKeyLength * dfcAesKeyLength + dfcWireMacLength) :=
  rfl

theorem prepareLegacy_length (hkeys : ex.session.keys = .native sm) (hcipher : sm.cipher = .legacy)
    (hins : command.ins = kind.ins) (hlong : kind.header ≤ command.data.length)
    (h : prepareLegacy des aes ex sm command (some kind.header) = .ok ex') :
    ex'.frame.length = kind.header +
      wireLength ex.session.keys ex.commMode (command.data.length - kind.header) := by
  obtain ⟨hfile, hread⟩ := kind.file_unread
  obtain ⟨hconfig, hreader, -, hfull⟩ := kind.unlike
  unfold prepareLegacy at h
  simp only [hins, if_neg hconfig, if_neg hreader, hfile, hread, true_and] at h
  by_cases hplain : ex.commMode = dfcCommPlain
  · simp only [hplain, ne_eq, not_true_eq_false, if_false] at h
    rw [DfcReaderExchange.setFrame_eq_ok h]
    simp [wireLength, hkeys, hcipher, hplain, hlong]
  · rw [if_pos hplain] at h
    obtain ⟨-, header, wireLen, hheader, -, hwire, hlength⟩ := prepareWrappedFileWrite_ok hkeys h
    obtain rfl := Option.some.inj hheader
    simp [wireLength, hkeys, hplain, hwire, hlength]

theorem prepareEv1_length (hkeys : ex.session.keys = .native sm) (hcipher : sm.cipher ≠ .legacy)
    (hmode : commModeIsValid ex.commMode = true)
    (hins : command.ins = kind.ins) (hlong : kind.header ≤ command.data.length)
    (h : prepareEv1 des aes ex sm command (some kind.header) = .ok ex') :
    ex'.frame.length = kind.header +
      wireLength ex.session.keys ex.commMode (command.data.length - kind.header) := by
  obtain ⟨hfile, hread⟩ := kind.file_unread
  obtain ⟨hconfig, -, hchange, hfull⟩ := kind.unlike
  have hprotects : dfcSecureMessagingAppliesEv1 sm.cipher kind.ins = true := by
    simp [kind.protects, hcipher]
  unfold prepareEv1 ev1Cmac at h
  simp only [hins, hprotects, Bool.true_eq_false, if_false, if_neg hconfig, if_neg hchange, hfile,
    hread, kind.transmitsMac, true_and, Bool.and_true] at h
  generalize (if kind.ins = dfcCmdGetVersion then ResponsePlan.ev1GetVersion
    else ResponsePlan.ev1Cmac) = plan at h
  split_ifs at h with hroom henc hshort hmac
  · obtain ⟨-, header, wireLen, hheader, -, hwire, hlength⟩ := prepareWrappedFileWrite_ok hkeys h
    obtain rfl := Option.some.inj hheader
    simp [wireLength, hkeys, hcipher, henc, hwire, hlength]
  · have hwidth : dfcWorkerCmacSize ≤ sm.blockSize := by
      rcases sm.blockSize_cases with ⟨hsize, -⟩ | ⟨hsize, -⟩ <;> simp [hsize, dfcWorkerCmacSize]
    rw [beq_iff_eq] at hmac
    rw [DfcReaderExchange.setFrame_eq_ok h, List.length_append, List.length_take,
      DfcSecureMessaging.length_fullCmac, Nat.min_eq_left hwidth]
    simp [wireLength, hkeys, hcipher, hmac, payloadLength_mac, dfcWireMacLength, dfcWorkerCmacSize]
    omega
  all_goals
    have hplain : ex.commMode = dfcCommPlain := by
      rcases commModeIsValid_cases hmode with hplain | hother | hother
      · exact hplain
      · exact absurd (beq_iff_eq.mpr hother) hmac
      · exact absurd hother henc
    rw [DfcReaderExchange.setFrame_eq_ok h]
    simp [wireLength, hkeys, hcipher, hplain, payloadLength_plain, hlong]

theorem prepareEv2_length {keys : DfcEv2SessionKeys} (hkeys : ex.session.keys = .ev2 keys)
    (hmode : commModeIsValid ex.commMode = true)
    (hins : command.ins = kind.ins) (hlong : kind.header ≤ command.data.length)
    (h : prepareEv2 aes ex keys command (some kind.header) = .ok ex') :
    ex'.frame.length = kind.header +
      wireLength ex.session.keys ex.commMode (command.data.length - kind.header) := by
  obtain ⟨-, hread⟩ := kind.file_unread
  obtain ⟨hbypass, hsupports, halways⟩ := kind.metadata
  unfold prepareEv2 at h
  simp only [hins, hbypass, hsupports, halways, Bool.false_eq_true, if_false, true_and,
    Option.none_or] at h
  by_cases hplain : ex.commMode = dfcCommPlain
  · rw [if_pos hplain] at h
    split_ifs at h
    rw [DfcReaderExchange.setFrame_eq_ok h]
    simp [wireLength, hkeys, hplain, hlong]
  · rw [if_neg hplain] at h
    simp only [bind_eq_ok, orFail_eq_ok] at h
    obtain ⟨secured, hfield, mac, hmac, hframe⟩ := h
    rw [DfcReaderExchange.setFrame_eq_ok hframe, List.length_append, length_dfcEv2Mac hmac]
    unfold ev2SecuredField at hfield
    rw [hins, hread] at hfield
    by_cases henc : ex.commMode = dfcCommEnciphered
    · simp only [if_pos henc, bind_eq_ok, refuseIf_eq_ok, orFail_eq_ok, pure_eq_ok, exists_const]
        at hfield
      obtain ⟨-, wireLen, hwire, -, encrypted, hencrypt, rfl⟩ := hfield
      have hlength := (dfcEv2DecryptData_encrypt keys.encryptionKeyLength hencrypt).1
      rw [length_ev2Padded, List.length_drop] at hlength
      rw [List.length_append, List.length_take, hlength]
      rw [hkeys, wireLength, if_neg hplain, henc, payloadLength_ev2, Option.getD_some]
      simp only [dfcAesKeyLength, dfcWireMacLength]
      omega
    · simp only [if_neg henc, bind_eq_ok, refuseIf_eq_ok, orFail_eq_ok, pure_eq_ok, exists_const]
        at hfield
      obtain ⟨wireLen, hwire, -, rfl⟩ := hfield
      have hmac : ex.commMode = dfcCommMac := by
        rcases commModeIsValid_cases hmode with hother | hmac | hother
        · exact absurd hother hplain
        · exact hmac
        · exact absurd hother henc
      rw [hkeys, wireLength, if_neg hplain, hmac, payloadLength_mac]
      simp
      omega

/-- A streamed write takes its header and the octets of its data on the wire. -/
theorem prepareCommand_length (hmode : commModeIsValid ex.commMode = true)
    (hins : command.ins = kind.ins) (hlong : kind.header ≤ command.data.length)
    (h : prepareCommand des aes ex command (some kind.header) = .ok ex') :
    ex'.frame.length = kind.header +
      wireLength ex.session.keys ex.commMode (command.data.length - kind.header) := by
  unfold prepareCommand at h
  cases hkeys : ex.session.keys with
  | none =>
    rw [hkeys] at h
    rw [DfcReaderExchange.setFrame_eq_ok h, wireLength]
    omega
  | native sm =>
    simp only [hkeys] at h
    rw [← hkeys]
    split_ifs at h with hcipher
    · exact prepareLegacy_length hkeys hcipher hins hlong h
    · exact prepareEv1_length hkeys hcipher hmode hins hlong h
  | ev2 keys =>
    simp only [hkeys] at h
    rw [← hkeys]
    exact prepareEv2_length hkeys hmode hins hlong h

end

theorem fileRange_ok {ins fileNo : UInt8} {first second : ℕ} {content : List UInt8}
    {command : DfcCommand} (h : fileRange ins fileNo first second content = .ok command) :
    command.ins = ins ∧ command.data.length = dfcEv2FileHeaderLength + content.length := by
  unfold fileRange at h
  split_ifs at h
  have hholds := ((((Builder.holds_start ins).putByte fileNo).put (leOctets 3 first)).put
    (leOctets 3 second)).put content
  obtain ⟨rfl, -⟩ := hholds.finish h
  simp [dfcEv2FileHeaderLength]
  omega

/-- The command of the next piece is a write of its kind around the piece. -/
theorem DfcReaderStream.command_ok {stream : DfcReaderStream} {command : DfcCommand}
    (h : stream.command = .ok command) : command.ins = stream.kind.ins ∧
      command.data.length = stream.kind.header + stream.chunk.length := by
  unfold DfcReaderStream.command at h
  cases hkind : stream.kind with
  | writeData =>
    simp only [hkind, dfcCommandWriteData] at h
    split_ifs at h
    exact fileRange_ok h
  | writeRecord =>
    simp only [hkind, dfcCommandWriteRecord, Bool.false_eq_true, if_false] at h
    split_ifs at h
    exact fileRange_ok h
  | updateRecord =>
    simp only [hkind, dfcCommandUpdateRecord, Bool.false_eq_true, if_false] at h
    split_ifs at h
    have hholds := (((((Builder.holds_start dfcCmdUpdateRecord).putByte stream.fileNumber).put
      (leOctets 3 stream.recordNumber)).put (leOctets 3 (stream.baseOffset + stream.offset))).put
      (leOctets 3 stream.chunk.length)).put stream.chunk
    obtain ⟨rfl, -⟩ := hholds.finish h
    refine ⟨rfl, ?_⟩
    simp [StreamKind.header, dfcEv2UpdateRecordHeaderLength, dfcUpdateRecordHeaderSize]
    omega

theorem emitRequiredCapacity_le (framing : DfcReaderFraming) (n : ℕ) :
    emitRequiredCapacity framing n ≤ n + dfcCommandApduOverhead := by
  unfold emitRequiredCapacity
  simp only [dfcCommandApduOverhead]
  cases framing with
  | iso7816 => simp only; split_ifs <;> omega
  | native => simp only; omega

theorem length_frameOctets (framing : DfcReaderFraming) (ins : UInt8) (data : List UInt8) :
    (frameOctets framing ins data).length = emitRequiredCapacity framing data.length := by
  cases framing with
  | iso7816 =>
    cases data with
    | nil => rfl
    | cons b data => simp [frameOctets, emitRequiredCapacity, dfcCommandApduOverhead]
  | native => rfl

/-- Octets of the first frame of a command that takes `n` octets. -/
def firstFrameLength (session : DfcReaderSession) (n : ℕ) : ℕ :=
  if session.isEv2 = false ∧ dfcEv1MaxFramePayload < n then dfcEv1MaxFramePayload else n

theorem nextStreamEmitCapacity_eq (ex : DfcReaderExchange) (stream : DfcReaderStream) :
    nextStreamEmitCapacity ex stream = emitRequiredCapacity ex.framing
      (firstFrameLength ex.session (stream.kind.header +
        wireLength ex.session.keys stream.commMode stream.chunk.length)) := by
  unfold nextStreamEmitCapacity firstFrameLength wireLength
  cases ex.session.keys <;> rfl

/-- A piece under EV2 goes out in one frame. -/
theorem wireLength_ev2_le {session : DfcReaderSession} {commMode : UInt8} {n : ℕ}
    (hev2 : session.isEv2 = true) (hmode : commModeIsValid commMode = true) :
    wireLength session.keys commMode n ≤ n + 24 := by
  unfold DfcReaderSession.isEv2 at hev2
  cases hkeys : session.keys with
  | none => simp [hkeys] at hev2
  | native sm => simp [hkeys] at hev2
  | ev2 keys =>
    rcases commModeIsValid_cases hmode with rfl | rfl | rfl
    · rw [wireLength, if_pos rfl]
      omega
    · rw [wireLength, if_neg (by decide), payloadLength_mac]
      simp [dfcWireMacLength]
    · rw [wireLength, if_neg (by decide), payloadLength_ev2, Option.getD_some]
      simp only [dfcAesKeyLength, dfcWireMacLength]
      omega

theorem DfcReaderStream.wire_ev2_le (stream : DfcReaderStream) {session : DfcReaderSession}
    (hev2 : session.isEv2 = true) (hvalid : commModeIsValid stream.commMode = true) :
    stream.kind.header + wireLength session.keys stream.commMode stream.chunk.length ≤
      dfcCommandMaxData := by
  have hchunk : stream.chunk.length ≤ dfcReaderStreamChunk := List.length_take_le ..
  have hheader : stream.kind.header ≤ dfcEv2UpdateRecordHeaderLength := by
    cases stream.kind <;> decide
  have hwire := wireLength_ev2_le (n := stream.chunk.length) hev2 hvalid
  simp only [dfcReaderStreamChunk, dfcEv2UpdateRecordHeaderLength, dfcUpdateRecordHeaderSize,
    dfcCommandMaxData] at hchunk hheader ⊢
  omega

/-- The first frame of the next piece is a frame. -/
theorem nextStreamEmitCapacity_le_frame (ex : DfcReaderExchange) {stream : DfcReaderStream}
    (hvalid : commModeIsValid stream.commMode = true) :
    nextStreamEmitCapacity ex stream ≤ dfcCommandMaxData + dfcCommandApduOverhead := by
  rw [nextStreamEmitCapacity_eq]
  refine (emitRequiredCapacity_le _ _).trans (Nat.add_le_add_right ?_ _)
  unfold firstFrameLength
  cases hev2 : ex.session.isEv2 with
  | true =>
    rw [if_neg (by simp)]
    exact stream.wire_ev2_le hev2 hvalid
  | false =>
    split_ifs with hlong
    · decide
    · have hshort := Nat.not_lt.mp fun h => hlong ⟨rfl, h⟩
      exact hshort.trans (by decide)

end DfcCore
