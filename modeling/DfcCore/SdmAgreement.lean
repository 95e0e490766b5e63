import DfcCore.Aes
import DfcCore.Sdm
import Mathlib.Data.Fintype.Defs

/-!
# Card and back end agree on secure dynamic messaging

What the renderer mirrors, range by range, and what the verifier makes of it. The two agree
where they take the same identifier and counter into the session keys, find the block of
identifier and counter as long as expected and under the same key, and start the decryption of
file data from the same value.
-/
namespace DfcCore
open Der Cmac

inductive SdmMirror where
  | uid | counter | piccData | fileData | mac
  deriving Repr, DecidableEq

instance : Fintype SdmMirror where
  elems := {.uid, .counter, .piccData, .fileData, .mac}
  complete p := by cases p <;> decide

/-- The first octet of a mirror and its length. -/
def SdmMirror.range (c : DfcCredential) (file : DfcFile) : SdmMirror → Option (ℕ × ℕ)
  | .uid =>
    if dfcFileSdmFlagIsSet file .uidOffset then
      some (file.state.data.sdm.uidOffset.toNat, c.uidLen * dfcSdmHexExpansion) else none
  | .counter =>
    if dfcFileSdmFlagIsSet file .counterOffset then
      some (file.state.data.sdm.counterOffset.toNat, 6) else none
  | .piccData =>
    if dfcFileSdmFlagIsSet file .piccDataOffset then
      some (file.state.data.sdm.piccDataOffset.toNat, sdmPiccClearLength c * dfcSdmHexExpansion)
    else none
  | .fileData =>
    if dfcFileSdmFlagIsSet file .encryptedFile then
      some (file.state.data.sdm.encryptedFileOffset.toNat,
        file.state.data.sdm.encryptedFileLength.toNat) else none
  | .mac =>
    if sdmHasMac file then
      some (file.state.data.sdm.macOffset.toNat, dfcWireMacLength * dfcSdmHexExpansion) else none

def rangesDisjoint (r r' : ℕ × ℕ) : Prop := r.1 + r.2 ≤ r'.1 ∨ r'.1 + r'.2 ≤ r.1

instance (r r' : ℕ × ℕ) : Decidable (rangesDisjoint r r') := inferInstanceAs (Decidable (_ ∨ _))

/-- Disjoint mirrors, a MAC, and the enciphered range inside the input of the MAC. -/
structure SdmLayout (c : DfcCredential) (file : DfcFile) : Prop where
  disjoint : ∀ p q : SdmMirror, p ≠ q → ∀ r ∈ p.range c file, ∀ r' ∈ q.range c file,
    rangesDisjoint r r'
  hasMac : sdmHasMac file = true
  inside : dfcFileSdmFlagIsSet file .encryptedFile = true →
    file.state.data.sdm.macInputOffset.toNat ≤ file.state.data.sdm.encryptedFileOffset.toNat ∧
      file.state.data.sdm.encryptedFileOffset.toNat +
      file.state.data.sdm.encryptedFileLength.toNat ≤
        file.state.data.sdm.macOffset.toNat

/-- The configuration with the card's offsets and the lengths it writes. -/
def sdmConfig (c : DfcCredential) (file : DfcFile) : DfcSdmVerifyConfig :=
  let sdm := file.state.data.sdm
  let flag := dfcFileSdmFlagIsSet file
  { plainUidLength := if flag .uidOffset then c.uidLen else 0
    plainUid := if flag .uidOffset then some sdm.uidOffset.toNat else none
    plainReadCounter := if flag .counterOffset then some sdm.counterOffset.toNat else none
    encryptedPiccData := if flag .piccDataOffset then some sdm.piccDataOffset.toNat else none
    encryptedPiccDataLength :=
      if flag .piccDataOffset then sdmPiccClearLength c * dfcSdmHexExpansion else 0
    encryptedFileData := if flag .encryptedFile then some sdm.encryptedFileOffset.toNat else none
    encryptedFileDataLength := if flag .encryptedFile then sdm.encryptedFileLength.toNat else 0
    macInputOffset := sdm.macInputOffset.toNat
    macOffset := sdm.macOffset.toNat }

/-- An octet array outside a range is as it was. -/
def KeepsOutside (range : Option (ℕ × ℕ)) (before after : Mem) : Prop :=
  ∀ a n, (∀ r ∈ range, rangesDisjoint r (a, n)) → after.read a n = before.read a n

theorem keepsOutside_write (m : Mem) (start : ℕ) (octets : List UInt8) :
    KeepsOutside (some (start, octets.length)) m (m.write start octets) := by
  intro a n h
  have hd : start + octets.length ≤ a ∨ a + n ≤ start := h _ rfl
  exact Mem.read_write_of_disjoint hd.symm

section
variable {cipher : BlockCipher 16} {c : DfcCredential} {app : Option ℕ} {file : DfcFile}
  {start counter : ℕ} {padding key : List UInt8} {m m' : Mem}

theorem mirrorUid_spec (c : DfcCredential) (file : DfcFile) (m : Mem) :
    KeepsOutside (SdmMirror.range c file .uid) m (mirrorUid c file m) ∧
      (dfcFileSdmFlagIsSet file .uidOffset = true →
        (mirrorUid c file m).read file.state.data.sdm.uidOffset.toNat
          (c.uidLen * dfcSdmHexExpansion) = AsciiHex.encode (sdmPlainUid c)) := by
  have hlen : (AsciiHex.encode (sdmPlainUid c)).length = c.uidLen * dfcSdmHexExpansion := by
    rw [AsciiHex.length_encode, sdmPlainUid]
    split_ifs
    · rw [List.length_replicate, Nat.mul_comm]
    · rw [cardUid, Mem.length_read, Nat.mul_comm]
  simp only [mirrorUid, SdmMirror.range]
  split_ifs with hflag
  · refine ⟨?_, fun _ => Mem.read_write_self' hlen⟩
    rw [← hlen]
    exact keepsOutside_write _ _ _
  · exact ⟨fun _ _ _ => rfl, fun h => absurd h hflag⟩

theorem mirrorCounter_spec (c : DfcCredential) (file : DfcFile) (counter : ℕ) (m : Mem) :
    KeepsOutside (SdmMirror.range c file .counter) m (mirrorCounter file counter m) ∧
      (dfcFileSdmFlagIsSet file .counterOffset = true →
        (mirrorCounter file counter m).read file.state.data.sdm.counterOffset.toNat 6 =
          AsciiHex.encode (leOctets 3 counter).reverse) := by
  have hlen : (AsciiHex.encode (leOctets 3 counter).reverse).length = 6 := by
    rw [AsciiHex.length_encode, List.length_reverse, length_leOctets]
  simp only [mirrorCounter, SdmMirror.range]
  split_ifs with hflag
  · refine ⟨?_, fun _ => Mem.read_write_self' hlen⟩
    have hkeep := keepsOutside_write m file.state.data.sdm.counterOffset.toNat
      (AsciiHex.encode (leOctets 3 counter).reverse)
    rwa [hlen] at hkeep
  · exact ⟨fun _ _ _ => rfl, fun h => absurd h hflag⟩

theorem dfcCryptoAesCbc_encrypt {key iv input : List UInt8} {out : List UInt8 × List UInt8}
    (h : dfcCryptoAesCbc cipher true key iv input = some out) :
    key.length = 16 ∧ input.length % 16 = 0 ∧
      out = Cbc.forward (cipher.encrypt key) 16 (input.length / 16) iv input := by
  unfold dfcCryptoAesCbc at h
  rw [if_pos rfl] at h
  split_ifs at h with hbad
  rw [not_or, not_not, not_not] at hbad
  exact ⟨hbad.1, hbad.2, (Option.some.inj h).symm⟩

theorem length_dfcCryptoAesCbc {key iv input : List UInt8} {out : List UInt8 × List UInt8}
    (h : dfcCryptoAesCbc cipher true key iv input = some out) (hiv : iv.length = 16) :
    out.1.length = input.length ∧ out.2.length = 16 := by
  obtain ⟨-, hmod, rfl⟩ := dfcCryptoAesCbc_encrypt h
  have hblocks : input.length = input.length / 16 * 16 := by omega
  have hlen := Cbc.length_forward (cipher.length_encrypt key) (input.length / 16) hiv hblocks
  exact ⟨by omega, hlen.2⟩

/-- Decryption under the same key from the same initial value gives the input back, and both
leave the same value. -/
theorem dfcCryptoAesCbc_decrypt {key iv input : List UInt8} {out : List UInt8 × List UInt8}
    (h : dfcCryptoAesCbc cipher true key iv input = some out) (hiv : iv.length = 16) :
    dfcCryptoAesCbc cipher false key iv out.1 = some (input, out.2) := by
  have hlen := (length_dfcCryptoAesCbc h hiv).1
  obtain ⟨hkey, hmod, rfl⟩ := dfcCryptoAesCbc_encrypt h
  have hblocks : input.length = input.length / 16 * 16 := by omega
  have hback := Cbc.backward_forward (cipher.length_encrypt key) (cipher.decrypt_encrypt key)
    (input.length / 16) hiv hblocks
  rw [dfcCryptoAesCbc, if_neg (by omega), if_neg (by decide), hlen, hback]

theorem length_sdmPiccClear (huid : c.uidLen = 7 ∨ c.uidLen = 10)
    (hpadding : padding.length = sdmRandomPaddingLength c file) :
    (sdmPiccClear c file counter padding).length = sdmPiccClearLength c := by
  unfold sdmRandomPaddingLength sdmPiccClearLength at hpadding
  unfold sdmPiccClear sdmPiccClearLength cardUid
  rcases huid with huid | huid <;> cases hopt : sdmFileOption file dfcSdmCounterMirrorMask <;>
    simp [huid, hopt, dfcSdmPiccDataBlockLength, dfcAesKeyLength] at hpadding ⊢ <;> omega

theorem mirrorPiccData_spec (huid : c.uidLen = 7 ∨ c.uidLen = 10)
    (hpadding : dfcFileSdmFlagIsSet file .piccDataOffset = true →
      padding.length = sdmRandomPaddingLength c file)
    (h : mirrorPiccData cipher c app file counter padding m = some m') :
    KeepsOutside (SdmMirror.range c file .piccData) m m' ∧
      (dfcFileSdmFlagIsSet file .piccDataOffset = true → ∃ key out, sdmKey c app 0 = some key ∧
        dfcCryptoAesCbc cipher true key zeroBlock (sdmPiccClear c file counter padding) = some out ∧
        m'.read file.state.data.sdm.piccDataOffset.toNat
          (sdmPiccClearLength c * dfcSdmHexExpansion) = AsciiHex.encode out.1) := by
  unfold mirrorPiccData at h
  simp only [SdmMirror.range]
  split_ifs at h ⊢ with hflag
  · simp only [Option.bind_eq_bind, Option.bind_eq_some_iff, Option.pure_def,
      Option.some.injEq] at h
    obtain ⟨key, hkey, out, hcbc, rfl⟩ := h
    have hlen : (AsciiHex.encode out.1).length = sdmPiccClearLength c * dfcSdmHexExpansion := by
      rw [AsciiHex.length_encode, (length_dfcCryptoAesCbc hcbc (by decide)).1,
        length_sdmPiccClear huid (hpadding hflag), Nat.mul_comm]
    refine ⟨?_, fun _ => ⟨key, out, hkey, hcbc, Mem.read_write_self' hlen⟩⟩
    rw [← hlen]
    exact keepsOutside_write _ _ _
  · obtain rfl := Option.some.inj h
    exact ⟨fun _ _ _ => rfl, fun h => absurd h hflag⟩

theorem mirrorFileData_spec
    (hlength : dfcFileSdmFlagIsSet file .encryptedFile = true →
      file.state.data.sdm.encryptedFileLength.toNat % 32 = 0)
    (h : mirrorFileData cipher c file start counter key m = some m') :
    KeepsOutside (SdmMirror.range c file .fileData) m m' ∧
      (dfcFileSdmFlagIsSet file .encryptedFile = true → ∃ sessionKey fileIv out,
        sdmDeriveKey cipher key 0xC3 0x3C c file counter = some sessionKey ∧
        dfcCryptoAesCbc cipher true sessionKey zeroBlock (sdmCounterBlock counter) = some fileIv ∧
        dfcCryptoAesCbc cipher true sessionKey fileIv.1 (sdmEncipheredSource c file start) =
          some out ∧
        m'.read file.state.data.sdm.encryptedFileOffset.toNat
          file.state.data.sdm.encryptedFileLength.toNat = AsciiHex.encode out.1) := by
  unfold mirrorFileData at h
  simp only [SdmMirror.range]
  split_ifs at h ⊢ with hflag
  · simp only [Option.bind_eq_bind, Option.bind_eq_some_iff, Option.pure_def,
      Option.some.injEq] at h
    obtain ⟨sessionKey, hkey, fileIv, hiv, out, hcbc, rfl⟩ := h
    have hivLen : fileIv.1.length = 16 := by
      rw [(length_dfcCryptoAesCbc hiv (by decide)).1, sdmCounterBlock, List.length_append,
        length_leOctets, List.length_replicate]
    have hmod := hlength hflag
    have hlen : (AsciiHex.encode out.1).length =
        file.state.data.sdm.encryptedFileLength.toNat := by
      rw [AsciiHex.length_encode, (length_dfcCryptoAesCbc hcbc hivLen).1, sdmEncipheredSource,
        Mem.length_read]
      simp only [dfcSdmHexExpansion]
      omega
    refine ⟨?_, fun _ => ⟨sessionKey, fileIv, out, hkey, hiv, hcbc, Mem.read_write_self' hlen⟩⟩
    rw [← hlen]
    exact keepsOutside_write _ _ _
  · obtain rfl := Option.some.inj h
    exact ⟨fun _ _ _ => rfl, fun h => absurd h hflag⟩

theorem length_dfcTruncateAesWireMac (full : List UInt8) :
    (dfcTruncateAesWireMac full).length = 8 := by
  simp [dfcTruncateAesWireMac]

/-- The MAC stands behind its input, so the input reads the same once it is there. -/
theorem mirrorMac_spec (hmac : sdmHasMac file = true)
    (horder : file.state.data.sdm.macInputOffset ≤ file.state.data.sdm.macOffset)
    (h : mirrorMac cipher c file counter key m = some m') :
    KeepsOutside (SdmMirror.range c file .mac) m m' ∧
      ∃ sessionKey, sdmDeriveKey cipher key 0x3C 0xC3 c file counter = some sessionKey ∧
        m'.read file.state.data.sdm.macOffset.toNat 16 =
          AsciiHex.encode (dfcTruncateAesWireMac (aesCmac cipher.encrypt sessionKey
            (m'.read file.state.data.sdm.macInputOffset.toNat
              (file.state.data.sdm.macOffset.toNat -
                file.state.data.sdm.macInputOffset.toNat)))) := by
  rw [mirrorMac, if_pos hmac] at h
  simp only [Option.bind_eq_bind, Option.bind_eq_some_iff, Option.pure_def, Option.some.injEq] at h
  obtain ⟨sessionKey, hkey, rfl⟩ := h
  have horder' := UInt32.le_iff_toNat_le.mp horder
  simp only [SdmMirror.range, if_pos hmac]
  set mac := AsciiHex.encode (dfcTruncateAesWireMac (aesCmac cipher.encrypt sessionKey
    (m.read file.state.data.sdm.macInputOffset.toNat
      (file.state.data.sdm.macOffset.toNat - file.state.data.sdm.macInputOffset.toNat)))) with hdef
  have hlen : mac.length = 16 := by
    rw [hdef, AsciiHex.length_encode, length_dfcTruncateAesWireMac]
  refine ⟨?_, sessionKey, hkey, ?_⟩
  · have hkeep := keepsOutside_write m file.state.data.sdm.macOffset.toNat mac
    rwa [hlen] at hkeep
  · rw [Mem.read_write_self' hlen, Mem.read_write_of_disjoint (Or.inl (by omega))]

/-- The contents of every mirror of a rendered copy. -/
structure SdmRendered (cipher : BlockCipher 16) (c : DfcCredential) (app : Option ℕ)
    (file : DfcFile) (start counter : ℕ) (padding : List UInt8) (octets : Mem) : Prop where
  uid : dfcFileSdmFlagIsSet file .uidOffset = true →
    octets.read file.state.data.sdm.uidOffset.toNat (c.uidLen * dfcSdmHexExpansion) =
      AsciiHex.encode (sdmPlainUid c)
  readCounter : dfcFileSdmFlagIsSet file .counterOffset = true →
    octets.read file.state.data.sdm.counterOffset.toNat 6 =
      AsciiHex.encode (leOctets 3 counter).reverse
  piccData : dfcFileSdmFlagIsSet file .piccDataOffset = true → ∃ key out,
    sdmKey c app 0 = some key ∧
    dfcCryptoAesCbc cipher true key zeroBlock (sdmPiccClear c file counter padding) = some out ∧
    octets.read file.state.data.sdm.piccDataOffset.toNat
      (sdmPiccClearLength c * dfcSdmHexExpansion) = AsciiHex.encode out.1
  fileData : ∀ key, sdmFileReadKey c app file = some key →
    dfcFileSdmFlagIsSet file .encryptedFile = true → ∃ sessionKey fileIv out,
      sdmDeriveKey cipher key 0xC3 0x3C c file counter = some sessionKey ∧
      dfcCryptoAesCbc cipher true sessionKey zeroBlock (sdmCounterBlock counter) = some fileIv ∧
      dfcCryptoAesCbc cipher true sessionKey fileIv.1 (sdmEncipheredSource c file start) =
        some out ∧
      octets.read file.state.data.sdm.encryptedFileOffset.toNat
        file.state.data.sdm.encryptedFileLength.toNat = AsciiHex.encode out.1
  mac : ∀ key, sdmFileReadKey c app file = some key → ∃ sessionKey,
    sdmDeriveKey cipher key 0x3C 0xC3 c file counter = some sessionKey ∧
    octets.read file.state.data.sdm.macOffset.toNat 16 =
      AsciiHex.encode (dfcTruncateAesWireMac (aesCmac cipher.encrypt sessionKey
        (octets.read file.state.data.sdm.macInputOffset.toNat
          (file.state.data.sdm.macOffset.toNat - file.state.data.sdm.macInputOffset.toNat))))

/-- A mirror reads the same after another one was written. -/
theorem SdmLayout.keeps (hlayout : SdmLayout c file) {p q : SdmMirror} (hne : p ≠ q) {r : ℕ × ℕ}
    (hr : p.range c file = some r) (hkeep : KeepsOutside (q.range c file) m m') :
    m'.read r.1 r.2 = m.read r.1 r.2 :=
  hkeep r.1 r.2 fun r' hr' => hlayout.disjoint q p (Ne.symm hne) r' hr' r hr

theorem renderSdmMirrors_spec (huid : c.uidLen = 7 ∨ c.uidLen = 10) (hlayout : SdmLayout c file)
    (horder : file.state.data.sdm.macInputOffset ≤ file.state.data.sdm.macOffset)
    (hlength : dfcFileSdmFlagIsSet file .encryptedFile = true →
      file.state.data.sdm.encryptedFileLength.toNat % 32 = 0)
    (hpadding : dfcFileSdmFlagIsSet file .piccDataOffset = true →
      padding.length = sdmRandomPaddingLength c file)
    (h : renderSdmMirrors cipher c app file start counter padding m = some m') :
    SdmRendered cipher c app file start counter padding m' := by
  simp only [renderSdmMirrors, Option.bind_eq_bind, Option.bind_eq_some_iff] at h
  obtain ⟨key, hkey, m₃, hpicc, m₄, hfile, hmac⟩ := h
  set m₁ := mirrorUid c file (m.write 0 (c.filePool.read start file.dataLen))
  obtain ⟨-, huidRead⟩ := mirrorUid_spec c file (m.write 0 (c.filePool.read start file.dataLen))
  obtain ⟨hkeep₂, hcounterRead⟩ := mirrorCounter_spec c file counter m₁
  obtain ⟨hkeep₃, hpiccRead⟩ := mirrorPiccData_spec huid hpadding hpicc
  obtain ⟨hkeep₄, hfileRead⟩ := mirrorFileData_spec hlength hfile
  obtain ⟨hkeep₅, hmacRead⟩ := mirrorMac_spec hlayout.hasMac horder hmac
  refine ⟨?_, ?_, ?_, ?_, ?_⟩
  · intro hflag
    have hr : SdmMirror.range c file .uid =
        some (file.state.data.sdm.uidOffset.toNat, c.uidLen * dfcSdmHexExpansion) := by
      simp [SdmMirror.range, hflag]
    have h₂ := hlayout.keeps (q := .counter) (by decide) hr hkeep₂
    have h₃ := hlayout.keeps (q := .piccData) (by decide) hr hkeep₃
    have h₄ := hlayout.keeps (q := .fileData) (by decide) hr hkeep₄
    have h₅ := hlayout.keeps (q := .mac) (by decide) hr hkeep₅
    exact h₅.trans (h₄.trans (h₃.trans (h₂.trans (huidRead hflag))))
  · intro hflag
    have hr : SdmMirror.range c file .counter =
        some (file.state.data.sdm.counterOffset.toNat, 6) := by
      simp [SdmMirror.range, hflag]
    have h₃ := hlayout.keeps (q := .piccData) (by decide) hr hkeep₃
    have h₄ := hlayout.keeps (q := .fileData) (by decide) hr hkeep₄
    have h₅ := hlayout.keeps (q := .mac) (by decide) hr hkeep₅
    exact h₅.trans (h₄.trans (h₃.trans (hcounterRead hflag)))
  · intro hflag
    obtain ⟨metaKey, out, hmeta, hcbc, hread⟩ := hpiccRead hflag
    have hr : SdmMirror.range c file .piccData =
        some (file.state.data.sdm.piccDataOffset.toNat,
          sdmPiccClearLength c * dfcSdmHexExpansion) := by
      simp [SdmMirror.range, hflag]
    have h₄ := hlayout.keeps (q := .fileData) (by decide) hr hkeep₄
    have h₅ := hlayout.keeps (q := .mac) (by decide) hr hkeep₅
    exact ⟨metaKey, out, hmeta, hcbc, h₅.trans (h₄.trans hread)⟩
  · intro key' hkey' hflag
    obtain rfl : key = key' := Option.some.inj (hkey.symm.trans hkey')
    obtain ⟨sessionKey, fileIv, out, hsession, hiv, hcbc, hread⟩ := hfileRead hflag
    have hr : SdmMirror.range c file .fileData =
        some (file.state.data.sdm.encryptedFileOffset.toNat,
          file.state.data.sdm.encryptedFileLength.toNat) := by
      simp [SdmMirror.range, hflag]
    have h₅ := hlayout.keeps (q := .mac) (by decide) hr hkeep₅
    exact ⟨sessionKey, fileIv, out, hsession, hiv, hcbc, h₅.trans hread⟩
  · intro key' hkey'
    obtain rfl : key = key' := Option.some.inj (hkey.symm.trans hkey')
    exact hmacRead

/-- The ranges the renderer has checked. -/
structure SdmRangesFit (c : DfcCredential) (file : DfcFile) : Prop where
  uid : dfcFileSdmFlagIsSet file .uidOffset = true →
    file.state.data.sdm.uidOffset.toNat + c.uidLen * dfcSdmHexExpansion ≤ file.dataLen
  readCounter : dfcFileSdmFlagIsSet file .counterOffset = true →
    file.state.data.sdm.counterOffset.toNat + 6 ≤ file.dataLen
  piccData : dfcFileSdmFlagIsSet file .piccDataOffset = true →
    file.state.data.sdm.piccDataOffset.toNat + sdmPiccClearLength c * dfcSdmHexExpansion ≤
      file.dataLen
  mac : sdmHasMac file = true →
    file.state.data.sdm.macInputOffset ≤ file.state.data.sdm.macOffset ∧
      file.state.data.sdm.macOffset.toNat + 16 ≤ file.dataLen
  fileData : dfcFileSdmFlagIsSet file .encryptedFile = true →
    file.state.data.sdm.encryptedFileLength ≠ 0 ∧
      file.state.data.sdm.encryptedFileLength.toNat % 32 = 0 ∧
      file.state.data.sdm.encryptedFileOffset.toNat +
        file.state.data.sdm.encryptedFileLength.toNat ≤ file.dataLen

theorem sdmRangeFits_iff {offset : UInt32} {length : ℕ} :
    sdmRangeFits file offset length = true ↔ offset.toNat + length ≤ file.dataLen := by
  rw [sdmRangeFits, Bool.and_eq_true, decide_eq_true_eq, decide_eq_true_eq]
  omega

theorem sdmRangesFit_of_valid (h : sdmRangesAreValid c file = true) : SdmRangesFit c file := by
  simp only [sdmRangesAreValid, Bool.and_eq_true, Bool.or_eq_true, Bool.not_eq_true',
    sdmRangeFits_iff, bne_iff_ne, beq_iff_eq, decide_eq_true_eq] at h
  obtain ⟨⟨⟨⟨huid, hcounter⟩, hpicc⟩, hmac⟩, hfile⟩ := h
  have hset {p : Prop} {b : Bool} (hor : b = false ∨ p) (hb : b = true) : p :=
    hor.resolve_left (by simp [hb])
  refine ⟨hset huid, hset hcounter, hset hpicc, hset hmac, fun hflag => ?_⟩
  obtain ⟨⟨⟨hne, hmod⟩, hfits⟩, -⟩ := hset hfile hflag
  exact ⟨hne, hmod, hfits⟩

theorem slice_read {n offset length : ℕ} (m : Mem) (h : offset + length ≤ n) :
    slice (m.read 0 n) offset length = m.read offset length := by
  obtain ⟨k, rfl⟩ := Nat.exists_eq_add_of_le h
  rw [slice, Nat.add_assoc, Mem.read_add, List.drop_append_of_le_length (by simp),
    List.drop_of_length_le (by simp), List.nil_append, Nat.zero_add, Mem.read_add,
    List.take_append_of_le_length (by simp), List.take_of_length_le (by simp)]

/-- Enciphered data about the card excludes data in clear. -/
theorem SdmStored.exclusive (h : SdmStored file.state.data.sdm)
    (hpicc : dfcFileSdmFlagIsSet file .piccDataOffset = true) :
    dfcFileSdmFlagIsSet file .uidOffset = false ∧
      dfcFileSdmFlagIsSet file .counterOffset = false := by
  have htype : file.type = dfcFileTypeStandardData := by
    simp only [dfcFileSdmFlagIsSet, Bool.and_eq_true, beq_iff_eq] at hpicc
    exact hpicc.1
  simp only [dfcFileSdmFlagIsSet, htype, beq_self_eq_true, Bool.true_and] at hpicc ⊢
  rw [h.flag .piccDataOffset _ rfl (by decide)] at hpicc
  have hmeta : sdmMetaRead file.state.data.sdm.accessRights ≠ dfcSdmFreeAccess :=
    (of_decide_eq_true hpicc).ne
  refine ⟨?_, ?_⟩
  · rw [h.flag .uidOffset _ rfl (by decide)]
    simp [sdmFieldPresent, hmeta]
  · by_contra hset
    have hpresent := h.counter (by simpa using hset)
    simp [sdmFieldPresent, hmeta] at hpresent

theorem rangeFits_of_le {total offset length : ℕ} (h : offset + length ≤ total) :
    rangeFits total offset length = true := by
  rw [rangeFits, Bool.and_eq_true, decide_eq_true_eq, decide_eq_true_eq]
  omega

theorem sdmConfig_cardFieldsValid (huid : c.uidLen = 7 ∨ c.uidLen = 10) (hfit : SdmRangesFit c file)
    (hstored : SdmStored file.state.data.sdm) :
    sdmCardFieldsValid (sdmConfig c file) file.dataLen = true := by
  have hpiccLength : sdmPiccClearLength c * dfcSdmHexExpansion = 32 ∨
      sdmPiccClearLength c * dfcSdmHexExpansion = 64 := by
    unfold sdmPiccClearLength
    split_ifs
    · exact Or.inr rfl
    · exact Or.inl rfl
  simp only [sdmCardFieldsValid, sdmConfig]
  cases hpicc : dfcFileSdmFlagIsSet file .piccDataOffset with
  | true =>
    obtain ⟨hnoUid, hnoCounter⟩ := hstored.exclusive hpicc
    simp [hnoUid, hnoCounter, hpiccLength, rangeFits_of_le (hfit.piccData hpicc)]
  | false =>
    have hplainUid := hfit.uid
    have hplainCounter := hfit.readCounter
    cases hflag : dfcFileSdmFlagIsSet file .uidOffset <;>
      cases hcounter : dfcFileSdmFlagIsSet file .counterOffset <;>
      simp_all [rangeFits_of_le]

theorem sdmConfig_valid (huid : c.uidLen = 7 ∨ c.uidLen = 10) (hlayout : SdmLayout c file)
    (hfit : SdmRangesFit c file) (hstored : SdmStored file.state.data.sdm) :
    sdmConfigValid (sdmConfig c file) file.dataLen = true := by
  have hmac := hfit.mac hlayout.hasMac
  have horder := UInt32.le_iff_toNat_le.mp hmac.1
  have hfile : sdmFileFieldValid (sdmConfig c file) file.dataLen = true := by
    by_cases hflag : dfcFileSdmFlagIsSet file .encryptedFile = true
    · simp only [sdmFileFieldValid, sdmConfig, hflag, if_true]
      obtain ⟨hne, hmod, hle⟩ := hfit.fileData hflag
      have hinside := hlayout.inside hflag
      have hne' : file.state.data.sdm.encryptedFileLength.toNat ≠ 0 := by
        intro hzero
        exact hne (UInt32.toNat_inj.mp hzero)
      simp only [Bool.and_eq_true, bne_iff_ne, beq_iff_eq, decide_eq_true_eq]
      refine ⟨⟨⟨⟨⟨hne', hmod⟩, rangeFits_of_le hle⟩, hinside.1⟩, ?_⟩, ?_⟩ <;> omega
    · simp [sdmFileFieldValid, sdmConfig, hflag]
  rw [sdmConfigValid, hfile, sdmConfig_cardFieldsValid huid hfit hstored, Bool.and_true,
    Bool.and_true, Bool.and_eq_true, decide_eq_true_eq]
  exact ⟨horder, rangeFits_of_le hmac.2⟩

/-- The fields a message is taken apart into, as the renderer has written them. -/
theorem sdmDigits_valid {octets : Mem} (hlayout : SdmLayout c file) (hfit : SdmRangesFit c file)
    (hkey : sdmFileReadKey c app file = some key)
    (hr : SdmRendered cipher c app file start counter padding octets) :
    sdmDigitsAreValid (octets.read 0 file.dataLen) (sdmConfig c file) = true := by
  have hmac : AsciiHex.valid (slice (octets.read 0 file.dataLen)
      file.state.data.sdm.macOffset.toNat 16) = true := by
    obtain ⟨sessionKey, -, hread⟩ := hr.mac key hkey
    rw [slice_read _ (hfit.mac hlayout.hasMac).2, hread, AsciiHex.valid_encode]
  simp only [sdmDigitsAreValid, sdmConfig, hmac, Bool.true_and, Bool.and_eq_true]
  refine ⟨⟨⟨?_, ?_⟩, ?_⟩, ?_⟩
  · cases hflag : dfcFileSdmFlagIsSet file .uidOffset with
    | false => rfl
    | true =>
      simp only [if_true, Option.all_some]
      rw [slice_read _ (hfit.uid hflag), hr.uid hflag, AsciiHex.valid_encode]
  · cases hflag : dfcFileSdmFlagIsSet file .counterOffset with
    | false => rfl
    | true =>
      simp only [if_true, Option.all_some]
      rw [slice_read _ (hfit.readCounter hflag), hr.readCounter hflag, AsciiHex.valid_encode]
  · cases hflag : dfcFileSdmFlagIsSet file .piccDataOffset with
    | false => rfl
    | true =>
      obtain ⟨metaKey, out, -, -, hread⟩ := hr.piccData hflag
      simp only [if_true, Option.all_some]
      rw [slice_read _ (hfit.piccData hflag), hread, AsciiHex.valid_encode]
  · cases hflag : dfcFileSdmFlagIsSet file .encryptedFile with
    | false => rfl
    | true =>
      obtain ⟨sessionKey, fileIv, out, -, -, -, hread⟩ := hr.fileData key hkey hflag
      simp only [if_true, Option.all_some]
      rw [slice_read _ (hfit.fileData hflag).2.2, hread, AsciiHex.valid_encode]

/-- A candidate with the identifier and the counter the card has taken into its keys. -/
structure SdmAgrees (c : DfcCredential) (file : DfcFile) (counter : ℕ)
    (candidate : DfcSdmVerifyResult) : Prop where
  uid : candidate.uid = if sdmIncludesUid file then some (cardUid c) else none
  readCounter : candidate.readCounter = if sdmIncludesCounter file then some counter else none

theorem SdmAgrees.deriveKey {candidate : DfcSdmVerifyResult}
    (h : SdmAgrees c file counter candidate) (key : List UInt8) (labelHigh labelLow : UInt8) :
    dfcSdmDeriveSessionKey cipher key labelHigh labelLow (candidate.uid.getD [])
      candidate.uid.isSome (candidate.readCounter.getD 0) candidate.readCounter.isSome =
      sdmDeriveKey cipher key labelHigh labelLow c file counter := by
  rw [h.uid, h.readCounter, sdmDeriveKey]
  cases sdmIncludesUid file <;> cases sdmIncludesCounter file <;> simp [dfcSdmDeriveSessionKey]

/-- The MAC is that of the candidate's key, and the file data is the source, if the decryption
starts from the zero block as the encryption does. -/
theorem verify_of_candidate {octets : Mem} {candidate : DfcSdmVerifyResult} {zeroIv : List UInt8}
    {metaKey : Option (List UInt8)} {capacity : Option ℕ} (huid : c.uidLen = 7 ∨ c.uidLen = 10)
    (hlayout : SdmLayout c file) (hfit : SdmRangesFit c file)
    (hstored : SdmStored file.state.data.sdm) (hkey : sdmFileReadKey c app file = some key)
    (hr : SdmRendered cipher c app file start counter padding octets)
    (hcandidate : sdmCandidate cipher (octets.read 0 file.dataLen) (sdmConfig c file) metaKey =
      .ok (candidate, zeroIv))
    (hagrees : SdmAgrees c file counter candidate)
    (hfile : dfcFileSdmFlagIsSet file .encryptedFile = true → sdmIncludesUid file = true ∧
      sdmIncludesCounter file = true ∧ zeroIv = zeroBlock ∧
      ∃ available, capacity = some available ∧
        file.state.data.sdm.encryptedFileLength.toNat / 2 ≤ available) :
    ∃ clear, dfcSdmVerifyAscii cipher (octets.read 0 file.dataLen) (sdmConfig c file) metaKey key
        capacity =
      .ok ({ candidate with
          decryptedFileDataLength := (sdmConfig c file).encryptedFileDataLength / 2 }, clear) ∧
      (dfcFileSdmFlagIsSet file .encryptedFile = true →
        clear = sdmEncipheredSource c file start) := by
  obtain ⟨macKey, hmacKey, hmacRead⟩ := hr.mac key hkey
  have hmac := hfit.mac hlayout.hasMac
  have horder := UInt32.le_iff_toNat_le.mp hmac.1
  have hinput : slice (octets.read 0 file.dataLen) file.state.data.sdm.macInputOffset.toNat
      (file.state.data.sdm.macOffset.toNat - file.state.data.sdm.macInputOffset.toNat) =
      octets.read file.state.data.sdm.macInputOffset.toNat
        (file.state.data.sdm.macOffset.toNat - file.state.data.sdm.macInputOffset.toNat) :=
    slice_read _ (by omega)
  have hclear : ∃ clear, sdmDecryptFileData cipher (octets.read 0 file.dataLen) (sdmConfig c file)
      key candidate zeroIv capacity = .ok clear ∧
      (dfcFileSdmFlagIsSet file .encryptedFile = true →
        clear = sdmEncipheredSource c file start) := by
    by_cases hflag : dfcFileSdmFlagIsSet file .encryptedFile = true
    · obtain ⟨hincUid, hincCounter, rfl, available, rfl, hroom⟩ := hfile hflag
      obtain ⟨sessionKey, fileIv, out, hsession, hiv, hcbc, hread⟩ := hr.fileData key hkey hflag
      have hivLen : fileIv.1.length = 16 := by
        rw [(length_dfcCryptoAesCbc hiv (by decide)).1, sdmCounterBlock, List.length_append,
          length_leOctets, List.length_replicate]
      have hdec := dfcCryptoAesCbc_decrypt hcbc hivLen
      have hcandUid : candidate.uid = some (cardUid c) := by rw [hagrees.uid, if_pos hincUid]
      have hcandCounter : candidate.readCounter = some counter := by
        rw [hagrees.readCounter, if_pos hincCounter]
      rw [sdmDeriveKey, hincUid, hincCounter] at hsession
      refine ⟨sdmEncipheredSource c file start, ?_, fun _ => rfl⟩
      simp only [sdmDecryptFileData, sdmConfig, hflag, if_true, bind_eq_ok, orFail_eq_ok,
        refuseIf_eq_ok, pure_eq_ok]
      refine ⟨_, hcandUid, _, hcandCounter, _, rfl, (), Nat.not_lt.mpr hroom, out.1, ?_,
        sessionKey, hsession, fileIv, hiv, _, hdec, rfl⟩
      rw [slice_read _ (hfit.fileData hflag).2.2, hread, AsciiHex.decode_encode]
    · refine ⟨[], ?_, fun h => absurd h hflag⟩
      simp [sdmDecryptFileData, sdmConfig, hflag]
  obtain ⟨clear, hdecrypt, hsource⟩ := hclear
  refine ⟨clear, ?_, hsource⟩
  simp only [dfcSdmVerifyAscii, bind_eq_ok, orFail_eq_ok, refuseIf_eq_ok, pure_eq_ok]
  refine ⟨(), ?_, (), ?_, (candidate, zeroIv), hcandidate, macKey, ?_,
    dfcTruncateAesWireMac (aesCmac cipher.encrypt macKey
      (octets.read file.state.data.sdm.macInputOffset.toNat
        (file.state.data.sdm.macOffset.toNat - file.state.data.sdm.macInputOffset.toNat))),
    ?_, (), ?_, clear, hdecrypt, rfl⟩
  · rw [Mem.length_read, sdmConfig_valid huid hlayout hfit hstored]
    decide
  · rw [sdmDigits_valid hlayout hfit hkey hr]
    decide
  · rw [hagrees.deriveKey, hmacKey]
  · change AsciiHex.decode (slice (octets.read 0 file.dataLen)
      file.state.data.sdm.macOffset.toNat 16) = _
    rw [slice_read _ hmac.2, hmacRead, AsciiHex.decode_encode]
  · rw [not_not]
    change dfcTruncateAesWireMac (aesCmac cipher.encrypt macKey (slice (octets.read 0 file.dataLen)
      file.state.data.sdm.macInputOffset.toNat
      (file.state.data.sdm.macOffset.toNat - file.state.data.sdm.macInputOffset.toNat))) = _
    rw [hinput]

/-- In clear, the verifier finds what is mirrored. -/
theorem sdmCandidate_plain {octets : Mem} {metaKey : Option (List UInt8)}
    (hrandom : c.piccRandomId = false) (hcounter : counter < 2 ^ 24) (hfit : SdmRangesFit c file)
    (hr : SdmRendered cipher c app file start counter padding octets)
    (hpicc : dfcFileSdmFlagIsSet file .piccDataOffset = false) :
    sdmCandidate cipher (octets.read 0 file.dataLen) (sdmConfig c file) metaKey =
      .ok ({ uid := if dfcFileSdmFlagIsSet file .uidOffset then some (cardUid c) else none
             readCounter :=
              if dfcFileSdmFlagIsSet file .counterOffset then some counter else none },
        zeroBlock) := by
  have huid : sdmPlainUidOf (octets.read 0 file.dataLen) (sdmConfig c file) =
      .ok (if dfcFileSdmFlagIsSet file .uidOffset then some (cardUid c) else none) := by
    by_cases hflag : dfcFileSdmFlagIsSet file .uidOffset = true
    · have hread := hr.uid hflag
      rw [← slice_read _ (hfit.uid hflag)] at hread
      simp only [sdmPlainUidOf, sdmConfig, hflag, if_true]
      change some <$> orFail _ (AsciiHex.decode (slice (octets.read 0 file.dataLen)
        file.state.data.sdm.uidOffset.toNat (c.uidLen * dfcSdmHexExpansion))) = _
      rw [hread, AsciiHex.decode_encode, sdmPlainUid, hrandom]
      rfl
    · simp [sdmPlainUidOf, sdmConfig, hflag]
  have hctr : sdmPlainCounterOf (octets.read 0 file.dataLen) (sdmConfig c file) =
      .ok (if dfcFileSdmFlagIsSet file .counterOffset then some counter else none) := by
    by_cases hflag : dfcFileSdmFlagIsSet file .counterOffset = true
    · have hread := hr.readCounter hflag
      rw [← slice_read _ (hfit.readCounter hflag)] at hread
      have hvalue : leValue (leOctets 3 counter) = counter :=
        leValue_leOctets_of_lt (by simpa using hcounter)
      simp only [sdmPlainCounterOf, sdmConfig, hflag, if_true, hread, AsciiHex.decode_encode]
      simp [orFail, hvalue]
    · simp [sdmPlainCounterOf, sdmConfig, hflag]
  have hnone : (sdmConfig c file).encryptedPiccData = none := by simp [sdmConfig, hpicc]
  rw [sdmCandidate, hnone]
  simp only [huid, hctr]
  rfl

/-- A block of sixteen octets with an identifier of seven, with or without a counter. -/
theorem parsePiccPlaintext_short {uid rest : List UInt8} (huid : uid.length = 7)
    (hlen : rest.length = 8) (hcounter : Bool) :
    parsePiccPlaintext ((if hcounter then 0xC7 else 0x87) :: (uid ++ rest)) =
      some { uid := some uid
             readCounter := if hcounter then some (leValue (rest.take 3)) else none } := by
  have htake : (uid ++ rest).take 7 = uid := by
    rw [List.take_append_of_le_length (by omega), List.take_of_length_le (by omega)]
  have hdrop : (uid ++ rest).drop 7 = rest := by
    rw [List.drop_append_of_le_length (by omega), List.drop_of_length_le (by omega),
      List.nil_append]
  cases hcounter with
  | true =>
    have hbits : ((0xC7 : UInt8) &&& 0x0F).toNat = 7 ∧ ((0xC7 : UInt8) &&& 0x80 != 0) = true ∧
        ((0xC7 : UInt8) &&& 0x40 != 0) = true ∧ (0xC7 : UInt8) &&& 0x30 = 0 := by decide
    simp [parsePiccPlaintext, hbits, huid, hlen, htake, hdrop]
  | false =>
    have hbits : ((0x87 : UInt8) &&& 0x0F).toNat = 7 ∧ ((0x87 : UInt8) &&& 0x80 != 0) = true ∧
        ((0x87 : UInt8) &&& 0x40 != 0) = false ∧ (0x87 : UInt8) &&& 0x30 = 0 := by decide
    simp [parsePiccPlaintext, hbits, huid, hlen, htake]

/-- A block of thirty-two octets with an identifier of ten at its end. -/
theorem parsePiccPlaintext_long {uid padding : List UInt8} (huid : uid.length = 10)
    (hlen : padding.length = 21) :
    parsePiccPlaintext (0x8A :: (padding ++ uid)) = some { uid := some uid } := by
  have hbits : ((0x8A : UInt8) &&& 0x0F).toNat = 10 ∧ ((0x8A : UInt8) &&& 0x80 != 0) = true ∧
      ((0x8A : UInt8) &&& 0x40 != 0) = false ∧ (0x8A : UInt8) &&& 0x30 = 0 := by decide
  have hdrop : (padding ++ uid).drop 21 = uid := by
    rw [List.drop_append_of_le_length (by omega), List.drop_of_length_le (by omega),
      List.nil_append]
  simp [parsePiccPlaintext, hbits, huid, hlen, hdrop, List.take_of_length_le]

/-- What the verifier reads from the block of identifier and counter. -/
theorem parsePiccPlaintext_sdmPiccClear (hcounter : counter < 2 ^ 24)
    (hpadding : padding.length = sdmRandomPaddingLength c file)
    (hshort : c.uidLen = 7 ∨ c.uidLen = 10 ∧ sdmFileOption file dfcSdmCounterMirrorMask = false) :
    parsePiccPlaintext (sdmPiccClear c file counter padding) =
      some
        { uid := some (cardUid c)
          readCounter :=
            if sdmFileOption file dfcSdmCounterMirrorMask then some counter else none } := by
  have hvalue : leValue (leOctets 3 counter) = counter :=
    leValue_leOctets_of_lt (by simpa using hcounter)
  have huidLen : (cardUid c).length = c.uidLen := by rw [cardUid, Mem.length_read]
  rcases hshort with h7 | ⟨h10, hnone⟩
  · have hlen7 : (cardUid c).length = 7 := huidLen.trans h7
    have hpad : padding.length = 16 - 1 - 7 -
        (if sdmFileOption file dfcSdmCounterMirrorMask then 3 else 0) := by
      simpa [sdmRandomPaddingLength, sdmPiccClearLength, h7] using hpadding
    cases hopt : sdmFileOption file dfcSdmCounterMirrorMask with
    | true =>
      have hclear : sdmPiccClear c file counter padding =
          0xC7 :: (cardUid c ++ (leOctets 3 counter ++ padding)) := by
        simp only [sdmPiccClear, h7, hopt, List.append_assoc]
        rfl
      have hrest : (leOctets 3 counter ++ padding).length = 8 := by simp [hpad, hopt]
      have hparse := parsePiccPlaintext_short hlen7 hrest true
      have htake : (leOctets 3 counter ++ padding).take 3 = leOctets 3 counter := by
        rw [List.take_append_of_le_length (by simp), List.take_of_length_le (by simp)]
      rw [htake, hvalue] at hparse
      rw [hclear]
      exact hparse
    | false =>
      have hclear : sdmPiccClear c file counter padding = 0x87 :: (cardUid c ++ padding) := by
        simp only [sdmPiccClear, h7, hopt]
        simp
        rfl
      rw [hclear]
      exact parsePiccPlaintext_short hlen7 (by simp [hpad, hopt]) false
  · have hpad : padding.length = 21 := by
      simpa [sdmRandomPaddingLength, sdmPiccClearLength, h10, hnone, dfcSdmPiccDataBlockLength,
        dfcAesKeyLength] using hpadding
    have hclear : sdmPiccClear c file counter padding = 0x8A :: (padding ++ cardUid c) := by
      simp only [sdmPiccClear, h10, hnone]
      rfl
    rw [hclear, hnone]
    exact parsePiccPlaintext_long (huidLen.trans h10) hpad

/-- Under the key the block is enciphered with, the verifier finds identifier and counter; the
initial value is no longer zero. -/
theorem sdmCandidate_piccData {octets : Mem} {metaKey : Option (List UInt8)}
    (hcounter : counter < 2 ^ 24) (hfit : SdmRangesFit c file)
    (hr : SdmRendered cipher c app file start counter padding octets)
    (hpicc : dfcFileSdmFlagIsSet file .piccDataOffset = true)
    (hpadding : padding.length = sdmRandomPaddingLength c file)
    (hshort : c.uidLen = 7 ∨ c.uidLen = 10 ∧ sdmFileOption file dfcSdmCounterMirrorMask = false)
    (hkey : metaKey = sdmKey c app 0) :
    ∃ zeroIv, sdmCandidate cipher (octets.read 0 file.dataLen) (sdmConfig c file) metaKey =
      .ok ({ uid := some (cardUid c)
             readCounter :=
              if sdmFileOption file dfcSdmCounterMirrorMask then some counter else none },
                zeroIv) := by
  obtain ⟨key, out, hzero, hcbc, hread⟩ := hr.piccData hpicc
  rw [← slice_read _ (hfit.piccData hpicc)] at hread
  have hdec := dfcCryptoAesCbc_decrypt hcbc (by decide)
  have hparse := parsePiccPlaintext_sdmPiccClear hcounter hpadding hshort
  have hsome : (sdmConfig c file).encryptedPiccData =
      some file.state.data.sdm.piccDataOffset.toNat := by simp [sdmConfig, hpicc]
  have hlength : (sdmConfig c file).encryptedPiccDataLength =
      sdmPiccClearLength c * dfcSdmHexExpansion := by simp [sdmConfig, hpicc]
  refine ⟨out.2, ?_⟩
  rw [sdmCandidate, hsome, hkey, hzero]
  simp only [hlength, hread, AsciiHex.decode_encode, bind_eq_ok, orFail_eq_ok, pure_eq_ok]
  exact ⟨key, rfl, _, rfl, _, hdec, _, hparse, rfl⟩

/-- The verifier accepts what the cache holds, under the keys the settings name, with the
identifier and the counter where they are mirrored and the source of the enciphered data. -/
def SdmVerifies (cipher : BlockCipher 16) (e : DfcEmulator) (cache : DfcSdmReadCache) (i : ℕ) :
    Prop :=
  let c := e.credential
  let file := c.files i
  let app := dfcEmulatorCurrentApp e
  ∃ fileKey, sdmKey c app (sdmFileRead file.state.data.sdm.accessRights) = some fileKey ∧
    ∀ capacity, (sdmConfig c file).encryptedFileDataLength / 2 ≤ capacity →
      ∃ result clear, dfcSdmVerifyAscii cipher (cache.octets.read 0 cache.length) (sdmConfig c file)
          (sdmKey c app (sdmMetaRead file.state.data.sdm.accessRights)) fileKey (some capacity) =
          .ok (result, clear) ∧
        (sdmFileOption file dfcSdmUidMirrorMask = true → result.uid = some (cardUid c)) ∧
        (sdmFileOption file dfcSdmCounterMirrorMask = true →
          dfcFileSdmFlagIsSet file .piccDataOffset = true ∨
            dfcFileSdmFlagIsSet file .counterOffset = true →
          result.readCounter = some file.state.data.sdmReadCounter.toNat) ∧
        (dfcFileSdmFlagIsSet file .encryptedFile = true → ∃ start, dfcFileData c file = some start ∧
          clear = sdmEncipheredSource c file start)

/-- Where card and back end agree: identifier and counter in clear, both if file data is
enciphered; neither of them, and no file data; or enciphered under a key equal to key zero with
the identifier, in one block unless it is the long identifier alone, and no file data. -/
def SdmConsistent (c : DfcCredential) (app : Option ℕ) (file : DfcFile) : Prop :=
  let metaRead := sdmMetaRead file.state.data.sdm.accessRights
  let encrypted := dfcFileSdmFlagIsSet file .encryptedFile
  (metaRead = dfcSdmFreeAccess ∧ (encrypted = true →
    dfcFileSdmFlagIsSet file .uidOffset = true ∧ dfcFileSdmFlagIsSet file .counterOffset = true)) ∨
  (metaRead = dfcSdmDeniedAccess ∧ sdmFileOption file dfcSdmCounterMirrorMask = false ∧
    encrypted = false) ∨
  (metaRead < dfcSdmFreeAccess ∧ sdmFileOption file dfcSdmUidMirrorMask = true ∧
    ¬(c.uidLen = 10 ∧ sdmFileOption file dfcSdmCounterMirrorMask = true) ∧ encrypted = false ∧
    sdmKey c app metaRead = sdmKey c app 0)

/-- Where they cannot agree, whatever the cipher: file data is enciphered and identifier or
counter is not mirrored, or the long identifier is enciphered with the counter, or file data is
enciphered beside a block that opens and holds no counter. -/
def SdmInconsistent (c : DfcCredential) (app : Option ℕ) (file : DfcFile) : Prop :=
  (dfcFileSdmFlagIsSet file .encryptedFile = true ∧
    dfcFileSdmFlagIsSet file .piccDataOffset = false ∧
    ¬(dfcFileSdmFlagIsSet file .uidOffset = true ∧
      dfcFileSdmFlagIsSet file .counterOffset = true)) ∨
  (dfcFileSdmFlagIsSet file .piccDataOffset = true ∧ c.uidLen = 10 ∧
    sdmFileOption file dfcSdmCounterMirrorMask = true) ∨
  (dfcFileSdmFlagIsSet file .encryptedFile = true ∧
    dfcFileSdmFlagIsSet file .piccDataOffset = true ∧
    sdmFileOption file dfcSdmCounterMirrorMask = false ∧
    sdmKey c app (sdmMetaRead file.state.data.sdm.accessRights) = sdmKey c app 0)

/-- What a rendering that is not answered from the cache leaves. -/
structure SdmFresh (cipher : BlockCipher 16) (e : DfcEmulator) (cache : DfcSdmReadCache) (i : ℕ)
    (start : ℕ) (padding : List UInt8) (octets : Mem) : Prop where
  data : dfcFileData e.credential (e.credential.files i) = some start
  ranges : sdmRangesAreValid e.credential (e.credential.files i) = true
  randomPadding : dfcFileSdmFlagIsSet (e.credential.files i) .piccDataOffset = true →
    padding.length = sdmRandomPaddingLength e.credential (e.credential.files i)
  counter : (e.credential.files i).state.data.sdmReadCounter.toNat < 2 ^ 24
  length : cache.length = (e.credential.files i).dataLen
  mirrors : renderSdmMirrors cipher e.credential (dfcEmulatorCurrentApp e) (e.credential.files i)
    start (e.credential.files i).state.data.sdmReadCounter.toNat padding octets =
      some cache.octets

end

/-- A rendering changes nothing on the card but the counter. -/
theorem renderSdmReadInPlace_emulator {cipher : BlockCipher 16} {random : Option Mem}
    {e e' : DfcEmulator} {cache cache' : DfcSdmReadCache} {i : ℕ} {family : DfcSdmReadFamily}
    (h : renderSdmReadInPlace cipher random e cache i family = .ok (e', cache'))
    (hmiss : sdmReadCacheMatches cache (e.credential.files i) family = false) :
    e' = e.mapCredential fun c => c.modifyFile i fun file => file.withData { file.state.data with
      sdmReadCounter := (e.credential.files i).state.data.sdmReadCounter + 1 } := by
  simp only [renderSdmReadInPlace, hmiss, Bool.false_eq_true, if_false, bind_eq_ok, refuseIf_eq_ok,
    orFail_eq_ok, pure_eq_ok, exists_and_left, exists_const] at h
  obtain ⟨-, -, -, start, -, padding, -, -, octets, -, heq⟩ := h
  exact (Prod.mk.inj heq).1.symm

theorem renderSdmReadInPlace_fresh {cipher : BlockCipher 16} {random : Option Mem}
    {e e' : DfcEmulator} {cache cache' : DfcSdmReadCache} {i : ℕ} {family : DfcSdmReadFamily}
    (h : renderSdmReadInPlace cipher random e cache i family = .ok (e', cache'))
    (hmiss : sdmReadCacheMatches cache (e.credential.files i) family = false) :
    ∃ start padding octets, SdmFresh cipher e' cache' i start padding octets := by
  simp only [renderSdmReadInPlace, hmiss, Bool.false_eq_true, if_false, bind_eq_ok, refuseIf_eq_ok,
    orFail_eq_ok, pure_eq_ok, exists_and_left, exists_const] at h
  obtain ⟨hlimit, -, hranges, start, hdata, padding, hpadding, -, octets, hmirrors, heq⟩ := h
  obtain ⟨rfl, rfl⟩ := Prod.mk.injEq .. ▸ heq
  set file := e.credential.files i
  set counter := file.state.data.sdmReadCounter + 1 with hcounter
  set rendered := file.withData { file.state.data with sdmReadCounter := counter }
  set e' := e.mapCredential fun c => c.modifyFile i fun file =>
    file.withData { file.state.data with sdmReadCounter := counter }
  have hfile : e'.credential.files i = rendered := by
    simp [e', DfcEmulator.mapCredential, DfcCredential.modifyFile, rendered, file]
  have hbound : counter.toNat < 2 ^ 24 := by
    have hlt : file.state.data.sdmReadCounter.toNat < 0xFFFFFF :=
      Nat.not_le.mp fun hle => hlimit (UInt32.le_iff_toNat_le.mpr hle)
    rw [hcounter, UInt32.toNat_add]
    simp only [UInt32.toNat_one]
    omega
  refine ⟨start, padding, cache.octets, ?_, ?_, ?_, ?_, ?_, ?_⟩
  · rw [hfile]
    exact hdata
  · rw [hfile]
    exact (Bool.not_eq_false _).mp hranges
  · rw [hfile]
    intro hpicc
    have hset : dfcFileSdmFlagIsSet file .piccDataOffset = true := hpicc
    simp only [sdmPadding, hset, if_true, orFail_eq_ok, Option.map_eq_some_iff] at hpadding
    obtain ⟨m, -, rfl⟩ := hpadding
    exact Mem.length_read _ _ _
  · rw [hfile]
    exact hbound
  · rw [hfile]
    rfl
  · rw [hfile]
    exact hmirrors

/-- The cache, where it answers, was filled by a rendering of the file. -/
def SdmCacheFilled (cipher : BlockCipher 16) (e : DfcEmulator) (cache : DfcSdmReadCache) (i : ℕ)
    (family : DfcSdmReadFamily) : Prop :=
  sdmReadCacheMatches cache (e.credential.files i) family = true →
    ∃ random e₀ cache₀, sdmReadCacheMatches cache₀ (e₀.credential.files i) family = false ∧
      renderSdmReadInPlace cipher random e₀ cache₀ i family = .ok (e, cache)

theorem sdmFresh_of_render {cipher : BlockCipher 16} {random : Option Mem}
    {e e' : DfcEmulator} {cache cache' : DfcSdmReadCache} {i : ℕ} {family : DfcSdmReadFamily}
    (h : renderSdmReadInPlace cipher random e cache i family = .ok (e', cache'))
    (hcache : SdmCacheFilled cipher e cache i family) :
    ∃ start padding octets, SdmFresh cipher e' cache' i start padding octets := by
  cases hmatch : sdmReadCacheMatches cache (e.credential.files i) family with
  | false => exact renderSdmReadInPlace_fresh h hmatch
  | true =>
    obtain ⟨random₀, e₀, cache₀, hmiss, hrender⟩ := hcache hmatch
    simp only [renderSdmReadInPlace, hmatch, if_true, Except.ok.injEq, Prod.mk.injEq] at h
    obtain ⟨rfl, rfl⟩ := h
    exact renderSdmReadInPlace_fresh hrender hmiss

/-- What holds of a rendered file in use. -/
structure SdmInUse (e : DfcEmulator) (i : ℕ) : Prop where
  uidLen : e.credential.uidLen = 7 ∨ e.credential.uidLen = 10
  noRandomId : e.credential.piccRandomId = false
  accepted : SdmSettingsAccepted (e.credential.files i).state.data.sdm
  enabled : dfcFileSdmFlagIsSet (e.credential.files i) .enabled = true
  layout : SdmLayout e.credential (e.credential.files i)

section
variable {cipher : BlockCipher 16} {e : DfcEmulator} {cache : DfcSdmReadCache} {i start : ℕ}
  {padding : List UInt8} {octets : Mem}

theorem SdmInUse.type_eq (h : SdmInUse e i) :
    (e.credential.files i).type = dfcFileTypeStandardData := by
  have henabled := h.enabled
  simp only [dfcFileSdmFlagIsSet, Bool.and_eq_true, beq_iff_eq] at henabled
  exact henabled.1

theorem SdmInUse.flag_eq (h : SdmInUse e i) (flag : DfcSdmFlag) :
    dfcFileSdmFlagIsSet (e.credential.files i) flag =
      dfcSdmFlagIsSet (e.credential.files i).state.data.sdm flag := by
  rw [dfcFileSdmFlagIsSet, h.type_eq]
  simp

theorem SdmInUse.stored (h : SdmInUse e i) : SdmStored (e.credential.files i).state.data.sdm :=
  h.accepted.stored (by rw [← h.flag_eq, h.enabled])

theorem SdmFresh.rendered (h : SdmFresh cipher e cache i start padding octets)
    (huse : SdmInUse e i) :
    SdmRendered cipher e.credential (dfcEmulatorCurrentApp e) (e.credential.files i) start
      (e.credential.files i).state.data.sdmReadCounter.toNat padding cache.octets :=
  have hfit := sdmRangesFit_of_valid h.ranges
  renderSdmMirrors_spec huse.uidLen huse.layout (hfit.mac huse.layout.hasMac).1
    (fun hflag => (hfit.fileData hflag).2.1) h.randomPadding h.mirrors

theorem SdmFresh.fileKey (h : SdmFresh cipher e cache i start padding octets)
    (huse : SdmInUse e i) :
    ∃ key, sdmFileReadKey e.credential (dfcEmulatorCurrentApp e) (e.credential.files i) = some key ∧
      sdmKey e.credential (dfcEmulatorCurrentApp e)
        (sdmFileRead (e.credential.files i).state.data.sdm.accessRights) = some key := by
  have hmirrors := h.mirrors
  simp only [renderSdmMirrors, Option.bind_eq_bind, Option.bind_eq_some_iff] at hmirrors
  obtain ⟨key, hkey, -⟩ := hmirrors
  refine ⟨key, hkey, ?_⟩
  rwa [sdmFileReadKey, huse.layout.hasMac, Bool.or_true, if_pos rfl] at hkey

/-- A candidate that agrees with the card is all the verifier needs, unless file data has to be
deciphered from another initial value. -/
theorem SdmFresh.verifies (h : SdmFresh cipher e cache i start padding octets) (huse : SdmInUse e i)
    {candidate : DfcSdmVerifyResult} {zeroIv : List UInt8}
    (hcandidate : sdmCandidate cipher (cache.octets.read 0 (e.credential.files i).dataLen)
      (sdmConfig e.credential (e.credential.files i))
      (sdmKey e.credential (dfcEmulatorCurrentApp e)
        (sdmMetaRead (e.credential.files i).state.data.sdm.accessRights)) = .ok (candidate, zeroIv))
    (hagrees : SdmAgrees e.credential (e.credential.files i)
      (e.credential.files i).state.data.sdmReadCounter.toNat candidate)
    (hcounter : sdmFileOption (e.credential.files i) dfcSdmCounterMirrorMask = true →
      dfcFileSdmFlagIsSet (e.credential.files i) .piccDataOffset = true ∨
        dfcFileSdmFlagIsSet (e.credential.files i) .counterOffset = true →
      sdmIncludesCounter (e.credential.files i) = true)
    (hfile : dfcFileSdmFlagIsSet (e.credential.files i) .encryptedFile = true →
      sdmIncludesUid (e.credential.files i) = true ∧
        sdmIncludesCounter (e.credential.files i) = true ∧ zeroIv = zeroBlock) :
    SdmVerifies cipher e cache i := by
  obtain ⟨key, hread, hkey⟩ := h.fileKey huse
  refine ⟨key, hkey, fun capacity hroom => ?_⟩
  have hopen : dfcFileSdmFlagIsSet (e.credential.files i) .encryptedFile = true →
      sdmIncludesUid (e.credential.files i) = true ∧
        sdmIncludesCounter (e.credential.files i) = true ∧ zeroIv = zeroBlock ∧
        ∃ available, some capacity = some available ∧
          (e.credential.files i).state.data.sdm.encryptedFileLength.toNat / 2 ≤ available := by
    intro hflag
    obtain ⟨huid, hctr, hiv⟩ := hfile hflag
    refine ⟨huid, hctr, hiv, capacity, rfl, ?_⟩
    simpa [sdmConfig, hflag] using hroom
  obtain ⟨clear, hverify, hclear⟩ := verify_of_candidate huse.uidLen huse.layout
    (sdmRangesFit_of_valid h.ranges) huse.stored hread (h.rendered huse) hcandidate hagrees hopen
  rw [h.length]
  refine ⟨_, clear, hverify, ?_, ?_, fun hflag => ⟨start, h.data, hclear hflag⟩⟩
  · intro huid
    exact hagrees.uid.trans (if_pos huid)
  · intro hopt hmirrored
    exact hagrees.readCounter.trans (if_pos (hcounter hopt hmirrored))

theorem SdmInUse.uidFlag (h : SdmInUse e i) :
    dfcFileSdmFlagIsSet (e.credential.files i) .uidOffset =
      (sdmMetaRead (e.credential.files i).state.data.sdm.accessRights == dfcSdmFreeAccess &&
        sdmFileOption (e.credential.files i) dfcSdmUidMirrorMask) :=
  (h.flag_eq _).trans (h.stored.flag .uidOffset _ rfl (by decide))

theorem SdmInUse.piccFlag (h : SdmInUse e i) :
    dfcFileSdmFlagIsSet (e.credential.files i) .piccDataOffset =
      decide (sdmMetaRead (e.credential.files i).state.data.sdm.accessRights < dfcSdmFreeAccess) :=
  (h.flag_eq _).trans (h.stored.flag .piccDataOffset _ rfl (by decide))

theorem SdmInUse.counterFlag (h : SdmInUse e i)
    (hset : dfcFileSdmFlagIsSet (e.credential.files i) .counterOffset = true) :
    sdmMetaRead (e.credential.files i).state.data.sdm.accessRights = dfcSdmFreeAccess ∧
      sdmFileOption (e.credential.files i) dfcSdmCounterMirrorMask = true := by
  have hpresent := h.stored.counter ((h.flag_eq _).symm.trans hset)
  simpa [sdmFieldPresent, sdmFileOption] using hpresent

/-- In clear the flags are the options, but for a hidden counter. -/
theorem SdmFresh.verifies_clear (h : SdmFresh cipher e cache i start padding octets)
    (huse : SdmInUse e i)
    (hfree : sdmMetaRead (e.credential.files i).state.data.sdm.accessRights = dfcSdmFreeAccess)
    (hboth : dfcFileSdmFlagIsSet (e.credential.files i) .encryptedFile = true →
      dfcFileSdmFlagIsSet (e.credential.files i) .uidOffset = true ∧
        dfcFileSdmFlagIsSet (e.credential.files i) .counterOffset = true) :
    SdmVerifies cipher e cache i := by
  have hpicc : dfcFileSdmFlagIsSet (e.credential.files i) .piccDataOffset = false := by
    rw [huse.piccFlag, hfree]
    decide
  have huid : sdmIncludesUid (e.credential.files i) =
      dfcFileSdmFlagIsSet (e.credential.files i) .uidOffset := by
    rw [huse.uidFlag, hfree]
    rfl
  have hctr : sdmIncludesCounter (e.credential.files i) =
      dfcFileSdmFlagIsSet (e.credential.files i) .counterOffset := by
    rw [sdmIncludesCounter, hfree]
    cases hflag : dfcFileSdmFlagIsSet (e.credential.files i) .counterOffset with
    | false => simp
    | true => simpa using (huse.counterFlag hflag).2
  refine h.verifies huse (sdmCandidate_plain huse.noRandomId h.counter
    (sdmRangesFit_of_valid h.ranges) (h.rendered huse) hpicc) ⟨by rw [huid], by rw [hctr]⟩ ?_ ?_
  · rintro - (hset | hset)
    · rw [hpicc] at hset
      exact absurd hset (by decide)
    · rw [hctr, hset]
  · intro hflag
    rw [huid, hctr]
    exact ⟨(hboth hflag).1, (hboth hflag).2, rfl⟩

/-- Where the mirrors are denied the candidate holds neither identifier nor counter. -/
theorem SdmFresh.verifies_denied (h : SdmFresh cipher e cache i start padding octets)
    (huse : SdmInUse e i)
    (hdenied : sdmMetaRead (e.credential.files i).state.data.sdm.accessRights = dfcSdmDeniedAccess)
    (hnoCounter : sdmFileOption (e.credential.files i) dfcSdmCounterMirrorMask = false)
    (hnoFile : dfcFileSdmFlagIsSet (e.credential.files i) .encryptedFile = false) :
    SdmVerifies cipher e cache i := by
  have hpicc : dfcFileSdmFlagIsSet (e.credential.files i) .piccDataOffset = false := by
    rw [huse.piccFlag, hdenied]
    decide
  have hnotFree : sdmMetaRead (e.credential.files i).state.data.sdm.accessRights ≠
      dfcSdmFreeAccess := by
    rw [hdenied]
    decide
  have hnoUidFlag : dfcFileSdmFlagIsSet (e.credential.files i) .uidOffset = false := by
    rw [huse.uidFlag]
    simp [hnotFree]
  have hnoCounterFlag : dfcFileSdmFlagIsSet (e.credential.files i) .counterOffset = false := by
    rw [← Bool.not_eq_true]
    exact fun hset => hnotFree (huse.counterFlag hset).1
  have hnoUid : sdmIncludesUid (e.credential.files i) = false := by
    rw [← Bool.not_eq_true]
    exact fun hset => huse.stored.uidMirror hset hdenied
  have hnoCtr : sdmIncludesCounter (e.credential.files i) = false := by
    rw [sdmIncludesCounter, hnoCounter, Bool.false_and]
  refine h.verifies huse (sdmCandidate_plain huse.noRandomId h.counter
    (sdmRangesFit_of_valid h.ranges) (h.rendered huse) hpicc)
    ⟨by rw [hnoUid, hnoUidFlag], by rw [hnoCtr, hnoCounterFlag]⟩ ?_ ?_
  · intro hopt
    rw [hnoCounter] at hopt
    exact absurd hopt (by decide)
  · intro hflag
    rw [hnoFile] at hflag
    exact absurd hflag (by decide)

/-- One enciphered block opens under key zero and holds the identifier. -/
theorem SdmFresh.verifies_enciphered (h : SdmFresh cipher e cache i start padding octets)
    (huse : SdmInUse e i)
    (hkeyed : sdmMetaRead (e.credential.files i).state.data.sdm.accessRights < dfcSdmFreeAccess)
    (huidMirror : sdmFileOption (e.credential.files i) dfcSdmUidMirrorMask = true)
    (hlong : ¬(e.credential.uidLen = 10 ∧
      sdmFileOption (e.credential.files i) dfcSdmCounterMirrorMask = true))
    (hnoFile : dfcFileSdmFlagIsSet (e.credential.files i) .encryptedFile = false)
    (hsame : sdmKey e.credential (dfcEmulatorCurrentApp e)
        (sdmMetaRead (e.credential.files i).state.data.sdm.accessRights) =
      sdmKey e.credential (dfcEmulatorCurrentApp e) 0) :
    SdmVerifies cipher e cache i := by
  have hpicc : dfcFileSdmFlagIsSet (e.credential.files i) .piccDataOffset = true := by
    rw [huse.piccFlag]
    exact decide_eq_true hkeyed
  have hnotFree : (sdmMetaRead (e.credential.files i).state.data.sdm.accessRights !=
      dfcSdmFreeAccess) = true := bne_iff_ne.mpr hkeyed.ne
  have hctr : sdmIncludesCounter (e.credential.files i) =
      sdmFileOption (e.credential.files i) dfcSdmCounterMirrorMask := by
    rw [sdmIncludesCounter, hnotFree, Bool.true_or, Bool.and_true]
  have hshort : e.credential.uidLen = 7 ∨ e.credential.uidLen = 10 ∧
      sdmFileOption (e.credential.files i) dfcSdmCounterMirrorMask = false := by
    refine huse.uidLen.imp id fun h10 => ⟨h10, ?_⟩
    rw [← Bool.not_eq_true]
    exact fun hset => hlong ⟨h10, hset⟩
  obtain ⟨zeroIv, hcandidate⟩ := sdmCandidate_piccData h.counter (sdmRangesFit_of_valid h.ranges)
    (h.rendered huse) hpicc (h.randomPadding hpicc) hshort hsame
  refine h.verifies huse hcandidate ⟨?_, by rw [hctr]⟩ ?_ ?_
  · rw [sdmIncludesUid, huidMirror, if_pos rfl]
  · intro hopt _
    rw [hctr, hopt]
  · intro hflag
    rw [hnoFile] at hflag
    exact absurd hflag (by decide)

theorem SdmFresh.consistent (h : SdmFresh cipher e cache i start padding octets)
    (huse : SdmInUse e i)
    (hconsistent : SdmConsistent e.credential (dfcEmulatorCurrentApp e) (e.credential.files i)) :
    SdmVerifies cipher e cache i := by
  rcases hconsistent with ⟨hfree, hboth⟩ | ⟨hdenied, hnoCounter, hnoFile⟩ |
    ⟨hkeyed, huidMirror, hlong, hnoFile, hsame⟩
  · exact h.verifies_clear huse hfree hboth
  · exact h.verifies_denied huse hdenied hnoCounter hnoFile
  · exact h.verifies_enciphered huse hkeyed huidMirror hlong hnoFile hsame

/-- A block of two cipher blocks is the one without a counter. -/
theorem parsePiccPlaintext_double {clear : List UInt8} {result : DfcSdmVerifyResult}
    (h : parsePiccPlaintext clear = some result) (hlen : clear.length = 32) :
    result.readCounter = none := by
  cases hcounter : clear.headD 0 &&& 0x40 != 0 with
  | true =>
    simp only [parsePiccPlaintext, hcounter, hlen, Bool.true_eq_false, and_false, if_false] at h
    split_ifs at h with hbad hshape
    all_goals simp at hshape
  | false =>
    simp only [parsePiccPlaintext, hcounter, Bool.false_eq_true, if_false] at h
    split_ifs at h
    all_goals
      obtain rfl := Option.some.inj h
      rfl

theorem SdmFresh.inconsistent (h : SdmFresh cipher e cache i start padding octets)
    (huse : SdmInUse e i)
    (hbad : SdmInconsistent e.credential (dfcEmulatorCurrentApp e) (e.credential.files i)) :
    ¬SdmVerifies cipher e cache i := by
  rintro ⟨key, -, hverifies⟩
  obtain ⟨result, clear, hverify, -, hcounter, -⟩ := hverifies _ (Nat.le_refl _)
  have hfit := sdmRangesFit_of_valid h.ranges
  have hr := h.rendered huse
  simp only [dfcSdmVerifyAscii, bind_eq_ok, orFail_eq_ok, refuseIf_eq_ok, pure_eq_ok, h.length,
    exists_and_left, exists_const, Prod.exists, Prod.mk.injEq] at hverify
  obtain ⟨-, -, candidate, zeroIv, hcandidate, -, -, -, -, -, _, hdecrypt, rfl, rfl⟩ := hverify
  rcases hbad with ⟨hflag, hpicc, hnot⟩ | ⟨hpicc, h10, hopt⟩ | ⟨hflag, hpicc, hopt, hsame⟩
  · rw [sdmCandidate_plain huse.noRandomId h.counter hfit hr hpicc] at hcandidate
    simp only [Except.ok.injEq, Prod.mk.injEq] at hcandidate
    obtain ⟨rfl, rfl⟩ := hcandidate
    simp only [sdmDecryptFileData, sdmConfig, hflag, if_true, bind_eq_ok, orFail_eq_ok] at hdecrypt
    obtain ⟨uid, huid, readCounter, hctr, -⟩ := hdecrypt
    refine hnot ⟨?_, ?_⟩
    · by_contra hset
      simp [hset] at huid
    · by_contra hset
      simp [hset] at hctr
  · obtain ⟨metaKey, out, -, hcbc, hread⟩ := hr.piccData hpicc
    rw [← slice_read _ (hfit.piccData hpicc)] at hread
    have hlen : out.1.length = 32 := by
      rw [(length_dfcCryptoAesCbc hcbc (by decide)).1,
        length_sdmPiccClear huse.uidLen (h.randomPadding hpicc), sdmPiccClearLength, h10]
      rfl
    have hsome : (sdmConfig e.credential (e.credential.files i)).encryptedPiccData =
        some (e.credential.files i).state.data.sdm.piccDataOffset.toNat := by
      simp [sdmConfig, hpicc]
    have hlength : (sdmConfig e.credential (e.credential.files i)).encryptedPiccDataLength =
        sdmPiccClearLength e.credential * dfcSdmHexExpansion := by simp [sdmConfig, hpicc]
    rw [sdmCandidate, hsome] at hcandidate
    simp only [hlength, hread, AsciiHex.decode_encode, bind_eq_ok, orFail_eq_ok, pure_eq_ok,
      Prod.exists, Prod.mk.injEq] at hcandidate
    obtain ⟨key', -, encrypted, hencrypted, plain, iv, hdec, parsed, hparse, rfl, rfl⟩ := hcandidate
    obtain rfl := Option.some.inj hencrypted
    have hplain : plain.length = 32 := by
      simp only [dfcCryptoAesCbc, Bool.false_eq_true, if_false] at hdec
      split_ifs at hdec with hshape
      have hiv : zeroBlock.length = 16 := by decide
      have hblocks : out.1.length = out.1.length / 16 * 16 := by omega
      have hback := Cbc.length_backward (cipher.length_decrypt key') (out.1.length / 16) hiv hblocks
      rw [Option.some.inj hdec, hlen] at hback
      exact hback
    have hnone := parsePiccPlaintext_double hparse hplain
    have hsome := hcounter hopt (Or.inl hpicc)
    simp [hnone] at hsome
  · have hshort : e.credential.uidLen = 7 ∨ e.credential.uidLen = 10 ∧
        sdmFileOption (e.credential.files i) dfcSdmCounterMirrorMask = false :=
      huse.uidLen.imp id fun h10 => ⟨h10, hopt⟩
    obtain ⟨_, hopened⟩ := sdmCandidate_piccData h.counter hfit hr hpicc
      (h.randomPadding hpicc) hshort hsame
    rw [hopened] at hcandidate
    simp only [Except.ok.injEq, Prod.mk.injEq] at hcandidate
    obtain ⟨rfl, rfl⟩ := hcandidate
    simp only [sdmDecryptFileData, sdmConfig, hflag, if_true, bind_eq_ok, orFail_eq_ok]
      at hdecrypt
    obtain ⟨_, -, readCounter, hctr, -⟩ := hdecrypt
    simp [hopt] at hctr

end

/-- Everything the conditions of agreement look at is the same before and after a rendering. -/
theorem renderSdm_conditions {cipher : BlockCipher 16} {random : Option Mem} {e e' : DfcEmulator}
    {cache cache' : DfcSdmReadCache} {i : ℕ} {family : DfcSdmReadFamily}
    (h : renderSdmReadInPlace cipher random e cache i family = .ok (e', cache')) :
    (SdmInUse e i → SdmInUse e' i) ∧
      (SdmConsistent e.credential (dfcEmulatorCurrentApp e) (e.credential.files i) →
        SdmConsistent e'.credential (dfcEmulatorCurrentApp e') (e'.credential.files i)) ∧
      (SdmInconsistent e.credential (dfcEmulatorCurrentApp e) (e.credential.files i) →
        SdmInconsistent e'.credential (dfcEmulatorCurrentApp e') (e'.credential.files i)) := by
  cases hmatch : sdmReadCacheMatches cache (e.credential.files i) family with
  | true =>
    simp only [renderSdmReadInPlace, hmatch, if_true, Except.ok.injEq, Prod.mk.injEq] at h
    obtain ⟨rfl, rfl⟩ := h
    exact ⟨id, id, id⟩
  | false =>
    have hstate := renderSdmReadInPlace_emulator h hmatch
    have hfile : e'.credential.files i = (e.credential.files i).withData
        { (e.credential.files i).state.data with
          sdmReadCounter := (e.credential.files i).state.data.sdmReadCounter + 1 } := by
      rw [hstate]
      simp [DfcEmulator.mapCredential, DfcCredential.modifyFile]
    refine ⟨fun huse => ?_, fun hconsistent => ?_, fun hbad => ?_⟩
    · refine ⟨?_, ?_, ?_, ?_, ?_⟩
      · rw [hstate]
        exact huse.uidLen
      · rw [hstate]
        exact huse.noRandomId
      · rw [hfile]
        exact huse.accepted
      · rw [hfile]
        exact huse.enabled
      · rw [hfile, hstate]
        exact ⟨huse.layout.disjoint, huse.layout.hasMac, huse.layout.inside⟩
    · rw [hfile, hstate]
      exact hconsistent
    · rw [hfile, hstate]
      exact hbad

/-- What the card mirrors, the back end verifies where the two are consistent, and not where they
are inconsistent. -/
theorem renderSdm_verifies {cipher : BlockCipher 16} {random : Option Mem} {e e' : DfcEmulator}
    {cache cache' : DfcSdmReadCache} {i : ℕ} {family : DfcSdmReadFamily}
    (h : renderSdmReadInPlace cipher random e cache i family = .ok (e', cache'))
    (hcache : SdmCacheFilled cipher e cache i family) (huse : SdmInUse e i) :
    (SdmConsistent e.credential (dfcEmulatorCurrentApp e) (e.credential.files i) →
      SdmVerifies cipher e' cache' i) ∧
    (SdmInconsistent e.credential (dfcEmulatorCurrentApp e) (e.credential.files i) →
      ¬SdmVerifies cipher e' cache' i) := by
  obtain ⟨start, padding, octets, hfresh⟩ := sdmFresh_of_render h hcache
  obtain ⟨huse', hconsistent, hbad⟩ := renderSdm_conditions h
  exact ⟨fun hc => hfresh.consistent (huse' huse) (hconsistent hc),
    fun hb => hfresh.inconsistent (huse' huse) (hbad hb)⟩

/-- A standard data file of zeros with free access. -/
def sdmFileBefore (length : ℕ) : DfcFile :=
  { dataLen := length, accessRights := 0xEEEE, contentsComplete := true
    state := { data := { declaredSize := length } } }

/-- A card of one application with one AES key, whose file has the settings of a body. -/
def sdmCard (uidLen length : ℕ) (body : List UInt8) : DfcEmulator :=
  let app : DfcApplication :=
    { keyOffset := 0, keyPoolLen := 16, numKeys := 1, keyLen := 16, keyStorageLen := 16
      keySettings2 := 0x81, aid := fun _ => 1 }
  { credential :=
      { uidLen := uidLen
        uid := fun i => UInt8.ofNat (4 + i)
        numApps := 1
        numFiles := 1
        filePoolUsed := length
        keyPoolUsed := 16
        piccKeyOffset := dfcKeyPoolNone
        card := { generation := 3 }
        apps := fun _ => app
        files := fun _ =>
          ((applyChangeFileSettings 1 (sdmFileBefore length) body).toOption.getD {}) }
    selectedApplication := .app }

/-- Identifier and counter in clear, and thirty-two digits of enciphered file data. -/
def sdmPlainBody : List UInt8 :=
  [0x40, 0xEE, 0xEE, 0xD1, 0xFF, 0xE0, 0, 0, 0, 14, 0, 0, 20, 0, 0, 20, 0, 0, 32, 0, 0, 52, 0, 0]

/-- Identifier and counter enciphered under key zero, in sixty-four digits. -/
def sdmEncipheredBody : List UInt8 :=
  [0x40, 0xEE, 0xEE, 0xC1, 0xFF, 0x00, 0, 0, 0, 64, 0, 0, 64, 0, 0]

theorem eq_ok_of_isSome {ε α : Type} {x : Except ε α} (h : x.toOption.isSome = true) :
    ∃ a, x = .ok a := by
  cases x with
  | error err => simp [Except.toOption] at h
  | ok a => exact ⟨a, rfl⟩

/-- The file of such a card has settings that ChangeFileSettings accepts. -/
theorem sdmCard_accepted {uidLen length : ℕ} {body : List UInt8}
    (h : (applyChangeFileSettings 1 (sdmFileBefore length) body).toOption.isSome = true)
    (htype : ((sdmCard uidLen length body).credential.files 0).type = dfcFileTypeStandardData) :
    SdmSettingsAccepted ((sdmCard uidLen length body).credential.files 0).state.data.sdm := by
  obtain ⟨after, happly⟩ := eq_ok_of_isSome h
  have hfile : (sdmCard uidLen length body).credential.files 0 = after := by
    simp [sdmCard, happly, Except.toOption]
  rw [hfile] at htype ⊢
  exact ⟨1, sdmFileBefore length, body, after, happly, htype, rfl⟩

theorem renderSdm_verifies_plain : ∃ e' cache', renderSdmReadInPlace Aes.aesCipher none
    (sdmCard 7 68 sdmPlainBody) {} 0 .native = .ok (e', cache') ∧
      SdmVerifies Aes.aesCipher e' cache' 0 := by
  obtain ⟨⟨e', cache'⟩, hrender⟩ := eq_ok_of_isSome
    (x := renderSdmReadInPlace Aes.aesCipher none (sdmCard 7 68 sdmPlainBody) {} 0 .native)
    (by decide +kernel)
  have huse : SdmInUse (sdmCard 7 68 sdmPlainBody) 0 :=
    ⟨Or.inl rfl, rfl, sdmCard_accepted (by decide +kernel) (by decide +kernel), by decide +kernel,
      by decide +kernel, by decide +kernel, by decide +kernel⟩
  refine ⟨e', cache', hrender,
    (renderSdm_verifies hrender (fun hmatch => absurd hmatch (by decide)) huse).1 (Or.inl ?_)⟩
  exact ⟨by decide +kernel, by decide +kernel⟩

/-- The long identifier with the counter: the card writes two blocks where the back end expects
one. -/
theorem not_renderSdm_verifies_longUid : ∃ e' cache', renderSdmReadInPlace Aes.aesCipher
    (some Mem.zero) (sdmCard 10 80 sdmEncipheredBody) {} 0 .native = .ok (e', cache') ∧
      dfcCredentialValidateModel (sdmCard 10 80 sdmEncipheredBody).credential = .ok ∧
      SdmInUse (sdmCard 10 80 sdmEncipheredBody) 0 ∧ ¬SdmVerifies Aes.aesCipher e' cache' 0 := by
  obtain ⟨⟨e', cache'⟩, hrender⟩ := eq_ok_of_isSome
    (x := renderSdmReadInPlace Aes.aesCipher (some Mem.zero) (sdmCard 10 80 sdmEncipheredBody) {} 0
      .native) (by decide +kernel)
  obtain ⟨start, padding, octets, hfresh⟩ := renderSdmReadInPlace_fresh hrender (by decide)
  obtain ⟨huse', -, hbad⟩ := renderSdm_conditions hrender
  have huse : SdmInUse (sdmCard 10 80 sdmEncipheredBody) 0 :=
    ⟨Or.inr rfl, rfl, sdmCard_accepted (by decide +kernel) (by decide +kernel), by decide +kernel,
      by decide +kernel, by decide +kernel, by decide +kernel⟩
  exact ⟨e', cache', hrender, by decide +kernel, huse,
    hfresh.inconsistent (huse' huse)
      (hbad (Or.inr (Or.inl ⟨by decide +kernel, rfl, by decide +kernel⟩)))⟩

end DfcCore
