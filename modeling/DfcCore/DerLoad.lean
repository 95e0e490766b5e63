import DfcCore.DerDecode

/-!
# What the decoder accepts

For every group of components, the images the decoder accepts and what it makes of the
octets of such an image. Each result is an equivalence: a decode succeeds on exactly the
encodings of the images that are loadable.
-/
namespace DfcCore
open Der

theorem toNat_join (a b : UInt8) :
    (a.toUInt16 <<< (8 : UInt16) ||| b.toUInt16).toNat = a.toNat * 256 + b.toNat := by
  have ha := a.toNat_lt
  have hb := b.toNat_lt
  have hor := Nat.shiftLeft_add_eq_or_of_lt (i := 8) (b := b.toNat) (by omega) a.toNat
  rw [UInt16.toNat_or, UInt16.toNat_shiftLeft, UInt8.toNat_toUInt16, UInt8.toNat_toUInt16]
  have h8 : (8 : UInt16).toNat % 16 = 8 := by decide
  rw [h8, Nat.mod_eq_of_lt (by rw [Nat.shiftLeft_eq]; omega), ← hor, Nat.shiftLeft_eq]

theorem u16Octets_join (a b : UInt8) :
    u16Octets (a.toUInt16 <<< (8 : UInt16) ||| b.toUInt16) = [a, b] := by
  have hj := toNat_join a b
  have ha := a.toNat_lt
  have hb := b.toNat_lt
  rw [u16Octets]
  congr 1
  · apply UInt8.toNat_inj.mp
    rw [UInt16.toNat_toUInt8, UInt16.toNat_shiftRight, hj, Nat.shiftRight_eq_div_pow]
    have h8 : (8 : UInt16).toNat % 16 = 8 := by decide
    rw [h8]
    omega
  · congr 1
    apply UInt8.toNat_inj.mp
    rw [UInt16.toNat_toUInt8, hj]
    omega

theorem join_u16Octets (v : UInt16) :
    ((u16Octets v).getD 0 0).toUInt16 <<< (8 : UInt16) |||
      ((u16Octets v).getD 1 0).toUInt16 = v := by
  apply UInt16.toNat_inj.mp
  have hv := v.toNat_lt
  have h8 : (8 : UInt16).toNat % 16 = 8 := by decide
  simp only [u16Octets, List.getD_cons_zero, List.getD_cons_succ]
  rw [toNat_join, UInt16.toNat_toUInt8, UInt16.toNat_toUInt8, UInt16.toNat_shiftRight, h8,
    Nat.shiftRight_eq_div_pow]
  omega

theorem rOctet_eq_some {field : Option Slice} {b : UInt8} :
    rOctet field = some b ↔ field = some [b] := by
  simp only [rOctet, Option.map_eq_some_iff, rOctets_eq_some]
  constructor
  · rintro ⟨raw, ⟨rfl, hl⟩, rfl⟩
    obtain ⟨x, rfl⟩ := List.length_eq_one_iff.mp hl
    rfl
  · rintro rfl
    exact ⟨[b], ⟨rfl, rfl⟩, rfl⟩

theorem rU16_eq_some {field : Option Slice} {v : UInt16} :
    rU16 field = some v ↔ field = some (u16Octets v) := by
  simp only [rU16, Option.map_eq_some_iff, rOctets_eq_some]
  constructor
  · rintro ⟨raw, ⟨rfl, hl⟩, rfl⟩
    obtain ⟨x, y, rfl⟩ := List.length_eq_two.mp hl
    exact congrArg some (u16Octets_join x y).symm
  · rintro rfl
    exact ⟨u16Octets v, ⟨rfl, rfl⟩, join_u16Octets v⟩
theorem rUint16_eq_some {field : Option Slice} {n : ℕ} :
    rUint field 0xFFFF = some n ↔ field = intField n ∧ n ≤ 0xFFFF :=
  rUint_eq_some 0xFFFF (by decide)

theorem sdmOffset_eq_some {f : Fields} {tag : UInt8} {o : Option UInt32} :
    sdmOffset f tag = some o ↔ fGet f tag = offsetField o ∧ ∀ v ∈ o, v.toNat ≤ dfcU24Max := by
  refine rOptional_eq_some fun field a => ?_
  simp only [Option.map_eq_some_iff, rUint_eq_some dfcU24Max (by decide)]
  constructor
  · rintro ⟨n, ⟨rfl, hn⟩, rfl⟩
    have hnat : (UInt32.ofNat n).toNat = n := by
      rw [UInt32.toNat_ofNat']
      simp only [dfcU24Max] at hn
      omega
    rw [hnat]
    exact ⟨rfl, hn⟩
  · rintro ⟨rfl, ha⟩
    exact ⟨a.toNat, ⟨rfl, ha⟩, by simp⟩

structure SdmImage.Loadable (s : SdmImage) : Prop where
  uidOffset : ∀ v ∈ s.uidOffset, v.toNat ≤ dfcU24Max
  counterOffset : ∀ v ∈ s.counterOffset, v.toNat ≤ dfcU24Max
  piccDataOffset : ∀ v ∈ s.piccDataOffset, v.toNat ≤ dfcU24Max
  macInputOffset : ∀ v ∈ s.macInputOffset, v.toNat ≤ dfcU24Max
  macOffset : ∀ v ∈ s.macOffset, v.toNat ≤ dfcU24Max
  encryptedOffset : ∀ v ∈ s.encryptedFile.map Prod.fst, v.toNat ≤ dfcU24Max
  encryptedLength : ∀ v ∈ s.encryptedFile.map Prod.snd, v.toNat ≤ dfcU24Max
  counterLimit : ∀ v ∈ s.counterLimit, v.toNat ≤ dfcU24Max
  readCounter : s.readCounter.toNat ≤ dfcU24Max

theorem sdmComponents_fields {s : SdmImage} {body : Slice} (hb : body.length ≤ 0xFFFF) :
    body = encFields (sdmComponents s) ↔
      ∃ f, rFields body sdmOrder = some f ∧ ∀ p ∈ sdmComponents s, fGet f p.1 = p.2 :=
  eq_encFields_iff rfl (by decide) (by decide) (by decide) hb

theorem isSome_offsetField (o : Option UInt32) : (offsetField o).isSome = o.isSome := by
  cases o <;> rfl

theorem decodeSdm_eq_ok {file file' : DfcFile} {body : Slice} (hb : body.length ≤ 0xFFFF) :
    decodeSdm file body = .ok file' ↔
      ∃ s : SdmImage, body = encFields (sdmComponents s) ∧ s.Loadable ∧
        file' = storeSdm file s := by
  simp only [sdmComponents_fields hb]
  simp only [sdmComponents, List.forall_mem_cons, List.not_mem_nil, false_implies, implies_true,
    and_true]
  simp only [decodeSdm, bind_eq_ok, orFail_eq_ok, refuseIf_eq_ok, pure_eq_ok, rOctet_eq_some,
    rU16_eq_some, sdmOffset_eq_some, rUint_eq_some dfcU24Max (by decide), not_not]
  constructor
  · rintro ⟨f, hf, options, h₁, rights, h₂, uid, ⟨h₃, l₃⟩, counter, ⟨h₄, l₄⟩, picc, ⟨h₅, l₅⟩,
      macInput, ⟨h₆, l₆⟩, mac, ⟨h₇, l₇⟩, encOffset, ⟨h₈, l₈⟩, _, hboth, encLength, ⟨h₉, l₉⟩,
      limit, ⟨ha, la⟩, n, ⟨hc, lc⟩, rfl⟩
    have hn : (UInt32.ofNat n).toNat = n := by
      rw [UInt32.toNat_ofNat']
      simp only [dfcU24Max] at lc
      omega
    rw [h₉, isSome_offsetField] at hboth
    have hfst : (encOffset.map fun o => (o, encLength.getD 0)).map Prod.fst = encOffset := by
      cases encOffset <;> rfl
    have hsnd : (encOffset.map fun o => (o, encLength.getD 0)).map Prod.snd = encLength := by
      cases encOffset <;> cases encLength <;> simp_all
    refine ⟨⟨options, rights, uid, counter, picc, macInput, mac,
        encOffset.map fun o => (o, encLength.getD 0), limit, UInt32.ofNat n⟩,
      ⟨f, hf, h₁, h₂, h₃, h₄, h₅, h₆, h₇, ?_, ?_, ha, ?_⟩,
      ⟨l₃, l₄, l₅, l₆, l₇, ?_, ?_, la, ?_⟩, rfl⟩
    · rw [hfst]; exact h₈
    · rw [hsnd]; exact h₉
    · rw [hn]; exact hc
    · rw [hfst]; exact l₈
    · rw [hsnd]; exact l₉
    · rw [hn]; exact lc
  · rintro ⟨s, ⟨f, hf, h₁, h₂, h₃, h₄, h₅, h₆, h₇, h₈, h₉, ha, hc⟩, hs, hfile⟩
    refine ⟨f, hf, s.options, h₁, s.accessRights, h₂, s.uidOffset, ⟨h₃, hs.uidOffset⟩,
      s.counterOffset, ⟨h₄, hs.counterOffset⟩, s.piccDataOffset, ⟨h₅, hs.piccDataOffset⟩,
      s.macInputOffset, ⟨h₆, hs.macInputOffset⟩, s.macOffset, ⟨h₇, hs.macOffset⟩,
      s.encryptedFile.map Prod.fst, ⟨h₈, hs.encryptedOffset⟩, (), ?_,
      s.encryptedFile.map Prod.snd, ⟨h₉, hs.encryptedLength⟩,
      s.counterLimit, ⟨ha, hs.counterLimit⟩, s.readCounter.toNat, ⟨hc, hs.readCounter⟩, ?_⟩
    · rw [h₉, isSome_offsetField]
      simp
    · have hpair : ((s.encryptedFile.map Prod.fst).map fun o =>
          (o, (s.encryptedFile.map Prod.snd).getD 0)) = s.encryptedFile := by
        cases s.encryptedFile <;> rfl
      rw [hpair, hfile, UInt32.ofNat_toNat]

/-- The masks and modes of a format version. -/
def AuthLoadable (version : ℕ) (authCommands : UInt8) (preferred : Option UInt8) : Prop :=
  if 6 ≤ version then
    authCommands.toNat ≤ dfcAuthCommandAll.toNat ∧
    ∀ v ∈ preferred, v.toNat ≤ dfcAuthCommandAll.toNat
  else authCommands.toNat ≤ 2 ∧ preferred = none

theorem toNat_ofNat_octet {n k : ℕ} (h : n ≤ k) (hk : k ≤ 255) : (UInt8.ofNat n).toNat = n := by
  rw [UInt8.toNat_ofNat']
  omega

theorem decodeAuth_eq_ok {version : ℕ} {auth preferred : Option Slice} {a : UInt8}
    {p : Option UInt8} :
    decodeAuth version auth preferred = .ok (a, p) ↔
      auth = intField a.toNat ∧ (preferred = p.map fun b => encInt b.toNat) ∧
        AuthLoadable version a p := by
  have hpref : ∀ field (v : UInt8),
      ((rUint field dfcAuthCommandAll.toNat).map UInt8.ofNat = some v ↔
        field = some (encInt v.toNat) ∧ v.toNat ≤ dfcAuthCommandAll.toNat) := by
    intro field v
    simp only [Option.map_eq_some_iff, rUint_eq_some (dfcAuthCommandAll.toNat) (by decide)]
    constructor
    · rintro ⟨n, ⟨rfl, hn⟩, rfl⟩
      rw [toNat_ofNat_octet hn (by decide)]
      exact ⟨rfl, hn⟩
    · rintro ⟨rfl, hv⟩
      exact ⟨v.toNat, ⟨rfl, hv⟩, by simp⟩
  unfold decodeAuth AuthLoadable
  by_cases hv : 6 ≤ version
  · simp only [hv, if_true, bind_eq_ok, orFail_eq_ok, pure_eq_ok, rOptional_eq_some hpref,
      rUint_eq_some (dfcAuthCommandAll.toNat) (by decide), Prod.mk.injEq]
    constructor
    · rintro ⟨n, ⟨rfl, hn⟩, o, ⟨rfl, ho⟩, rfl, rfl⟩
      rw [toNat_ofNat_octet hn (by decide)]
      exact ⟨rfl, rfl, hn, ho⟩
    · rintro ⟨rfl, rfl, ha, hp⟩
      exact ⟨a.toNat, ⟨rfl, ha⟩, p, ⟨rfl, hp⟩, by simp, rfl⟩
  · simp only [hv, if_false, bind_eq_ok, orFail_eq_ok, pure_eq_ok, refuseIf_eq_ok,
      rUint_eq_some 2 (by decide), Prod.mk.injEq, Bool.not_eq_true,
      Option.isSome_eq_false_iff, Option.isNone_iff_eq_none]
    constructor
    · rintro ⟨n, ⟨rfl, hn⟩, _, rfl, rfl, rfl⟩
      rw [toNat_ofNat_octet hn (by decide)]
      exact ⟨rfl, rfl, hn, rfl⟩
    · rintro ⟨rfl, rfl, ha, rfl⟩
      exact ⟨a.toNat, ⟨rfl, ha⟩, (), rfl, by simp, rfl⟩

structure DelegatedImage.Loadable (version : ℕ) (d : DelegatedImage) : Prop where
  freeBlocks : d.freeBlocks.toNat ≤ d.quotaLimit.toNat
  formatDisabled : version < 6 → d.formatDisabled = false

theorem delegatedComponents_fields {d : DelegatedImage} {body : Slice} (hb : body.length ≤ 0xFFFF) :
    body = encFields (delegatedComponents d) ↔
      ∃ f, rFields body delegatedOrder = some f ∧ ∀ p ∈ delegatedComponents d, fGet f p.1 = p.2 :=
  eq_encFields_iff rfl (by decide) (by decide) (by decide) hb

theorem toNat_ofNat_u16 {n : ℕ} (h : n ≤ 0xFFFF) : (UInt16.ofNat n).toNat = n := by
  rw [UInt16.toNat_ofNat']
  omega

theorem decodeDelegated_eq_ok {app app' : DfcApplication} {version : ℕ} {body : Slice}
    (hb : body.length ≤ 0xFFFF) :
    decodeDelegated app body version = .ok app' ↔
      ∃ d : DelegatedImage, body = encFields (delegatedComponents d) ∧ d.Loadable version ∧
        app' = storeDelegated app d := by
  simp only [delegatedComponents_fields hb]
  simp only [delegatedComponents, List.forall_mem_cons, List.not_mem_nil, false_implies,
    implies_true, and_true]
  simp only [decodeDelegated, bind_eq_ok, orFail_eq_ok, refuseIf_eq_ok, pure_eq_ok, rOctet_eq_some,
    rUint16_eq_some, rDefaultFalse_eq_some, not_lt]
  have hpresent (o : Bool) :
      (if o then some (encBool true) else none : Option Slice).isSome = o := by
    cases o <;> rfl
  constructor
  · rintro ⟨f, hf, slot, ⟨h₁, l₁⟩, v, h₂, quota, ⟨h₃, l₃⟩, free, ⟨h₄, l₄⟩, _, hle, _, hver, fmt, h₅,
      rfl⟩
    rw [h₅, hpresent] at hver
    refine ⟨⟨UInt16.ofNat slot, v, UInt16.ofNat quota, UInt16.ofNat free, fmt⟩,
      ⟨f, hf, ?_, h₂, ?_, ?_, h₅⟩, ⟨?_, ?_⟩, rfl⟩
    · rw [toNat_ofNat_u16 l₁]; exact h₁
    · rw [toNat_ofNat_u16 l₃]; exact h₃
    · rw [toNat_ofNat_u16 l₄]; exact h₄
    · dsimp only
      rw [toNat_ofNat_u16 l₃, toNat_ofNat_u16 l₄]
      exact hle
    · intro hlt
      simpa using fun h => hver ⟨hlt, h⟩
  · rintro ⟨d, ⟨f, hf, h₁, h₂, h₃, h₄, h₅⟩, hd, rfl⟩
    have hs := d.slotNumber.toNat_lt
    have hq := d.quotaLimit.toNat_lt
    have hfr := d.freeBlocks.toNat_lt
    refine ⟨f, hf, d.slotNumber.toNat, ⟨h₁, by omega⟩, d.slotVersion, h₂, d.quotaLimit.toNat,
      ⟨h₃, by omega⟩, d.freeBlocks.toNat, ⟨h₄, by omega⟩, (), hd.freeBlocks, (), ?_,
      d.formatDisabled, h₅, by simp⟩
    rintro ⟨hlt, hp⟩
    rw [h₅, defaultFalseField, hpresent, hd.formatDisabled hlt] at hp
    exact absurd hp (by simp)

theorem rOptional_octet {field : Option Slice} {o : Option UInt8} :
    rOptional rOctet field = some o ↔ field = o.map fun b => [b] := by
  have h : ∀ field (b : UInt8), rOctet field = some b ↔ field = some [b] ∧ True := by
    intro field b
    rw [rOctet_eq_some, and_true]
  rw [rOptional_eq_some h]
  simp

theorem rOptional_octets {field : Option Slice} {n : ℕ} {o : Option Slice} :
    rOptional (fun field => rOctets field n) field = some o ↔
      field = o ∧ ∀ bs ∈ o, bs.length = n := by
  have h : ∀ field (bs : Slice),
      rOctets field n = some bs ↔ field = some (id bs) ∧ bs.length = n :=
    fun field bs => rOctets_eq_some
  rw [rOptional_eq_some h]
  simp

theorem rOptional_u16 {field : Option Slice} {o : Option UInt16} :
    rOptional rU16 field = some o ↔ field = o.map u16Octets := by
  have h : ∀ field (v : UInt16), rU16 field = some v ↔ field = some (u16Octets v) ∧ True := by
    intro field v
    rw [rU16_eq_some, and_true]
  rw [rOptional_eq_some h]
  simp

theorem proximityComponents_fields {x : ProximityImage} {body : Slice} (hb : body.length ≤ 0xFFFF) :
    body = encFields (proximityComponents x) ↔
      ∃ f, rFields body proximityOrder = some f ∧ ∀ p ∈ proximityComponents x, fGet f p.1 = p.2 :=
  eq_encFields_iff rfl (by decide) (by decide) (by decide) hb

theorem decodeProximity_eq_ok {c c' : DfcCredential} {body : Slice} (hb : body.length ≤ 0xFFFF) :
    decodeProximity c body = .ok c' ↔
      ∃ x : ProximityImage, body = encFields (proximityComponents x) ∧ x.key.length = 16 ∧
        c' = storeProximity c x := by
  simp only [proximityComponents_fields hb]
  simp only [proximityComponents, List.forall_mem_cons, List.not_mem_nil, false_implies,
    implies_true, and_true]
  simp only [decodeProximity, bind_eq_ok, orFail_eq_ok, pure_eq_ok, rOctets_eq_some,
    rOctet_eq_some, rUint16_eq_some, rOptional_octet]
  constructor
  · rintro ⟨f, hf, key, ⟨h₁, l₁⟩, option, h₂, n, ⟨h₃, l₃⟩, bitrate, h₄, hc⟩
    refine ⟨⟨key, option, UInt16.ofNat n, bitrate⟩, ⟨f, hf, h₁, h₂, ?_, h₄⟩, l₁, hc.symm⟩
    rw [toNat_ofNat_u16 l₃]
    exact h₃
  · rintro ⟨x, ⟨f, hf, h₁, h₂, h₃, h₄⟩, hl, hc⟩
    have hn := x.publishedResponseTime.toNat_lt
    refine ⟨f, hf, x.key, ⟨h₁, hl⟩, x.option, h₂, x.publishedResponseTime.toNat, ⟨h₃, by omega⟩,
      x.bitrate, h₄, ?_⟩
    rw [hc, UInt16.ofNat_toNat]

structure VirtualCardImage.Loadable (v : VirtualCardImage) : Prop where
  installationId : v.installationId.length ≠ 0 ∧
    v.installationId.length ≤ dfcVirtualCardMaxInstallationIdLength
  capabilities : v.capabilities.length = 2
  uid : v.uid.length = 4 ∨ v.uid.length = 7 ∨ v.uid.length = 10
  selectMacKey : v.selectMacKey.length = 16
  selectEncryptionKey : v.selectEncryptionKey.length = 16

theorem virtualCardComponents_fields {v : VirtualCardImage} {body : Slice}
    (hb : body.length ≤ 0xFFFF) :
    body = encFields (virtualCardComponents v) ↔
      ∃ f, rFields body virtualCardOrder = some f ∧
        ∀ p ∈ virtualCardComponents v, fGet f p.1 = p.2 :=
  eq_encFields_iff rfl (by decide) (by decide) (by decide) hb

theorem decodeVirtualCard_eq_ok {c c' : DfcCredential} {body : Slice} (hb : body.length ≤ 0xFFFF) :
    decodeVirtualCard c body = .ok c' ↔
      ∃ v : VirtualCardImage, body = encFields (virtualCardComponents v) ∧ v.Loadable ∧
        c' = storeVirtualCard c v := by
  simp only [virtualCardComponents_fields hb]
  simp only [virtualCardComponents, List.forall_mem_cons, List.not_mem_nil, false_implies,
    implies_true, and_true]
  simp only [decodeVirtualCard, bind_eq_ok, orFail_eq_ok, refuseIf_eq_ok, pure_eq_ok,
    rOctets_eq_some, rOctet_eq_some, rBool_eq_some]
  constructor
  · rintro ⟨f, hf, install, h₁, _, l₁, info, h₂, caps, ⟨h₃, l₃⟩, uid, h₄, _, l₄, mac, ⟨h₅, l₅⟩, enc,
      ⟨h₆, l₆⟩, auth, h₇, prox, h₈, hc⟩
    exact ⟨⟨install, info, caps, uid, mac, enc, auth, prox⟩,
      ⟨f, hf, h₁, h₂, h₃, h₄, h₅, h₆, h₇, h₈⟩,
      ⟨by dsimp only; omega, l₃, by dsimp only; omega, l₅, l₆⟩, hc.symm⟩
  · rintro ⟨v, ⟨f, hf, h₁, h₂, h₃, h₄, h₅, h₆, h₇, h₈⟩, hv, hc⟩
    have hi := hv.installationId
    have hu := hv.uid
    exact ⟨f, hf, _, h₁, (), by omega, _, h₂, _, ⟨h₃, hv.capabilities⟩, _, h₄, (), by omega, _,
      ⟨h₅, hv.selectMacKey⟩, _, ⟨h₆, hv.selectEncryptionKey⟩, _, h₇, _, h₈, hc.symm⟩

structure DamImage.Loadable (d : DamImage) : Prop where
  authKey : d.authKey.length = 16
  macKey : d.macKey.length = 16
  encryptionKey : d.encryptionKey.length = 16

theorem damComponents_fields {d : DamImage} {body : Slice} (hb : body.length ≤ 0xFFFF) :
    body = encFields (damComponents d) ↔
      ∃ f, rFields body damOrder = some f ∧ ∀ p ∈ damComponents d, fGet f p.1 = p.2 :=
  eq_encFields_iff rfl (by decide) (by decide) (by decide) hb

theorem decodeDam_eq_ok {c c' : DfcCredential} {body : Slice} (hb : body.length ≤ 0xFFFF) :
    decodeDam c body = .ok c' ↔
      ∃ d : DamImage, body = encFields (damComponents d) ∧ d.Loadable ∧ c' = storeDam c d := by
  simp only [damComponents_fields hb]
  simp only [damComponents, List.forall_mem_cons, List.not_mem_nil, false_implies, implies_true,
    and_true]
  simp only [decodeDam, bind_eq_ok, orFail_eq_ok, pure_eq_ok, rOctets_eq_some]
  constructor
  · rintro ⟨f, hf, auth, ⟨h₁, l₁⟩, mac, ⟨h₂, l₂⟩, enc, ⟨h₃, l₃⟩, hc⟩
    exact ⟨⟨auth, mac, enc⟩, ⟨f, hf, h₁, h₂, h₃⟩, ⟨l₁, l₂, l₃⟩, hc.symm⟩
  · rintro ⟨d, ⟨f, hf, h₁, h₂, h₃⟩, hd, hc⟩
    exact ⟨f, hf, _, ⟨h₁, hd.authKey⟩, _, ⟨h₂, hd.macKey⟩, _, ⟨h₃, hd.encryptionKey⟩, hc.symm⟩

structure CardImage.Loadable (version : ℕ) (card : CardImage) : Prop where
  generation : dfcGenerationEv1 ≤ card.generation ∧ card.generation ≤ dfcGenerationEv3
  uidProvenance : card.uidProvenance ≤ dfcUidProvenanceUnknown
  uid : card.uid.length = 4 ∨ card.uid.length = 7 ∨ card.uid.length = 10
  staticSignature : ∀ bs ∈ card.staticSignature, bs.length = 56
  hardwareVersion : ∀ bs ∈ card.hardwareVersion, bs.length = 7
  softwareVersion : ∀ bs ∈ card.softwareVersion, bs.length = 7
  versions : version = dfcMinReadFormatVersion →
    card.hardwareVersion = none ∧ card.softwareVersion = none

/-- The components a version knows. -/
theorem cardComponents_fields {version : ℕ} {card : CardImage} {body : Slice}
    (hb : body.length ≤ 0xFFFF) :
    (body = encFields (cardComponents card) ∧ (version = dfcMinReadFormatVersion →
      card.hardwareVersion = none ∧ card.softwareVersion = none)) ↔
    ∃ f, rFields body (if version = dfcMinReadFormatVersion then cardOrderV4 else cardOrderV5) =
      some f ∧ ∀ p ∈ cardComponents card, fGet f p.1 = p.2 := by
  by_cases hv : version = dfcMinReadFormatVersion
  · rw [if_pos hv]
    simp only [hv, forall_const]
    have hsplit : cardComponents card = (cardComponents card).take 5 ++
        [(Tag.cardHardwareVersion, card.hardwareVersion),
          (Tag.cardSoftwareVersion, card.softwareVersion)] := rfl
    have henc (hh : card.hardwareVersion = none) (hs : card.softwareVersion = none) :
        encFields (cardComponents card) = encFields ((cardComponents card).take 5) := by
      conv_lhs => rw [hsplit, hh, hs, encFields, List.flatMap_append]
      simp only [List.flatMap_cons, List.flatMap_nil, optTlv, List.append_nil]
      rfl
    have hiff : body = encFields ((cardComponents card).take 5) ↔
        ∃ f, rFields body cardOrderV4 = some f ∧
          ∀ p ∈ (cardComponents card).take 5, fGet f p.1 = p.2 :=
      eq_encFields_iff rfl (by decide) (by decide) (by decide) hb
    constructor
    · rintro ⟨hbody, hh, hs⟩
      obtain ⟨f, hf, hget⟩ := hiff.mp (hbody.trans (henc hh hs))
      refine ⟨f, hf, ?_⟩
      have horder := (rFields_some (by decide) hf).2
      rw [hsplit]
      intro p hp
      rcases List.mem_append.mp hp with hp | hp
      · exact hget p hp
      · simp only [List.mem_cons, List.not_mem_nil, or_false] at hp
        rcases hp with rfl | rfl
        · rw [hh]
          exact fGet_eq_none (by rw [horder]; decide)
        · rw [hs]
          exact fGet_eq_none (by rw [horder]; decide)
    · rintro ⟨f, hf, hget⟩
      have horder := (rFields_some (by decide) hf).2
      have hnew : Tag.cardHardwareVersion ∉ f.order ∧ Tag.cardSoftwareVersion ∉ f.order := by
        rw [horder]
        decide
      have hh : card.hardwareVersion = none :=
        (hget (Tag.cardHardwareVersion, card.hardwareVersion) (by simp [cardComponents])).symm.trans
          (fGet_eq_none hnew.1)
      have hs : card.softwareVersion = none :=
        (hget (Tag.cardSoftwareVersion, card.softwareVersion) (by simp [cardComponents])).symm.trans
          (fGet_eq_none hnew.2)
      refine ⟨?_, hh, hs⟩
      rw [henc hh hs]
      exact hiff.mpr ⟨f, hf, fun p hp => hget p (List.mem_of_mem_take hp)⟩
  · rw [if_neg hv]
    simp only [hv, false_implies, and_true]
    exact eq_encFields_iff rfl (by decide) (by decide) (by decide) hb

theorem decodeCard_eq_ok {version : ℕ} {c c' : DfcCredential} {body : Slice}
    (hb : body.length ≤ 0xFFFF) :
    decodeCard version c body = .ok c' ↔
      ∃ card : CardImage, body = encFields (cardComponents card) ∧ card.Loadable version ∧
        c' = storeCard c card := by
  have hdef : decodeCard version c body = .ok c' ↔ ∃ card : CardImage,
      (∃ f, rFields body (if version = dfcMinReadFormatVersion then cardOrderV4 else cardOrderV5) =
        some f ∧ ∀ p ∈ cardComponents card, fGet f p.1 = p.2) ∧
      (dfcGenerationEv1 ≤ card.generation ∧ card.generation ≤ dfcGenerationEv3) ∧
      card.uidProvenance ≤ dfcUidProvenanceUnknown ∧
      (card.uid.length = 4 ∨ card.uid.length = 7 ∨ card.uid.length = 10) ∧
      (∀ bs ∈ card.staticSignature, bs.length = 56) ∧
      (∀ bs ∈ card.hardwareVersion, bs.length = 7) ∧
      (∀ bs ∈ card.softwareVersion, bs.length = 7) ∧ c' = storeCard c card := by
    simp only [cardComponents, List.forall_mem_cons, List.not_mem_nil, false_implies, implies_true,
      and_true]
    simp only [decodeCard, bind_eq_ok, orFail_eq_ok, refuseIf_eq_ok, pure_eq_ok,
      rUint_eq_some 0xFF (by decide), rUint_eq_some 0xFFFFFFFF (by decide),
      rOptional_octets]
    constructor
    · rintro ⟨f, hf, gen, ⟨h₁, l₁⟩, _, g₁, n, ⟨h₂, l₂⟩, prov, ⟨h₃, l₃⟩, _, g₃, uid, h₄, _, g₄, hw,
        ⟨h₅, l₅⟩, sw, ⟨h₆, l₆⟩, sig, ⟨h₇, l₇⟩, hc⟩
      have hn : (UInt32.ofNat n).toNat = n := by
        rw [UInt32.toNat_ofNat']
        omega
      refine ⟨⟨gen, UInt32.ofNat n, uid, prov, sig, hw, sw⟩, ⟨f, hf, h₁, ?_, h₄, h₃, h₇, h₅, h₆⟩,
        by dsimp only; omega, by dsimp only; omega, by dsimp only; omega, l₇, l₅, l₆, hc.symm⟩
      rw [hn]
      exact h₂
    · rintro ⟨card, ⟨f, hf, h₁, h₂, h₄, h₃, h₇, h₅, h₆⟩, g₁, g₃, g₄, l₇, l₅, l₆, hc⟩
      have hn := card.storage.toNat_lt
      simp only [dfcGenerationEv1, dfcGenerationEv3, dfcUidProvenanceUnknown] at g₁ g₃ ⊢
      refine ⟨f, hf, _, ⟨h₁, by omega⟩, (), by omega, _, ⟨h₂, by omega⟩, _, ⟨h₃, by omega⟩, (),
        by omega, _, h₄, (), by omega, _, ⟨h₅, l₅⟩, _, ⟨h₆, l₆⟩, _, ⟨h₇, l₇⟩, ?_⟩
      rw [hc, UInt32.ofNat_toNat]
  rw [hdef]
  constructor
  · rintro ⟨card, hf, g₁, g₂, g₃, g₄, g₅, g₆, hc⟩
    obtain ⟨hbody, hver⟩ := (cardComponents_fields hb).mpr hf
    exact ⟨card, hbody, ⟨g₁, g₂, g₃, g₄, g₅, g₆, hver⟩, hc⟩
  · rintro ⟨card, hbody, h, hc⟩
    exact ⟨card, (cardComponents_fields hb).mp ⟨hbody, h.versions⟩, h.generation, h.uidProvenance,
      h.uid, h.staticSignature, h.hardwareVersion, h.softwareVersion, hc⟩

end DfcCore
