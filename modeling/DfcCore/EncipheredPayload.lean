import DfcCore.Aes
import DfcCore.SecureMessaging
import Mathlib.Data.List.DropRight

/-!
# Where an enciphered payload ends

The length of an enciphered payload is not on the wire. `enciphered_decode` deciphers and looks
for a boundary: a length at which the checksum of the octets before it is stored and behind
which lies only padding. The search starts at `first_padded_clear_length`, keeps the checksum
running and never looks at the padding again. It finds the least boundary, and the payload that
was enciphered only where no shorter one is a boundary too.
-/
namespace DfcCore

/-- Zeros, or the marker and zeros behind it. -/
def IsPaddingTail (tail : List UInt8) : Prop :=
  (∀ octet ∈ tail, octet = 0) ∨
    (tail.head? = some dfcSmLengthMarker ∧ ∀ octet ∈ tail.tail, octet = 0)

instance (tail : List UInt8) : Decidable (IsPaddingTail tail) :=
  @instDecidableOr _ _ (List.decidableBAll _ tail)
    (@instDecidableAnd _ _ inferInstance (List.decidableBAll _ tail.tail))

/-- A payload of `length` octets may end here: its checksum follows, and then only padding. -/
structure IsBoundary (sm : DfcSecureMessaging) (head status clear : List UInt8) (length : ℕ) :
    Prop where
  fits : length + sm.crcLength ≤ clear.length
  checksum : slice clear length sm.crcLength = sm.crcOctets head (clear.take length) status
  padding : IsPaddingTail (clear.drop (length + sm.crcLength))

/-- Behind the last octet that is not zero there is padding, and before it only where it is the
marker itself. -/
theorem isPaddingTail_drop {front zeros : List UInt8} {last : UInt8} (hlast : last ≠ 0)
    (hzeros : ∀ octet ∈ zeros, octet = 0) (m : ℕ) :
    IsPaddingTail ((front ++ last :: zeros).drop m) ↔
      (if last = dfcSmLengthMarker then front.length else front.length + 1) ≤ m := by
  rcases lt_trichotomy m front.length with hlt | rfl | hgt
  · have hne : front.drop m ≠ [] := by
      rw [Ne, List.drop_eq_nil_iff]
      omega
    obtain ⟨octet, rest, hdrop⟩ := List.exists_cons_of_ne_nil hne
    have hright : ¬ (if last = dfcSmLengthMarker then front.length else front.length + 1) ≤ m := by
      split_ifs <;> omega
    rw [iff_false_right hright, List.drop_append_of_le_length hlt.le, hdrop, List.cons_append]
    rintro (hall | ⟨-, htail⟩)
    · exact hlast (hall last (by simp))
    · exact hlast (htail last (by simp))
  · rw [List.drop_left]
    by_cases hmarker : last = dfcSmLengthMarker
    · rw [if_pos hmarker]
      exact iff_of_true (Or.inr ⟨congrArg some hmarker, hzeros⟩) le_rfl
    · rw [if_neg hmarker]
      refine iff_of_false ?_ (by omega)
      rintro (hall | ⟨hhead, -⟩)
      · exact hlast (hall last (by simp))
      · exact hmarker (Option.some.inj hhead)
  · have hleft : IsPaddingTail ((front ++ last :: zeros).drop m) := by
      obtain ⟨k, rfl⟩ := Nat.exists_eq_add_of_lt hgt
      left
      intro octet hoctet
      have hdrop : (front ++ last :: zeros).drop (front.length + k + 1) = zeros.drop k := by
        rw [Nat.add_assoc, List.drop_length_add_append, List.drop_succ_cons]
      exact hzeros octet (List.mem_of_mem_drop (hdrop ▸ hoctet))
    refine iff_of_true hleft ?_
    split_ifs <;> omega

/-- The search starts exactly at the first length behind which there is only padding. -/
theorem firstPaddedClearLength_le_iff (clear : List UInt8) (crcLen n : ℕ) :
    firstPaddedClearLength clear crcLen ≤ n ↔ IsPaddingTail (clear.drop (n + crcLen)) := by
  have hsplit := List.rdropWhile_append_rtakeWhile (p := (· == 0)) (l := clear)
  have hzeros : ∀ octet ∈ clear.rtakeWhile (· == 0), octet = 0 := by
    intro octet hoctet
    simpa using List.mem_rtakeWhile_imp hoctet
  have hlength : (clear.reverse.dropWhile (· == 0)).length =
      (clear.rdropWhile (· == 0)).length := by
    rw [List.rdropWhile, List.length_reverse]
  rcases List.eq_nil_or_concat' (clear.rdropWhile (· == 0)) with hnil | ⟨front, last, hconcat⟩
  · have hall : ∀ octet ∈ clear, octet = 0 := by
      rw [hnil, List.nil_append] at hsplit
      rwa [hsplit] at hzeros
    have hfirst : firstPaddedClearLength clear crcLen = 0 := by
      simp [firstPaddedClearLength, hlength, hnil]
    rw [hfirst]
    exact iff_of_true (Nat.zero_le n) (Or.inl fun octet h => hall octet (List.mem_of_mem_drop h))
  · have hlast : last ≠ 0 := by
      have hne : clear.rdropWhile (· == 0) ≠ [] := by simp [hconcat]
      have hnot := List.rdropWhile_last_not (· == 0) clear hne
      simpa [hconcat] using hnot
    have hclear : clear = front ++ last :: clear.rtakeWhile (· == 0) := by
      rw [hconcat] at hsplit
      simpa using hsplit.symm
    have hfirst : firstPaddedClearLength clear crcLen =
        (if last = dfcSmLengthMarker then front.length else front.length + 1) - crcLen := by
      have hget : clear.getD front.length 0 = last := by
        rw [hclear]
        simp
      simp only [firstPaddedClearLength, hlength, hconcat, List.length_append,
        List.length_singleton, Nat.add_sub_cancel, hget, Nat.succ_ne_zero, if_false]
    rw [hfirst, Nat.sub_le_iff_le_add, ← isPaddingTail_drop hlast hzeros, ← hclear]

/-- A place of `octets` at which the checksum of what is before it is stored. -/
def StoresChecksum {σ : Type} (crcLen : ℕ) (extend : σ → UInt8 → σ) (stored : σ → List UInt8)
    (crc : σ) (octets : List UInt8) (k : ℕ) : Prop :=
  k + crcLen ≤ octets.length ∧
    (octets.drop k).take crcLen = stored ((octets.take k).foldl extend crc)

section
variable {σ : Type} {crcLen : ℕ} {extend : σ → UInt8 → σ} {stored : σ → List UInt8}

theorem storesChecksum_cons_succ (crc : σ) (octet : UInt8) (octets : List UInt8) (k : ℕ) :
    StoresChecksum crcLen extend stored crc (octet :: octets) (k + 1) ↔
      StoresChecksum crcLen extend stored (extend crc octet) octets k := by
  unfold StoresChecksum
  rw [List.length_cons, List.drop_succ_cons, List.take_succ_cons, List.foldl_cons]
  refine and_congr_left' ?_
  omega

/-- The running search finds the least place, and none only where there is none. -/
theorem searchBoundary_eq_some_iff (hlen : 0 < crcLen) (crc : σ) (octets : List UInt8)
    (start n : ℕ) : searchBoundary crcLen extend stored crc octets start = some n ↔
      start ≤ n ∧ IsLeast {k | StoresChecksum crcLen extend stored crc octets k} (n - start) := by
  induction octets generalizing crc start with
  | nil =>
    refine iff_of_false (by simp [searchBoundary]) ?_
    rintro ⟨-, ⟨hfits, -⟩, -⟩
    rw [List.length_nil] at hfits
    omega
  | cons octet octets ih =>
    unfold searchBoundary
    split_ifs with hshort hstored
    · refine iff_of_false (by simp) ?_
      rintro ⟨-, ⟨hfits, -⟩, -⟩
      rw [List.length_cons] at hfits
      omega
    · have hzero : StoresChecksum crcLen extend stored crc (octet :: octets) 0 :=
        ⟨by rw [List.length_cons]; omega, hstored⟩
      constructor
      · rintro ⟨⟩
        rw [Nat.sub_self]
        exact ⟨le_rfl, hzero, fun _ _ => Nat.zero_le _⟩
      · rintro ⟨hstart, -, hleast⟩
        have hle : n - start ≤ 0 := hleast hzero
        exact congrArg some (by omega)
    · have hzero : ¬ StoresChecksum crcLen extend stored crc (octet :: octets) 0 :=
        fun h => hstored h.2
      rw [ih]
      constructor
      · rintro ⟨hstart, hmem, hleast⟩
        have hsucc : n - start = n - (start + 1) + 1 := by omega
        refine ⟨by omega, ?_, ?_⟩
        · rw [hsucc]
          exact (storesChecksum_cons_succ ..).mpr hmem
        · intro k hk
          cases k with
          | zero => exact absurd hk hzero
          | succ k =>
            have hle := hleast ((storesChecksum_cons_succ ..).mp hk)
            omega
      · rintro ⟨hstart, hmem, hleast⟩
        have hne : n - start ≠ 0 := fun h => hzero (h ▸ hmem)
        have hsucc : n - start = n - (start + 1) + 1 := by omega
        refine ⟨by omega, ?_, ?_⟩
        · rw [hsucc] at hmem
          exact (storesChecksum_cons_succ ..).mp hmem
        · intro k hk
          have hle := hleast ((storesChecksum_cons_succ ..).mpr hk)
          omega

/-- The checksum may be kept running over the octets that the search skips. -/
theorem storesChecksum_drop (crc : σ) (octets : List UInt8) {first : ℕ}
    (hfirst : first ≤ octets.length) (k : ℕ) :
    StoresChecksum crcLen extend stored ((octets.take first).foldl extend crc)
        (octets.drop first) k ↔
      StoresChecksum crcLen extend stored crc octets (first + k) := by
  unfold StoresChecksum
  rw [List.length_drop, List.drop_drop, ← List.foldl_append, ← List.take_add]
  refine and_congr_left' ?_
  omega

end

section
variable {des : BlockCipher 8} {aes : BlockCipher 16}

theorem DfcSecureMessaging.crcLength_pos (sm : DfcSecureMessaging) : 0 < sm.crcLength := by
  unfold DfcSecureMessaging.crcLength
  split_ifs <;> omega

/-- A search that starts at the first padded length finds the least boundary. -/
theorem searchBoundary_clear {σ : Type} (sm : DfcSecureMessaging) {head status : List UInt8}
    {extend : σ → UInt8 → σ} {stored : σ → List UInt8} {crc : σ}
    (hstored : ∀ plain : List UInt8,
      stored (plain.foldl extend crc) = sm.crcOctets head plain status) (clear : List UInt8)
    (n : ℕ) :
    let first := firstPaddedClearLength clear sm.crcLength
    searchBoundary sm.crcLength extend stored ((clear.take first).foldl extend crc)
        (clear.drop first) first = some n ↔
      IsLeast {n | IsBoundary sm head status clear n} n := by
  intro first
  have hfirst : first ≤ clear.length := by
    rw [firstPaddedClearLength_le_iff, List.drop_of_length_le (by omega)]
    exact Or.inl (by simp)
  have hboundary : ∀ m, IsBoundary sm head status clear m ↔
      first ≤ m ∧ StoresChecksum sm.crcLength extend stored crc clear m := by
    intro m
    rw [firstPaddedClearLength_le_iff, StoresChecksum, hstored]
    exact ⟨fun h => ⟨h.padding, h.fits, h.checksum⟩, fun h => ⟨h.2.1, h.2.2, h.1⟩⟩
  rw [searchBoundary_eq_some_iff sm.crcLength_pos]
  simp only [storesChecksum_drop crc clear hfirst]
  constructor
  · rintro ⟨hle, hmem, hleast⟩
    refine ⟨(hboundary n).mpr ⟨hle, ?_⟩, ?_⟩
    · simpa only [Set.mem_ofPred_eq, Nat.add_sub_cancel' hle] using hmem
    · intro m hm
      obtain ⟨hm, hmem'⟩ := (hboundary m).mp hm
      have hsub : n - first ≤ m - first := by
        apply hleast
        simpa only [Set.mem_ofPred_eq, Nat.add_sub_cancel' hm] using hmem'
      omega
  · rintro ⟨hmem, hleast⟩
    obtain ⟨hle, hn⟩ := (hboundary n).mp hmem
    refine ⟨hle, ?_, ?_⟩
    · simpa only [Set.mem_ofPred_eq, Nat.add_sub_cancel' hle] using hn
    · intro k hk
      have hlek : n ≤ first + k := hleast ((hboundary (first + k)).mpr ⟨Nat.le_add_right .., hk⟩)
      omega

theorem clearLength_eq_some_iff (sm : DfcSecureMessaging) (head status clear : List UInt8)
    (n : ℕ) : sm.clearLength head status clear = some n ↔
      IsLeast {n | IsBoundary sm head status clear n} n := by
  unfold DfcSecureMessaging.clearLength
  simp only
  split_ifs with hlegacy
  · refine searchBoundary_clear sm ?_ clear n
    intro plain
    rw [DfcSecureMessaging.crcOctets, if_pos hlegacy]
    rfl
  · refine searchBoundary_clear sm ?_ clear n
    intro plain
    simp only [DfcSecureMessaging.crcOctets, if_neg hlegacy, dfcCrc32, dfcCrc32Extend,
      List.foldl_append]

/-- Whole blocks are always deciphered, to as many octets. -/
theorem DfcSecureMessaging.transform_decrypt (des : BlockCipher 8) (aes : BlockCipher 16)
    (sm : DfcSecureMessaging) {wrapped : List UInt8} (hlen : wrapped.length % sm.blockSize = 0) :
    ∃ clear next, sm.transform des aes false wrapped = some (clear, next) ∧
      clear.length = wrapped.length := by
  have hlegacyIv : legacyZeroIv.length = 8 := by simp
  have hdesIv : (sm.iv.take 8).length = 8 := by simp [sm.ivLength]
  rcases sm.blockSize_cases with ⟨hsize, hcipher⟩ | ⟨hsize, hcipher⟩
  · rw [hsize] at hlen
    have hblocks : wrapped.length = wrapped.length / 16 * 16 := by omega
    have hcheck : ¬(sm.sessionKey.length ≠ 16 ∨ wrapped.length % 16 ≠ 0) := by
      simp [sm.aesKey hcipher, hlen]
    have hlegacy : sm.cipher ≠ .legacy := by simp [hcipher]
    have hout := Cbc.length_backward (aes.length_decrypt sm.sessionKey) (wrapped.length / 16)
      sm.ivLength hblocks
    let out := Cbc.backward (aes.decrypt sm.sessionKey) 16 (wrapped.length / 16) sm.iv wrapped
    refine ⟨out.1, sm.setIv out.2, ?_, hout.trans hblocks.symm⟩
    rw [transform, if_neg hlegacy, cbc, if_pos hcipher, dfcCryptoAesCbc, if_neg hcheck,
      if_neg Bool.false_ne_true, Option.map_some]
  · rw [hsize] at hlen
    have hblocks : wrapped.length = wrapped.length / 8 * 8 := by omega
    have hcheck : ¬(desKeyLengthIsValid sm.sessionKey.length = false ∨
        wrapped.length % 8 ≠ 0) := by
      simp [sm.desKey hcipher, hlen]
    by_cases hlegacy : sm.cipher = .legacy
    · have hout := Cbc.length_backward
        (fun _ => length_desPrimitive des sm.sessionKey (!sm.pcd)) (wrapped.length / 8)
        hlegacyIv hblocks
      refine ⟨_, sm, ?_, hout.trans hblocks.symm⟩
      rw [transform, if_pos hlegacy, if_neg Bool.false_ne_true, dfcCryptoDesChain,
        if_neg hcheck, Option.map_some]
    · have hout := Cbc.length_backward (des.length_decrypt sm.sessionKey) (wrapped.length / 8)
        hdesIv hblocks
      let out := Cbc.backward (des.decrypt sm.sessionKey) 8 (wrapped.length / 8) (sm.iv.take 8)
        wrapped
      refine ⟨out.1, sm.setIv (out.2 ++ sm.iv.drop 8), ?_, hout.trans hblocks.symm⟩
      rw [transform, if_neg hlegacy, cbc, if_neg hcipher, dfcCryptoDesCbc, if_neg hcheck,
        if_neg Bool.false_ne_true, Option.map_some, Option.map_some]

/-- Past its guards, `enciphered_decode` is the search in the deciphered octets. -/
theorem encipheredDecode_eq {sm next : DfcSecureMessaging} {wrapped clear : List UInt8}
    (head status : List UInt8) (outCapacity : ℕ) (hne : wrapped ≠ [])
    (hlen : wrapped.length % sm.blockSize = 0)
    (htransform : sm.transform des aes false wrapped = some (clear, next)) :
    encipheredDecode des aes sm head status wrapped outCapacity =
      if wrapped.length ≤ dfcSmMaxCryptoSize ∧ wrapped.length ≤ outCapacity then
        match sm.clearLength head status clear with
        | none => (none, sm)
        | some length => (some (clear.take length), next)
      else (none, sm) := by
  by_cases hfits : wrapped.length ≤ dfcSmMaxCryptoSize ∧ wrapped.length ≤ outCapacity
  · have hguard : ¬(wrapped = [] ∨ dfcSmMaxCryptoSize < wrapped.length ∨
        outCapacity < wrapped.length ∨ wrapped.length % sm.blockSize ≠ 0) := by
      rintro (h | h | h | h)
      · exact hne h
      · exact absurd hfits.1 (Nat.not_le.mpr h)
      · exact absurd hfits.2 (Nat.not_le.mpr h)
      · exact h hlen
    cases hclear : sm.clearLength head status clear with
    | none => simp only [encipheredDecode, if_neg hguard, if_pos hfits, htransform, hclear]
    | some length => simp only [encipheredDecode, if_neg hguard, if_pos hfits, htransform, hclear]
  · have hguard : wrapped = [] ∨ dfcSmMaxCryptoSize < wrapped.length ∨
        outCapacity < wrapped.length ∨ wrapped.length % sm.blockSize ≠ 0 := by
      rw [not_and_or, Nat.not_le, Nat.not_le] at hfits
      exact hfits.elim (fun h => Or.inr (Or.inl h)) (fun h => Or.inr (Or.inr (Or.inl h)))
    rw [encipheredDecode, if_pos hguard, if_neg hfits]

/-- `enciphered_decode` ends the payload at the least boundary of the deciphered octets, where
the cryptogram is within the working size and the output holds it. It leaves the session alone
where it gives no payload, and its search starts at the first length with only padding behind
it. -/
theorem encipheredDecode_takes_least_boundary (des : BlockCipher 8) (aes : BlockCipher 16)
    (sm : DfcSecureMessaging) (head status wrapped : List UInt8) (outCapacity : ℕ)
    (hne : wrapped ≠ []) (hlen : wrapped.length % sm.blockSize = 0) :
    ∃ clear next, sm.transform des aes false wrapped = some (clear, next) ∧
      clear.length = wrapped.length ∧
      (∀ n, (encipheredDecode des aes sm head status wrapped outCapacity).1.map List.length =
          some n ↔ (wrapped.length ≤ dfcSmMaxCryptoSize ∧ wrapped.length ≤ outCapacity) ∧
            IsLeast {n | IsBoundary sm head status clear n} n) ∧
      (∀ payload, (encipheredDecode des aes sm head status wrapped outCapacity).1 =
          some payload → payload = clear.take payload.length ∧
            (encipheredDecode des aes sm head status wrapped outCapacity).2 = next) ∧
      ((encipheredDecode des aes sm head status wrapped outCapacity).1 = none →
        (encipheredDecode des aes sm head status wrapped outCapacity).2 = sm) ∧
      ∀ n, firstPaddedClearLength clear sm.crcLength ≤ n ↔
        IsPaddingTail (clear.drop (n + sm.crcLength)) := by
  obtain ⟨clear, next, htransform, hclear⟩ := sm.transform_decrypt des aes hlen
  have hsearch := clearLength_eq_some_iff sm head status clear
  rw [encipheredDecode_eq head status outCapacity hne hlen htransform]
  refine ⟨clear, next, htransform, hclear, ?_⟩
  by_cases hfits : wrapped.length ≤ dfcSmMaxCryptoSize ∧ wrapped.length ≤ outCapacity
  · rw [if_pos hfits]
    cases hfound : sm.clearLength head status clear with
    | none =>
      refine ⟨fun n => ?_, by simp, fun _ => rfl, fun n => firstPaddedClearLength_le_iff ..⟩
      rw [← hsearch n, hfound]
      simp
    | some length =>
      have hle : length ≤ clear.length := by
        have hboundary := ((hsearch length).mp hfound).1.fits
        omega
      have htake : (clear.take length).length = length := by
        rw [List.length_take, Nat.min_eq_left hle]
      refine ⟨fun n => ?_, ?_, by simp, fun n => firstPaddedClearLength_le_iff ..⟩
      · rw [← hsearch n, hfound, Option.map_some, htake]
        simp [hfits]
      · rintro payload ⟨⟩
        exact ⟨by rw [htake], rfl⟩
  · rw [if_neg hfits]
    refine ⟨fun n => ?_, by simp, fun _ => rfl, fun n => firstPaddedClearLength_le_iff ..⟩
    exact iff_of_false (by simp) (fun h => hfits h.1)

/-- A legacy session of either party under the key of zeros. -/
def zeroKeyLegacySession (pcd : Bool) : DfcSecureMessaging where
  cipher := .legacy
  sessionKey := List.replicate 8 0
  iv := List.replicate 16 0
  pcd := pcd
  keyLength := by decide
  ivLength := by decide

theorem encipheredDecode_takes_least_boundary_zeroKey :
    ∃ clear next,
      (zeroKeyLegacySession true).transform (identityCipher 8) (identityCipher 16) false
        [0x63, 0x63, 0, 0, 0, 0, 0, 0] = some (clear, next) ∧
      ∀ n, (encipheredDecode (identityCipher 8) (identityCipher 16) (zeroKeyLegacySession true)
          [] [] [0x63, 0x63, 0, 0, 0, 0, 0, 0] 8).1.map List.length = some n ↔
        IsLeast {n | IsBoundary (zeroKeyLegacySession true) [] [] clear n} n := by
  obtain ⟨clear, next, htransform, -, hleast, -⟩ :=
    encipheredDecode_takes_least_boundary (identityCipher 8) (identityCipher 16)
      (zeroKeyLegacySession true) [] [] [0x63, 0x63, 0, 0, 0, 0, 0, 0] 8 (by decide) (by decide)
  have hfits : [(0x63 : UInt8), 0x63, 0, 0, 0, 0, 0, 0].length ≤ dfcSmMaxCryptoSize ∧
      [(0x63 : UInt8), 0x63, 0, 0, 0, 0, 0, 0].length ≤ 8 := by decide
  refine ⟨clear, next, htransform, fun n => ?_⟩
  rw [hleast n]
  exact and_iff_right hfits

/-- A cryptogram of 2072 octets of a payload of none is refused for its size alone. -/
theorem encipheredDecode_refuses_oversized :
    let wrapped := (List.replicate 259 [(0x63 : UInt8), 0x63, 0, 0, 0, 0, 0, 0]).flatten
    let clear := 0x63 :: 0x63 :: List.replicate 2070 0
    wrapped ≠ [] ∧ wrapped.length % (zeroKeyLegacySession true).blockSize = 0 ∧
      ((zeroKeyLegacySession true).transform (identityCipher 8) (identityCipher 16) false
        wrapped).map Prod.fst = some clear ∧
      IsLeast {n | IsBoundary (zeroKeyLegacySession true) [] [] clear n} 0 ∧
      (encipheredDecode (identityCipher 8) (identityCipher 16) (zeroKeyLegacySession true)
        [] [] wrapped 4096).1 = none := by
  refine ⟨by decide +kernel, by decide +kernel, by decide +kernel, ⟨⟨?_, ?_, ?_⟩, ?_⟩, ?_⟩
  · decide +kernel
  · decide +kernel
  · decide +kernel
  · exact fun n _ => Nat.zero_le n
  · decide +kernel

theorem isPaddingTail_append_zeros {tail : List UInt8} (n : ℕ) :
    IsPaddingTail (tail ++ List.replicate n 0) ↔ IsPaddingTail tail := by
  have hzero : ∀ octet ∈ List.replicate n (0 : UInt8), octet = 0 :=
    fun octet h => List.eq_of_mem_replicate h
  cases tail with
  | nil => exact iff_of_true (Or.inl hzero) (Or.inl (by simp))
  | cons octet tail =>
    simp only [IsPaddingTail, List.cons_append, List.mem_cons, List.mem_append, List.head?_cons,
      List.tail_cons]
    constructor
    · rintro (hall | ⟨hhead, htail⟩)
      · exact Or.inl fun o h => hall o (h.imp_right Or.inl)
      · exact Or.inr ⟨hhead, fun o h => htail o (Or.inl h)⟩
    · rintro (hall | ⟨hhead, htail⟩)
      · refine Or.inl fun o h => ?_
        rcases h with h | h | h
        · exact hall o (Or.inl h)
        · exact hall o (Or.inr h)
        · exact hzero o h
      · exact Or.inr ⟨hhead, fun o h => h.elim (htail o) (hzero o)⟩

/-- Some proper front of a payload reads as the whole of it: in the payload with its checksum
behind it, the front is followed by its own checksum and then only by padding. -/
def ReadsShorter (sm : DfcSecureMessaging) (head plain status : List UInt8) : Prop :=
  ∃ n < plain.length, IsBoundary sm head status (plain ++ sm.crcOctets head plain status) n

theorem DfcSecureMessaging.le_paddedLength (sm : DfcSecureMessaging) (n : ℕ) (padding : Bool) :
    n + sm.crcLength + (if padding then 1 else 0) ≤ sm.paddedLength n padding := by
  have hround := le_roundUp (n := n + sm.crcLength) sm.blockSize_pos
  have hpos := sm.blockSize_pos
  unfold DfcSecureMessaging.paddedLength
  simp only
  cases padding with
  | false => simpa using hround
  | true =>
    simp only [true_and, if_true]
    split_ifs with heq <;> omega

theorem DfcSecureMessaging.paddedPayload_eq (sm : DfcSecureMessaging)
    (head plain status : List UInt8) (padding : Bool) :
    sm.paddedPayload head plain status padding = plain ++ sm.crcOctets head plain status ++
      (if padding then [dfcSmLengthMarker] else []) ++
      List.replicate (sm.paddedLength plain.length padding -
        (plain.length + sm.crcLength + if padding then 1 else 0)) 0 := by
  have hlen : (plain ++ sm.crcOctets head plain status ++
      if padding then [dfcSmLengthMarker] else []).length =
        plain.length + sm.crcLength + if padding then 1 else 0 := by
    cases padding <;> simp [Nat.add_assoc]
  rw [DfcSecureMessaging.paddedPayload, takeD_of_le, hlen]
  rw [hlen]
  exact sm.le_paddedLength plain.length padding

/-- The payload itself ends at a boundary. -/
theorem isBoundary_paddedPayload (sm : DfcSecureMessaging) (head plain status : List UInt8)
    (padding : Bool) :
    IsBoundary sm head status (sm.paddedPayload head plain status padding) plain.length := by
  have hcrc := sm.length_crcOctets head plain status
  rw [sm.paddedPayload_eq, List.append_assoc, List.append_assoc]
  refine ⟨?_, ?_, ?_⟩
  · rw [List.length_append, List.length_append]
    omega
  · rw [slice, List.drop_left, List.take_left, ← hcrc, List.take_left]
  · rw [← hcrc, ← List.append_assoc, ← List.length_append, List.drop_left]
    cases padding with
    | false => exact Or.inl (by simp)
    | true => exact Or.inr ⟨rfl, by simp⟩

/-- Behind the marker there is no shorter boundary. -/
theorem not_isBoundary_of_marker (sm : DfcSecureMessaging) (head plain status : List UInt8)
    {n : ℕ} (hn : n < plain.length) :
    ¬IsBoundary sm head status (sm.paddedPayload head plain status true) n := by
  intro h
  have hpadding := h.padding
  rw [sm.paddedPayload_eq, if_pos rfl, List.append_assoc _ [_], List.singleton_append,
    isPaddingTail_drop (by decide) (by simp), if_pos rfl, List.length_append,
    sm.length_crcOctets] at hpadding
  omega

/-- Without the marker, the shorter boundaries are those of the payload and its checksum. -/
theorem isBoundary_unmarked_iff (sm : DfcSecureMessaging) (head plain status : List UInt8)
    {n : ℕ} (hn : n < plain.length) :
    IsBoundary sm head status (sm.paddedPayload head plain status false) n ↔
      IsBoundary sm head status (plain ++ sm.crcOctets head plain status) n := by
  have hcrc := sm.length_crcOctets head plain status
  have hle : n + sm.crcLength ≤ (plain ++ sm.crcOctets head plain status).length := by
    rw [List.length_append]
    omega
  rw [sm.paddedPayload_eq, if_neg Bool.false_ne_true, List.append_nil]
  generalize plain ++ sm.crcOctets head plain status = front at hle ⊢
  have hslice : ∀ zeros : List UInt8,
      slice (front ++ zeros) n sm.crcLength = slice front n sm.crcLength := by
    intro zeros
    rw [slice, slice, List.drop_append_of_le_length (by omega), List.take_append_of_le_length]
    rw [List.length_drop]
    omega
  have htake : ∀ zeros : List UInt8, (front ++ zeros).take n = front.take n :=
    fun zeros => List.take_append_of_le_length (by omega)
  constructor
  · rintro ⟨-, hchecksum, hpadding⟩
    rw [hslice, htake] at hchecksum
    rw [List.drop_append_of_le_length hle, isPaddingTail_append_zeros] at hpadding
    exact ⟨hle, hchecksum, hpadding⟩
  · rintro ⟨-, hchecksum, hpadding⟩
    refine ⟨?_, ?_, ?_⟩
    · rw [List.length_append]
      omega
    · rwa [hslice, htake]
    · rwa [List.drop_append_of_le_length hle, isPaddingTail_append_zeros]

theorem isLeast_paddedPayload_iff (sm : DfcSecureMessaging) (head plain status : List UInt8)
    (padding : Bool) :
    IsLeast {n | IsBoundary sm head status (sm.paddedPayload head plain status padding) n}
        plain.length ↔ padding = true ∨ ¬ReadsShorter sm head plain status := by
  have hself := isBoundary_paddedPayload sm head plain status padding
  cases padding with
  | true =>
    refine iff_of_true ⟨hself, fun n hn => ?_⟩ (Or.inl rfl)
    by_contra hlt
    exact not_isBoundary_of_marker sm head plain status (Nat.not_le.mp hlt) hn
  | false =>
    rw [or_iff_right Bool.false_ne_true]
    constructor
    · rintro ⟨-, hleast⟩ ⟨n, hn, hboundary⟩
      have hle : plain.length ≤ n :=
        hleast ((isBoundary_unmarked_iff sm head plain status hn).mpr hboundary)
      omega
    · intro hnot
      refine ⟨hself, fun n hn => ?_⟩
      by_contra hlt
      have hlt := Nat.not_le.mp hlt
      exact hnot ⟨n, hlt, (isBoundary_unmarked_iff sm head plain status hlt).mp hn⟩

/-- Both ends see the same boundaries. -/
theorem isBoundary_otherEnd (sm : DfcSecureMessaging) (head status clear : List UInt8) (n : ℕ) :
    IsBoundary sm.otherEnd head status clear n ↔ IsBoundary sm head status clear n :=
  ⟨fun h => ⟨h.fits, h.checksum, h.padding⟩, fun h => ⟨h.fits, h.checksum, h.padding⟩⟩

/-- What one end enciphers the other deciphers up to the least boundary, both then at the same
chaining value. -/
theorem encipheredDecode_encode {sm next : DfcSecureMessaging}
    {head plain status out : List UInt8} {padding : Bool} {capacity : ℕ}
    (hencode : encipheredEncode des aes sm head plain status padding capacity = some (out, next))
    {outCapacity : ℕ} (hout : out.length ≤ outCapacity) :
    ∃ n, IsLeast {n | IsBoundary sm head status
        (sm.paddedPayload head plain status padding) n} n ∧
      encipheredDecode des aes sm.otherEnd head status out outCapacity =
        (some ((sm.paddedPayload head plain status padding).take n), next.otherEnd) := by
  have hmod : (sm.paddedPayload head plain status padding).length % sm.blockSize = 0 := by
    rw [DfcSecureMessaging.length_paddedPayload]
    exact sm.paddedLength_mod ..
  obtain ⟨out', next', henc, hlen, hdec, -, -⟩ :=
    @DfcSecureMessaging.transform_inverse des aes sm _ hmod
  rw [DfcSecureMessaging.length_paddedPayload] at hlen
  unfold encipheredEncode at hencode
  simp only [henc] at hencode
  split_ifs at hencode with hguard
  obtain ⟨rfl, rfl⟩ : out' = out ∧ next' = next := by simpa using hencode
  rw [not_or, not_or, Nat.not_lt, Nat.not_lt, Nat.not_lt] at hguard
  have hlong := sm.le_paddedLength plain.length padding
  have hpos := sm.crcLength_pos
  have hne : out' ≠ [] := by
    rw [← List.length_pos_iff]
    omega
  have hblocks : out'.length % sm.otherEnd.blockSize = 0 := by
    rw [hlen]
    exact sm.paddedLength_mod ..
  have hfits : out'.length ≤ dfcSmMaxCryptoSize ∧ out'.length ≤ outCapacity :=
    ⟨hlen ▸ hguard.2.1, hout⟩
  have hsearch := clearLength_eq_some_iff sm.otherEnd head status
    (sm.paddedPayload head plain status padding)
  simp only [isBoundary_otherEnd] at hsearch
  -- the payload's own end is a boundary, so there is a least one
  obtain ⟨n, hleast⟩ : ∃ n, IsLeast {n | IsBoundary sm head status
      (sm.paddedPayload head plain status padding) n} n :=
    ⟨_, Nat.sInf_mem ⟨_, isBoundary_paddedPayload sm head plain status padding⟩,
      fun _ => Nat.sInf_le⟩
  refine ⟨n, hleast, ?_⟩
  rw [encipheredDecode_eq head status outCapacity hne hblocks hdec, if_pos hfits,
    (hsearch n).mpr hleast]

/-- The front of a padded payload up to its least boundary is the payload exactly where the
length is marked or no shorter payload reads the same. -/
theorem take_least_boundary_iff {sm : DfcSecureMessaging} {head plain status : List UInt8}
    {padding : Bool} {n : ℕ}
    (hleast : IsLeast {n | IsBoundary sm head status
      (sm.paddedPayload head plain status padding) n} n) :
    (sm.paddedPayload head plain status padding).take n = plain ↔
      padding = true ∨ ¬ReadsShorter sm head plain status := by
  rw [← isLeast_paddedPayload_iff]
  constructor
  · intro htake
    have hle := hleast.1.fits
    have hlength := congrArg List.length htake
    rw [List.length_take, Nat.min_eq_left (by omega)] at hlength
    exact hlength ▸ hleast
  · intro hplain
    rw [hleast.unique hplain, sm.paddedPayload_eq, List.append_assoc, List.append_assoc,
      List.take_left]

/-- A payload that is put under a session goes as it is or enciphered. -/
theorem accepted_cases {sm next : DfcSecureMessaging} {commMode : UInt8} {plain out : List UInt8}
    {capacity : ℕ} {encoded : Option (List UInt8 × DfcSecureMessaging)}
    (h : (if commMode = dfcCommPlain then if capacity < plain.length then ([], sm) else (plain, sm)
      else if commMode ≠ dfcCommEnciphered then ([], sm) else encoded.getD ([], sm)) = (out, next))
    (hne : out ≠ []) :
    (commMode = dfcCommPlain ∧ plain = out ∧ sm = next) ∨
      (commMode = dfcCommEnciphered ∧ encoded = some (out, next)) := by
  have hrefused : ([], sm) ≠ (out, next) := fun heq => hne (congrArg Prod.fst heq).symm
  split_ifs at h with hplain hsmall hmode
  · exact absurd h hrefused
  · exact Or.inl ⟨hplain, Prod.mk.inj h⟩
  · exact absurd h hrefused
  · cases encoded with
    | none => exact absurd h hrefused
    | some result => exact Or.inr ⟨not_not.mp hmode, congrArg some h⟩

/-- A payload that `dfc_secure_messaging_wrap` or
`dfc_secure_messaging_generate_response_with_length_marker` puts under a session comes back
unchanged at the other end, both ends then at the same chaining value, exactly where it was
sent plain, its length was marked, or no shorter payload reads the same. -/
theorem encipheredPayload_roundTrip_iff (des : BlockCipher 8) (aes : BlockCipher 16)
    (sm : DfcSecureMessaging) (commMode : UInt8) (head plain : List UInt8) (status : UInt8)
    (capacity outCapacity : ℕ) :
    (∀ out next, dfcSecureMessagingWrap des aes sm commMode head plain capacity = (out, next) →
      out ≠ [] → out.length ≤ outCapacity →
      (dfcSecureMessagingVerifyCommand des aes sm.otherEnd commMode head out outCapacity =
          (plain, next.otherEnd) ↔
        commMode = dfcCommPlain ∨ ¬ReadsShorter sm head plain [])) ∧
    (∀ lengthUnknown out next,
      dfcSecureMessagingGenerateResponseWithLengthMarker des aes sm commMode status plain
        capacity lengthUnknown = (out, next) →
      out ≠ [] → out.length ≤ outCapacity →
      (dfcSecureMessagingUnwrap des aes sm.otherEnd commMode status out outCapacity =
          (some plain, next.otherEnd) ↔
        commMode = dfcCommPlain ∨ lengthUnknown = true ∨ ¬ReadsShorter sm [] plain [status])) := by
  have hmodes : dfcCommEnciphered ≠ dfcCommPlain := by decide
  constructor
  · intro out next hwrap hne hout
    unfold dfcSecureMessagingVerifyCommand
    rcases accepted_cases hwrap hne with ⟨rfl, rfl, rfl⟩ | ⟨rfl, hencode⟩
    · rw [if_pos rfl, if_neg (Nat.not_lt.mpr hout)]
      exact iff_of_true rfl (Or.inl rfl)
    · obtain ⟨n, hleast, hdecode⟩ := encipheredDecode_encode hencode hout
      have hiff := take_least_boundary_iff hleast
      rw [or_iff_right Bool.false_ne_true] at hiff
      rw [if_neg hmodes, if_neg (not_not.mpr rfl), hdecode, or_iff_right hmodes, ← hiff]
      simp
  · intro lengthUnknown out next hgenerate hne hout
    unfold dfcSecureMessagingUnwrap
    rcases accepted_cases hgenerate hne with ⟨rfl, rfl, rfl⟩ | ⟨rfl, hencode⟩
    · rw [if_pos rfl, if_neg (Nat.not_lt.mpr hout)]
      exact iff_of_true rfl (Or.inl rfl)
    · obtain ⟨n, hleast, hdecode⟩ := encipheredDecode_encode hencode hout
      rw [if_neg hmodes, if_neg (not_not.mpr rfl), hdecode, or_iff_right hmodes,
        ← take_least_boundary_iff hleast]
      simp

end

/-- An AES session of either party under the key of zeros. -/
def zeroKeyAesSession (pcd : Bool) : DfcSecureMessaging where
  cipher := .aes
  sessionKey := List.replicate 16 0
  iv := List.replicate 16 0
  pcd := pcd
  keyLength := by decide
  ivLength := by decide

/-- The octets 01 02 03 under an AES session, to the card and back with the length marked. -/
theorem encipheredPayload_roundTrip_zeroKey :
    let sent := dfcSecureMessagingWrap (identityCipher 8) Aes.aesCipher (zeroKeyAesSession true)
      dfcCommEnciphered [0x3D] [1, 2, 3] 16
    let answered := dfcSecureMessagingGenerateResponseWithLengthMarker (identityCipher 8)
      Aes.aesCipher (zeroKeyAesSession false) dfcCommEnciphered 0 [1, 2, 3] 16 true
    dfcSecureMessagingVerifyCommand (identityCipher 8) Aes.aesCipher (zeroKeyAesSession false)
        dfcCommEnciphered [0x3D] sent.1 16 = ([1, 2, 3], sent.2.otherEnd) ∧
      dfcSecureMessagingUnwrap (identityCipher 8) Aes.aesCipher (zeroKeyAesSession true)
        dfcCommEnciphered 0 answered.1 16 = (some [1, 2, 3], answered.2.otherEnd) := by
  intro sent answered
  constructor
  · refine ((encipheredPayload_roundTrip_iff (identityCipher 8) Aes.aesCipher
      (zeroKeyAesSession true) dfcCommEnciphered [0x3D] [1, 2, 3] 0 16 16).1 sent.1 sent.2 rfl ?_
      ?_).mpr (Or.inr ?_)
    · decide +kernel
    · decide +kernel
    · rintro ⟨n, hn, hboundary⟩
      have hchecksum := hboundary.checksum
      have hn : n < 3 := hn
      interval_cases n <;> exact absurd hchecksum (by decide +kernel)
  · refine ((encipheredPayload_roundTrip_iff (identityCipher 8) Aes.aesCipher
      (zeroKeyAesSession false) dfcCommEnciphered [] [1, 2, 3] 0 16 16).2 true answered.1 answered.2
      rfl ?_ ?_).mpr (Or.inr (Or.inl rfl))
    · decide +kernel
    · decide +kernel

/-- One octet 63 under a legacy session is the first octet of the checksum of no octets: the
card reads a payload of no octets. So it does under an AES session with four octets that are the
checksum of the header, as the checksum behind them is then zero. -/
theorem encipheredPayload_cut_short :
    (dfcSecureMessagingWrap (identityCipher 8) Aes.aesCipher (zeroKeyLegacySession true)
      dfcCommEnciphered [0x3D] [0x63] 8).1 = [0x63, 0x63, 0, 0, 0, 0, 0, 0] ∧
    (dfcSecureMessagingVerifyCommand (identityCipher 8) Aes.aesCipher (zeroKeyLegacySession false)
      dfcCommEnciphered [0x3D] [0x63, 0x63, 0, 0, 0, 0, 0, 0] 8).1 = [] ∧
    (dfcSecureMessagingWrap (identityCipher 8) Aes.aesCipher (zeroKeyAesSession true)
      dfcCommEnciphered [0x3D] (leOctets 4 (dfcCrc32 [0x3D]).toNat) 16).1.length = 16 ∧
    (dfcSecureMessagingVerifyCommand (identityCipher 8) Aes.aesCipher (zeroKeyAesSession false)
      dfcCommEnciphered [0x3D]
      (dfcSecureMessagingWrap (identityCipher 8) Aes.aesCipher (zeroKeyAesSession true)
        dfcCommEnciphered [0x3D] (leOctets 4 (dfcCrc32 [0x3D]).toNat) 16).1 16).1 = [] := by
  decide +kernel

end DfcCore
