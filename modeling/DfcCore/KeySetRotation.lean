import DfcCore.CycleRotation
import DfcCore.DerPlaceSets
import DfcCore.KeyFrames

/-!
# Rolling key sets

Rolling to a set rotates the sets of an application: the octets of all keys in one turn of the
key blocks, versions, types and initialized bits one set at a time through the record and the
metadata slice. Both are rotations by the number of the set, and they touch nothing but the
application's own slices.
-/
namespace DfcCore

/-- `dfc_greatest_common_divisor`. -/
def dfcGreatestCommonDivisor (a b : ℕ) : ℕ :=
  if b = 0 then a else dfcGreatestCommonDivisor b (a % b)
termination_by b
decreasing_by exact Nat.mod_lt _ (by omega)

theorem dfcGreatestCommonDivisor_eq (a b : ℕ) : dfcGreatestCommonDivisor a b = Nat.gcd a b := by
  fun_induction dfcGreatestCommonDivisor a b with
  | case1 a => rw [Nat.gcd_zero_right]
  | case2 a b hb ih => rw [ih, Nat.gcd_comm b, ← Nat.gcd_rec, Nat.gcd_comm]

/-- The blocks of a memory from `base` on. -/
def keyBlocks (base width : ℕ) (m : Mem) (block : ℕ) : List UInt8 :=
  m.read (base + block * width) width

theorem keyBlocks_write (m : Mem) (base width block : ℕ) {octets : List UInt8}
    (h : octets.length = width) :
    keyBlocks base width (m.write (base + block * width) octets) =
      Function.update (keyBlocks base width m) block octets := by
  funext other
  by_cases hother : other = block
  · subst hother
    rw [Function.update_self]
    exact Mem.read_write_self' h
  · rw [Function.update_of_ne hother]
    refine Mem.read_write_of_disjoint ?_
    rw [h]
    rcases Nat.lt_or_gt_of_ne hother with hlt | hlt
    · have hmul := Nat.mul_le_mul_right width hlt
      rw [Nat.succ_mul] at hmul
      omega
    · have hmul := Nat.mul_le_mul_right width hlt
      rw [Nat.succ_mul] at hmul
      omega

section Blocks
variable {base count width shift cycle : ℕ}

/-- The code's walk is the walk over the blocks. -/
theorem dfcRotateCycle_walk (m : Mem) (fuel current : ℕ) :
    CycleRotation.walk (keyBlocks base width m) count shift cycle fuel current =
      (keyBlocks base width (dfcRotateCycle m base count width shift cycle fuel current).1,
        (dfcRotateCycle m base count width shift cycle fuel current).2) := by
  induction fuel generalizing m current with
  | zero => rfl
  | succ fuel ih =>
    rw [CycleRotation.walk, dfcRotateCycle]
    by_cases hend : (current + shift) % count = cycle
    · rw [if_pos hend, if_pos hend]
    · rw [if_neg hend, if_neg hend, ← ih, keyBlocks_write _ _ _ _ (Mem.length_read ..)]
      rfl

/-- A walk that stopped by itself does not depend on how far it might have gone. -/
theorem dfcRotateCycle_more {m : Mem} {fuel current : ℕ}
    (h : ((dfcRotateCycle m base count width shift cycle fuel current).2 + shift) % count = cycle)
    (more : ℕ) :
    dfcRotateCycle m base count width shift cycle (fuel + more) current =
      dfcRotateCycle m base count width shift cycle fuel current := by
  induction fuel generalizing m current with
  | zero =>
    cases more with
    | zero => rfl
    | succ more =>
      have hend : (current + shift) % count = cycle := h
      show (if (current + shift) % count = cycle then (m, current) else _) = (m, current)
      rw [if_pos hend]
  | succ fuel ih =>
    rw [Nat.succ_add, dfcRotateCycle]
    rw [dfcRotateCycle] at h
    rw [dfcRotateCycle]
    by_cases hend : (current + shift) % count = cycle
    · rw [if_pos hend, if_pos hend]
    · rw [if_neg hend] at h
      rw [if_neg hend, if_neg hend, ih h]

/-- The walk around a cycle comes back to its start in fewer steps than there are blocks. -/
theorem dfcRotateCycle_stops (m : Mem) (hcycle : cycle < count) {fuel : ℕ} (hfuel : count ≤ fuel) :
    ((dfcRotateCycle m base count width shift cycle fuel cycle).2 + shift) % count = cycle ∧
      dfcRotateCycle m base count width shift cycle fuel cycle =
        dfcRotateCycle m base count width shift cycle count cycle := by
  have hcount : 0 < count := by omega
  have hpos := @CycleRotation.cycleLength_pos count shift hcount
  have hstop : ((dfcRotateCycle m base count width shift cycle count cycle).2 + shift) % count =
      cycle := by
    have hwalk := (CycleRotation.walk_from hcycle (keyBlocks base width m) hpos
      (show _ ≤ 0 + count by
        rw [Nat.zero_add]
        exact CycleRotation.cycleLength_le count shift)).1
    rw [CycleRotation.place_zero hcycle, dfcRotateCycle_walk] at hwalk
    rw [hwalk, CycleRotation.place_succ, Nat.sub_add_cancel hpos]
    exact (CycleRotation.place_eq_cycle_iff hcycle hpos le_rfl).mpr rfl
  obtain ⟨more, rfl⟩ := Nat.exists_eq_add_of_le hfuel
  have hmore := dfcRotateCycle_more hstop more
  exact ⟨hmore ▸ hstop, hmore⟩

theorem keyBlocks_rotate (m : Mem) :
    keyBlocks base width (dfcRotateKeyBlocksLeft m base count width shift) =
      CycleRotation.rotate (keyBlocks base width m) count shift := by
  unfold dfcRotateKeyBlocksLeft CycleRotation.rotate
  induction List.range (Nat.gcd count shift) generalizing m with
  | nil => rfl
  | cons cycle cycles ih =>
    rw [List.foldl_cons, List.foldl_cons, ih]
    congr 1
    rw [CycleRotation.rotateCycle, dfcRotateCycle_walk]
    exact keyBlocks_write _ _ _ _ (Mem.length_read ..)

/-- `dfc_rotate_key_blocks_left` rotates the blocks. -/
theorem read_dfcRotateKeyBlocksLeft (m : Mem) (hshift : 0 < shift) (hlt : shift < count) {j : ℕ}
    (hj : j < count) :
    (dfcRotateKeyBlocksLeft m base count width shift).read (base + j * width) width =
      m.read (base + (j + shift) % count * width) width := by
  have hblock := congrFun (@keyBlocks_rotate base count width shift m) j
  rw [CycleRotation.rotate_apply hshift hlt _ hj] at hblock
  exact hblock

end Blocks

namespace SetMems

/-- The version of a key, from the record or from the metadata. -/
def keyVersion (L : SetLayout) (m : SetMems) (set slot : ℕ) : UInt8 :=
  if set = 0 then m.versions slot else m.metadata (L.versionCell set slot)

/-- The initialized mask turned by one set. -/
def rotatedMask (L : SetLayout) (m : SetMems) : UInt16 :=
  if m.mask L &&& 1 != 0 then (m.mask L >>> 1) ||| (1 <<< UInt16.ofNat (L.setCount - 1))
  else m.mask L >>> 1

/-- The versions of the keys of all sets behind the first, turned by one set. -/
def rotatedVersions (L : SetLayout) (m : SetMems) : Mem :=
  let additional := L.maskCell + 2
  (if dfcKeySetMinimumCount < L.setCount then
    m.metadata.move additional (additional + L.keyCount)
      ((L.setCount - dfcKeySetMinimumCount) * L.keyCount)
  else m.metadata).write (additional + (L.setCount - dfcKeySetMinimumCount) * L.keyCount)
    (m.versions.read 0 L.keyCount)

/-- The versions and types of the sets turned by one. -/
def rotatedHeads (L : SetLayout) (pool : Mem) : Mem :=
  let moved := (pool.move L.metadata (L.metadata + 1) (L.setCount - 1)).move
    (L.metadata + L.setCount) (L.metadata + L.setCount + 1) (L.setCount - 1)
  (moved.write (L.metadata + (L.setCount - 1)) [pool L.metadata]).write
    (L.metadata + L.setCount + (L.setCount - 1)) [pool (L.metadata + L.setCount)]

/-- What one turn of the metadata leaves. -/
def rotated (L : SetLayout) (m : SetMems) : SetMems where
  keys := m.keys
  versions := m.versions.write 0 (m.metadata.read (L.maskCell + 2) L.keyCount)
  metadata := (rotatedHeads L (m.rotatedVersions L)).write L.maskCell
    [(m.rotatedMask L).toUInt8, (m.rotatedMask L >>> 8).toUInt8]

end SetMems

section Metadata
variable {L : SetLayout} {m : SetMems}

theorem rotatedVersions_below {a : ℕ} (ha : a < L.metadata + 2 * L.setCount + 2) :
    m.rotatedVersions L a = m.metadata a := by
  unfold SetMems.rotatedVersions
  simp only [SetLayout.maskCell]
  rw [Mem.write_apply_of_out (by omega)]
  split_ifs
  · exact Mem.move_apply_of_out (by omega)
  · rfl

theorem rotatedHeads_above {pool : Mem} (hsets : 0 < L.setCount) {a : ℕ}
    (ha : L.metadata + 2 * L.setCount ≤ a) : SetMems.rotatedHeads L pool a = pool a := by
  unfold SetMems.rotatedHeads
  rw [Mem.write_apply_of_out (by rw [List.length_singleton]; omega),
    Mem.write_apply_of_out (by rw [List.length_singleton]; omega),
    Mem.move_apply_of_out (by omega), Mem.move_apply_of_out (by omega)]

theorem rotatedHeads_below {pool : Mem} (hsets : 0 < L.setCount) {a : ℕ}
    (ha : a < L.metadata) : SetMems.rotatedHeads L pool a = pool a := by
  unfold SetMems.rotatedHeads
  rw [Mem.write_apply_of_out (by omega), Mem.write_apply_of_out (by omega),
    Mem.move_apply_of_out (by omega), Mem.move_apply_of_out (by omega)]

/-- The successor of a set. -/
theorem succ_mod_cases {set sets : ℕ} (h : set < sets) :
    (set + 1 < sets ∧ (set + 1) % sets = set + 1) ∨ (set + 1 = sets ∧ (set + 1) % sets = 0) := by
  rcases Nat.lt_or_ge (set + 1) sets with hlt | hge
  · exact Or.inl ⟨hlt, Nat.mod_eq_of_lt hlt⟩
  · have heq : set + 1 = sets := by omega
    exact Or.inr ⟨heq, by rw [heq, Nat.mod_self]⟩

theorem rotatedHeads_version {pool : Mem} {set : ℕ} (h : set < L.setCount) :
    SetMems.rotatedHeads L pool (L.metadata + set) =
      pool (L.metadata + (set + 1) % L.setCount) := by
  unfold SetMems.rotatedHeads
  rw [Mem.write_apply_of_out (by omega)]
  rcases succ_mod_cases h with ⟨hlt, hmod⟩ | ⟨heq, hmod⟩
  · rw [hmod, Mem.write_apply_of_out (by omega), Mem.move_apply_of_out (by omega), Mem.move,
      if_pos (by omega)]
    congr 1
    omega
  · have hset : set = L.setCount - 1 := by omega
    rw [hmod, hset]
    simp [Mem.write]

theorem rotatedHeads_type {pool : Mem} {set : ℕ} (h : set < L.setCount) :
    SetMems.rotatedHeads L pool (L.metadata + L.setCount + set) =
      pool (L.metadata + L.setCount + (set + 1) % L.setCount) := by
  unfold SetMems.rotatedHeads
  rcases succ_mod_cases h with ⟨hlt, hmod⟩ | ⟨heq, hmod⟩
  · rw [hmod, Mem.write_apply_of_out (by omega),
      Mem.write_apply_of_out (by rw [List.length_singleton]; omega), Mem.move, if_pos (by omega),
      Mem.move_apply_of_out (by omega)]
    congr 1
    omega
  · have hset : set = L.setCount - 1 := by omega
    rw [hmod, hset]
    simp [Mem.write]

/-- Behind the mask a key has the version it has in the next set. -/
theorem rotatedVersions_apply {set slot : ℕ} (hset : set < L.setCount) (hpos : 0 < set)
    (hslot : slot < L.keyCount) :
    m.rotatedVersions L (L.versionCell set slot) =
      m.keyVersion L ((set + 1) % L.setCount) slot := by
  unfold SetMems.rotatedVersions SetMems.keyVersion
  simp only [SetLayout.maskCell, SetLayout.versionCell, dfcKeySetMinimumCount]
  rcases succ_mod_cases hset with ⟨hlt, hmod⟩ | ⟨heq, hmod⟩
  · have hrow : (set - 1) * L.keyCount + L.keyCount ≤ (L.setCount - 2) * L.keyCount := by
      have hmul := Nat.mul_le_mul_right L.keyCount (show set - 1 + 1 ≤ L.setCount - 2 by omega)
      rwa [Nat.succ_mul] at hmul
    have hnext : (set + 1 - 1) * L.keyCount = (set - 1) * L.keyCount + L.keyCount := by
      rw [← Nat.succ_mul]
      congr 1
      omega
    have hmany : 2 < L.setCount := by omega
    rw [hmod, if_neg (Nat.succ_ne_zero set), if_pos hmany, Mem.write_apply_of_out (by omega),
      Mem.move, if_pos (by omega), hnext]
    congr 1
    omega
  · have hrow : set - 1 = L.setCount - 2 := by omega
    rw [hmod, if_pos rfl, hrow]
    have hcell : L.metadata + (2 * L.setCount + 2 + (L.setCount - 2) * L.keyCount + slot) =
        L.metadata + 2 * L.setCount + 2 + (L.setCount - 2) * L.keyCount + slot := by omega
    have hlt : slot < (m.versions.read 0 L.keyCount).length := by rwa [Mem.length_read]
    rw [hcell, Mem.write_apply_of_lt hlt]
    simp [Mem.read]

/-- The number of octets of a metadata slice. -/
def SetLayout.metadataLength (L : SetLayout) : ℕ :=
  2 * L.setCount + 2 + (L.setCount - 1) * L.keyCount

/-- The sets of `m'` are those of `m` from set `shift` on, and nothing else differs. -/
structure TurnedBy (L : SetLayout) (shift : ℕ) (m m' : SetMems) : Prop where
  version : ∀ set < L.setCount, m'.metadata (L.metadata + set) =
    m.metadata (L.metadata + (set + shift) % L.setCount)
  type : ∀ set < L.setCount, m'.metadata (L.metadata + L.setCount + set) =
    m.metadata (L.metadata + L.setCount + (set + shift) % L.setCount)
  initialized : ∀ set < L.setCount, (m'.mask L).toNat.testBit set =
    (m.mask L).toNat.testBit ((set + shift) % L.setCount)
  keyVersion : ∀ set < L.setCount, ∀ slot < L.keyCount, m'.keyVersion L set slot =
    m.keyVersion L ((set + shift) % L.setCount) slot
  mask : (m'.mask L).toNat < 2 ^ L.setCount
  keys : m'.keys = m.keys
  outside : ∀ a, a < L.metadata ∨ L.metadata + L.metadataLength ≤ a →
    m'.metadata a = m.metadata a
  spare : ∀ slot, L.keyCount ≤ slot → m'.versions slot = m.versions slot

theorem TurnedBy.refl (h : (m.mask L).toNat < 2 ^ L.setCount) : TurnedBy L 0 m m where
  version := fun set hset => by rw [Nat.add_zero, Nat.mod_eq_of_lt hset]
  type := fun set hset => by rw [Nat.add_zero, Nat.mod_eq_of_lt hset]
  initialized := fun set hset => by rw [Nat.add_zero, Nat.mod_eq_of_lt hset]
  keyVersion := fun set hset slot _ => by rw [Nat.add_zero, Nat.mod_eq_of_lt hset]
  mask := h
  keys := rfl
  outside := fun _ _ => rfl
  spare := fun _ _ => rfl

theorem TurnedBy.trans {m' m'' : SetMems} {first second : ℕ} (h : TurnedBy L first m m')
    (h' : TurnedBy L second m' m'') : TurnedBy L (first + second) m m'' := by
  have hmod : ∀ set < L.setCount, (set + second) % L.setCount < L.setCount ∧
      ((set + second) % L.setCount + first) % L.setCount =
        (set + (first + second)) % L.setCount := by
    intro set hset
    refine ⟨Nat.mod_lt _ (by omega), ?_⟩
    rw [Nat.mod_add_mod]
    congr 1
    omega
  refine ⟨?_, ?_, ?_, ?_, h'.mask, h'.keys.trans h.keys, ?_, ?_⟩
  · intro set hset
    rw [h'.version set hset, h.version _ (hmod set hset).1, (hmod set hset).2]
  · intro set hset
    rw [h'.type set hset, h.type _ (hmod set hset).1, (hmod set hset).2]
  · intro set hset
    rw [h'.initialized set hset, h.initialized _ (hmod set hset).1, (hmod set hset).2]
  · intro set hset slot hslot
    rw [h'.keyVersion set hset slot hslot, h.keyVersion _ (hmod set hset).1 slot hslot,
      (hmod set hset).2]
  · exact fun a ha => (h'.outside a ha).trans (h.outside a ha)
  · exact fun slot hslot => (h'.spare slot hslot).trans (h.spare slot hslot)

theorem toNat_rotatedMask (hsets : L.setCount ≤ 16) (hpos : 0 < L.setCount) :
    (m.rotatedMask L).toNat = (m.mask L).toNat >>> 1 |||
      if (m.mask L).toNat.testBit 0 then 2 ^ (L.setCount - 1) else 0 := by
  have hone : (m.mask L &&& 1 != 0) = (m.mask L).toNat.testBit 0 :=
    maskBit_eq (m.mask L) (show 0 < 16 by omega)
  have hshift : (m.mask L >>> 1).toNat = (m.mask L).toNat >>> 1 := by
    rw [UInt16.toNat_shiftRight]
    rfl
  unfold SetMems.rotatedMask
  rw [hone]
  cases (m.mask L).toNat.testBit 0 with
  | true =>
    rw [if_pos rfl, if_pos rfl, UInt16.toNat_or, toNat_setBit (by omega), hshift]
  | false =>
    rw [if_neg Bool.false_ne_true, if_neg Bool.false_ne_true, Nat.or_zero, hshift]

theorem testBit_rotatedMask (hsets : L.setCount ≤ 16)
    (hmask : (m.mask L).toNat < 2 ^ L.setCount) {set : ℕ} (hset : set < L.setCount) :
    (m.rotatedMask L).toNat.testBit set =
      (m.mask L).toNat.testBit ((set + 1) % L.setCount) := by
  rw [toNat_rotatedMask hsets (by omega), Nat.testBit_or, Nat.testBit_shiftRight, Nat.add_comm 1]
  rcases succ_mod_cases hset with ⟨hlt, hmod⟩ | ⟨heq, hmod⟩
  · have hlow : (if (m.mask L).toNat.testBit 0 then 2 ^ (L.setCount - 1) else 0).testBit set =
        false := by
      split_ifs
      · rw [Nat.testBit_two_pow]
        exact decide_eq_false (by omega)
      · exact Nat.zero_testBit set
    rw [hmod, hlow, Bool.or_false]
  · have hhigh : (m.mask L).toNat.testBit (set + 1) = false := by
      rw [heq]
      exact Nat.testBit_lt_two_pow hmask
    have hset : L.setCount - 1 = set := by omega
    rw [hmod, hhigh, hset, Bool.false_or]
    cases (m.mask L).toNat.testBit 0 with
    | true => rw [if_pos rfl, Nat.testBit_two_pow_self]
    | false => rw [if_neg Bool.false_ne_true, Nat.zero_testBit]

theorem rotatedMask_lt (hsets : L.setCount ≤ 16) (hpos : 0 < L.setCount)
    (hmask : (m.mask L).toNat < 2 ^ L.setCount) :
    (m.rotatedMask L).toNat < 2 ^ L.setCount := by
  rw [toNat_rotatedMask hsets hpos]
  refine Nat.or_lt_two_pow ?_ ?_
  · rw [Nat.shiftRight_eq_div_pow]
    exact (Nat.div_le_self _ _).trans_lt hmask
  · split_ifs
    · exact Nat.pow_lt_pow_right (by omega) (by omega)
    · positivity

theorem mask_rotated : (m.rotated L).mask L = m.rotatedMask L := by
  unfold SetMems.mask SetMems.rotated
  have hlow (pool : Mem) (a b : UInt8) : pool.write L.maskCell [a, b] L.maskCell = a := by
    simp [Mem.write]
  have hhigh (pool : Mem) (a b : UInt8) : pool.write L.maskCell [a, b] (L.maskCell + 1) = b := by
    simp [Mem.write]
  dsimp only
  rw [hlow, hhigh, octets_join]

/-- One turn of the metadata. -/
theorem turnedBy_rotated (hsets : dfcKeySetMinimumCount ≤ L.setCount ∧ L.setCount ≤ 16)
    (hmask : (m.mask L).toNat < 2 ^ L.setCount) : TurnedBy L 1 m (m.rotated L) := by
  have hmin : 2 ≤ L.setCount := hsets.1
  have hheads : ∀ a, a < L.metadata + 2 * L.setCount → (m.rotated L).metadata a =
      SetMems.rotatedHeads L (m.rotatedVersions L) a := by
    intro a ha
    exact Mem.write_apply_of_out (Or.inl ha)
  have hbehind : ∀ a, L.metadata + 2 * L.setCount + 2 ≤ a → (m.rotated L).metadata a =
      m.rotatedVersions L a := by
    intro a ha
    have hout : (m.rotated L).metadata a = SetMems.rotatedHeads L (m.rotatedVersions L) a :=
      Mem.write_apply_of_out (Or.inr ha)
    rw [hout, rotatedHeads_above (by omega) (by omega)]
  have hbelow : ∀ set < L.setCount, (set + 1) % L.setCount < L.setCount :=
    fun set _ => Nat.mod_lt _ (by omega)
  refine ⟨?_, ?_, ?_, ?_, ?_, rfl, ?_, ?_⟩
  · intro set hset
    have hnext := hbelow set hset
    rw [hheads _ (by omega), rotatedHeads_version hset, rotatedVersions_below (by omega)]
  · intro set hset
    have hnext := hbelow set hset
    rw [hheads _ (by omega), rotatedHeads_type hset, rotatedVersions_below (by omega)]
  · intro set hset
    rw [mask_rotated, testBit_rotatedMask hsets.2 hmask hset]
  · intro set hset slot hslot
    by_cases hzero : set = 0
    · subst hzero
      have hlt : slot < (m.metadata.read (L.maskCell + 2) L.keyCount).length := by
        rwa [Mem.length_read]
      have hwritten : (m.rotated L).versions slot = m.metadata (L.maskCell + 2 + slot) := by
        have hwrite := @Mem.write_apply_of_lt m.versions 0 slot _ hlt
        rw [Nat.zero_add] at hwrite
        refine hwrite.trans ?_
        simp [Mem.read]
      have hone : (0 + 1) % L.setCount = 1 := Nat.mod_eq_of_lt (by omega)
      rw [SetMems.keyVersion, if_pos rfl, SetMems.keyVersion, hone, if_neg Nat.one_ne_zero,
        hwritten]
      congr 1
      simp only [SetLayout.maskCell, SetLayout.versionCell]
      omega
    · rw [SetMems.keyVersion, if_neg hzero, hbehind _ (by rw [SetLayout.versionCell]; omega),
        rotatedVersions_apply hset (by omega) hslot]
  · rw [mask_rotated]
    exact rotatedMask_lt hsets.2 (by omega) hmask
  · intro a ha
    have hrow : (L.setCount - 1) * L.keyCount = (L.setCount - 2) * L.keyCount + L.keyCount := by
      rw [← Nat.succ_mul]
      congr 1
      omega
    rw [SetLayout.metadataLength, hrow] at ha
    rcases ha with ha | ha
    · rw [hheads _ (by omega), rotatedHeads_below (by omega) ha, rotatedVersions_below (by omega)]
    · rw [hbehind _ (by omega)]
      unfold SetMems.rotatedVersions
      simp only [SetLayout.maskCell, dfcKeySetMinimumCount]
      rw [Mem.write_apply_of_out (by rw [Mem.length_read]; omega)]
      split_ifs
      · exact Mem.move_apply_of_out (by omega)
      · rfl
  · intro slot hslot
    refine Mem.write_apply_of_out (Or.inr ?_)
    rw [Mem.length_read]
    omega

theorem turnedBy_iterate (hsets : dfcKeySetMinimumCount ≤ L.setCount ∧ L.setCount ≤ 16)
    (hmask : (m.mask L).toNat < 2 ^ L.setCount) (turns : ℕ) :
    TurnedBy L turns m ((SetMems.rotated L)^[turns] m) := by
  induction turns with
  | zero => exact TurnedBy.refl hmask
  | succ turns ih =>
    rw [Function.iterate_succ_apply']
    exact ih.trans (turnedBy_rotated hsets ih.mask)

end Metadata

section Records
variable {c : DfcCredential} {i data : ℕ}

/-- The layout of the key sets of an application. -/
def layoutOf (c : DfcCredential) (i : ℕ) : SetLayout where
  keys := (c.apps i).keyOffset
  metadata := (c.apps i).keySetMetadataOffset
  keyCount := (c.apps i).numKeys
  setCount := (c.apps i).numKeySets
  stride := dfcCredentialStoredKeyLength (c.apps i).keyStorageLen

theorem layoutOf_putMems (c : DfcCredential) (i : ℕ) (m : SetMems) :
    layoutOf (putMems c i m) i = layoutOf c i := by
  simp [layoutOf, putMems, DfcCredential.modifyApp]

theorem mask_memsOf (h : dfcKeySetMetadataSlice c (c.apps i) = some data) :
    (memsOf c i).mask (layoutOf c i) = keySetInitializedMask c (c.apps i) data := by
  rw [(keySetMetadataSlice_some h).start]
  rfl

theorem dfcCredentialRotateKeySetMetadata_eq
    (h : dfcKeySetMetadataSlice c (c.apps i) = some data) :
    dfcCredentialRotateKeySetMetadata c i =
      (putMems c i ((memsOf c i).rotated (layoutOf c i)), true) := by
  have hdata := (keySetMetadataSlice_some h).start
  subst hdata
  rw [dfcCredentialRotateKeySetMetadata, h]
  rfl

theorem dfcCredentialRotateKeySetMetadataTimes_eq
    (h : dfcKeySetMetadataSlice c (c.apps i) = some data) (turns : ℕ) :
    dfcCredentialRotateKeySetMetadataTimes c i turns =
      (putMems c i ((SetMems.rotated (layoutOf c i))^[turns] (memsOf c i)), true) := by
  induction turns generalizing c with
  | zero =>
    rw [dfcCredentialRotateKeySetMetadataTimes, Function.iterate_zero, id, putMems_memsOf]
  | succ turns ih =>
    have hnext : dfcKeySetMetadataSlice (putMems c i ((memsOf c i).rotated (layoutOf c i)))
        ((putMems c i ((memsOf c i).rotated (layoutOf c i))).apps i) = some data :=
      (metadataSlice_putMems c i _).trans h
    rw [dfcCredentialRotateKeySetMetadataTimes, dfcCredentialRotateKeySetMetadata_eq h]
    simp only
    rw [ih hnext, memsOf_putMems, putMems_putMems, layoutOf_putMems, Function.iterate_succ_apply]

/-- The octets of all keys turned by a number of sets. -/
def rotatedKeys (c : DfcCredential) (i shift : ℕ) : Mem :=
  dfcRotateKeyBlocksLeft c.keyPool (c.apps i).keyOffset
    ((c.apps i).numKeys * (c.apps i).numKeySets)
    (dfcCredentialStoredKeyLength (c.apps i).keyStorageLen) (shift * (c.apps i).numKeys)

/-- What a roll leaves in the memories of the key sets. -/
def rolledMems (c : DfcCredential) (i shift : ℕ) : SetMems :=
  (SetMems.rotated (layoutOf c i))^[shift] { memsOf c i with keys := rotatedKeys c i shift }

theorem dfcCredentialRollKeySet_eq (h : dfcKeySetMetadataSlice c (c.apps i) = some data)
    {shift : ℕ} (hpos : 0 < shift) (hlt : shift < (c.apps i).numKeySets) :
    dfcCredentialRollKeySet c i shift =
      (let activeType := (rolledMems c i shift).metadata
        ((c.apps i).keySetMetadataOffset + (c.apps i).numKeySets)
      ((putMems c i (rolledMems c i shift)).modifyApp i fun app =>
        { app with
          keyLen := dfcKeySetTypeLength activeType
          keySettings2 := app.keySettings2 &&& ~~~dfcKeyTypeMask |||
            dfcKeyTypeForSetType activeType }, true)) := by
  have hstart := (keySetMetadataSlice_some h).start
  have hkeys : dfcKeySetMetadataSlice { c with keyPool := rotatedKeys c i shift } (c.apps i) =
      some data := h
  have htimes := @dfcCredentialRotateKeySetMetadataTimes_eq
    { c with keyPool := rotatedKeys c i shift } i data hkeys shift
  have hmems : putMems { c with keyPool := rotatedKeys c i shift } i
      ((SetMems.rotated (layoutOf { c with keyPool := rotatedKeys c i shift } i))^[shift]
        (memsOf { c with keyPool := rotatedKeys c i shift } i)) =
          putMems c i (rolledMems c i shift) := rfl
  rw [hmems] at htimes
  have hslice : dfcKeySetMetadataSlice (putMems c i (rolledMems c i shift))
      ((putMems c i (rolledMems c i shift)).apps i) = some data :=
    (metadataSlice_putMems c i _).trans h
  have hsets : ((putMems c i (rolledMems c i shift)).apps i).numKeySets =
      (c.apps i).numKeySets := by simp [putMems, DfcCredential.modifyApp]
  have htype := keySetType_eq hslice (show 0 < _ by rw [hsets]; omega)
  rw [dfcCredentialRollKeySet]
  simp only
  rw [if_neg (by omega), h, Option.isNone_some, if_neg Bool.false_ne_true]
  have hcalled : dfcCredentialRotateKeySetMetadataTimes { c with
      keyPool := dfcRotateKeyBlocksLeft c.keyPool (c.apps i).keyOffset
        ((c.apps i).numKeys * (c.apps i).numKeySets)
        (dfcCredentialStoredKeyLength (c.apps i).keyStorageLen) (shift * (c.apps i).numKeys) }
      i shift = (putMems c i (rolledMems c i shift), true) := htimes
  rw [hcalled]
  simp only
  rw [htype, hsets, Nat.add_zero, hstart]
  rfl

/-- The place of a key in another set. -/
theorem keyIndex_rotate {keyCount setCount set slot shift : ℕ} (hslot : slot < keyCount) :
    (set * keyCount + slot + shift * keyCount) % (keyCount * setCount) =
      (set + shift) % setCount * keyCount + slot := by
  have hsum : set * keyCount + slot + shift * keyCount = slot + keyCount * (set + shift) := by ring
  rw [hsum, Nat.mod_mul, Nat.add_mul_mod_self_left, Nat.mod_eq_of_lt hslot,
    Nat.add_mul_div_left _ _ (by omega), Nat.div_eq_of_lt hslot, Nat.zero_add]
  ring

/-- An application with key sets: its metadata slice is whole, its key slice holds all keys, and
no bit behind its sets is set in the mask. -/
structure HasKeySets (c : DfcCredential) (i : ℕ) : Prop where
  metadata : (dfcKeySetMetadataSlice c (c.apps i)).isSome
  keys : (c.apps i).keyPoolLen = (c.apps i).numKeys * (c.apps i).numKeySets *
    dfcCredentialStoredKeyLength (c.apps i).keyStorageLen
  mask : ((memsOf c i).mask (layoutOf c i)).toNat < 2 ^ (c.apps i).numKeySets

/-- Where the keys of an application's sets are found, if they are found at all. -/
theorem HasKeySets.keyInSet (h : HasKeySets c i) {set slot : ℕ}
    (hset : set < (c.apps i).numKeySets) (hslot : slot < (c.apps i).numKeys) :
    dfcCredentialKeyInSet c (c.apps i) set slot =
      if (c.apps i).keyOffset = dfcKeyPoolNone ∨
          c.keyPoolUsed < (c.apps i).keyOffset + (c.apps i).keyPoolLen then none
      else some ((layoutOf c i).keyCell set slot) := by
  have hindex : set * (c.apps i).numKeys + slot + 1 ≤
      (c.apps i).numKeys * (c.apps i).numKeySets := by
    have hmul := Nat.mul_le_mul_right (c.apps i).numKeys hset
    rw [Nat.succ_mul, Nat.mul_comm (c.apps i).numKeySets] at hmul
    omega
  have hlen := Nat.mul_le_mul_right
    (dfcCredentialStoredKeyLength (c.apps i).keyStorageLen) hindex
  rw [← h.keys] at hlen
  have hstride := storedKeyLength_pos (c.apps i).keyStorageLen
  have hsome : (c.apps i).keyPoolLen ≠ 0 := by
    have hfirst : 0 < (set * (c.apps i).numKeys + slot + 1) *
        dfcCredentialStoredKeyLength (c.apps i).keyStorageLen := by positivity
    omega
  rw [dfcCredentialKeyInSet, if_neg (by omega), dfcCredentialKeyAt]
  by_cases hnone : (c.apps i).keyOffset = dfcKeyPoolNone
  · rw [if_pos (Or.inl hnone), if_pos (Or.inl hnone)]
  · have hplaced : ¬((c.apps i).keyOffset = dfcKeyPoolNone ∨ (c.apps i).keyPoolLen = 0) := by
      rintro (hh | hh)
      · exact hnone hh
      · exact hsome hh
    rw [if_neg hplaced, if_neg (by omega)]
    simp only
    rw [if_neg (by omega)]
    by_cases hused : c.keyPoolUsed < (c.apps i).keyOffset + (c.apps i).keyPoolLen
    · rw [if_pos hused, if_pos (Or.inr hused)]
    · rw [if_neg hused, if_neg (fun hh => hh.elim hnone hused)]
      rfl

/-- What the accessors read of the metadata of a set. -/
theorem HasKeySets.view (h : HasKeySets c i) {set : ℕ} (hset : set < (c.apps i).numKeySets) :
    (∀ slot < (c.apps i).numKeys, (ownerView c (some i)).keyVersionsInSet set slot =
        some ((memsOf c i).keyVersion (layoutOf c i) set slot)) ∧
      (ownerView c (some i)).setVersions set =
        some (c.keySetMetadataPool ((layoutOf c i).metadata + set)) ∧
      (ownerView c (some i)).setTypes set =
        some (c.keySetMetadataPool ((layoutOf c i).metadata + (layoutOf c i).setCount + set)) ∧
      (ownerView c (some i)).initialized set =
        ((memsOf c i).mask (layoutOf c i)).toNat.testBit set := by
  obtain ⟨data, hdata⟩ := Option.isSome_iff_exists.mp h.metadata
  have hslice := keySetMetadataSlice_some hdata
  have hmin : 2 ≤ (c.apps i).numKeySets := hslice.sets
  have hmax : (c.apps i).numKeySets ≤ 16 := hslice.setsMax
  have hstart := hslice.start
  refine ⟨?_, ?_, ?_, ?_⟩
  · intro slot hslot
    show dfcCredentialKeyVersionInSet c (c.apps i) set slot = _
    rw [dfcCredentialKeyVersionInSet, if_neg (by omega), hdata, SetMems.keyVersion, hstart]
    split_ifs <;> rfl
  · show (dfcCredentialKeySetVersion c (c.apps i) set).map _ = _
    rw [keySetVersion_eq hdata hset, hstart]
    rfl
  · show (dfcCredentialKeySetType c (c.apps i) set).map _ = _
    rw [keySetType_eq hdata hset, hstart]
    rfl
  · show dfcCredentialKeySetIsInitialized c (c.apps i) set = _
    rw [dfcCredentialKeySetIsInitialized, if_neg (by omega),
      if_neg (by simp only [dfcKeySetMinimumCount]; omega), hdata]
    simp only
    rw [← mask_memsOf hdata, maskBit_eq _ (by omega)]

/-- The octets of a key of a set. -/
theorem HasKeySets.keysInSet (h : HasKeySets c i) {set slot : ℕ}
    (hset : set < (c.apps i).numKeySets) (hslot : slot < (c.apps i).numKeys) :
    (ownerView c (some i)).keysInSet set slot =
      if (c.apps i).keyOffset = dfcKeyPoolNone ∨
          c.keyPoolUsed < (c.apps i).keyOffset + (c.apps i).keyPoolLen then none
      else some (c.keyPool.read ((layoutOf c i).keyCell set slot) (layoutOf c i).stride) := by
  show (dfcCredentialKeyInSet c (c.apps i) set slot).map _ = _
  rw [h.keyInSet hset hslot]
  split_ifs <;> rfl

/-- What a roll changes of a credential. -/
structure Rolled (c : DfcCredential) (i shift : ℕ) (c' : DfcCredential) : Prop where
  turned : TurnedBy (layoutOf c i) shift { memsOf c i with keys := rotatedKeys c i shift }
    (memsOf c' i)
  layout : layoutOf c' i = layoutOf c i
  slice : dfcKeySetMetadataSlice c' (c'.apps i) = dfcKeySetMetadataSlice c (c.apps i)
  keyPoolLen : (c'.apps i).keyPoolLen = (c.apps i).keyPoolLen
  others : ∀ j, j ≠ i → c'.apps j = c.apps j
  frame : c' = { c with
    apps := c'.apps, keyPool := c'.keyPool, keySetMetadataPool := c'.keySetMetadataPool }

theorem HasKeySets.rolled (h : HasKeySets c i) {shift : ℕ} (hpos : 0 < shift)
    (hlt : shift < (c.apps i).numKeySets) :
    Rolled c i shift (dfcCredentialRollKeySet c i shift).1 ∧
      (dfcCredentialRollKeySet c i shift).2 = true := by
  obtain ⟨data, hdata⟩ := Option.isSome_iff_exists.mp h.metadata
  have hslice := keySetMetadataSlice_some hdata
  have hturned : TurnedBy (layoutOf c i) shift
      { memsOf c i with keys := rotatedKeys c i shift } (rolledMems c i shift) :=
    @turnedBy_iterate _ { memsOf c i with keys := rotatedKeys c i shift }
      ⟨hslice.sets, hslice.setsMax⟩ h.mask shift
  rw [dfcCredentialRollKeySet_eq hdata hpos hlt]
  refine ⟨⟨?_, ?_, ?_, ?_, ?_, ?_⟩, rfl⟩
  · have hmems : memsOf ((putMems c i (rolledMems c i shift)).modifyApp i fun app =>
        { app with
          keyLen := dfcKeySetTypeLength ((rolledMems c i shift).metadata
            ((c.apps i).keySetMetadataOffset + (c.apps i).numKeySets))
          keySettings2 := app.keySettings2 &&& ~~~dfcKeyTypeMask |||
            dfcKeyTypeForSetType ((rolledMems c i shift).metadata
              ((c.apps i).keySetMetadataOffset + (c.apps i).numKeySets)) }) i =
        rolledMems c i shift := by
      simp [memsOf, putMems, DfcCredential.modifyApp]
    rw [hmems]
    exact hturned
  · simp [layoutOf, putMems, DfcCredential.modifyApp]
  · simp [putMems, DfcCredential.modifyApp, dfcKeySetMetadataSlice]
  · simp [putMems, DfcCredential.modifyApp]
  · intro j hj
    simp [putMems, DfcCredential.modifyApp, hj]
  · rfl

theorem Rolled.hasKeySets {c' : DfcCredential} {shift : ℕ} (h : Rolled c i shift c')
    (hc : HasKeySets c i) : HasKeySets c' i where
  metadata := by rw [h.slice]; exact hc.metadata
  keys := by
    have hkeys : (layoutOf c' i).keyCount = (layoutOf c i).keyCount := by rw [h.layout]
    have hsets : (layoutOf c' i).setCount = (layoutOf c i).setCount := by rw [h.layout]
    have hstride : (layoutOf c' i).stride = (layoutOf c i).stride := by rw [h.layout]
    simp only [layoutOf] at hkeys hsets hstride
    rw [h.keyPoolLen, hkeys, hsets, hstride, hc.keys]
  mask := by
    have hsets : (layoutOf c' i).setCount = (layoutOf c i).setCount := by rw [h.layout]
    simp only [layoutOf] at hsets
    rw [h.layout, hsets]
    exact h.turned.mask

/-- The keys of all sets are turned by a roll. -/
theorem Rolled.keysInSet {c' : DfcCredential} {shift : ℕ} (h : Rolled c i shift c')
    (hc : HasKeySets c i) (hpos : 0 < shift) (hlt : shift < (c.apps i).numKeySets)
    {set slot : ℕ} (hset : set < (c.apps i).numKeySets) (hslot : slot < (c.apps i).numKeys) :
    (ownerView c' (some i)).keysInSet set slot =
      (ownerView c (some i)).keysInSet ((set + shift) % (c.apps i).numKeySets) slot := by
  have hnext : (set + shift) % (c.apps i).numKeySets < (c.apps i).numKeySets :=
    Nat.mod_lt _ (by omega)
  have hoffset : (c'.apps i).keyOffset = (c.apps i).keyOffset :=
    congrArg SetLayout.keys h.layout
  have hkeys : (c'.apps i).numKeys = (c.apps i).numKeys := congrArg SetLayout.keyCount h.layout
  have hsets : (c'.apps i).numKeySets = (c.apps i).numKeySets :=
    congrArg SetLayout.setCount h.layout
  have hused : c'.keyPoolUsed = c.keyPoolUsed := by rw [h.frame]
  have hpool : c'.keyPool = rotatedKeys c i shift := h.turned.keys
  rw [(h.hasKeySets hc).keysInSet (hsets ▸ hset) (hkeys ▸ hslot), hc.keysInSet hnext hslot,
    hoffset, h.keyPoolLen, hused, h.layout, hpool]
  congr 2
  -- among all keys of the application this is a rotation by whole sets
  have hshift : shift * (c.apps i).numKeys <
      (c.apps i).numKeys * (c.apps i).numKeySets := by
    rw [Nat.mul_comm]
    exact Nat.mul_lt_mul_of_pos_left hlt (by omega)
  have hindex : set * (c.apps i).numKeys + slot <
      (c.apps i).numKeys * (c.apps i).numKeySets := by
    have hmul := Nat.mul_le_mul_right (c.apps i).numKeys hset
    rw [Nat.succ_mul, Nat.mul_comm (c.apps i).numKeySets] at hmul
    omega
  have hread := @read_dfcRotateKeyBlocksLeft (c.apps i).keyOffset _
    (dfcCredentialStoredKeyLength (c.apps i).keyStorageLen) _ c.keyPool
    (Nat.mul_pos hpos (by omega)) hshift _ hindex
  rw [keyIndex_rotate hslot] at hread
  exact hread

/-- A roll writes the key pool inside the application's key slice only. -/
theorem Rolled.keyPool_outside {c' : DfcCredential} {shift : ℕ} (h : Rolled c i shift c')
    (hc : HasKeySets c i) {a : ℕ}
    (ha : a < (c.apps i).keyOffset ∨
      (c.apps i).keyOffset + (c.apps i).keyPoolLen ≤ a) : c'.keyPool a = c.keyPool a := by
  obtain ⟨data, hdata⟩ := Option.isSome_iff_exists.mp hc.metadata
  have hslice := keySetMetadataSlice_some hdata
  have hmin : 2 ≤ (c.apps i).numKeySets := hslice.sets
  have hpool : c'.keyPool = rotatedKeys c i shift := h.turned.keys
  rw [hpool, rotatedKeys]
  refine rotateKeyBlocksLeft_out (Nat.mul_pos hslice.keys (by omega)) ?_
  rw [← hc.keys]
  exact ha

/-- A roll writes the metadata pool inside the application's metadata slice only. -/
theorem Rolled.metadataPool_outside {c' : DfcCredential} {shift : ℕ} (h : Rolled c i shift c')
    (hc : HasKeySets c i) {a : ℕ}
    (ha : a < (c.apps i).keySetMetadataOffset ∨
      (c.apps i).keySetMetadataOffset + (c.apps i).keySetMetadataLen ≤ a) :
    c'.keySetMetadataPool a = c.keySetMetadataPool a := by
  obtain ⟨data, hdata⟩ := Option.isSome_iff_exists.mp hc.metadata
  rw [(keySetMetadataSlice_some hdata).len] at ha
  exact h.turned.outside a ha

/-- A roll leaves every other owner of keys what it has. -/
theorem Rolled.sameOwner {z : Prop} {n : ℕ} {c' : DfcCredential} {shift : ℕ}
    (h : Rolled c i shift c') (hc : HasKeySets c i) (hinv : PoolCore z n c) (hi : i < n)
    {q : Option ℕ} (hq : q ∈ keyOwners n) (hqi : q ≠ some i) : SameOwner c c' q q := by
  obtain ⟨data, hdata⟩ := Option.isSome_iff_exists.mp hc.metadata
  have hslice := keySetMetadataSlice_some hdata
  have hmin : 2 ≤ (c.apps i).numKeySets := hslice.sets
  have hown : keyPoolLenOf c (some i) ≠ 0 := by
    show (c.apps i).keyPoolLen ≠ 0
    have hstride := storedKeyLength_pos (c.apps i).keyStorageLen
    rw [hc.keys]
    exact Nat.mul_ne_zero (Nat.mul_ne_zero hslice.keys.ne' (by omega)) hstride.ne'
  have hkeys : ∀ off, keyOffsetOf c q = off → c'.keyPool.read off (keyPoolLenOf c q) =
      c.keyPool.read off (keyPoolLenOf c q) := by
    rintro off rfl
    by_cases hempty : keyPoolLenOf c q = 0
    · rw [hempty]
      rfl
    have hdisjoint := hinv.keys.packed.disjoint (some i) ((some_mem_keyOwners n i).mpr hi) q hq
      (Ne.symm hqi) hown hempty
    refine Mem.read_congr fun k hk => h.keyPool_outside hc ?_
    simp only [keyOffsetOf, keyPoolLenOf] at hdisjoint hk ⊢
    omega
  cases q with
  | none =>
    refine ⟨⟨?_, ?_⟩, ?_, ?_, ?_⟩
    · rw [h.frame]
      rfl
    · have hoffset : keyOffsetOf c' none = keyOffsetOf c none := by
        rw [h.frame]
        rfl
      rw [hoffset]
      exact hkeys _ rfl
    all_goals
      rw [h.frame]
  | some j =>
    have hji : j ≠ i := fun heq => hqi (by rw [heq])
    have hj : j < n := (some_mem_keyOwners n j).mp hq
    have hsame := h.others j hji
    refine ⟨⟨?_, ?_⟩, ?_, ?_⟩
    · show (c'.apps j).keyPoolLen = _
      rw [hsame]
      rfl
    · have hoffset : keyOffsetOf c' (some j) = keyOffsetOf c (some j) := by
        show (c'.apps j).keyOffset = _
        rw [hsame]
        rfl
      rw [hoffset]
      exact hkeys _ rfl
    · rw [hsame]
    · rw [hsame]
      by_cases hempty : (c.apps j).keySetMetadataLen = 0
      · rw [hempty]
        rfl
      have hdisjoint := hinv.metadata.packed.disjoint i (Finset.mem_range.mpr hi) j
        (Finset.mem_range.mpr hj) (Ne.symm hji) hslice.len_ne_zero hempty
      exact Mem.read_congr fun k hk => h.metadataPool_outside hc (by omega)

end Records

/-- Rolling to set `shift` turns the sets of an application by `shift`: the octets of its keys,
their versions, and the version, type and initialized bit of each set. The walks over the key
blocks end by themselves, and nothing but the application's own record and slices changes. -/
theorem dfcCredentialRollKeySet_rotates (c : DfcCredential) (i shift : ℕ) (hc : HasKeySets c i)
    (hpos : 0 < shift) (hlt : shift < (c.apps i).numKeySets) :
    let app := c.apps i
    let c' := (dfcCredentialRollKeySet c i shift).1
    let blocks := app.numKeys * app.numKeySets
    let width := dfcCredentialStoredKeyLength app.keyStorageLen
    (dfcCredentialRollKeySet c i shift).2 = true ∧
    (dfcGreatestCommonDivisor blocks (shift * app.numKeys) =
        Nat.gcd blocks (shift * app.numKeys) ∧
      ∀ (m : Mem) (cycle fuel : ℕ), cycle < Nat.gcd blocks (shift * app.numKeys) →
        blocks ≤ fuel →
        let walk := dfcRotateCycle m app.keyOffset blocks width (shift * app.numKeys) cycle
        ((walk fuel cycle).2 + shift * app.numKeys) % blocks = cycle ∧
          walk fuel cycle = walk blocks cycle) ∧
    (∀ set < app.numKeySets,
      (∀ slot < app.numKeys,
        (ownerView c' (some i)).keysInSet set slot =
            (ownerView c (some i)).keysInSet ((set + shift) % app.numKeySets) slot ∧
          (ownerView c' (some i)).keyVersionsInSet set slot =
            (ownerView c (some i)).keyVersionsInSet ((set + shift) % app.numKeySets) slot) ∧
      (ownerView c' (some i)).setVersions set =
        (ownerView c (some i)).setVersions ((set + shift) % app.numKeySets) ∧
      (ownerView c' (some i)).setTypes set =
        (ownerView c (some i)).setTypes ((set + shift) % app.numKeySets) ∧
      (ownerView c' (some i)).initialized set =
        (ownerView c (some i)).initialized ((set + shift) % app.numKeySets)) ∧
    (∀ a, a < app.keyOffset ∨ app.keyOffset + app.keyPoolLen ≤ a →
      c'.keyPool a = c.keyPool a) ∧
    (∀ a, a < app.keySetMetadataOffset ∨ app.keySetMetadataOffset + app.keySetMetadataLen ≤ a →
      c'.keySetMetadataPool a = c.keySetMetadataPool a) ∧
    c'.filePool = c.filePool ∧ (∀ j, j ≠ i → c'.apps j = c.apps j) ∧
    ∀ (z : Prop) (n : ℕ), PoolInv z n c → i < n → ∀ q ∈ keyOwners n, q ≠ some i →
      ownerView c' q = ownerView c q := by
  intro app c' blocks width
  obtain ⟨data, hdata⟩ := Option.isSome_iff_exists.mp hc.metadata
  have hslice := keySetMetadataSlice_some hdata
  obtain ⟨hrolled, hanswer⟩ := hc.rolled hpos hlt
  have hblocks : 0 < blocks := Nat.mul_pos hslice.keys (Nat.zero_lt_of_lt hlt)
  have hkeys : (c'.apps i).numKeys = app.numKeys := congrArg SetLayout.keyCount hrolled.layout
  have hsets : (c'.apps i).numKeySets = app.numKeySets :=
    congrArg SetLayout.setCount hrolled.layout
  refine ⟨hanswer, ⟨dfcGreatestCommonDivisor_eq _ _, ?_⟩, ?_, ?_, ?_, ?_, hrolled.others, ?_⟩
  · intro m cycle fuel hcycle hfuel
    exact dfcRotateCycle_stops m (hcycle.trans_le (Nat.gcd_le_left _ hblocks)) hfuel
  · intro set hset
    have hnext : (set + shift) % app.numKeySets < app.numKeySets :=
      Nat.mod_lt _ (Nat.zero_lt_of_lt hset)
    obtain ⟨hversions', hversion', htype', hbit'⟩ :=
      (hrolled.hasKeySets hc).view (hsets.symm ▸ hset)
    obtain ⟨hversions, hversion, htype, hbit⟩ := hc.view hnext
    rw [hrolled.layout] at hversion' htype' hbit'
    refine ⟨fun slot hslot => ⟨hrolled.keysInSet hc hpos hlt hset hslot, ?_⟩, ?_, ?_, ?_⟩
    · rw [hversions' slot (hkeys.symm ▸ hslot), hversions slot hslot, hrolled.layout]
      exact congrArg some (hrolled.turned.keyVersion set hset slot hslot)
    · rw [hversion', hversion]
      exact congrArg some (hrolled.turned.version set hset)
    · rw [htype', htype]
      exact congrArg some (hrolled.turned.type set hset)
    · rw [hbit', hbit]
      exact hrolled.turned.initialized set hset
  · exact fun a ha => hrolled.keyPool_outside hc ha
  · exact fun a ha => hrolled.metadataPool_outside hc ha
  · show (dfcCredentialRollKeySet c i shift).1.filePool = _
    rw [hrolled.frame]
  · intro z n hinv hi q hq hqi
    exact (hrolled.sameOwner hc hinv.toPoolCore hi hq hqi).ownerView_eq hinv.toPoolCore
      (hinv.rollKeySet hi shift).toPoolCore hq hq

/-- An application with three sets of two keys whose second set is version 7. -/
def threeSets : DfcCredential :=
  let c := poolRun [.createApplication (fun _ => 1) 0x0F 0x82, .keySetsResize 0 3 2 16 16]
  { c with keySetMetadataPool := c.keySetMetadataPool.write 1 [7] }

/-- Rolled to its second set, it has version 7 in front. -/
theorem dfcCredentialRollKeySet_rotates_threeSets :
    HasKeySets threeSets 0 ∧
      (ownerView (dfcCredentialRollKeySet threeSets 0 1).1 (some 0)).setVersions 0 =
        some 7 := by
  have hkeySets : HasKeySets threeSets 0 :=
    ⟨by decide +kernel, by decide +kernel, by decide +kernel⟩
  have hrotates := dfcCredentialRollKeySet_rotates threeSets 0 1 hkeySets (by decide)
    (by decide +kernel)
  refine ⟨hkeySets, (hrotates.2.2.1 0 (by decide +kernel)).2.1.trans ?_⟩
  decide +kernel

end DfcCore
