import DfcCore.DerEncode

/-!
# The size of an encoding

A component takes at most four octets more than its body. Keys and contents are paid for by the
pools they stand in: a stored key octet by six octets of the encoding, an octet of a file by
three, since a record of one octet takes three. With the numbers of files and applications this
keeps the encoding of every credential that is valid below the limit of the format.
-/
namespace DfcCore
open Der

theorem length_encLen_le (n : ℕ) : (encLen n).length ≤ 3 := by
  unfold encLen
  split_ifs <;> simp

theorem length_encTlv_le (tag : UInt8) (body : Slice) :
    (encTlv tag body).length ≤ body.length + 4 := by
  have hlen := length_encLen_le body.length
  rw [encTlv, List.length_cons, List.length_append]
  omega

/-- What a component takes at most. -/
def fieldCost : Option Slice → ℕ
  | none => 0
  | some body => body.length + 4

theorem length_optTlv_le (tag : UInt8) (field : Option Slice) :
    (optTlv tag field).length ≤ fieldCost field := by
  cases field with
  | none => exact le_rfl
  | some body => exact length_encTlv_le tag body

def componentsCost (components : Components) : ℕ := (components.map fun p => fieldCost p.2).sum

theorem length_encFields_le (components : Components) :
    (encFields components).length ≤ componentsCost components := by
  induction components with
  | nil => exact le_rfl
  | cons p components ih =>
    have hfirst := length_optTlv_le p.1 p.2
    rw [encFields] at ih
    rw [encFields, List.flatMap_cons, List.length_append, componentsCost, List.map_cons,
      List.sum_cons]
    exact Nat.add_le_add hfirst ih

/-- Bounds of the components add up. -/
theorem componentsCost_le {components : Components} {bounds : List ℕ}
    (h : List.Forall₂ (fun p bound => fieldCost p.2 ≤ bound) components bounds) :
    componentsCost components ≤ bounds.sum := by
  induction h with
  | nil => exact le_rfl
  | cons hfirst _ ih =>
    rw [componentsCost] at ih
    rw [componentsCost, List.map_cons, List.sum_cons, List.sum_cons]
    exact Nat.add_le_add hfirst ih

theorem length_encItems_le (items : List Tlv) :
    (encItems items).length ≤ (items.map fun item => item.body.length + 4).sum := by
  induction items with
  | nil => exact le_rfl
  | cons item items ih =>
    rw [encItems] at ih
    rw [encItems, List.flatMap_cons, List.length_append, List.map_cons, List.sum_cons]
    exact Nat.add_le_add (length_encTlv_le item.tag item.body) ih

/-- A list of sequences, one for each entry. -/
theorem length_sequenceItems_le {α : Type} (entries : List α) (components : α → Components) :
    (encItems (entries.map fun a => sequenceItem (components a))).length ≤
      (entries.map fun a => componentsCost (components a) + 4).sum := by
  refine (length_encItems_le _).trans ?_
  rw [List.map_map]
  refine List.sum_le_sum fun a _ => ?_
  exact Nat.add_le_add_right (length_encFields_le (components a)) 4

section Fields
variable (v : ℤ) (b : UInt8) (flag : Bool) (body : Slice)

theorem fieldCost_some : fieldCost (some body) = body.length + 4 := rfl

theorem fieldCost_int : fieldCost (intField v) ≤ 12 := by
  have hlen := length_encInt_le v
  rw [intField, fieldCost_some]
  omega

theorem fieldCost_octet : fieldCost (octetField b) = 5 := rfl

theorem fieldCost_bool : fieldCost (boolField flag) = 5 := rfl

theorem fieldCost_defaultFalse : fieldCost (defaultFalseField flag) ≤ 5 := by
  cases flag with
  | true => exact le_rfl
  | false => exact Nat.zero_le 5

theorem fieldCost_nonempty : fieldCost (nonemptyField body) ≤ body.length + 4 := by
  unfold nonemptyField
  split_ifs
  · exact Nat.zero_le _
  · exact le_rfl

theorem fieldCost_whenSet : fieldCost (whenSet flag body) ≤ body.length + 4 := by
  cases flag with
  | true => exact le_rfl
  | false => exact Nat.zero_le _

theorem fieldCost_map {α : Type} {f : α → Slice} {bound : ℕ} (h : ∀ a, (f a).length + 4 ≤ bound)
    (o : Option α) : fieldCost (o.map f) ≤ bound := by
  cases o with
  | none => exact Nat.zero_le _
  | some a => exact h a

theorem fieldCost_mapInt {α : Type} (f : α → ℤ) (o : Option α) :
    fieldCost (o.map fun a => encInt (f a)) ≤ 12 := by
  refine fieldCost_map (fun a => ?_) o
  have hlen := length_encInt_le (f a)
  omega

end Fields

theorem keyComponents_cost (slot : ℕ) (k : KeyImage) :
    componentsCost (keyComponents slot k) ≤ k.value.length + 21 := by
  have hslot := fieldCost_int slot
  simp only [componentsCost, keyComponents, List.map_cons, List.map_nil, List.sum_cons,
    List.sum_nil, fieldCost_some, fieldCost_octet]
  omega

theorem length_encKeys_le {keys : List KeyImage} {width : ℕ}
    (h : ∀ k ∈ keys, k.value.length ≤ width) :
    (encKeys keys).length ≤ keys.length * (width + 25) := by
  have hfrom : ∀ (n : ℕ), (encItems (keyItems n keys)).length ≤ keys.length * (width + 25) := by
    induction keys with
    | nil => exact fun n => Nat.zero_le _
    | cons k keys ih =>
      intro n
      rw [List.forall_mem_cons] at h
      have hrest := ih h.2 (n + 1)
      have hkey := (length_encFields_le (keyComponents n k)).trans (keyComponents_cost n k)
      have htlv := length_encTlv_le Tag.sequence (encFields (keyComponents n k))
      rw [encItems] at hrest
      rw [keyItems, encItems, List.flatMap_cons, List.length_append, List.length_cons,
        Nat.succ_mul]
      have hitem : (sequenceItem (keyComponents n k)).tag = Tag.sequence ∧
          (sequenceItem (keyComponents n k)).body = encFields (keyComponents n k) := ⟨rfl, rfl⟩
      rw [hitem.1, hitem.2]
      have hwidth := h.1
      omega
  exact hfrom 0

theorem keySetComponents_cost {n : ℕ} {s : KeySetImage} {width : ℕ}
    (h : ∀ k ∈ s.keys, k.value.length ≤ width) :
    componentsCost (keySetComponents n s) ≤ s.keys.length * (width + 25) + 38 := by
  have hnumber := fieldCost_int n
  have htype := fieldCost_int s.type.toNat
  have hkeys := length_encKeys_le h
  simp only [componentsCost, keySetComponents, List.map_cons, List.map_nil, List.sum_cons,
    List.sum_nil, fieldCost_some, fieldCost_octet, fieldCost_bool]
  omega

theorem length_keySetItems_le {sets : List KeySetImage} {count width : ℕ}
    (h : ∀ s ∈ sets, s.keys.length = count ∧ ∀ k ∈ s.keys, k.value.length ≤ width) (n : ℕ) :
    (encItems (keySetItems n sets)).length ≤ sets.length * (count * (width + 25) + 42) := by
  induction sets generalizing n with
  | nil => exact Nat.zero_le _
  | cons s sets ih =>
    rw [List.forall_mem_cons] at h
    obtain ⟨⟨hcount, hwidth⟩, hsets⟩ := h
    have hrest := ih hsets (n + 1)
    have hcost := @keySetComponents_cost n s width hwidth
    have hset := (length_encFields_le (keySetComponents n s)).trans hcost
    have htlv := length_encTlv_le Tag.sequence (encFields (keySetComponents n s))
    rw [encItems] at hrest
    rw [keySetItems, encItems, List.flatMap_cons, List.length_append, List.length_cons,
      Nat.succ_mul]
    have hitem : (sequenceItem (keySetComponents n s)).tag = Tag.sequence ∧
        (sequenceItem (keySetComponents n s)).body = encFields (keySetComponents n s) := ⟨rfl, rfl⟩
    rw [hitem.1, hitem.2]
    rw [hcount] at hset
    omega

section Files
variable {c : DfcCredential}

theorem sdmComponents_cost (s : SdmImage) : componentsCost (sdmComponents s) ≤ 119 := by
  have hoffset : ∀ v : Option UInt32, fieldCost (offsetField v) ≤ 12 :=
    fun v => fieldCost_mapInt (fun v : UInt32 => (v.toNat : ℤ)) v
  have hrights : fieldCost (some (u16Octets s.accessRights)) ≤ 6 := le_rfl
  exact @componentsCost_le (sdmComponents s) [5, 6, 12, 12, 12, 12, 12, 12, 12, 12, 12]
    (.cons (fieldCost_octet _).le (.cons hrights (.cons (hoffset _)
    (.cons (hoffset _) (.cons (hoffset _) (.cons (hoffset _) (.cons (hoffset _)
    (.cons (hoffset _) (.cons (hoffset _) (.cons (hoffset _)
    (.cons (fieldCost_int _) .nil)))))))))))

/-- A record takes at most three octets for each of its own. -/
theorem length_encTlv_record (tag : UInt8) {body : Slice} (h : 0 < body.length) :
    (encTlv tag body).length ≤ 3 * body.length := by
  rw [encTlv, List.length_cons, List.length_append]
  unfold encLen
  split_ifs
  all_goals
    simp only [List.length_cons, List.length_nil]
    omega

theorem length_recordItems_le {records : List Slice} {size : ℕ} (hsize : 0 < size)
    (h : ∀ r ∈ records, r.length = size) :
    (encItems (recordItems records)).length ≤ 3 * (records.length * size) := by
  induction records with
  | nil => exact Nat.zero_le _
  | cons r records ih =>
    rw [List.forall_mem_cons] at h
    have hrest := ih h.2
    have hrecord := length_encTlv_record Tag.octets (show 0 < r.length by rw [h.1]; exact hsize)
    have hlength := h.1
    have hmul : (records.length + 1) * size = records.length * size + size := Nat.succ_mul ..
    have hcons : encItems (recordItems (r :: records)) =
        encTlv Tag.octets r ++ encItems (recordItems records) := rfl
    rw [hcons, List.length_append, List.length_cons, hmul]
    omega

theorem storedRecords_mul_le (f : DfcFile) :
    storedRecords f * f.state.record.size ≤ f.dataLen := by
  have hall : storedRecords f ≤ f.dataLen / f.state.record.size := by
    unfold storedRecords
    by_cases hzero : f.state.record.size = 0
    · simp [hzero]
    · simp only [if_neg hzero]
      split_ifs <;> omega
  exact (Nat.mul_le_mul_right _ hall).trans (Nat.div_mul_le_self _ _)

/-- The contents of a file are paid for by its slice. -/
theorem contentsComponents_cost (f : DfcFile) :
    componentsCost (contentsComponents (contentsImage c f)) ≤ 3 * f.dataLen + 74 := by
  have hknown : (knownContents c f).length ≤ f.dataLen := by
    unfold knownContents
    split
    · rw [Mem.length_read]
    · exact Nat.zero_le _
  unfold contentsImage
  split_ifs
  · have hsize := fieldCost_int f.state.data.declaredSize
    have hfield := fieldCost_nonempty (knownContents c f)
    simp only [componentsCost, contentsComponents, List.map_cons, List.map_nil, List.sum_cons,
      List.sum_nil, fieldCost_bool]
    omega
  · have hlower := fieldCost_int f.state.value.lowerLimit.toInt
    have hupper := fieldCost_int f.state.value.upperLimit.toInt
    have hcurrent := fieldCost_int f.state.value.current.toInt
    have hlimit := fieldCost_mapInt (fun v : Int32 => v.toInt)
      (whenSet (f.state.value.limitedCreditValue != 0) f.state.value.limitedCreditValue)
    simp only [componentsCost, contentsComponents, List.map_cons, List.map_nil, List.sum_cons,
      List.sum_nil, fieldCost_octet]
    omega
  · have hsize := fieldCost_int f.state.record.size
    have hmax := fieldCost_int f.state.record.maxRecords
    have hcount := fieldCost_int f.state.record.count
    have hrecords : (encItems (recordItems ((List.range (storedRecords f)).map fun i =>
        c.filePool.read ((dfcFileData c f).getD 0 + i * f.state.record.size)
          f.state.record.size))).length ≤ 3 * f.dataLen := by
      have hstored := storedRecords_mul_le f
      by_cases hzero : f.state.record.size = 0
      · have hnone : storedRecords f = 0 := by simp [storedRecords, hzero]
        rw [hnone]
        exact Nat.zero_le _
      · refine (length_recordItems_le (Nat.pos_of_ne_zero hzero) ?_).trans ?_
        · intro r hr
          obtain ⟨i, -, rfl⟩ := List.mem_map.mp hr
          exact Mem.length_read ..
        · rw [List.length_map, List.length_range]
          omega
    simp only [componentsCost, contentsComponents, List.map_cons, List.map_nil, List.sum_cons,
      List.sum_nil, fieldCost_bool, fieldCost_some]
    omega
  · have hcounter := fieldCost_int f.state.transactionMac.counter.toNat
    simp only [componentsCost, contentsComponents, List.map_cons, List.map_nil, List.sum_cons,
      List.sum_nil, fieldCost_octet, fieldCost_some, Mem.length_read]
    omega

theorem encFields_append (a b : Components) : encFields (a ++ b) = encFields a ++ encFields b := by
  simp [encFields]

theorem length_fileComponents_le (f : DfcFile) :
    (encFields (fileComponents (fileImage c f))).length ≤ 3 * f.dataLen + 242 := by
  have hnumber := fieldCost_int f.number.toNat
  have htype := fieldCost_int f.type.toNat
  have hrights : fieldCost (some (u16Octets f.accessRights)) ≤ 6 := le_rfl
  have hiso : fieldCost ((whenSet f.hasIsoFileId f.isoFileId).map u16Octets) ≤ 6 :=
    fieldCost_map (fun _ => show 2 + 4 ≤ 6 by omega) _
  have hcontents := (length_encTlv_le (contentsImage c f).tag
    (encFields (contentsComponents (contentsImage c f)))).trans
      (Nat.add_le_add_right ((length_encFields_le _).trans (contentsComponents_cost f)) 4)
  have hsdm : fieldCost ((whenSet (dfcFileSdmFlagIsSet f .enabled) (sdmImage f)).map
      fun s => encFields (sdmComponents s)) ≤ 123 := by
    refine fieldCost_map (fun s => ?_) _
    have hlen := (length_encFields_le (sdmComponents s)).trans (sdmComponents_cost s)
    omega
  have hhead := @componentsCost_le
    [(Tag.fileNumber, intField f.number.toNat), (Tag.fileType, intField f.type.toNat),
      (Tag.fileComm, octetField f.commSettings), (Tag.fileRights, some (u16Octets f.accessRights)),
      (Tag.fileIsoFid, (whenSet f.hasIsoFileId f.isoFileId).map u16Octets)] [12, 12, 5, 6, 6]
    (.cons hnumber (.cons htype (.cons (fieldCost_octet _).le (.cons hrights (.cons hiso .nil)))))
  have htail := @componentsCost_le
    [(Tag.fileSdm, (whenSet (dfcFileSdmFlagIsSet f .enabled) (sdmImage f)).map
      fun s => encFields (sdmComponents s))] [123] (.cons hsdm .nil)
  unfold fileComponents
  rw [encFields_append, encFields_append, encFields_contentsAlternatives, List.length_append,
    List.length_append]
  calc _ ≤ 41 + (3 * f.dataLen + 74 + 4) + 123 :=
        Nat.add_le_add (Nat.add_le_add ((length_encFields_le _).trans hhead) hcontents)
          ((length_encFields_le _).trans htail)
    _ = 3 * f.dataLen + 242 := by omega

/-- What the files of an owner take. -/
theorem length_filesOf_le (owner : ℕ) :
    (encItems (fileItems ((filesOf c owner).map (fileImage c)))).length ≤
      ((filesOf c owner).map fun f => 3 * f.dataLen + 246).sum := by
  refine (length_encItems_le _).trans ?_
  rw [fileItems, List.map_map, List.map_map]
  refine List.sum_le_sum fun f _ => ?_
  exact Nat.add_le_add_right (length_fileComponents_le f) 4

end Files

section Owners
variable {c : DfcCredential}

theorem delegatedComponents_cost (d : DelegatedImage) :
    componentsCost (delegatedComponents d) ≤ 46 := by
  have hslot := fieldCost_int d.slotNumber.toNat
  have hquota := fieldCost_int d.quotaLimit.toNat
  have hfree := fieldCost_int d.freeBlocks.toNat
  have hformat := fieldCost_defaultFalse d.formatDisabled
  simp only [componentsCost, delegatedComponents, List.map_cons, List.map_nil, List.sum_cons,
    List.sum_nil, fieldCost_octet]
  omega

/-- The keys of a list are paid for by their slice. -/
theorem length_keyListImage_le (app : Option ℕ)
    (h : keyPoolLenOf c app = numKeysOf c app * dfcCredentialStoredKeyLength (keyLenOf c app)) :
    (encKeys (keyListImage c app)).length ≤ 6 * keyPoolLenOf c app := by
  have hkeys := @length_encKeys_le (keyListImage c app)
    (dfcCredentialStoredKeyLength (keyLenOf c app)) (by
      intro k hk
      obtain ⟨slot, -, rfl⟩ := List.mem_map.mp hk
      exact (Mem.length_read ..).le)
  have hcount : (keyListImage c app).length = numKeysOf c app := by
    rw [keyListImage, List.length_map, List.length_range]
  rw [hcount] at hkeys
  have hstride : 16 ≤ dfcCredentialStoredKeyLength (keyLenOf c app) := by
    unfold dfcCredentialStoredKeyLength
    split_ifs <;> omega
  refine hkeys.trans ?_
  rw [h, Nat.mul_left_comm]
  exact Nat.mul_le_mul_left _ (by omega)

/-- So are the keys of key sets and the heads of the sets. -/
theorem length_keySetImages_le {app : DfcApplication} {width : ℕ} (hkeys : 0 < app.numKeys)
    (hstride : 16 ≤ width)
    (htype : ∀ set < app.numKeySets, dfcKeySetTypeLength
      (c.keySetMetadataPool ((dfcCredentialKeySetType c app set).getD 0)) ≤ width) :
    (encItems (keySetItems 0 ((List.range app.numKeySets).map (keySetImage c app)))).length ≤
      6 * (app.numKeys * app.numKeySets * width) := by
  have hsets := @length_keySetItems_le ((List.range app.numKeySets).map (keySetImage c app))
    app.numKeys width (by
      intro s hs
      obtain ⟨set, hset, rfl⟩ := List.mem_map.mp hs
      refine ⟨by simp [keySetImage], fun k hk => ?_⟩
      simp only [keySetImage] at hk
      obtain ⟨slot, -, rfl⟩ := List.mem_map.mp hk
      rw [Mem.length_read]
      exact htype set (List.mem_range.mp hset)) 0
  rw [List.length_map, List.length_range] at hsets
  refine hsets.trans ?_
  have hone : app.numKeys * (width + 25) + 42 ≤ app.numKeys * (6 * width) := by
    have hmul : app.numKeys * (width + 67) ≤ app.numKeys * (6 * width) :=
      Nat.mul_le_mul_left _ (by omega)
    have hsplit : app.numKeys * (width + 67) = app.numKeys * (width + 25) + app.numKeys * 42 := by
      ring
    omega
  calc app.numKeySets * (app.numKeys * (width + 25) + 42)
      ≤ app.numKeySets * (app.numKeys * (6 * width)) := Nat.mul_le_mul_left _ hone
    _ = 6 * (app.numKeys * app.numKeySets * width) := by ring

/-- What an application takes beside its keys and files. -/
theorem appComponents_cost {a : AppImage} {keys : ℕ}
    (hkeys : fieldCost a.keys.listField + fieldCost a.keys.setsField ≤ keys + 41)
    (haid : a.aid.length = 3) (hname : a.dfName.length ≤ 16)
    (hcapability : fieldCost a.capabilityData ≤ 14) :
    componentsCost (appComponents a) ≤
      keys + (encItems (fileItems a.files)).length + 181 := by
  have hiso : fieldCost (a.isoFileId.map u16Octets) ≤ 6 :=
    fieldCost_map (fun _ => show 2 + 4 ≤ 6 by omega) _
  have hdf := fieldCost_nonempty a.dfName
  have hauth := fieldCost_int a.authCommands.toNat
  have hdelegated : fieldCost (a.delegated.map fun d => encFields (delegatedComponents d)) ≤
      50 := by
    refine fieldCost_map (fun d => ?_) _
    have hlen := (length_encFields_le (delegatedComponents d)).trans (delegatedComponents_cost d)
    omega
  have hdisable : fieldCost (a.smDisable.map fun b => [b]) ≤ 5 :=
    fieldCost_map (fun _ => show 1 + 4 ≤ 5 by omega) _
  have hpreferred := fieldCost_mapInt (fun b : UInt8 => (b.toNat : ℤ)) a.preferredAuthCommand
  have hsum := @componentsCost_le (appComponents a) _
    (.cons (show _ ≤ 7 by rw [fieldCost_some, haid]) (.cons hiso
    (.cons (hdf.trans (Nat.add_le_add_right hname 4)) (.cons (fieldCost_octet _).le
    (.cons (fieldCost_octet _).le (.cons hauth (.cons le_rfl
    (.cons (fieldCost_some _).le (.cons le_rfl (.cons hcapability
    (.cons hdelegated (.cons hdisable (.cons hpreferred .nil)))))))))))))
  simp only [List.sum_cons, List.sum_nil] at hsum
  linarith only [hsum, hkeys]

theorem cardComponents_cost (huid : c.uidLen ≤ 10) :
    componentsCost (cardComponents (cardImage c)) ≤ 132 := by
  have hgeneration := fieldCost_int c.card.generation
  have hstorage := fieldCost_int c.card.storage.toNat
  have hprovenance := fieldCost_int c.card.uidProvenance
  have hsignature := fieldCost_whenSet c.piccHasStaticSignature (c.piccStaticSignature.read 0 56)
  have hhardware := fieldCost_whenSet c.card.hasHardwareVersion (c.card.hardwareVersion.read 0 7)
  have hsoftware := fieldCost_whenSet c.card.hasSoftwareVersion (c.card.softwareVersion.read 0 7)
  rw [Mem.length_read] at hsignature hhardware hsoftware
  have hfield : fieldCost (some (c.uid.read 0 c.uidLen)) ≤ 14 := by
    rw [fieldCost_some, Mem.length_read]
    omega
  exact @componentsCost_le (cardComponents (cardImage c)) [12, 12, 14, 12, 60, 11, 11]
    (.cons hgeneration (.cons hstorage (.cons hfield (.cons hprovenance
    (.cons hsignature (.cons hhardware (.cons hsoftware .nil)))))))

theorem proximityComponents_cost (c : DfcCredential) :
    componentsCost (proximityComponents (proximityImage c)) ≤ 42 := by
  have hpublished := fieldCost_int c.piccProximityPublishedResponseTime.toNat
  have hbitrate : fieldCost ((whenSet c.piccHasProximityBitrate c.piccProximityBitrate).map
      fun b => [b]) ≤ 5 := fieldCost_map (fun _ => show 1 + 4 ≤ 5 by omega) _
  simp only [componentsCost, proximityComponents, proximityImage, List.map_cons, List.map_nil,
    List.sum_cons, List.sum_nil, fieldCost_some, fieldCost_octet, Mem.length_read]
  omega

theorem virtualCardComponents_cost (hid : c.virtualCardInstallationIdLen ≤ 16)
    (huid : c.virtualCardUidLen ≤ 10) :
    componentsCost (virtualCardComponents (virtualCardImage c)) ≤ 95 := by
  simp only [componentsCost, virtualCardComponents, virtualCardImage, List.map_cons, List.map_nil,
    List.sum_cons, List.sum_nil, fieldCost_some, fieldCost_octet, fieldCost_bool, Mem.length_read]
  omega

theorem damComponents_cost (c : DfcCredential) :
    componentsCost (damComponents (damImage c)) ≤ 60 := by
  simp only [componentsCost, damComponents, damImage, List.map_cons, List.map_nil,
    List.sum_cons, List.sum_nil, fieldCost_some, Mem.length_read]
  omega

/-- What the PICC record takes beside its files. -/
theorem piccComponents_cost (hats : c.piccAtsLen ≤ 20)
    (hcard : c.virtualCardConfigured = true →
      c.virtualCardInstallationIdLen ≤ 16 ∧ c.virtualCardUidLen ≤ 10)
    (hkeys : (encKeys (keyListImage c none)).length ≤ 6 * c.piccKeyPoolLen) :
    componentsCost (piccComponents (piccImage c)) ≤ 6 * c.piccKeyPoolLen +
      (encItems (fileItems ((filesOf c dfcFileOwnerPicc).map (fileImage c)))).length + 316 := by
  have hauth := fieldCost_int (dfcCredentialPiccAuthCommands c).toNat
  have hrandom := fieldCost_defaultFalse c.piccRandomId
  have hformat := fieldCost_defaultFalse c.piccFormatDisabled
  have hfield := fieldCost_nonempty (c.piccAts.read 0 c.piccAtsLen)
  have hsak : fieldCost ((whenSet c.piccHasSak c.piccSak).map fun b => [b]) ≤ 5 :=
    fieldCost_map (fun _ => show 1 + 4 ≤ 5 by omega) _
  have hatqa := fieldCost_whenSet c.piccHasAtqa (c.piccAtqa.read 0 2)
  have hdisable : fieldCost ((whenSet c.piccHasSmDisable c.piccSmDisable).map fun b => [b]) ≤ 5 :=
    fieldCost_map (fun _ => show 1 + 4 ≤ 5 by omega) _
  have hcapabilities := fieldCost_whenSet c.piccHasEv2Capabilities (c.piccEv2Capabilities.read 0 6)
  have hproximity : fieldCost ((whenSet c.piccHasProximityKey (proximityImage c)).map
      fun x => encFields (proximityComponents x)) ≤ 46 := by
    have hlen := (length_encFields_le _).trans (proximityComponents_cost c)
    rw [map_whenSet]
    exact (fieldCost_whenSet _ _).trans (by omega)
  have hvcard : fieldCost ((whenSet c.virtualCardConfigured (virtualCardImage c)).map
      fun v => encFields (virtualCardComponents v)) ≤ 99 := by
    cases hset : c.virtualCardConfigured with
    | false => exact Nat.zero_le _
    | true =>
      obtain ⟨hid, huid⟩ := hcard hset
      have hlen := (length_encFields_le _).trans (virtualCardComponents_cost hid huid)
      rw [map_whenSet]
      exact (fieldCost_whenSet _ _).trans (by omega)
  have hdam : fieldCost ((whenSet c.piccHasDamKeys (damImage c)).map
      fun d => encFields (damComponents d)) ≤ 64 := by
    have hlen := (length_encFields_le _).trans (damComponents_cost c)
    rw [map_whenSet]
    exact (fieldCost_whenSet _ _).trans (by omega)
  have hpreferred := fieldCost_mapInt (fun b : UInt8 => (b.toNat : ℤ))
    (whenSet c.piccHasPreferredAuthCommand c.piccPreferredAuthCommand)
  have hlegacy := fieldCost_defaultFalse c.piccRandomIdLegacy
  rw [Mem.length_read] at hfield hatqa hcapabilities
  have hsum := @componentsCost_le (piccComponents (piccImage c)) _
    (.cons (fieldCost_octet _).le (.cons (fieldCost_octet _).le (.cons hauth (.cons hrandom
    (.cons hformat (.cons (hfield.trans (Nat.add_le_add_right hats 4)) (.cons hsak (.cons hatqa
    (.cons hdisable (.cons (fieldCost_some _).le (.cons (fieldCost_some _).le
    (.cons hcapabilities (.cons hproximity (.cons hvcard (.cons hdam (.cons hpreferred
    (.cons hlegacy .nil)))))))))))))))))
  refine hsum.trans ?_
  simp only [List.sum_cons, List.sum_nil, piccImage]
  linarith only [hkeys]

end Owners

/-- What the validator makes sure of where the encoder looks. -/
structure EncoderFacts (c : DfcCredential) : Prop where
  numApps : c.numApps ≤ dfcMaxApps
  numFiles : c.numFiles ≤ dfcMaxFiles
  keyPoolUsed : c.keyPoolUsed ≤ dfcKeyPoolSize
  filePoolUsed : c.filePoolUsed ≤ dfcFilePoolSize
  piccKeys : modelKeySliceIsValid c none = true
  appKeys : ∀ i < c.numApps, modelKeySliceIsValid c (some i) = true
  keySum : c.piccKeyPoolLen + ((List.range c.numApps).map fun i => (c.apps i).keyPoolLen).sum =
    c.keyPoolUsed
  metadata : ∀ i < c.numApps, modelMetadataIsValid c (c.apps i) = true
  fileSum : ((List.range c.numFiles).map fun i => (c.files i).dataLen).sum = c.filePoolUsed
  uidLen : c.uidLen ≤ 10
  atsLen : c.piccAtsLen ≤ dfcPiccAtsMax
  virtualCard : c.virtualCardConfigured = true →
    c.virtualCardInstallationIdLen ≤ 16 ∧ c.virtualCardUidLen ≤ 10
  isoAidLen : ∀ i < c.numApps, (c.apps i).isoAidLen ≤ 16
  types : ∀ i < c.numFiles, (c.files i).type ≤ dfcFileTypeTransactionMac

theorem uidLength_le {length : ℕ} (h : dfcUidLengthIsValid length = true) : length ≤ 10 := by
  simp only [dfcUidLengthIsValid, Bool.or_eq_true, beq_iff_eq] at h
  omega

theorem encoderFacts_of_modelCheck {c : DfcCredential} (h : modelCheck c = .ok ()) :
    EncoderFacts c := by
  simp only [modelCheck, bind_eq_ok, refuseIf_eq_ok, exists_const, checkEach_eq_ok,
    Bool.not_eq_false, not_or, Nat.not_lt] at h
  obtain ⟨⟨happs, hfiles⟩, hpools, u, hpicc, -, -, -, hchecks, hfileChecks⟩ := h
  simp only [modelPoolsAreValid, Bool.and_eq_true, decide_eq_true_eq, List.all_eq_true,
    List.mem_range, beq_iff_eq] at hpools
  obtain ⟨⟨⟨⟨⟨⟨⟨⟨⟨hkeyUsed, hfileUsed⟩, -⟩, hpiccKeys⟩, happKeys⟩, hkeySum⟩, hmetadata⟩, -⟩,
    -⟩, hfileSum⟩ := hpools
  simp only [modelPiccCheck, bind_eq_ok, refuseIf_eq_ok, exists_const, not_not] at hpicc
  obtain ⟨huid, -, -, -, -, hats, u, -, hcard⟩ := hpicc
  refine ⟨happs, hfiles, hkeyUsed, hfileUsed, hpiccKeys, fun i hi => (happKeys i hi).1.1,
    hkeySum, fun i hi => (hmetadata i hi).1, hfileSum, uidLength_le huid, by omega, ?_, ?_, ?_⟩
  · intro hset
    have hboth := not_and.mp hcard hset
    rw [not_or, not_not, Nat.not_lt] at hboth
    exact ⟨hboth.1, uidLength_le hboth.2⟩
  · intro i hi
    have hcheck := hchecks i hi
    simp only [modelAppCheck, bind_eq_ok, refuseIf_eq_ok, exists_const, Nat.not_lt] at hcheck
    exact hcheck.2.1
  · intro i hi
    have hcheck := hfileChecks i hi
    simp only [modelFileCheck, bind_eq_ok, refuseIf_eq_ok, exists_const] at hcheck
    exact UInt8.not_lt.mp hcheck.2.2.1

/-- The key slices of single sets are long enough for the length their keys are looked up by. -/
def StorageFits (c : DfcCredential) : Prop :=
  ∀ i < c.numApps, (c.apps i).numKeySets < dfcKeySetMinimumCount → (c.apps i).numKeys ≠ 0 →
    dfcCredentialStoredKeyLength (c.apps i).keyStorageLen ≤
      dfcCredentialStoredKeyLength (c.apps i).keyLen

/-- The keys of a slice that is long enough for them are found. -/
theorem keyAt_isSome {c : DfcCredential} {offset poolLen numKeys keyLen slot : ℕ}
    (hlen : numKeys * dfcCredentialStoredKeyLength keyLen ≤ poolLen)
    (hvalid : modelSliceIsValid offset poolLen c.keyPoolUsed dfcKeyPoolSize dfcKeyPoolNone = true)
    (hslot : slot < numKeys) :
    (dfcCredentialKeyAt c offset poolLen numKeys keyLen slot).isSome := by
  have hstride := storedKeyLength_pos keyLen
  have hfit : (slot + 1) * dfcCredentialStoredKeyLength keyLen ≤ poolLen :=
    (Nat.mul_le_mul_right _ hslot).trans hlen
  have hpos : 0 < (slot + 1) * dfcCredentialStoredKeyLength keyLen := by positivity
  unfold modelSliceIsValid at hvalid
  split_ifs at hvalid with hcapacity hzero
  · omega
  · simp only [Bool.and_eq_true, bne_iff_ne, decide_eq_true_eq] at hvalid
    obtain ⟨⟨hoffset, hstart⟩, hend⟩ := hvalid
    unfold dfcCredentialKeyAt
    rw [if_neg (fun h => h.elim hoffset hzero), if_neg (by omega)]
    simp only
    rw [if_neg (by omega), if_neg (by omega)]
    rfl

theorem EncoderFacts.listKeys {c : DfcCredential} (h : EncoderFacts c) {i : ℕ}
    (hi : i < c.numApps) (hlist : (c.apps i).numKeySets < dfcKeySetMinimumCount) :
    (c.apps i).keyPoolLen =
        (c.apps i).numKeys * dfcCredentialStoredKeyLength (c.apps i).keyLen ∧
      modelSliceIsValid (c.apps i).keyOffset (c.apps i).keyPoolLen c.keyPoolUsed dfcKeyPoolSize
        dfcKeyPoolNone = true := by
  have happ := h.appKeys i hi
  simp only [modelKeySliceIsValid, Bool.and_eq_true, beq_iff_eq, if_neg (Nat.not_le.mpr hlist)]
    at happ
  exact ⟨happ.1.2.2, happ.2⟩

theorem EncoderFacts.setKeys {c : DfcCredential} (h : EncoderFacts c) {i : ℕ}
    (hi : i < c.numApps) (hsets : dfcKeySetMinimumCount ≤ (c.apps i).numKeySets) :
    modelKeySetsAreValid c (c.apps i) = true ∧
      (c.apps i).keyPoolLen = (c.apps i).numKeys * (c.apps i).numKeySets *
        dfcCredentialStoredKeyLength (c.apps i).keyStorageLen ∧
      modelSliceIsValid (c.apps i).keyOffset (c.apps i).keyPoolLen c.keyPoolUsed dfcKeyPoolSize
        dfcKeyPoolNone = true := by
  have happ := h.appKeys i hi
  simp only [modelKeySliceIsValid, Bool.and_eq_true, beq_iff_eq, if_pos hsets] at happ
  exact ⟨happ.1.2.1, happ.1.2.2, happ.2⟩

theorem EncoderFacts.piccKeyPoolLen {c : DfcCredential} (h : EncoderFacts c) :
    c.piccKeyPoolLen = c.piccNumKeys * dfcCredentialStoredKeyLength c.piccKeyLen ∧
      modelSliceIsValid c.piccKeyOffset c.piccKeyPoolLen c.keyPoolUsed dfcKeyPoolSize
        dfcKeyPoolNone = true := by
  have hpicc := h.piccKeys
  simp only [modelKeySliceIsValid, Bool.and_eq_true, beq_iff_eq] at hpicc
  exact ⟨hpicc.1.2, hpicc.2⟩

theorem encodable_of_facts {c : DfcCredential} (h : EncoderFacts c) (hstorage : StorageFits c) :
    Encodable c where
  piccKeys := fun slot hslot => keyAt_isSome h.piccKeyPoolLen.1.ge h.piccKeyPoolLen.2 hslot
  keys := by
    intro i hi hlist slot hslot
    obtain ⟨hlen, hvalid⟩ := h.listKeys hi hlist
    refine keyAt_isSome ?_ hvalid hslot
    rw [hlen]
    exact Nat.mul_le_mul_left _ (hstorage i hi hlist (by omega))
  metadata := by
    intro i hi hsets
    have hmetadata := h.metadata i hi
    rw [modelMetadataIsValid, if_neg (Nat.not_lt.mpr hsets), dfcCredentialKeySetVersion]
      at hmetadata
    cases hslice : dfcKeySetMetadataSlice c (c.apps i) with
    | none =>
      rw [hslice] at hmetadata
      exact hmetadata
    | some data => rfl
  setKeys := by
    intro i hi hsets set hset slot hslot
    obtain ⟨-, hlen, hvalid⟩ := h.setKeys hi hsets
    rw [dfcCredentialKeyInSet, if_neg (by omega)]
    refine keyAt_isSome hlen.ge hvalid ?_
    have hmul := Nat.mul_le_mul_right (c.apps i).numKeys hset
    rw [Nat.succ_mul, Nat.mul_comm (c.apps i).numKeySets] at hmul
    omega
  types := h.types

/-- What a single set costs one owner at most. -/
theorem sum_ite_le {owners : List ℕ} (h : owners.Nodup) (x a : ℕ) :
    (owners.map fun o => if x = o then a else 0).sum ≤ a := by
  induction owners with
  | nil => exact Nat.zero_le a
  | cons o owners ih =>
    rw [List.nodup_cons] at h
    rw [List.map_cons, List.sum_cons]
    by_cases hx : x = o
    · have hrest : (owners.map fun o => if x = o then a else 0).sum = 0 := by
        rw [List.sum_eq_zero_iff]
        intro n hn
        obtain ⟨o', ho', rfl⟩ := List.mem_map.mp hn
        exact if_neg (fun heq => h.1 (by rw [← hx, heq]; exact ho'))
      rw [if_pos hx, hrest]
      exact le_rfl
    · rw [if_neg hx, Nat.zero_add]
      exact ih h.2

/-- No file is counted for two owners. -/
theorem sum_owners_le {owners : List ℕ} (h : owners.Nodup) (files : List DfcFile)
    (cost : DfcFile → ℕ) :
    (owners.map fun owner =>
      ((files.filter fun f => f.appIndex = owner).map cost).sum).sum ≤ (files.map cost).sum := by
  induction files with
  | nil =>
    simp
  | cons f files ih =>
    have hsplit : ∀ owner, (((f :: files).filter fun f => f.appIndex = owner).map cost).sum =
        (if f.appIndex = owner then cost f else 0) +
          ((files.filter fun f => f.appIndex = owner).map cost).sum := by
      intro owner
      by_cases howner : f.appIndex = owner
      · rw [List.filter_cons_of_pos (by simpa using howner), if_pos howner, List.map_cons,
          List.sum_cons]
      · rw [List.filter_cons_of_neg (by simpa using howner), if_neg howner, Nat.zero_add]
    simp only [hsplit]
    rw [List.sum_map_add, List.map_cons, List.sum_cons]
    exact Nat.add_le_add (sum_ite_le h f.appIndex (cost f)) ih

/-- What the validator makes sure of in an application with key sets. -/
theorem keySets_of_valid {c : DfcCredential} {app : DfcApplication}
    (h : modelKeySetsAreValid c app = true) :
    app.numKeys ≠ 0 ∧ (app.maxKeySize = 16 ∨ app.maxKeySize = 24) ∧
      app.keyStorageLen = app.maxKeySize ∧ ∀ set < app.numKeySets, dfcKeySetTypeLength
        (c.keySetMetadataPool ((dfcCredentialKeySetType c app set).getD 0)) ≤ app.maxKeySize := by
  unfold modelKeySetsAreValid at h
  by_cases hnone : app.numKeys = 0 ∨ (!dfcCredentialKeySetIsInitialized c app 0) = true
  · rw [if_pos hnone] at h
    cases h
  rw [if_neg hnone] at h
  cases hactive : dfcCredentialKeySetType c app 0 with
  | none =>
    rw [hactive] at h
    cases h
  | some active =>
    rw [hactive] at h
    dsimp only at h
    split_ifs at h with hmax hstorage
    simp only [List.all_eq_true, List.mem_range] at h
    refine ⟨fun hzero => hnone (Or.inl hzero), ?_, not_not.mp hstorage, fun set hset => ?_⟩
    · simp only [dfcKeySetMaximum16Byte, dfcKeySetMaximum24Byte] at hmax
      omega
    · have htype := h set hset
      cases hat : dfcCredentialKeySetType c app set with
      | none =>
        rw [hat] at htype
        cases htype
      | some octet =>
        rw [hat] at htype
        simp only [Bool.and_eq_true, decide_eq_true_eq] at htype
        exact htype.2

/-- What the keys of an application take beside their slice. -/
theorem keyStoreImage_cost {c : DfcCredential} (h : EncoderFacts c) {i : ℕ}
    (hi : i < c.numApps) :
    fieldCost (keyStoreImage c i).listField + fieldCost (keyStoreImage c i).setsField ≤
      6 * (c.apps i).keyPoolLen + 41 := by
  unfold keyStoreImage
  by_cases hlist : (c.apps i).numKeySets < dfcKeySetMinimumCount
  · have hkeys := length_keyListImage_le (some i) (h.listKeys hi hlist).1
    simp only [if_pos hlist, KeyStoreImage.listField, KeyStoreImage.setsField, fieldCost_some]
    exact (Nat.add_le_add_right hkeys 4).trans (by simp only [keyPoolLenOf]; omega)
  · obtain ⟨hvalid, hlen, -⟩ := h.setKeys hi (Nat.not_lt.mp hlist)
    obtain ⟨hkeys, hsize, hstorage, hwidths⟩ := keySets_of_valid hvalid
    have hstride : dfcCredentialStoredKeyLength (c.apps i).keyStorageLen =
        (c.apps i).maxKeySize := by
      rw [hstorage]
      rcases hsize with hsize | hsize
      · rw [hsize]
        rfl
      · rw [hsize]
        rfl
    have hsets := length_keySetImages_le (Nat.pos_of_ne_zero hkeys) (by omega) hwidths
    rw [hlen, hstride]
    have hcount := fieldCost_int (c.apps i).numKeys
    have hmaximum := fieldCost_int (c.apps i).maxKeySize
    simp only [if_neg hlist, KeyStoreImage.listField, KeyStoreImage.setsField, fieldCost_some]
    have hcomponents := length_encFields_le (keySetsComponents (c.apps i).numKeys
      (c.apps i).maxKeySize (c.apps i).keySetSettings
      ((List.range (c.apps i).numKeySets).map (keySetImage c (c.apps i))))
    simp only [componentsCost, keySetsComponents, List.map_cons, List.map_nil, List.sum_cons,
      List.sum_nil, fieldCost_octet, fieldCost_some] at hcomponents
    simp only [fieldCost, keySetsComponents]
    linarith only [hcomponents, hcount, hmaximum, hsets]

theorem appImage_cost {c : DfcCredential} (h : EncoderFacts c) {i : ℕ} (hi : i < c.numApps) :
    componentsCost (appComponents (appImage c i)) ≤ 6 * (c.apps i).keyPoolLen +
      ((filesOf c i).map fun f => 3 * f.dataLen + 246).sum + 181 := by
  have hcapability := fieldCost_whenSet (c.apps i).hasCapabilityData
    ((c.apps i).capabilityData.read 0 10)
  rw [Mem.length_read] at hcapability
  have hcost := @appComponents_cost (appImage c i) (6 * (c.apps i).keyPoolLen)
    (keyStoreImage_cost h hi) (Mem.length_read ..)
    ((Mem.length_read ..).le.trans (h.isoAidLen i hi)) hcapability
  have hfiles := @length_filesOf_le c i
  exact hcost.trans (Nat.add_le_add_right (Nat.add_le_add_left hfiles _) _)

/-- The files of all owners together. -/
theorem sum_filesOf_le {c : DfcCredential} (h : EncoderFacts c) :
    ((filesOf c dfcFileOwnerPicc).map fun f => 3 * f.dataLen + 246).sum +
      ((List.range c.numApps).map fun i =>
        ((filesOf c i).map fun f => 3 * f.dataLen + 246).sum).sum ≤
      3 * dfcFilePoolSize + 246 * dfcMaxFiles := by
  have hnodup : (dfcFileOwnerPicc :: List.range c.numApps).Nodup := by
    rw [List.nodup_cons]
    have happs := h.numApps
    refine ⟨fun hmem => ?_, List.nodup_range⟩
    have hlt := List.mem_range.mp hmem
    simp only [dfcFileOwnerPicc, dfcMaxApps] at hlt happs
    omega
  have howners := sum_owners_le hnodup ((List.range c.numFiles).map c.files)
    fun f => 3 * f.dataLen + 246
  rw [List.map_cons, List.sum_cons, List.map_map] at howners
  refine howners.trans ?_
  have hsplit : ((List.range c.numFiles).map ((fun f => 3 * f.dataLen + 246) ∘ c.files)).sum =
      3 * ((List.range c.numFiles).map fun i => (c.files i).dataLen).sum + 246 * c.numFiles := by
    rw [← List.sum_map_mul_left]
    simp only [Function.comp_def]
    rw [List.sum_map_add, List.map_const', List.sum_replicate, List.length_range, smul_eq_mul,
      Nat.mul_comm c.numFiles]
  rw [hsplit, h.fileSum]
  have hused := h.filePoolUsed
  have hfiles := h.numFiles
  omega

/-- The encoding of a valid credential stays below the limit of the format. -/
theorem length_encImage_le {c : DfcCredential} (h : EncoderFacts c) :
    (encImage dfcFormatVersion (imageOf c)).length ≤ dfcDerMaxSize := by
  have hversion := fieldCost_int dfcFormatVersion
  have hcard := (length_encFields_le _).trans (cardComponents_cost h.uidLen)
  have hpicc := (length_encFields_le _).trans (piccComponents_cost h.atsLen h.virtualCard
    (length_keyListImage_le none h.piccKeyPoolLen.1))
  have happs : (encItems (appItems (imageOf c).apps)).length ≤
      6 * ((List.range c.numApps).map fun i => (c.apps i).keyPoolLen).sum +
      ((List.range c.numApps).map fun i =>
        ((filesOf c i).map fun f => 3 * f.dataLen + 246).sum).sum + 185 * c.numApps := by
    have hitems := length_sequenceItems_le (List.range c.numApps)
      fun i => appComponents (appImage c i)
    rw [appItems, imageOf, List.map_map]
    refine hitems.trans ?_
    have hsum : ((List.range c.numApps).map fun i =>
        componentsCost (appComponents (appImage c i)) + 4).sum ≤
        ((List.range c.numApps).map fun i => 6 * (c.apps i).keyPoolLen +
          ((filesOf c i).map fun f => 3 * f.dataLen + 246).sum + 185).sum := by
      refine List.sum_le_sum fun i hi => ?_
      exact Nat.add_le_add_right (appImage_cost h (List.mem_range.mp hi)) 4
    refine hsum.trans (le_of_eq ?_)
    rw [List.sum_map_add, List.sum_map_add, List.sum_map_mul_left, List.map_const',
      List.sum_replicate, List.length_range, smul_eq_mul, Nat.mul_comm c.numApps]
  have hfiles := sum_filesOf_le h
  have hpiccFiles := @length_filesOf_le c dfcFileOwnerPicc
  have hkeys := h.keySum
  have hused := h.keyPoolUsed
  have hcount := h.numApps
  have hbody := length_encFields_le (imageComponents dfcFormatVersion (imageOf c))
  have hwhole := length_encTlv_le Tag.credential
    (encFields (imageComponents dfcFormatVersion (imageOf c)))
  simp only [componentsCost, imageComponents, List.map_cons, List.map_nil, List.sum_cons,
    List.sum_nil, fieldCost_some] at hbody
  simp only [dfcKeyPoolSize, dfcMaxApps, dfcFilePoolSize, dfcMaxFiles] at hused hcount hfiles
  rw [encImage, dfcDerMaxSize]
  simp only [imageOf, imageComponents] at hbody hcard hpicc happs hwhole ⊢
  linarith only [hwhole, hbody, hversion, hcard, hpicc, happs, hfiles, hpiccFiles, hkeys, hused,
    hcount]

end DfcCore
