import DfcCore.DerSize

/-!
# The capacity of the writer

The writer needs no slack. Whatever is nested, a body function keeps to the octets below the
capacity, and a component is written exactly when its octets fit. For a valid credential the
announced size is then the length of the octets, it is enough, and less is not, provided that
every key is found: the validator does not look at the length by which the keys of a single set
are looked up.
-/
namespace DfcCore.Der

/-- A writer that has kept to the first `cap` octets of `buf`, of which `len` were taken. -/
structure Inside (cap len : ℕ) (buf : Mem) (w : Writer) : Prop where
  cap_eq : w.cap = cap
  len_ge : len ≤ w.len
  len_le : w.len ≤ cap
  buf_eq : ∃ buf', w.buf = some buf' ∧ ∀ i, cap ≤ i → buf' i = buf i

/-- A body function that keeps to its buffer and does not take an overflow back. -/
structure Bounded (fn : Writer → Writer) : Prop where
  sticky : ∀ w, w.overflow = true → (fn w).overflow = true
  inside : ∀ {w : Writer} {buf : Mem}, w.buf = some buf → w.len ≤ w.cap →
    Inside w.cap w.len buf (fn w)

theorem Inside.trans {cap len : ℕ} {buf : Mem} {w w' : Writer} (h : Inside cap len buf w)
    (h' : ∀ buf', w.buf = some buf' → Inside w.cap w.len buf' w') : Inside cap len buf w' := by
  obtain ⟨buf', hbuf, hsame⟩ := h.buf_eq
  obtain ⟨hcap, hge, hle, buf'', hbuf', hsame'⟩ := h' buf' hbuf
  rw [h.cap_eq] at hcap hle hsame'
  refine ⟨hcap, h.len_ge.trans hge, hle, buf'', hbuf', fun i hi => ?_⟩
  rw [hsame' i hi, hsame i hi]

theorem Inside.refl {w : Writer} {buf : Mem} (hbuf : w.buf = some buf) (hlen : w.len ≤ w.cap) :
    Inside w.cap w.len buf w :=
  ⟨rfl, le_rfl, hlen, buf, hbuf, fun _ _ => rfl⟩

@[simp] theorem bounded_id : Bounded fun w => w where
  sticky _ h := h
  inside hbuf hlen := .refl hbuf hlen

@[simp] theorem bounded_wOverflow : Bounded wOverflow where
  sticky _ _ := rfl
  inside hbuf hlen := ⟨rfl, le_rfl, hlen, _, hbuf, fun _ _ => rfl⟩

theorem Bounded.comp {f g : Writer → Writer} (hf : Bounded f) (hg : Bounded g) :
    Bounded fun w => g (f w) where
  sticky w h := hg.sticky _ (hf.sticky w h)
  inside hbuf hlen := by
    have hfirst := hf.inside hbuf hlen
    refine hfirst.trans fun buf' hbuf' => hg.inside hbuf' ?_
    rw [hfirst.cap_eq]
    exact hfirst.len_le

@[simp] theorem bounded_wRaw (bytes : List UInt8) : Bounded (wRaw bytes) where
  sticky := (@writes_raw True bytes).sticky
  inside := by
    intro w buf hbuf hlen
    unfold wRaw
    rw [hbuf]
    dsimp only
    split_ifs with hroom
    · exact ⟨rfl, le_rfl, hlen, buf, rfl, fun _ _ => rfl⟩
    · refine ⟨rfl, Nat.le_add_right _ _, by dsimp only; omega, _, rfl, fun i hi => ?_⟩
      exact Mem.write_apply_of_out (by omega)

@[simp] theorem bounded_wByte (b : UInt8) : Bounded (wByte b) := bounded_wRaw [b]

@[simp] theorem bounded_wLen (n : ℕ) : Bounded (wLen n) := by
  unfold wLen
  split_ifs
  · exact bounded_wByte _
  · exact (bounded_wByte _).comp (bounded_wByte _)
  · exact ((bounded_wByte _).comp (bounded_wByte _)).comp (bounded_wByte _)
  · exact bounded_wOverflow

@[simp] theorem bounded_wTlv (tag : UInt8) (body : List UInt8) : Bounded (wTlv tag body) :=
  ((bounded_wByte tag).comp (bounded_wLen _)).comp (bounded_wRaw body)

@[simp] theorem bounded_wInt (tag : UInt8) (v : ℤ) : Bounded (wInt tag v) := bounded_wTlv tag _

@[simp] theorem bounded_wBool (tag : UInt8) (v : Bool) : Bounded (wBool tag v) :=
  bounded_wTlv tag _

@[simp] theorem bounded_wSeq {fs : List (Writer → Writer)} (h : ∀ f ∈ fs, Bounded f) :
    Bounded (wSeq fs) := by
  induction fs with
  | nil => exact bounded_id
  | cons f fs ih =>
    rw [List.forall_mem_cons] at h
    exact h.1.comp (ih h.2)

@[simp] theorem bounded_wWhen {flag : Bool} {f : Writer → Writer} (h : Bounded f) :
    Bounded (wWhen flag f) := by
  cases flag with
  | false => exact bounded_id
  | true => exact h

@[simp] theorem bounded_wEach {n : ℕ} {fn : ℕ → Writer → Writer} (h : ∀ i, Bounded (fn i)) :
    Bounded (wEach n fn) := by
  induction n with
  | zero => exact bounded_id
  | succ n ih =>
    have hlast : wEach (n + 1) fn = fun w => fn n (wEach n fn w) := by
      funext w
      simp [wEach, List.range_succ]
    rw [hlast]
    exact ih.comp (h n)

/-- The header of a body that is in place lies below its end. -/
theorem inside_header {w : Writer} {start bodyStart extra : ℕ} {buf : Mem}
    (hbuf : w.buf = some buf) (hstart : bodyStart = start + 2) (hbody : bodyStart ≤ w.len)
    (hextra : extra ≤ 2) (hroom : w.len + extra ≤ w.cap) :
    ∃ buf', wHeader w start bodyStart (w.len - bodyStart) extra = some buf' ∧
      ∀ i, w.cap ≤ i → buf' i = buf i := by
  unfold wHeader
  rw [hbuf, Option.map_some]
  refine ⟨_, rfl, fun i hi => ?_⟩
  have hmoved : (if 0 < extra then
      buf.move (bodyStart + extra) bodyStart (w.len - bodyStart) else buf) i = buf i := by
    split_ifs
    · exact Mem.move_apply_of_out (by omega)
    · rfl
  generalize (if 0 < extra then
    buf.move (bodyStart + extra) bodyStart (w.len - bodyStart) else buf) = moved at hmoved ⊢
  have hwrite : ∀ {m : Mem} {at' : ℕ} {b : UInt8}, m i = buf i → at' < i →
      m.write at' [b] i = buf i := by
    intro m at' b hm hat
    rw [Mem.write_apply_of_out (Or.inr hat), hm]
  split_ifs with hzero hone
  · exact hwrite hmoved (by omega)
  · exact hwrite (hwrite hmoved (by omega)) (by omega)
  · exact hwrite (hwrite (hwrite hmoved (by omega)) (by omega)) (by omega)

@[simp] theorem bounded_wConstructed (tag : UInt8) {fn : Writer → Writer} (h : Bounded fn) :
    Bounded (wConstructed tag fn) where
  sticky w hw := by
    rw [wConstructed, if_pos hw]
    exact hw
  inside := by
    intro w buf hbuf hlen
    unfold wConstructed
    by_cases hover : w.overflow = true
    · rw [if_pos hover]
      exact .refl hbuf hlen
    rw [if_neg hover]
    dsimp only
    have hhead := ((bounded_wByte tag).comp (bounded_wByte 0)).inside hbuf hlen
    by_cases hover' : (wByte 0 (wByte tag w)).overflow = true
    · rw [if_pos hover']
      exact hhead
    rw [if_neg hover']
    -- The placeholder has been written, so the body starts two octets on.
    have hplaced : (wByte 0 (wByte tag w)).len = w.len + 2 := by
      rcases ((@writes_byte True tag).seq (writes_byte 0)).exact w
        (Bool.not_eq_true _ ▸ hover) with ho | he
      · exact absurd ho hover'
      · exact congrArg Writer.len he
    have hbody := hhead.trans fun buf' hbuf' => h.inside hbuf' (by
      rw [hhead.cap_eq]
      exact hhead.len_le)
    have hgrown : (wByte 0 (wByte tag w)).len ≤ (fn (wByte 0 (wByte tag w))).len := by
      obtain ⟨buf', hbuf', -⟩ := hhead.buf_eq
      exact (h.inside hbuf' (by rw [hhead.cap_eq]; exact hhead.len_le)).len_ge
    by_cases hover'' : (fn (wByte 0 (wByte tag w))).overflow = true
    · rw [if_pos hover'']
      exact hbody
    rw [if_neg hover'']
    split_ifs with hroom
    · exact ⟨hbody.cap_eq, hbody.len_ge, hbody.len_le, hbody.buf_eq⟩
    · obtain ⟨buf', hbuf', hsame⟩ := hbody.buf_eq
      have hextra : lenExtra ((fn (wByte 0 (wByte tag w))).len - (wByte 0 (wByte tag w)).len) ≤
          2 := by
        unfold lenExtra
        split_ifs <;> omega
      have hcap := hbody.cap_eq
      have hle := hbody.len_le
      have hge := hbody.len_ge
      have hfits : (fn (wByte 0 (wByte tag w))).len +
          lenExtra ((fn (wByte 0 (wByte tag w))).len - (wByte 0 (wByte tag w)).len) ≤
            (fn (wByte 0 (wByte tag w))).cap := by
        rw [not_or, not_or, not_and] at hroom
        have hspace := hroom.2.2 (by rw [hbuf']; rfl)
        omega
      obtain ⟨buf'', hbuf'', hsame'⟩ := inside_header hbuf' hplaced hgrown hextra hfits
      refine ⟨hcap, ?_, ?_, buf'', hbuf'', fun i hi => ?_⟩
      · exact hge.trans (Nat.le_add_right _ _)
      · rw [← hcap]
        exact hfits
      · rw [hsame' i (by rw [hcap]; exact hi), hsame i hi]

/-- A body function that always reports an overflow. -/
def Fails (fn : Writer → Writer) : Prop := ∀ w, (fn w).overflow = true

theorem Fails.constructed {fn : Writer → Writer} (h : Fails fn) (tag : UInt8) :
    Fails (wConstructed tag fn) := by
  intro w
  unfold wConstructed
  by_cases hover : w.overflow = true
  · rw [if_pos hover]
    exact hover
  rw [if_neg hover]
  by_cases hover' : (wByte 0 (wByte tag w)).overflow = true
  · rw [if_pos hover']
    exact hover'
  rw [if_neg hover']
  dsimp only
  rw [if_pos (h _)]
  exact h _

theorem Bounded.fails_of_first {f g : Writer → Writer} (hg : Bounded g) (h : Fails f) :
    Fails fun w => g (f w) := fun w => hg.sticky _ (h w)

theorem fails_wSeq {fs : List (Writer → Writer)} {f : Writer → Writer}
    (hall : ∀ g ∈ fs, Bounded g) (hf : f ∈ fs) (h : Fails f) : Fails (wSeq fs) := by
  induction fs with
  | nil => cases hf
  | cons g fs ih =>
    rw [List.forall_mem_cons] at hall
    rcases List.mem_cons.mp hf with rfl | hf
    · exact (bounded_wSeq hall.2).fails_of_first h
    · exact fun w => ih hall.2 hf (g w)

theorem fails_wEach {n i : ℕ} {fn : ℕ → Writer → Writer} (hall : ∀ i, Bounded (fn i))
    (hi : i < n) (h : Fails (fn i)) : Fails (wEach n fn) := by
  induction n with
  | zero => omega
  | succ n ih =>
    have hlast : wEach (n + 1) fn = fun w => fn n (wEach n fn w) := by
      funext w
      simp [wEach, List.range_succ]
    rw [hlast]
    by_cases heq : i = n
    · subst heq
      exact fun w => h _
    · exact (hall n).fails_of_first (ih (by omega))

/-- A component: octets, or the components it is made of. -/
inductive Component where
  | primitive (tag : UInt8) (body : List UInt8)
  | constructed (tag : UInt8) (parts : List Component)

mutual

/-- The one pass of the writer over a component. -/
def Component.write : Component → Writer → Writer
  | .primitive tag body => wTlv tag body
  | .constructed tag parts => wConstructed tag (Component.writeAll parts)

def Component.writeAll : List Component → Writer → Writer
  | [] => fun w => w
  | part :: parts => fun w => Component.writeAll parts (part.write w)

end

mutual

/-- Identifier, shortest length and the encoded parts. -/
def Component.encode : Component → List UInt8
  | .primitive tag body => encTlv tag body
  | .constructed tag parts => encTlv tag (Component.encodeAll parts)

def Component.encodeAll : List Component → List UInt8
  | [] => []
  | part :: parts => part.encode ++ Component.encodeAll parts

end

mutual

theorem writes_component : ∀ t : Component, Writes True t.write t.encode
  | .primitive tag body => writes_tlv tag body
  | .constructed tag parts => (writes_components parts).constructed tag

theorem writes_components : ∀ parts : List Component,
    Writes True (Component.writeAll parts) (Component.encodeAll parts)
  | [] => Writes.nil
  | part :: parts => (writes_component part).seq (writes_components parts)

end

mutual

theorem bounded_component : ∀ t : Component, Bounded t.write
  | .primitive tag body => bounded_wTlv tag body
  | .constructed tag parts => bounded_wConstructed tag (bounded_components parts)

theorem bounded_components : ∀ parts : List Component, Bounded (Component.writeAll parts)
  | [] => bounded_id
  | part :: parts => (bounded_component part).comp (bounded_components parts)

end

/-- A body that has been written into a component is not too long for its length. -/
theorem Writes.length_le {p : Prop} {tag : UInt8} {fn : Writer → Writer} {body : List UInt8}
    {w : Writer} (h : Writes p fn body) (hw : w.overflow = false)
    (hdone : (wConstructed tag fn w).overflow = false) : body.length ≤ 0xFFFF := by
  have hfalse : ∀ {b : Bool}, b = true → b = false → False := by
    intro b htrue hb
    rw [htrue] at hb
    cases hb
  rw [wConstructed, if_neg (by rw [hw]; exact Bool.false_ne_true)] at hdone
  rcases ((@writes_byte True tag).seq (writes_byte 0)).exact w hw with ho | hph
  · rw [if_pos ho] at hdone
    exact (hfalse ho hdone).elim
  rw [hph, if_neg (by rw [Writer.append_overflow, hw]; exact Bool.false_ne_true)] at hdone
  rcases h.exact (w.append ([tag] ++ [0])) hw with ho | hfn
  · rw [if_pos ho] at hdone
    exact (hfalse ho hdone).elim
  rw [hfn] at hdone
  dsimp only at hdone
  split_ifs at hdone with hover hlong
  · exact (hfalse hover hdone).elim
  · rw [not_or] at hlong
    have hlen := hlong.1
    simp only [Writer.append, List.length_append, List.length_singleton] at hlen
    omega

/-- A constructed component is written exactly if its length can be expressed and its octets
fit, and then the octets are those of the recursive definition. -/
def OnePassExact (tag : UInt8) (parts : List Component) (w : Writer) : Prop :=
  let octets := encTlv tag (Component.encodeAll parts)
  ((wConstructed tag (Component.writeAll parts) w).overflow = false ↔
    (Component.encodeAll parts).length ≤ 0xFFFF ∧ w.len + octets.length ≤ w.cap) ∧
  ((wConstructed tag (Component.writeAll parts) w).overflow = false →
    wConstructed tag (Component.writeAll parts) w = w.append octets)

theorem onePassExact (tag : UInt8) (parts : List Component) {w : Writer} {buf : Mem}
    (hbuf : w.buf = some buf) (hover : w.overflow = false) (hlen : w.len ≤ w.cap)
    (hcap : w.cap ≤ sizeMax) : OnePassExact tag parts w := by
  have hwrites := (writes_components parts).constructed tag
  have hexact : (wConstructed tag (Component.writeAll parts) w).overflow = false →
      wConstructed tag (Component.writeAll parts) w =
        w.append (encTlv tag (Component.encodeAll parts)) := by
    intro hdone
    rcases hwrites.exact w hover with ho | he
    · rw [ho] at hdone
      cases hdone
    · exact he
  refine ⟨⟨fun hdone => ?_, fun hfit => ?_⟩, hexact⟩
  · have hinside := (bounded_wConstructed tag (bounded_components parts)).inside hbuf hlen
    have hle := hinside.len_le
    rw [hexact hdone] at hle
    exact ⟨(writes_components parts).length_le hover hdone, hle⟩
  · obtain ⟨hbody, hroom⟩ := hfit
    have hall : w.Room (encTlv tag (Component.encodeAll parts)).length := by
      simp only [Writer.Room, hbuf]
      exact ⟨hroom, hroom.trans hcap⟩
    have hsize := length_encTlv tag hbody
    have hph := ((writes_byte tag).seq (writes_byte 0)).fits trivial w hover (by simp)
      (hall.mono (by simp; omega))
    have hfn := (writes_components parts).fits trivial (w.append [tag, 0]) hover hbody
      (Writer.Room.append (hall.mono (by simp; omega)))
    rw [(wConstructed_eq hover hph hfn).2 hbody hall]
    exact hover

end DfcCore.Der

namespace DfcCore
open Der

section Bodies
variable (c : DfcCredential) (app : DfcApplication) (f : DfcFile)

@[simp] theorem bounded_bodyKeys (owner : Option ℕ) : Bounded (bodyKeys c owner) := by
  refine bounded_wEach fun slot => bounded_wConstructed _ ?_
  unfold bodyKey
  split
  · exact bounded_wOverflow
  · exact bounded_wSeq (by simp)

@[simp] theorem bounded_bodyKeySetKeys (set : ℕ) : Bounded (bodyKeySetKeys c app set) := by
  refine bounded_wEach fun slot => bounded_wConstructed _ ?_
  unfold bodyKeySetKey
  split
  · exact bounded_wOverflow
  · split
    · exact bounded_wSeq (by simp)
    · exact bounded_wOverflow

@[simp] theorem bounded_bodyKeySetList : Bounded (bodyKeySetList c app) := by
  refine bounded_wEach fun set => bounded_wConstructed _ ?_
  unfold bodyKeySet
  split
  · exact bounded_wSeq (by simp)
  · exact bounded_wOverflow

@[simp] theorem bounded_bodyKeySets : Bounded (bodyKeySets c app) := bounded_wSeq (by simp)

@[simp] theorem bounded_bodyDataContents : Bounded (bodyDataContents c f) := by
  unfold bodyDataContents
  split
  · exact bounded_wOverflow
  · exact bounded_wSeq (by simp)

@[simp] theorem bounded_bodyValueContents : Bounded (bodyValueContents f) :=
  bounded_wSeq (by simp)

@[simp] theorem bounded_bodyRecords : Bounded (bodyRecords c f) :=
  bounded_wEach fun _ => bounded_wTlv _ _

@[simp] theorem bounded_bodyRecordContents : Bounded (bodyRecordContents c f) :=
  bounded_wSeq (by simp)

@[simp] theorem bounded_bodyTransactionMacContents : Bounded (bodyTransactionMacContents f) :=
  bounded_wSeq (by simp)

@[simp] theorem bounded_bodyContents : Bounded (bodyContents c f) := by
  unfold bodyContents
  split_ifs <;> simp

@[simp] theorem bounded_bodySdm : Bounded (bodySdm f) := bounded_wSeq (by simp)

@[simp] theorem bounded_bodyFile : Bounded (bodyFile c f) := bounded_wSeq (by simp)

@[simp] theorem bounded_bodyFiles (owner : ℕ) : Bounded (bodyFiles c owner) :=
  bounded_wEach fun _ => bounded_wWhen (bounded_wConstructed _ (bounded_bodyFile _ _))

@[simp] theorem bounded_bodyCard : Bounded (bodyCard c) := bounded_wSeq (by simp)

@[simp] theorem bounded_bodyProximity : Bounded (bodyProximity c) := bounded_wSeq (by simp)

@[simp] theorem bounded_bodyVirtualCard : Bounded (bodyVirtualCard c) := bounded_wSeq (by simp)

@[simp] theorem bounded_bodyDam : Bounded (bodyDam c) := bounded_wSeq (by simp)

@[simp] theorem bounded_bodyPicc : Bounded (bodyPicc c) := bounded_wSeq (by simp)

@[simp] theorem bounded_bodyDelegated : Bounded (bodyDelegated app) := bounded_wSeq (by simp)

@[simp] theorem bounded_bodyApp (i : ℕ) : Bounded (bodyApp c i) := bounded_wSeq (by simp)

@[simp] theorem bounded_bodyApps : Bounded (bodyApps c) :=
  bounded_wEach fun i => bounded_wConstructed _ (bounded_bodyApp c i)

theorem bounded_bodyCredential : Bounded (bodyCredential c) := bounded_wSeq (by simp)

end Bodies

/-- The last key of a slice that is too short for its lookup is not found. -/
theorem keyAt_eq_none {c : DfcCredential} {offset poolLen numKeys keyLen : ℕ}
    (hkeys : numKeys ≠ 0) (hlen : poolLen < numKeys * dfcCredentialStoredKeyLength keyLen) :
    dfcCredentialKeyAt c offset poolLen numKeys keyLen (numKeys - 1) = none := by
  have hlast : numKeys - 1 + 1 = numKeys := by omega
  unfold dfcCredentialKeyAt
  simp only [hlast, if_pos hlen]
  split_ifs
  · rfl
  · rfl
  · rfl

theorem fails_bodyCredential {c : DfcCredential} (h : EncoderFacts c) (hshort : ¬StorageFits c) :
    Fails (bodyCredential c) := by
  unfold StorageFits at hshort
  push Not at hshort
  obtain ⟨i, hi, hlist, hkeys, hstorage⟩ := hshort
  have hlen := (h.listKeys hi hlist).1
  have hkey : Fails (bodyKey c (some i) ((c.apps i).numKeys - 1)) := by
    have hlost : dfcCredentialKey c (some i) ((c.apps i).numKeys - 1) = none := by
      refine keyAt_eq_none hkeys ?_
      rw [hlen]
      exact Nat.mul_lt_mul_of_pos_left hstorage (Nat.pos_of_ne_zero hkeys)
    intro w
    rw [bodyKey, hlost]
    rfl
  have hall : Fails (bodyKeys c (some i)) := by
    refine fails_wEach (fun slot => bounded_wConstructed _ ?_)
      (show (c.apps i).numKeys - 1 < numKeysOf c (some i) by simp only [numKeysOf]; omega)
      (hkey.constructed _)
    unfold bodyKey
    split
    · exact bounded_wOverflow
    · exact bounded_wSeq (by simp)
  have hfield : Fails (wWhen (decide ((c.apps i).numKeySets < dfcKeySetMinimumCount))
      (wConstructed Tag.appKeys (bodyKeys c (some i)))) := by
    rw [decide_eq_true hlist]
    exact hall.constructed _
  have happ : Fails (bodyApp c i) := fails_wSeq (by simp) (by simp) hfield
  have happs : Fails (bodyApps c) :=
    fails_wEach (fun j => bounded_wConstructed _ (bounded_bodyApp c j)) hi (happ.constructed _)
  exact fails_wSeq (by simp) (by simp) (happs.constructed Tag.credApps)

/-- The writer of an encode after its one pass. -/
def encodeWriter (c : DfcCredential) (out : Mem) (cap : ℕ) : Writer :=
  wConstructed Tag.credential (bodyCredential c)
    { buf := some out, cap := cap, len := 0, overflow := false }

/-- The encoder needs exactly the octets it announces, which are those of the image. -/
structure EncodesExactly (c : DfcCredential) : Prop where
  size : dfcDerEncodedSize c = .ok (encImage dfcFormatVersion (imageOf c)).length
  enough : ∀ out cap, (encImage dfcFormatVersion (imageOf c)).length ≤ cap →
    dfcDerEncode c out cap = .ok (encImage dfcFormatVersion (imageOf c))
  short : ∀ out cap, cap < (encImage dfcFormatVersion (imageOf c)).length →
    dfcDerEncode c out cap = .error .capacity
  kept : ∀ out cap, ∃ buf, (encodeWriter c out cap).buf = some buf ∧
    ∀ i, cap ≤ i → buf i = out i

theorem dfcDerEncode_of_short {c : DfcCredential} {n : ℕ} (h : dfcDerEncodedSize c = .ok n)
    (out : Mem) {cap : ℕ} (hcap : cap < n) : dfcDerEncode c out cap = .error .capacity := by
  unfold dfcDerEncode
  rw [h]
  simp only [bind, Except.bind, refuseIf, if_pos hcap]

theorem encodesExactly_iff {c : DfcCredential} (hvalid : modelCheck c = .ok ()) :
    EncodesExactly c ↔ StorageFits c := by
  have hfacts := encoderFacts_of_modelCheck hvalid
  have hmax := length_encImage_le hfacts
  constructor
  · intro h
    by_contra hshort
    have hover := (dfcDerEncodedSize_eq_ok.mp h.size).2.1
    rw [fails_bodyCredential hfacts hshort] at hover
    cases hover
  · intro hstorage
    have henc := encodable_of_facts hfacts hstorage
    have henough : ∀ out cap, (encImage dfcFormatVersion (imageOf c)).length ≤ cap →
        dfcDerEncode c out cap = .ok (encImage dfcFormatVersion (imageOf c)) :=
      fun out cap hcap => dfcDerEncode_of_encodable hvalid henc out hmax hcap
    have hsize : dfcDerEncodedSize c = .ok (encImage dfcFormatVersion (imageOf c)).length := by
      have hone := henough Mem.zero _ le_rfl
      simp only [dfcDerEncode, bind_eq_ok] at hone
      obtain ⟨n, hn, -⟩ := hone
      rw [hn, (dfcDerEncodedSize_eq_ok.mp hn).2.2.1]
    refine ⟨hsize, henough, fun out cap hcap => dfcDerEncode_of_short hsize out hcap, ?_⟩
    intro out cap
    have hinside := (bounded_wConstructed Tag.credential (bounded_bodyCredential c)).inside
      (show (Writer.mk (some out) cap 0 false).buf = some out from rfl) (Nat.zero_le cap)
    exact hinside.buf_eq

/-- The one pass gives the octets of the recursive definition for every nesting, and the encoder
is exact for the valid credentials whose single key sets are stored as they are looked up. -/
theorem dfcDerEncode_exact_iff (tag : UInt8) (parts : List Component) (w : Writer)
    (c : DfcCredential) :
    (∀ buf, w.buf = some buf → w.overflow = false → w.len ≤ w.cap → w.cap ≤ sizeMax →
      OnePassExact tag parts w) ∧
    (modelCheck c = .ok () → (EncodesExactly c ↔ StorageFits c)) :=
  ⟨fun _ hbuf hover hlen hcap => onePassExact tag parts hbuf hover hlen hcap, encodesExactly_iff⟩

/-- A card whose application has two AES keys, looked up by a length of their own. -/
def twoKeyCard (storageLen : ℕ) : DfcCredential :=
  { dfcCredentialClear with
    uidLen := 7
    numApps := 1
    keyPoolUsed := 48
    apps := fun _ =>
      { aid := fun i => if i = 0 then 1 else 0
        keyOffset := 16
        keyPoolLen := 32
        numKeys := 2
        keyLen := 16
        keyStorageLen := storageLen
        keySettings1 := 0x0F
        keySettings2 := 0x82
        authCommand := 0xAA } }

theorem modelCheck_twoKeyCard {storageLen : ℕ}
    (h : (modelCheck (twoKeyCard storageLen)).toOption.isSome = true) :
    modelCheck (twoKeyCard storageLen) = .ok () := by
  cases hcheck : modelCheck (twoKeyCard storageLen) with
  | ok u => rfl
  | error status =>
    rw [hcheck] at h
    cases h

theorem dfcDerEncode_exact_twoKeys : EncodesExactly (twoKeyCard 16) ∧
    OnePassExact Tag.sequence [.primitive Tag.octets (List.replicate 130 0)]
      { buf := some Mem.zero, cap := 136, len := 0, overflow := false } := by
  have hstorage : StorageFits (twoKeyCard 16) := fun _ _ _ _ => le_rfl
  have hvalid : modelCheck (twoKeyCard 16) = .ok () := modelCheck_twoKeyCard (by decide +kernel)
  obtain ⟨hparts, hexact⟩ := dfcDerEncode_exact_iff Tag.sequence
    [.primitive Tag.octets (List.replicate 130 0)]
    { buf := some Mem.zero, cap := 136, len := 0, overflow := false } (twoKeyCard 16)
  exact ⟨(hexact hvalid).mpr hstorage, hparts Mem.zero rfl rfl (by decide) (by decide)⟩

/-- Two keys of sixteen octets that are looked up twenty-four octets apart: the credential is
valid and is not encoded. -/
theorem dfcDerEncode_lost_key : modelCheck (twoKeyCard 24) = .ok () ∧
    dfcDerEncodedSize (twoKeyCard 24) = .error .malformed ∧ ¬EncodesExactly (twoKeyCard 24) := by
  have hvalid := modelCheck_twoKeyCard (show (modelCheck (twoKeyCard 24)).toOption.isSome = true by
    decide +kernel)
  have hshort : ¬StorageFits (twoKeyCard 24) := by
    intro h
    exact absurd (h 0 (by decide +kernel) (by decide +kernel) (by decide +kernel))
      (by decide +kernel)
  have hover := fails_bodyCredential (encoderFacts_of_modelCheck hvalid) hshort probeWriter
  refine ⟨hvalid, ?_, fun h => hshort ((encodesExactly_iff hvalid).mp h)⟩
  unfold dfcDerEncodedSize
  rw [hvalid]
  simp only [bind, Except.bind, refuseIf, if_pos hover]

end DfcCore
