import DfcCore.Memory
import DfcCore.DerOctets

/-!
# Writing TLVs

The writer collects octets, or only counts them when it has no buffer. Overflow is
sticky. A constructed component is written with the shortest header first; a long body is
then moved up to make room for its length. `Writes p fn bs` says what a body function is
for: it appends exactly `bs`, or reports an overflow.
-/
namespace DfcCore.Der

/-- `SIZE_MAX` of a 64-bit host. -/
abbrev sizeMax : ℕ := 2 ^ 64 - 1

structure Writer where
  buf : Option Mem
  cap : ℕ
  len : ℕ
  overflow : Bool

def wRaw (bytes : List UInt8) (w : Writer) : Writer :=
  match w.buf with
  | some buf =>
    if w.cap < w.len ∨ w.cap - w.len < bytes.length then { w with overflow := true }
    else { w with buf := some (buf.write w.len bytes), len := w.len + bytes.length }
  | none =>
    if sizeMax - w.len < bytes.length then { w with overflow := true }
    else { w with len := w.len + bytes.length }

def wByte (b : UInt8) (w : Writer) : Writer := wRaw [b] w

def wLen (n : ℕ) (w : Writer) : Writer :=
  if n < 128 then wByte (UInt8.ofNat n) w
  else if n < 256 then w |> wByte 0x81 |> wByte (UInt8.ofNat n)
  else if n ≤ 0xFFFF then w |> wByte 0x82 |> wByte (UInt8.ofNat (n / 256)) |> wByte (UInt8.ofNat n)
  else { w with overflow := true }

def wTlv (tag : UInt8) (body : List UInt8) (w : Writer) : Writer :=
  w |> wByte tag |> wLen body.length |> wRaw body

def wInt (tag : UInt8) (v : ℤ) (w : Writer) : Writer := wTlv tag (encInt v) w

def wBool (tag : UInt8) (v : Bool) (w : Writer) : Writer := wTlv tag (encBool v) w

/-- The step that fails an encode. -/
def wOverflow (w : Writer) : Writer := { w with overflow := true }

/-- Writes the length into the header of a body that is already in place. -/
def wHeader (w : Writer) (start bodyStart bodyLen extra : ℕ) : Option Mem :=
  w.buf.map fun buf =>
    let buf := if 0 < extra then buf.move (bodyStart + extra) bodyStart bodyLen else buf
    if extra = 0 then buf.write (start + 1) [UInt8.ofNat bodyLen]
    else if extra = 1 then
      (buf.write (start + 1) [0x81]).write (start + 2) [UInt8.ofNat bodyLen]
    else
      ((buf.write (start + 1) [0x82]).write (start + 2) [UInt8.ofNat (bodyLen / 256)]).write
        (start + 3) [UInt8.ofNat bodyLen]

def wConstructed (tag : UInt8) (fn : Writer → Writer) (w : Writer) : Writer :=
  if w.overflow then w
  else
    let start := w.len
    let w := w |> wByte tag |> wByte 0  -- short-form placeholder
    if w.overflow then w
    else
      let bodyStart := w.len
      let w := fn w
      if w.overflow then w
      else
        let bodyLen := w.len - bodyStart
        let extra := lenExtra bodyLen
        if 0xFFFF < bodyLen ∨ sizeMax - w.len < extra ∨
            (w.buf.isSome ∧ (w.cap < w.len ∨ w.cap - w.len < extra)) then
          { w with overflow := true }
        else { w with buf := wHeader w start bodyStart bodyLen extra, len := w.len + extra }

/-- The statements of a body function. -/
def wSeq (fs : List (Writer → Writer)) (w : Writer) : Writer := fs.foldl (fun w f => f w) w

/-- A statement under a condition. -/
def wWhen (flag : Bool) (f : Writer → Writer) (w : Writer) : Writer := if flag then f w else w

/-- The loop `for(i = 0; i < n; i++)` over body functions. -/
def wEach (n : ℕ) (fn : ℕ → Writer → Writer) (w : Writer) : Writer :=
  (List.range n).foldl (fun w i => fn i w) w

/-- Whether `n` more octets fit. -/
def Writer.Room (w : Writer) (n : ℕ) : Prop :=
  match w.buf with
  | some _ => w.len + n ≤ w.cap ∧ w.len + n ≤ sizeMax
  | none => w.len + n ≤ sizeMax

def Writer.append (w : Writer) (bs : List UInt8) : Writer :=
  { w with buf := w.buf.map fun buf => buf.write w.len bs, len := w.len + bs.length }

/-- What a body function writes if nothing overflows. Where `p` holds, everything it is
to write can be encoded, and then it writes it whenever there is room. -/
structure Writes (p : Prop) (fn : Writer → Writer) (bs : List UInt8) : Prop where
  sticky : ∀ w, w.overflow = true → (fn w).overflow = true
  exact : ∀ w, w.overflow = false → (fn w).overflow = true ∨ fn w = w.append bs
  fits : p → ∀ w, w.overflow = false → bs.length ≤ 0xFFFF → w.Room bs.length → fn w = w.append bs

theorem Writer.append_append (w : Writer) (a b : List UInt8) :
    (w.append a).append b = w.append (a ++ b) := by
  obtain ⟨buf, cap, len, overflow⟩ := w
  cases buf with
  | none => simp [append, Nat.add_assoc]
  | some buf => simp [append, Mem.write_append, Nat.add_assoc]

@[simp] theorem Writer.append_nil (w : Writer) : w.append [] = w := by
  obtain ⟨buf, cap, len, overflow⟩ := w
  cases buf <;> simp [append]

@[simp] theorem Writer.append_overflow (w : Writer) (bs : List UInt8) :
    (w.append bs).overflow = w.overflow := rfl

theorem Writer.Room.mono {w : Writer} {n m : ℕ} (h : w.Room n) (hm : m ≤ n) : w.Room m := by
  unfold Room at *
  cases hb : w.buf with
  | none => simp only [hb] at h ⊢; omega
  | some buf => simp only [hb] at h ⊢; omega

theorem Writer.Room.append {w : Writer} {a : List UInt8} {n : ℕ} (h : w.Room (a.length + n)) :
    (w.append a).Room n := by
  unfold Room at *
  cases hb : w.buf with
  | none => simp only [hb, Writer.append, Option.map_none] at h ⊢; omega
  | some buf => simp only [hb, Writer.append, Option.map_some] at h ⊢; omega

variable {p : Prop}

/-- A body function that gives up where something cannot be encoded. -/
theorem Writes.overflow (h : ¬p) (bs : List UInt8) : Writes p wOverflow bs where
  sticky _ _ := rfl
  exact _ _ := Or.inl rfl
  fits hp := absurd hp h

theorem Writes.nil : Writes p (fun w => w) [] where
  sticky _ h := h
  exact w _ := Or.inr w.append_nil.symm
  fits _ w _ _ _ := w.append_nil.symm

/-- Two body functions in a row. -/
theorem Writes.seq {f g : Writer → Writer} {a b : List UInt8} (hf : Writes p f a)
    (hg : Writes p g b) : Writes p (fun w => g (f w)) (a ++ b) where
  sticky w h := hg.sticky _ (hf.sticky w h)
  exact w h := by
    rcases hf.exact w h with ho | ha
    · exact Or.inl (hg.sticky _ ho)
    · rw [ha, ← w.append_append]
      exact hg.exact _ h
  fits hp w h hl hr := by
    rw [List.length_append] at hl hr
    have ha := hf.fits hp w h (by omega) (hr.mono (by omega))
    rw [ha, ← w.append_append]
    exact hg.fits hp _ h (by omega) hr.append

theorem Writes.congr {f g : Writer → Writer} {bs : List UInt8} (h : Writes p f bs)
    (hfg : ∀ w, g w = f w) : Writes p g bs := by
  rwa [show g = f from funext hfg]

theorem Writes.each {n : ℕ} {fn : ℕ → Writer → Writer} {bs : ℕ → List UInt8}
    (h : ∀ i < n, Writes p (fn i) (bs i)) :
    Writes p (wEach n fn) ((List.range n).flatMap bs) := by
  induction n with
  | zero => exact Writes.nil
  | succ n ih =>
    rw [List.range_succ, List.flatMap_append, List.flatMap_singleton]
    refine ((ih fun i hi => h i (by omega)).seq (h n (by omega))).congr fun w => ?_
    simp [wEach, List.range_succ]

theorem writes_raw (bytes : List UInt8) : Writes p (wRaw bytes) bytes where
  sticky w h := by
    unfold wRaw
    cases w.buf with
    | none => dsimp only; split_ifs <;> first | rfl | exact h
    | some buf => dsimp only; split_ifs <;> first | rfl | exact h
  exact w h := by
    unfold wRaw Writer.append
    cases hb : w.buf with
    | none =>
      dsimp only
      split_ifs
      · exact Or.inl rfl
      · exact Or.inr (by simp)
    | some buf =>
      dsimp only
      split_ifs
      · exact Or.inl rfl
      · exact Or.inr (by simp)
  fits _ w h _ hr := by
    unfold Writer.Room at hr
    unfold wRaw Writer.append
    cases hb : w.buf with
    | none =>
      simp only [hb] at hr ⊢
      rw [if_neg (by omega)]
      simp
    | some buf =>
      simp only [hb] at hr ⊢
      rw [if_neg (by omega)]
      simp

theorem writes_byte (b : UInt8) : Writes p (wByte b) [b] := writes_raw [b]

theorem writes_len {n : ℕ} (h : n ≤ 0xFFFF) : Writes p (wLen n) (encLen n) := by
  unfold wLen encLen
  split_ifs
  · exact writes_byte _
  · exact (writes_byte 0x81).seq (writes_byte _)
  · exact ((writes_byte 0x82).seq (writes_byte _)).seq (writes_byte _)

theorem writes_tlv (tag : UInt8) (body : List UInt8) :
    Writes p (wTlv tag body) (encTlv tag body) := by
  by_cases h : body.length ≤ 0xFFFF
  · have hw := ((writes_byte (p := p) tag).seq (writes_len h)).seq (writes_raw body)
    simpa [encTlv] using hw.congr (g := wTlv tag body) fun w => rfl
  · -- A body without a length only ever overflows.
    have hover (w : Writer) : (wTlv tag body w).overflow = true := by
      apply (writes_raw (p := True) body).sticky
      unfold wLen
      rw [if_neg (by omega), if_neg (by omega), if_neg h]
    have hlen := length_body_le tag body
    exact ⟨fun w _ => hover w, fun w _ => Or.inl (hover w),
      fun _ w _ hl _ => absurd hl (by omega)⟩

theorem writes_int (tag : UInt8) (v : ℤ) : Writes p (wInt tag v) (encTlv tag (encInt v)) :=
  writes_tlv tag _

theorem writes_bool (tag : UInt8) (v : Bool) : Writes p (wBool tag v) (encTlv tag (encBool v)) :=
  writes_tlv tag _

/-- Moving the body up and writing the header over the gap gives the component in place. -/
theorem write_moved (buf : Mem) (start extra : ℕ) (tag : UInt8) (head body : List UInt8)
    (hh : head.length = 1 + extra) :
    ((buf.write start (tag :: 0 :: body)).move (start + 2 + extra) (start + 2) body.length).write
      (start + 1) head = buf.write start (tag :: (head ++ body)) := by
  funext i
  simp only [Mem.write, Mem.move, List.length_cons, List.length_append]
  by_cases h₁ : start + 1 ≤ i ∧ i < start + 1 + head.length
  · obtain ⟨k, rfl⟩ := Nat.exists_eq_add_of_le h₁.1
    rw [if_pos h₁, if_pos (by omega), show start + 1 + k - start = k + 1 by omega,
      List.getD_cons_succ, Nat.add_sub_cancel_left]
    simp only [List.getD_eq_getElem?_getD]
    rw [List.getElem?_append_left (by omega)]
  rw [if_neg h₁]
  by_cases h₂ : start + 2 + extra ≤ i ∧ i < start + 2 + extra + body.length
  · obtain ⟨k, rfl⟩ := Nat.exists_eq_add_of_le h₂.1
    rw [if_pos h₂, if_pos (by omega), if_pos (by omega), Nat.add_sub_cancel_left,
      show start + 2 + k - start = k + 1 + 1 by omega,
      show start + 2 + extra + k - start = (head.length + k) + 1 by omega]
    rw [List.getD_cons_succ, List.getD_cons_succ, List.getD_cons_succ]
    simp only [List.getD_eq_getElem?_getD]
    rw [List.getElem?_append_right (by omega), Nat.add_sub_cancel_left]
  rw [if_neg h₂]
  by_cases h₃ : i = start
  · subst h₃
    rw [if_pos (by omega), if_pos (by omega), Nat.sub_self]
    rfl
  · rw [if_neg (by omega), if_neg (by omega)]

/-- The header and the moved body are the encoding of the component. -/
theorem wHeader_write {w : Writer} {buf : Mem} (start : ℕ) (tag : UInt8) (body : List UInt8)
    (hw : w.buf = some (buf.write start (tag :: 0 :: body))) (h : body.length ≤ 0xFFFF) :
    wHeader w start (start + 2) body.length (lenExtra body.length) =
      some (buf.write start (encTlv tag body)) := by
  have hmove (m : Mem) (k : ℕ) : m.move (k + 0) k body.length = m := by
    funext i
    simp only [Mem.move]
    split_ifs with hi
    · congr 1
      omega
    · rfl
  rw [wHeader, hw, Option.map_some, Option.some.injEq]
  by_cases h₁ : body.length < 128
  · have hx : lenExtra body.length = 0 := by
      rw [lenExtra, if_neg (by omega), if_neg (by omega)]
    have hmv := write_moved buf start 0 tag [UInt8.ofNat body.length] body rfl
    rw [hmove] at hmv
    rw [hx, encTlv, encLen, if_pos h₁]
    exact hmv
  by_cases h₂ : body.length < 256
  · have hx : lenExtra body.length = 1 := by
      rw [lenExtra, if_neg (by omega), if_pos (by omega)]
    have hmv := write_moved buf start 1 tag [0x81, UInt8.ofNat body.length] body rfl
    have happ := Mem.write_append ((buf.write start (tag :: 0 :: body)).move (start + 2 + 1)
      (start + 2) body.length) (start + 1) [0x81] [UInt8.ofNat body.length]
    rw [hx, encTlv, encLen, if_neg h₁, if_pos h₂]
    exact happ.trans hmv
  · have hx : lenExtra body.length = 2 := by
      rw [lenExtra, if_pos (by omega)]
    have hmv := write_moved buf start 2 tag
      [0x82, UInt8.ofNat (body.length / 256), UInt8.ofNat body.length] body rfl
    have happ := Mem.write_append ((buf.write start (tag :: 0 :: body)).move (start + 2 + 2)
      (start + 2) body.length) (start + 1) [0x82] [UInt8.ofNat (body.length / 256)]
    have happ' := Mem.write_append ((buf.write start (tag :: 0 :: body)).move (start + 2 + 2)
      (start + 2) body.length) (start + 1) [0x82, UInt8.ofNat (body.length / 256)]
      [UInt8.ofNat body.length]
    rw [hx, encTlv, encLen, if_neg h₁, if_neg h₂, if_pos h]
    exact ((congrArg (fun m : Mem => m.write (start + 3) [UInt8.ofNat body.length]) happ).trans
      happ').trans hmv

/-- The last step of a constructed component, once its body is in place. -/
theorem wConstructed_eq {tag : UInt8} {fn : Writer → Writer} {body : List UInt8} {w : Writer}
    (hw : w.overflow = false) (hph : (w |> wByte tag |> wByte 0) = w.append [tag, 0])
    (hfn : fn (w.append [tag, 0]) = (w.append [tag, 0]).append body) :
    ((wConstructed tag fn w).overflow = true ∨
      wConstructed tag fn w = w.append (encTlv tag body)) ∧
    (body.length ≤ 0xFFFF → w.Room (encTlv tag body).length →
      wConstructed tag fn w = w.append (encTlv tag body)) := by
  have hin : (w.append [tag, 0]).append body = w.append (tag :: 0 :: body) :=
    w.append_append [tag, 0] body
  have hlen : (w.append (tag :: 0 :: body)).len - (w.append [tag, 0]).len = body.length := by
    simp only [Writer.append, List.length_cons, List.length_nil]
    omega
  have hfinal : body.length ≤ 0xFFFF →
      { buf := wHeader (w.append (tag :: 0 :: body)) w.len (w.append [tag, 0]).len body.length
          (lenExtra body.length)
        cap := (w.append (tag :: 0 :: body)).cap
        len := (w.append (tag :: 0 :: body)).len + lenExtra body.length
        overflow := false : Writer } = w.append (encTlv tag body) := by
    intro hb
    have hl := length_encTlv tag hb
    have hbuf : wHeader (w.append (tag :: 0 :: body)) w.len (w.append [tag, 0]).len body.length
        (lenExtra body.length) = w.buf.map fun buf => buf.write w.len (encTlv tag body) := by
      cases hwb : w.buf with
      | none => simp [wHeader, Writer.append, hwb]
      | some buf =>
        rw [Option.map_some]
        exact wHeader_write w.len tag body (by simp [Writer.append, hwb]) hb
    rw [hbuf]
    simp only [Writer.append, List.length_cons, hl, hw]
    congr 1
    omega
  rw [wConstructed]
  simp only [hw, hph, Writer.append_overflow, Bool.false_eq_true, if_false, hfn, hin, hlen]
  constructor
  · split_ifs with hc
    · exact Or.inl rfl
    · exact Or.inr (hfinal (by omega))
  · intro hb hr
    have hl := length_encTlv tag hb
    rw [if_neg ?_]
    · exact hfinal hb
    · unfold Writer.Room at hr
      cases hwb : w.buf with
      | none =>
        simp only [hwb, Writer.append, Option.map_none, List.length_cons] at hr ⊢
        simp
        omega
      | some buf =>
        simp only [hwb, Writer.append, Option.map_some, List.length_cons] at hr ⊢
        simp
        omega

/-- A constructed component is the encoding of what its body function writes. -/
theorem Writes.constructed (tag : UInt8) {fn : Writer → Writer} {body : List UInt8}
    (h : Writes p fn body) : Writes p (wConstructed tag fn) (encTlv tag body) where
  sticky w hw := by
    rw [wConstructed, if_pos hw]
    exact hw
  exact w hw := by
    rcases ((writes_byte (p := True) tag).seq (writes_byte 0)).exact w hw with ho | hph
    · left
      rw [wConstructed, if_neg (by simp [hw])]
      dsimp only at ho ⊢
      rw [if_pos ho]
      exact ho
    rcases h.exact (w.append [tag, 0]) hw with ho | hfn
    · left
      rw [wConstructed, if_neg (by simp [hw])]
      dsimp only at hph ⊢
      rw [hph, List.singleton_append]
      rw [if_neg (by simp [hw]), if_pos ho]
      exact ho
    exact (wConstructed_eq hw hph hfn).1
  fits hp w hw hl hr := by
    have hbody := length_body_le tag body
    have hb : body.length ≤ 0xFFFF := by omega
    have hlen := length_encTlv tag hb
    have hph := ((writes_byte tag).seq (writes_byte 0)).fits trivial w hw (by simp)
      (hr.mono (by simp; omega))
    have hfn := h.fits hp (w.append [tag, 0]) hw hb
      (Writer.Room.append (hr.mono (by simp; omega)))
    exact (wConstructed_eq hw hph hfn).2 hb hr

theorem Writes.when {flag : Bool} {f : Writer → Writer} {tag : UInt8} {body : Slice}
    (h : flag = true → Writes p f (encTlv tag body)) :
    Writes p (wWhen flag f) (optTlv tag (if flag then some body else none)) := by
  cases flag with
  | false => exact Writes.nil
  | true => exact h rfl

/-- The statements of a body function write the components one by one. -/
theorem Writes.fields {fs : List (Writer → Writer)} {l : List (UInt8 × Option Slice)}
    (h : List.Forall₂ (fun f x => Writes p f (optTlv x.1 x.2)) fs l) :
    Writes p (wSeq fs) (encFields l) := by
  induction h with
  | nil => exact Writes.nil
  | cons hf hl ih => exact hf.seq ih

/-- A loop writes the items of a list. -/
theorem Writes.items {n : ℕ} {fn : ℕ → Writer → Writer} {item : ℕ → Tlv}
    (h : ∀ i < n, Writes p (fn i) (encTlv (item i).tag (item i).body)) :
    Writes p (wEach n fn) (encItems ((List.range n).map item)) := by
  rw [encItems, List.flatMap_map]
  exact Writes.each h

end DfcCore.Der
