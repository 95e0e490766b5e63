import DfcCore.Lifecycle
import DfcCore.ReaderResponse
import DfcCore.PoolRuns

/-!
# The directory of applications

What the commands on applications do to the directory: the identifiers, in the order of
the application array. Work on keys and files leaves it alone, a creation adds one entry
at the end, and the deletion of the last application takes that entry away. No packing of
the pools is assumed.
-/
namespace DfcCore
open Der

/-- Two credentials list the same applications. -/
structure SameDirectory (c c' : DfcCredential) : Prop where
  numApps : c'.numApps = c.numApps
  aid : ∀ j, (c'.apps j).aid = (c.apps j).aid

theorem SameDirectory.refl (c : DfcCredential) : SameDirectory c c := ⟨rfl, fun _ => rfl⟩

theorem SameDirectory.trans {a b c : DfcCredential} (h : SameDirectory a b)
    (h' : SameDirectory b c) : SameDirectory a c :=
  ⟨h'.numApps.trans h.numApps, fun j => (h'.aid j).trans (h.aid j)⟩

theorem aid_of_unplaced {a b : DfcApplication} (h : a.unplaced = b.unplaced) : a.aid = b.aid :=
  show a.unplaced.aid = b.unplaced.aid by rw [h]

theorem sameDirectory_modifyApp (c : DfcCredential) (i : ℕ) {f : DfcApplication → DfcApplication}
    (hf : ∀ app, (f app).aid = app.aid) : SameDirectory c (c.modifyApp i f) := by
  refine ⟨rfl, fun j => ?_⟩
  rw [modifyApp_apps]
  split_ifs with hj
  · rw [hf, hj]
  · rfl

theorem sameDirectory_keysRelease (c : DfcCredential) (p : Option ℕ) :
    SameDirectory c (dfcCredentialKeysRelease c p) := by
  refine ⟨keysRelease_numApps c p, fun j => ?_⟩
  rw [aid_of_unplaced (keysRelease_apps c p j)]
  split_ifs <;> rfl

theorem sameDirectory_setKeyCounts (c : DfcCredential) (p : Option ℕ) (a b d : ℕ) :
    SameDirectory c (setKeyCounts c p a b d) := by
  refine ⟨by cases p <;> rfl, fun j => ?_⟩
  rw [setKeyCounts_apps]
  split_ifs <;> rfl

theorem sameDirectory_cutKeySlice (c : DfcCredential) (p : Option ℕ) (want : ℕ) :
    SameDirectory c (dfcCredentialCutKeySlice c p want) := by
  refine ⟨by cases p <;> rfl, fun j => ?_⟩
  rw [cutKeySlice_apps]
  split_ifs <;> rfl

theorem sameDirectory_setCountsOnly (c : DfcCredential) (p : Option ℕ) (a b : ℕ) :
    SameDirectory c (setKeyLen (setNumKeys c p a) p b) := by
  cases p with
  | none => exact ⟨rfl, fun _ => rfl⟩
  | some i =>
    have hnum :=
      sameDirectory_modifyApp c i (f := fun app => { app with numKeys := a }) fun _ => rfl
    exact hnum.trans
      (sameDirectory_modifyApp _ i (f := fun app => { app with keyLen := b }) fun _ => rfl)

theorem sameDirectory_keysResizeTotal (c : DfcCredential) (p : Option ℕ)
    (numKeys allocatedKeys keyLen storageKeyLen : ℕ) :
    SameDirectory c
      (dfcCredentialKeysResizeTotal c p numKeys allocatedKeys keyLen storageKeyLen).1 := by
  have hrel := sameDirectory_keysRelease c p
  -- Every test of the resize either refuses, and keeps the card, or goes on.
  have htest {q : Prop} [Decidable q] {r : DfcCredential × Bool} (h : SameDirectory c r.1) :
      SameDirectory c (if q then (c, false) else r).1 :=
    iteInduction (motive := fun r : DfcCredential × Bool => SameDirectory c r.1)
      (fun _ => SameDirectory.refl c) (fun _ => h)
  rw [dfcCredentialKeysResizeTotal]
  refine htest (htest (htest (htest (htest (htest ?_)))))
  cases dfcPoolSliceResolve (keyOffsetOf c p) (keyPoolLenOf c p) c.keyPoolUsed dfcKeyPoolNone with
  | none => exact SameDirectory.refl c
  | some oldOffset =>
    refine iteInduction (motive := fun r : DfcCredential × Bool => SameDirectory c r.1)
      (fun _ => sameDirectory_setKeyCounts c p _ _ _) (fun _ => htest (htest ?_))
    refine iteInduction (motive := fun r : DfcCredential × Bool => SameDirectory c r.1)
      (fun _ => hrel.trans (sameDirectory_setCountsOnly _ p _ _)) (fun _ => ?_)
    exact (hrel.trans (sameDirectory_cutKeySlice _ p _)).trans
      (sameDirectory_setKeyCounts _ p _ _ _)

theorem sameDirectory_metadataResize (c : DfcCredential) (i want : ℕ) :
    SameDirectory c (dfcKeySetMetadataResize c i want).1 := by
  refine ⟨metadataResize_numApps c i want, fun j => ?_⟩
  have hrel : ((dfcKeySetMetadataRelease c i).apps j).aid = (c.apps j).aid := by
    rw [aid_of_unplaced (metadataRelease_apps c i j).1]
    split_ifs <;> rfl
  rw [dfcKeySetMetadataResize]
  split_ifs
  · rfl
  · exact hrel
  · exact ((sameDirectory_modifyApp (dfcKeySetMetadataRelease c i) i (f := fun app =>
      { app with
        keySetMetadataOffset := u16 (dfcKeySetMetadataRelease c i).keySetMetadataPoolUsed
        keySetMetadataLen := u16 want }) fun _ => rfl).aid j).trans hrel

theorem sameDirectory_keysResize (c : DfcCredential) (p : Option ℕ) (numKeys keyLen : ℕ) :
    SameDirectory c (dfcCredentialKeysResize c p numKeys keyLen).1 := by
  have htotal := sameDirectory_keysResizeTotal c p numKeys numKeys keyLen keyLen
  rw [dfcCredentialKeysResize]
  cases hr : dfcCredentialKeysResizeTotal c p numKeys numKeys keyLen keyLen with
  | mk d ok =>
    rw [hr] at htotal
    cases ok with
    | false => exact htotal
    | true =>
      cases p with
      | none => exact htotal
      | some i =>
        refine htotal.trans (SameDirectory.trans ?_ (sameDirectory_metadataResize _ i 0))
        exact sameDirectory_modifyApp d i fun _ => rfl

theorem sameDirectory_keySetsResize (c : DfcCredential)
    (i numKeySets numKeys activeKeyLen maxKeySize : ℕ) :
    SameDirectory c
      (dfcCredentialKeySetsResize c i numKeySets numKeys activeKeyLen maxKeySize).1 := by
  have hsame := SameDirectory.refl c
  have htotal := sameDirectory_keysResizeTotal c (some i) numKeys (numKeys * numKeySets)
    activeKeyLen maxKeySize
  rw [dfcCredentialKeySetsResize]
  dsimp only
  generalize dfcKeySetMetadataLength numKeySets numKeys = metadataLen
  cases hr : dfcCredentialKeysResizeTotal c (some i) numKeys (numKeys * numKeySets) activeKeyLen
      maxKeySize with
  | mk d ok =>
    rw [hr] at htotal
    have hmeta := htotal.trans (sameDirectory_metadataResize d i metadataLen)
    cases hm : dfcKeySetMetadataResize d i metadataLen with
    | mk d' ok' =>
      rw [hm] at hmeta
      have hcounts := hmeta.trans (sameDirectory_modifyApp d' i (f := fun app =>
        { app with numKeySets := u8 numKeySets, maxKeySize := u8 maxKeySize }) fun _ => rfl)
      generalize hd'' : d'.modifyApp i (fun app =>
        { app with numKeySets := u8 numKeySets, maxKeySize := u8 maxKeySize }) = d'' at hcounts
      cases ok <;> cases ok'
      all_goals simp only [hm, hd'']
      all_goals split_ifs
      all_goals try assumption
      all_goals cases dfcKeySetMetadataSlice d'' (d''.apps i) <;>
        exact ⟨hcounts.numApps, hcounts.aid⟩

theorem sameDirectory_storeKeySetTypes (c : DfcCredential) (i : ℕ) (type : UInt8) :
    SameDirectory c (storeKeySetTypes c i type).1 := by
  rw [storeKeySetTypes]
  generalize List.range (c.apps i).numKeySets = sets
  refine List.foldlRecOn sets _ (motive := fun acc : DfcCredential × Bool =>
    SameDirectory c acc.1) (SameDirectory.refl c) ?_
  intro acc hacc set _
  split_ifs
  · exact hacc
  · cases dfcCredentialKeySetType acc.1 (acc.1.apps i) set with
    | none => exact hacc
    | some at' => exact ⟨hacc.numApps, hacc.aid⟩

theorem sameDirectory_installKeySets (c : DfcCredential) (i keyCount : ℕ) (keySettings2 : UInt8)
    (sets : NewKeySets) : SameDirectory c (installKeySets c i keyCount keySettings2 sets).1 := by
  have hresize := sameDirectory_keySetsResize c i sets.keySetCount.toNat keyCount
    (dfcCredentialKeyLength keySettings2) sets.maxKeySize.toNat
  rw [installKeySets]
  cases hr : dfcCredentialKeySetsResize c i sets.keySetCount.toNat keyCount
      (dfcCredentialKeyLength keySettings2) sets.maxKeySize.toNat with
  | mk d ok =>
    rw [hr] at hresize
    cases ok with
    | false => exact hresize
    | true =>
      have hsettings := hresize.trans (sameDirectory_modifyApp d i (f := fun app =>
        { app with keySetSettings := sets.keySetSettings }) fun _ => rfl)
      dsimp only
      generalize d.modifyApp i (fun app =>
        { app with keySetSettings := sets.keySetSettings }) = d' at hsettings ⊢
      cases dfcCredentialKeySetVersion d' (d'.apps i) 0 with
      | none => exact hsettings
      | some at' =>
        have hversion : SameDirectory c { d' with
            keySetMetadataPool := d'.keySetMetadataPool.write at' [sets.activeKeySetVersion] } :=
          ⟨hsettings.numApps, hsettings.aid⟩
        exact hversion.trans (sameDirectory_storeKeySetTypes _ i _)

/-- The directory with one more entry at the end, stored in the order opposite to the
wire's. -/
structure DirectoryGrown (c c' : DfcCredential) (aid : Mem) : Prop where
  numApps : c'.numApps = c.numApps + 1
  kept : ∀ j < c.numApps, (c'.apps j).aid = (c.apps j).aid
  first : (c'.apps c.numApps).aid 0 = aid 2
  middle : (c'.apps c.numApps).aid 1 = aid 1
  last : (c'.apps c.numApps).aid 2 = aid 0

theorem DirectoryGrown.trans {a b c : DfcCredential} {aid : Mem} (h : DirectoryGrown a b aid)
    (h' : SameDirectory b c) : DirectoryGrown a c aid where
  numApps := h'.numApps.trans h.numApps
  kept j hj := (h'.aid j).trans (h.kept j hj)
  first := by rw [h'.aid, h.first]
  middle := by rw [h'.aid, h.middle]
  last := by rw [h'.aid, h.last]

theorem createApplicationDesfireOrder_grown {c c' : DfcCredential} {aid : Mem}
    {keySettings1 keySettings2 : UInt8} {i : ℕ}
    (h : dfcCredentialCreateApplicationDesfireOrder c aid keySettings1 keySettings2 =
      (c', some i)) : i = c.numApps ∧ DirectoryGrown c c' aid := by
  rw [dfcCredentialCreateApplicationDesfireOrder] at h
  by_cases hfull : dfcMaxApps ≤ c.numApps
  · rw [if_pos hfull] at h
    cases h
  rw [if_neg hfull] at h
  by_cases hdup : (dfcCredentialFindApplicationDesfireOrder c aid).isSome = true
  · rw [if_pos hdup] at h
    cases h
  rw [if_neg hdup] at h
  dsimp only at h
  by_cases hkeys : (keySettings2 &&& dfcNumKeysMask).toNat = 0 ∨
      dfcEv1MaxKeysPerApp < (keySettings2 &&& dfcNumKeysMask).toNat ∨
      dfcMaxKeys < (keySettings2 &&& dfcNumKeysMask).toNat
  · rw [if_pos hkeys] at h
    cases h
  rw [if_neg hkeys] at h
  have hresize := sameDirectory_keysResize
    (c.modifyApp c.numApps fun _ => dfcCredentialResetApplication) (some c.numApps)
    (keySettings2 &&& dfcNumKeysMask).toNat (dfcCredentialKeyLength keySettings2)
  cases hr : dfcCredentialKeysResize
      (c.modifyApp c.numApps fun _ => dfcCredentialResetApplication) (some c.numApps)
      (keySettings2 &&& dfcNumKeysMask).toNat (dfcCredentialKeyLength keySettings2) with
  | mk d ok =>
    rw [hr] at hresize
    cases ok with
    | false =>
      rw [hr] at h
      cases h
    | true =>
      simp only [hr, Prod.mk.injEq, Option.some.injEq] at h
      obtain ⟨rfl, rfl⟩ := h
      have hnum : d.numApps = c.numApps := hresize.numApps
      refine ⟨rfl, congrArg (· + 1) hnum, fun j hj => ?_, ?_, ?_, ?_⟩
      · rw [modifyApp_apps, if_neg hj.ne]
        exact (hresize.aid j).trans (by rw [modifyApp_apps, if_neg hj.ne])
      all_goals
        rw [modifyApp_apps, if_pos rfl]
        rfl

theorem installApplication_grown {c c' : DfcCredential} {aid : Mem}
    {keySettings1 keySettings2 : UInt8} {sets : Option NewKeySets}
    {iso : Option (UInt16 × List UInt8)}
    (h : installApplication c aid keySettings1 keySettings2 sets iso = (c', dfcStatusOk)) :
    DirectoryGrown c c' aid := by
  rw [installApplication] at h
  generalize hks2 : (if iso.isSome then keySettings2 ||| dfcKs2IsoFileIds else keySettings2) = ks2
    at h
  dsimp only at h
  cases hr : dfcCredentialCreateApplicationDesfireOrder c aid keySettings1 ks2 with
  | mk d created =>
    cases created with
    | none =>
      rw [hr] at h
      have hstatus : dfcStatusParameterError = dfcStatusOk := congrArg Prod.snd h
      exact absurd hstatus (by decide)
    | some i =>
      rw [hr] at h
      obtain ⟨hi, hgrown⟩ := createApplicationDesfireOrder_grown hr
      have hauth := hgrown.trans (sameDirectory_modifyApp d i (f := fun app =>
        { app with
          hasAuthCommands := true
          authCommands := dfcCredentialDefaultAuthCommands ks2 d.card.generation |||
            dfcAuthCommandIso7816 }) fun _ => rfl)
      dsimp only at h
      generalize d.modifyApp i (fun app =>
        { app with
          hasAuthCommands := true
          authCommands := dfcCredentialDefaultAuthCommands ks2 d.card.generation |||
            dfcAuthCommandIso7816 }) = d' at hauth h
      have hplaced : DirectoryGrown c
          (installKeySetsIfAny d' i (keySettings2 &&& dfcNumKeysMask).toNat ks2 sets).1 aid := by
        cases sets with
        | none => exact hauth
        | some sets => exact hauth.trans (sameDirectory_installKeySets d' i _ ks2 sets)
      generalize installKeySetsIfAny d' i (keySettings2 &&& dfcNumKeysMask).toNat ks2 sets = placed
        at hplaced h
      obtain ⟨d'', ok⟩ := placed
      cases ok with
      | false =>
        have hstatus : dfcStatusOutOfEeprom = dfcStatusOk := congrArg Prod.snd h
        exact absurd hstatus (by decide)
      | true =>
        obtain rfl := congrArg Prod.fst h
        have hnamed := hplaced.trans (sameDirectory_modifyApp d'' i (f := fun app =>
          app.identify iso) fun app => by cases iso <;> rfl)
        exact ⟨hnamed.numApps, hnamed.kept, hnamed.first, hnamed.middle, hnamed.last⟩

theorem neverOk_createDeleteAccess (e : DfcEmulator) : NeverOk (requireCreateDeleteAccess e) :=
  .refuseIf (by decide)

theorem neverOk_selectedApplication (e : DfcEmulator) : NeverOk (requireSelectedApplication e) :=
  .refuseIf (by decide)

theorem neverOk_extendedSettings (apdu : List UInt8) : NeverOk (parseExtendedSettings apdu) := by
  refine .ite (.ok _) (.bind (.refuseIf (by decide)) fun _ => .ite (.ok _) ?_)
  exact .bind (.refuseIf (by decide)) fun _ => .bind (.refuseIf (by decide)) fun _ => .ok _

theorem neverOk_isoIdentity (c : DfcCredential) (apdu : List UInt8) (offset : ℕ) :
    NeverOk (parseIsoIdentity c apdu offset) := by
  refine .ite (.ok _) (.bind (.refuseIf (by decide)) fun _ => ?_)
  exact .bind (.refuseIf (by decide)) fun _ => .bind (.refuseIf (by decide)) fun _ => .ok _

theorem createApplication_ok {e e' : DfcEmulator} {apdu : List UInt8}
    (h : dfcEmulatorCommandCreateApplication e apdu = (e', [dfcStatusOk])) :
    dfcCredentialFindApplicationDesfireOrder e.credential (wireAid apdu) = none ∧
      e.credential.numApps < dfcMaxApps ∧
      DirectoryGrown e.credential e'.credential (wireAid apdu) := by
  have hok := DfcEmulator.answer_ok h (by
    refine .bind (.refuseIf (by decide)) fun _ => .bind (.refuseIf (by decide)) fun _ => ?_
    refine .bind (neverOk_createDeleteAccess e) fun _ => .bind (.refuseIf (by decide)) fun _ => ?_
    refine .bind (.refuseIf (by decide)) fun _ => .bind (.refuseIf (by decide)) fun _ => ?_
    refine .bind (.refuseIf (by decide)) fun _ => .bind (.refuseIf (by decide)) fun _ => ?_
    exact .bind (neverOk_extendedSettings apdu) fun _ =>
      .bind (neverOk_isoIdentity e.credential apdu _) fun _ => .ok _)
  simp only [bind_eq_ok, refuseIf_eq_ok] at hok
  obtain ⟨-, -, -, -, -, -, -, -, -, -, -, hfresh, -, -, -, hroom, settings, -, iso, -, hok⟩ := hok
  cases hr : installApplication e.credential (wireAid apdu) (apdu.getD 4 0) (apdu.getD 5 0)
      settings.2 iso with
  | mk d status =>
    rw [hr] at hok
    obtain ⟨rfl, hstatus⟩ := Prod.mk.inj (Except.ok.inj hok)
    obtain rfl : status = dfcStatusOk := (List.cons.inj hstatus).1
    exact ⟨by simpa using hfresh, not_le.mp hroom, installApplication_grown hr⟩

/-- An identifier of the wire names the application at an index. -/
theorem findApplication_matches {c : DfcCredential} {aid : Mem} {i : ℕ}
    (h : dfcCredentialFindApplicationDesfireOrder c aid = some i) :
    aid 0 = (c.apps i).aid 2 ∧ aid 1 = (c.apps i).aid 1 ∧ aid 2 = (c.apps i).aid 0 := by
  have hi := List.find?_some h
  simpa [and_assoc] using hi

/-- The new application is found under the identifier it was created with. -/
theorem DirectoryGrown.find {c c' : DfcCredential} {aid : Mem} (h : DirectoryGrown c c' aid)
    (hfresh : dfcCredentialFindApplicationDesfireOrder c aid = none) :
    dfcCredentialFindApplicationDesfireOrder c' aid = some c.numApps := by
  have hold := List.find?_range_eq_none.mp hfresh
  refine List.find?_range_eq_some.mpr ⟨?_, ?_, fun j hj => ?_⟩
  · simp [h.first, h.middle, h.last]
  · simp [h.numApps]
  · rw [h.kept j hj]
    exact hold j hj

/-- The search reads the three octets of an identifier only. -/
theorem findApplication_congr (c : DfcCredential) {a b : Mem} (h0 : a 0 = b 0) (h1 : a 1 = b 1)
    (h2 : a 2 = b 2) : dfcCredentialFindApplicationDesfireOrder c a =
      dfcCredentialFindApplicationDesfireOrder c b := by
  simp only [dfcCredentialFindApplicationDesfireOrder, h0, h1, h2]

theorem decodeAids_flatMap {α : Type} (l : List α) (f : α → Mem) :
    decodeAids (l.flatMap fun a => [f a 2, f a 1, f a 0]) =
      l.map fun a => [f a 0, f a 1, f a 2] := by
  induction l with
  | nil => rfl
  | cons a l ih => simp [decodeAids, ih]

theorem length_applicationIds (c : DfcCredential) :
    (applicationIds c).length = 3 * c.numApps := by
  simp [applicationIds, List.length_flatMap, Nat.mul_comm]

/-- The decoder gives back the stored identifiers. -/
theorem decodeApplicationIds_applicationIds {c : DfcCredential} {capacity : ℕ}
    (h : c.numApps ≤ capacity) :
    dfcResponseDecodeApplicationIds (applicationIds c) capacity =
      .ok ((List.range c.numApps).map fun i =>
        [(c.apps i).aid 0, (c.apps i).aid 1, (c.apps i).aid 2]) := by
  have hlen := length_applicationIds c
  rw [dfcResponseDecodeApplicationIds, if_neg (by omega), if_neg (by omega)]
  exact congrArg Except.ok (decodeAids_flatMap (List.range c.numApps) fun i => (c.apps i).aid)

section continuation
variable {e : DfcEmulator} {frame : ℕ} (hframe : 0 < frame) (hl : e.pendingChainLast = frame)
  (hne : e.pendingChain ≠ [])
include hframe hl hne

theorem continuation_last (hlen : e.pendingChain.length ≤ frame) :
    handlePendingChainContinuation e =
      (dfcEmulatorCommandClearPendingChain e, dfcStatusOk :: e.pendingChain) := by
  simp [handlePendingChainContinuation, hl, hframe.ne', hlen, hne]

theorem continuation_more (hf : e.pendingChainFrame = frame)
    (hlen : frame < e.pendingChain.length) :
    handlePendingChainContinuation e =
      ({ e with pendingChain := e.pendingChain.drop frame },
        dfcCmdAdditionalFrame :: e.pendingChain.take frame) := by
  simp [handlePendingChainContinuation, hf, hl, hframe.ne', not_le.mpr hlen, hne, hlen.ne]

end continuation

/-- The frames of a chained answer are gathered to what was left to send. -/
theorem gatherFrames_continuation {frame : ℕ} (hframe : 0 < frame) (fuel : ℕ) (e : DfcEmulator)
    (hf : e.pendingChainFrame = frame) (hl : e.pendingChainLast = frame)
    (hne : e.pendingChain ≠ []) (hlen : e.pendingChain.length ≤ fuel + 1) :
    gatherFrames fuel (handlePendingChainContinuation e) = some e.pendingChain := by
  induction fuel generalizing e with
  | zero =>
    rw [continuation_last hframe hl hne (by omega)]
    simp [gatherFrames]
  | succ fuel ih =>
    by_cases hlast : e.pendingChain.length ≤ frame
    · rw [continuation_last hframe hl hne hlast]
      simp [gatherFrames]
    · have hrest := ih { e with pendingChain := e.pendingChain.drop frame } hf hl
        (by simp only [ne_eq, List.drop_eq_nil_iff]; omega)
        (by simp only [List.length_drop]; omega)
      rw [continuation_more hframe hl hne hf (by omega), gatherFrames, if_neg (by decide),
        if_pos rfl, hrest]
      simp

/-- A reader that asks on gathers the whole payload. -/
theorem gatherFrames_emit (e : DfcEmulator) (payload : List UInt8) (fuel : ℕ) {entry : ℕ}
    (hframe : 0 < ev1FramePayload e entry)
    (hfit : payload.length ≤ dfcEmulatorChainBufferSize) (hfuel : payload.length ≤ fuel) :
    gatherFrames fuel (dfcEmulatorCommandEmitPayloadWithChaining e payload entry) =
      some payload := by
  rw [dfcEmulatorCommandEmitPayloadWithChaining]
  generalize ev1FramePayload e entry = frame at hframe ⊢
  by_cases hone : payload.length ≤ frame
  · cases fuel <;> simp [hone, gatherFrames]
  · cases fuel with
    | zero => omega
    | succ fuel =>
      have htake : (payload.drop frame).take dfcEmulatorChainBufferSize = payload.drop frame := by
        apply List.take_of_length_le
        simp only [List.length_drop]
        omega
      simp only [if_neg hone, htake, gatherFrames]
      rw [if_neg (by decide), if_pos trivial, gatherFrames_continuation hframe fuel _ rfl rfl
        (by simp only [ne_eq, List.drop_eq_nil_iff]; omega)
        (by simp only [List.length_drop]; omega)]
      simp

theorem getApplicationIds_eq {e : DfcEmulator} (hpicc : e.selectedApplication = .picc)
    (haccess : requireDirectoryAccess e = .ok ()) :
    dfcEmulatorCommandGetApplicationIds e =
      dfcEmulatorCommandEmitPayloadWithChaining e (applicationIds e.credential) 3 := by
  simp [dfcEmulatorCommandGetApplicationIds, hpicc, haccess, refuseIf, DfcEmulator.answer, bind,
    Except.bind, pure, Except.pure]

/-- The application records are untouched. -/
structure AppsKept (c c' : DfcCredential) : Prop where
  apps : c'.apps = c.apps
  numApps : c'.numApps = c.numApps

theorem AppsKept.refl (c : DfcCredential) : AppsKept c c := ⟨rfl, rfl⟩

theorem AppsKept.trans {a b c : DfcCredential} (h : AppsKept a b) (h' : AppsKept b c) :
    AppsKept a c :=
  ⟨h'.apps.trans h.apps, h'.numApps.trans h.numApps⟩

theorem appsKept_restoreFile (s : DfcTransactionSnapshot) (c : DfcCredential) (i : ℕ) :
    AppsKept c (snapshotRestoreFile s c i) := by
  rw [snapshotRestoreFile]
  split_ifs <;> exact ⟨rfl, rfl⟩

theorem appsKept_eraseFile (appIndex : ℕ) (c : DfcCredential) (i : ℕ) :
    AppsKept c (snapshotEraseFile appIndex c i) := by
  rw [snapshotEraseFile]
  split_ifs <;> exact ⟨rfl, rfl⟩

theorem appsKept_foldl {f : DfcCredential → ℕ → DfcCredential} (hf : ∀ c i, AppsKept c (f c i))
    (files : List ℕ) (c : DfcCredential) : AppsKept c (files.foldl f c) := by
  induction files generalizing c with
  | nil => exact AppsKept.refl c
  | cons i files ih => exact (hf c i).trans (ih (f c i))

theorem appsKept_abortSnapshot (e : DfcEmulator) :
    AppsKept e.credential (dfcEmulatorAbortTransactionSnapshot e).1.credential := by
  have hrestore := appsKept_foldl (appsKept_restoreFile e.snapshot)
    (List.range e.credential.numFiles) e.credential
  have herase := appsKept_foldl (appsKept_eraseFile e.snapshot.appIndex)
    (List.range e.credential.numFiles) e.credential
  rw [dfcEmulatorAbortTransactionSnapshot]
  split_ifs
  · exact AppsKept.refl _
  · exact ⟨hrestore.apps, hrestore.numApps⟩
  · exact ⟨herase.apps, herase.numApps⟩

/-- An abort works on the files alone. -/
theorem appsKept_abortTransaction (e : DfcEmulator) :
    AppsKept e.credential (dfcEmulatorAbortTransaction e).1.credential := by
  rw [dfcEmulatorAbortTransaction]
  by_cases hmac : (e.transactionMac.hasPending || e.transactionReaderIdPending) = true
  · have h := appsKept_abortSnapshot e.clearTransactionMac
    simp only [hmac, if_true]
    exact ⟨h.apps, h.numApps⟩
  · have h := appsKept_abortSnapshot e
    simp only [hmac]
    exact ⟨h.apps, h.numApps⟩

theorem appsKept_selectApplication (e : DfcEmulator) (selection : DfcEmulatorSelectedApplication)
    (i : ℕ) : AppsKept e.credential (dfcEmulatorSelectApplication e selection i).credential :=
  appsKept_abortTransaction e

theorem fileFrame_dropFilesOf (appIndex fuel : ℕ) (c : DfcCredential) (i : ℕ) :
    FileFrame c (dfcCredentialDropFilesOf c appIndex fuel i) := by
  induction fuel generalizing c i with
  | zero => exact FileFrame.refl c
  | succ fuel ih =>
    rw [dfcCredentialDropFilesOf]
    split_ifs
    · exact FileFrame.refl c
    · exact ((fileFrame_release c i).trans (fileFrame_remove _ i)).trans (ih _ _)
    · exact (fileFrame_modifyFile c i _).trans (ih _ _)
    · exact ih c _

/-- Deleting the last application leaves the records before it as they were, up to their
places in the pools. -/
theorem deleteApplicationAt_last {c : DfcCredential} {i : ℕ} (h : c.numApps = i + 1) :
    (dfcCredentialDeleteApplicationAt c i).1.numApps = i ∧
      ∀ j < i, ((dfcCredentialDeleteApplicationAt c i).1.apps j).unplaced =
        (c.apps j).unplaced := by
  have hdrop := fileFrame_dropFilesOf i (dfcCredentialKeysRelease c (some i)).numFiles
    (dfcCredentialKeysRelease c (some i)) 0
  have hnum := hdrop.numApps.trans (keysRelease_numApps c (some i))
  rw [dfcCredentialDeleteApplicationAt, if_neg (by omega)]
  dsimp only
  rw [hnum, h, Nat.add_sub_cancel, hdrop.apps]
  refine ⟨rfl, fun j hj => ?_⟩
  rw [if_neg hj.ne, if_neg (by omega), keysRelease_apps, if_neg (by simp [hj.ne'])]

end DfcCore
