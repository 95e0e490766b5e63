import DfcCore.Credential

/-!
# The flags of secure dynamic messaging

Setting one flag of a file's settings decides that flag and keeps every other, and changes
nothing but flags.
-/
namespace DfcCore

theorem octet_or_and (x a b : UInt8) : (x ||| a) &&& b = (x &&& b) ||| (a &&& b) := by
  apply UInt8.toBitVec_inj.mp
  simp only [UInt8.toBitVec_and, UInt8.toBitVec_or]
  ext i
  simp only [BitVec.getElem_and, BitVec.getElem_or, Bool.and_or_distrib_right]

theorem flag_bits (flags : UInt8) (set test : DfcSdmFlag) (value : Bool) :
    ((if value then flags ||| set.bit else flags &&& ~~~set.bit) &&& test.bit != 0) =
      if test = set then value else flags &&& test.bit != 0 := by
  by_cases h : test = set
  · subst h
    cases value with
    | true =>
      have hself (x a : UInt8) : (x ||| a) &&& a = a := by
        apply UInt8.toBitVec_inj.mp
        simp only [UInt8.toBitVec_and, UInt8.toBitVec_or]
        ext i
        simp only [BitVec.getElem_and, BitVec.getElem_or]
        cases x.toBitVec[i] <;> simp
      rw [if_pos rfl, if_pos rfl, hself]
      cases test <;> decide
    | false =>
      rw [if_neg (by simp), if_pos rfl, UInt8.and_assoc, UInt8.not_and_self, UInt8.and_zero]
      decide
  · have hzero : set.bit &&& test.bit = 0 := by
      cases set <;> cases test <;> first | exact absurd rfl h | decide
    have hkeep : ~~~set.bit &&& test.bit = test.bit := by
      cases set <;> cases test <;> first | exact absurd rfl h | decide
    rw [if_neg h]
    cases value with
    | true => rw [if_pos rfl, octet_or_and, hzero, UInt8.or_zero]
    | false => rw [if_neg (by simp), UInt8.and_assoc, hkeep]

theorem sdmFlagIsSet_flagSet {file : DfcFile} (ht : file.type = dfcFileTypeStandardData)
    (set test : DfcSdmFlag) (value : Bool) :
    dfcFileSdmFlagIsSet (dfcFileSdmFlagSet file set value) test =
      if test = set then value else dfcFileSdmFlagIsSet file test := by
  have hflags : (dfcSdmFlagSet file.state.data.sdm set value).flags =
      if value then file.state.data.sdm.flags ||| set.bit
      else file.state.data.sdm.flags &&& ~~~set.bit := by
    rw [dfcSdmFlagSet]
    split_ifs <;> rfl
  have hbits := flag_bits file.state.data.sdm.flags set test value
  simp only [dfcFileSdmFlagSet, ht, bne_self_eq_false, Bool.false_eq_true, if_false,
    dfcFileSdmFlagIsSet, DfcFile.withData, beq_self_eq_true, Bool.true_and, dfcSdmFlagIsSet, hflags,
    hbits]

/-- A file without its SDM flags. -/
def DfcFile.noFlags (file : DfcFile) : DfcFile :=
  file.withData { file.state.data with sdm := { file.state.data.sdm with flags := 0 } }

/-- A flag changes nothing but flags. -/
theorem noFlags_flagSet (file : DfcFile) (set : DfcSdmFlag) (value : Bool) :
    (dfcFileSdmFlagSet file set value).noFlags = file.noFlags := by
  rw [dfcFileSdmFlagSet]
  split_ifs
  · rfl
  · rw [dfcSdmFlagSet]
    split_ifs
    · rfl
    · rfl

theorem type_flagSet (file : DfcFile) (set : DfcSdmFlag) (value : Bool) :
    (dfcFileSdmFlagSet file set value).type = file.type := by
  change (dfcFileSdmFlagSet file set value).noFlags.type = file.noFlags.type
  rw [noFlags_flagSet]

end DfcCore
