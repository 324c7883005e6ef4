import BenchPrinter.Proofs.Double.Rounding

/-!
The exact worth of a double. Every double unpacks to a canonical form, and every canonical form is
unpacked from a double.
-/

namespace BenchPrinter.Double

open Float.Model Float.Model.UnpackedFloat

/-- What is no finite number is worth nothing. -/
def unpackedWorth : UnpackedFloat → Rat
  | .finite sign mantissa exponent _ => sign.apply mantissa * 2 ^ exponent
  | _ => 0

def unpacked (value : Float) : UnpackedFloat := value.toModel.unpack

def worth (value : Float) : Rat := unpackedWorth (unpacked value)

/-- A finite double is neither infinite nor undefined. -/
def IsFinite (value : Float) : Prop := (unpacked value).isFinite = true

instance (value : Float) : Decidable (IsFinite value) :=
  inferInstanceAs (Decidable (_ = _))

def pack (form : UnpackedFloat) : Float := .ofModel (.pack form)

/-- A mantissa has 53 bits, or fewer with the least exponent. -/
def Canonical : UnpackedFloat → Prop
  | .finite _ mantissa exponent _ =>
      mantissa < 2 ^ 53 ∧ -1074 ≤ exponent ∧ exponent ≤ 971 ∧
        (2 ^ 52 ≤ mantissa ∨ exponent = -1074)
  | _ => True

theorem implicit_bit (mantissa : BitVec 52) :
    (1#1 ++ mantissa).toNat = 2 ^ 52 + mantissa.toNat := by
  have joined := Nat.shiftLeft_add_eq_or_of_lt mantissa.isLt 1
  rw [BitVec.toNat_append]
  exact joined.symm

theorem assemble_of_pos (sign : Sign) {mantissa : Nat} (exponent : Int) (positive : 0 < mantissa) :
    assemble sign mantissa exponent = .finite sign mantissa exponent positive := by
  rw [assemble, dif_neg positive.ne']

theorem unpack_eq (bits : BitVec Format.binary64.numBits) :
    UnpackedFloat.unpack Format.binary64 bits =
      if unpackExponent bits = -1#11 then
        if unpackMantissa bits = 0#52 then .infinity (.ofBitVec (unpackSign bits))
        else .notANumber
      else if unpackExponent bits = 0#11 then
        assemble (.ofBitVec (unpackSign bits)) (unpackMantissa bits).toNat (-1074)
      else
        assemble (.ofBitVec (unpackSign bits)) (2 ^ 52 + (unpackMantissa bits).toNat)
          ((unpackExponent bits).toNat - 1075) := by
  have whole : (1#1 ++ unpackMantissa bits).toNat = 2 ^ 52 + (unpackMantissa bits).toNat :=
    implicit_bit (unpackMantissa bits)
  unfold UnpackedFloat.unpack
  refine ite_congr rfl (fun _ => rfl) fun _ => ite_congr rfl (fun zeros => ?_) fun _ => ?_
  · by_cases empty : unpackMantissa bits = 0#52
    · refine (dif_pos empty).trans ?_
      rw [empty]
      rfl
    · have positive : 0 < (unpackMantissa bits).toNat :=
        Nat.pos_of_ne_zero fun none => empty (BitVec.eq_of_toNat_eq none)
      refine (dif_neg empty).trans ?_
      rw [assemble_of_pos _ _ positive, zeros]
      rfl
  · rw [← whole, assemble_of_pos _ _ (by omega)]
    rfl

theorem canonical_assemble (sign : Sign) {mantissa : Nat} {exponent : Int}
    (fits : mantissa < 2 ^ 53) (least : -1074 ≤ exponent) (greatest : exponent ≤ 971)
    (full : 2 ^ 52 ≤ mantissa ∨ exponent = -1074) : Canonical (assemble sign mantissa exponent) := by
  obtain rfl | positive := Nat.eq_zero_or_pos mantissa
  · trivial
  · rw [assemble_of_pos sign exponent positive]
    exact ⟨fits, least, greatest, full⟩

theorem canonical_unpack (bits : BitVec Format.binary64.numBits) :
    Canonical (UnpackedFloat.unpack Format.binary64 bits) := by
  have fraction : (unpackMantissa bits).toNat < 2 ^ 52 := (unpackMantissa bits).isLt
  have biased : (unpackExponent bits).toNat < 2 ^ 11 := (unpackExponent bits).isLt
  rw [unpack_eq]
  split_ifs with ones infinite zeros
  · trivial
  · trivial
  · exact canonical_assemble _ (by omega) (by omega) (by omega) (.inr rfl)
  · have positive : (unpackExponent bits).toNat ≠ 0 := fun zero => zeros (BitVec.eq_of_toNat_eq zero)
    have notOnes : (unpackExponent bits).toNat ≠ 2047 := fun all => ones (BitVec.eq_of_toNat_eq all)
    exact canonical_assemble _ (by omega) (by omega) (by omega) (.inl (by omega))

theorem canonical_unpacked (value : Float) : Canonical (unpacked value) :=
  canonical_unpack value.toModel.toBits.toBitVec

/-- The sign is the uppermost bit. -/
@[simp] theorem unpackSign_packComponents (sign : Sign) (exponent : BitVec 11)
    (mantissa : BitVec 52) :
    unpackSign (packComponents Format.binary64 sign exponent mantissa) = sign.toBitVec := by
  have uppermost (signBit : BitVec 1) : (signBit ++ exponent ++ mantissa).getLsbD 63 =
      signBit.getLsbD 0 := by
    rw [BitVec.getLsbD_append, BitVec.getLsbD_append]
    rfl
  ext index inside
  obtain rfl : index = 0 := by omega
  have found := uppermost sign.toBitVec
  unfold unpackSign
  simp only [Nat.reduceAdd, Nat.reduceSub, packComponents, BitVec.cast_eq,
    BitVec.getElem_extract, add_zero]
  exact found

theorem unpack_packComponents (sign : Sign) (exponent : BitVec 11) (mantissa : BitVec 52) :
    UnpackedFloat.unpack Format.binary64
        (packComponents Format.binary64 sign exponent mantissa) =
      if exponent = -1#11 then
        if mantissa = 0#52 then .infinity sign else .notANumber
      else if exponent = 0#11 then assemble sign mantissa.toNat (-1074)
      else assemble sign (2 ^ 52 + mantissa.toNat) (exponent.toNat - 1075) := by
  have roundTrip : Sign.ofBitVec sign.toBitVec = sign := by cases sign <;> rfl
  rw [unpack_eq]
  simp only [unpackMantissa_packComponents, unpackExponent_packComponents,
    unpackSign_packComponents, roundTrip]

/-- A form with an exponent that is too large is packed as infinity. -/
theorem pack_finite (sign : Sign) {mantissa : Nat} (exponent : Int) (positive : 0 < mantissa) :
    UnpackedFloat.pack Format.binary64 (.finite sign mantissa exponent positive) =
      if 971 < exponent then UnpackedFloat.pack Format.binary64 (.infinity sign)
      else if mantissa.log2 = 52 then
        packComponents Format.binary64 sign (.ofNat 11 (exponent + 1075).toNat) (.ofNat 52 mantissa)
      else packComponents Format.binary64 sign (0#11) (.ofNat 52 mantissa) := by
  have opened : UnpackedFloat.pack Format.binary64 (.finite sign mantissa exponent positive) =
      if 2 ^ 11 ≤ (exponent + 1023 + (52 : Nat)).toNat + 1 then
        UnpackedFloat.pack Format.binary64 (.infinity sign)
      else if mantissa.log2 + 1 = 53 then
        packComponents Format.binary64 sign (.ofNat 11 (exponent + 1023 + (52 : Nat)).toNat)
          (.ofNat 52 mantissa)
      else packComponents Format.binary64 sign (0#11) (.ofNat 52 mantissa) := rfl
  have biased : exponent + 1023 + (52 : Nat) = exponent + 1075 := by omega
  have overflows : 2 ^ 11 ≤ (exponent + 1075).toNat + 1 ↔ 971 < exponent := by omega
  rw [opened, biased]
  simp only [overflows, Nat.reduceEqDiff]

/-- Packing loses nothing of a canonical form. -/
theorem unpack_pack {form : UnpackedFloat} (canonical : Canonical form) :
    UnpackedFloat.unpack Format.binary64 (UnpackedFloat.pack Format.binary64 form) = form := by
  cases form with
  | notANumber => exact (unpack_packComponents .positive _ _).trans rfl
  | infinity sign => exact (unpack_packComponents sign _ _).trans rfl
  | zero sign => exact (unpack_packComponents sign _ _).trans rfl
  | finite sign mantissa exponent positive =>
      obtain ⟨fits, least, greatest, full⟩ := canonical
      have within : mantissa.log2 < 53 := (Nat.log2_lt positive.ne').2 fits
      rw [pack_finite sign exponent positive, if_neg (not_lt.2 greatest)]
      by_cases normal : mantissa.log2 = 52
      · have filled : 2 ^ 52 ≤ mantissa := (Nat.le_log2 positive.ne').1 normal.ge
        have stored : (BitVec.ofNat 11 (exponent + 1075).toNat).toNat = (exponent + 1075).toNat := by
          rw [BitVec.toNat_ofNat]
          omega
        have fraction : (BitVec.ofNat 52 mantissa).toNat = mantissa - 2 ^ 52 := by
          rw [BitVec.toNat_ofNat]
          omega
        have notOnes : BitVec.ofNat 11 (exponent + 1075).toNat ≠ -1#11 := by
          intro ones
          have all : (BitVec.ofNat 11 (exponent + 1075).toNat).toNat = 2047 := by rw [ones]; rfl
          omega
        have notZeros : BitVec.ofNat 11 (exponent + 1075).toNat ≠ 0#11 := by
          intro zeros
          have none : (BitVec.ofNat 11 (exponent + 1075).toNat).toNat = 0 := by rw [zeros]; rfl
          omega
        have joined : 2 ^ 52 + (mantissa - 2 ^ 52) = mantissa := Nat.add_sub_cancel' filled
        have exact : ((exponent + 1075).toNat : Int) - 1075 = exponent := by omega
        rw [if_pos normal, unpack_packComponents, if_neg notOnes, if_neg notZeros, stored, fraction,
          joined, exact, assemble_of_pos]
      · have short : ¬ 2 ^ 52 ≤ mantissa := by
          intro filled
          have long := (Nat.le_log2 positive.ne').2 filled
          omega
        have fraction : (BitVec.ofNat 52 mantissa).toNat = mantissa := by
          rw [BitVec.toNat_ofNat]
          omega
        rw [if_neg normal, unpack_packComponents, if_neg (by decide), if_pos rfl, fraction,
          assemble_of_pos sign (-1074) positive, full.resolve_left short]

theorem unpacked_pack {form : UnpackedFloat} (canonical : Canonical form) :
    unpacked (pack form) = form :=
  unpack_pack canonical

end BenchPrinter.Double
