import Mathlib
import Quotation.Number.Dyadic

/-!
# Packed doubles

The parts of a double are packed into its bits and unpacked from them again. Mantissas of 53 bits,
or of fewer bits at the lowest exponent, come back as they were unless the exponent is too large,
and every finite double has such parts.
-/

namespace Quotation.Number

open Float.Model Float.Model.UnpackedFloat

variable {sign : Sign} {mantissa : Nat} {exponent : Int}

/-! ## Bits -/

theorem unpack_pack (f : UnpackedFloat) :
    (Float.Model.pack f).unpack =
      UnpackedFloat.unpack Format.binary64 (UnpackedFloat.pack Format.binary64 f) := rfl

theorem implicit_bit (m : BitVec 52) : (1#1 ++ m).toNat = 2 ^ 52 + m.toNat := by
  have h := Nat.two_pow_add_eq_or_of_lt m.isLt 1
  rw [BitVec.toNat_append]
  simpa [Nat.shiftLeft_eq] using h.symm

/-- What the exponent and mantissa bits stand for, by the three ranges of the exponent bits. -/
def ofBits (sign : Sign) (e m : Nat) : UnpackedFloat :=
  if e = 2047 then if m = 0 then .infinity sign else .notANumber
  else if e = 0 then
    if h : m = 0 then .zero sign else .finite sign m (-1074) (Nat.pos_of_ne_zero h)
  else .finite sign (2 ^ 52 + m) (e - 1075) (by omega)

theorem unpack_eq_ofBits (b : BitVec Format.binary64.numBits) :
    UnpackedFloat.unpack Format.binary64 b =
      ofBits (Sign.ofBitVec (unpackSign b)) (unpackExponent b).toNat (unpackMantissa b).toNat := by
  have hones (e : BitVec 11) : e = -1#11 ↔ e.toNat = 2047 := by
    rw [← BitVec.toNat_inj]
    rfl
  have hzero {n : Nat} (e : BitVec n) : e = 0#n ↔ e.toNat = 0 := by
    rw [← BitVec.toNat_inj]
    simp
  have hbias : (Format.binary64.exponentBias : Int) + (52 : Nat) = 1075 := rfl
  unfold UnpackedFloat.unpack ofBits
  simp only [hones, hzero, implicit_bit, hbias]
  split
  · rfl
  · split
    · rename_i hlow
      simp only [hlow]
      rfl
    · rfl

theorem unpack_components (sign : Sign) (e : BitVec 11) (m : BitVec 52) :
    UnpackedFloat.unpack Format.binary64 (packComponents Format.binary64 sign e m) =
      ofBits sign e.toNat m.toNat := by
  rw [unpack_eq_ofBits, unpackMantissa_packComponents, unpackExponent_packComponents,
    unpackSign_packComponents, Sign.ofBitVec_toBitVec]

theorem exists_ofBits (x : Float.Model) :
    ∃ sign e m, e < 2 ^ 11 ∧ m < 2 ^ 52 ∧ x.unpack = ofBits sign e m :=
  ⟨_, _, _, BitVec.isLt _, BitVec.isLt _, unpack_eq_ofBits _⟩

/-! ## Parts of a double -/

/-- A mantissa of 53 bits, or of fewer bits at the lowest exponent. -/
structure Canonical (mantissa : Nat) (exponent : Int) : Prop where
  width : mantissa < 2 ^ 53
  lowest : -1074 ≤ exponent
  full : 2 ^ 52 ≤ mantissa ∨ exponent = -1074

theorem log2_eq_iff (h : 0 < mantissa) (hwidth : mantissa < 2 ^ 53) :
    mantissa.log2 + 1 = 53 ↔ 2 ^ 52 ≤ mantissa := by
  have hlow : 52 ≤ mantissa.log2 ↔ 2 ^ 52 ≤ mantissa := Nat.le_log2 (Nat.ne_of_gt h)
  have hhigh : mantissa.log2 < 53 := (Nat.log2_lt (Nat.ne_of_gt h)).mpr hwidth
  omega

theorem pack_finite (h : 0 < mantissa) (hcanonical : Canonical mantissa exponent) :
    UnpackedFloat.pack Format.binary64 (.finite sign mantissa exponent h) =
      if 971 < exponent then packedInfinity Format.binary64 sign
      else packComponents Format.binary64 sign
        (if 2 ^ 52 ≤ mantissa then BitVec.ofNat 11 (exponent + 1075).toNat else 0#11)
        (BitVec.ofNat 52 mantissa) := by
  have hlowest := hcanonical.lowest
  have hbias : exponent + Format.binary64.exponentBias + (52 : Nat) = exponent + 1075 := by
    rw [Int.add_assoc]
    rfl
  have hlarge : 2 ^ 11 ≤ (exponent + 1075).toNat + 1 ↔ 971 < exponent := by omega
  have hfull : mantissa.log2 + 1 = Format.binary64.mantissaBits ↔ 2 ^ 52 ≤ mantissa :=
    log2_eq_iff h hcanonical.width
  unfold UnpackedFloat.pack
  simp only [hbias, hlarge, hfull]
  split
  · rfl
  · split <;> rfl

theorem unpack_pack_zero (sign : Sign) : (Float.Model.pack (.zero sign)).unpack = .zero sign := by
  cases sign <;> rfl

theorem unpack_pack_infinity (sign : Sign) :
    (Float.Model.pack (.infinity sign)).unpack = .infinity sign := by
  cases sign <;> rfl

theorem pack_unpacked (x : Float.Model) : Float.Model.pack x.unpack = x := by
  obtain ⟨bits, valid⟩ := x
  have hbits := pack_unpack_of_valid valid
  unfold Float.Model.pack Float.Model.unpack
  simp only [hbits]

theorem eq_zero_of_beq {x : Float} (h : (x == 0) = true) : x = 0 ∨ x = -0.0 := by
  have hbeq : x.toModel.unpack.beq (.zero .positive) = true := h
  have hpacked := pack_unpacked x.toModel
  cases hparts : x.toModel.unpack with
  | zero sign =>
    rw [hparts] at hpacked
    cases sign with
    | positive => exact .inl (congrArg Float.ofModel hpacked.symm)
    | negative => exact .inr (congrArg Float.ofModel hpacked.symm)
  | finite sign mantissa exponent hpositive =>
    rw [hparts] at hbeq
    cases sign <;> cases hbeq
  | infinity sign =>
    rw [hparts] at hbeq
    cases sign <;> cases hbeq
  | notANumber =>
    rw [hparts] at hbeq
    cases hbeq

theorem unpack_pack_large (h : 0 < mantissa) (hcanonical : Canonical mantissa exponent)
    (hexponent : 971 < exponent) :
    (Float.Model.pack (.finite sign mantissa exponent h)).unpack = .infinity sign := by
  rw [unpack_pack, pack_finite h hcanonical, if_pos hexponent, packedInfinity, unpack_components]
  rfl

theorem unpack_pack_finite (h : 0 < mantissa) (hcanonical : Canonical mantissa exponent)
    (hexponent : exponent ≤ 971) :
    (Float.Model.pack (.finite sign mantissa exponent h)).unpack =
      .finite sign mantissa exponent h := by
  have hlowest := hcanonical.lowest
  have hwidth := hcanonical.width
  rw [unpack_pack, pack_finite h hcanonical, if_neg (by omega), unpack_components]
  split
  · have hbits : (BitVec.ofNat 11 (exponent + 1075).toNat).toNat = (exponent + 1075).toNat := by
      rw [BitVec.toNat_ofNat]
      omega
    have hfraction : 2 ^ 52 + (BitVec.ofNat 52 mantissa).toNat = mantissa := by
      rw [BitVec.toNat_ofNat]
      omega
    unfold ofBits
    simp only [hbits, hfraction]
    rw [if_neg (by omega), if_neg (by omega)]
    congr 1
    omega
  · rename_i hpartial
    have hlow : exponent = -1074 := hcanonical.full.resolve_left hpartial
    have hfraction : (BitVec.ofNat 52 mantissa).toNat = mantissa := by
      rw [BitVec.toNat_ofNat]
      omega
    have hbits : (0#11).toNat = 0 := rfl
    unfold ofBits
    simp only [hfraction, hbits, hlow]
    rw [if_neg (by decide), if_pos trivial, dif_neg (Nat.ne_of_gt h)]

theorem canonical_of_unpack {x : Float.Model} {h : 0 < mantissa}
    (hparts : x.unpack = .finite sign mantissa exponent h) :
    Canonical mantissa exponent ∧ exponent ≤ 971 := by
  obtain ⟨sign', e, m, he, hm, hbits⟩ := exists_ofBits x
  rw [hbits] at hparts
  unfold ofBits at hparts
  split at hparts
  · split at hparts <;> cases hparts
  · split at hparts
    · split at hparts
      · cases hparts
      · cases hparts
        exact ⟨⟨by omega, by omega, by omega⟩, by omega⟩
    · cases hparts
      exact ⟨⟨by omega, by omega, by omega⟩, by omega⟩

end Quotation.Number
