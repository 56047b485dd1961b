import FsspecDb.Error

/-!
# Floating-point values by their bits

An `f64` is its 64 bits and an `f32` its 32 bits. The two conversions the
backends make are defined on the bits; the decimal text that `Display` gives is
left to a parameter.
-/

namespace FsspecDb

/-- `Display` of `f32` and `f64`. -/
structure FloatText where
  f32 : UInt32 → Str
  f64 : UInt64 → Str

/-- The text of zero, for inputs without other floats. -/
def zeroText : FloatText := ⟨fun _ => ['0'], fun _ => ['0']⟩

/-- The bits of a double from its sign, biased exponent and fraction. -/
def f64Bits (negative : Bool) (exponent fraction : Nat) : UInt64 :=
  UInt64.ofNat ((if negative then 2 ^ 63 else 0) + exponent * 2 ^ 52 + fraction)

/-- `f64::from(f32)`, which is exact. -/
def f64FromF32 (bits : UInt32) : UInt64 :=
  let negative := decide (2 ^ 31 ≤ bits.toNat)
  let exponent := bits.toNat / 2 ^ 23 % 2 ^ 8
  let fraction := bits.toNat % 2 ^ 23
  if exponent = 255 then f64Bits negative 2047 (fraction * 2 ^ 29)
  else if exponent ≠ 0 then f64Bits negative (exponent + 896) (fraction * 2 ^ 29)
  else if fraction = 0 then f64Bits negative 0 0
  else
    -- a subnormal `f32` is a normal `f64`
    let k := Nat.log2 fraction
    f64Bits negative (k + 874) ((fraction - 2 ^ k) * 2 ^ (52 - k))

/-- `value as f64` of an `i64`: to nearest, ties to even. -/
def f64FromI64 (value : Int64) : UInt64 :=
  let magnitude := value.toInt.natAbs
  let negative := decide (value.toInt < 0)
  if magnitude = 0 then 0
  else
    let k := Nat.log2 magnitude
    if k ≤ 52 then f64Bits negative (k + 1023) ((magnitude - 2 ^ k) * 2 ^ (52 - k))
    else
      let unit := 2 ^ (k - 52)
      let quotient := magnitude / unit
      let rest := magnitude % unit
      let up := 2 * rest > unit ∨ (2 * rest = unit ∧ quotient % 2 = 1)
      -- a carry out of the fraction is a step of the exponent
      f64Bits negative (k + 1023) (quotient + (if up then 1 else 0) - 2 ^ 52)

def f64One : UInt64 := 0x3FF0000000000000
def f64Zero : UInt64 := 0

example : f64FromF32 0x3FC00000 = 0x3FF8000000000000 := by decide
example : f64FromI64 (-2) = 0xC000000000000000 := by decide

/-! ### NaN -/

def isNan32 (bits : UInt32) : Bool :=
  bits.toNat / 2 ^ 23 % 2 ^ 8 = 255 && bits.toNat % 2 ^ 23 ≠ 0

def isNan64 (bits : UInt64) : Bool :=
  bits.toNat / 2 ^ 52 % 2 ^ 11 = 2047 && bits.toNat % 2 ^ 52 ≠ 0

theorem isNan64_f64Bits (negative : Bool) (exponent fraction : Nat) (he : exponent < 2 ^ 11)
    (hf : fraction < 2 ^ 52) :
    isNan64 (f64Bits negative exponent fraction) = (exponent = 2047 && fraction ≠ 0) := by
  have hbits : (f64Bits negative exponent fraction).toNat =
      (if negative then 2 ^ 63 else 0) + exponent * 2 ^ 52 + fraction := by
    rw [f64Bits, UInt64.toNat_ofNat']
    apply Nat.mod_eq_of_lt
    split <;> omega
  have hexponent : (f64Bits negative exponent fraction).toNat / 2 ^ 52 % 2 ^ 11 = exponent := by
    rw [hbits]
    split <;> omega
  have hfraction : (f64Bits negative exponent fraction).toNat % 2 ^ 52 = fraction := by
    rw [hbits]
    split <;> omega
  rw [isNan64, hexponent, hfraction]

/- The conversion makes no NaN of a number. -/
theorem isNan64_f64FromF32 (bits : UInt32) : isNan64 (f64FromF32 bits) = isNan32 bits := by
  have hexponent : bits.toNat / 2 ^ 23 % 2 ^ 8 < 2 ^ 8 := Nat.mod_lt _ (by decide)
  have hfraction : bits.toNat % 2 ^ 23 < 2 ^ 23 := Nat.mod_lt _ (by decide)
  rw [isNan32, f64FromF32]
  dsimp only
  generalize bits.toNat / 2 ^ 23 % 2 ^ 8 = exponent at *
  generalize bits.toNat % 2 ^ 23 = fraction at *
  split_ifs with hmax hnormal hzero
  · rw [isNan64_f64Bits _ _ _ (by decide) (by omega), hmax]
    simp
  · rw [isNan64_f64Bits _ _ _ (by omega) (by omega)]
    have hfinite : exponent + 896 ≠ 2047 := by omega
    simp [hmax, hfinite]
  · rw [isNan64_f64Bits _ _ _ (by decide) (by decide)]
    simp [hmax]
  · have hk : fraction.log2 < 23 := (Nat.log2_lt hzero).mpr hfraction
    have hlow : fraction < 2 ^ (fraction.log2 + 1) := Nat.lt_log2_self
    have hpow : 2 ^ fraction.log2 * 2 ^ (52 - fraction.log2) = 2 ^ 52 := by
      rw [← Nat.pow_add]
      congr 1
      omega
    have hsmall : (fraction - 2 ^ fraction.log2) * 2 ^ (52 - fraction.log2) < 2 ^ 52 := by
      rw [← hpow]
      exact Nat.mul_lt_mul_of_pos_right (by omega) (Nat.pow_pos (by decide))
    rw [isNan64_f64Bits _ _ _ (by omega) hsmall]
    have hfinite : fraction.log2 + 874 ≠ 2047 := by omega
    simp [hmax, hfinite]

end FsspecDb
