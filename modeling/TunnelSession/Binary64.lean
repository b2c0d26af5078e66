/-
  Double precision numbers, computed exactly.

  REPRESENTATION.  A `Binary64` is its 64 bits: sign, eleven bits of exponent, 52 of significand.
  `classify` reads them as not-a-number, an infinity, or a finite value ± m · 2^e.

  ROUNDING.  Every operation is its exact rational result, rounded once: `ofRatio` takes a sign and
  a quotient of naturals to the nearest double, a tie to the even significand, and past the
  largest finite double to infinity.  `roundDiv` is the rounding of a quotient to an integer that
  both this and the decimal text with fixed places use; it is within half a unit
  (`two_mul_roundDiv_le`, `le_two_mul_roundDiv`).

  POWERS.  They are written `Nat.pow`, so that the definitions do not hang on the instance of `^`
  that happens to be in scope.

  TEXT.  `toFixed` writes the exact decimal value with a fixed number of places; a negative zero
  keeps its sign, and no exponent is ever written.
-/

namespace TunnelSession

/-- The integer nearest to `num / den`; a tie goes to the even neighbour. -/
def roundDiv (num den : Nat) : Nat :=
  let q := num / den
  let r := num % den
  if 2 * r < den then q
  else if den < 2 * r then q + 1
  else if q % 2 = 0 then q else q + 1

theorem two_mul_roundDiv_le (num : Nat) {den : Nat} (h : 0 < den) :
    2 * (den * roundDiv num den) ≤ 2 * num + den := by
  have hdiv := Nat.div_add_mod num den
  have hmod := Nat.mod_lt num h
  unfold roundDiv
  simp only
  split
  · omega
  · split
    · rw [Nat.mul_add]; omega
    · split
      · omega
      · rw [Nat.mul_add]; omega

theorem le_two_mul_roundDiv (num : Nat) {den : Nat} (h : 0 < den) :
    2 * num ≤ 2 * (den * roundDiv num den) + den := by
  have hdiv := Nat.div_add_mod num den
  have hmod := Nat.mod_lt num h
  unfold roundDiv
  simp only
  split
  · omega
  · split
    · rw [Nat.mul_add]; omega
    · split
      · omega
      · rw [Nat.mul_add]; omega

/-- A double, by its bits. -/
structure Binary64 where
  bits : UInt64
  deriving DecidableEq, Repr

namespace Binary64

/-- What the bits stand for. -/
inductive Class where
  | nan
  | infinite (negative : Bool)
  /-- The value ± `mantissa` · 2 ^ `exponent`. -/
  | finite (negative : Bool) (mantissa : Nat) (exponent : Int)
  deriving DecidableEq, Repr

/-- The weight of the sign bit, 2^63. -/
def signUnit : Nat := 0x8000000000000000

/-- The weight of the significand's leading bit, which is not stored: 2^52. -/
def hiddenBit : Nat := 0x10000000000000

/-- How many exponent fields there are. -/
def fieldCount : Nat := 2048

/-- The largest exponent field, which marks infinities and what is not a number. -/
def topField : Nat := 2047

/-- Read the three fields. -/
def classify (x : Binary64) : Class :=
  let word := x.bits.toNat
  let negative := word / signUnit == 1
  let field := word / hiddenBit % fieldCount
  let fraction := word % hiddenBit
  if field = topField then
    if fraction = 0 then .infinite negative else .nan
  else if field = 0 then .finite negative fraction (-1074)
  else .finite negative (hiddenBit + fraction) ((field : Int) - 1075)

/-- A sign in front of a magnitude below 2^63. -/
def ofMagnitude (negative : Bool) (magnitude : Nat) : Binary64 :=
  ⟨UInt64.ofNat ((if negative then signUnit else 0) + magnitude)⟩

/-- Zero, with a sign. -/
def zero (negative : Bool) : Binary64 := ofMagnitude negative 0

/-- Infinity, with a sign. -/
def infinity (negative : Bool) : Binary64 := ofMagnitude negative (topField * hiddenBit)

/-- The quiet value that is not a number. -/
def nan : Binary64 := ofMagnitude false (topField * hiddenBit + hiddenBit / 2)

instance : Inhabited Binary64 := ⟨zero false⟩

/-- `num / den` as a quotient over 2^`e`. -/
def scaleBy (num den : Nat) (e : Int) : Nat × Nat :=
  if 0 ≤ e then (num, den * Nat.pow 2 e.toNat) else (num * Nat.pow 2 (-e).toNat, den)

/-- The exponent of the unit in the last place of the double nearest `num / den`. -/
def unitExponent (num den : Nat) : Int :=
  let e : Int := (num.log2 : Int) - den.log2 - 52
  let scaled := scaleBy num den e
  max (-1074) (if scaled.1 < scaled.2 * hiddenBit then e - 1 else e)

/-- The double nearest to ± `num / den`.  A significand rounded up to 2^53 carries into the
exponent field by itself. -/
def ofRatio (negative : Bool) (num den : Nat) : Binary64 :=
  if num = 0 then zero negative
  else
    let e := unitExponent num den
    let scaled := scaleBy num den e
    let magnitude := (e + 1074).toNat * hiddenBit + roundDiv scaled.1 scaled.2
    if magnitude < topField * hiddenBit then ofMagnitude negative magnitude else infinity negative

/-- The double nearest to a natural number. -/
def ofNat (n : Nat) : Binary64 := ofRatio false n 1

/-- The double nearest to ± m · 2^e. -/
def ofScaled (negative : Bool) (mantissa : Nat) (e : Int) : Binary64 :=
  if 0 ≤ e then ofRatio negative (mantissa * Nat.pow 2 e.toNat) 1
  else ofRatio negative mantissa (Nat.pow 2 (-e).toNat)

/-- Change the sign. -/
def neg (x : Binary64) : Binary64 := ⟨x.bits ^^^ 0x8000000000000000⟩

/-- The rounded product. -/
def mul (x y : Binary64) : Binary64 :=
  match x.classify, y.classify with
  | .nan, _ => nan
  | _, .nan => nan
  | .infinite s, .infinite t => infinity (s != t)
  | .infinite s, .finite t m _ => if m = 0 then nan else infinity (s != t)
  | .finite s m _, .infinite t => if m = 0 then nan else infinity (s != t)
  | .finite s m d, .finite t n e => ofScaled (s != t) (m * n) (d + e)

/-- The rounded quotient. -/
def div (x y : Binary64) : Binary64 :=
  match x.classify, y.classify with
  | .nan, _ => nan
  | _, .nan => nan
  | .infinite _, .infinite _ => nan
  | .infinite s, .finite t _ _ => infinity (s != t)
  | .finite s _ _, .infinite t => zero (s != t)
  | .finite s m d, .finite t n e =>
    if n = 0 then if m = 0 then nan else infinity (s != t)
    else if 0 ≤ d - e then ofRatio (s != t) (m * Nat.pow 2 (d - e).toNat) n
    else ofRatio (s != t) m (n * Nat.pow 2 (e - d).toNat)

/-- The rounded sum of two values that are not negative. -/
def addMagnitudes (m : Nat) (d : Int) (n : Nat) (e : Int) : Binary64 :=
  let low := min d e
  ofScaled false (m * Nat.pow 2 (d - low).toNat + n * Nat.pow 2 (e - low).toNat) low

/-- Equality of numbers: nothing equals what is not a number, and the two zeros are equal. -/
def numEq (x y : Binary64) : Bool :=
  match x.classify, y.classify with
  | .nan, _ => false
  | _, .nan => false
  | .finite _ 0 _, .finite _ 0 _ => true
  | _, _ => x.bits == y.bits

/-- Is it an infinity? -/
def isInfinite (x : Binary64) : Bool :=
  match x.classify with
  | .infinite _ => true
  | _ => false

/-- Is it a zero? -/
def isZero (x : Binary64) : Bool :=
  match x.classify with
  | .finite _ 0 _ => true
  | _ => false

/-! ## Decimals in, decimals out -/

/-- The double nearest to ± `digits` · 10^`e`.  Far past the range the power is not computed:
`size` is the number of digits, so the value is below 10^(`size` + `e`). -/
def ofDecimal (negative : Bool) (digits : Nat) (size : Nat) (e : Int) : Binary64 :=
  if digits = 0 then zero negative
  else if 400 + (size : Int) < e then infinity negative
  else if (size : Int) + e < -400 then zero negative
  else if 0 ≤ e then ofRatio negative (digits * Nat.pow 10 e.toNat) 1
  else ofRatio negative digits (Nat.pow 10 (-e).toNat)

/-- `n` units of the last of `places` decimal places, as text. -/
def placesText (places n : Nat) : String :=
  let low := Nat.toDigits 10 (n % Nat.pow 10 places)
  let zeros := List.replicate (places - low.length) '0'
  String.ofList (Nat.toDigits 10 (n / Nat.pow 10 places) ++ '.' :: (zeros ++ low))

/-- The exact value rounded to a positive number of decimal places, a tie to the even digit. -/
def toFixed (places : Nat) (x : Binary64) : String :=
  match x.classify with
  | .nan => "NaN"
  | .infinite negative => (if negative then "-" else "") ++ "inf"
  | .finite negative m e =>
    let n :=
      if 0 ≤ e then m * Nat.pow 2 e.toNat * Nat.pow 10 places
      else roundDiv (m * Nat.pow 10 places) (Nat.pow 2 (-e).toNat)
    (if negative then "-" else "") ++ placesText places n

example : ofNat 262144 = ⟨0x4110000000000000⟩ := by decide
example : (ofNat (2 ^ 53 + 1)).bits = (ofNat (2 ^ 53)).bits := by decide
example : ofRatio false 1 3 = ⟨0x3fd5555555555555⟩ := by decide
example : ofRatio false 1 (2 ^ 1074) = ⟨1⟩ := by decide +kernel
example : ofRatio true (2 ^ 1024 - 2 ^ 970) 1 = infinity true := by decide +kernel

end Binary64

end TunnelSession
