import AitpVerifier.Text

/-!
# IEEE 754 binary64 values

A finite value is a sign and `mantissa * 2 ^ scale` in units of `2 ^ -1074`, the
least positive double, so every magnitude is a natural number of units. The
exponent is canonical: one triple per value.
-/

open PyText

/-- The mantissas and scales a finite double can carry. -/
def Canonical64 (mantissa scale : Nat) : Prop :=
  mantissa < 2 ^ 53 ∧ scale ≤ 2045 ∧ (2 ^ 52 ≤ mantissa ∨ scale = 0)

instance (mantissa scale : Nat) : Decidable (Canonical64 mantissa scale) :=
  inferInstanceAs (Decidable (_ ∧ _ ∧ _))

inductive Binary64 where
  | nan : Binary64
  | inf : Bool → Binary64
  | finite : Bool → (mantissa scale : Nat) → Canonical64 mantissa scale → Binary64
  deriving DecidableEq, Repr

namespace Binary64

/-- One, in units of the least positive double. -/
@[irreducible] def unit : Nat := 2 ^ 1074

theorem unit_eq : unit = 2 ^ 1074 := by
  delta unit
  rfl

/-- Nearest integer to `a / d`, ties to even. -/
def nearest (a d : Nat) : Nat :=
  let q := a / d
  let r := a % d
  if 2 * r < d then q else if d < 2 * r then q + 1 else q + q % 2

/-- The mantissa and scale of the double nearest `a / d`, before the range test. -/
def nearestPair (a d : Nat) : Nat × Nat :=
  let scale := Nat.log2 (a * unit / d) - 52
  let mantissa := nearest (a * unit) (d * 2 ^ scale)
  if mantissa = 2 ^ 53 then (2 ^ 52, scale + 1) else (mantissa, scale)

/-- The double nearest `a / d` with the given sign; infinity past the range. -/
def round (negative : Bool) (a d : Nat) : Binary64 :=
  let (mantissa, scale) := nearestPair a d
  if h : Canonical64 mantissa scale then .finite negative mantissa scale h else .inf negative

/-- `float(i)` for an integer: none where Python raises `OverflowError`. -/
def ofInt? (i : Int) : Option Binary64 :=
  match round (decide (i < 0)) i.natAbs 1 with
  | .finite negative mantissa scale h => some (.finite negative mantissa scale h)
  | _ => none

/-- `float(text)` of the decimal `digits * 10 ^ exponent`. -/
def ofDecimal (negative : Bool) (digits : Nat) (exponent : Int) : Binary64 :=
  round negative (digits * 10 ^ exponent.toNat) (10 ^ (-exponent).toNat)

/-- The magnitude in units of the least positive double. -/
def units : Binary64 → Nat
  | .finite _ mantissa scale _ => mantissa * 2 ^ scale
  | _ => 0

def isFinite : Binary64 → Bool
  | .finite .. => true
  | _ => false

def isNegative : Binary64 → Bool
  | .finite negative .. => negative
  | .inf negative => negative
  | .nan => false

/-- `float.is_integer`. -/
def isInteger (f : Binary64) : Bool := f.isFinite && f.units % unit == 0

/-- Truncation toward zero of a finite value. -/
def trunc (f : Binary64) : Int :=
  if f.isNegative then -((f.units / unit : Nat) : Int) else (f.units / unit : Nat)

/-- The exact value of a finite double. -/
def toRat (f : Binary64) : ℚ :=
  if f.isNegative then -(f.units / unit : ℚ) else (f.units / unit : ℚ)

/-- Signed units: the order of finite doubles is the order of these. -/
def signedUnits (f : Binary64) : Int := if f.isNegative then -(f.units : Int) else f.units

/-- `f < i` for an integer `i`. -/
def ltInt (f : Binary64) (i : Int) : Bool :=
  match f with
  | .nan => false
  | .inf negative => negative
  | .finite .. => decide (f.signedUnits < i * unit)

/-- `f == i` for an integer `i`. -/
def eqInt (f : Binary64) (i : Int) : Bool := f.isFinite && decide (f.signedUnits = i * unit)

/-- `f == g`: NaN equals nothing and the zeros are equal. -/
def eq (f g : Binary64) : Bool :=
  match f, g with
  | .finite .., .finite .. => decide (f.signedUnits = g.signedUnits)
  | .inf a, .inf b => a == b
  | _, _ => false

def isZero (f : Binary64) : Bool := f.isFinite && f.units == 0

/-! ### Shortest round-trip digits -/

/-- Four times the least and greatest units that round to `mantissa * 2 ^ scale`. -/
def roundingBounds (mantissa scale : Nat) : Nat × Nat :=
  (if mantissa = 2 ^ 52 ∧ 0 < scale then (4 * mantissa - 1) * 2 ^ scale else (4 * mantissa - 2) * 2 ^ scale,
    (4 * mantissa + 2) * 2 ^ scale)

/-- Whether the decimal `digits * 10 ^ exponent` reads back as `mantissa * 2 ^ scale`. -/
def readsBack (mantissa scale digits : Nat) (exponent : Int) : Bool :=
  let value := 4 * (digits * 10 ^ exponent.toNat * unit)
  let lower := (roundingBounds mantissa scale).1 * 10 ^ (-exponent).toNat
  let upper := (roundingBounds mantissa scale).2 * 10 ^ (-exponent).toNat
  if mantissa % 2 = 0 then decide (lower ≤ value ∧ value ≤ upper)
  else decide (lower < value ∧ value < upper)

/-- The decimal point's place: `10 ^ (point - 1) ≤ value < 10 ^ point`. -/
def decimalPoint (units : Nat) : Int :=
  if unit ≤ units then (Nat.digits 10 (units / unit)).length
  else 1 - (Nat.digits 10 ((unit - 1) / units)).length

/-- The candidates of a given exponent around the value, nearer first. -/
def candidates (units : Nat) (exponent : Int) : List Nat :=
  let a := units * 10 ^ (-exponent).toNat
  let d := unit * 10 ^ exponent.toNat
  if nearest a d = a / d then [a / d, a / d + 1] else [a / d + 1, a / d]

/-- The first candidate that reads back, trying `count` digits, then more. -/
def searchDigits (mantissa scale : Nat) (point : Int) : Nat → Nat → Nat × Int
  | 0, count => (nearest (mantissa * 2 ^ scale * 10 ^ (count - point).toNat) (unit * 10 ^ (point - count).toNat),
      point - count)
  | fuel + 1, count =>
    match (candidates (mantissa * 2 ^ scale) (point - count)).find?
        (fun digits => readsBack mantissa scale digits (point - count)) with
    | some digits => (digits, point - count)
    | none => searchDigits mantissa scale point fuel (count + 1)

/-- The shortest decimal that reads back as the magnitude, and the nearest such;
seventeen digits always suffice. A carry out of the leading digit (`9.99e22` read
as `10e22`) leaves one zero to drop. -/
def shortest (mantissa scale : Nat) : Nat × Int :=
  let (digits, exponent) := searchDigits mantissa scale (decimalPoint (mantissa * 2 ^ scale)) 16 1
  if digits % 10 = 0 then (digits / 10, exponent + 1) else (digits, exponent)

/-- `repr` of a positive finite magnitude: positional between `1e-4` and `1e16`. -/
def reprMagnitude (mantissa scale : Nat) : Text :=
  let (value, exponent) := shortest mantissa scale
  let digits := decimal value
  let point := exponent + digits.length
  if -4 < point ∧ point ≤ 16 then
    if point ≤ 0 then txt "0." ++ List.replicate (-point).toNat 0x30 ++ digits
    else if digits.length ≤ point then
      digits ++ List.replicate (point - digits.length).toNat 0x30 ++ txt ".0"
    else digits.take point.toNat ++ txt "." ++ digits.drop point.toNat
  else
    let exponentText := decimal (point - 1).natAbs
    digits.take 1 ++ (if digits.length = 1 then [] else txt "." ++ digits.drop 1) ++
      (if point - 1 < 0 then txt "e-" else txt "e+") ++
      List.replicate (2 - exponentText.length) 0x30 ++ exponentText

/-- `repr(float)`. -/
def repr : Binary64 → Text
  | .nan => txt "nan"
  | .inf negative => if negative then txt "-inf" else txt "inf"
  | .finite negative mantissa scale _ =>
    (if negative then txt "-" else []) ++
      if mantissa = 0 then txt "0.0" else reprMagnitude mantissa scale

end Binary64
