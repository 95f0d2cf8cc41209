import ProjectSurvey.Number.Basic

/-!
# Double-precision numbers

Floating point numbers of 53 bits as exact values `± mantissa · 2 ^ exponent`, with the operations
that a reader of numbers needs: rounding a quotient or a decimal to the nearest double, sum and
product. **Everything is computed on integers**, so an equation about a double is an equation about
its mantissa and exponent. Ties go to the even mantissa; what is too large becomes infinite.

A finite value is kept with the largest mantissa below `2 ^ 53` and no exponent below `-1074`.
-/

namespace ProjectSurvey

/-- A double-precision number. -/
inductive Binary64 where
  /-- The value `± mantissa · 2 ^ exponent`. -/
  | finite (negative : Bool) (mantissa : Nat) (exponent : Int)
  /-- Beyond the largest finite value. -/
  | infinite (negative : Bool)
  /-- The result of an undefined operation. -/
  | nan
  deriving DecidableEq, Repr, Inhabited

namespace Binary64

/-- The quotient of two naturals rounded to the nearest natural, a half to the even neighbour. -/
def roundDiv (num den : Nat) : Nat :=
  let q := num / den
  let r := num % den
  if den < 2 * r ∨ (2 * r = den ∧ q % 2 = 1) then q + 1 else q

/-- The numerator and denominator of `n · 2 ^ e`. -/
def scale (n : Nat) (e : Int) : Nat × Nat :=
  match e with
  | .ofNat k => (n * 2 ^ k, 1)
  | .negSucc k => (n, 2 ^ (k + 1))

/-- Zero. -/
def zero (negative : Bool) : Binary64 := finite negative 0 (-1074)

/-- The exponent at which `num / den` has a mantissa of 53 bits, or the least exponent. -/
def exponentFor (num den : Nat) : Int :=
  let e0 : Int := (Nat.log2 num : Int) - (Nat.log2 den : Int) - 52
  let (n, d) := scale num (-e0)
  let e := if n < d * den * 2 ^ (52 : Nat) then e0 - 1 else e0
  max e (-1074)

/-- The double nearest to `± num / den`. -/
def ofRatio (negative : Bool) (num den : Nat) : Binary64 :=
  if num = 0 then zero negative
  else
    let e := exponentFor num den
    let (n, d) := scale num (-e)
    let m := roundDiv n (d * den)
    let (m, e) := if m = 2 ^ (53 : Nat) then (2 ^ (52 : Nat), e + 1) else (m, e)
    if e > 971 then infinite negative
    else if m = 0 then zero negative else finite negative m e

/-- The double nearest to `± digits · 10 ^ exponent`. Exponents far out of range are answered
without computing the power. -/
def ofDecimal (negative : Bool) (digits : Nat) (exponent : Int) : Binary64 :=
  if digits = 0 then zero negative
  else
    let size : Int := (Nat.toDigits 10 digits).length
    if exponent + size > 400 then infinite negative
    else if exponent + size < -400 then zero negative
    else
      match exponent with
      | .ofNat k => ofRatio negative (digits * 10 ^ k) 1
      | .negSucc k => ofRatio negative digits (10 ^ (k + 1))

/-- How many digits of a decimal decide, together with whether a later one differs from zero: the
value halfway between two doubles has less than 770. -/
def decisiveDigits : Nat := 800

/-- The double nearest to `± digits · 10 ^ exponent`, the digits given one by one. However many
there are, only the decisive ones are computed with. -/
def ofDigits (negative : Bool) (digits : List Nat) (exponent : Int) : Binary64 :=
  let value (ds : List Nat) : Nat := ds.foldl (fun n d => n * 10 + d) 0
  match (digits.dropWhile (· == 0)).splitAt decisiveDigits with
  | (first, []) => ofDecimal negative (value first) exponent
  | (first, later) =>
    let trace := if later.all (· == 0) then 0 else 1
    ofDecimal negative (value (first ++ [trace])) (exponent + later.length - 1)

/-- The double nearest to an integer. -/
def ofInt (n : Int) : Binary64 := ofRatio (decide (n < 0)) n.natAbs 1

/-- The double nearest to `n · 2 ^ e`. -/
def ofScaled (n : Int) (e : Int) : Binary64 :=
  let (num, den) := scale n.natAbs e
  ofRatio (decide (n < 0)) num den

/-- The signed mantissa of a finite value. -/
def signed (negative : Bool) (m : Nat) : Int := if negative then -(m : Int) else m

/-- The product of two doubles. -/
def mul : Binary64 → Binary64 → Binary64
  | finite s m e, finite t n f =>
    match ofScaled (m * n : Nat) (e + f) with
    | finite _ k g => finite (s != t) k g
    | _ => infinite (s != t)
  | finite s m _, infinite t => if m = 0 then nan else infinite (s != t)
  | infinite s, finite t m _ => if m = 0 then nan else infinite (s != t)
  | infinite s, infinite t => infinite (s != t)
  | _, _ => nan

/-- The sum of two doubles. -/
def add : Binary64 → Binary64 → Binary64
  | finite s m e, finite t n f =>
    let low := min e f
    let sum := signed s m * 2 ^ (e - low).toNat + signed t n * 2 ^ (f - low).toNat
    if sum = 0 then zero (s && t) else ofScaled sum low
  | finite .., infinite t => infinite t
  | infinite s, finite .. => infinite s
  | infinite s, infinite t => if s = t then infinite s else nan
  | _, _ => nan

/-- The number with the other sign. -/
def neg : Binary64 → Binary64
  | finite s m e => finite (!s) m e
  | infinite s => infinite (!s)
  | nan => nan

/-- The integer that a double equals, if there is one. -/
def toInt? : Binary64 → Option Int
  | finite s m e =>
    let (num, den) := scale m e
    if num % den = 0 then some (signed s (num / den)) else none
  | _ => none

/-- Whether the number is zero. -/
def isZero : Binary64 → Bool
  | finite _ m _ => m == 0
  | _ => false

/-- How many units of `10 ^ -places` are nearest to the absolute value; a half goes to the even
neighbour. `none` for what is not finite. -/
def roundedUnits? (places : Nat) : Binary64 → Option Nat
  | finite _ m e =>
    let (num, den) := scale (m * 10 ^ places) e
    some (roundDiv num den)
  | _ => none

end Binary64

end ProjectSurvey
