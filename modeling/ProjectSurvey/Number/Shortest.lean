import ProjectSurvey.Number.Binary64
import ProjectSurvey.Text.Chars

/-!
# The shortest decimal of a double

Writing a double with the fewest digits that read back as the same double; of several such
decimals the one nearest to its value. **Digits and layout are apart**: `Binary64.shortest` finds
the digits and the place of the point in exact arithmetic, `Binary64.text` lays them out,
positionally between `10 ^ -4` and `10 ^ 16` and with an exponent of at least two digits outside.
-/

namespace ProjectSurvey.Binary64

/-- The number `digits · 10 ^ exponent`. -/
structure Decimal where
  /-- The digits as one number. -/
  digits : Nat
  /-- The power of ten. -/
  exponent : Int

/-- Whether `n₁ / d₁ ≤ n₂ / d₂`. -/
def ratioLe (n₁ d₁ n₂ d₂ : Nat) : Bool := n₁ * d₂ ≤ n₂ * d₁

/-- The numerator and denominator of `n · 10 ^ e`. -/
def scale10 (n : Nat) (e : Int) : Nat × Nat :=
  match e with
  | .ofNat k => (n * 10 ^ k, 1)
  | .negSucc k => (n, 10 ^ (k + 1))

/-- The `k` with `10 ^ (k - 1) ≤ num / den < 10 ^ k`. -/
def pointOf (num den : Nat) (guess : Int) : Int :=
  let (n, d) := scale10 1 guess
  let k := if ratioLe n d num den then guess + 1 else guess
  let (n, d) := scale10 1 (k - 1)
  if ratioLe n d num den then k else k - 1

/-- The decimals of `count` digits next to a positive value, nearest first, that lie in the
interval of numbers that round to it. -/
def onGrid (num den lowNum highNum : Nat) (closed : Bool) (point : Int) (count : Nat) :
    Option Decimal :=
  let e := point - count
  let (gn, gd) := scale10 1 e
  let q := (num * gd) / (den * gn)
  let r := (num * gd) % (den * gn)
  let inside (d : Nat) : Bool :=
    let (n, m) := scale10 d e
    if closed then ratioLe lowNum den n m && ratioLe n m highNum den
    else !(ratioLe n m lowNum den) && !(ratioLe highNum den n m)
  let upNearer := den * gn < 2 * r ∨ (2 * r = den * gn ∧ q % 2 = 1)
  let (a, b) := if upNearer then (q + 1, q) else (q, q + 1)
  if inside a then some ⟨a, e⟩ else if inside b then some ⟨b, e⟩ else none

/-- The first grid, from one digit to seventeen, that has a decimal of the interval. -/
def firstGrid (attempt : Nat → Option Decimal) : (rounds count : Nat) → Option Decimal
  | 0, _ => none
  | rounds + 1, count =>
    match attempt count with
    | some d => some d
    | none => firstGrid attempt rounds (count + 1)

/-- The shortest decimal that reads back as the positive double `m · 2 ^ e`. -/
def shortest (m : Nat) (e : Int) : Decimal :=
  let (unit, den) := scale 1 (e - 2)
  let low := if m = 2 ^ (52 : Nat) ∧ e > -1074 then 4 * m - 1 else 4 * m - 2
  let num := 4 * m * unit
  let point := pointOf num den (((Nat.log2 m + e) * 30103) / 100000 + 1)
  let attempt := onGrid num den (low * unit) ((4 * m + 2) * unit) (m % 2 = 0) point
  (firstGrid attempt 17 1).getD ⟨0, 0⟩

/-- The digits without trailing zeros. -/
def trimmed (digits : Nat) : List Char :=
  match Text.trimRight (· == '0') (Text.decimal digits) with
  | [] => ['0']
  | ds => ds

/-- A decimal laid out as text. -/
def Decimal.layout (d : Decimal) : List Char :=
  let point := d.exponent + (Text.decimal d.digits).length
  let ds := trimmed d.digits
  let len : Int := ds.length
  if -4 < point ∧ point ≤ 16 then
    if point ≤ 0 then '0' :: '.' :: List.replicate (-point).toNat '0' ++ ds
    else if len ≤ point then ds ++ List.replicate (point - len).toNat '0' ++ ['.', '0']
    else ds.take point.toNat ++ '.' :: ds.drop point.toNat
  else
    let e := point - 1
    let digits := Text.decimal e.natAbs
    let exponent := if digits.length < 2 then '0' :: digits else digits
    let sign := if e < 0 then '-' else '+'
    match ds with
    | [d] => d :: 'e' :: sign :: exponent
    | d :: rest => d :: '.' :: rest ++ 'e' :: sign :: exponent
    | [] => []

/-- How the values that are not finite are written. -/
structure Spelling where
  /-- Positive infinity. -/
  infinity : String
  /-- The undefined value. -/
  undefined : String

/-- A double as text: the shortest decimal that reads back as it. -/
def text (spelling : Spelling) : Binary64 → List Char
  | finite s m e =>
    (if s then ['-'] else []) ++ (if m = 0 then "0.0".toList else (shortest m e).layout)
  | infinite s => (if s then ['-'] else []) ++ spelling.infinity.toList
  | nan => spelling.undefined.toList

/-- The number of the given hundredths, tenths and so on, with exactly `places` places. -/
def fixedText (places units : Nat) : List Char :=
  let whole := Text.decimal (units / 10 ^ places)
  let part := Text.decimal (units % 10 ^ places)
  whole ++ '.' :: List.replicate (places - part.length) '0' ++ part

end ProjectSurvey.Binary64
