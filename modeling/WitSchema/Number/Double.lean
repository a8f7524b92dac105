/-! Doubles as exact numbers, and how they are written. `Double.ofFloat` splits a
float into an integer times a power of two, and `Double.nearest` rounds a
fraction of two naturals to the float closest to it, a tie going to the even
mantissa.

A float is written with the fewest digits that read back, and of these decimals
with the one nearest to it, a tie going to the even last digit; positionally for
magnitudes from `1e-4` up to `1e16` and with a two-digit exponent outside. A
whole float keeps the mark `.0`. -/

namespace WitSchema

inductive Double
  | nan
  | infinite (negative : Bool)
  | finite (negative : Bool) (mantissa : Nat) (exponent : Int)

namespace Double

def twoTo (n : Nat) : Nat := Nat.pow 2 n

def tenTo (n : Nat) : Nat := Nat.pow 10 n

def ofFloat (x : Float) : Double :=
  let bits := x.toBits.toNat
  let negative := bits / twoTo 63 == 1
  let biased : Nat := bits / twoTo 52 % 2048
  let fraction : Nat := bits % twoTo 52
  if biased = 2047 then if fraction = 0 then .infinite negative else .nan
  else if biased = 0 then .finite negative fraction (-1074)
  else .finite negative (twoTo 52 + fraction) ((biased : Nat) - 1075)

def isFinite : Double → Bool
  | finite .. => true
  | _ => false

def integer? : Double → Option Int
  | finite negative m e =>
    let sign : Int := if negative then -1 else 1
    if 0 ≤ e then some (sign * (m * twoTo e.toNat : Nat))
    else if m % twoTo (-e).toNat = 0 then some (sign * (m / twoTo (-e).toNat : Nat)) else none
  | _ => none

/-- The quotient rounded to the nearest natural, a tie going to the even one. -/
def roundQuotient (num den : Nat) : Nat :=
  let q := num / den
  let r := 2 * (num % den)
  if r < den then q else if den < r then q + 1 else q + q % 2

/-- The exponent `e` for which `num / den` lies in `[2 ^ 52, 2 ^ 53) * 2 ^ e`, but not below
that of the subnormal numbers. -/
def scale (num den : Nat) : Int :=
  let e : Int := num.log2 - den.log2 - 52
  let e := if num * twoTo (-e).toNat < den * twoTo e.toNat * twoTo 52 then e - 1 else e
  if e < -1074 then -1074 else e

/-- The bits of a positive double of this mantissa and exponent: a mantissa below `2 ^ 52` is
subnormal, one that rounded up to `2 ^ 53` carries over, and what is too large is infinite. -/
def bitsOf (mantissa : Nat) (e : Int) : Nat :=
  if mantissa < twoTo 52 then mantissa
  else
    let bits := (e + 1074).toNat * twoTo 52 + mantissa
    if bits < 2047 * twoTo 52 then bits else 2047 * twoTo 52

def nearest (negative : Bool) (num den : Nat) : Float :=
  let bits := if num = 0 then 0 else
    let e := scale num den
    bitsOf (roundQuotient (num * twoTo (-e).toNat) (den * twoTo e.toNat)) e
  Float.ofBits (UInt64.ofNat (if negative then twoTo 63 + bits else bits))

/-- The double nearest to `digits * 10 ^ exponent`. Exponents far outside the range of doubles
are cut off before the power is taken. -/
def ofDecimal (negative : Bool) (digits : Nat) (exponent : Int) : Float :=
  if digits = 0 then nearest negative 0 1
  else if 400 < exponent then nearest negative (tenTo 400) 1
  else if 0 ≤ exponent then nearest negative (digits * tenTo exponent.toNat) 1
  else if exponent < -(400 + 4 * digits.log2 : Int) then nearest negative 0 1
  else nearest negative digits (tenTo (-exponent).toNat)

def ofInt (n : Int) : Float :=
  nearest (n < 0) n.natAbs 1

end Double

end WitSchema

namespace WitSchema.Shortest

open Double (twoTo tenTo)

def digitCount (n : Nat) : Nat := (Nat.toDigits 10 n).length

structure Decimal where
  digits : Nat
  exponent : Int

/-- The reals between `low` and `high` times `num / den` round to `mid * num / den`. -/
structure Interval where
  low : Nat
  mid : Nat
  high : Nat
  num : Nat
  den : Nat
  closed : Bool

/-- A mantissa at the lower end of its binade has a neighbour below that is only half as far. -/
def interval (mantissa : Nat) (exponent : Int) : Interval where
  low := if mantissa = twoTo 52 ∧ -1074 < exponent then 4 * mantissa - 1 else 4 * mantissa - 2
  mid := 4 * mantissa
  high := 4 * mantissa + 2
  num := twoTo (exponent - 2).toNat
  den := twoTo (2 - exponent).toNat
  closed := mantissa % 2 = 0

def Interval.holds (i : Interval) (d : Decimal) : Bool :=
  let x := d.digits * tenTo d.exponent.toNat * i.den
  let y := i.num * tenTo (-d.exponent).toNat
  if i.closed then i.low * y ≤ x ∧ x ≤ i.high * y else i.low * y < x ∧ x < i.high * y

/-- Twice the position of the middle on the grid of `10 ^ exponent`, rounded down, and whether
that is exact. -/
def Interval.doubled (i : Interval) (exponent : Int) : Nat × Bool :=
  let x := 2 * i.mid * i.num * tenTo (-exponent).toNat
  let y := i.den * tenTo exponent.toNat
  (x / y, x % y = 0)

def Interval.onGrid (i : Interval) (exponent : Int) : Option Decimal :=
  let (twice, exact) := i.doubled exponent
  let below : Decimal := ⟨twice / 2, exponent⟩
  let above : Decimal := ⟨twice / 2 + 1, exponent⟩
  let nearBelow := twice % 2 = 0 ∨ (exact ∧ below.digits % 2 = 0)
  match i.holds below, i.holds above with
  | true, true => some (if nearBelow then below else above)
  | true, false => some below
  | false, true => some above
  | false, false => none

/-- The exponent `p` for which the middle lies in `[10 ^ (p - 1), 10 ^ p)`. -/
def Interval.magnitude (i : Interval) : Int :=
  let whole := i.mid * i.num / i.den
  if whole = 0 then 1 - digitCount (i.den / (i.mid * i.num)) else digitCount whole

def Decimal.trim (d : Decimal) : Nat → Decimal
  | 0 => d
  | n + 1 => if d.digits % 10 = 0 then trim ⟨d.digits / 10, d.exponent + 1⟩ n else d

def Interval.shortest (i : Interval) : Decimal :=
  let hits := (List.range 17).findSome? fun n : Nat => i.onGrid (i.magnitude - (n + 1))
  (hits.getD ⟨0, 0⟩).trim 17

def digits (mantissa : Nat) (exponent : Int) : Decimal :=
  (interval mantissa exponent).shortest

end WitSchema.Shortest

namespace WitSchema

namespace Double

def exponentText (e : Int) : String :=
  let digits := toString e.natAbs
  (if e < 0 then "e-" else "e+") ++ (if digits.length < 2 then "0" ++ digits else digits)

/-- The digits `d` stand for `0.d * 10 ^ point`. -/
def positional (digits : List Char) (point : Int) : String :=
  if point ≤ 0 then "0." ++ String.ofList (List.replicate (-point).toNat '0' ++ digits)
  else if digits.length ≤ point.toNat then
    String.ofList (digits ++ List.replicate (point.toNat - digits.length) '0') ++ ".0"
  else String.ofList (digits.take point.toNat ++ '.' :: digits.drop point.toNat)

def scientific (digits : List Char) (point : Int) : String :=
  let mantissa := match digits with
    | [] => ""
    | [d] => String.ofList [d]
    | d :: rest => String.ofList (d :: '.' :: rest)
  mantissa ++ exponentText (point - 1)

def text : Double → String
  | nan => "nan"
  | infinite negative => if negative then "-inf" else "inf"
  | finite negative m e =>
    let magnitude := if m = 0 then "0.0" else
      let d := Shortest.digits m e
      let digits := Nat.toDigits 10 d.digits
      let point := d.exponent + digits.length
      if -4 < point ∧ point ≤ 16 then positional digits point else scientific digits point
    if negative then "-" ++ magnitude else magnitude

end Double

def floatText (x : Float) : String := (Double.ofFloat x).text

end WitSchema
