/-!
# Doubles, exactly

The finite doubles that are not negative, as products of a natural number below 2^53 and a power of
two from -1074 to 971, and the rounding of a fraction to the nearest of them.  A half goes to the
even neighbour, and a fraction beyond the largest double has none.  The shortest decimal of a
double is the one of fewest digits that rounds to it, and of those the nearest.
-/

namespace Concordance

/-- The double `mantissa * 2 ^ exponent`. -/
structure Binary64 where
  mantissa : Nat
  exponent : Int
  deriving Repr, DecidableEq

namespace Binary64

/-- The fraction `num / den`, divided by a power of two. -/
def scale (num den : Nat) (exponent : Int) : Nat × Nat :=
  if exponent < 0 then (num * Nat.pow 2 (-exponent).toNat, den)
  else (num, den * Nat.pow 2 exponent.toNat)

/-- The whole number nearest to a fraction; a half goes to the even one. -/
def nearestWhole (num den : Nat) : Nat :=
  let whole := num / den
  let twice := 2 * (num % den)
  if twice > den ∨ (twice = den ∧ whole % 2 = 1) then whole + 1 else whole

/-- The double nearest to the fraction `num / den`, if it is in range. -/
def nearest (num den : Nat) : Option Binary64 :=
  if num = 0 then some ⟨0, -1074⟩
  else
    let low := max (-1074) ((num.log2 : Int) - den.log2 - 53)
    let at_low := scale num den low
    let exponent := if at_low.1 / at_low.2 < Nat.pow 2 53 then low else low + 1
    let scaled := scale num den exponent
    let mantissa := nearestWhole scaled.1 scaled.2
    let double : Binary64 :=
      if mantissa = Nat.pow 2 53 then ⟨Nat.pow 2 52, exponent + 1⟩ else ⟨mantissa, exponent⟩
    if double.exponent > 971 then none else some double

def toFraction (double : Binary64) : Nat × Nat :=
  if double.exponent < 0 then (double.mantissa, Nat.pow 2 (-double.exponent).toNat)
  else (double.mantissa * Nat.pow 2 double.exponent.toNat, 1)

/-- The double nearest to a product, if it is in range. -/
def mul? (a b : Binary64) : Option Binary64 :=
  nearest (a.toFraction.1 * b.toFraction.1) (a.toFraction.2 * b.toFraction.2)

/-- The double nearest to a quotient, if it is in range. -/
def div? (a b : Binary64) : Option Binary64 :=
  nearest (a.toFraction.1 * b.toFraction.2) (a.toFraction.2 * b.toFraction.1)

/-- The double nearest to `digits * 10 ^ exponent`, if it is in range. -/
def ofDecimal? (digits : Nat) (exponent : Int) : Option Binary64 :=
  if exponent < 0 then nearest digits (Nat.pow 10 (-exponent).toNat)
  else nearest (digits * Nat.pow 10 exponent.toNat) 1

/-- The number of digits before the decimal point of a fraction that is not zero; for a fraction
below one tenth, less than zero by the number of zeros after the point. -/
def pointPlace (num den : Nat) : Int :=
  if den ≤ num then (Nat.toDigits 10 (num / den)).length
  else
    let zeros := (Nat.toDigits 10 (den / num)).length - 1
    if num * Nat.pow 10 zeros < den then -(zeros : Int) else 1 - zeros

/-- The decimals with the given last place on either side of a fraction, the nearer first. -/
def neighbours (num den : Nat) (place : Int) : List Nat :=
  let scaled :=
    if place < 0 then (num * Nat.pow 10 (-place).toNat, den)
    else (num, den * Nat.pow 10 place.toNat)
  let below := scaled.1 / scaled.2
  if nearestWhole scaled.1 scaled.2 = below then [below, below + 1] else [below + 1, below]

/-- The digits and the last place of the shortest decimal of a double, tried from `count` digits
on. -/
def shortestFrom (double : Binary64) (tries count : Nat) : Nat × Int :=
  let (num, den) := double.toFraction
  let place := pointPlace num den - count
  match tries with
  | 0 => ((neighbours num den place).headD 0, place)
  | tries + 1 =>
    let readsBack (digits : Nat) : Bool := ofDecimal? digits place == some double
    match (neighbours num den place).find? readsBack with
    | some digits => if digits = 10 then (1, place + 1) else (digits, place)
    | none => shortestFrom double tries (count + 1)

/-- A decimal in positional notation, always with a decimal point: its digits, and the place of the
last of them as a power of ten. -/
def positional (digits : List Char) (place : Int) : String :=
  if place ≥ 0 then String.ofList (digits ++ List.replicate place.toNat '0') ++ ".0"
  else
    let after := (-place).toNat
    let padded := List.replicate (after + 1 - digits.length) '0' ++ digits
    let whole := padded.take (padded.length - after)
    String.ofList (whole ++ '.' :: padded.drop (padded.length - after))

/-- A decimal in exponent notation: one digit before the point, no point if there are no others, and
the sign of the exponent. -/
def exponential (digits : List Char) (place : Int) : String :=
  let exponent := place + digits.length - 1
  let fraction := if digits.length ≤ 1 then [] else '.' :: digits.drop 1
  String.ofList (digits.take 1 ++ fraction) ++ (if exponent < 0 then "e-" else "e+") ++
    toString exponent.natAbs

/-- The shortest decimal of a double in positional notation. -/
def shown (double : Binary64) : String :=
  if double.mantissa = 0 then "0.0"
  else
    let (digits, place) := shortestFrom double 16 1
    positional (Nat.toDigits 10 digits) place

/-- The shortest decimal of a double, in positional notation as long as the point is at most sixteen
digits behind the first one or four zeros in front of it, and in exponent notation beyond. -/
def shownBriefly (double : Binary64) : String :=
  if double.mantissa = 0 then "0.0"
  else
    let (digits, place) := shortestFrom double 16 1
    let ds := Nat.toDigits 10 digits
    let point := place + ds.length
    if -5 < point ∧ point ≤ 16 then positional ds place else exponential ds place

end Binary64

end Concordance
