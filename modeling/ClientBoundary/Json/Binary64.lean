/-!
# Binary floating-point magnitudes

A magnitude is `significand · 2 ^ exponent` with a significand of at most 53 bits, as small an
exponent as that allows, and no exponent below -1074.

- `ofRatio?`: the nearest magnitude to a quotient, a tie going to the even significand; `none`
  where that is too large;
- `shortest`: the fewest decimal digits that read back as the magnitude, and of those the nearest.
-/

namespace ClientBoundary
namespace Json

structure Magnitude where
  significand : Nat
  exponent : Int
  deriving DecidableEq, Repr

namespace Magnitude

def zero : Magnitude := ⟨0, -1074⟩

/-- The numerator and denominator of a magnitude times `2 ^ shift`. -/
def scaled (num den : Nat) (shift : Int) : Nat × Nat :=
  if 0 ≤ shift then (num <<< shift.toNat, den) else (num, den <<< (-shift).toNat)

/-- The integer nearest to a quotient, a tie going to the even one. -/
def roundDiv (num den : Nat) : Nat :=
  let q := num / den
  let twice := 2 * (num % den)
  if twice < den then q
  else if den < twice then q + 1
  else q + q % 2

/-- An exponent that leaves 53 bits before the point of `num / den`, but not below -1074. -/
def exponentOf (num den : Nat) : Int :=
  let guess : Int := (num.log2 : Int) - (den.log2 : Int) - 52
  let (n, d) := scaled num den (-guess)
  -- the difference of the logarithms is right or one too large
  let e := if n / d < 1 <<< 52 then guess - 1 else guess
  max e (-1074)

/-- The magnitude nearest to `num / den`. -/
def ofRatio? (num den : Nat) : Option Magnitude :=
  if num = 0 then
    some zero
  else
    let e := exponentOf num den
    let (n, d) := scaled num den (-e)
    let m := roundDiv n d
    let r : Magnitude := if m = 1 <<< 53 then ⟨1 <<< 52, e + 1⟩ else ⟨m, e⟩
    if r.exponent ≤ 971 then some r else none

/-- The exact quotient that a magnitude stands for. -/
def ratio (m : Magnitude) : Nat × Nat :=
  scaled m.significand 1 m.exponent

def mul? (a b : Magnitude) : Option Magnitude :=
  let (an, ad) := a.ratio
  let (bn, bd) := b.ratio
  ofRatio? (an * bn) (ad * bd)

def div? (a b : Magnitude) : Option Magnitude :=
  let (an, ad) := a.ratio
  let (bn, bd) := b.ratio
  ofRatio? (an * bd) (ad * bn)

/-- The magnitude nearest to a power of ten. -/
def powerOfTen? (k : Nat) : Option Magnitude :=
  ofRatio? (Nat.pow 10 k) 1

/-! ## Shortest digits -/

/-- The numerator and denominator of a quotient divided by a power of ten. -/
def scaledTen (num den : Nat) (power : Int) : Nat × Nat :=
  if 0 ≤ power then (num, den * Nat.pow 10 power.toNat)
  else (num * Nat.pow 10 (-power).toNat, den)

/-- The power of the leading decimal digit of a quotient that is not zero. -/
def leadingPower (num den : Nat) : Int :=
  -- the quotient stands for the decimal logarithm of two, and the guess is off by one at most
  let guess : Int := ((num.log2 : Int) - (den.log2 : Int)) * 30103 / 100000
  let reaches (power : Int) : Bool :=
    let (n, d) := scaledTen num den power
    d ≤ n
  if reaches (guess + 1) then guess + 1
  else if reaches guess then guess
  else guess - 1

/-- Whether every real at distance `num / den` quarter units from the magnitude, on the given
side, rounds to it. -/
def withinHalf (m : Magnitude) (above : Bool) (num den : Nat) : Bool :=
  -- below a power of two the next magnitude is only half as far away
  let half := if !above && m.significand = 1 <<< 52 && -1074 < m.exponent then 1 else 2
  if m.significand % 2 = 0 then num ≤ half * den else num < half * den

/-- Whether `digits · 10 ^ power` rounds to the magnitude, and how far it lies away. -/
def gap (m : Magnitude) (digits : Nat) (power : Int) : Option (Nat × Nat) :=
  let (vn, vd) := m.ratio
  let (dn, dd) : Nat × Nat :=
    if 0 ≤ power then (digits * Nat.pow 10 power.toNat, 1)
    else (digits, Nat.pow 10 (-power).toNat)
  let above := decide (vn * dd ≤ dn * vd)
  let distance := if above then dn * vd - vn * dd else vn * dd - dn * vd
  let (un, ud) := scaled (distance * 4) (vd * dd) (-m.exponent)
  if withinHalf m above un ud then some (distance, vd * dd) else none

/-- The nearer of the two neighbours with `count` digits that round to the magnitude. -/
def candidate? (m : Magnitude) (lead : Int) (count : Nat) : Option (Nat × Int) :=
  let power := lead - (count : Int) + 1
  let (vn, vd) := m.ratio
  let (n, d) := scaledTen vn vd power
  let low := n / d
  match m.gap low power, m.gap (low + 1) power with
  | none, none => none
  | some _, none => some (low, power)
  | none, some _ => some (low + 1, power)
  | some (a, _), some (b, _) =>
      if a < b then some (low, power)
      else if b < a then some (low + 1, power)
      -- at the same distance the even digits are taken
      else some (low + low % 2, power)

/-- Drop trailing zeros of a digit string; `fuel` bounds how many. -/
def dropZeros : Nat → Nat → Int → Nat × Int
  | 0, digits, power => (digits, power)
  | fuel + 1, digits, power =>
      if digits % 10 = 0 then dropZeros fuel (digits / 10) (power + 1) else (digits, power)

/-- The shortest decimal `digits · 10 ^ power` that rounds to a magnitude that is not zero. -/
def shortest (m : Magnitude) : Nat × Int :=
  let (vn, vd) := m.ratio
  let lead := leadingPower vn vd
  match (List.range 17).findSome? fun i => m.candidate? lead (i + 1) with
  | some (digits, power) => dropZeros 17 digits power
  | none => (0, 0)

end Magnitude

end Json
end ClientBoundary
