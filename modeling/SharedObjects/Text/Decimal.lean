/-!
Binary fractions in decimal. A number `m · 2^q` is written with the fewest digits that lie nearer to
it than to its neighbours, among those with the nearest, and of two as near with the greater.
Everything is scaled by `2^1076 · 10^345`, which makes every quantity below a whole number.
-/
set_option autoImplicit false

namespace SharedObjects.Decimal

/-- A positive number `0.d₁d₂… · 10^point`. -/
structure Digits where
  digits : List Char
  point : Int
  deriving DecidableEq, Repr

def twoTo (n : Nat) : Nat := 1 <<< n

def tenTo (n : Nat) : Nat := Nat.pow 10 n

def scaled (quarters : Nat) (exponent : Int) : Nat :=
  quarters * twoTo (exponent + 1074).toNat * tenTo 345

def scaledDecimal (c : Nat) (s : Int) : Nat :=
  c * tenTo (s + 345).toNat * twoTo 1076

/-- The numbers that read back as `m · 2^q`, on the common scale: the ends belong to it when `m`
is even, and the lower one is twice as near when `m` opens a new binade. -/
structure Reach where
  value : Nat
  low : Nat
  high : Nat
  closed : Bool

def reach (m : Nat) (q : Int) (opensBinade : Bool) : Reach where
  value := scaled (4 * m) q
  low := scaled (4 * m - if opensBinade then 1 else 2) q
  high := scaled (4 * m + 2) q
  closed := m % 2 = 0

def Reach.contains (r : Reach) (n : Nat) : Bool :=
  if r.closed then r.low ≤ n && n ≤ r.high else r.low < n && n < r.high

def decimalPoint (value : Nat) : Int :=
  (Nat.toDigits 10 (value / twoTo 1076)).length - 345

/-- The nearer of the two numbers with `count` digits around the value that read back, the greater
one if both are as near. -/
def candidate (r : Reach) (point : Int) (count : Nat) : Option Nat :=
  let s := point - count
  let below := r.value / scaledDecimal 1 s
  let down := scaledDecimal below s
  let up := scaledDecimal (below + 1) s
  match r.contains down, r.contains up with
  | true, true => if r.value - down < up - r.value then some below else some (below + 1)
  | true, false => some below
  | false, true => some (below + 1)
  | false, false => none

def shortestFrom (r : Reach) (point : Int) : Nat → Nat → Nat × Nat
  | 0, count => (r.value / scaledDecimal 1 (point - count), count)
  | fuel + 1, count =>
    match candidate r point count with
    | some n => (n, count)
    | none => shortestFrom r point fuel (count + 1)

def shortest (m : Nat) (q : Int) (opensBinade : Bool) : Digits :=
  let r := reach m q opensBinade
  let point := decimalPoint r.value
  let (n, count) := shortestFrom r point 17 1
  let digits := Nat.toDigits 10 n
  let carried : Int := digits.length - count
  let kept := (digits.reverse.dropWhile (· = '0')).reverse
  ⟨kept, point + carried⟩

def Digits.positional (d : Digits) : List Char :=
  if d.point ≤ 0 then
    ['0', '.'] ++ List.replicate (-d.point).toNat '0' ++ d.digits
  else
    let whole := d.digits.take d.point.toNat
    let fraction := d.digits.drop d.point.toNat
    whole ++ List.replicate (d.point.toNat - whole.length) '0' ++ ['.'] ++
      if fraction.isEmpty then ['0'] else fraction

def Digits.scientific (d : Digits) : List Char :=
  let rest := d.digits.drop 1
  d.digits.take 1 ++ (if rest.isEmpty then [] else '.' :: rest) ++ ['e'] ++
    (toString (d.point - 1)).toList

/-- Positional from `10^-4` up to `10^16`, scientific elsewhere. -/
def Digits.text (d : Digits) : String :=
  String.ofList (if -3 ≤ d.point ∧ d.point ≤ 16 then d.positional else d.scientific)

structure Format where
  fraction : Nat
  exponent : Nat
  deriving DecidableEq, Repr

def single : Format := ⟨23, 8⟩

def double : Format := ⟨52, 11⟩

def Format.text (f : Format) (bits : Nat) : String :=
  let fraction := bits % twoTo f.fraction
  let exponent := bits / twoTo f.fraction % twoTo f.exponent
  let sign := if bits / twoTo (f.fraction + f.exponent) % 2 = 1 then "-" else ""
  let bias : Int := twoTo (f.exponent - 1) - 1
  if exponent = twoTo f.exponent - 1 then
    if fraction = 0 then sign ++ "inf" else "NaN"
  else if exponent = 0 ∧ fraction = 0 then sign ++ "0.0"
  else if exponent = 0 then sign ++ (shortest fraction (1 - bias - f.fraction) false).text
  else
    sign ++ (shortest (twoTo f.fraction + fraction) (exponent - bias - f.fraction)
      (fraction = 0 && 1 < exponent)).text

end SharedObjects.Decimal
