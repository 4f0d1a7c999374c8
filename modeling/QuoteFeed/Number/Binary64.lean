/-!
# Binary floating point

The nonnegative numbers of the binary64 format as `mantissa · 2 ^ exponent`, with exact
arithmetic on natural numbers.  `Binary64.ofRatio?` rounds a ratio to the nearest such number,
a half to the even mantissa.  `Binary64.shortest` is the shortest decimal numeral that rounds
back to the number, and among those of its length the nearest.
-/

namespace QuoteFeed

/-- The number `mantissa · 2 ^ exponent`, with a mantissa below `2 ^ 53` and an exponent of at
least `-1074`. -/
structure Binary64 where
  mantissa : Nat
  exponent : Int

namespace Binary64

/-- A ratio of natural numbers. -/
structure Ratio where
  num : Nat
  den : Nat

/-- A ratio times `2 ^ e`. -/
def Ratio.scale (x : Ratio) (e : Int) : Ratio :=
  if e ≥ 0 then ⟨x.num * Nat.pow 2 e.toNat, x.den⟩ else ⟨x.num, x.den * Nat.pow 2 (-e).toNat⟩

/-- A ratio times `10 ^ e`. -/
def Ratio.shift (x : Ratio) (e : Int) : Ratio :=
  if e ≥ 0 then ⟨x.num * Nat.pow 10 e.toNat, x.den⟩ else ⟨x.num, x.den * Nat.pow 10 (-e).toNat⟩

/-- The ratio that a number stands for. -/
def toRatio (x : Binary64) : Ratio :=
  Ratio.scale ⟨x.mantissa, 1⟩ x.exponent

/-- The nearest whole number, a half to the even one. -/
def nearest (x : Ratio) : Nat :=
  let q := x.num / x.den
  let r := x.num % x.den
  if 2 * r > x.den ∨ (2 * r = x.den ∧ q % 2 = 1) then q + 1 else q

/-- The least exponent. -/
def minExponent : Int := -1074

/-- The greatest exponent. -/
def maxExponent : Int := 971

/-- Zero. -/
def zero : Binary64 := ⟨0, minExponent⟩

/-- The nearest number of the format, `none` if it is beyond all of them. -/
def ofRatio? (x : Ratio) : Option Binary64 :=
  if x.num = 0 then
    some zero
  else
    let guess : Int := (x.num.log2 : Int) - x.den.log2 - 52
    let scaled := x.scale (-guess)
    let e := max minExponent (if scaled.num < Nat.pow 2 52 * scaled.den then guess - 1 else guess)
    let m := nearest (x.scale (-e))
    let y : Binary64 := if m < Nat.pow 2 53 then ⟨m, e⟩ else ⟨Nat.pow 2 52, e + 1⟩
    if y.exponent ≤ maxExponent then some y else none

/-- The product, rounded. -/
def mul? (x y : Binary64) : Option Binary64 :=
  ofRatio? (Ratio.scale ⟨x.mantissa * y.mantissa, 1⟩ (x.exponent + y.exponent))

/-- The quotient, rounded. -/
def div? (x y : Binary64) : Option Binary64 :=
  ofRatio? (Ratio.scale ⟨x.mantissa, y.mantissa⟩ (x.exponent - y.exponent))

/-- A power of ten, rounded. -/
def tenPower? (e : Nat) : Option Binary64 :=
  ofRatio? ⟨Nat.pow 10 e, 1⟩

/-! ### Shortest numerals -/

/-- A decimal numeral: `digits · 10 ^ exponent`. -/
structure Numeral10 where
  digits : Nat
  exponent : Int

/-- The interval of the numbers that round to `x`: its ends, times four over the unit of the
last place, and whether the ends belong to it. -/
structure Interval where
  low : Ratio
  high : Ratio
  closed : Bool

/-- The numbers that round to `x`. -/
def interval (x : Binary64) : Interval :=
  let narrow := x.mantissa = Nat.pow 2 52 ∧ x.exponent > minExponent
  { low := Ratio.scale ⟨if narrow then 4 * x.mantissa - 1 else 4 * x.mantissa - 2, 1⟩ (x.exponent - 2)
    high := Ratio.scale ⟨4 * x.mantissa + 2, 1⟩ (x.exponent - 2)
    closed := x.mantissa % 2 = 0 }

/-- The order of two ratios. -/
def Ratio.less (x y : Ratio) : Bool :=
  x.num * y.den < y.num * x.den

/-- A ratio is in an interval. -/
def Interval.has (i : Interval) (x : Ratio) : Bool :=
  if i.closed then !x.less i.low && !i.high.less x else i.low.less x && x.less i.high

/-- The place of the first digit: the least `p` with `x < 10 ^ p`, searched from an estimate
by the binary logarithm. -/
def firstPlace (x : Ratio) : Int :=
  let estimate : Int := ((x.num.log2 : Int) - x.den.log2 - 1) * 30103 / 100000 - 1
  let candidates := (List.range 6).map fun (i : Nat) => estimate + i
  (candidates.find? fun p => x.less (Ratio.shift ⟨1, 1⟩ p)).getD estimate

/-- The numeral of at most `n` digits that rounds back to `x`, if there is one: of the two
neighbours of the value on the grid of `n` digits the nearer, the upper one of two equally
near. -/
def numeralOf? (x : Binary64) (p : Int) (n : Nat) : Option Numeral10 :=
  let v := x.toRatio
  let e := p - n
  let y := v.shift (-e)
  let low := y.num / y.den
  let value (c : Nat) : Ratio := Ratio.shift ⟨c, 1⟩ e
  let lowFits := x.interval.has (value low)
  let highFits := x.interval.has (value (low + 1))
  if lowFits ∧ highFits then
    some ⟨if 2 * (y.num % y.den) < y.den then low else low + 1, e⟩
  else if lowFits then
    some ⟨low, e⟩
  else if highFits then
    some ⟨low + 1, e⟩
  else
    none

/-- A numeral after a carry: the upper neighbour of `9` on the grid of one digit is `1` a place
higher.  On a finer grid no carry is left to make, as the coarser grid had the same number. -/
def Numeral10.carried (n : Numeral10) : Numeral10 :=
  if n.digits = 10 then ⟨1, n.exponent + 1⟩ else n

/-- The shortest numeral that rounds back to the number.  Seventeen digits are always enough. -/
def shortest (x : Binary64) : Numeral10 :=
  if x.mantissa = 0 then
    ⟨0, 0⟩
  else
    let p := firstPlace x.toRatio
    (((List.range' 1 17).findSome? (numeralOf? x p)).getD ⟨0, 0⟩).carried

end Binary64

end QuoteFeed
