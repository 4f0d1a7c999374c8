/-!
# Decimals

A decimal is a sign, a mantissa of 96 bits and a scale of at most 28, the number of places
after the point.  The scale is part of the value: `1.5` and `1.50` are two decimals.  The sign
flag is kept on a zero too.  Both bounds are in the type, and `Decimal.ofParts?` is the one
way in.
-/

namespace QuoteFeed

/-- The first mantissa that does not fit. -/
def Decimal.mantissaBound : Nat := Nat.pow 2 96

/-- The greatest scale. -/
def Decimal.maxScale : Nat := 28

/-- The number `± mantissa · 10 ^ -scale`, with its scale. -/
structure Decimal where
  negative : Bool
  mantissa : Nat
  scale : Nat
  mantissa_lt : mantissa < Decimal.mantissaBound
  scale_le : scale ≤ Decimal.maxScale
  deriving DecidableEq

namespace Decimal

/-- The decimal with the given parts, if they are within bounds. -/
def ofParts? (negative : Bool) (mantissa scale : Nat) : Option Decimal :=
  if h : mantissa < mantissaBound ∧ scale ≤ maxScale then
    some ⟨negative, mantissa, scale, h.1, h.2⟩
  else
    none

/-- Zero without places. -/
def zero : Decimal :=
  ⟨false, 0, 0, by decide, by decide⟩

instance : Inhabited Decimal := ⟨zero⟩

/-- The whole number `± n`, if it fits. -/
def ofWhole? (negative : Bool) (n : Nat) : Option Decimal :=
  ofParts? negative n 0

/-- The number is greater than zero. -/
def isPositive (d : Decimal) : Bool :=
  !d.negative && d.mantissa != 0

end Decimal

end QuoteFeed
