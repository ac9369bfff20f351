/-!
# Lengths of hypotenuses

`hypotenuse x y` is the square root of `x * x + y * y` without overflow or
underflow on the way. The rounded root is corrected once by its own error,
which is computed from the legs; very great and very small legs are scaled
first, and a leg that is too short beside the other is only added.
-/

namespace StreamCatalog.Hypotenuse

/-- The scale that brings very small legs near one, `2 ^ 600`. -/
def scale : Float := Float.scaleB 1.0 600

/-- Legs above it are scaled down, `2 ^ 511`. -/
def greatest : Float := Float.scaleB 1.0 511

/-- Legs below it are scaled up, `2 ^ (-459)`. -/
def least : Float := Float.scaleB 1.0 (-459)

/-- A leg within this part of the other one does not change its length beyond rounding,
`2 ^ (-54)`. -/
def negligible : Float := Float.scaleB 1.0 (-54)

/-- The square root of the sum of squares, less its error. The difference `h * h - (x * x + y * y)`
is taken through the distance of `h` from the leg that is nearer to it, so that it loses no
digits. -/
def corrected (long short : Float) : Float :=
  let h := (long * long + short * short).sqrt
  let error :=
    if h ≤ 2.0 * short then
      let d := h - short
      long * (2.0 * d - long) + (d - 2.0 * (long - short)) * d
    else
      let d := h - long
      2.0 * d * (long - 2.0 * short) + ((4.0 * d - short) * short + d * d)
  h - error / (2.0 * h)

/-- The hypotenuse over finite legs that are not negative, the longer one first. -/
def ofLegs (long short : Float) : Float :=
  if greatest < long then
    if short ≤ long * negligible then long + short
    else corrected (long / scale) (short / scale) * scale
  else if short < least then
    if short / negligible ≤ long then long + short
    else corrected (long * scale) (short * scale) / scale
  else if short ≤ long * negligible then long + short
  else corrected long short

end StreamCatalog.Hypotenuse

namespace StreamCatalog

/-- The length of the hypotenuse over two legs. It is infinite when a leg is, even beside one
that is not a number. -/
def hypotenuse (x y : Float) : Float :=
  if x.isInf || y.isInf then 1.0 / 0.0
  else if x.isNaN || y.isNaN then x + y
  else if x.abs < y.abs then Hypotenuse.ofLegs y.abs x.abs
  else Hypotenuse.ofLegs x.abs y.abs

end StreamCatalog
