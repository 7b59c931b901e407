/-!
# The sine of a number of 32 bits

The argument is brought next to zero by taking off quarter turns, in 64 bits: with one product for
arguments of common size, and with the leading bits of two over pi for large ones. Next to zero the
sine is a polynomial of the remaining angle, or the cosine one, depending on the quarter. The
result is rounded to 32 bits once, at the end.
-/

namespace SpeechService.Sine

/-! ### Polynomials -/

/-- The sine of a small angle; `square` is its square. -/
def ofSmall (x square : Float) : Float :=
  let cube := x * square
  let high := Float.ofBits 0x3F81107605230BC4 + square * Float.ofBits 0xBF2994EB3774CF24
  let seventh := cube * square
  let low := x + cube * Float.ofBits 0xBFC555545995A603
  low + seventh * high

/-- The cosine of a small angle, from the square of the angle; `sign` is one or minus one. -/
def cosine (sign square : Float) : Float :=
  let fourth := square * square
  let high := sign * Float.ofBits 0xBF56C087E89A359D
    + square * (sign * Float.ofBits 0x3EF99343027BF8C3)
  let low := sign * Float.ofBits 0x3FF0000000000000
    + square * (sign * Float.ofBits 0xBFDFFFFFFD0C621C)
  let sixth := fourth * square
  let sum := low + fourth * (sign * Float.ofBits 0x3FA55553E1068F19)
  sum + sixth * high

/-- The sine of an angle and a number of quarter turns. -/
def ofQuarters (quarters : Int) (x : Float) : Float :=
  let back := quarters % 4 = 2 ∨ quarters % 4 = 3
  if quarters % 2 = 0 then
    ofSmall (if quarters % 4 = 0 then x else -x) (x * x)
  else cosine (if back then -1 else 1) (x * x)

/-! ### Quarter turns -/

/-- The number of quarter turns next to an argument of common size, and the remaining angle. -/
def reduce (x : Float) : Int × Float :=
  let scaled := (x * Float.ofBits 0x41645F306DC9C883).toInt32.toInt
  let quarters := (scaled + 0x800000) / 0x1000000
  (quarters, x - Float.ofInt quarters * Float.ofBits 0x3FF921FB54442D18)

/-- The bits of two over pi, in words of 32 bits that start every eight bits. -/
def twoOverPi : Array UInt32 :=
  #[0xA2, 0xA2F9, 0xA2F983, 0xA2F9836E, 0xF9836E4E, 0x836E4E44, 0x6E4E4415, 0x4E441529,
    0x441529FC, 0x1529FC27, 0x29FC2757, 0xFC2757D1, 0x2757D1F5, 0x57D1F534, 0xD1F534DD,
    0xF534DDC0, 0x34DDC0DB, 0xDDC0DB62, 0xC0DB6295, 0xDB629599, 0x6295993C, 0x95993C43,
    0x993C4390, 0x3C439041]

/-- A word of two over pi. -/
def word (i : Nat) : UInt64 := (twoOverPi[i]?.getD 0).toUInt64

/-- The number of quarter turns next to a large magnitude, given by its bits, and the remaining
angle. Only the bits of the product that are below a full turn count. -/
def reduceLarge (bits : UInt32) : Int × Float :=
  let start := ((bits >>> 26) &&& 15).toNat
  let shift := (bits >>> 23) &&& 7
  let significand := ((bits &&& 0xFFFFFF) ||| 0x800000) <<< shift
  let x := significand.toUInt64
  let top := (significand * (word start).toUInt32).toUInt64
  let product : UInt64 := ((x * word (start + 8)) >>> 32 ||| top <<< 32) + x * word (start + 4)
  let quarters : UInt64 := (product + 0x2000000000000000) >>> 62
  let rest : UInt64 := product - quarters <<< 62
  (quarters.toNat, Float.ofInt rest.toInt64.toInt * Float.ofBits 0x3C1921FB54442D18)

/-! ### The sine -/

/-- The sign bit, and the exponent with the three leading bits of the fraction: magnitudes are
told apart by these. -/
def magnitudeClass (bits : UInt32) : UInt32 := (bits >>> 20) &&& 0x7FF

/-- The sine of a number; that of an infinity is not a number. -/
def sin (x : Float32) : Float32 :=
  let bits := x.toBits
  let magnitude := magnitudeClass bits
  let wide := x.toFloat
  if magnitude < 0x398 then x
  else if magnitude < 0x3F4 then (ofSmall wide (wide * wide)).toFloat32
  else if magnitude < 0x42F then
    let (quarters, angle) := reduce wide
    (ofQuarters quarters angle).toFloat32
  else if magnitude < 0x7F8 then
    let (quarters, angle) := reduceLarge bits
    let turned := if bits >>> 31 = 1 then quarters + 2 else quarters
    (ofQuarters turned angle).toFloat32
  else x - x

end SpeechService.Sine
