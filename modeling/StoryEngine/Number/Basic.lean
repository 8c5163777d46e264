/-!
# Numbers

Game numbers are binary64 floats. Core supplies their arithmetic and their comparisons; this
module adds dropping the fraction, the two remainders, the larger and the smaller of two
numbers, and conversions to and from machine integers. Each is computed exactly on the decoded
value `± m · 2 ^ e`, so it has a definition that proofs can open.

Specification: `SPEC_FULL.md` §4.1 (numeric operators and builtin functions).
-/

namespace StoryEngine.Number

open Float.Model (UnpackedFloat Format)

/-- The number that a decoded value stands for. -/
private def ofUnpacked (x : UnpackedFloat) : Float :=
  .ofModel (.pack x)

/-- The result of an operation that has no value. -/
def nan : Float :=
  ofUnpacked .notANumber

/-- The number without its fraction, toward zero; a fraction alone leaves a zero of its sign. -/
def truncate (x : Float) : Float :=
  match x.toModel.unpack with
  | .finite sign m e _ =>
      if 0 ≤ e then x else ofUnpacked (.round Format.binary64 sign (m >>> (-e).toNat) 0)
  | _ => x

/-- What is left of `x` after taking away `y` a whole number of times, rounding the quotient
toward zero: exact, and of the sign of `x`. -/
def remainder (x y : Float) : Float :=
  match x.toModel.unpack, y.toModel.unpack with
  | .finite sign m e _, .finite _ n f _ =>
      let unit := min e f
      let rest := (m <<< (e - unit).toNat) % (n <<< (f - unit).toNat)
      ofUnpacked (.round Format.binary64 sign rest unit)
  | .finite .., .infinity _ => x
  | .zero _, .finite .. => x
  | .zero _, .infinity _ => x
  | _, _ => nan

/-- The remainder moved once by `y` when its sign is not that of `y`; the move rounds like any
addition. -/
def modulo (x y : Float) : Float :=
  let rest := remainder x y
  if rest != 0 && (rest < 0) != (y < 0) then rest + y else rest

/-- The larger of two numbers; one that is no number gives way to the other. -/
def larger (x y : Float) : Float :=
  if x.isNaN || x < y then y else x

/-- The smaller of two numbers; one that is no number gives way to the other. -/
def smaller (x y : Float) : Float :=
  if x.isNaN || y < x then y else x

/-- The number moved up to `low` and then down to `high`. -/
def clamp (low high x : Float) : Float :=
  smaller (larger x low) high

/-- The whole part as a 64-bit integer; what does not fit goes to the nearer end of the range,
and what is no number to zero. -/
def toInt64 (x : Float) : Int64 :=
  x.toModel.toInt64

/-- The whole part as a 32-bit integer; what does not fit goes to the nearer end of the range,
and what is no number to zero. -/
def toInt32 (x : Float) : Int32 :=
  x.toModel.toInt32

/-- The number nearest to an integer. -/
def ofInt64 (n : Int64) : Float :=
  Float.ofInt n.toInt

end StoryEngine.Number
