/-!
# Shortest decimals

The decimal with the fewest digits among those that round to a given binary number, and its
positional text. The reals that round to `m · 2 ^ q` form an interval around it; the coarsest
grid of powers of ten that meets the interval gives the fewest digits, and the point of that
grid nearest to the number gives the digits themselves.

Specification: `SPEC_FULL.md` §4.1 (functions that take names); it leaves open what text a number
given as a name has.
-/

namespace StoryEngine.Number

/-- The decimal `coefficient · 10 ^ exponent`. -/
structure Decimal where
  coefficient : Nat
  exponent : Int
deriving DecidableEq, Repr

namespace Decimal

/-- The decimal equal to `m · 2 ^ q`. -/
def exact (m : Nat) (q : Int) : Decimal :=
  if 0 ≤ q then ⟨m * Nat.pow 2 q.toNat, 0⟩ else ⟨m * Nat.pow 5 (-q).toNat, q⟩

/-- The smallest mantissa of full width. Half the gap below it is a quarter of a unit, unless
its exponent is already the least. -/
def widened (m : Nat) (q : Int) : Bool :=
  m == Nat.pow 2 52 && q != -1074

/-- The multiple of `10 ^ k` that rounds to `m · 2 ^ q` and lies nearest to it, the upper one
of two at the same distance. All quantities are counted in a common unit, of which a quarter
of `2 ^ q` holds `quarter` and `10 ^ k` holds `step`. -/
def onGrid? (m : Nat) (q k : Int) : Option Decimal :=
  let quarter := Nat.pow 2 (q - 2).toNat * Nat.pow 10 (-k).toNat
  let step := Nat.pow 2 (2 - q).toNat * Nat.pow 10 k.toNat
  let value := 4 * m * quarter
  let low := (4 * m - if widened m q then 1 else 2) * quarter
  let high := (4 * m + 2) * quarter
  let rounds (x : Nat) : Bool := if m % 2 == 0 then low ≤ x && x ≤ high else low < x && x < high
  let below := value / step
  let above := below + 1
  match rounds (below * step), rounds (above * step) with
  | true, true => some ⟨if value - below * step < above * step - value then below else above, k⟩
  | true, false => some ⟨below, k⟩
  | false, true => some ⟨above, k⟩
  | false, false => none

/-- Tries the grids of `10 ^ k` and finer ones in turn. -/
def search (m : Nat) (q k : Int) : Nat → Decimal
  | 0 => exact m q
  | tries + 1 => (onGrid? m q k).getD (search m q (k - 1) tries)

/-- The shortest decimal that rounds to `m · 2 ^ q`. The first grid tried is coarser than the
number; the last one holds the number itself. -/
def shortest (m : Nat) (q : Int) : Decimal :=
  let whole := m * Nat.pow 2 q.toNat / Nat.pow 2 (-q).toNat
  let top : Nat := (Nat.toDigits 10 whole).length
  search m q top (top + (-q).toNat)

/-- The digits with the point at its place, never a power of ten. -/
def text (d : Decimal) : List Char :=
  if 0 ≤ d.exponent then Nat.toDigits 10 (d.coefficient * Nat.pow 10 d.exponent.toNat)
  else
    let places := (-d.exponent).toNat
    let unit := Nat.pow 10 places
    Nat.toDigits 10 (d.coefficient / unit) ++
      '.' :: (Nat.toDigits 10 (d.coefficient % unit)).leftpad places '0'

end Decimal

/-- The text of a number: the shortest decimal that reads back, `inf` or `NaN`. -/
def text (x : Float) : String :=
  match x.toModel.unpack with
  | .notANumber => "NaN"
  | .infinity .positive => "inf"
  | .infinity .negative => "-inf"
  | .zero .positive => "0"
  | .zero .negative => "-0"
  | .finite .positive m q _ => String.ofList (Decimal.shortest m q).text
  | .finite .negative m q _ => String.ofList ('-' :: (Decimal.shortest m q).text)

end StoryEngine.Number
