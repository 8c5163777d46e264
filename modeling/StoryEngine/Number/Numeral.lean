/-!
# Numerals

Reading numbers: runs of decimal digits, and the general numeral, which may carry a sign, a
fraction and a power of ten, or name an infinity or no number. A numeral denotes the number
nearest to its exact value.

Specification: `SPEC_FULL.md` §4.1 (number tokens, numeric coercion of texts).
-/

namespace StoryEngine.Number

/-- The natural number with the given decimal digits. -/
def natOfDigits (digits : List Char) : Nat :=
  digits.foldl (fun n c ↦ 10 * n + (c.toNat - '0'.toNat)) 0

/-- The number nearest to the decimal with the given digits before and after its point, times
ten to the `exponent`. -/
def ofDecimal (whole fraction : List Char) (exponent : Int) : Float :=
  let places : Int := exponent - fraction.length
  Float.ofScientific (natOfDigits (whole ++ fraction)) (places < 0) places.natAbs

/-- The power of ten at the end of a numeral: absent, or `e` with an optional sign and digits. -/
def exponent? : List Char → Option Int
  | [] => some 0
  | mark :: rest =>
      if mark != 'e' && mark != 'E' then none
      else
        match rest with
        | '-' :: digits => (magnitude? digits).map fun n ↦ -n
        | '+' :: digits => magnitude? digits
        | digits => magnitude? digits
where
  /-- The value of a run of digits that is not empty and fills the text. -/
  magnitude? (digits : List Char) : Option Int :=
    if digits.isEmpty || !digits.all Char.isDigit then none else some (natOfDigits digits)

/-- The digits of a fraction and what follows them, when the text starts with a point. -/
def fraction : List Char → List Char × List Char
  | '.' :: rest => (rest.takeWhile Char.isDigit, rest.dropWhile Char.isDigit)
  | rest => ([], rest)

/-- A numeral without a sign: `inf`, `infinity` or `nan` in any mix of cases, or digits with an
optional point before, among or after them and an optional power of ten. -/
def unsigned? (text : List Char) : Option Float :=
  match String.ofList (text.map Char.toLower) with
  | "inf" => some (1 / 0)
  | "infinity" => some (1 / 0)
  | "nan" => some (0 / 0)
  | _ =>
      let whole := text.takeWhile Char.isDigit
      let (fraction, rest) := fraction (text.dropWhile Char.isDigit)
      if whole.isEmpty && fraction.isEmpty then none
      else (exponent? rest).map (ofDecimal whole fraction)

/-- A numeral: an optional sign before one without a sign. -/
def ofNumeral? : List Char → Option Float
  | '-' :: rest => (unsigned? rest).map fun x ↦ -x
  | '+' :: rest => unsigned? rest
  | text => unsigned? text

end StoryEngine.Number
