import CommandTemplates.Decimal.Binary64
import CommandTemplates.Yaml.Glyph

/-!
# What a plain scalar means

Without quotes a text may mean something else than itself: nothing, a truth value or a
number.

## Main Definitions

* `Meaning` — what a plain scalar means
* `integer?`, `float?` — the numbers
* `meaningOf` — the meaning of a plain scalar

## Design Notes

Integers have a sign, a base (`0x`, `0o`, `0b` or none) and at most 128 bits. Digits after
a leading zero are a text. A float is a decimal number that is not too large for double
precision, or one of the words for infinity and for no number.
-/

namespace CommandTemplates.Yaml

/-- How many bits an integer needs. -/
inductive IntegerWidth
  | word
  | wideUnsigned
  | wideSigned
  deriving DecidableEq, Repr

/-- A floating point number. -/
inductive FloatValue
  | notANumber
  | infinite (negative : Bool)
  | finite (negative : Bool) (magnitude : Decimal.Binary64)
  deriving DecidableEq, Repr

/-- What a plain scalar means. -/
inductive Meaning
  | null
  | bool (b : Bool)
  | integer (n : Int) (width : IntegerWidth)
  | float (f : FloatValue)
  | text
  deriving DecidableEq, Repr

/-- Whether a text is one of the words for nothing. -/
def isNullWord (text : Text) : Bool :=
  ["null", "Null", "NULL", "~"].any fun word => text == word.toList

/-- The truth value that a text names. -/
def bool? (text : Text) : Option Bool :=
  if ["true", "True", "TRUE"].any fun word => text == word.toList then some true
  else if ["false", "False", "FALSE"].any fun word => text == word.toList then some false
  else none

/-! ### Integers -/

/-- The number that digits of a base stand for; there is at least one. -/
def natOfDigits? (base : Nat) (digits : Text) : Option Nat :=
  if digits.isEmpty then none
  else
    digits.foldlM (fun n c => do
      let value ← hexValue? c
      if value < base then some (base * n + value) else none) 0

/-- The text without one of the given signs in front. -/
def dropSign (signs : Text) : Text → Text
  | [] => []
  | c :: text => if signs.contains c then text else c :: text

/-- Whether a text is a leading zero with more digits after it. -/
def isZeroPadded (text : Text) : Bool :=
  match dropSign ['-', '+'] text with
  | '0' :: digits => !digits.isEmpty && digits.all Char.isDigit
  | _ => false

/-- The prefixes of bases other than ten. -/
def basePrefixes : List (Text × Nat) :=
  [(['0', 'x'], 16), (['0', 'o'], 8), (['0', 'b'], 2)]

/-- The number that a text with a base prefix stands for. -/
def based? (text : Text) : Option Nat :=
  basePrefixes.findSome? fun entry =>
    (Text.after? entry.1 text).bind (natOfDigits? entry.2)

/-- The number that a text without a sign stands for, unless it is padded with zeros. -/
def magnitude? (text : Text) : Option Nat :=
  match based? text with
  | some n => some n
  | none => if isZeroPadded text then none else natOfDigits? 10 text

/-- An integer of up to 128 bits, with or without a sign. -/
def integer? (text : Text) : Option (Int × IntegerWidth) :=
  match text with
  | '-' :: rest => do
    let n ← magnitude? rest
    if n ≤ 1 <<< 63 then some (-(n : Int), .word)
    else if n ≤ 1 <<< 127 then some (-(n : Int), .wideSigned)
    else none
  | _ => do
    let n ← magnitude? (dropSign ['+'] text)
    if n < 1 <<< 64 then some (n, .word)
    else if n < 1 <<< 128 then some (n, .wideUnsigned)
    else none

/-! ### Floating point numbers -/

/-- The digits and the exponent of a decimal number without a sign. -/
def decimal? (text : Text) : Option (Nat × Int) := do
  let (whole, rest) := text.span Char.isDigit
  let (fraction, rest) :=
    match rest with
    | '.' :: rest => rest.span Char.isDigit
    | _ => ([], rest)
  let digits ← natOfDigits? 10 (whole ++ fraction)
  let shift : Int := fraction.length
  match rest with
  | [] => some (digits, -shift)
  | e :: rest =>
    if e = 'e' ∨ e = 'E' then
      match rest with
      | '-' :: rest => (natOfDigits? 10 rest).map fun n => (digits, -(n : Int) - shift)
      | _ => (natOfDigits? 10 (dropSign ['+'] rest)).map fun n => (digits, (n : Int) - shift)
    else none

/-- The words for infinity. -/
def infinityWords : List String := [".inf", ".Inf", ".INF"]

/-- The words for no number. -/
def notANumberWords : List String := [".nan", ".NaN", ".NAN"]

/-- A floating point number. -/
def float? (text : Text) : Option FloatValue :=
  if notANumberWords.any fun word => text == word.toList then some .notANumber
  else
    let (negative, magnitude) : Bool × Text :=
      match text with
      | '-' :: rest => (true, rest)
      | _ => (false, dropSign ['+'] text)
    if infinityWords.any fun word => magnitude == word.toList then some (.infinite negative)
    else do
      let (digits, exponent) ← decimal? magnitude
      let b ← Decimal.Binary64.ofDecimal digits exponent
      some (.finite negative b)

/-! ### Meaning -/

/-- The meaning of a plain scalar. -/
def meaningOf (text : Text) : Meaning :=
  if text.isEmpty || isNullWord text then .null
  else
    match bool? text with
    | some b => .bool b
    | none =>
      match integer? text with
      | some (n, width) => .integer n width
      | none =>
        if isZeroPadded text then .text
        else
          match float? text with
          | some f => .float f
          | none => .text

/-- The text shown for a floating point number. -/
def FloatValue.shown : FloatValue → Text
  | .notANumber => "NaN".toList
  | .infinite negative => (if negative then ['-'] else []) ++ "inf".toList
  | .finite negative b => (if negative then ['-'] else []) ++ b.text

end CommandTemplates.Yaml
