import JudgeSelf.Model.Engine.Text
import JudgeSelf.ToMathlib.Binary64

/-! # Floats of the Go standard library

`strconv.ParseFloat` and `strconv.FormatFloat` on byte strings, and the conversion of a float to an `int64`. Go
leaves a conversion open whose value does not fit; here it is that of amd64.
-/

namespace JudgeSelf.Go

/-- Digits, and in a hexadecimal number the letters. -/
def isNumeral (hex : Bool) (c : Char) : Bool :=
  c.isDigit || hex && decide ('a' ≤ c.toLower) && decide (c.toLower ≤ 'f')

def numeralValue (c : Char) : ℕ := if c.isDigit then c.toNat - 48 else c.toLower.toNat - 87

/-- The loop of `underscoreOK`; `last` is the class of the character before: a digit, an underscore or another. -/
def underscoresFrom (hex : Bool) : Char → List Char → Bool
  | last, [] => last ≠ '_'
  | last, c :: rest =>
    if isNumeral hex c then underscoresFrom hex '0' rest
    else if c = '_' then decide (last = '0') && underscoresFrom hex '_' rest
    else decide (last ≠ '_') && underscoresFrom hex '!' rest

/-- `underscoreOK` of a number without its sign: underscores separate digits, or follow the prefix of the base. -/
def underscoreOK : List Char → Bool
  | '0' :: base :: rest =>
    if base.toLower ∈ ['b', 'o', 'x'] then underscoresFrom (base.toLower = 'x') '0' rest
    else underscoresFrom false '^' ('0' :: base :: rest)
  | text => underscoresFrom false '^' text

/-- The digits of an exponent; large ones are cut off. -/
def exponentDigits? : List Char → Option ℤ
  | [] => none
  | first :: rest =>
    if first.isDigit ∧ rest.all (fun c => c.isDigit ∨ c = '_') then
      some (((first :: rest).filter Char.isDigit).foldl (fun e c => if e < 10000 then e * 10 + numeralValue c else e) 0)
    else none

/-- The exponent behind the digits, which a hexadecimal number must have. -/
def exponent? (hex : Bool) : List Char → Option ℤ
  | [] => if hex then none else some 0
  | letter :: rest =>
    if letter.toLower ≠ (if hex then 'p' else 'e') then none
    else
      match rest with
      | '-' :: digits => Neg.neg <$> exponentDigits? digits
      | '+' :: digits => exponentDigits? digits
      | digits => exponentDigits? digits

/-- The rational `m * b ^ e`. -/
def scaleBy (b m : ℕ) (e : ℤ) : ℚ := ((m * b ^ e.toNat : ℕ) : ℚ) / ((b ^ (-e).toNat : ℕ) : ℚ)

/-- `readFloat` of a number without its sign. -/
def readUnsignedFloat? (text : List Char) : Option ℚ :=
  let (hex, number) := match text with
    | '0' :: x :: first :: rest => if x.toLower = 'x' then (true, first :: rest) else (false, text)
    | _ => (false, text)
  let inMantissa (c : Char) : Bool := isNumeral hex c || decide (c = '_') || decide (c = '.')
  let mantissa := (number.takeWhile inMantissa).filter (· ≠ '_')
  let fraction := (mantissa.dropWhile (· ≠ '.')).drop 1
  let digits := mantissa.takeWhile (· ≠ '.') ++ fraction
  let base := if hex then 16 else 10
  let value := digits.foldl (fun n c => base * n + numeralValue c) 0
  match exponent? hex (number.dropWhile inMantissa) with
  | none => none
  | some e =>
    if digits = [] ∨ '.' ∈ fraction ∨ '_' ∈ text ∧ !underscoreOK text then none
    else if hex then some (scaleBy 2 value (e - 4 * fraction.length))
    else some (scaleBy 10 value (e - fraction.length))

/-- The first result of `strconv.ParseFloat`: zero on a syntax error, an infinity out of range. -/
def parseFloat (s : String) : Binary64 :=
  let (sign, unsigned) : Option Bool × List Char := match s.toList with
    | '-' :: rest => (some true, rest)
    | '+' :: rest => (some false, rest)
    | rest => (none, rest)
  let negative := sign.getD false
  let letters := String.ofList (unsigned.map Char.toLower)
  if letters = "inf" ∨ letters = "infinity" then .infinite negative
  else if letters = "nan" ∧ sign = none then .nan
  else
    match readUnsignedFloat? unsigned with
    | some q => .ofRat negative q
    | none => 0

example : [parseFloat "1.1", parseFloat "0x1p-2", parseFloat "1_000.5e1", parseFloat "-Inf", parseFloat "1e400",
    parseFloat "1__0", parseFloat "+nan"] =
    [.ofRat false (11 / 10), .ofRat false (1 / 4), .ofRat false 10005, .infinite true, .infinite false, 0, 0] := by
  decide +kernel

/-- `strconv.FormatFloat` with a fixed number of decimals. -/
def formatFloat (decimals : ℕ) : Binary64 → String
  | .finite negative magnitude => (if negative then "-" else "") ++ formatFixed decimals magnitude.value
  | .infinite negative => if negative then "-Inf" else "+Inf"
  | .nan => "NaN"

/-- `int64` of a float, towards zero. -/
def toInt64 (x : Binary64) : ℤ :=
  match x.value? with
  | some q =>
    let whole := if 0 ≤ q then ⌊q⌋ else -⌊-q⌋
    if -2 ^ 63 ≤ whole ∧ whole < 2 ^ 63 then whole else -2 ^ 63
  | none => -2 ^ 63

example : toInt64 (parseFloat "1.001" * .ofRat false 1000) = 1000 ∧
    toInt64 (parseFloat "0.29" * .ofRat false 1000) = 290 ∧
    toInt64 (parseFloat "-1.5") = -1 := by
  decide +kernel

/-- A float that fits is rounded down if it is not negative. -/
theorem toInt64_of_nonneg {x : Binary64} {q : ℚ} (value : x.value? = some q) (nonneg : 0 ≤ q) (fits : q < 2 ^ 63) :
    toInt64 x = ⌊q⌋ := by
  have least : 0 ≤ ⌊q⌋ := Int.floor_nonneg.mpr nonneg
  have most : ⌊q⌋ < 2 ^ 63 := Int.floor_lt.mpr (by exact_mod_cast fits)
  rw [toInt64, value]
  dsimp only
  rw [if_pos nonneg, if_pos ⟨by omega, most⟩]

end JudgeSelf.Go
