import JudgeSelf.ToMathlib.Except
import Mathlib.Algebra.Group.Int.Defs
import Mathlib.Data.Int.Notation
import Mathlib.Data.Nat.Notation

/-! # Selections with equations between columns and parameters

Parameters are texts. A query is analysed before they are read: a parameter has the type that it is cast
to, or else the type of the column it is compared with, and there is no equality between the types here.
Then a text that has not the form of its type is an error. A row with a null in a column that is compared
is not selected.
-/

namespace Sql

inductive ColumnType
  | integer
  | uuid
  | text
deriving DecidableEq, Repr

inductive Value
  | integer (n : ℤ)
  /-- The 32 digits. -/
  | uuid (digits : List Char)
  | text (s : String)
deriving DecidableEq, Repr

inductive Error
  /-- `operator does not exist`. -/
  | undefinedFunction (left right : ColumnType)
  | invalidTextRepresentation (type : ColumnType) (text : String)
  | uniqueViolation
  | foreignKeyViolation
deriving DecidableEq, Repr

def isHexDigit (c : Char) : Bool := c.isDigit ∨ ('a' ≤ c.toLower ∧ c.toLower ≤ 'f')

/-- The digits of the remaining bytes and the text behind them; a hyphen may follow every second byte. -/
def readBytes : ℕ → List Char → Option (List Char × List Char)
  | 0, text => some ([], text)
  | bytes + 1, high :: low :: rest =>
    if isHexDigit high ∧ isHexDigit low then
      let rest := if bytes % 2 = 0 ∧ bytes ≠ 0 then (if rest.head? = some '-' then rest.tail else rest) else rest
      (readBytes bytes rest).map fun (digits, rest) => (high.toLower :: low.toLower :: digits, rest)
    else none
  | _, _ => none

/-- A UUID, perhaps in braces. -/
def readUuid (s : String) : Option (List Char) :=
  match s.toList with
  | '\x7b' :: text =>
    match readBytes 16 text with
    | some (digits, ['\x7d']) => some digits
    | _ => none
  | text =>
    match readBytes 16 text with
    | some (digits, []) => some digits
    | _ => none

def isSpace (c : Char) : Bool := c ∈ [' ', '\t', '\n', '\x0b', '\x0c', '\r']

/-- The value of a hexadecimal digit. -/
def digitValue (c : Char) : ℕ := if c.isDigit then c.toNat - 48 else c.toLower.toNat - 87

/-- The digits behind those of `n`; an underscore may stand in front of each. -/
def readDigits (base : ℕ) : ℕ → List Char → Option ℕ
  | n, [] => some n
  | n, '_' :: c :: rest =>
    if isHexDigit c ∧ digitValue c < base then readDigits base (base * n + digitValue c) rest else none
  | n, c :: rest =>
    if isHexDigit c ∧ digitValue c < base then readDigits base (base * n + digitValue c) rest else none

/-- Decimal digits, or others behind `0x`, `0o` or `0b`. -/
def readNatural : List Char → Option ℕ
  | [] => none
  | '_' :: _ => none
  | ['0', c] => if c.toLower ∈ ['x', 'o', 'b'] then none else readDigits 10 0 [c]
  | '0' :: c :: rest =>
    match c.toLower with
    | 'x' => readDigits 16 0 rest
    | 'o' => readDigits 8 0 rest
    | 'b' => readDigits 2 0 rest
    | _ => readDigits 10 0 (c :: rest)
  | text => readDigits 10 0 text

/-- A number with an optional sign, of 32 bits. -/
def readInteger (s : String) : Option ℤ :=
  let text := ((s.toList.dropWhile isSpace).reverse.dropWhile isSpace).reverse
  let sign : ℤ := if text.head? = some '-' then -1 else 1
  let digits := if text.head? = some '-' ∨ text.head? = some '+' then text.tail else text
  match readNatural digits with
  | some value =>
    let n : ℤ := sign * value
    if -2 ^ 31 ≤ n ∧ n < 2 ^ 31 then some n else none
  | none => none

def ColumnType.read : ColumnType → String → Option Value
  | .integer, s => (readInteger s).map .integer
  | .uuid, s => (readUuid s).map .uuid
  | .text, s => some (.text s)

example : readUuid "1" = none ∧ (readUuid "a0eebc99-9c0b-4ef8-bb6d-6bb9bd380a11").isSome ∧
    readInteger " -42" = some (-42) ∧ readInteger "1_000" = some 1000 ∧ readInteger "0x1F" = some 31 := by
  decide +kernel

/-- The columns that conditions compare, for rows of type `ρ`. -/
structure Table (κ ρ : Type) where
  typeOf : κ → ColumnType
  value : ρ → κ → Option Value

/-- `column = $n`, perhaps with a cast. -/
structure Condition (κ : Type) where
  column : κ
  cast : Option ColumnType
  parameter : String

variable {κ ρ : Type}

def Condition.parameterType (table : Table κ ρ) (condition : Condition κ) : ColumnType :=
  condition.cast.getD (table.typeOf condition.column)

def Condition.analyse (table : Table κ ρ) (condition : Condition κ) : Except Error Unit :=
  if table.typeOf condition.column = condition.parameterType table then pure ()
  else throw (.undefinedFunction (table.typeOf condition.column) (condition.parameterType table))

def Condition.read (table : Table κ ρ) (condition : Condition κ) : Except Error (κ × Value) :=
  match (condition.parameterType table).read condition.parameter with
  | some value => pure (condition.column, value)
  | none => throw (.invalidTextRepresentation (condition.parameterType table) condition.parameter)

/-- The rows that satisfy all conditions. -/
def select (table : Table κ ρ) (conditions : List (Condition κ)) (rows : List ρ) : Except Error (List ρ) := do
  conditions.forM (Condition.analyse table)
  let values ← conditions.mapM (Condition.read table)
  pure (rows.filter fun row => values.all fun (column, value) => table.value row column = some value)

/-- A comparison of different types is refused whatever the parameters and the rows are. -/
theorem select_ne_ok {table : Table κ ρ} {conditions : List (Condition κ)} {condition : Condition κ}
    (member : condition ∈ conditions) (mismatch : table.typeOf condition.column ≠ condition.parameterType table)
    (rows selected : List ρ) : select table conditions rows ≠ .ok selected := by
  intro ran
  obtain ⟨⟨⟩, analysed, _⟩ := Except.bind_eq_ok_iff.mp ran
  have passed := Except.forM_eq_ok analysed condition member
  rw [Condition.analyse, if_neg mismatch] at passed
  exact absurd passed Except.throw_ne_ok

end Sql
