import JudgeSelf.ToMathlib.Binary64
import JudgeSelf.ToMathlib.Decimal
import Mathlib.Data.List.TakeWhile
import Mathlib.Data.Rat.Floor
import Mathlib.Tactic.FieldSimp
import Mathlib.Tactic.Linarith
import Mathlib.Tactic.Positivity

/-! # Text functions of the Go standard library

Byte strings are strings with one character for each byte. The functions follow `strings`, `strconv`, `bufio`
and `path/filepath` on the texts that the engine handles: paths have no dot segments and no doubled separators.
Decimal texts are read as exact rationals here.
-/

namespace JudgeSelf.Go

/-- `strings.TrimSpace`, on ASCII white space. -/
def trimSpace (s : String) : String :=
  let space (c : Char) : Bool := c ∈ [' ', '\t', '\n', '\x0b', '\x0c', '\r']
  String.ofList ((s.toList.dropWhile space).reverse.dropWhile space).reverse

/-- `filepath.Join` of a directory and a name. -/
def join (dir name : String) : String := if dir = "" then name else dir ++ "/" ++ name

/-- `filepath.Dir` of a path below a directory. -/
def dir (path : String) : String :=
  String.ofList ((path.toList.reverse.dropWhile (· ≠ '/')).drop 1).reverse

/-- `filepath.Base` of a path below a directory. -/
def base (path : String) : String := String.ofList (path.toList.reverse.takeWhile (· ≠ '/')).reverse

def digitsValue (digits : List Char) : ℕ := digits.foldl (fun n c => 10 * n + (c.toNat - 48)) 0

/-- Digits with an optional sign. -/
def signedDigits : List Char → Option ℤ
  | '-' :: digits => if digits ≠ [] ∧ digits.all Char.isDigit then some (-digitsValue digits) else none
  | '+' :: digits => if digits ≠ [] ∧ digits.all Char.isDigit then some (digitsValue digits) else none
  | digits => if digits ≠ [] ∧ digits.all Char.isDigit then some (digitsValue digits) else none

/-- The first result of `strconv.Atoi`: zero on a syntax error, the nearest `int` out of range. -/
def atoi (s : String) : ℤ := max (-2 ^ 63) (min (2 ^ 63 - 1) ((signedDigits s.toList).getD 0))

theorem digitsValue_toString (n : ℕ) : digitsValue (toString n).toList = n := by
  rw [Nat.toList_toString]
  exact Nat.ofDigitChars_ten_toDigits

/-- A text of digits alone is read as their value. -/
theorem signedDigits_of_isDigit {digits : List Char} (some : digits ≠ []) (all : ∀ c ∈ digits, c.isDigit) :
    signedDigits digits = Option.some (digitsValue digits : ℤ) := by
  have plain : digits ≠ [] ∧ digits.all Char.isDigit := ⟨some, List.all_eq_true.mpr all⟩
  unfold signedDigits
  split
  · exact absurd (all '-' List.mem_cons_self) (by decide)
  · exact absurd (all '+' List.mem_cons_self) (by decide)
  · rw [if_pos plain]

private theorem signedDigits_toString (v : ℤ) : signedDigits (toString v).toList = some v := by
  have some (n : ℕ) : (toString n).toList ≠ [] := by
    rw [Nat.toList_toString]
    exact Nat.toDigits_ne_nil
  have digits (n : ℕ) : ∀ c ∈ (toString n).toList, c.isDigit := fun _ => Nat.isDigit_of_mem_toString
  rw [Int.toList_toString]
  split
  · next negative =>
    have plain : (toString v.natAbs).toList ≠ [] ∧ (toString v.natAbs).toList.all Char.isDigit :=
      ⟨some _, List.all_eq_true.mpr (digits _)⟩
    rw [signedDigits, if_pos plain, digitsValue_toString]
    congr 1
    omega
  · rw [signedDigits_of_isDigit (some _) (digits _), digitsValue_toString]
    congr 1
    omega

theorem toString_inj {v v' : ℤ} : toString v = toString v' ↔ v = v' := by
  constructor
  · intro same
    have read := signedDigits_toString v
    rw [same, signedDigits_toString] at read
    exact (Option.some.inj read).symm
  · rintro rfl
    rfl

/-- `strconv.Atoi` reads back the decimal text of an `int`. -/
theorem atoi_toString {v : ℤ} (inRange : -2 ^ 63 ≤ v ∧ v < 2 ^ 63) : atoi (toString v) = v := by
  rw [atoi, signedDigits_toString, Option.getD_some]
  omega

/-- The rational of a decimal text with an optional exponent, zero for any other text. -/
def readDecimal (s : String) : ℚ :=
  let (sign, unsigned) : ℚ × List Char := match s.toList with
    | '-' :: rest => (-1, rest)
    | '+' :: rest => (1, rest)
    | rest => (1, rest)
  let mantissa := unsigned.takeWhile fun c => c ≠ 'e' ∧ c ≠ 'E'
  let exponent : Option ℤ := match unsigned.dropWhile fun c => c ≠ 'e' ∧ c ≠ 'E' with
    | [] => some 0
    | _ :: digits => signedDigits digits
  let fraction := (mantissa.dropWhile (· ≠ '.')).drop 1
  let digits := mantissa.takeWhile (· ≠ '.') ++ fraction
  match exponent with
  | some e => if digits ≠ [] ∧ digits.all Char.isDigit then
      sign * digitsValue digits * (10 : ℚ) ^ (e - fraction.length) else 0
  | none => 0

/-- A number of at least `width` digits, padded with zeros. -/
def zeroPadded (width n : ℕ) : String :=
  let digits := toString n
  String.ofList (List.replicate (width - digits.length) '0') ++ digits

/-- A rational with a fixed number of decimals, ties to even. -/
def formatFixed (decimals : ℕ) (q : ℚ) : String :=
  let rounded := (|q| * 10 ^ decimals).roundEven.toNat
  (if q < 0 then "-" else "") ++ toString (rounded / 10 ^ decimals) ++ "." ++
    zeroPadded decimals (rounded % 10 ^ decimals)

private theorem digitsValue_append (a b : List Char) :
    digitsValue (a ++ b) = 10 ^ b.length * digitsValue a + digitsValue b := by
  change Nat.ofDigitChars 10 (a ++ b) 0 = _
  rw [Nat.ofDigitChars_append, Nat.ofDigitChars_eq_ofDigitChars_zero]
  rfl

theorem toList_zeroPadded (width n : ℕ) : (zeroPadded width n).toList =
    List.replicate (width - (toString n).length) '0' ++ (toString n).toList := by
  rw [zeroPadded, String.toList_append, String.toList_ofList]

/-- Leading zeros do not count. -/
theorem digitsValue_zeroPadded (width n : ℕ) : digitsValue (zeroPadded width n).toList = n := by
  rw [toList_zeroPadded, digitsValue_append, digitsValue_toString]
  change _ * Nat.ofDigitChars 10 (List.replicate _ '0') 0 + n = n
  rw [Nat.ofDigitChars_replicate_zero, Nat.mul_zero, Nat.mul_zero, Nat.zero_add]

theorem zeroPadded_inj {width n m : ℕ} : zeroPadded width n = zeroPadded width m ↔ n = m := by
  constructor
  · intro same
    rw [← digitsValue_zeroPadded width n, same, digitsValue_zeroPadded]
  · rintro rfl
    rfl

theorem isDigit_of_mem_zeroPadded {width n : ℕ} {c : Char} (member : c ∈ (zeroPadded width n).toList) : c.isDigit := by
  rw [toList_zeroPadded] at member
  rcases List.mem_append.mp member with zero | digit
  · rw [(List.mem_replicate.mp zero).2]
    decide
  · exact Nat.isDigit_of_mem_toString digit

private theorem length_zeroPadded {width n : ℕ} (fits : n < 10 ^ width) (positive : 0 < width) :
    (zeroPadded width n).toList.length = width := by
  have short : (toString n).length ≤ width := by
    rw [← String.length_toList, Nat.toList_toString]
    exact Nat.toDigits_length 10 n width positive fits
  rw [toList_zeroPadded, List.length_append, List.length_replicate, String.length_toList]
  omega

/-- Decimals are read back, whatever their number. -/
theorem readDecimal_decimals {whole fraction : List Char} (someWhole : whole ≠ []) (digits : ∀ c ∈ whole, c.isDigit)
    (decimals : ∀ c ∈ fraction, c.isDigit) : readDecimal (String.ofList (whole ++ '.' :: fraction)) =
      digitsValue (whole ++ fraction) / 10 ^ fraction.length := by
  have noExponent : ∀ c ∈ whole ++ '.' :: fraction, decide (c ≠ 'e' ∧ c ≠ 'E') = true := by
    intro c member
    rw [decide_eq_true_eq]
    have isDigit : c.isDigit ∨ c = '.' := by
      rcases List.mem_append.mp member with ofWhole | rest
      · exact .inl (digits c ofWhole)
      · rcases List.mem_cons.mp rest with dot | ofFraction
        · exact .inr dot
        · exact .inl (decimals c ofFraction)
    constructor <;> rintro rfl <;> exact absurd isDigit (by decide)
  have notDot : ∀ c ∈ whole, decide (c ≠ '.') = true := by
    intro c member
    rw [decide_eq_true_eq]
    rintro rfl
    exact absurd (digits '.' member) (by decide)
  have mantissa : (whole ++ '.' :: fraction).takeWhile (fun c => c ≠ 'e' ∧ c ≠ 'E') = whole ++ '.' :: fraction :=
    List.takeWhile_eq_self_iff.mpr noExponent
  have exponent : (whole ++ '.' :: fraction).dropWhile (fun c => c ≠ 'e' ∧ c ≠ 'E') = [] :=
    List.dropWhile_eq_nil_iff.mpr noExponent
  have before : (whole ++ '.' :: fraction).takeWhile (· ≠ '.') = whole := by
    rw [List.takeWhile_append_of_pos notDot]
    simp
  have after : ((whole ++ '.' :: fraction).dropWhile (· ≠ '.')).drop 1 = fraction := by
    rw [List.dropWhile_append_of_pos notDot]
    simp
  have valid : whole ++ fraction ≠ [] ∧ (whole ++ fraction).all Char.isDigit := by
    refine ⟨by simp [someWhole], List.all_eq_true.mpr fun c member => ?_⟩
    exact (List.mem_append.mp member).elim (digits c) (decimals c)
  rw [readDecimal, String.toList_ofList]
  split
  next sign unsigned parts =>
  have positive : (1, whole ++ '.' :: fraction) = (sign, unsigned) := by
    obtain ⟨first, rest, rfl⟩ := List.exists_cons_of_ne_nil someWhole
    have digit := digits first List.mem_cons_self
    split at parts
    · next same =>
      rw [(List.cons.inj same).1] at digit
      exact absurd digit (by decide)
    · next same =>
      rw [(List.cons.inj same).1] at digit
      exact absurd digit (by decide)
    · exact parts
  obtain ⟨rfl, rfl⟩ := Prod.mk.inj positive
  dsimp only
  rw [mantissa, exponent, before, after]
  dsimp only
  rw [if_pos valid, one_mul, zero_sub, zpow_neg, zpow_natCast, div_eq_mul_inv]

/-- A printed number is read back as a whole number of units of the last decimal. -/
theorem exists_readDecimal_formatFixed {decimals : ℕ} (some : 0 < decimals) {q : ℚ} (positive : 0 ≤ q) :
    ∃ r : ℕ, |(r : ℚ) - q * 10 ^ decimals| ≤ 1 / 2 ∧ readDecimal (formatFixed decimals q) = r / 10 ^ decimals := by
  obtain ⟨r, close, text⟩ : ∃ r : ℕ, |(r : ℚ) - q * 10 ^ decimals| ≤ 1 / 2 ∧ formatFixed decimals q =
      toString (r / 10 ^ decimals) ++ "." ++ zeroPadded decimals (r % 10 ^ decimals) := by
    rw [formatFixed, if_neg (not_lt.mpr positive), abs_of_nonneg positive, String.empty_append]
    refine ⟨_, ?_, rfl⟩
    have nonneg : ((0 : ℤ) : ℚ) ≤ q * 10 ^ decimals := by
      rw [Int.cast_zero]
      positivity
    have whole : (((q * 10 ^ decimals).roundEven.toNat : ℕ) : ℚ) = ((q * 10 ^ decimals).roundEven : ℤ) := by
      rw [← Int.cast_natCast, Int.toNat_of_nonneg (Rat.le_roundEven nonneg)]
    rw [whole]
    exact Rat.abs_roundEven_sub_le _
  have fits : r % 10 ^ decimals < 10 ^ decimals := Nat.mod_lt _ (by positivity)
  have chars : formatFixed decimals q = String.ofList ((toString (r / 10 ^ decimals)).toList ++
      '.' :: (zeroPadded decimals (r % 10 ^ decimals)).toList) := by
    rw [text, ← String.toList_inj, String.toList_ofList, String.toList_append, String.toList_append, List.append_assoc]
    rfl
  refine ⟨r, close, ?_⟩
  rw [chars, readDecimal_decimals (by rw [Nat.toList_toString]; exact Nat.toDigits_ne_nil)
    (fun _ => Nat.isDigit_of_mem_toString) (fun _ => isDigit_of_mem_zeroPadded), length_zeroPadded fits some,
    digitsValue_append, length_zeroPadded fits some, digitsValue_toString, digitsValue_zeroPadded, Nat.div_add_mod]

/-- A number with a fixed number of decimals is read back up to half a unit of the last one. -/
theorem readDecimal_formatFixed {decimals : ℕ} (some : 0 < decimals) {q : ℚ} (positive : 0 ≤ q) :
    |readDecimal (formatFixed decimals q) - q| ≤ 1 / (2 * 10 ^ decimals) := by
  have unit : (0 : ℚ) < 10 ^ decimals := by positivity
  obtain ⟨r, close, value⟩ := exists_readDecimal_formatFixed some positive
  have scaled : (r : ℚ) / 10 ^ decimals - q = (r - q * 10 ^ decimals) / 10 ^ decimals := by
    field_simp
  rw [value, scaled, abs_div, abs_of_pos unit, div_le_iff₀ unit]
  calc |(r : ℚ) - q * 10 ^ decimals| ≤ 1 / 2 := close
    _ = 1 / (2 * 10 ^ decimals) * 10 ^ decimals := by field_simp

/-- `strings.SplitN(line, ":", 2)`, when there is a colon. -/
def splitColon (line : String) : Option (String × String) :=
  match line.toList.dropWhile (· ≠ ':') with
  | [] => none
  | _ :: value => some (String.ofList (line.toList.takeWhile (· ≠ ':')), String.ofList value)

/-- The text up to each newline, and the rest. -/
def splitLines : List Char → List (List Char)
  | [] => [[]]
  | c :: rest =>
    match splitLines rest with
    | [] => []
    | line :: lines => if c = '\n' then [] :: line :: lines else (c :: line) :: lines

/-- The lines of a `bufio.Scanner`: no empty last line, no carriage return at the end, and nothing
from the first line on that does not fit the buffer. -/
def scanLines (text : String) : List String :=
  let lines := splitLines text.toList
  let complete := if lines.getLast? = some [] then lines.dropLast else lines
  (complete.takeWhile fun line => line.length < 65536).map fun line =>
    String.ofList (if line.getLast? = some '\r' then line.dropLast else line)

example : scanLines "time:0.5\r\nstatus:RE\n" = ["time:0.5", "status:RE"] ∧ atoi "-12" = -12 ∧ atoi "1x" = 0 := by
  decide

end JudgeSelf.Go
