import JudgeSelf.ToMathlib.Decimal
import Mathlib.Data.List.TakeWhile
import Mathlib.Data.Nat.Log
import Mathlib.Tactic.Ring

/-! # Numbers and texts of JavaScript

Numbers are integers here, all of them doubles: a text is read as the nearest double, and a double is
written with the fewest digits that read back as it. `none` is NaN.
-/

namespace JudgeSelf.Js

/-- The double nearest to a natural number, ties to even. -/
def nearest (n : ℕ) : ℕ :=
  if n < 2 ^ 53 then n
  else
    let unit := 2 ^ (Nat.log 2 n - 52)
    let below := n / unit
    let up := unit < 2 * (n % unit) ∨ 2 * (n % unit) = unit ∧ below % 2 = 1
    (if up then below + 1 else below) * unit

/-- The decimal number with the given count of digits that is closest to a number. -/
def rounded (x digits : ℕ) : ℕ :=
  let unit := 10 ^ ((toString x).length - digits)
  (x + unit / 2) / unit * unit

/-- The value of what `String` writes for a double below `10 ^ 21`. -/
def shortest (x : ℕ) : ℕ :=
  (((List.range (toString x).length).map fun k => rounded x (k + 1)).find? fun candidate =>
    nearest candidate = x).getD x

/-- The value of a digit in base 10 or 16. -/
def digit? (radix : ℕ) (c : Char) : Option ℕ :=
  if c.isDigit then some (c.toNat - 48)
  else if radix = 16 ∧ 'a' ≤ c ∧ c ≤ 'f' then some (c.toNat - 87)
  else if radix = 16 ∧ 'A' ≤ c ∧ c ≤ 'F' then some (c.toNat - 55)
  else none

/-- The digits in front of a text. -/
def leadingDigits (radix : ℕ) : List Char → List ℕ
  | [] => []
  | c :: rest =>
    match digit? radix c with
    | some d => d :: leadingDigits radix rest
    | none => []

def parseDigits (radix : ℕ) (sign : ℤ) (text : List Char) : Option ℤ :=
  match leadingDigits radix text with
  | [] => none
  | digits => some (sign * nearest (digits.foldl (fun n d => radix * n + d) 0))

/-- A number without sign. -/
def parseUnsigned (sign : ℤ) : List Char → Option ℤ
  | '0' :: 'x' :: rest => parseDigits 16 sign rest
  | '0' :: 'X' :: rest => parseDigits 16 sign rest
  | text => parseDigits 10 sign text

/-- ASCII white space. -/
def isSpace (c : Char) : Bool := c ∈ [' ', '\t', '\n', '\x0b', '\x0c', '\r']

/-- `parseInt` without a radix. -/
def parseInt (s : String) : Option ℤ :=
  match s.toList.dropWhile isSpace with
  | '-' :: rest => parseUnsigned (-1) rest
  | '+' :: rest => parseUnsigned 1 rest
  | rest => parseUnsigned 1 rest

/-- `padStart` with one character. -/
def padStart (s : String) (targetLength : ℕ) (c : Char) : String :=
  String.ofList (List.replicate (targetLength - s.length) c) ++ s

/-- `replace(/^0+/, '')`. -/
def stripZeros (s : String) : String := String.ofList (s.toList.dropWhile (· = '0'))

/-- `path.basename`. -/
def basename (path : String) : String :=
  String.ofList ((path.toList.reverse.dropWhile (· = '/')).takeWhile (· ≠ '/')).reverse

theorem notMem_basename (path : String) : '/' ∉ (basename path).toList := by
  rw [basename, String.toList_ofList, List.mem_reverse]
  intro member
  exact absurd (List.mem_takeWhile_imp member) (by decide)

example : parseInt " 0x1f" = some 31 ∧ parseInt "12 ms" = some 12 ∧ parseInt "ms" = none ∧
    nearest 9007199254740993 = 9007199254740992 ∧ shortest (2 ^ 62) = 4611686018427388000 := by
  decide +kernel

theorem nearest_of_lt {n : ℕ} (small : n < 2 ^ 53) : nearest n = n := if_pos small

/-- Rounding leaves no large number small. -/
theorem le_nearest {n : ℕ} (large : 2 ^ 53 ≤ n) : 2 ^ 53 ≤ nearest n := by
  have positive : n ≠ 0 := by omega
  have exponent : 53 ≤ Nat.log 2 n := (Nat.le_log_iff_pow_le (by decide) positive).mpr large
  have power : 2 ^ 52 * 2 ^ (Nat.log 2 n - 52) = 2 ^ Nat.log 2 n := by
    rw [← Nat.pow_add]
    congr 1
    omega
  have significand : 2 ^ 52 ≤ n / 2 ^ (Nat.log 2 n - 52) := by
    rw [Nat.le_div_iff_mul_le (Nat.pow_pos (by decide)), power]
    exact Nat.pow_log_le_self 2 positive
  rw [nearest, if_neg (not_lt.mpr large)]
  calc 2 ^ 53 ≤ 2 ^ Nat.log 2 n := Nat.pow_le_pow_right (by decide) exponent
    _ = 2 ^ 52 * 2 ^ (Nat.log 2 n - 52) := power.symm
    _ ≤ _ := by
      apply Nat.mul_le_mul_right
      split
      · exact significand.trans (Nat.le_succ _)
      · exact significand

/-- A double and the number written for it are on the same side of `2 ^ 53`, and small ones are equal. -/
theorem shortest_spec (x : ℕ) : if x < 2 ^ 53 then shortest x = x else 2 ^ 53 ≤ shortest x := by
  rw [shortest]
  cases found : ((List.range (toString x).length).map fun k => rounded x (k + 1)).find?
      fun candidate => nearest candidate = x with
  | none =>
    rw [Option.getD_none]
    split
    · rfl
    · next large => exact not_lt.mp large
  | some candidate =>
    have reads : nearest candidate = x := by simpa using List.find?_some found
    rw [Option.getD_some]
    rcases lt_or_ge candidate (2 ^ 53) with small | large
    · rw [nearest_of_lt small] at reads
      rw [← reads, if_pos small]
    · have bound := le_nearest large
      rw [reads] at bound
      rw [if_neg (not_lt.mpr bound)]
      exact large

theorem shortest_of_lt {x : ℕ} (small : x < 2 ^ 53) : shortest x = x := by
  have spec := shortest_spec x
  rwa [if_pos small] at spec

theorem le_shortest {x : ℕ} (large : 2 ^ 53 ≤ x) : 2 ^ 53 ≤ shortest x := by
  have spec := shortest_spec x
  rwa [if_neg (not_lt.mpr large)] at spec

private theorem leadingDigits_of_isDigit {text : List Char} (digits : ∀ c ∈ text, c.isDigit) :
    leadingDigits 10 text = text.map fun c => c.toNat - 48 := by
  induction text with
  | nil => rfl
  | cons c rest ih =>
    rw [leadingDigits, digit?, if_pos (digits c List.mem_cons_self), List.map_cons,
      ih fun d member => digits d (List.mem_cons_of_mem c member)]

private theorem parseDigits_of_ne_nil {radix : ℕ} {text : List Char} (some : leadingDigits radix text ≠ []) {sign : ℤ} :
    parseDigits radix sign text =
      Option.some (sign * nearest ((leadingDigits radix text).foldl (fun n d => radix * n + d) 0)) := by
  rw [parseDigits]
  split
  · contradiction
  · rfl

private theorem parseUnsigned_of_isDigit {text : List Char} (digits : ∀ c ∈ text, c.isDigit) (sign : ℤ) :
    parseUnsigned sign text = parseDigits 10 sign text := by
  unfold parseUnsigned
  split
  · next rest => exact absurd (digits 'x' (by simp)) (by decide)
  · next rest => exact absurd (digits 'X' (by simp)) (by decide)
  · rfl

/-- The decimal text of a number is read as the nearest double. -/
theorem parseInt_toString (n : ℕ) : parseInt (toString n) = some (nearest n : ℤ) := by
  have digits : ∀ c ∈ (toString n).toList, c.isDigit := fun _ => Nat.isDigit_of_mem_toString
  have value : ((toString n).toList.map fun c => c.toNat - 48).foldl (fun n d => 10 * n + d) 0 = n := by
    rw [Nat.toList_toString, List.foldl_map]
    exact Nat.ofDigitChars_ten_toDigits
  have nonempty : (toString n).toList ≠ [] := by
    rw [Nat.toList_toString]
    exact Nat.toDigits_ne_nil
  rw [parseInt]
  generalize (toString n).toList = text at digits value nonempty
  obtain ⟨first, rest, rfl⟩ := List.exists_cons_of_ne_nil nonempty
  have digit := digits first List.mem_cons_self
  have visible : ¬ isSpace first = true := by
    rw [isSpace, decide_eq_true_eq]
    intro space
    simp only [List.mem_cons, List.not_mem_nil, or_false] at space
    rcases space with rfl | rfl | rfl | rfl | rfl | rfl <;> exact absurd digit (by decide)
  rw [List.dropWhile_cons_of_neg visible]
  have read : parseUnsigned 1 (first :: rest) = some (nearest n : ℤ) := by
    have plain := leadingDigits_of_isDigit digits
    rw [parseUnsigned_of_isDigit digits, parseDigits_of_ne_nil (by rw [plain]; simp), plain, value, one_mul]
  split
  · next same =>
    rw [(List.cons.inj same).1] at digit
    exact absurd digit (by decide)
  · next same =>
    rw [(List.cons.inj same).1] at digit
    exact absurd digit (by decide)
  · exact read

end JudgeSelf.Js
