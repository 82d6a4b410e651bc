import JudgeSelf.Json.Printed

/-! # Integers and strings of known printers

The texts of integers, and what `encoding/json` and the `cjson` of Redis write for the characters of strings.
-/

namespace Json

theorem NumberPart.foldlM_next_digits {part : NumberPart} (loops : ∀ c : Char, c.isDigit → part.next c = some part)
    {digits : List Char} (all : ∀ c ∈ digits, c.isDigit) : digits.foldlM next part = some part := by
  induction digits with
  | nil => rfl
  | cons c digits ih =>
    obtain ⟨first, rest⟩ := List.forall_mem_cons.mp all
    rw [List.foldlM_cons, loops c first]
    exact ih rest

/-- Digits are a number behind a sign or at the start. -/
theorem NumberPart.foldlM_leading {digits : List Char} (leading : Reader.Leading digits)
    {enter : Char → Option NumberPart} (zero : enter '0' = some .zero)
    (int : ∀ c : Char, c.isDigit → c ≠ '0' → enter c = some .int) :
    ∃ c rest part, digits = c :: rest ∧ part.final = true ∧ (enter c).bind (rest.foldlM next ·) = some part := by
  obtain ⟨c, rest, rfl⟩ := List.exists_cons_of_ne_nil leading.ne_nil
  obtain ⟨first, others⟩ := List.forall_mem_cons.mp leading.isDigit
  rcases eq_or_ne c '0' with rfl | some_
  · obtain rfl : rest = [] := leading.zero rfl
    exact ⟨_, _, .zero, rfl, rfl, by rw [zero]; rfl⟩
  · refine ⟨c, rest, .int, rfl, rfl, ?_⟩
    rw [int c first some_]
    exact foldlM_next_digits (fun d digit => by simp [next, digit]) others

theorem NumberPart.scan_encodeInt (n : ℤ) : (scan (encodeInt n)).any final = true := by
  have leading := Reader.leading_toDigits n.natAbs
  rw [encodeInt, Int.toList_toString, Nat.toList_toString]
  split
  · obtain ⟨c, rest, part, digits, last, scanned⟩ := @foldlM_leading _ leading (next .minus) rfl
      fun d digit some_ => by simp [next, digit, some_]
    rw [digits]
    change ((next .minus c).bind (rest.foldlM next ·)).any final = true
    rw [scanned]
    exact last
  · obtain ⟨c, rest, part, digits, last, scanned⟩ := @foldlM_leading _ leading start rfl fun d digit some_ => by
      have sign : d ≠ '-' := by
        rintro rfl
        contradiction
      simp [start, digit, some_, sign]
    rw [digits]
    change ((start c).bind (rest.foldlM next ·)).any final = true
    rw [scanned]
    exact last

namespace Literal

def ofInt (n : ℤ) : Literal := ⟨encodeInt n, NumberPart.scan_encodeInt n⟩

def digits? (digits : List Char) : Option ℕ :=
  if digits.all Char.isDigit then some (Nat.ofDigitChars 10 digits 0) else none

/-- The integer that a number without a fraction and an exponent is. -/
def int? (literal : Literal) : Option ℤ :=
  if literal.text.head? = some '-' then (digits? literal.text.tail).map fun n : ℕ => -(n : ℤ)
  else (digits? literal.text).map fun n : ℕ => (n : ℤ)

theorem digits?_toDigits (n : ℕ) : digits? (Nat.toDigits 10 n) = some n := by
  have all : (Nat.toDigits 10 n).all Char.isDigit = true :=
    List.all_eq_true.mpr fun c member => Nat.isDigit_of_mem_toDigits (by decide) (by decide) member
  rw [digits?, if_pos all, Nat.ofDigitChars_ten_toDigits]

theorem int?_ofInt (n : ℤ) : (ofInt n).int? = some n := by
  have text : (ofInt n).text = if n < 0 then '-' :: Nat.toDigits 10 n.natAbs else Nat.toDigits 10 n.natAbs := by
    change encodeInt n = _
    rw [encodeInt, Int.toList_toString, Nat.toList_toString]
  rw [int?, text]
  by_cases negative : n < 0
  · rw [if_pos negative, List.head?_cons, if_pos rfl, List.tail_cons, digits?_toDigits, Option.map_some]
    exact congrArg some (by omega)
  · have unsigned : (Nat.toDigits 10 n.natAbs).head? ≠ some '-' := by
      intro signed
      have digit := (Reader.leading_toDigits n.natAbs).isDigit '-' (List.mem_of_mem_head? signed)
      contradiction
    rw [if_neg negative, if_neg unsigned, digits?_toDigits, Option.map_some]
    exact congrArg some (by omega)

end Literal

namespace TreeReader

/-- The escape of a code below 256 is read as its character. -/
theorem run_unicode (b : Builder) (read : List Char) {high low : ℕ} (highSmall : high < 16) (lowSmall : low < 16) :
    run ⟨.string read, b⟩ ['\\', 'u', '0', '0', hexDigit high, hexDigit low] =
      some ⟨.string (read ++ [Char.ofNat (16 * high + low)]), b⟩ := by
  have start : run ⟨.string read, b⟩ ['\\', 'u', '0', '0'] = some ⟨.unicode read none 2 0, b⟩ := rfl
  have third : step ⟨.unicode read none 2 0, b⟩ (hexDigit high) = some ⟨.unicode read none 3 high, b⟩ := by
    simp [step, Reader.hexValue_hexDigit highSmall]
  have fourth : step ⟨.unicode read none 3 high, b⟩ (hexDigit low) =
      some ⟨.string (read ++ [Char.ofNat (16 * high + low)]), b⟩ := by
    have notHigh : ¬ (0xD800 ≤ 16 * high + low ∧ 16 * high + low < 0xDC00) := by omega
    have notLow : ¬ (0xDC00 ≤ 16 * high + low ∧ 16 * high + low < 0xE000) := by omega
    simp [step, Reader.hexValue_hexDigit lowSmall, Scanner.ofCode, notHigh, notLow]
  change run ⟨.string read, b⟩ (['\\', 'u', '0', '0'] ++ [hexDigit high, hexDigit low]) = _
  rw [run_append, start, Option.bind_some, run_cons, third, Option.bind_some, run_singleton, fourth]

/-- The escape of a character below 256. -/
theorem run_unicode_char (b : Builder) (read : List Char) {c : Char} (small : c.toNat < 256) :
    run ⟨.string read, b⟩ ['\\', 'u', '0', '0', hexDigit (c.toNat / 16), hexDigit (c.toNat % 16)] =
      some ⟨.string (read ++ [c]), b⟩ := by
  rw [run_unicode b read (by omega) (by omega), Nat.div_add_mod, Char.ofNat_toNat]

/-- A character that needs no escape. -/
theorem run_plain (b : Builder) (read : List Char) {c : Char} (quote : c ≠ '"') (backslash : c ≠ '\\')
    (printed : ¬ c.toNat < 32) : run ⟨.string read, b⟩ [c] = some ⟨.string (read ++ [c]), b⟩ := by
  rw [run_singleton, step]
  dsimp only
  rw [if_neg quote, if_neg backslash, if_neg printed]

end TreeReader

/-- `char2escape` of `cjson`. -/
def cjsonText (c : Char) : List Char :=
  if c = '"' ∨ c = '\\' ∨ c = '/' then ['\\', c]
  else if c = '\x08' then ['\\', 'b']
  else if c = '\x0c' then ['\\', 'f']
  else if c = '\n' then ['\\', 'n']
  else if c = '\r' then ['\\', 'r']
  else if c = '\t' then ['\\', 't']
  else if c.toNat < 32 ∨ c = '\x7f' then
    ['\\', 'u', '0', '0', hexDigit (c.toNat / 16), hexDigit (c.toNat % 16)]
  else [c]

/-- The strings of `cjson`. -/
def cjsonEscape : Escape where
  text := cjsonText
  reads b read c := by
    delta cjsonText
    split
    · next plain => rcases plain with rfl | rfl | rfl <;> rfl
    split
    · next same => subst same; rfl
    split
    · next same => subst same; rfl
    split
    · next same => subst same; rfl
    split
    · next same => subst same; rfl
    split
    · next same => subst same; rfl
    split
    · next code =>
      refine TreeReader.run_unicode_char b read ?_
      rcases code with control | rfl
      · omega
      · decide
    next plain _ _ _ _ _ code =>
      rw [not_or, not_or] at plain
      rw [not_or] at code
      exact TreeReader.run_plain b read plain.1 plain.2.1 code.1

end Json
