import JudgeSelf.Json.Jsonb
import JudgeSelf.ToMathlib.Binary64
import Mathlib.Tactic.IntervalCases

/-! # The texts of `encoding/json`

`json.Marshal` on slices of structs whose fields are strings and numbers. A string of Go is a list of
bytes; bytes that are not part of a character in UTF-8 are written as U+FFFD. Every text is accepted by
`jsonb` unless a string of it has the byte 0, which is written as an escape that `jsonb` refuses.
-/

namespace Json

/-- A byte behind the first one of a character. -/
def isContinuation (b : UInt8) : Bool := 0x80 ≤ b.toNat ∧ b.toNat < 0xC0

/-- The bits of a continuation byte. -/
def payload (b : UInt8) : ℕ := b.toNat - 0x80

/-- `utf8.DecodeRune` behind a first byte that is not ASCII: the character and how many of the bytes
belong to it, if they are a character in UTF-8. -/
def decodeRune (first : UInt8) (bytes : List UInt8) : Option (Char × ℕ) :=
  let b := first.toNat
  if 0xC2 ≤ b ∧ b < 0xE0 then
    match bytes with
    | b₁ :: _ => if isContinuation b₁ then some (Char.ofNat ((b - 0xC0) * 64 + payload b₁), 1) else none
    | _ => none
  else if 0xE0 ≤ b ∧ b < 0xF0 then
    match bytes with
    | b₁ :: b₂ :: _ =>
      let code := ((b - 0xE0) * 64 + payload b₁) * 64 + payload b₂
      if isContinuation b₁ ∧ isContinuation b₂ ∧ 0x800 ≤ code ∧ ¬ (0xD800 ≤ code ∧ code < 0xE000) then
        some (Char.ofNat code, 2)
      else none
    | _ => none
  else if 0xF0 ≤ b ∧ b < 0xF5 then
    match bytes with
    | b₁ :: b₂ :: b₃ :: _ =>
      let code := (((b - 0xF0) * 64 + payload b₁) * 64 + payload b₂) * 64 + payload b₃
      if isContinuation b₁ ∧ isContinuation b₂ ∧ isContinuation b₃ ∧ 0x10000 ≤ code ∧ code < 0x110000 then
        some (Char.ofNat code, 3)
      else none
    | _ => none
  else none

/-- The characters of a byte string, `none` for a byte that belongs to none; `skip` bytes belong to
the last character. -/
def runesFrom : ℕ → List UInt8 → List (Option Char)
  | _, [] => []
  | skip + 1, _ :: bytes => runesFrom skip bytes
  | 0, b :: bytes =>
    if b.toNat < 0x80 then some (Char.ofNat b.toNat) :: runesFrom 0 bytes
    else
      match decodeRune b bytes with
      | some (c, size) => some c :: runesFrom size bytes
      | none => none :: runesFrom 0 bytes

def runes (bytes : List UInt8) : List (Option Char) := runesFrom 0 bytes

def hexDigit (n : ℕ) : Char := "0123456789abcdef".toList.getD n '0'

/-- The text of a character in a string. -/
def escapeRune : Option Char → List Char
  | none => "\\ufffd".toList
  | some c =>
    if c = '"' ∨ c = '\\' then ['\\', c]
    else if c = '\x08' then ['\\', 'b']
    else if c = '\x0c' then ['\\', 'f']
    else if c = '\n' then ['\\', 'n']
    else if c = '\r' then ['\\', 'r']
    else if c = '\t' then ['\\', 't']
    else if c.toNat < 32 ∨ c = '<' ∨ c = '>' ∨ c = '&' then
      ['\\', 'u', '0', '0', hexDigit (c.toNat / 16), hexDigit (c.toNat % 16)]
    else if c = '\u2028' then "\\u2028".toList
    else if c = '\u2029' then "\\u2029".toList
    else [c]

def quote (runes : List (Option Char)) : List Char := '"' :: runes.flatMap escapeRune ++ ['"']

/-- The nearest integer, and the one on the other side. -/
def integersAround (q : ℚ) : List ℤ := [q.roundEven, if q.roundEven ≤ q then q.roundEven + 1 else q.roundEven - 1]

/-- A number as `m / 10 ^ d` with the fewest digits that are read as the number. -/
def shortestDecimal (q : ℚ) : ℕ × ℕ :=
  let first : ℤ := -(Nat.toDigits 10 ⌊q⌋.toNat).length
  let decimals := (List.range 400).flatMap fun i => (integersAround (q * 10 ^ (first + i))).map (·, first + i)
  match decimals.find? fun (m, d) => Binary64.nearest (m / 10 ^ d) = q with
  | some (m, d) => (m.toNat * 10 ^ (-d).toNat, d.toNat)
  | none => (0, 0)

def trimZeros (digits : List Char) : List Char := (digits.reverse.dropWhile (· = '0')).reverse

/-- The text of a float: with an exponent below 1e-6 and from 1e21 on. -/
def encodeFloat (negative : Bool) (q : ℚ) : List Char :=
  let (coefficient, d) := shortestDecimal q
  let sign := if negative then ['-'] else []
  if q ≠ 0 ∧ (q < 1 / 10 ^ 6 ∨ 10 ^ 21 ≤ q) then
    let digits := Nat.toDigits 10 coefficient
    let fraction := trimZeros digits.tail
    let power : ℤ := digits.length - 1 - d
    sign ++ digits.take 1 ++ (if fraction = [] then [] else '.' :: fraction) ++
      'e' :: (if power < 0 then '-' else '+') :: Nat.toDigits 10 power.natAbs
  else
    let whole := Nat.toDigits 10 (coefficient / 10 ^ d)
    let fraction := Nat.toDigits 10 (coefficient % 10 ^ d)
    sign ++ whole ++ if d = 0 then [] else '.' :: List.replicate (d - fraction.length) '0' ++ fraction

def encodeInt (n : ℤ) : List Char := (toString n).toList

inductive Value
  | int (n : ℤ)
  | float (negative : Bool) (magnitude : Binary64.Magnitude)
  | string (bytes : List UInt8)

def Value.encode : Value → List Char
  | .int n => encodeInt n
  | .float negative magnitude => encodeFloat negative magnitude.value
  | .string bytes => quote (runes bytes)

/-- A struct is the list of its fields under their JSON names. -/
abbrev Struct := List (String × Value)

def encodeMember (member : String × Value) : List Char :=
  quote (member.1.toList.map some) ++ ':' :: member.2.encode

/-- The texts between two delimiters, separated by commas. -/
def enclose (first last : Char) (texts : List (List Char)) : List Char :=
  first :: [','].intercalate texts ++ [last]

def encodeStruct (struct : Struct) : List Char := enclose '{' '}' (struct.map encodeMember)

/-- `json.Marshal` of a slice of structs. -/
def marshal (structs : List Struct) : List Char := enclose '[' ']' (structs.map encodeStruct)

/-- A float as a value; infinities and NaN have no text. -/
def floatValue : Binary64 → Except String Value
  | .finite negative magnitude => .ok (.float negative magnitude)
  | .infinite negative => .error ("json: unsupported value: " ++ if negative then "-Inf" else "+Inf")
  | .nan => .error "json: unsupported value: NaN"

example : [encodeFloat false (Binary64.nearest (1 / 10)), encodeFloat true 30,
    encodeFloat false (Binary64.nearest (12 / 10 ^ 8)), encodeFloat false (10 ^ 21)] =
    ["0.1", "-30", "1.2e-7", "1e+21"].map String.toList := by
  decide +kernel

private theorem toNat_ofNat {code : ℕ} (valid : code.isValidChar) : (Char.ofNat code).toNat = code := by
  rw [Char.ofNat, dif_pos valid]
  rfl

private theorem isValidChar_of_lt {code : ℕ} (small : code < 0xD800) : code.isValidChar := .inl small

private theorem isValidChar_of_le {code : ℕ} (large : 0xE000 ≤ code) (most : code < 0x110000) : code.isValidChar :=
  .inr ⟨by omega, most⟩

private theorem ne_zero_of_isContinuation {b : UInt8} (continuation : isContinuation b) : b ≠ 0 := by
  rintro rfl
  exact absurd continuation (by decide)

private theorem payload_lt {b : UInt8} (continuation : isContinuation b) : payload b < 64 := by
  simp only [isContinuation, decide_eq_true_eq] at continuation
  unfold payload
  omega

/-- A character behind ASCII is not NUL, and no byte of it is 0. -/
theorem decodeRune_spec {first : UInt8} {bytes : List UInt8} {c : Char} {size : ℕ}
    (decoded : decodeRune first bytes = some (c, size)) : c ≠ '\x00' ∧ ∀ b ∈ bytes.take size, b ≠ 0 := by
  have character {code : ℕ} (large : 0x80 ≤ code) (valid : code.isValidChar) : Char.ofNat code ≠ '\x00' := by
    intro same
    have value := toNat_ofNat valid
    rw [same] at value
    change 0 = code at value
    omega
  unfold decodeRune at decoded
  dsimp only at decoded
  split at decoded
  · next range =>
    split at decoded
    · next b₁ _ =>
      split at decoded
      · next one =>
        obtain ⟨rfl, rfl⟩ := Prod.mk.inj (Option.some_inj.mp decoded)
        have bound := payload_lt one
        generalize code_eq : (first.toNat - 0xC0) * 64 + payload b₁ = code
        refine ⟨character (by omega) (isValidChar_of_lt (by omega)), ?_⟩
        simpa using ne_zero_of_isContinuation one
      · contradiction
    · contradiction
  · split at decoded
    · split at decoded
      · next b₁ b₂ _ =>
        split at decoded
        · next conditions =>
          obtain ⟨rfl, rfl⟩ := Prod.mk.inj (Option.some_inj.mp decoded)
          obtain ⟨one, two, least, notSurrogate⟩ := conditions
          refine ⟨?_, by simpa using ⟨ne_zero_of_isContinuation one, ne_zero_of_isContinuation two⟩⟩
          have bound₁ := payload_lt one
          have bound₂ := payload_lt two
          generalize code_eq : ((first.toNat - 0xE0) * 64 + payload b₁) * 64 + payload b₂ = code at *
          refine character (by omega) ?_
          by_cases below : code < 0xD800
          · exact isValidChar_of_lt below
          · exact isValidChar_of_le (by omega) (by omega)
        · contradiction
      · contradiction
    · split at decoded
      · split at decoded
        · split at decoded
          · next conditions =>
            obtain ⟨rfl, rfl⟩ := Prod.mk.inj (Option.some_inj.mp decoded)
            obtain ⟨one, two, three, least, most⟩ := conditions
            refine ⟨character (by omega) (isValidChar_of_le (by omega) most), ?_⟩
            simpa using ⟨ne_zero_of_isContinuation one, ne_zero_of_isContinuation two, ne_zero_of_isContinuation three⟩
          · contradiction
        · contradiction
      · contradiction

theorem nul_mem_runesFrom {skip : ℕ} {bytes : List UInt8} (inside : ∀ b ∈ bytes.take skip, b ≠ 0) :
    some '\x00' ∈ runesFrom skip bytes ↔ 0 ∈ bytes := by
  induction bytes generalizing skip with
  | nil => simp [runesFrom]
  | cons b bytes ih =>
    cases skip with
    | succ skip =>
      rw [List.take_succ_cons, List.forall_mem_cons] at inside
      rw [runesFrom, ih inside.2, List.mem_cons, or_iff_right (Ne.symm inside.1)]
    | zero =>
      rw [runesFrom]
      by_cases ascii : b.toNat < 0x80
      · have zero : '\x00' = Char.ofNat b.toNat ↔ 0 = b := by
          constructor
          · intro same
            have value : (Char.ofNat b.toNat).toNat = b.toNat := toNat_ofNat (.inl (by omega))
            rw [← same] at value
            exact UInt8.toNat_inj.mp value
          · rintro rfl
            rfl
        rw [if_pos ascii, List.mem_cons, List.mem_cons, ih (by simp), Option.some_inj, zero]
      · have other : 0 ≠ b := by
          rintro rfl
          exact ascii (by decide)
        rw [if_neg ascii, List.mem_cons, or_iff_right other]
        cases decoded : decodeRune b bytes with
        | none => simpa using @ih 0 (by simp)
        | some decoding =>
          obtain ⟨c, size⟩ := decoding
          obtain ⟨notNul, rest⟩ := decodeRune_spec decoded
          simpa [Ne.symm notNul] using ih rest

/-- The byte 0 is a character of its own. -/
theorem nul_mem_runes {bytes : List UInt8} : some '\x00' ∈ runes bytes ↔ 0 ∈ bytes :=
  nul_mem_runesFrom (by simp)

namespace Reader

variable {p : Parser}

theorem hexValue_hexDigit {n : ℕ} (small : n < 16) : hexValue (hexDigit n) = some n := by
  interval_cases n <;> decide

/-- The escape of a code below 256. -/
theorem run_unicode {high low : ℕ} (highSmall : high < 16) (lowSmall : low < 16) :
    run ⟨.string, p⟩ ['\\', 'u', '0', '0', hexDigit high, hexDigit low] =
      (resolve false (16 * high + low)).map (⟨·, p⟩) := by
  have start : run ⟨.string, p⟩ ['\\', 'u', '0', '0'] = some ⟨.unicode false 2 0, p⟩ := rfl
  have third : step ⟨.unicode false 2 0, p⟩ (hexDigit high) = some ⟨.unicode false 3 high, p⟩ := by
    simp [step, hexValue_hexDigit highSmall]
  have fourth : step ⟨.unicode false 3 high, p⟩ (hexDigit low) =
      (resolve false (16 * high + low)).map (⟨·, p⟩) := by
    simp [step, hexValue_hexDigit lowSmall]
  change run ⟨.string, p⟩ (['\\', 'u', '0', '0'] ++ [hexDigit high, hexDigit low]) = _
  rw [run_append, start, Option.bind_some, run_cons, third, Option.bind_some, run_cons, fourth]
  cases resolve false (16 * high + low) <;> rfl

/-- In a string the text of every character is read, unless the character is NUL. -/
theorem run_escapeRune (p : Parser) (r : Option Char) : run ⟨.string, p⟩ (escapeRune r) =
    if r = some '\x00' then none else some ⟨.string, p⟩ := by
  cases r with
  | none => rfl
  | some c =>
    -- the equation of the definition would be derived branch by branch
    delta escapeRune
    dsimp only
    split
    · next plain => rcases plain with rfl | rfl <;> rfl
    split
    · next same => subst same; rfl
    split
    · next same => subst same; rfl
    split
    · next same => subst same; rfl
    split
    · next same => subst same; rfl
    split
    · next same => subst same; rfl
    split
    · next code =>
      have small : c.toNat < 256 := by
        rcases code with control | rfl | rfl | rfl
        · omega
        · decide
        · decide
        · decide
      have nul : c = '\x00' ↔ c.toNat = 0 := Char.toNat_inj.symm
      rw [run_unicode (by omega) (by omega), Nat.div_add_mod]
      by_cases zero : c.toNat = 0
      · simp [resolve, zero, nul]
      · have other : ¬ (0xD800 ≤ c.toNat) := by omega
        have low : ¬ (0xDC00 ≤ c.toNat) := by omega
        simp [resolve, zero, nul, other, low]
    split
    · next same => subst same; rfl
    split
    · next same => subst same; rfl
    next plain _ _ _ _ _ code _ _ =>
      rw [not_or] at plain
      have printed : ¬ (c.toNat < 32) := fun control => code (.inl control)
      have other : c ≠ '\x00' := by
        rintro rfl
        exact printed (by decide)
      simp [run_cons, step, plain, printed, other]

theorem run_flatMap_escapeRune (p : Parser) (rs : List (Option Char)) :
    run ⟨.string, p⟩ (rs.flatMap escapeRune) = if some '\x00' ∈ rs then none else some ⟨.string, p⟩ := by
  induction rs with
  | nil => rfl
  | cons r rs ih =>
    rw [List.flatMap_cons, run_append, run_escapeRune]
    by_cases nul : r = some '\x00'
    · simp [nul]
    · simp [nul, ih, Ne.symm nul]

/-- A string is a token unless it has a NUL. -/
theorem run_quote (p : Parser) (rs : List (Option Char)) :
    run ⟨.between, p⟩ (quote rs) = if some '\x00' ∈ rs then none else feed p .string := by
  have opens : step ⟨.between, p⟩ '"' = some ⟨.string, p⟩ := rfl
  have closes : run ⟨.string, p⟩ ['"'] = feed p .string := by
    rw [run_cons]
    change (feed p .string).bind _ = _
    cases feed p .string <;> rfl
  rw [quote, List.cons_append, run_cons, opens, Option.bind_some, run_append, run_flatMap_escapeRune]
  split
  · rfl
  · exact closes

/-- A number goes on with digits. -/
theorem run_digits {part : NumberPart} (loops : ∀ c : Char, c.isDigit → part.next c = some part) {digits : List Char}
    (all : ∀ c ∈ digits, c.isDigit) : run ⟨.number part, p⟩ digits = some ⟨.number part, p⟩ := by
  induction digits with
  | nil => rfl
  | cons c digits ih =>
    obtain ⟨first, rest⟩ := List.forall_mem_cons.mp all
    have read : step ⟨.number part, p⟩ c = some ⟨.number part, p⟩ := by simp [step, loops c first]
    rw [run_cons, read, Option.bind_some, ih rest]

/-- Digits behind a part that a digit takes to another one. -/
theorem run_digits_of_next {part after : NumberPart} (turns : ∀ c : Char, c.isDigit → part.next c = some after)
    (loops : ∀ c : Char, c.isDigit → after.next c = some after) {digits : List Char} (some_ : digits ≠ [])
    (all : ∀ c ∈ digits, c.isDigit) : run ⟨.number part, p⟩ digits = some ⟨.number after, p⟩ := by
  obtain ⟨c, rest, rfl⟩ := List.exists_cons_of_ne_nil some_
  obtain ⟨first, others⟩ := List.forall_mem_cons.mp all
  have read : step ⟨.number part, p⟩ c = some ⟨.number after, p⟩ := by simp [step, turns c first]
  rw [run_cons, read, Option.bind_some, run_digits loops others]

/-- Digits without a leading zero, or a zero alone. -/
structure Leading (digits : List Char) : Prop where
  ne_nil : digits ≠ []
  isDigit : ∀ c ∈ digits, c.isDigit
  zero : digits.head? = some '0' → digits.tail = []

theorem leading_toDigits (n : ℕ) : Leading (Nat.toDigits 10 n) := by
  refine ⟨Nat.toDigits_ne_nil, fun c => Nat.isDigit_of_mem_toDigits (by decide) (by decide), ?_⟩
  have positive (m : ℕ) : 0 < m → (Nat.toDigits 10 m).head? ≠ some '0' := by
    induction m using Nat.strong_induction_on with
    | _ m ih =>
      intro some_
      by_cases small : m < 10
      · rw [Nat.toDigits_of_lt_base small]
        interval_cases m <;> decide
      · rw [Nat.toDigits_of_base_le (by decide) (by omega), List.head?_append_of_ne_nil _ Nat.toDigits_ne_nil]
        exact ih (m / 10) (by omega) (by omega)
  intro zero
  rcases Nat.eq_zero_or_pos n with rfl | some_
  · rfl
  · exact absurd zero (positive n some_)

theorem leading_take_one {digits : List Char} (leading : Leading digits) : Leading (digits.take 1) := by
  obtain ⟨c, rest, rfl⟩ := List.exists_cons_of_ne_nil leading.ne_nil
  exact ⟨by simp, by simpa using leading.isDigit c List.mem_cons_self, fun _ => rfl⟩

private theorem ne_of_isDigit {c d : Char} (digit : c.isDigit) (other : d.isDigit = false) : c ≠ d := by
  rintro rfl
  rw [digit] at other
  contradiction

/-- The digits in front of a fraction or an exponent, with a sign. -/
theorem run_leading (p : Parser) {digits : List Char} (leading : Leading digits) {sign : List Char}
    (signed : sign = [] ∨ sign = ['-']) :
    ∃ part, (part = .zero ∨ part = .int) ∧ run ⟨.between, p⟩ (sign ++ digits) = some ⟨.number part, p⟩ := by
  obtain ⟨c, rest, rfl⟩ := List.exists_cons_of_ne_nil leading.ne_nil
  obtain ⟨first, others⟩ := List.forall_mem_cons.mp leading.isDigit
  have reads (part : NumberPart) (between : stepBetween p c = some ⟨.number part, p⟩)
      (minus : NumberPart.next .minus c = some part) (more : run ⟨.number part, p⟩ rest = some ⟨.number part, p⟩) :
      run ⟨.between, p⟩ (sign ++ c :: rest) = some ⟨.number part, p⟩ := by
    rcases signed with rfl | rfl
    · rw [List.nil_append, run_cons]
      change (stepBetween p c).bind _ = _
      rw [between, Option.bind_some, more]
    · have negative : step ⟨.between, p⟩ '-' = some ⟨.number .minus, p⟩ := rfl
      have read : step ⟨.number .minus, p⟩ c = some ⟨.number part, p⟩ := by simp [step, minus]
      rw [List.singleton_append, run_cons, negative, Option.bind_some, run_cons, read, Option.bind_some, more]
  by_cases zero : c = '0'
  · subst zero
    obtain rfl : rest = [] := leading.zero rfl
    exact ⟨.zero, .inl rfl, reads .zero rfl rfl rfl⟩
  · refine ⟨.int, .inr rfl, reads .int ?_ ?_ (run_digits (fun d digit => by simp [NumberPart.next, digit]) others)⟩
    · have apart : c ≠ ' ' ∧ c ≠ '\t' ∧ c ≠ '\n' ∧ c ≠ '\r' ∧ c ≠ '"' ∧ c ≠ '-' := by
        refine ⟨?_, ?_, ?_, ?_, ?_, ?_⟩ <;> exact ne_of_isDigit first (by decide)
      simp [stepBetween, apart, zero, first]
    · simp [NumberPart.next, zero, first]

theorem run_fraction {part : NumberPart} (whole : part = .zero ∨ part = .int) {digits : List Char}
    (some_ : digits ≠ []) (all : ∀ c ∈ digits, c.isDigit) :
    run ⟨.number part, p⟩ ('.' :: digits) = some ⟨.number .fraction, p⟩ := by
  have point : step ⟨.number part, p⟩ '.' = some ⟨.number .point, p⟩ := by
    rcases whole with rfl | rfl <;> rfl
  rw [run_cons, point, Option.bind_some]
  exact run_digits_of_next (fun c digit => by simp [NumberPart.next, digit])
    (fun c digit => by simp [NumberPart.next, digit]) some_ all

theorem run_exponent {part : NumberPart} (ends : part = .zero ∨ part = .int ∨ part = .fraction) {sign : Char}
    (signed : sign = '+' ∨ sign = '-') {digits : List Char} (some_ : digits ≠ []) (all : ∀ c ∈ digits, c.isDigit) :
    run ⟨.number part, p⟩ ('e' :: sign :: digits) = some ⟨.number .power, p⟩ := by
  have exponent : step ⟨.number part, p⟩ 'e' = some ⟨.number .exponent, p⟩ := by
    rcases ends with rfl | rfl | rfl <;> rfl
  have power : step ⟨.number .exponent, p⟩ sign = some ⟨.number .sign, p⟩ := by
    rcases signed with rfl | rfl <;> rfl
  rw [run_cons, exponent, Option.bind_some, run_cons, power, Option.bind_some]
  exact run_digits_of_next (fun c digit => by simp [NumberPart.next, digit])
    (fun c digit => by simp [NumberPart.next, digit]) some_ all

/-- The text of an integer is a number. -/
theorem run_encodeInt (p : Parser) (n : ℤ) :
    ∃ part, part.final = true ∧ run ⟨.between, p⟩ (encodeInt n) = some ⟨.number part, p⟩ := by
  have split : ∃ sign, (sign = [] ∨ sign = ['-']) ∧ encodeInt n = sign ++ Nat.toDigits 10 n.natAbs := by
    rw [encodeInt, Int.toList_toString, Nat.toList_toString]
    by_cases negative : n < 0
    · exact ⟨['-'], .inr rfl, if_pos negative⟩
    · exact ⟨[], .inl rfl, if_neg negative⟩
  obtain ⟨sign, signed, text⟩ := split
  obtain ⟨part, whole, ran⟩ := run_leading p (leading_toDigits n.natAbs) signed
  refine ⟨part, ?_, text ▸ ran⟩
  rcases whole with rfl | rfl <;> rfl

/-- The text of a float is a number. -/
theorem run_encodeFloat (p : Parser) (negative : Bool) (q : ℚ) :
    ∃ part, part.final = true ∧ run ⟨.between, p⟩ (encodeFloat negative q) = some ⟨.number part, p⟩ := by
  have signed : (if negative then ['-'] else []) = [] ∨ (if negative then ['-'] else []) = ['-'] := by
    split
    · exact .inr rfl
    · exact .inl rfl
  have digit {n : ℕ} {c : Char} : c ∈ Nat.toDigits 10 n → c.isDigit :=
    Nat.isDigit_of_mem_toDigits (by decide) (by decide)
  rw [encodeFloat]
  rcases shortestDecimal q with ⟨coefficient, d⟩
  dsimp only
  split
  · obtain ⟨part, whole, ran⟩ := run_leading p (leading_take_one (leading_toDigits coefficient)) signed
    have sign : (if ((Nat.toDigits 10 coefficient).length : ℤ) - 1 - d < 0 then '-' else '+') = '+' ∨
        (if ((Nat.toDigits 10 coefficient).length : ℤ) - 1 - d < 0 then '-' else '+') = '-' := by
      split
      · exact .inr rfl
      · exact .inl rfl
    refine ⟨.power, rfl, ?_⟩
    rw [run_append, run_append, ran, Option.bind_some]
    split
    · rw [run_nil, Option.bind_some]
      exact run_exponent (whole.imp_right .inl) sign Nat.toDigits_ne_nil fun c => digit
    · next some_ =>
      have inner : ∀ c ∈ trimZeros (Nat.toDigits 10 coefficient).tail, c.isDigit := by
        intro c member
        rw [trimZeros, List.mem_reverse] at member
        exact digit (List.mem_of_mem_tail (List.mem_reverse.mp ((List.dropWhile_sublist _).subset member)))
      rw [run_fraction whole some_ inner, Option.bind_some]
      exact run_exponent (.inr (.inr rfl)) sign Nat.toDigits_ne_nil fun c => digit
  · obtain ⟨part, whole, ran⟩ := run_leading p (leading_toDigits (coefficient / 10 ^ d)) signed
    rw [run_append, ran, Option.bind_some]
    split
    · refine ⟨part, ?_, rfl⟩
      rcases whole with rfl | rfl <;> rfl
    · refine ⟨.fraction, rfl, ?_⟩
      rw [List.cons_append]
      refine run_fraction whole (by simp [Nat.toDigits_ne_nil]) fun c member => ?_
      rcases List.mem_append.mp member with zero | ofFraction
      · rw [(List.mem_replicate.mp zero).2]
        decide
      · exact digit ofFraction

/-- The value has no string with the byte 0. -/
def Clean : Value → Prop
  | .string bytes => 0 ∉ bytes
  | _ => True

/-- A value that is due is read up to its end, unless it is a string with the byte 0. -/
theorem run_encode (takes : p.takesValue) {value : Value} (clean : Clean value) :
    ∃ s, run ⟨.between, p⟩ value.encode = some s ∧ s.Ends p.stack := by
  cases value with
  | int n =>
    obtain ⟨part, last, ran⟩ := run_encodeInt p n
    exact ⟨_, ran, ends_number last takes⟩
  | float negative magnitude =>
    obtain ⟨part, last, ran⟩ := run_encodeFloat p negative magnitude.value
    exact ⟨_, ran, ends_number last takes⟩
  | string bytes =>
    refine ⟨⟨.between, ⟨.more, p.stack⟩⟩, ?_, ends_between _⟩
    rw [Value.encode, run_quote, if_neg (nul_mem_runes.not.mpr clean), feed, Parser.feed, if_pos takes]
    rfl

theorem run_encode_of_not_clean {value : Value} (nul : ¬ Clean value) : run ⟨.between, p⟩ value.encode = none := by
  cases value with
  | int n => exact absurd trivial nul
  | float => exact absurd trivial nul
  | string bytes => rw [Value.encode, run_quote, if_pos (nul_mem_runes.mpr (not_not.mp nul))]

/-- The parts between two delimiters: each is read where one is due, or refused. -/
structure Reads {α : Type} (first later : Expect) (stack : List Container) (text : α → List Char) (good : α → Prop) :
    Prop where
  comma : Parser.feed ⟨.more, stack⟩ .comma = some ⟨later, stack⟩
  reads : ∀ expect, expect = first ∨ expect = later → ∀ a, good a →
    ∃ s, run ⟨.between, ⟨expect, stack⟩⟩ (text a) = some s ∧ s.Ends stack
  refuses : ∀ expect, expect = first ∨ expect = later → ∀ a, ¬ good a →
    run ⟨.between, ⟨expect, stack⟩⟩ (text a) = none

variable {α : Type} {first later expect : Expect} {stack : List Container} {text : α → List Char} {good : α → Prop}

theorem Reads.step_comma (parts : Reads first later stack text good) {s : Reader} (ends : s.Ends stack) :
    s.step ',' = some ⟨.between, ⟨later, stack⟩⟩ := by
  rw [ends ',' (by simp)]
  change feed ⟨.more, stack⟩ .comma = _
  rw [feed, parts.comma]
  rfl

/-- Parts that are separated by commas are read up to the end of the last one. -/
theorem Reads.run_intercalate (parts : Reads first later stack text good)
    (due : expect = first ∨ expect = later) {l : List α} (some_ : l ≠ []) (all : ∀ a ∈ l, good a) :
    ∃ s, run ⟨.between, ⟨expect, stack⟩⟩ ([','].intercalate (l.map text)) = some s ∧ s.Ends stack := by
  induction l generalizing expect with
  | nil => exact absurd rfl some_
  | cons a l ih =>
    obtain ⟨here, others⟩ := List.forall_mem_cons.mp all
    obtain ⟨s, ran, ends⟩ := parts.reads expect due a here
    cases l with
    | nil => exact ⟨s, by simpa using ran, ends⟩
    | cons b l =>
      obtain ⟨t, rest, last⟩ := ih (.inr rfl) (List.cons_ne_nil _ _) others
      refine ⟨t, ?_, last⟩
      rw [List.map_cons, List.map_cons, List.intercalate_cons_cons, run_append, run_append, ran, Option.bind_some,
        run_cons, parts.step_comma ends, Option.bind_some, run_nil, Option.bind_some]
      exact rest

theorem Reads.run_intercalate_of_not (parts : Reads first later stack text good)
    (due : expect = first ∨ expect = later) {l : List α} (bad : ¬ ∀ a ∈ l, good a) :
    run ⟨.between, ⟨expect, stack⟩⟩ ([','].intercalate (l.map text)) = none := by
  induction l generalizing expect with
  | nil => exact absurd (List.forall_mem_nil _) bad
  | cons a l ih =>
    rw [List.forall_mem_cons, not_and_or] at bad
    by_cases here : good a
    · obtain ⟨s, ran, ends⟩ := parts.reads expect due a here
      have later_ := bad.resolve_left (not_not.mpr here)
      cases l with
      | nil => exact absurd (List.forall_mem_nil _) later_
      | cons b l =>
        rw [List.map_cons, List.map_cons, List.intercalate_cons_cons, run_append, run_append, ran, Option.bind_some,
          run_cons, parts.step_comma ends, Option.bind_some, run_nil, Option.bind_some]
        exact ih (.inr rfl) later_
    · have refused := parts.refuses expect due a here
      cases l with
      | nil => simpa using refused
      | cons b l =>
        rw [List.map_cons, List.map_cons, List.intercalate_cons_cons, run_append, run_append, refused]
        rfl

/-- A container is read with its parts, or refused with one of them. -/
theorem Reads.run_enclose {container : Container} {opening closing : Char}
    (parts : Reads first later (container :: p.stack) text good)
    (opens : step ⟨.between, p⟩ opening = some ⟨.between, ⟨first, container :: p.stack⟩⟩)
    (delimits : closing ∈ [',', ']', '}'])
    (closes : ∀ expect, expect = first ∨ expect = .more →
      stepBetween ⟨expect, container :: p.stack⟩ closing = some ⟨.between, ⟨.more, p.stack⟩⟩) {l : List α} :
    ((∀ a ∈ l, good a) → run ⟨.between, p⟩ (enclose opening closing (l.map text)) =
        some ⟨.between, ⟨.more, p.stack⟩⟩) ∧
      ((¬ ∀ a ∈ l, good a) → run ⟨.between, p⟩ (enclose opening closing (l.map text)) = none) := by
  have inside : run ⟨.between, p⟩ (enclose opening closing (l.map text)) =
      (run ⟨.between, ⟨first, container :: p.stack⟩⟩ ([','].intercalate (l.map text))).bind (run · [closing]) := by
    rw [enclose, List.cons_append, run_cons, opens, Option.bind_some, run_append]
  rw [inside]
  constructor
  · intro all
    by_cases none : l = []
    · subst none
      rw [List.map_nil, List.intercalate_nil, run_nil, Option.bind_some, run_cons]
      change (stepBetween _ closing).bind _ = _
      rw [closes first (.inl rfl)]
      rfl
    · obtain ⟨s, ran, ends⟩ := parts.run_intercalate (.inl rfl) none all
      rw [ran, Option.bind_some, run_cons, ends closing delimits, closes .more (.inr rfl)]
      rfl
  · intro bad
    rw [parts.run_intercalate_of_not (.inl rfl) bad]
    rfl

/-- Neither the name nor the value of a member has a NUL. -/
def CleanMember (member : String × Value) : Prop := '\x00' ∉ member.1.toList ∧ Clean member.2

/-- A member is read where a key is due. -/
theorem reads_encodeMember (stack : List Container) :
    Reads .member .key (.object :: stack) encodeMember CleanMember := by
  have named {name : String} : some '\x00' ∈ name.toList.map some ↔ '\x00' ∈ name.toList := by simp
  have colon {expect : Expect} (due : expect = .member ∨ expect = .key) {name : String}
      (clean : '\x00' ∉ name.toList) (rest : List Char) :
      run ⟨.between, ⟨expect, .object :: stack⟩⟩ (quote (name.toList.map some) ++ ':' :: rest) =
        run ⟨.between, ⟨.value, .object :: stack⟩⟩ rest := by
    rw [run_append, run_quote, if_neg (named.not.mpr clean)]
    rcases due with rfl | rfl <;> rfl
  refine ⟨rfl, fun expect due member clean => ?_, fun expect due member nul => ?_⟩
  · rw [encodeMember, colon due clean.1]
    exact run_encode rfl clean.2
  · by_cases clean : '\x00' ∈ member.1.toList
    · rw [encodeMember, run_append, run_quote, if_pos (named.mpr clean)]
      rfl
    · rw [encodeMember, colon due clean]
      exact run_encode_of_not_clean fun value => nul ⟨clean, value⟩

/-- A struct is read where a value is due. -/
theorem reads_encodeStruct (stack : List Container) :
    Reads .element .value (.array :: stack) encodeStruct (∀ member ∈ ·, CleanMember member) := by
  have struct {expect : Expect} (due : expect = .element ∨ expect = .value) (struct : Struct) :=
    @Reads.run_enclose ⟨expect, .array :: stack⟩ _ _ _ _ _ .object '{' '}' (reads_encodeMember (.array :: stack))
      (by rcases due with rfl | rfl <;> rfl) (by simp) (by rintro _ (rfl | rfl) <;> rfl) struct
  refine ⟨rfl, fun expect due fields clean => ?_, fun expect due fields nul => ?_⟩
  · exact ⟨_, (struct due fields).1 clean, ends_between _⟩
  · exact (struct due fields).2 nul

end Reader

/-- `jsonb` accepts the text of a slice of structs exactly if no string in it has the byte 0. -/
theorem acceptsJsonb_marshal_iff {structs : List Struct} :
    acceptsJsonb (marshal structs) ↔ ∀ struct ∈ structs, ∀ member ∈ struct, Reader.CleanMember member := by
  have slice := @Reader.Reads.run_enclose .start _ _ _ _ _ .array '[' ']' (Reader.reads_encodeStruct []) rfl (by simp)
    (by rintro _ (rfl | rfl) <;> rfl) structs
  rw [acceptsJsonb]
  by_cases clean : ∀ struct ∈ structs, ∀ member ∈ struct, Reader.CleanMember member
  · rw [marshal, slice.1 clean]
    exact iff_of_true rfl clean
  · rw [marshal, slice.2 clean]
    exact iff_of_false (by decide) clean

end Json
