import JudgeSelf.ToMathlib.Decimal
import Mathlib.Data.List.Basic

/-! # Texts that `jsonb` accepts

The input function of PostgreSQL's `jsonb` as a machine that reads a text character by character: a
lexer in front of a parser with a stack of open containers. Escapes are resolved while a string is
read, and `\u0000` and unpaired surrogates are refused there.
-/

namespace Json

inductive Token
  | string
  /-- A number, `true`, `false` or `null`. -/
  | scalar
  | openArray
  | closeArray
  | openObject
  | closeObject
  | colon
  | comma
deriving DecidableEq, Repr

inductive Container
  | array
  | object
deriving DecidableEq, Repr

/-- What may come next. -/
inductive Expect
  | value
  /-- A first element or the end of the array. -/
  | element
  /-- A first key or the end of the object. -/
  | member
  | key
  | colon
  /-- A value is complete. -/
  | more
deriving DecidableEq, Repr

structure Parser where
  expect : Expect
  stack : List Container
deriving DecidableEq, Repr

namespace Parser

def start : Parser := ⟨.value, []⟩

def done (p : Parser) : Bool := p.expect = .more ∧ p.stack = []

/-- A value may start here. -/
def takesValue (p : Parser) : Bool := p.expect = .value ∨ p.expect = .element

def feed (p : Parser) : Token → Option Parser
  | .string =>
    if p.takesValue then some ⟨.more, p.stack⟩
    else if p.expect = .member ∨ p.expect = .key then some ⟨.colon, p.stack⟩
    else none
  | .scalar => if p.takesValue then some ⟨.more, p.stack⟩ else none
  | .openArray => if p.takesValue then some ⟨.element, .array :: p.stack⟩ else none
  | .openObject => if p.takesValue then some ⟨.member, .object :: p.stack⟩ else none
  | .closeArray =>
    match p.stack with
    | .array :: stack => if p.expect = .element ∨ p.expect = .more then some ⟨.more, stack⟩ else none
    | _ => none
  | .closeObject =>
    match p.stack with
    | .object :: stack => if p.expect = .member ∨ p.expect = .more then some ⟨.more, stack⟩ else none
    | _ => none
  | .colon => if p.expect = .colon then some ⟨.value, p.stack⟩ else none
  | .comma =>
    match p.expect, p.stack with
    | .more, .array :: _ => some ⟨.value, p.stack⟩
    | .more, .object :: _ => some ⟨.key, p.stack⟩
    | _, _ => none

end Parser

/-- Where the lexer is in a number. -/
inductive NumberPart
  | minus
  | zero
  | int
  | point
  | fraction
  | exponent
  | sign
  | power
deriving DecidableEq, Repr

namespace NumberPart

def next : NumberPart → Char → Option NumberPart
  | .minus, c => if c = '0' then some .zero else if c.isDigit then some .int else none
  | .zero, c => if c = '.' then some .point else if c = 'e' ∨ c = 'E' then some .exponent else none
  | .int, c =>
    if c.isDigit then some .int
    else if c = '.' then some .point else if c = 'e' ∨ c = 'E' then some .exponent else none
  | .point, c => if c.isDigit then some .fraction else none
  | .fraction, c => if c.isDigit then some .fraction else if c = 'e' ∨ c = 'E' then some .exponent else none
  | .exponent, c => if c = '+' ∨ c = '-' then some .sign else if c.isDigit then some .power else none
  | .sign, c => if c.isDigit then some .power else none
  | .power, c => if c.isDigit then some .power else none

/-- The number may end here. -/
def final : NumberPart → Bool
  | .zero | .int | .fraction | .power => true
  | _ => false

end NumberPart

inductive Lexer
  | between
  | string
  /-- After a backslash. -/
  | escape
  /-- In the digits of `\u`; `paired` behind a high surrogate. -/
  | unicode (paired : Bool) (read code : ℕ)
  /-- After a high surrogate, whose partner starts with a backslash and a `u`. -/
  | partner
  | partnerEscape
  | number (part : NumberPart)
  /-- In `true`, `false` or `null`. -/
  | literal (rest : List Char)
deriving DecidableEq, Repr

structure Reader where
  lexer : Lexer
  parser : Parser
deriving DecidableEq, Repr

/-- The value of a hexadecimal digit. -/
def hexValue (c : Char) : Option ℕ :=
  if '0' ≤ c ∧ c ≤ '9' then some (c.toNat - '0'.toNat)
  else if 'a' ≤ c ∧ c ≤ 'f' then some (c.toNat - 'a'.toNat + 10)
  else if 'A' ≤ c ∧ c ≤ 'F' then some (c.toNat - 'A'.toNat + 10)
  else none

namespace Reader

/-- A token is complete, and the lexer is between tokens again. -/
def feed (parser : Parser) (token : Token) : Option Reader := (parser.feed token).map (⟨.between, ·⟩)

def punctuation : Char → Option Token
  | '[' => some .openArray
  | ']' => some .closeArray
  | '{' => some .openObject
  | '}' => some .closeObject
  | ':' => some .colon
  | ',' => some .comma
  | _ => none

/-- A character between tokens. -/
def stepBetween (parser : Parser) (c : Char) : Option Reader :=
  if c = ' ' ∨ c = '\t' ∨ c = '\n' ∨ c = '\r' then some ⟨.between, parser⟩
  else if c = '"' then some ⟨.string, parser⟩
  else if c = '-' then some ⟨.number .minus, parser⟩
  else if c = '0' then some ⟨.number .zero, parser⟩
  else if c.isDigit then some ⟨.number .int, parser⟩
  else if c = 't' then some ⟨.literal ['r', 'u', 'e'], parser⟩
  else if c = 'f' then some ⟨.literal ['a', 'l', 's', 'e'], parser⟩
  else if c = 'n' then some ⟨.literal ['u', 'l', 'l'], parser⟩
  else (punctuation c).bind (feed parser)

/-- The fourth digit of `\u` is read: where the lexer goes on with the code. -/
def resolve (paired : Bool) (code : ℕ) : Option Lexer :=
  if paired then if 0xDC00 ≤ code ∧ code < 0xE000 then some .string else none
  else if code = 0 then none
  else if 0xD800 ≤ code ∧ code < 0xDC00 then some .partner
  else if 0xDC00 ≤ code ∧ code < 0xE000 then none
  else some .string

def step (s : Reader) (c : Char) : Option Reader :=
  match s.lexer with
  | .between => stepBetween s.parser c
  | .string =>
    if c = '"' then feed s.parser .string
    else if c = '\\' then some ⟨.escape, s.parser⟩
    else if c.toNat < 32 then none
    else some s
  | .escape =>
    if c = 'u' then some ⟨.unicode false 0 0, s.parser⟩
    else if c ∈ ['"', '\\', '/', 'b', 'f', 'n', 'r', 't'] then some ⟨.string, s.parser⟩
    else none
  | .unicode paired read code => do
    let digit ← hexValue c
    if read < 3 then some ⟨.unicode paired (read + 1) (16 * code + digit), s.parser⟩
    else (resolve paired (16 * code + digit)).map (⟨·, s.parser⟩)
  | .partner => if c = '\\' then some ⟨.partnerEscape, s.parser⟩ else none
  | .partnerEscape => if c = 'u' then some ⟨.unicode true 0 0, s.parser⟩ else none
  | .number part =>
    match part.next c with
    | some part => some ⟨.number part, s.parser⟩
    | none => if part.final then (s.parser.feed .scalar).bind (stepBetween · c) else none
  | .literal [] => none
  | .literal [last] => if c = last then feed s.parser .scalar else none
  | .literal (first :: rest) => if c = first then some ⟨.literal rest, s.parser⟩ else none

/-- The text may end here. -/
def final (s : Reader) : Bool :=
  match s.lexer with
  | .between => s.parser.done
  | .number part => part.final && ((s.parser.feed .scalar).map Parser.done).getD false
  | _ => false

def run (s : Reader) (text : List Char) : Option Reader := text.foldlM step s

end Reader

/-- `jsonb` accepts the text. -/
def acceptsJsonb (text : List Char) : Bool := ((Reader.run ⟨.between, .start⟩ text).map Reader.final).getD false

example : acceptsJsonb "[\x7b\"a\": -1.5e+3, \"b\": [true, null]\x7d, \"\\ud83d\\ude00\"]".toList := by decide +kernel

example : ¬ acceptsJsonb "[\"\\u0000\"]".toList ∧ ¬ acceptsJsonb "[\"\\ud83d\"]".toList ∧
    ¬ acceptsJsonb "[01]".toList ∧ ¬ acceptsJsonb "[1,]".toList ∧ ¬ acceptsJsonb "\x7b\"a\" 1\x7d".toList := by
  decide +kernel

namespace Reader

variable {s t : Reader} {text : List Char}

theorem run_append (s : Reader) (text rest : List Char) : s.run (text ++ rest) = (s.run text).bind (run · rest) :=
  List.foldlM_append

theorem run_cons (s : Reader) (c : Char) (text : List Char) : s.run (c :: text) = (s.step c).bind (run · text) :=
  List.foldlM_cons

@[simp] theorem run_nil (s : Reader) : s.run [] = some s := rfl

/-- A reader that goes on as if it were between tokens, with the value read. -/
def Ends (s : Reader) (stack : List Container) : Prop :=
  ∀ c ∈ [',', ']', '}'], s.step c = stepBetween ⟨.more, stack⟩ c

theorem ends_between (stack : List Container) : Ends ⟨.between, ⟨.more, stack⟩⟩ stack := fun _ _ => rfl

/-- A number that may end ends at a delimiter. -/
theorem ends_number {part : NumberPart} (last : part.final) {parser : Parser} (takes : parser.takesValue) :
    Ends ⟨.number part, parser⟩ parser.stack := by
  have fed : parser.feed .scalar = some ⟨.more, parser.stack⟩ := by rw [Parser.feed, if_pos takes]
  intro c delimiter
  have stops : part.next c = none := by
    cases part with
    | minus | point | exponent | sign => cases last
    | zero | int | fraction | power =>
      simp only [List.mem_cons, List.not_mem_nil, or_false] at delimiter
      rcases delimiter with rfl | rfl | rfl <;> rfl
  simp only [step, stops, last, fed, ↓reduceIte, Option.bind_some]

end Reader

end Json
