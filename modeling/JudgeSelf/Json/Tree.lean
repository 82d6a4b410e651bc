import JudgeSelf.Json.Marshal

/-! # JSON values and their texts

A reader builds the value of a text character by character: a scanner in front of a builder with a stack of open
containers. A printer is given by what it writes for the characters of a string. The reader follows the grammar;
it takes no escape of a surrogate without a partner, which is no character.
-/

namespace Json

namespace NumberPart

def start (c : Char) : Option NumberPart :=
  if c = '-' then some .minus else if c = '0' then some .zero else if c.isDigit then some .int else none

/-- Where a text stands in a number. -/
def scan : List Char → Option NumberPart
  | [] => none
  | c :: rest => (start c).bind fun part => rest.foldlM next part

end NumberPart

/-- The text of a number. -/
structure Literal where
  text : List Char
  valid : (NumberPart.scan text).any NumberPart.final = true

inductive Tree
  | null
  | bool (value : Bool)
  | number (literal : Literal)
  | string (value : String)
  | array (elements : List Tree)
  | object (members : List (String × Tree))

/-- What holds of a value if it holds of its parts. -/
theorem Tree.ind {P : Tree → Prop} (null : P .null) (bool : ∀ b, P (.bool b)) (number : ∀ l, P (.number l))
    (string : ∀ s, P (.string s)) (array : ∀ es, (∀ v ∈ es, P v) → P (.array es))
    (object : ∀ ms, (∀ m ∈ ms, P m.2) → P (.object ms)) (v : Tree) : P v := by
  refine @Tree.rec P (fun es => ∀ v ∈ es, P v) (fun ms => ∀ m ∈ ms, P m.2) (fun m => P m.2) null bool number string
    array object ?_ ?_ ?_ ?_ ?_ v
  · exact List.forall_mem_nil _
  · exact fun v es here rest => List.forall_mem_cons.mpr ⟨here, rest⟩
  · exact List.forall_mem_nil _
  · exact fun m ms here rest => List.forall_mem_cons.mpr ⟨here, rest⟩
  · exact fun key v here => here

/-- An open container: the parts that are complete, and the key of the next one. -/
inductive Frame
  | array (elements : List Tree)
  | object (members : List (String × Tree)) (key : String)

/-- What has been read, and what may come next. -/
inductive Builder
  | value (stack : List Frame)
  /-- A first element or the end of the array. -/
  | element (stack : List Frame)
  /-- A first key or the end of the object. -/
  | member (stack : List Frame)
  | key (members : List (String × Tree)) (stack : List Frame)
  | colon (members : List (String × Tree)) (key : String) (stack : List Frame)
  /-- The last element is complete. -/
  | inArray (elements : List Tree) (stack : List Frame)
  | inObject (members : List (String × Tree)) (stack : List Frame)
  | done (value : Tree)

inductive Lexeme
  | string (value : String)
  | scalar (value : Tree)
  | mark (token : Token)

namespace Builder

/-- A value is complete. -/
def deliver (v : Tree) : List Frame → Builder
  | [] => .done v
  | .array elements :: stack => .inArray (elements ++ [v]) stack
  | .object members name :: stack => .inObject (members ++ [(name, v)]) stack

/-- A lexeme where a value is due. -/
def begin (stack : List Frame) : Lexeme → Option Builder
  | .string s => some (deliver (.string s) stack)
  | .scalar v => some (deliver v stack)
  | .mark .openArray => some (.element stack)
  | .mark .openObject => some (.member stack)
  | .mark _ => none

def feed : Builder → Lexeme → Option Builder
  | .value stack, lexeme => begin stack lexeme
  | .element stack, .mark .closeArray => some (deliver (.array []) stack)
  | .element stack, lexeme => begin (.array [] :: stack) lexeme
  | .member stack, .mark .closeObject => some (deliver (.object []) stack)
  | .member stack, .string name => some (.colon [] name stack)
  | .key members stack, .string name => some (.colon members name stack)
  | .colon members name stack, .mark .colon => some (.value (.object members name :: stack))
  | .inArray elements stack, .mark .comma => some (.value (.array elements :: stack))
  | .inArray elements stack, .mark .closeArray => some (deliver (.array elements) stack)
  | .inObject members stack, .mark .comma => some (.key members stack)
  | .inObject members stack, .mark .closeObject => some (deliver (.object members) stack)
  | _, _ => none

def result : Builder → Option Tree
  | .done v => some v
  | _ => none

end Builder

inductive Scanner
  | between
  | string (read : List Char)
  /-- After a backslash. -/
  | escape (read : List Char)
  /-- In the digits of `\u`, behind a high surrogate or not. -/
  | unicode (read : List Char) (high : Option ℕ) (digits code : ℕ)
  | partner (read : List Char) (high : ℕ)
  | partnerEscape (read : List Char) (high : ℕ)
  | number (read : List Char)
  /-- In `true`, `false` or `null`. -/
  | literal (rest : List Char) (value : Tree)

structure TreeReader where
  scanner : Scanner
  builder : Builder

/-- The character that a backslash and a letter stand for. -/
def unescape : Char → Option Char
  | '"' => some '"'
  | '\\' => some '\\'
  | '/' => some '/'
  | 'b' => some '\x08'
  | 'f' => some '\x0c'
  | 'n' => some '\n'
  | 'r' => some '\r'
  | 't' => some '\t'
  | _ => none

/-- The four digits of `\u` are read. -/
def Scanner.ofCode (read : List Char) (high : Option ℕ) (code : ℕ) : Option Scanner :=
  match high with
  | none =>
    if 0xD800 ≤ code ∧ code < 0xDC00 then some (.partner read code)
    else if 0xDC00 ≤ code ∧ code < 0xE000 then none
    else some (.string (read ++ [Char.ofNat code]))
  | some high =>
    if 0xDC00 ≤ code ∧ code < 0xE000 then
      some (.string (read ++ [Char.ofNat (0x10000 + (high - 0xD800) * 0x400 + (code - 0xDC00))]))
    else none

namespace TreeReader

/-- A lexeme is complete, and the scanner is between lexemes again. -/
def feed (builder : Builder) (lexeme : Lexeme) : Option TreeReader := (builder.feed lexeme).map (⟨.between, ·⟩)

def stepBetween (builder : Builder) (c : Char) : Option TreeReader :=
  if c = ' ' ∨ c = '\t' ∨ c = '\n' ∨ c = '\r' then some ⟨.between, builder⟩
  else if c = '"' then some ⟨.string [], builder⟩
  else if (NumberPart.start c).isSome then some ⟨.number [c], builder⟩
  else if c = 't' then some ⟨.literal ['r', 'u', 'e'] (.bool true), builder⟩
  else if c = 'f' then some ⟨.literal ['a', 'l', 's', 'e'] (.bool false), builder⟩
  else if c = 'n' then some ⟨.literal ['u', 'l', 'l'] .null, builder⟩
  else (Reader.punctuation c).bind fun token => feed builder (.mark token)

/-- The number that was read is complete. -/
def endNumber (read : List Char) (builder : Builder) : Option Builder :=
  if valid : (NumberPart.scan read).any NumberPart.final = true then builder.feed (.scalar (.number ⟨read, valid⟩))
  else none

def step (s : TreeReader) (c : Char) : Option TreeReader :=
  match s.scanner with
  | .between => stepBetween s.builder c
  | .string read =>
    if c = '"' then feed s.builder (.string (String.ofList read))
    else if c = '\\' then some ⟨.escape read, s.builder⟩
    else if c.toNat < 32 then none
    else some ⟨.string (read ++ [c]), s.builder⟩
  | .escape read =>
    if c = 'u' then some ⟨.unicode read none 0 0, s.builder⟩
    else (unescape c).map fun c => ⟨.string (read ++ [c]), s.builder⟩
  | .unicode read high digits code => do
    let digit ← hexValue c
    if digits < 3 then some ⟨.unicode read high (digits + 1) (16 * code + digit), s.builder⟩
    else (Scanner.ofCode read high (16 * code + digit)).map (⟨·, s.builder⟩)
  | .partner read high => if c = '\\' then some ⟨.partnerEscape read high, s.builder⟩ else none
  | .partnerEscape read high => if c = 'u' then some ⟨.unicode read (some high) 0 0, s.builder⟩ else none
  | .number read =>
    if (NumberPart.scan (read ++ [c])).isSome then some ⟨.number (read ++ [c]), s.builder⟩
    else (endNumber read s.builder).bind (stepBetween · c)
  | .literal [] _ => none
  | .literal [last] value => if c = last then feed s.builder (.scalar value) else none
  | .literal (first :: rest) value => if c = first then some ⟨.literal rest value, s.builder⟩ else none

/-- The value, if the text may end here. -/
def final (s : TreeReader) : Option Tree :=
  match s.scanner with
  | .between => s.builder.result
  | .number read => (endNumber read s.builder).bind Builder.result
  | _ => none

def run (s : TreeReader) (text : List Char) : Option TreeReader := text.foldlM step s

end TreeReader

/-- The value of a text. -/
def read (text : List Char) : Option Tree := (TreeReader.run ⟨.between, .value []⟩ text).bind TreeReader.final

/-- What a printer writes for the characters of a string, such that a reader reads that character. -/
structure Escape where
  text : Char → List Char
  reads : ∀ builder read c,
    TreeReader.run ⟨.string read, builder⟩ (text c) = some ⟨.string (read ++ [c]), builder⟩

def Escape.quote (escape : Escape) (s : String) : List Char := '"' :: s.toList.flatMap escape.text ++ ['"']

mutual

def Tree.print (escape : Escape) : Tree → List Char
  | .null => ['n', 'u', 'l', 'l']
  | .bool true => ['t', 'r', 'u', 'e']
  | .bool false => ['f', 'a', 'l', 's', 'e']
  | .number literal => literal.text
  | .string value => escape.quote value
  | .array elements => enclose '[' ']' (printElements escape elements)
  | .object members => enclose '{' '}' (printMembers escape members)

def Tree.printElements (escape : Escape) : List Tree → List (List Char)
  | [] => []
  | value :: rest => value.print escape :: printElements escape rest

def Tree.printMembers (escape : Escape) : List (String × Tree) → List (List Char)
  | [] => []
  | member :: rest => printMember escape member :: printMembers escape rest

def Tree.printMember (escape : Escape) : String × Tree → List Char
  | (key, value) => escape.quote key ++ ':' :: value.print escape

end

theorem Tree.printElements_eq_map (escape : Escape) (elements : List Tree) :
    printElements escape elements = elements.map (print escape) := by
  induction elements with
  | nil => rfl
  | cons value rest ih => rw [printElements, ih, List.map_cons]

theorem Tree.printMembers_eq_map (escape : Escape) (members : List (String × Tree)) :
    printMembers escape members = members.map (printMember escape) := by
  induction members with
  | nil => rfl
  | cons member rest ih => rw [printMembers, ih, List.map_cons]

end Json
