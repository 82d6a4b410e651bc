import JudgeSelf.Sql.Select
import JudgeSelf.ToMathlib.Arrangement
import JudgeSelf.ToMathlib.Decimal
import Mathlib.Data.List.GetD

/-! # Queries with numbered parameters, ordered and cut into pages

A query names its parameters by numbers from one on; each number up to the largest one has to be used, and
as many texts are supplied. Of rows with equal keys a query may return any first, another one each time it
runs: the arrangement is an argument of the run. `LIMIT` and `OFFSET` are integers of 64 bits.
-/

namespace Sql

inductive QueryError
  | select (error : Error)
  /-- `could not determine data type of parameter`. -/
  | indeterminateDatatype (parameter : ℕ)
  /-- `bind message supplies … parameters, but prepared statement requires …`. -/
  | protocolViolation (supplied required : ℕ)
  | invalidBigint (text : String)
  /-- `LIMIT must not be negative` or `OFFSET must not be negative`. -/
  | invalidRowCount (count : ℤ)
deriving DecidableEq, Repr

/-- Decimal digits with an optional sign, of 64 bits. -/
def readBigint (s : String) : Option ℤ :=
  let text := ((s.toList.dropWhile isSpace).reverse.dropWhile isSpace).reverse
  let sign : ℤ := if text.head? = some '-' then -1 else 1
  let digits := if text.head? = some '-' ∨ text.head? = some '+' then text.tail else text
  if digits ≠ [] ∧ digits.all Char.isDigit then
    let n : ℤ := sign * (Nat.ofDigitChars 10 digits 0 : ℕ)
    if -2 ^ 63 ≤ n ∧ n < 2 ^ 63 then some n else none
  else none

/-- `WHERE column = $n AND …`, with `LIMIT $n` and `OFFSET $n`. -/
structure Query (κ : Type) where
  conditions : List (κ × ℕ)
  limit : Option ℕ
  offset : Option ℕ
deriving DecidableEq, Repr

namespace Query

variable {κ ρ : Type}

def placeholders (query : Query κ) : List ℕ :=
  query.conditions.map Prod.snd ++ (query.limit.toList ++ query.offset.toList)

/-- The text of a parameter. -/
def parameter (params : List String) (n : ℕ) : String := params.getD (n - 1) ""

def bind (query : Query κ) (params : List String) : Except QueryError (List (Condition κ)) :=
  let required := query.placeholders.foldr max 0
  match (List.range' 1 required).find? (· ∉ query.placeholders) with
  | some n => throw (.indeterminateDatatype n)
  | none =>
    if params.length ≠ required then throw (.protocolViolation params.length required)
    else pure (query.conditions.map fun (column, n) => ⟨column, none, parameter params n⟩)

/-- The rows that a query selects. -/
def rows (query : Query κ) (table : Table κ ρ) (params : List String) (content : List ρ) :
    Except QueryError (List ρ) := do
  let conditions ← query.bind params
  (select table conditions content).mapError .select

/-- `SELECT COUNT(*)`. -/
def count (query : Query κ) (table : Table κ ρ) (params : List String) (content : List ρ) : Except QueryError ℕ :=
  List.length <$> query.rows table params content

def readRowCount (params : List String) (n : ℕ) : Except QueryError ℕ :=
  match readBigint (parameter params n) with
  | none => throw (.invalidBigint (parameter params n))
  | some count => if count < 0 then throw (.invalidRowCount count) else pure count.toNat

/-- `ORDER BY key DESC`, then the rows from the offset on, at most as many as the limit. -/
def run {β : Type*} [LinearOrder β] {key : ρ → β} (query : Query κ) (table : Table κ ρ)
    (order : List.Arrangement key) (params : List String) (content : List ρ) : Except QueryError (List ρ) := do
  let selected ← query.rows table params content
  let limit ← query.limit.mapM (readRowCount params)
  let offset ← query.offset.mapM (readRowCount params)
  let rest := (order.arrange selected).drop (offset.getD 0)
  pure ((limit.map rest.take).getD rest)

end Query

private theorem dropWhile_of_forall {α : Type*} {p : α → Bool} {l : List α} (none : ∀ a ∈ l, p a = false) :
    l.dropWhile p = l := by
  cases l with
  | nil => rfl
  | cons a l => rw [List.dropWhile_cons_of_neg (by simp [none a List.mem_cons_self])]

private theorem isSpace_of_isDigit {c : Char} (digit : c.isDigit) : isSpace c = false := by
  rw [isSpace, decide_eq_false_iff_not]
  intro space
  simp only [List.mem_cons, List.not_mem_nil, or_false] at space
  rcases space with rfl | rfl | rfl | rfl | rfl | rfl <;> exact absurd digit (by decide)

theorem readBigint_toString (n : ℕ) :
    readBigint (toString n) = if n < 2 ^ 63 then some (n : ℤ) else none := by
  have digits : ∀ c ∈ (toString n).toList, c.isDigit := fun c => Nat.isDigit_of_mem_toString
  have plain : (((toString n).toList.dropWhile isSpace).reverse.dropWhile isSpace).reverse = (toString n).toList := by
    rw [dropWhile_of_forall fun c member => isSpace_of_isDigit (digits c member), dropWhile_of_forall,
      List.reverse_reverse]
    intro c member
    exact isSpace_of_isDigit (digits c (List.mem_reverse.mp member))
  have unsigned : ∀ c, c.isDigit = false → (toString n).toList.head? ≠ some c := by
    intro c sign head
    rw [digits c (List.mem_of_mem_head? head)] at sign
    exact absurd sign (by decide)
  have written : (toString n).toList ≠ [] ∧ (toString n).toList.all Char.isDigit := by
    refine ⟨?_, List.all_eq_true.mpr digits⟩
    rw [Nat.toList_toString]
    exact Nat.toDigits_ne_nil
  simp only [readBigint, plain, unsigned '-' (by decide), unsigned '+' (by decide), or_self, ↓reduceIte, written,
    ne_eq, not_false_eq_true, and_self, one_mul]
  rw [Nat.toList_toString, Nat.ofDigitChars_ten_toDigits]
  have nonneg : -2 ^ 63 ≤ (n : ℤ) := by omega
  simp only [nonneg, true_and]
  norm_cast

theorem Query.readRowCount_eq_ok_iff {params : List String} {n count result : ℕ}
    (text : parameter params n = toString count) :
    readRowCount params n = .ok result ↔ count < 2 ^ 63 ∧ result = count := by
  rw [readRowCount, text, readBigint_toString]
  by_cases fits : count < 2 ^ 63
  · simp only [fits, ↓reduceIte, true_and]
    rw [if_neg (by omega)]
    simp [pure, Except.pure, eq_comm]
  · simp only [fits, ↓reduceIte, false_and, iff_false]
    exact Except.throw_ne_ok

section Select

variable {κ ρ : Type} {table : Table κ ρ}

/-- The row satisfies the condition; with a text that cannot be read none does. -/
def Condition.holds (table : Table κ ρ) (row : ρ) (condition : Condition κ) : Bool :=
  ((condition.parameterType table).read condition.parameter).any fun value =>
    table.value row condition.column = some value

theorem Condition.parameterType_of_uncast {c : Condition κ} (uncast : c.cast = none) :
    c.parameterType table = table.typeOf c.column := by
  rw [parameterType, uncast, Option.getD_none]

/-- Conditions that compare values of one type are accepted. -/
theorem forM_analyse_of_typed {conditions : List (Condition κ)}
    (typed : ∀ c ∈ conditions, c.parameterType table = table.typeOf c.column) :
    conditions.forM (Condition.analyse table) = .ok ⟨⟩ := by
  induction conditions with
  | nil => rfl
  | cons c conditions ih =>
    obtain ⟨first, rest⟩ := List.forall_mem_cons.mp typed
    have analysed : c.analyse table = .ok ⟨⟩ := if_pos first.symm
    exact Except.bind_eq_ok_iff.mpr ⟨⟨⟩, analysed, ih rest⟩

/-- A selection of one type in each condition succeeds if its texts can be read, and keeps the rows that satisfy
its conditions. -/
theorem select_eq_ok_iff {conditions : List (Condition κ)}
    (typed : ∀ c ∈ conditions, c.parameterType table = table.typeOf c.column) {content selected : List ρ} :
    select table conditions content = .ok selected ↔
      (∀ c ∈ conditions, ((table.typeOf c.column).read c.parameter).isSome) ∧
        selected = content.filter fun row => conditions.all (Condition.holds table row) := by
  let value (c : Condition κ) : κ × Value :=
    (c.column, ((table.typeOf c.column).read c.parameter).getD (.integer 0))
  have reads (c : Condition κ) (member : c ∈ conditions)
      (readable : ((table.typeOf c.column).read c.parameter).isSome) : c.read table = .ok (value c) := by
    obtain ⟨v, text⟩ := Option.isSome_iff_exists.mp readable
    simp only [Condition.read, typed c member, value, text]
    rfl
  have keeps (readable : ∀ c ∈ conditions, ((table.typeOf c.column).read c.parameter).isSome) (row : ρ) :
      ((conditions.map value).all fun e => table.value row e.1 = some e.2) =
        conditions.all (Condition.holds table row) := by
    rw [List.all_map, Bool.eq_iff_iff, List.all_eq_true, List.all_eq_true]
    refine forall₂_congr fun c member => ?_
    obtain ⟨v, text⟩ := Option.isSome_iff_exists.mp (readable c member)
    simp only [Function.comp_apply, value, Condition.holds, typed c member, text, Option.getD_some, Option.any_some]
  constructor
  · intro ran
    obtain ⟨⟨⟩, _, ran⟩ := Except.bind_eq_ok_iff.mp ran
    obtain ⟨values, read, ran⟩ := Except.bind_eq_ok_iff.mp ran
    have readable : ∀ c ∈ conditions, ((table.typeOf c.column).read c.parameter).isSome := by
      intro c member
      obtain ⟨v, one⟩ := Except.exists_eq_ok_of_mapM read member
      rw [Condition.read, typed c member] at one
      split at one
      · next v text => exact text ▸ rfl
      · exact absurd one Except.throw_ne_ok
    rw [Except.mapM_eq_ok_of_forall fun c member => reads c member (readable c member)] at read
    obtain rfl := Except.ok.inj read
    exact ⟨readable, (Except.ok.inj ran).symm.trans (List.filter_congr fun row _ => keeps readable row)⟩
  · rintro ⟨readable, rfl⟩
    refine Except.bind_eq_ok_iff.mpr ⟨⟨⟩, forM_analyse_of_typed typed,
      Except.bind_eq_ok_iff.mpr ⟨conditions.map value, ?_, ?_⟩⟩
    · exact Except.mapM_eq_ok_of_forall fun c member => reads c member (readable c member)
    · exact congrArg Except.ok (List.filter_congr fun row _ => keeps readable row)

/-- A selection with one condition compares its column with what its text reads as. -/
theorem select_singleton {condition : Condition κ} {value : Value}
    (typed : condition.parameterType table = table.typeOf condition.column)
    (read : (table.typeOf condition.column).read condition.parameter = some value) (content : List ρ) :
    select table [condition] content =
      .ok (content.filter fun row => table.value row condition.column = some value) := by
  refine (select_eq_ok_iff (List.forall_mem_singleton.mpr typed)).mpr ⟨?_, List.filter_congr fun row _ => ?_⟩
  · exact List.forall_mem_singleton.mpr (Option.isSome_of_eq_some read)
  · simp only [List.all_cons, List.all_nil, Bool.and_true, Condition.holds, typed, read, Option.any_some]

end Select

namespace Query

variable {κ ρ : Type} {table : Table κ ρ} {params : List String}

theorem mapError_eq_ok_iff {result : Except Error (List ρ)} {selected : List ρ} :
    result.mapError QueryError.select = .ok selected ↔ result = .ok selected := by
  cases result <;> simp [Except.mapError]

private theorem foldr_max_range' (n : ℕ) : (List.range' 1 n).foldr max 0 = n := by
  induction n with
  | zero => rfl
  | succ n ih =>
    have extend (l : List ℕ) (m : ℕ) : l.foldr max m = max (l.foldr max 0) m := by
      induction l with
      | nil => exact (Nat.zero_max m).symm
      | cons a l ih => rw [List.foldr_cons, List.foldr_cons, ih, max_assoc]
    rw [List.range'_concat, List.foldr_append, List.foldr_cons, List.foldr_nil, extend, ih]
    omega

/-- A query whose parameters are numbered in the order of their texts takes them. -/
theorem bind_of_numbered {query : Query κ} (numbered : query.placeholders = List.range' 1 params.length) :
    query.bind params = .ok (query.conditions.map fun (column, n) => ⟨column, none, parameter params n⟩) := by
  have all : (List.range' 1 params.length).find? (fun n => decide (n ∉ List.range' 1 params.length)) = none := by
    refine List.find?_eq_none.mpr fun n member => ?_
    rwa [decide_eq_true_eq, not_not]
  simp only [bind, numbered, foldr_max_range', all, ne_eq, not_true_eq_false, ↓reduceIte]
  rfl

theorem rows_eq_ok_iff {query : Query κ} (numbered : query.placeholders = List.range' 1 params.length)
    {content selected : List ρ} :
    query.rows table params content = .ok selected ↔
      (∀ c ∈ query.conditions, ((table.typeOf c.1).read (parameter params c.2)).isSome) ∧
        selected = content.filter fun row => query.conditions.all fun c =>
          Condition.holds table row ⟨c.1, none, parameter params c.2⟩ := by
  rw [rows, bind_of_numbered numbered]
  refine (mapError_eq_ok_iff.trans (select_eq_ok_iff ?_)).trans ?_
  · intro c member
    obtain ⟨_, _, rfl⟩ := List.mem_map.mp member
    exact Condition.parameterType_of_uncast rfl
  · simp only [List.forall_mem_map, List.all_map, Function.comp_def]

/-- Texts behind those of the conditions do not change what is selected. -/
theorem rows_paged_eq_ok_iff {conditions : List (κ × ℕ)}
    (numbered : conditions.map Prod.snd = List.range' 1 params.length) (limit offset : String)
    {content selected : List ρ} :
    rows ⟨conditions, some (params.length + 1), some (params.length + 2)⟩ table (params ++ [limit] ++ [offset])
        content = .ok selected ↔ rows ⟨conditions, none, none⟩ table params content = .ok selected := by
  have plain : placeholders ⟨conditions, none, none⟩ = List.range' 1 params.length := by
    rw [placeholders, numbered]
    exact List.append_nil _
  have paged : placeholders ⟨conditions, some (params.length + 1), some (params.length + 2)⟩ =
      List.range' 1 (params ++ [limit] ++ [offset]).length := by
    rw [placeholders, numbered, List.length_append, List.length_append, List.length_singleton, List.length_singleton,
      List.range'_concat, List.range'_concat, List.append_assoc, Nat.one_mul, Nat.one_mul, Nat.add_comm 1,
      Nat.add_comm 1]
    rfl
  have same : ∀ c ∈ conditions, parameter (params ++ [limit] ++ [offset]) c.2 = parameter params c.2 := by
    intro c member
    have number : c.2 ∈ List.range' 1 params.length := numbered ▸ List.mem_map_of_mem member
    rw [List.mem_range'_1] at number
    rw [parameter, parameter, List.append_assoc, List.getD_append _ _ _ _ (by omega)]
  rw [rows_eq_ok_iff plain, rows_eq_ok_iff paged]
  refine and_congr (forall₂_congr fun c member => by rw [same c member]) ?_
  have kept (row : ρ) : (conditions.all fun c =>
      Condition.holds table row ⟨c.1, none, parameter (params ++ [limit] ++ [offset]) c.2⟩) =
        conditions.all fun c => Condition.holds table row ⟨c.1, none, parameter params c.2⟩ := by
    rw [Bool.eq_iff_iff, List.all_eq_true, List.all_eq_true]
    exact forall₂_congr fun c member => by rw [same c member]
  simp only [kept]

/-- A page of a query is a slice of what the query selects, in the arrangement of this run. -/
theorem run_paged_eq_ok_iff {β : Type*} [LinearOrder β] {key : ρ → β} {order : List.Arrangement key}
    {conditions : List (κ × ℕ)} (numbered : conditions.map Prod.snd = List.range' 1 params.length)
    {limit offset : ℕ} {content listed : List ρ} :
    run ⟨conditions, some (params.length + 1), some (params.length + 2)⟩ table order
        (params ++ [toString limit] ++ [toString offset]) content = .ok listed ↔
      ∃ selected, rows ⟨conditions, none, none⟩ table params content = .ok selected ∧ limit < 2 ^ 63 ∧
        offset < 2 ^ 63 ∧ listed = ((order.arrange selected).drop offset).take limit := by
  have limitText :
      parameter (params ++ [toString limit] ++ [toString offset]) (params.length + 1) = toString limit := by
    rw [parameter, List.append_assoc, List.getD_append_right _ _ _ _ (by omega)]
    simp
  have offsetText :
      parameter (params ++ [toString limit] ++ [toString offset]) (params.length + 2) = toString offset := by
    rw [parameter, List.append_assoc, List.getD_append_right _ _ _ _ (by omega)]
    simp
  have number {n count : ℕ} {texts : List String} (text : parameter texts n = toString count) {result : Option ℕ} :
      (some n).mapM (readRowCount texts) = .ok result ↔ count < 2 ^ 63 ∧ result = some count := by
    rw [show (some n).mapM (readRowCount texts) = some <$> readRowCount texts n from rfl, Except.map_eq_ok_iff]
    simp only [readRowCount_eq_ok_iff text, and_assoc, exists_and_left, exists_eq_left, eq_comm (a := result)]
  constructor
  · intro ran
    obtain ⟨selected, rows, ran⟩ := Except.bind_eq_ok_iff.mp ran
    obtain ⟨_, limited, ran⟩ := Except.bind_eq_ok_iff.mp ran
    obtain ⟨_, skipped, ran⟩ := Except.bind_eq_ok_iff.mp ran
    obtain ⟨limitFits, rfl⟩ := (number limitText).mp limited
    obtain ⟨offsetFits, rfl⟩ := (number offsetText).mp skipped
    exact ⟨selected, (rows_paged_eq_ok_iff numbered _ _).mp rows, limitFits, offsetFits, (Except.ok.inj ran).symm⟩
  · rintro ⟨selected, rows, limitFits, offsetFits, rfl⟩
    exact Except.bind_eq_ok_iff.mpr ⟨selected, (rows_paged_eq_ok_iff numbered _ _).mpr rows,
      Except.bind_eq_ok_iff.mpr ⟨_, (number limitText).mpr ⟨limitFits, rfl⟩,
        Except.bind_eq_ok_iff.mpr ⟨_, (number offsetText).mpr ⟨offsetFits, rfl⟩, rfl⟩⟩⟩

theorem count_eq_ok_iff {query : Query κ} {content : List ρ} {total : ℕ} :
    query.count table params content = .ok total ↔
      ∃ selected, query.rows table params content = .ok selected ∧ selected.length = total :=
  Except.map_eq_ok_iff

end Query

end Sql
