import JudgeSelf.Json.Tree
import Mathlib.Data.List.Induction

/-! # Reading what was printed

Whatever a printer writes for the characters of strings, as long as each is read as that character, the text of a
value is read as that value.
-/

namespace Json

namespace NumberPart

/-- A number does not go on with a delimiter. -/
theorem next_delimiter (part : NumberPart) {c : Char} (delimiter : c ∈ [',', ']', '}']) : part.next c = none := by
  simp only [List.mem_cons, List.not_mem_nil, or_false] at delimiter
  rcases delimiter with rfl | rfl | rfl <;> cases part <;> rfl

theorem scan_concat {text : List Char} (started : text ≠ []) (c : Char) :
    scan (text ++ [c]) = (scan text).bind (next · c) := by
  obtain ⟨first, rest, rfl⟩ := List.exists_cons_of_ne_nil started
  rw [List.cons_append, scan, scan, Option.bind_assoc]
  congr 1
  funext part
  simp only [List.foldlM_append, List.foldlM_cons, List.foldlM_nil, Option.pure_def, Option.bind_eq_bind,
    Option.bind_fun_some]

end NumberPart

namespace TreeReader

variable {s : TreeReader} {b : Builder} {text : List Char} {stack : List Frame}

theorem run_append (s : TreeReader) (text rest : List Char) : s.run (text ++ rest) = (s.run text).bind (run · rest) :=
  List.foldlM_append

theorem run_cons (s : TreeReader) (c : Char) (text : List Char) : s.run (c :: text) = (s.step c).bind (run · text) :=
  List.foldlM_cons

@[simp] theorem run_nil (s : TreeReader) : s.run [] = some s := rfl

theorem run_singleton (s : TreeReader) (c : Char) : s.run [c] = s.step c := by
  rw [run_cons]
  exact Option.bind_fun_some _

/-- A reader that goes on as if it were between lexemes, with the builder `b`. -/
structure Ends (s : TreeReader) (b : Builder) : Prop where
  step : ∀ c ∈ [',', ']', '}'], s.step c = stepBetween b c
  final : s.final = b.result

theorem ends_between (b : Builder) : Ends ⟨.between, b⟩ b := ⟨fun _ _ => rfl, rfl⟩

theorem stepBetween_of_start {c : Char} (starts : (NumberPart.start c).isSome) :
    stepBetween b c = some ⟨.number [c], b⟩ := by
  have other (d : Char) (not : NumberPart.start d = none) : c ≠ d := by
    rintro rfl
    rw [not] at starts
    contradiction
  rw [stepBetween, if_neg, if_neg (other '"' rfl), if_pos starts]
  rintro (same | same | same | same)
  · exact other ' ' rfl same
  · exact other '\t' rfl same
  · exact other '\n' rfl same
  · exact other '\r' rfl same

/-- The beginning of a number is read as such. -/
theorem run_number (scanned : (NumberPart.scan text).isSome) : run ⟨.between, b⟩ text = some ⟨.number text, b⟩ := by
  induction text using List.reverseRecOn with
  | nil => contradiction
  | append_singleton text c ih =>
    rcases eq_or_ne text [] with rfl | started
    · rw [List.nil_append, run_singleton]
      refine stepBetween_of_start ?_
      rw [List.nil_append, NumberPart.scan] at scanned
      exact Option.isSome_of_isSome_bind scanned
    · have before : (NumberPart.scan text).isSome := by
        rw [NumberPart.scan_concat started] at scanned
        exact Option.isSome_of_isSome_bind scanned
      rw [run_append, ih before, Option.bind_some, run_singleton, step]
      exact if_pos scanned

theorem Literal.isSome_scan (literal : Literal) : (NumberPart.scan literal.text).isSome := by
  have valid := literal.valid
  cases scanned : NumberPart.scan literal.text with
  | none => rw [scanned] at valid; contradiction
  | some part => rfl

theorem Literal.text_ne_nil (literal : Literal) : literal.text ≠ [] := by
  intro empty
  have some_ := Literal.isSome_scan literal
  rw [empty] at some_
  contradiction

theorem endNumber_text (literal : Literal) (b : Builder) :
    endNumber literal.text b = b.feed (.scalar (.number literal)) := dif_pos literal.valid

theorem ends_number (literal : Literal) {after : Builder} (fed : b.feed (.scalar (.number literal)) = some after) :
    Ends ⟨.number literal.text, b⟩ after := by
  refine ⟨fun c delimiter => ?_, ?_⟩
  · have stops : NumberPart.scan (literal.text ++ [c]) = none := by
      rw [NumberPart.scan_concat (Literal.text_ne_nil literal)]
      exact Option.bind_eq_none_iff.mpr fun part _ => NumberPart.next_delimiter part delimiter
    rw [step]
    dsimp only
    rw [stops, endNumber_text, fed]
    rfl
  · rw [final]
    dsimp only
    rw [endNumber_text, fed, Option.bind_some]

theorem run_flatMap_escape (escape : Escape) (read cs : List Char) :
    run ⟨.string read, b⟩ (cs.flatMap escape.text) = some ⟨.string (read ++ cs), b⟩ := by
  induction cs generalizing read with
  | nil => rw [List.flatMap_nil, run_nil, List.append_nil]
  | cons c cs ih => rw [List.flatMap_cons, run_append, escape.reads, Option.bind_some, ih, List.append_assoc]; rfl

theorem run_quote (escape : Escape) (value : String) (b : Builder) :
    run ⟨.between, b⟩ (escape.quote value) = feed b (.string value) := by
  have opens : step ⟨.between, b⟩ '"' = some ⟨.string [], b⟩ := rfl
  rw [Escape.quote, List.cons_append, run_cons, opens, Option.bind_some, run_append, run_flatMap_escape,
    Option.bind_some, run_singleton, List.nil_append]
  change feed b (.string (String.ofList value.toList)) = _
  rw [String.ofList_toList]

/-- A value may start, which goes to the top of the stack. -/
inductive Takes : Builder → List Frame → Prop
  | value (stack : List Frame) : Takes (.value stack) stack
  | element (stack : List Frame) : Takes (.element stack) (.array [] :: stack)

theorem Takes.feed_eq (takes : Takes b stack) {lexeme : Lexeme} (more : lexeme ≠ .mark .closeArray) :
    b.feed lexeme = Builder.begin stack lexeme := by
  cases takes with
  | value => rfl
  | element =>
    cases lexeme with
    | string | scalar => rfl
    | mark token =>
      cases token with
      | closeArray => exact absurd rfl more
      | _ => rfl

/-- The parts of a container: where one is due behind the ones that are done, and how it is read. -/
structure Parts {α : Type} (text : α → List Char) (due : List α → Builder → Prop) (complete : List α → Builder)
    (good : α → Prop) : Prop where
  comma : ∀ done, ∃ b, due done b ∧ (complete done).feed (.mark .comma) = some b
  reads : ∀ done b a, due done b → good a →
    ∃ s, run ⟨.between, b⟩ (text a) = some s ∧ s.Ends (complete (done ++ [a]))

variable {α : Type} {part : α → List Char} {due : List α → Builder → Prop} {complete : List α → Builder}
  {good : α → Prop}

theorem Parts.run_intercalate (parts : Parts part due complete good) {l done : List α} (isDue : due done b)
    (some_ : l ≠ []) (all : ∀ a ∈ l, good a) :
    ∃ s, run ⟨.between, b⟩ ([','].intercalate (l.map part)) = some s ∧ s.Ends (complete (done ++ l)) := by
  induction l generalizing done b with
  | nil => exact absurd rfl some_
  | cons a l ih =>
    obtain ⟨here, others⟩ := List.forall_mem_cons.mp all
    obtain ⟨s, ran, ends⟩ := parts.reads done b a isDue here
    cases l with
    | nil => exact ⟨s, by simpa using ran, ends⟩
    | cons next l =>
      obtain ⟨c, isNext, fed⟩ := parts.comma (done ++ [a])
      obtain ⟨t, rest, last⟩ := ih isNext (List.cons_ne_nil _ _) others
      have comma : s.step ',' = some ⟨.between, c⟩ := by
        rw [ends.step ',' (by simp)]
        change feed _ (.mark .comma) = _
        rw [feed, fed, Option.map_some]
      refine ⟨t, ?_, by rwa [List.append_assoc] at last⟩
      rw [List.map_cons, List.map_cons, List.intercalate_cons_cons, run_append, run_append, ran, Option.bind_some,
        run_singleton, comma, Option.bind_some]
      exact rest

/-- A container is read with its parts. -/
theorem Parts.run_enclose (parts : Parts part due complete good) {opening closing : Char} {first after : Builder}
    {l : List α} (opens : stepBetween b opening = some ⟨.between, first⟩) (isDue : due [] first)
    (delimits : closing ∈ [',', ']', '}'])
    (closes : ∀ c, c = first ∧ l = [] ∨ c = complete l → stepBetween c closing = some ⟨.between, after⟩)
    (all : ∀ a ∈ l, good a) :
    run ⟨.between, b⟩ (enclose opening closing (l.map part)) = some ⟨.between, after⟩ := by
  rw [enclose, List.cons_append, run_cons]
  change (stepBetween b opening).bind _ = _
  rw [opens, Option.bind_some, run_append]
  rcases eq_or_ne l [] with rfl | some_
  · rw [List.map_nil, List.intercalate_nil, run_nil, Option.bind_some, run_singleton]
    exact closes first (.inl ⟨rfl, rfl⟩)
  · obtain ⟨s, ran, ends⟩ := parts.run_intercalate isDue some_ all
    rw [ran, Option.bind_some, run_singleton, ends.step closing delimits]
    exact closes _ (.inr rfl)

/-- The text of a value is read as the value, wherever one may start. -/
def Printed (escape : Escape) (v : Tree) : Prop :=
  ∀ b stack, Takes b stack → ∃ s, run ⟨.between, b⟩ (v.print escape) = some s ∧ s.Ends (Builder.deliver v stack)

theorem parts_elements (escape : Escape) (stack : List Frame) :
    Parts (Tree.print escape) (fun done b => Takes b (.array done :: stack)) (Builder.inArray · stack)
      (Printed escape) where
  comma _ := ⟨_, .value _, rfl⟩
  reads _ b _ takes printed := printed b _ takes

theorem parts_members (escape : Escape) (stack : List Frame) :
    Parts (Tree.printMember escape) (fun done b => b = .key done stack ∨ done = [] ∧ b = .member stack)
      (Builder.inObject · stack) (fun member => Printed escape member.2) where
  comma _ := ⟨_, .inl rfl, rfl⟩
  reads done b member isDue printed := by
    obtain ⟨name, v⟩ := member
    obtain ⟨s, ran, ends⟩ := printed _ _ (.value (.object done name :: stack))
    refine ⟨s, ?_, ends⟩
    have key : b.feed (.string name) = some (.colon done name stack) := by
      rcases isDue with rfl | ⟨rfl, rfl⟩ <;> rfl
    rw [Tree.printMember, run_append, run_quote, feed, key, Option.map_some, Option.bind_some, run_cons]
    exact ran

/-- The letters of a literal are read one after another. -/
theorem run_literal {rest : List Char} (b : Builder) (v : Tree) (some_ : rest ≠ []) :
    run ⟨.literal rest v, b⟩ rest = feed b (.scalar v) := by
  induction rest with
  | nil => exact absurd rfl some_
  | cons c rest ih =>
    cases rest with
    | nil =>
      rw [run_singleton, step]
      exact if_pos rfl
    | cons next rest =>
      rw [run_cons, step]
      dsimp only
      rw [if_pos rfl, Option.bind_some, ih (List.cons_ne_nil _ _)]

theorem printed_literal (escape : Escape) {v : Tree} {first : Char} {rest : List Char}
    (text : v.print escape = first :: rest) (some_ : rest ≠ [])
    (starts : ∀ b, stepBetween b first = some ⟨.literal rest v, b⟩) : Printed escape v := by
  intro b stack takes
  refine ⟨⟨.between, Builder.deliver v stack⟩, ?_, ends_between _⟩
  rw [text, run_cons]
  change (stepBetween b first).bind _ = _
  rw [starts, Option.bind_some, run_literal b v some_, feed, takes.feed_eq Lexeme.noConfusion]
  rfl

theorem printed (escape : Escape) (v : Tree) : Printed escape v := by
  induction v using Tree.ind with
  | null => exact printed_literal escape rfl (List.cons_ne_nil _ _) fun _ => rfl
  | bool value =>
    cases value with
    | true => exact printed_literal escape rfl (List.cons_ne_nil _ _) fun _ => rfl
    | false => exact printed_literal escape rfl (List.cons_ne_nil _ _) fun _ => rfl
  | number literal =>
    intro b stack takes
    exact ⟨_, run_number (Literal.isSome_scan literal), ends_number literal (takes.feed_eq Lexeme.noConfusion)⟩
  | string value =>
    intro b stack takes
    refine ⟨_, ?_, ends_between _⟩
    rw [Tree.print, run_quote, feed, takes.feed_eq Lexeme.noConfusion]
    rfl
  | array elements ih =>
    intro b stack takes
    refine ⟨_, ?_, ends_between _⟩
    rw [Tree.print, Tree.printElements_eq_map]
    refine (parts_elements escape stack).run_enclose ?_ (.element stack) (by simp) ?_ ih
    · change feed b (.mark .openArray) = _
      rw [feed, takes.feed_eq (by simp)]
      rfl
    · rintro c (⟨rfl, rfl⟩ | rfl)
      · rfl
      · rfl
  | object members ih =>
    intro b stack takes
    refine ⟨_, ?_, ends_between _⟩
    rw [Tree.print, Tree.printMembers_eq_map]
    refine (parts_members escape stack).run_enclose ?_ (.inr ⟨rfl, rfl⟩) (by simp) ?_ ih
    · change feed b (.mark .openObject) = _
      rw [feed, takes.feed_eq (by simp)]
      rfl
    · rintro c (⟨rfl, rfl⟩ | rfl)
      · rfl
      · rfl

end TreeReader

/-- The text of a value is read as the value. -/
theorem read_print (escape : Escape) (v : Tree) : read (v.print escape) = some v := by
  obtain ⟨s, ran, ends⟩ := TreeReader.printed escape v (.value []) [] (.value [])
  rw [read, ran, Option.bind_some, ends.final]
  rfl

end Json
