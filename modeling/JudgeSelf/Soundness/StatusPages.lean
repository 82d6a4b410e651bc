import JudgeSelf.Model.Status.Service
import Mathlib.Data.Int.Interval

/-! # The pages of all submissions

The pages of a filter have the newest submissions first, and their rows and their number come from queries
that agree. But every page is ordered by a run of its own: what all pages together list is right whatever
these runs do exactly if no submissions with equal times stand on both sides of a page boundary.
-/

namespace JudgeSelf.StatusService

open Sql (Query Condition)
open List (pageCount CutAt arrangedPages)

/-- The submission satisfies the filters that are given; a text that is no id is satisfied by none. -/
def Database.Matches (db : Database) (contestId problemId userId : Option String) (s : Submission) : Prop :=
  (∀ text ∈ contestId, ∃ p ∈ db.problems, p.id = s.problemId ∧ Sql.readInteger text = some p.contestId) ∧
    (∀ text ∈ problemId, Sql.readUuid text = some s.problemId) ∧ ∀ text ∈ userId, Sql.readUuid text = some s.userId

instance {db : Database} {contestId problemId userId : Option String} :
    DecidablePred (db.Matches contestId problemId userId) := by
  unfold Database.Matches
  infer_instance

def Database.matching (db : Database) (contestId problemId userId : Option String) : List Submission :=
  db.submissions.filter (db.Matches contestId problemId userId)

/-- The pages have every submission once and nothing else, newest first, with its problem. -/
structure Listing (db : Database) (matching : List Submission) (pages : List StatusPage) : Prop where
  numbers : ∀ page ∈ pages, page.totalSubmissions = matching.length ∧ page.totalPages = pages.length
  rows : ∃ listed : List Joined, pages.flatMap StatusPage.submissions = listed.map .ofJoined ∧
    (∀ row ∈ listed, row.2 ∈ db.problems ∧ row.2.id = row.1.problemId) ∧ (listed.map Prod.fst).Perm matching ∧
      listed.Pairwise fun a b => b.1.createdAt ≤ a.1.createdAt

/-- However the runs order equal times, the calls for the pages from 1 to the last one list the submissions. -/
def ListsOnce (db : Database) (matching : List Submission) (limit : ℕ) (count : Except Sql.QueryError ℕ)
    (call : Order → ℤ → Except Sql.QueryError StatusPage) : Prop :=
  ∀ (orders : ℕ → Order) (total : ℕ), count = .ok total →
    total = matching.length ∧ ∃ pages, Listing db matching pages ∧
      (List.range (pageCount total limit)).mapM (fun (k : ℕ) => call (orders k) (k + 1)) = .ok pages

/-- No times are equal over a page boundary. -/
def Untied (matching : List Submission) (limit : ℕ) : Prop :=
  ∀ k, 0 < k → k < pageCount matching.length limit → CutAt Submission.createdAt matching (k * limit)

theorem Database.length_submissions_lt (db : Database) : db.submissions.length < 2 ^ 63 := by
  have within : (db.submissions.map Submission.id).toFinset ⊆ Finset.Ico (-2147483648) 2147483648 := by
    intro id member
    obtain ⟨s, submitted, rfl⟩ := List.mem_map.mp (List.mem_toFinset.mp member)
    exact Finset.mem_Ico.mpr (db.integers s submitted)
  have count := Finset.card_le_card within
  rw [List.toFinset_card_of_nodup db.submissionIds, List.length_map, Int.card_Ico] at count
  omega

section Pages

variable {db : Database} {conditions : List (Column × ℕ)} {params : List String} {limit : ℕ}

/-- A page is a slice of what the conditions select. -/
theorem listSubmissions_eq_ok_iff (numbered : conditions.map Prod.snd = List.range' 1 params.length)
    (positive : 1 ≤ limit) {order : Order} {k : ℕ} {dbSubs : List SubmissionRow} :
    listSubmissions order db conditions params (k + 1) (some limit) = .ok dbSubs ↔
      ∃ selected, Query.rows ⟨conditions, none, none⟩ joinedTable params db.joined = .ok selected ∧ limit < 2 ^ 63 ∧
        k * limit < 2 ^ 63 ∧ dbSubs = ((order.arrange selected).page limit k).map .ofJoined := by
  obtain ⟨limit, rfl⟩ := Nat.exists_eq_add_of_le' positive
  have offset : toString ((((k : ℤ) + 1 - 1) * ((limit + 1 : ℕ) : ℤ))) = toString (k * (limit + 1)) := by
    rw [add_sub_cancel_right, ← Nat.cast_mul]
    rfl
  have clauses : listSubmissions order db conditions params (k + 1) (some (limit + 1)) =
      List.map .ofJoined <$> Query.run ⟨conditions, some (params.length + 1), some (params.length + 2)⟩ joinedTable
        order (params ++ [toString (limit + 1)] ++ [toString (k * (limit + 1))]) db.joined := by
    rw [← offset]
    simp [listSubmissions, paged]
  rw [clauses, Except.map_eq_ok_iff]
  constructor
  · rintro ⟨rows, ran, rfl⟩
    obtain ⟨selected, chosen, limitFits, offsetFits, rfl⟩ := (Query.run_paged_eq_ok_iff numbered).mp ran
    exact ⟨selected, chosen, limitFits, offsetFits, rfl⟩
  · rintro ⟨selected, chosen, limitFits, offsetFits, rfl⟩
    exact ⟨_, (Query.run_paged_eq_ok_iff numbered).mpr ⟨selected, chosen, limitFits, offsetFits, rfl⟩, rfl⟩

/-- Every row of the join satisfies the conditions exactly if its submission has the property. -/
def Selects (db : Database) (conditions : List (Column × ℕ)) (params : List String) (m : Submission → Prop)
    [DecidablePred m] : Prop :=
  ∀ row ∈ db.joined, (conditions.all fun c =>
    Condition.holds joinedTable row ⟨c.1, none, Query.parameter params c.2⟩) = decide (m row.1)

variable {m : Submission → Prop} [DecidablePred m]

private theorem placeholders_plain {κ : Type} {conditions : List (κ × ℕ)}
    (numbered : conditions.map Prod.snd = List.range' 1 params.length) :
    Query.placeholders ⟨conditions, none, none⟩ = List.range' 1 params.length :=
  (List.append_nil _).trans numbered

/-- The rows of a query are its submissions, each with its problem. -/
theorem map_fst_rows (numbered : conditions.map Prod.snd = List.range' 1 params.length)
    (selects : Selects db conditions params m) {selected : List Joined}
    (chosen : Query.rows ⟨conditions, none, none⟩ joinedTable params db.joined = .ok selected) :
    selected.map Prod.fst = db.submissions.filter m := by
  obtain ⟨_, rfl⟩ := (Query.rows_eq_ok_iff (placeholders_plain numbered)).mp chosen
  rw [List.filter_congr selects, ← db.map_fst_joined, List.filter_map]
  rfl

/-- Where a filter cannot be read, no submission satisfies it. -/
theorem filter_eq_nil_of_error (numbered : conditions.map Prod.snd = List.range' 1 params.length)
    (selects : Selects db conditions params m)
    (fails : ∀ selected, Query.rows ⟨conditions, none, none⟩ joinedTable params db.joined ≠ .ok selected) :
    db.submissions.filter m = [] := by
  obtain ⟨c, condition, unreadable⟩ : ∃ c ∈ conditions,
      ¬ ((joinedTable.typeOf c.1).read (Query.parameter params c.2)).isSome := by
    by_contra! readable
    exact fails _ ((Query.rows_eq_ok_iff (placeholders_plain numbered)).mpr ⟨readable, rfl⟩)
  refine List.filter_eq_nil_iff.mpr fun s submitted holds => ?_
  rw [← db.map_fst_joined] at submitted
  obtain ⟨row, joined, rfl⟩ := List.mem_map.mp submitted
  rw [← selects row joined, List.all_eq_true] at holds
  have satisfied := holds c condition
  rw [Condition.holds, Condition.parameterType, Option.getD_none,
    Option.not_isSome_iff_eq_none.mp unreadable] at satisfied
  exact absurd satisfied (by simp)

section Tiling

variable (numbered : conditions.map Prod.snd = List.range' 1 params.length) (positive : 1 ≤ limit)
  {count : Except Sql.QueryError ℕ} {call : Order → ℤ → Except Sql.QueryError StatusPage}
  (called : ∀ (order : Order) (k : ℕ) (page : StatusPage), call order (k + 1) = .ok page ↔
    ∃ dbSubs totalCount, listSubmissions order db conditions params (k + 1) (some limit) = .ok dbSubs ∧
      count = .ok totalCount ∧ page = statusPage (k + 1) limit dbSubs totalCount)
  {selected : List Joined} (chosen : Query.rows ⟨conditions, none, none⟩ joinedTable params db.joined = .ok selected)

private theorem flatMap_page (orders : ℕ → Order) :
    (List.range (pageCount selected.length limit)).flatMap (fun k =>
      (((orders k).arrange selected).page limit k).map SubmissionRow.ofJoined) =
        (arrangedPages orders selected limit).flatten.map .ofJoined := by
  rw [arrangedPages, List.map_flatten, List.map_map, List.flatMap_def]
  rfl

include numbered positive called chosen in
/-- The rows of a page that is returned. -/
theorem submissions_of_call {order : Order} {k : ℕ} {page : StatusPage} (returned : call order (k + 1) = .ok page) :
    limit < 2 ^ 63 ∧ page.submissions = ((order.arrange selected).page limit k).map .ofJoined := by
  obtain ⟨dbSubs, totalCount, listed, _, rfl⟩ := (called order k page).mp returned
  obtain ⟨selected', chosen', fits, _, rfl⟩ := (listSubmissions_eq_ok_iff numbered positive).mp listed
  obtain rfl := Except.ok.inj (chosen.symm.trans chosen')
  exact ⟨fits, rfl⟩

include numbered positive called chosen in
/-- If the pages list the submissions whatever the orders are, no entry is on two pages. -/
theorem nodup_of_listsOnce (counted : count = .ok selected.length)
    (once : ListsOnce db (db.submissions.filter m) limit count call) (orders : ℕ → Order) :
    (arrangedPages orders selected limit).flatten.Nodup := by
  obtain ⟨_, pages, listing, ran⟩ := once orders selected.length counted
  obtain ⟨listed, rows, _, perm, _⟩ := listing.rows
  rw [Except.flatMap_mapM_eq_ok (fun k page returned =>
    (submissions_of_call numbered positive called chosen returned).2) ran, flatMap_page] at rows
  have ids := congrArg (List.map SubmissionRow.submissionId) rows
  rw [List.map_map, List.map_map] at ids
  have distinct : ((listed.map Prod.fst).map Submission.id).Nodup :=
    (perm.map Submission.id).nodup_iff.mpr (db.submissionIds.sublist (List.filter_sublist.map _))
  rw [List.map_map] at distinct
  exact List.Nodup.of_map _ (ids ▸ distinct)

include numbered positive called chosen in
/-- With a cut at every boundary the pages list the submissions. -/
theorem listing_of_untied (fst : selected.map Prod.fst = db.submissions.filter m)
    (counted : count = .ok selected.length) (fits : db.submissions.filter m = [] ∨ limit < 2 ^ 63)
    (untied : Untied (db.submissions.filter m) limit) (orders : ℕ → Order) :
    ∃ pages, Listing db (db.submissions.filter m) pages ∧
      (List.range (pageCount selected.length limit)).mapM (fun (k : ℕ) => call (orders k) (k + 1)) = .ok pages := by
  have length : selected.length = (db.submissions.filter m).length := by rw [← fst, List.length_map]
  have joined : ∀ row ∈ selected, row ∈ db.joined := by
    obtain ⟨_, rfl⟩ := (Query.rows_eq_ok_iff (placeholders_plain numbered)).mp chosen
    exact fun row member => (List.mem_filter.mp member).1
  have distinct : selected.Nodup := by
    refine List.Nodup.of_map Prod.fst ?_
    rw [fst]
    exact (List.Nodup.of_map _ db.submissionIds).filter _
  have cuts : ∀ k, 0 < k → k < pageCount selected.length limit →
      CutAt (fun row : Joined => row.1.createdAt) selected (k * limit) := by
    intro k later inside
    rw [length] at inside
    exact (CutAt.map_iff Prod.fst).mp (fst ▸ untied k later inside)
  have perm := (List.flatten_arrangedPages_perm_iff distinct positive).mpr cuts orders
  refine ⟨(List.range (pageCount selected.length limit)).map fun (k : ℕ) => statusPage (k + 1) limit
    ((((orders k).arrange selected).page limit k).map .ofJoined) selected.length, ⟨?_, ?_⟩, ?_⟩
  · intro page member
    obtain ⟨k, _, rfl⟩ := List.mem_map.mp member
    rw [List.length_map, List.length_range, ← length]
    exact ⟨rfl, rfl⟩
  · refine ⟨(arrangedPages orders selected limit).flatten, ?_, ?_, ?_, ?_⟩
    · rw [List.flatMap_map]
      exact flatMap_page orders
    · intro row member
      exact (Database.mem_joined_iff.mp (joined row (perm.mem_iff.mp member))).2
    · exact fst ▸ perm.map Prod.fst
    · exact List.pairwise_flatten_arrangedPages positive orders
  · refine Except.mapM_eq_ok_of_forall fun k member => ?_
    have inside := (List.lt_pageCount_iff positive).mp (List.mem_range.mp member)
    have small : limit < 2 ^ 63 := by
      refine fits.resolve_left fun empty => ?_
      rw [length, empty] at inside
      exact absurd inside (Nat.not_lt_zero _)
    have start : k * limit < 2 ^ 63 := by
      rw [length] at inside
      exact (inside.trans_le (List.length_filter_le _ _)).trans db.length_submissions_lt
    exact (called _ k _).mpr ⟨_, _,
      (listSubmissions_eq_ok_iff numbered positive).mpr ⟨selected, chosen, small, start, rfl⟩, counted, rfl⟩

end Tiling

/-- What the pages of one service list. -/
theorem listsOnce_iff (numbered : conditions.map Prod.snd = List.range' 1 params.length) (positive : 1 ≤ limit)
    (selects : Selects db conditions params m) {count : Except Sql.QueryError ℕ}
    {call : Order → ℤ → Except Sql.QueryError StatusPage}
    (counted : ∀ total, count = .ok total ↔ ∃ selected,
      Query.rows ⟨conditions, none, none⟩ joinedTable params db.joined = .ok selected ∧ selected.length = total)
    (called : ∀ (order : Order) (k : ℕ) (page : StatusPage), call order (k + 1) = .ok page ↔
      ∃ dbSubs totalCount, listSubmissions order db conditions params (k + 1) (some limit) = .ok dbSubs ∧
        count = .ok totalCount ∧ page = statusPage (k + 1) limit dbSubs totalCount) :
    ListsOnce db (db.submissions.filter m) limit count call ↔
      (db.submissions.filter m = [] ∨ limit < 2 ^ 63) ∧ Untied (db.submissions.filter m) limit := by
  by_cases readable : ∃ selected, Query.rows ⟨conditions, none, none⟩ joinedTable params db.joined = .ok selected
  · obtain ⟨selected, chosen⟩ := readable
    have fst := map_fst_rows numbered selects chosen
    have total := (counted selected.length).mpr ⟨selected, chosen, rfl⟩
    have length : selected.length = (db.submissions.filter m).length := by rw [← fst, List.length_map]
    constructor
    · intro once
      refine ⟨or_iff_not_imp_left.mpr fun nonempty => ?_, fun k later inside => ?_⟩
      · obtain ⟨_, pages, _, ran⟩ := once (fun _ => .stable _) selected.length total
        have first : 0 < pageCount selected.length limit := by
          rw [List.lt_pageCount_iff positive, Nat.zero_mul, length]
          exact List.length_pos_iff.mpr nonempty
        obtain ⟨page, returned⟩ := Except.exists_eq_ok_of_mapM ran (List.mem_range.mpr first)
        exact (submissions_of_call numbered positive called chosen returned).1
      · obtain ⟨k, rfl⟩ := Nat.exists_eq_succ_of_ne_zero later.ne'
        rw [← length] at inside
        rw [← fst, CutAt.map_iff]
        exact List.cutAt_of_nodup_pages positive inside
          (nodup_of_listsOnce numbered positive called chosen total once)
    · rintro ⟨fits, untied⟩ orders total' counts
      obtain rfl := Except.ok.inj (total.symm.trans counts)
      exact ⟨length, listing_of_untied numbered positive called chosen fst total fits untied orders⟩
  · have empty := filter_eq_nil_of_error numbered selects fun selected chosen => readable ⟨selected, chosen⟩
    refine iff_of_true (fun orders total counts => ?_) ⟨.inl empty, fun k _ inside => ?_⟩
    · obtain ⟨selected, chosen, _⟩ := (counted total).mp counts
      exact absurd ⟨selected, chosen⟩ readable
    · rw [empty, List.length_nil, (List.pageCount_eq_zero_iff positive).mpr rfl] at inside
      exact absurd inside (Nat.not_lt_zero k)

end Pages

section Services

variable {db : Database}

private theorem holds_contestId {row : Joined} (joined : row ∈ db.joined) (text : String) :
    Condition.holds joinedTable row ⟨.contestId, none, text⟩ = true ↔
      ∃ p ∈ db.problems, p.id = row.1.problemId ∧ Sql.readInteger text = some p.contestId := by
  obtain ⟨_, stored, same⟩ := Database.mem_joined_iff.mp joined
  have own : (∃ p ∈ db.problems, p.id = row.1.problemId ∧ Sql.readInteger text = some p.contestId) ↔
      Sql.readInteger text = some row.2.contestId := by
    refine ⟨fun ⟨p, other, key, read⟩ => ?_, fun read => ⟨row.2, stored, same, read⟩⟩
    rwa [db.problem_unique stored other (same.trans key.symm)]
  rw [own, Condition.holds, Condition.parameterType, Option.getD_none, joinedTable, Sql.ColumnType.read, Option.any_map]
  cases Sql.readInteger text with
  | none => simp
  | some n => simp [eq_comm]

/-- The id in a column of a submission. -/
def Submission.uuid (s : Submission) : SubmissionColumn → List Char
  | .problemId => s.problemId
  | .userId => s.userId

private theorem holds_submission (row : Joined) (column : SubmissionColumn) (text : String) :
    Condition.holds joinedTable row ⟨.submission column, none, text⟩ = true ↔
      Sql.readUuid text = some (row.1.uuid column) := by
  have value : joinedTable.value row (.submission column) = some (.uuid (row.1.uuid column)) := by cases column <;> rfl
  rw [Condition.holds, Condition.parameterType, Option.getD_none, value, joinedTable, submissionsTable,
    Sql.ColumnType.read, Option.any_map]
  cases Sql.readUuid text with
  | none => simp
  | some digits => simp [eq_comm]

/-- A page is made of the replies to both queries. -/
theorem page_eq_ok_iff {listing : Except Sql.QueryError (List SubmissionRow)} {count : Except Sql.QueryError ℕ}
    {number : ℤ} {limit : ℕ} {page : StatusPage} :
    ((listing.bind fun dbSubs => count.bind fun totalCount => .ok (dbSubs, totalCount)).bind fun fetched =>
        .ok (statusPage number limit fetched.1 fetched.2)) = .ok page ↔
    ∃ dbSubs totalCount, listing = .ok dbSubs ∧ count = .ok totalCount ∧
      page = statusPage number limit dbSubs totalCount := by
  cases listing with
  | error error => simp [Except.bind]
  | ok dbSubs =>
    cases count with
    | error error => simp [Except.bind]
    | ok totalCount => simp [Except.bind, eq_comm]

private theorem numbered_contest (contestId userId : Option String) :
    (contestConditions contestId userId).map Prod.snd = List.range' 1 (contestParams contestId userId).length := by
  rw [contestConditions, contestParams]
  cases given contestId <;> cases given userId <;> rfl

private theorem selects_contest (contestId userId : Option String) : Selects db (contestConditions contestId userId)
    (contestParams contestId userId) (db.Matches (given contestId) none (given userId)) := by
  intro row joined
  rw [contestConditions, contestParams, Bool.eq_iff_iff, decide_eq_true_iff]
  cases given contestId <;> cases given userId <;>
    simp [Database.Matches, Query.parameter, holds_contestId joined, holds_submission, Submission.uuid]

/-- The conditions on submissions alone, in the join. -/
def lifted (conditions : List (SubmissionColumn × ℕ)) : List (Column × ℕ) :=
  conditions.map fun (column, n) => (.submission column, n)

private theorem numbered_lifted {conditions : List (SubmissionColumn × ℕ)} {params : List String}
    (numbered : conditions.map Prod.snd = List.range' 1 params.length) :
    (lifted conditions).map Prod.snd = List.range' 1 params.length := by
  rw [lifted, List.map_map, ← numbered]
  rfl

/-- Counting submissions alone counts the rows of the join. -/
theorem count_alone_eq_ok_iff {conditions : List (SubmissionColumn × ℕ)} {params : List String}
    (numbered : conditions.map Prod.snd = List.range' 1 params.length) {total : ℕ} :
    Query.count ⟨conditions, none, none⟩ submissionsTable params db.submissions = .ok total ↔
      ∃ selected, Query.rows ⟨lifted conditions, none, none⟩ joinedTable params db.joined = .ok selected ∧
        selected.length = total := by
  rw [Query.count_eq_ok_iff]
  simp only [Query.rows_eq_ok_iff (placeholders_plain numbered), and_assoc, exists_and_left, exists_eq_left,
    Query.rows_eq_ok_iff (placeholders_plain (numbered_lifted numbered))]
  refine and_congr ?_ ?_
  · rw [lifted, List.forall_mem_map]
    rfl
  · rw [← db.map_fst_joined, List.filter_map, List.length_map, lifted]
    simp only [List.all_map]
    rfl

private theorem contest_counted {contestId userId : Option String} (total : ℕ) :
    getSubmissionsCount db contestId userId = .ok total ↔ ∃ selected,
      Query.rows ⟨contestConditions contestId userId, none, none⟩ joinedTable (contestParams contestId userId)
        db.joined = .ok selected ∧ selected.length = total := by
  have numbered := numbered_contest contestId userId
  rw [getSubmissionsCount]
  split
  · next withContest =>
    rw [contestConditions, if_pos withContest]
    exact Query.count_eq_ok_iff
  · next without =>
    rw [contestConditions, if_neg without] at numbered ⊢
    cases user : given userId with
    | none =>
      simp only [user, Option.isSome_none, Bool.false_eq_true, ↓reduceIte] at numbered ⊢
      exact @count_alone_eq_ok_iff db [] _ numbered total
    | some id =>
      simp only [user, Option.isSome_some, ↓reduceIte] at numbered ⊢
      exact @count_alone_eq_ok_iff db [(.userId, 1)] _ numbered total

private theorem numbered_problem (problemId : String) (userId : Option String) :
    (problemConditions userId).map Prod.snd = List.range' 1 (problemParams problemId userId).length := by
  rw [problemConditions, problemParams]
  cases given userId <;> rfl

private theorem selects_problem (problemId : String) (userId : Option String) : Selects db
    (lifted (problemConditions userId))
    (problemParams problemId userId) (db.Matches none (some problemId) (given userId)) := by
  intro row _
  rw [problemConditions, problemParams, Bool.eq_iff_iff, decide_eq_true_iff]
  cases given userId <;> simp [lifted, Database.Matches, Query.parameter, holds_submission, Submission.uuid]

/-- For every filter of both services, the pages list the matching submissions once, newest first, whatever the
runs of the queries do with equal times, exactly if no times are equal over a page boundary, and if the limit is
an integer of 64 bits unless there is nothing to list. -/
theorem status_pages_list_once_iff (db : Database) {limit : ℕ} (positive : 1 ≤ limit) (userId : Option String) :
    (∀ contestId : Option String,
      ListsOnce db (db.matching (given contestId) none (given userId)) limit (getSubmissionsCount db contestId userId)
          (fun order page => getSubmissions order db db page limit contestId userId) ↔
        (db.matching (given contestId) none (given userId) = [] ∨ limit < 2 ^ 63) ∧
          Untied (db.matching (given contestId) none (given userId)) limit) ∧
    ∀ problemId : String,
      ListsOnce db (db.matching none (some problemId) (given userId)) limit
          (getProblemSubmissionsCount db problemId userId)
          (fun order page => getSubmissionsForProblem order db db page limit problemId userId) ↔
        (db.matching none (some problemId) (given userId) = [] ∨ limit < 2 ^ 63) ∧
          Untied (db.matching none (some problemId) (given userId)) limit := by
  constructor
  · intro contestId
    exact listsOnce_iff (numbered_contest contestId userId) positive (selects_contest contestId userId) contest_counted
      fun order k page => page_eq_ok_iff
  · intro problemId
    have numbered := numbered_problem problemId userId
    exact listsOnce_iff (numbered_lifted numbered) positive (selects_problem problemId userId)
      (fun total => count_alone_eq_ok_iff numbered) fun order k page => page_eq_ok_iff

end Services

/-- Submissions with the ids 1 to 31, the first two of them at one time. -/
def contestStart : Database where
  submissions := (List.range 31).map fun (i : ℕ) =>
    ⟨i + 1, "d0eebc999c0b4ef8bb6d6bb9bd380a11".toList, "a0eebc999c0b4ef8bb6d6bb9bd380a11".toList, "AC", some 15,
      some 1024, 1700000000000000 + ((i - 1 : ℕ) : ℤ)⟩
  problems := [⟨"d0eebc999c0b4ef8bb6d6bb9bd380a11".toList, 1, some "A"⟩]
  submissionIds := by decide
  problemIds := by decide
  references := by decide +kernel
  integers := by
    intro s member
    obtain ⟨i, small, rfl⟩ := List.mem_map.mp member
    rw [List.mem_range] at small
    exact ⟨by dsimp only; omega, by dsimp only; omega⟩

/-- With pages of 16 the tie is on the second page. -/
theorem contest_start_pages_of_sixteen :
    ListsOnce contestStart (contestStart.matching (some "1") none none) 16
      (getSubmissionsCount contestStart (some "1") none)
      fun order page => getSubmissions order contestStart contestStart page 16 (some "1") none := by
  refine ((status_pages_list_once_iff contestStart (by decide : 1 ≤ 16) none).1 (some "1")).mpr ⟨.inr (by decide), ?_⟩
  intro k later inside
  have two : pageCount (contestStart.matching (given (some "1")) none (given none)).length 16 = 2 := by decide +kernel
  obtain rfl : k = 1 := by omega
  decide +kernel

/-- With pages of 30 submission 1 may be on both pages, and submission 2 on none. -/
theorem tied_submission_lost :
    ¬ ListsOnce contestStart (contestStart.matching (some "1") none none) 30
      (getSubmissionsCount contestStart (some "1") none)
      fun order page => getSubmissions order contestStart contestStart page 30 (some "1") none := by
  intro once
  let orders (k : ℕ) : Order := if k = 0 then .stable _ else (List.Arrangement.stable _).swapTied 29
  obtain ⟨_, pages, listing, ran⟩ := once orders 31 (by decide +kernel)
  have shown : (((List.range (pageCount 31 30)).mapM fun (k : ℕ) =>
      getSubmissions (orders k) contestStart contestStart (k + 1) 30 (some "1") none).map fun pages =>
        (pages.flatMap StatusPage.submissions).map SubmissionRow.submissionId) =
      .ok ((List.range 29).map (fun (i : ℕ) => (31 - i : ℤ)) ++ [1, 1]) := by
    decide +kernel
  rw [ran] at shown
  obtain ⟨listed, rows, _, perm, _⟩ := listing.rows
  have ids := Except.ok.inj shown
  dsimp only at ids
  rw [rows, List.map_map] at ids
  have submitted := perm.map Submission.id
  rw [List.map_map] at submitted
  have lost : (2 : ℤ) ∉ (List.range 29).map (fun (i : ℕ) => (31 - i : ℤ)) ++ [1, 1] := by decide +kernel
  refine lost (ids ▸ submitted.mem_iff.mpr ?_)
  decide +kernel

end JudgeSelf.StatusService
