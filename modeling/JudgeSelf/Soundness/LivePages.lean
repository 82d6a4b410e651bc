import JudgeSelf.Model.Status.Service

/-! # Statuses of a page

The page is copied into the body before the lookup in Redis comes to anything: the body has the rows as the
database returned them, whether the client refuses the ids or sends them.
-/

namespace JudgeSelf.StatusService

open Machine (Run Steps)

/-- A row of a page: the status of the hash takes the place of `QUEUE`. -/
def SubmissionRow.live (active : Active) (row : SubmissionRow) : SubmissionRow :=
  if row.status = "QUEUE" then { row with status := (active (toString row.submissionId)).getD row.status } else row

theorem SubmissionRow.live_eq_iff {active : Active} {row : SubmissionRow} :
    row.live active = row ↔
      (row.status = "QUEUE" → ∀ status ∈ active (toString row.submissionId), status = "QUEUE") := by
  rw [live]
  by_cases queued : row.status = "QUEUE"
  · simp only [queued, ↓reduceIte, forall_const]
    cases entry : active (toString row.submissionId) with
    | none => simp [← queued]
    | some status =>
      simp only [Option.getD_some, Option.mem_some_iff, forall_eq', ← queued]
      exact ⟨fun same => congrArg SubmissionRow.status same, fun same => by rw [same]⟩
  · simp only [queued, ↓reduceIte, false_implies]

private theorem map_live_eq_iff {active : Active} {rows : List SubmissionRow} :
    rows.map (SubmissionRow.live active) = rows ↔
      ∀ row ∈ rows, row.status = "QUEUE" → ∀ status ∈ active (toString row.submissionId), status = "QUEUE" := by
  calc
    _ ↔ rows.map (SubmissionRow.live active) = rows.map id := by rw [List.map_id]
    _ ↔ _ := by simp only [List.map_inj_left, id, SubmissionRow.live_eq_iff]

/-- The lookup that is under way for these ids. -/
def Lookup.Asks (queued : List ℤ) : Lookup → Prop
  | .none => queued = []
  | .sent asked | .executed asked _ => asked = queued ∧ queued ≠ []
  | .replied _ | .rejected _ => queued ≠ []

/-- The rows of the page object. -/
def Lookup.shown (dbSubs : List SubmissionRow) : Lookup → List SubmissionRow
  | .replied active => showStatuses (queuedSubs dbSubs) (hmGet active (queuedSubs dbSubs)) dbSubs
  | _ => dbSubs

/-- What the queries of the run have returned. -/
def Fetched (request : Request) (events : List Event) (result : Except Sql.QueryError (List SubmissionRow × ℕ)) :
    Prop :=
  ∀ order db counted, .queries order db counted ∈ events → request.fetch order db counted = result

/-- The page object belongs to the rows that were fetched. -/
structure Paged (request : Request) (events : List Event) (s : StatusRequest) (dbSubs : List SubmissionRow)
    (totalCount : ℕ) : Prop where
  fetched : Fetched request events (.ok (dbSubs, totalCount))
  asks : s.lookup.Asks (queuedSubs dbSubs)
  page : s.page = some (statusPage request.page limit (s.lookup.shown dbSubs) totalCount)

namespace StatusRequest

/-- The invariant of a request. -/
def Consistent (request : Request) (events : List Event) (s : StatusRequest) : Prop :=
  match s.stage with
  | .querying => (∀ order db counted, .queries order db counted ∉ events) ∧ s.lookup = .none
  | .settled (.ok ()) =>
    ∃ dbSubs totalCount, Paged request events s dbSubs totalCount ∧ ∀ active, s.lookup ≠ .replied active
  | .responded (.json body) =>
    ∃ dbSubs totalCount, Paged request events s dbSubs totalCount ∧
      body = statusPage request.page limit dbSubs totalCount
  | .settled (.error error) => Fetched request events (.error error) ∧ s.lookup = .none
  | .responded (.error _ _) => ∃ error, Fetched request events (.error error) ∧ s.lookup = .none

end StatusRequest

variable {request : Request} {active : Active} {events : List Event} {s t : StatusRequest}

theorem Fetched.concat {result : Except Sql.QueryError (List SubmissionRow × ℕ)} {event : Event}
    (fetched : Fetched request events result) (other : ∀ order db counted, event ≠ .queries order db counted) :
    Fetched request (events ++ [event]) result := by
  intro order db counted taken
  rcases List.mem_append.mp taken with before | last
  · exact fetched order db counted before
  · exact absurd (List.mem_singleton.mp last).symm (other order db counted)

/-- Nothing but the lookup, and what it does to the page object, changes. -/
theorem StatusRequest.Consistent.move {event : Event} (inv : s.Consistent request events)
    (other : ∀ order db counted, event ≠ .queries order db counted) (stage : t.stage = s.stage)
    (idle : s.lookup = .none → t.lookup = .none)
    (paged : ∀ dbSubs totalCount, Paged request events s dbSubs totalCount →
      Paged request (events ++ [event]) t dbSubs totalCount)
    (early : ∀ result, s.stage = .settled result → ∀ active, t.lookup = .replied active → s.lookup = .replied active) :
    t.Consistent request (events ++ [event]) := by
  rw [Consistent] at inv ⊢
  rw [stage]
  split at inv
  · next querying =>
    refine ⟨fun order db counted taken => ?_, idle inv.2⟩
    rcases List.mem_append.mp taken with before | last
    · exact inv.1 order db counted before
    · exact other order db counted (List.mem_singleton.mp last).symm
  · next settled =>
    obtain ⟨dbSubs, totalCount, before, unread⟩ := inv
    exact ⟨dbSubs, totalCount, paged dbSubs totalCount before, fun active replied =>
      unread active (early _ settled active replied)⟩
  · obtain ⟨dbSubs, totalCount, before, body⟩ := inv
    exact ⟨dbSubs, totalCount, paged dbSubs totalCount before, body⟩
  · exact ⟨inv.1.concat other, idle inv.2⟩
  · obtain ⟨error, fetched, none⟩ := inv
    exact ⟨error, fetched.concat other, idle none⟩

/-- A lookup that goes on without its reply shows what it has shown. -/
theorem StatusRequest.Consistent.setLookup {event : Event} {lookup : Lookup} (inv : s.Consistent request events)
    (other : ∀ order db counted, event ≠ .queries order db counted) (begun : s.lookup ≠ .none)
    (asks : ∀ queued, s.lookup.Asks queued → lookup.Asks queued)
    (shown : ∀ dbSubs, lookup.shown dbSubs = s.lookup.shown dbSubs) (unread : ∀ active, lookup ≠ .replied active) :
    StatusRequest.Consistent request (events ++ [event]) { s with lookup } := by
  refine inv.move other rfl (fun idle => absurd idle begun) (fun dbSubs totalCount before => ?_)
    fun _ _ active replied => absurd replied (unread active)
  exact ⟨before.fetched.concat other, asks _ before.asks, by rw [shown]; exact before.page⟩

/-- The replies to the queries are the first ones. -/
theorem consistent_queries {order : Order} {db counted : Database} (inv : s.Consistent request events)
    (taken : s.step request (.queries order db counted) = some t) :
    t.Consistent request (events ++ [.queries order db counted]) := by
  rw [StatusRequest.step] at taken
  split at taken
  · next querying =>
    rw [StatusRequest.Consistent, querying] at inv
    have only {result : Except Sql.QueryError (List SubmissionRow × ℕ)}
        (fetched : request.fetch order db counted = result) :
        Fetched request (events ++ [.queries order db counted]) result := by
      intro order' db' counted' member
      rcases List.mem_append.mp member with before | last
      · exact absurd before (inv.1 order' db' counted')
      · cases List.mem_singleton.mp last
        exact fetched
    split at taken
    · next dbSubs totalCount fetched =>
      obtain rfl := Option.some.inj taken
      refine ⟨dbSubs, totalCount, ⟨only fetched, ?_, ?_⟩, ?_⟩
      · rw [StatusRequest.resolve]
        split
        · next nothing => exact nothing
        · next queued => exact ⟨rfl, queued⟩
      · rw [StatusRequest.resolve]
        split <;> rfl
      · intro active
        rw [StatusRequest.resolve]
        split <;> exact Lookup.noConfusion
    · next error fetched =>
      obtain rfl := Option.some.inj taken
      exact ⟨only fetched, inv.2⟩
  · contradiction

/-- The body is a copy of the page as it was fetched. -/
theorem consistent_respond (inv : s.Consistent request events) (taken : s.step request .respond = some t) :
    t.Consistent request (events ++ [.respond]) := by
  rw [StatusRequest.step] at taken
  split at taken
  · next page settled object =>
    obtain rfl := Option.some.inj taken
    rw [StatusRequest.Consistent, settled] at inv
    obtain ⟨dbSubs, totalCount, paged, unread⟩ := inv
    refine ⟨dbSubs, totalCount, ⟨paged.fetched.concat (by simp), paged.asks, paged.page⟩, ?_⟩
    rw [paged.page] at object
    rw [← Option.some.inj object]
    cases lookup : s.lookup with
    | replied active => exact absurd lookup (unread active)
    | none | sent | executed | rejected => rfl
  · next error settled =>
    obtain rfl := Option.some.inj taken
    rw [StatusRequest.Consistent, settled] at inv
    exact ⟨error, inv.1.concat (by simp), inv.2⟩
  · contradiction

/-- The reply changes the page object when the body is out. -/
theorem consistent_reply (inv : s.Consistent request events) (taken : s.step request .reply = some t) :
    t.Consistent request (events ++ [.reply]) := by
  rw [StatusRequest.step] at taken
  split at taken
  · next response queued active responded executed =>
    obtain rfl := Option.some.inj taken
    refine inv.move (by simp) rfl (by simp [executed]) (fun dbSubs totalCount before => ?_) (by simp [responded])
    have asked := before.asks
    rw [executed] at asked
    obtain ⟨rfl, queued⟩ := asked
    refine ⟨before.fetched.concat (by simp), queued, ?_⟩
    dsimp only
    rw [before.page, executed]
    rfl
  · contradiction

private theorem consistent_step {event : Event} (inv : s.Consistent request events)
    (taken : s.step request event = some t) : t.Consistent request (events ++ [event]) := by
  cases event with
  | queries order db counted => exact consistent_queries inv taken
  | respond => exact consistent_respond inv taken
  | reply => exact consistent_reply inv taken
  | setActive active =>
    obtain rfl := Option.some.inj taken
    exact inv.move (by simp) rfl id (fun _ _ before => ⟨before.fetched.concat (by simp), before.asks, before.page⟩)
      fun _ _ _ => id
  | execute =>
    rw [StatusRequest.step] at taken
    split at taken
    · next queued sent =>
      obtain rfl := Option.some.inj taken
      exact inv.setLookup (by simp) (by simp [sent]) (by simp [sent, Lookup.Asks]) (by simp [sent, Lookup.shown])
        (by simp)
    · contradiction
  | reject =>
    rw [StatusRequest.step] at taken
    split at taken
    · next queued sent =>
      obtain rfl := Option.some.inj taken
      exact inv.setLookup (by simp) (by simp [sent]) (by simp [sent, Lookup.Asks]) (by simp [sent, Lookup.shown])
        (by simp)
    · next queued active executed =>
      obtain rfl := Option.some.inj taken
      exact inv.setLookup (by simp) (by simp [executed]) (by simp [executed, Lookup.Asks])
        (by simp [executed, Lookup.shown]) (by simp)
    · contradiction

/-- Every run of a request keeps the invariant. -/
theorem consistent_of_run (run : Run (Steps (StatusRequest.step request)) (.start active) events s) :
    s.Consistent request events := by
  have initial : (StatusRequest.start active).Consistent request [] := ⟨fun _ _ _ => List.not_mem_nil, rfl⟩
  exact run.history initial fun _ _ _ _ _ => consistent_step

/-- A body belongs to rows that were fetched, whose `QUEUE` entries are looked up. -/
theorem paged_of_responded (run : Run (Steps (StatusRequest.step request)) (.start active) events s)
    {order : Order} {db counted : Database} (queried : .queries order db counted ∈ events)
    {dbSubs : List SubmissionRow} {totalCount : ℕ} (fetched : request.fetch order db counted = .ok (dbSubs, totalCount))
    {body : StatusPage} (responded : s.stage = .responded (.json body)) :
    Paged request events s dbSubs totalCount ∧ body = statusPage request.page limit dbSubs totalCount := by
  have inv := consistent_of_run run
  rw [StatusRequest.Consistent, responded] at inv
  obtain ⟨dbSubs', totalCount', paged, rfl⟩ := inv
  have same := paged.fetched order db counted queried
  rw [fetched] at same
  cases same
  exact ⟨paged, rfl⟩

/-- In every run the body has the rows as they are in the database, whatever the hash holds at the lookup. The
statuses that the page owes are in it exactly if the hash has nothing but `QUEUE` for the rows in the queue. -/
theorem body_live_iff (run : Run (Steps (StatusRequest.step request)) (.start active) events s)
    {order : Order} {db counted : Database} (queried : .queries order db counted ∈ events)
    {dbSubs : List SubmissionRow} {totalCount : ℕ} (fetched : request.fetch order db counted = .ok (dbSubs, totalCount))
    {body : StatusPage} (responded : s.stage = .responded (.json body)) (looked : Active) :
    body = statusPage request.page limit (dbSubs.map (SubmissionRow.live looked)) totalCount ↔
      ∀ row ∈ dbSubs, row.status = "QUEUE" → ∀ status ∈ looked (toString row.submissionId), status = "QUEUE" := by
  obtain ⟨_, rfl⟩ := paged_of_responded run queried fetched responded
  rw [← map_live_eq_iff]
  constructor
  · intro same
    exact (congrArg StatusPage.submissions same).symm
  · intro same
    rw [same]

/-- A page with rows in the queue can be answered, and the client refuses its ids. -/
theorem exists_run {order : Order} {db counted : Database} {dbSubs : List SubmissionRow} {totalCount : ℕ}
    (fetched : request.fetch order db counted = .ok (dbSubs, totalCount)) (queued : queuedSubs dbSubs ≠ [])
    (active : Active) :
    ∃ s, Run (Steps (StatusRequest.step request)) (.start active) [.queries order db counted, .respond, .reject] s ∧
      s.stage = .responded (.json (statusPage request.page limit dbSubs totalCount)) ∧ s.lookup = .rejected active := by
  have first : (StatusRequest.start active).step request (.queries order db counted) =
      some ((StatusRequest.start active).resolve request dbSubs totalCount) := by
    simp only [StatusRequest.step, StatusRequest.start, fetched]
  have sent : (StatusRequest.start active).resolve request dbSubs totalCount =
      ⟨active, some (statusPage request.page limit dbSubs totalCount), .sent (queuedSubs dbSubs),
        .settled (.ok ())⟩ := by
    rw [StatusRequest.resolve, if_neg queued]
    rfl
  rw [sent] at first
  exact ⟨_, ⟨_, first, _, rfl, _, rfl, rfl⟩, rfl, rfl⟩

def sampleDatabase : Database where
  submissions := [
    ⟨7, "b0eebc999c0b4ef8bb6d6bb9bd380a11".toList, "a0eebc999c0b4ef8bb6d6bb9bd380a11".toList, "AC", some 15, some 1024,
      1700000000000000⟩,
    ⟨8, "b0eebc999c0b4ef8bb6d6bb9bd380a11".toList, "a0eebc999c0b4ef8bb6d6bb9bd380a11".toList, "QUEUE", none, none,
      1700000060000000⟩]
  problems := [⟨"b0eebc999c0b4ef8bb6d6bb9bd380a11".toList, 1, some "A"⟩]
  submissionIds := by decide
  problemIds := by decide
  references := by decide +kernel
  integers := by simp

/-- The newest submission is in the queue. -/
def sampleRows : List SubmissionRow := [
  ⟨8, "a0eebc99-9c0b-4ef8-bb6d-6bb9bd380a11", "b0eebc99-9c0b-4ef8-bb6d-6bb9bd380a11", 1, some "A", "QUEUE", .number 0,
    .number 0, 1700000060000⟩,
  ⟨7, "a0eebc99-9c0b-4ef8-bb6d-6bb9bd380a11", "b0eebc99-9c0b-4ef8-bb6d-6bb9bd380a11", 1, some "A", "AC", .text "15",
    .text "1024", 1700000000000⟩]

def sampleRequest : Request := .getStatusPage none (some "1") none

private theorem sampleRows_fetched :
    sampleRequest.fetch (.stable _) sampleDatabase sampleDatabase = .ok (sampleRows, 2) := by
  decide +kernel

theorem queued_page_without_entry : ∃ s body, Run (Steps (StatusRequest.step sampleRequest)) (.start fun _ => none)
      [.queries (.stable _) sampleDatabase sampleDatabase, .respond, .reject] s ∧
    s.stage = .responded (.json body) ∧ s.lookup.content = some (fun _ => none) ∧
      body = statusPage 1 30 (sampleRows.map (SubmissionRow.live fun _ => none)) 2 := by
  obtain ⟨s, run, responded, refused⟩ := exists_run sampleRows_fetched (by decide +kernel) fun _ => none
  refine ⟨s, _, run, responded, by rw [refused]; rfl, ?_⟩
  exact (body_live_iff run List.mem_cons_self sampleRows_fetched responded fun _ => none).mpr (by simp)

/-- The hash while submission 8 is judged. -/
def judging : Active := Function.update (fun _ => none) "8" (some "Running on test 3")

theorem running_shown_as_queued : ∃ s body, Run (Steps (StatusRequest.step sampleRequest)) (.start judging)
      [.queries (.stable _) sampleDatabase sampleDatabase, .respond, .reject] s ∧
    s.stage = .responded (.json body) ∧ s.lookup.content = some judging ∧
      body ≠ statusPage 1 30 (sampleRows.map (SubmissionRow.live judging)) 2 := by
  obtain ⟨s, run, responded, refused⟩ := exists_run sampleRows_fetched (by decide +kernel) judging
  refine ⟨s, _, run, responded, by rw [refused]; rfl, ?_⟩
  decide +kernel

end JudgeSelf.StatusService
