import JudgeSelf.Model.Engine.DbCache
import JudgeSelf.Soundness.CleanedCache

/-! # The lifetime of problem data

An entry of the database cache was the row of its problem at a moment of the query that loaded it, and
it expires one lifetime after the answer. Until then no call asks again: the cleaner removes an entry only
when it has expired for some time, and the lock keeps a second query out while the first is under way.
-/

namespace JudgeSelf.Engine

open Machine (Run Steps Taken)

namespace DbClock

variable {rows : String → Option SelectedProblem} {s t : DbClock} {i j : ℕ} {problemId : String}

/-- Each way to take a step. -/
inductive Moves (s : DbClock) : DbEvent → DbClock → Prop
  | tick (duration : ℕ) : Moves s (.tick duration) { s with now := s.now + duration }
  | change (rows : String → Option SelectedProblem) : Moves s (.change rows) { s with rows }
  | call {i : ℕ} (problemId : String) (fresh : s.calls.get? i = none) :
    Moves s (.call i problemId) (s.setStage i problemId .called)
  | hit {i : ℕ} {problemId : String} {problemData : FetchedProblem}
    (at_ : s.calls.get? i = some ⟨problemId, .called⟩) (free : s.mu = none)
    (found : s.cached problemId = some problemData) :
    Moves s (.advance i) (s.setStage i problemId (.returned problemData s.now))
  | miss {i : ℕ} {problemId : String} (at_ : s.calls.get? i = some ⟨problemId, .called⟩) (free : s.mu = none) :
    Moves s (.advance i) (s.setStage i problemId .missed)
  | lock {i : ℕ} {problemId : String} (at_ : s.calls.get? i = some ⟨problemId, .missed⟩) (free : s.mu = none) :
    Moves s (.advance i) ({ s with mu := some (.call i) }.setStage i problemId .locked)
  | hitLocked {i : ℕ} {problemId : String} {problemData : FetchedProblem}
    (at_ : s.calls.get? i = some ⟨problemId, .locked⟩) (found : s.cached problemId = some problemData) :
    Moves s (.advance i) ({ s with mu := none }.setStage i problemId (.returned problemData s.now))
  | ask {i : ℕ} {problemId : String} (at_ : s.calls.get? i = some ⟨problemId, .locked⟩)
    (expired : s.cached problemId = none) : Moves s (.advance i) (s.setStage i problemId .querying)
  | load {i : ℕ} {problemId : String} {row : SelectedProblem}
    (at_ : s.calls.get? i = some ⟨problemId, .answered row⟩) :
    Moves s (.advance i) ({ s with
      mu := none
      store := s.store.set problemId ⟨row.scan, s.now + cacheTtl⟩ }.setStage i problemId (.returned row.scan s.now))
  | read {i : ℕ} {problemId : String} {row : SelectedProblem}
    (at_ : s.calls.get? i = some ⟨problemId, .querying⟩) (exists_ : s.rows problemId = some row) :
    Moves s (.read i) (s.setStage i problemId (.answered row))
  | fail {i : ℕ} {problemId : String} {stage : DbStage} (at_ : s.calls.get? i = some ⟨problemId, stage⟩)
    (asked : stage = .querying ∨ ∃ row, stage = .answered row) :
    Moves s (.fail i) ({ s with mu := none }.setStage i problemId .failed)
  | cleanBegin (idle : s.cleaning = none) : Moves s .cleanBegin { s with cleaning := some s.now }
  | cleanLock (free : s.mu = none) : Moves s .cleanLock { s with mu := some .cleaner }
  | clean {now : ℤ} {order : List (String × CachedProblem)} (began : s.cleaning = some now)
    (locked : s.mu = some .cleaner) (visits : order.Perm s.store.entries) : Moves s (.clean order)
      { s with mu := none, store := (order.foldl (evict now) (s.store, [])).1, cleaning := none }

private theorem moves_of_getOrLoad {stage : DbStage} (at_ : s.calls.get? i = some ⟨problemId, stage⟩)
    (taken : s.getOrLoad i problemId stage = some t) : s.Moves (.advance i) t := by
  cases stage with
  | called =>
    rw [getOrLoad] at taken
    split at taken
    · next free =>
      split at taken
      · next problemData found =>
        obtain rfl := Option.some.inj taken
        exact .hit at_ free found
      · obtain rfl := Option.some.inj taken
        exact .miss at_ free
    · contradiction
  | missed =>
    rw [getOrLoad] at taken
    split at taken
    · next free =>
      obtain rfl := Option.some.inj taken
      exact .lock at_ free
    · contradiction
  | locked =>
    rw [getOrLoad] at taken
    split at taken
    · next problemData found =>
      obtain rfl := Option.some.inj taken
      exact .hitLocked at_ found
    · next expired =>
      obtain rfl := Option.some.inj taken
      exact .ask at_ expired
  | answered row =>
    obtain rfl := Option.some.inj taken
    exact .load at_
  | querying => contradiction
  | returned problemData time => contradiction
  | failed => contradiction

private theorem moves_of_step {event : DbEvent} (taken : s.step event = some t) : s.Moves event t := by
  cases event with
  | tick duration =>
    obtain rfl := Option.some.inj taken
    exact .tick duration
  | change rows =>
    obtain rfl := Option.some.inj taken
    exact .change rows
  | call i problemId =>
    rw [step] at taken
    split at taken
    · contradiction
    · next fresh =>
      obtain rfl := Option.some.inj taken
      exact .call problemId fresh
  | advance i =>
    rw [step] at taken
    split at taken
    · next call at_ => exact moves_of_getOrLoad at_ taken
    · contradiction
  | read i =>
    rw [step] at taken
    split at taken
    · next problemId at_ =>
      obtain ⟨row, exists_, rfl⟩ := Option.map_eq_some_iff.mp taken
      exact .read at_ exists_
    · contradiction
  | fail i =>
    rw [step] at taken
    split at taken
    · next problemId at_ =>
      obtain rfl := Option.some.inj taken
      exact .fail at_ (.inl rfl)
    · next problemId row at_ =>
      obtain rfl := Option.some.inj taken
      exact .fail at_ (.inr ⟨row, rfl⟩)
    · contradiction
  | cleanBegin =>
    rw [step] at taken
    split at taken
    · next idle =>
      obtain rfl := Option.some.inj taken
      exact .cleanBegin idle
    · contradiction
  | cleanLock =>
    rw [step] at taken
    split at taken
    · next ready =>
      obtain rfl := Option.some.inj taken
      exact .cleanLock ready.2
    · contradiction
  | clean order =>
    rw [step] at taken
    split at taken
    · next now began =>
      split at taken
      · next ready =>
        obtain rfl := Option.some.inj taken
        exact .clean began ready.1 ready.2
      · contradiction
    · contradiction

@[simp] theorem get?_calls_setStage (s : DbClock) (i j : ℕ) (problemId : String) (stage : DbStage) :
    (s.setStage i problemId stage).calls.get? j =
      if j = i then some ⟨problemId, stage⟩ else s.calls.get? j := Record.get?_set ..

end DbClock

/-- The stages with the write lock. -/
def DbStage.Locked : DbStage → Prop
  | .locked | .querying | .answered _ => True
  | .called | .missed | .returned _ _ | .failed => False

namespace DbClock

variable {rows : String → Option SelectedProblem} {s t : DbClock} {i j : ℕ} {problemId : String}

/-- A call in a locked stage has the lock. -/
def Exclusive (s : DbClock) : Prop :=
  ∀ i call, s.calls.get? i = some call → call.stage.Locked → s.mu = some (.call i)

theorem Exclusive.restage (exclusive : s.Exclusive) {stage : DbStage}
    (calls : t.calls = s.calls.set i ⟨problemId, stage⟩) (holder : stage.Locked → t.mu = some (.call i))
    (others : ∀ j, j ≠ i → s.mu = some (.call j) → t.mu = some (.call j)) : t.Exclusive := by
  intro j call present locked
  rw [calls, Record.get?_set] at present
  split at present
  · next same =>
    obtain rfl := Option.some.inj present
    exact same ▸ holder locked
  · next other => exact others j other (exclusive j call present locked)

theorem Exclusive.of_calls (exclusive : s.Exclusive) (calls : t.calls = s.calls)
    (mu : ∀ j, s.mu = some (.call j) → t.mu = some (.call j)) : t.Exclusive :=
  fun j call present locked => mu j (exclusive j call (calls ▸ present) locked)

theorem Exclusive.step {event : DbEvent} (exclusive : s.Exclusive) (moves : s.Moves event t) : t.Exclusive := by
  have released {i : ℕ} {call : DbCall} (at_ : s.calls.get? i = some call) (locked : call.stage.Locked) (j : ℕ)
      (other : j ≠ i) (held : s.mu = some (.call j)) : none = some (DbHolder.call j) := by
    rw [exclusive i call at_ locked] at held
    exact absurd (DbHolder.call.inj (Option.some.inj held)).symm other
  cases moves with
  | tick duration => exact exclusive.of_calls rfl fun _ held => held
  | change rows => exact exclusive.of_calls rfl fun _ held => held
  | call problemId fresh => exact exclusive.restage rfl (fun absurdity => absurdity.elim) fun _ _ held => held
  | hit at_ free found => exact exclusive.restage rfl (fun absurdity => absurdity.elim) fun _ _ held => held
  | miss at_ free => exact exclusive.restage rfl (fun absurdity => absurdity.elim) fun _ _ held => held
  | lock at_ free =>
    refine exclusive.restage rfl (fun _ => rfl) fun j _ held => ?_
    rw [free] at held
    contradiction
  | hitLocked at_ found => exact exclusive.restage rfl (fun absurdity => absurdity.elim) (released at_ trivial)
  | ask at_ expired => exact exclusive.restage rfl (fun _ => exclusive _ _ at_ trivial) fun _ _ held => held
  | load at_ => exact exclusive.restage rfl (fun absurdity => absurdity.elim) (released at_ trivial)
  | read at_ exists_ => exact exclusive.restage rfl (fun _ => exclusive _ _ at_ trivial) fun _ _ held => held
  | fail at_ asked =>
    refine exclusive.restage rfl (fun absurdity => absurdity.elim) (released at_ ?_)
    rcases asked with rfl | ⟨row, rfl⟩
    · trivial
    · trivial
  | cleanBegin idle => exact exclusive.of_calls rfl fun _ held => held
  | cleanLock free =>
    refine exclusive.of_calls rfl fun j held => ?_
    rw [free] at held
    contradiction
  | clean began locked visits =>
    refine exclusive.of_calls rfl fun j held => ?_
    rw [locked] at held
    exact absurd (Option.some.inj held) DbHolder.noConfusion

/-- A step with which a call sends its query. -/
def Asks (s : DbClock) (i : ℕ) (problemId : String) (asked : DbClock) : Prop :=
  s.calls.get? i = some ⟨problemId, .locked⟩ ∧ s.step (.advance i) = some asked ∧
    asked.calls.get? i = some ⟨problemId, .querying⟩

/-- A step with which a call stores the answer. -/
def Loads (s : DbClock) (i : ℕ) (problemId : String) (row : SelectedProblem) (loaded : DbClock) : Prop :=
  s.calls.get? i = some ⟨problemId, .answered row⟩ ∧ s.step (.advance i) = some loaded

variable (rows) {events : List DbEvent} {row : SelectedProblem} {began moment ended : ℤ}

def Asked (events : List DbEvent) (i : ℕ) (problemId : String) (began : ℤ) : Prop :=
  ∃ s t, Taken (Steps step) (start rows) events s (.advance i) t ∧ s.Asks i problemId t ∧ s.now = began

/-- The database has read the row for the query of a call. -/
def Found (events : List DbEvent) (i : ℕ) (problemId : String) (row : SelectedProblem) (moment : ℤ) : Prop :=
  ∃ s t, Taken (Steps step) (start rows) events s (.read i) t ∧
    s.calls.get? i = some ⟨problemId, .querying⟩ ∧ s.rows problemId = some row ∧ s.now = moment

def Loaded (events : List DbEvent) (i : ℕ) (problemId : String) (row : SelectedProblem) (ended : ℤ) : Prop :=
  ∃ s t, Taken (Steps step) (start rows) events s (.advance i) t ∧ s.Loads i problemId row t ∧ s.now = ended

/-- The query of a call: when it was sent, when the row was read, when the answer was stored. -/
structure Query (events : List DbEvent) (i : ℕ) (problemId : String) (row : SelectedProblem)
    (began moment ended : ℤ) : Prop where
  asked : Asked rows events i problemId began
  found : Found rows events i problemId row moment
  loaded : Loaded rows events i problemId row ended
  order : began ≤ moment ∧ moment ≤ ended

/-- The data were those of the row at a moment of a query, one lifetime and the duration of the query before
the given time at the earliest. -/
def Recent (events : List DbEvent) (problemId : String) (problemData : FetchedProblem) (time : ℤ) : Prop :=
  ∃ i row began moment ended, Query rows events i problemId row began moment ended ∧ problemData = row.scan ∧
    time - cacheTtl - (ended - began) ≤ moment

variable {rows}

theorem Asked.later (asked : Asked rows events i problemId began) (e : DbEvent) :
    Asked rows (events ++ [e]) i problemId began := by
  obtain ⟨s, t, taken, rest⟩ := asked
  exact ⟨s, t, taken.later _, rest⟩

theorem Found.later (found : Found rows events i problemId row moment) (e : DbEvent) :
    Found rows (events ++ [e]) i problemId row moment := by
  obtain ⟨s, t, taken, rest⟩ := found
  exact ⟨s, t, taken.later _, rest⟩

theorem Query.later (query : Query rows events i problemId row began moment ended) (e : DbEvent) :
    Query rows (events ++ [e]) i problemId row began moment ended := by
  obtain ⟨s, t, taken, rest⟩ := query.loaded
  exact ⟨query.asked.later e, query.found.later e, ⟨s, t, taken.later _, rest⟩, query.order⟩

theorem Recent.later {problemData : FetchedProblem} {time : ℤ} (recent : Recent rows events problemId problemData time)
    (e : DbEvent) : Recent rows (events ++ [e]) problemId problemData time := by
  obtain ⟨i, row, began, moment, ended, query, rest⟩ := recent
  exact ⟨i, row, began, moment, ended, query.later e, rest⟩

/-- What the run so far has done for a call in its stage. -/
def StageAccounted (rows : String → Option SelectedProblem) (events : List DbEvent) (now : ℤ) (i : ℕ)
    (problemId : String) : DbStage → Prop
  | .querying => ∃ began ≤ now, Asked rows events i problemId began
  | .answered row => ∃ began moment, Asked rows events i problemId began ∧
      Found rows events i problemId row moment ∧ began ≤ moment ∧ moment ≤ now
  | .returned problemData time => Recent rows events problemId problemData time
  | .called | .missed | .locked | .failed => True

/-- An entry of the cache comes from a query of the run. -/
def ItemAccounted (rows : String → Option SelectedProblem) (events : List DbEvent) (now : ℤ) (problemId : String)
    (item : CachedProblem) : Prop :=
  ∃ i row began moment ended, Query rows events i problemId row began moment ended ∧
    item = ⟨row.scan, ended + cacheTtl⟩ ∧ ended ≤ now

structure Accounted (rows : String → Option SelectedProblem) (events : List DbEvent) (s : DbClock) : Prop where
  items : ∀ problemId item, s.store.get? problemId = some item → ItemAccounted rows events s.now problemId item
  calls : ∀ i call, s.calls.get? i = some call → StageAccounted rows events s.now i call.problemId call.stage

theorem StageAccounted.later {stage : DbStage} {now now' : ℤ}
    (accounted : StageAccounted rows events now i problemId stage) (passed : now ≤ now') (e : DbEvent) :
    StageAccounted rows (events ++ [e]) now' i problemId stage := by
  cases stage with
  | querying =>
    obtain ⟨began, before, asked⟩ := accounted
    exact ⟨began, before.trans passed, asked.later e⟩
  | answered row =>
    obtain ⟨began, moment, asked, found, first, second⟩ := accounted
    exact ⟨began, moment, asked.later e, found.later e, first, second.trans passed⟩
  | returned problemData time => exact Recent.later accounted e
  | called => trivial
  | missed => trivial
  | locked => trivial
  | failed => trivial

theorem ItemAccounted.later {item : CachedProblem} {now now' : ℤ}
    (accounted : ItemAccounted rows events now problemId item) (passed : now ≤ now') (e : DbEvent) :
    ItemAccounted rows (events ++ [e]) now' problemId item := by
  obtain ⟨i, row, began, moment, ended, query, same, before⟩ := accounted
  exact ⟨i, row, began, moment, ended, query.later e, same, before.trans passed⟩

/-- A step that adds nothing to the cache and gives at most one call another stage. -/
theorem Accounted.move (accounted : s.Accounted rows events) (e : DbEvent) (passed : s.now ≤ t.now)
    (items : ∀ problemId item, t.store.get? problemId = some item → s.store.get? problemId = some item)
    (calls : ∀ i call, t.calls.get? i = some call → s.calls.get? i = some call ∨
      StageAccounted rows (events ++ [e]) t.now i call.problemId call.stage) : t.Accounted rows (events ++ [e]) where
  items problemId item present := (accounted.items problemId item (items problemId item present)).later passed e
  calls i call present := (calls i call present).elim (fun before => (accounted.calls i call before).later passed e) id

theorem Accounted.restage (accounted : s.Accounted rows events) {stage : DbStage} (e : DbEvent)
    (calls : t.calls = s.calls.set i ⟨problemId, stage⟩) (now : t.now = s.now) (store : t.store = s.store)
    (restaged : StageAccounted rows (events ++ [e]) t.now i problemId stage) : t.Accounted rows (events ++ [e]) := by
  refine accounted.move e now.ge (fun problemId item present => store ▸ present) fun j call present => ?_
  rw [calls, Record.get?_set] at present
  split at present
  · next same =>
    obtain rfl := Option.some.inj present
    exact .inr (same ▸ restaged)
  · exact .inl present

/-- What a lookup finds is recent. -/
theorem Accounted.recent (accounted : s.Accounted rows events) {problemData : FetchedProblem}
    (found : s.cached problemId = some problemData) : Recent rows events problemId problemData s.now := by
  rw [cached] at found
  split at found
  · next item stored =>
    split at found
    · next fresh =>
      obtain rfl := Option.some.inj found
      obtain ⟨i, row, began, moment, ended, query, rfl, _⟩ := accounted.items problemId item stored
      have order := query.order
      dsimp only at fresh
      exact ⟨i, row, began, moment, ended, query, rfl, by omega⟩
    · contradiction
  · contradiction

theorem Accounted.step {event : DbEvent} (accounted : s.Accounted rows events)
    (run : Run (Steps DbClock.step) (start rows) events s) (taken : s.step event = some t) :
    t.Accounted rows (events ++ [event]) := by
  have last : Taken (Steps DbClock.step) (start rows) (events ++ [event]) s event t := .last run taken
  have moves := moves_of_step taken
  cases moves with
  | tick duration => exact accounted.move _ (by dsimp only; omega) (fun _ _ present => present) fun _ _ => .inl
  | change rows => exact accounted.move _ le_rfl (fun _ _ present => present) fun _ _ => .inl
  | call problemId fresh => exact accounted.restage _ rfl rfl rfl trivial
  | hit at_ free found => exact accounted.restage _ rfl rfl rfl ((accounted.recent found).later _)
  | miss at_ free => exact accounted.restage _ rfl rfl rfl trivial
  | lock at_ free => exact accounted.restage _ rfl rfl rfl trivial
  | hitLocked at_ found => exact accounted.restage _ rfl rfl rfl ((accounted.recent found).later _)
  | @ask i problemId at_ expired =>
    refine accounted.restage _ rfl rfl rfl ⟨s.now, le_rfl, s, _, last, ⟨at_, taken, ?_⟩, rfl⟩
    rw [get?_calls_setStage, if_pos rfl]
  | @load i problemId row at_ =>
    obtain ⟨began, moment, asked, found, first, second⟩ := accounted.calls i _ at_
    have query : Query rows (events ++ [.advance i]) i problemId row began moment s.now :=
      ⟨asked.later _, found.later _, ⟨s, _, last, ⟨at_, taken⟩, rfl⟩, first, second⟩
    constructor
    · intro id item present
      change (s.store.set problemId _).get? id = some item at present
      rw [Record.get?_set] at present
      split at present
      · next same =>
        obtain rfl := Option.some.inj present
        subst same
        exact ⟨i, row, began, moment, s.now, query, rfl, le_rfl⟩
      · exact (accounted.items id item present).later le_rfl _
    · intro j call present
      rw [get?_calls_setStage] at present
      split at present
      · obtain rfl := Option.some.inj present
        refine ⟨i, row, began, moment, s.now, query, rfl, ?_⟩
        rw [cacheTtl]
        omega
      · exact (accounted.calls j call present).later le_rfl _
  | @read i problemId row at_ exists_ =>
    obtain ⟨began, before, asked⟩ := accounted.calls i _ at_
    exact accounted.restage _ rfl rfl rfl
      ⟨began, s.now, asked.later _, ⟨s, _, last, at_, exists_, rfl⟩, before, le_rfl⟩
  | fail at_ asked => exact accounted.restage _ rfl rfl rfl trivial
  | cleanBegin idle => exact accounted.move _ le_rfl (fun _ _ present => present) fun _ _ => .inl
  | cleanLock free => exact accounted.move _ le_rfl (fun _ _ present => present) fun _ _ => .inl
  | clean began locked visits =>
    refine accounted.move _ le_rfl (fun id item present => ?_) fun _ _ => .inl
    rw [get?_evict] at present
    split at present
    · contradiction
    · exact present

end DbClock

/-- The stages of a call that has sent its query. -/
def DbStage.Waits : DbStage → Prop
  | .querying | .answered _ => True
  | .called | .missed | .locked | .returned _ _ | .failed => False

def DbStage.Done : DbStage → Prop
  | .returned _ _ | .failed => True
  | .called | .missed | .locked | .querying | .answered _ => False

namespace DbClock

variable {rows : String → Option SelectedProblem} {s t : DbClock} {i j : ℕ} {problemId : String}
  {events : List DbEvent} {store : Record String CachedProblem}

/-- As long as the call waits for its answer, the cache is as it was. -/
def Untouched (i : ℕ) (store : Record String CachedProblem) (s : DbClock) : Prop :=
  ∃ call, s.calls.get? i = some call ∧ (call.stage.Waits ∧ s.store = store ∨ call.stage.Done)

/-- A step of others. -/
theorem Untouched.frame (untouched : s.Untouched i store) (exclusive : s.Exclusive)
    (calls : t.calls.get? i = s.calls.get? i) (kept : s.mu = some (.call i) → t.store = s.store) :
    t.Untouched i store := by
  obtain ⟨call, present, phase⟩ := untouched
  refine ⟨call, calls.trans present, phase.imp_left fun ⟨waits, same⟩ => ⟨waits, ?_⟩⟩
  have locked : call.stage.Locked := by
    obtain ⟨id, stage⟩ := call
    cases stage with
    | querying => trivial
    | answered row => trivial
    | called => exact waits.elim
    | missed => exact waits.elim
    | locked => exact waits.elim
    | returned problemData time => exact waits.elim
    | failed => exact waits.elim
  exact (kept (exclusive i call present locked)).trans same

/-- A step of a call that is not done. -/
theorem Untouched.restage (untouched : s.Untouched i store) (exclusive : s.Exclusive) {stage next : DbStage}
    (at_ : s.calls.get? j = some ⟨problemId, stage⟩) (calls : t.calls = s.calls.set j ⟨problemId, next⟩)
    (kept : j ≠ i → s.mu = some (.call i) → t.store = s.store) (pending : ¬ stage.Done)
    (own : stage.Waits → next.Waits ∧ t.store = s.store ∨ next.Done) : t.Untouched i store := by
  by_cases same : j = i
  · subst same
    obtain ⟨call, present, phase⟩ := untouched
    obtain rfl := Option.some.inj (at_.symm.trans present)
    refine ⟨⟨problemId, next⟩, by rw [calls, Record.get?_set_self], ?_⟩
    obtain ⟨waits, unchanged⟩ := phase.resolve_right pending
    exact (own waits).imp_left fun ⟨waits', kept'⟩ => ⟨waits', kept'.trans unchanged⟩
  · exact untouched.frame exclusive (by rw [calls, Record.get?_set, if_neg (Ne.symm same)]) (kept same)

theorem Untouched.step {event : DbEvent} (untouched : s.Untouched i store) (exclusive : s.Exclusive)
    (moves : s.Moves event t) : t.Untouched i store := by
  cases moves with
  | tick duration => exact untouched.frame exclusive rfl fun _ => rfl
  | change rows => exact untouched.frame exclusive rfl fun _ => rfl
  | @call j problemId fresh =>
    refine untouched.frame exclusive ?_ fun _ => rfl
    obtain ⟨call, present, _⟩ := untouched
    rw [get?_calls_setStage, if_neg]
    rintro rfl
    rw [fresh] at present
    contradiction
  | hit at_ free found => exact untouched.restage exclusive at_ rfl (fun _ _ => rfl) id fun waits => waits.elim
  | miss at_ free => exact untouched.restage exclusive at_ rfl (fun _ _ => rfl) id fun waits => waits.elim
  | lock at_ free => exact untouched.restage exclusive at_ rfl (fun _ _ => rfl) id fun waits => waits.elim
  | hitLocked at_ found => exact untouched.restage exclusive at_ rfl (fun _ _ => rfl) id fun waits => waits.elim
  | ask at_ expired => exact untouched.restage exclusive at_ rfl (fun _ _ => rfl) id fun waits => waits.elim
  | load at_ =>
    refine untouched.restage exclusive at_ rfl (fun other held => ?_) id fun _ => .inr trivial
    rw [exclusive _ _ at_ trivial] at held
    exact absurd (DbHolder.call.inj (Option.some.inj held)) other
  | read at_ exists_ => exact untouched.restage exclusive at_ rfl (fun _ _ => rfl) id fun _ => .inl ⟨trivial, rfl⟩
  | fail at_ asked =>
    refine untouched.restage exclusive at_ rfl (fun _ _ => rfl) ?_ fun _ => .inr trivial
    rcases asked with rfl | ⟨row, rfl⟩
    · exact id
    · exact id
  | cleanBegin idle => exact untouched.frame exclusive rfl fun _ => rfl
  | cleanLock free => exact untouched.frame exclusive rfl fun _ => rfl
  | clean began locked visits =>
    refine untouched.frame exclusive rfl fun held => ?_
    rw [locked] at held
    exact absurd (Option.some.inj held) DbHolder.noConfusion

theorem Untouched.run (untouched : s.Untouched i store) (exclusive : s.Exclusive)
    (run : Run (Steps DbClock.step) s events t) : t.Untouched i store := by
  have preserved (s : DbClock) (e : DbEvent) (t : DbClock) (both : s.Exclusive ∧ s.Untouched i store)
      (taken : s.step e = some t) : t.Exclusive ∧ t.Untouched i store :=
    have moves := moves_of_step taken
    ⟨both.1.step moves, both.2.step both.1 moves⟩
  have both : t.Exclusive ∧ t.Untouched i store := run.invariant preserved ⟨exclusive, untouched⟩
  exact both.2

/-- Until a time the cache has an entry for the problem that has not expired. -/
structure Lives (problemId : String) (expiry : ℤ) (s : DbClock) : Prop where
  cleaning : ∀ began, s.cleaning = some began → began ≤ s.now
  loaded : expiry ≤ s.now + cacheTtl
  item : s.now < expiry → ∃ item, s.store.get? problemId = some item ∧ expiry ≤ item.expiresAt

theorem Lives.step {expiry : ℤ} {event : DbEvent} (lives : s.Lives problemId expiry) (moves : s.Moves event t) :
    t.Lives problemId expiry := by
  cases moves with
  | tick duration =>
    refine ⟨fun began cleaning => ?_, ?_, fun early => lives.item (by dsimp only at early; omega)⟩
    · have := lives.cleaning began cleaning
      dsimp only
      omega
    · have := lives.loaded
      dsimp only
      omega
  | change rows => exact ⟨lives.cleaning, lives.loaded, lives.item⟩
  | call problemId fresh => exact ⟨lives.cleaning, lives.loaded, lives.item⟩
  | hit at_ free found => exact ⟨lives.cleaning, lives.loaded, lives.item⟩
  | miss at_ free => exact ⟨lives.cleaning, lives.loaded, lives.item⟩
  | lock at_ free => exact ⟨lives.cleaning, lives.loaded, lives.item⟩
  | hitLocked at_ found => exact ⟨lives.cleaning, lives.loaded, lives.item⟩
  | ask at_ expired => exact ⟨lives.cleaning, lives.loaded, lives.item⟩
  | @load i id row at_ =>
    refine ⟨lives.cleaning, lives.loaded, fun early => ?_⟩
    change ∃ item, (s.store.set id _).get? problemId = some item ∧ _
    rw [Record.get?_set]
    split
    · exact ⟨_, rfl, lives.loaded⟩
    · exact lives.item early
  | read at_ exists_ => exact ⟨lives.cleaning, lives.loaded, lives.item⟩
  | fail at_ asked => exact ⟨lives.cleaning, lives.loaded, lives.item⟩
  | cleanBegin idle => exact ⟨fun began same => (Option.some.inj same).ge, lives.loaded, lives.item⟩
  | cleanLock free => exact ⟨lives.cleaning, lives.loaded, lives.item⟩
  | @clean now order began locked visits =>
    refine ⟨fun _ absurdity => by contradiction, lives.loaded, fun early => ?_⟩
    obtain ⟨item, found, later⟩ := lives.item early
    refine ⟨item, ?_, later⟩
    dsimp only
    rw [get?_evict, if_neg]
    · exact found
    · rintro ⟨⟨id, removed⟩, member, rfl, expired⟩
      have stored := Record.get?_eq_some_iff.mpr (visits.mem_iff.mp member)
      obtain rfl := Option.some.inj (found.symm.trans stored)
      have passed := lives.cleaning now began
      rw [cacheCleanupBuffer] at expired
      dsimp only at expired early
      omega

theorem Lives.load {expiry : ℤ} {row : SelectedProblem} {loaded : DbClock} (lives : s.Lives problemId expiry)
    (loads : s.Loads i problemId row loaded) : loaded.Lives problemId (s.now + cacheTtl) := by
  obtain ⟨at_, taken⟩ := loads
  cases moves_of_step taken with
  | hit called | miss called | lock called | hitLocked called | ask called =>
    exact absurd (Option.some.inj (at_.symm.trans called)) (by simp)
  | load answered =>
    obtain ⟨rfl, same⟩ := DbCall.mk.inj (Option.some.inj (at_.symm.trans answered))
    obtain rfl := DbStage.answered.inj same
    exact ⟨lives.cleaning, le_rfl, fun _ => ⟨_, Record.get?_set_self .., le_rfl⟩⟩

theorem Lives.run {expiry : ℤ} (lives : s.Lives problemId expiry) (run : Run (Steps DbClock.step) s events t) :
    t.Lives problemId expiry :=
  run.invariant (fun _ _ _ lives taken => lives.step (moves_of_step taken)) lives

end DbClock

end JudgeSelf.Engine
