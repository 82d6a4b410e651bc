import JudgeSelf.Machine.Run
import JudgeSelf.Model.Leaderboard.Recorded
import JudgeSelf.Model.Leaderboard.Script

/-! # The texts that Redis holds

What the script leaves in a field is the text of an entry, whatever order the tables are written in, as long as the
times fit into the digits that `cjson` writes. So the commands on texts are those on entries.
-/

namespace List.Forall₂

variable {α β : Type*} {R : α → β → Prop} {l : List α} {m : List β}

private theorem rel_getElem? (related : Forall₂ R l m) (i : ℕ) : Option.Rel R l[i]? m[i]? := by
  induction related generalizing i with
  | nil => exact .none
  | cons here _ ih =>
    cases i with
    | zero => exact .some here
    | succ i => exact ih i

theorem eraseIdx (related : Forall₂ R l m) (i : ℕ) : Forall₂ R (l.eraseIdx i) (m.eraseIdx i) := by
  induction related generalizing i with
  | nil => exact .nil
  | cons here rest ih =>
    cases i with
    | zero => exact rest
    | succ i => exact .cons here (ih i)

end List.Forall₂

namespace JudgeSelf.LeaderboardService

open Json (Tree)

/-- The times that `cjson` writes exactly. -/
def Writable (time : ℤ) : Prop := time.natAbs < 10 ^ 14

instance (time : ℤ) : Decidable (Writable time) := inferInstanceAs (Decidable (_ < _))

def ProblemProblemState.members (sub : ProblemProblemState) : List (String × Tree) :=
  [("submissionId", .string sub.submissionId), ("relativeSubmittedAt", .number (.ofInt sub.relativeSubmittedAt)),
    ("status", .string sub.status)]

def ShowsState (sub : ProblemProblemState) (t : Tree) : Prop :=
  Writable sub.relativeSubmittedAt ∧ ∃ members, t = .object members ∧ members.Perm sub.members

def ShowsTrack (subs : List ProblemProblemState) (t : Tree) : Prop :=
  subs ≠ [] ∧ ∃ elements, t = .array elements ∧ List.Forall₂ ShowsState subs elements

structure ShowsProblems (problems : Record String (List ProblemProblemState)) (members : List (String × Tree)) :
    Prop where
  distinct : (members.map Prod.fst).Nodup
  shown : ∀ key t, (key, t) ∈ members → ∃ subs, problems.get? key = some subs ∧ ShowsTrack subs t
  all : ∀ key subs, problems.get? key = some subs → key ∈ members.map Prod.fst

/-- The table of an entry, with its members in any order; no sequence of ids is the empty table. -/
def Shows (metadata : UserContestMetadata) (t : Tree) : Prop :=
  ∃ members problems ids, t = .object members ∧
    members.Perm [("problems", .object problems), ("processedSubmissions", ids)] ∧
    ShowsProblems metadata.problems problems ∧ ids.elements? = some (metadata.processedSubmissions.map .string)

variable {metadata : UserContestMetadata} {t w : Tree}

theorem field?_of_perm {members canonical : List (String × Tree)} (perm : members.Perm canonical)
    (distinct : (canonical.map Prod.fst).Nodup) {key : String} {v : Tree} (member : (key, v) ∈ canonical) :
    (Tree.object members).field? key = some v :=
  (Tree.field?_eq_some_iff ((perm.map Prod.fst).nodup_iff.mpr distinct)).mpr (perm.mem_iff.mpr member)

private theorem shows_initial : Shows .initial Script.initialUserData := by
  refine ⟨_, [], .object [], rfl, List.Perm.refl _, ⟨List.nodup_nil, fun key t member => ?_, fun key subs found => ?_⟩,
    rfl⟩
  · exact absurd member List.not_mem_nil
  · contradiction

theorem ShowsState.encodes {sub : ProblemProblemState} (shows : ShowsState sub t) (encodes : t.Encodes w) :
    ShowsState sub w := by
  obtain ⟨writable, members, rfl, perm⟩ := shows
  obtain ⟨written, ns, rfl, order, values⟩ := encodes.of_listed perm
  have fixed : ∀ member ∈ sub.members, member.2.Fixed := by
    intro member listed
    simp only [ProblemProblemState.members, List.mem_cons, List.not_mem_nil, or_false] at listed
    rcases listed with rfl | rfl | rfl
    · exact Tree.fixed_string _
    · exact Tree.fixed_ofInt writable
    · exact Tree.fixed_string _
  exact ⟨writable, written, rfl, values.eq_of_fixed fixed ▸ order⟩

theorem ShowsTrack.encodes {subs : List ProblemProblemState} (shows : ShowsTrack subs t) (encodes : t.Encodes w) :
    ShowsTrack subs w := by
  obtain ⟨some_, elements, rfl, states⟩ := shows
  refine ⟨some_, ?_⟩
  cases encodes with
  | empty => exact absurd (List.forall₂_nil_right_iff.mp states) some_
  | array first rest =>
    exact ⟨_, rfl, Tree.EncodesAll.forall₂ (fun _ _ _ shows encodes => shows.encodes encodes) states (.cons first rest)⟩

theorem ShowsProblems.encodes {problems : Record String (List ProblemProblemState)} {members : List (String × Tree)}
    (shows : ShowsProblems problems members) (encodes : (Tree.object members).Encodes w) :
    ∃ written, w = .object written ∧ ShowsProblems problems written := by
  cases encodes with
  | object order values =>
    have keys : _ = _ := values.keys
    refine ⟨_, rfl, ?_, fun key t member => ?_, fun key subs found => ?_⟩
    · rw [keys]
      exact (order.map Prod.fst).nodup_iff.mp shows.distinct
    · obtain ⟨v, present, written⟩ := values.exists_of_mem member
      obtain ⟨subs, found, track⟩ := shows.shown key v (order.mem_iff.mpr present)
      exact ⟨subs, found, track.encodes written⟩
    · rw [keys]
      exact (order.map Prod.fst).mem_iff.mp (shows.all key subs found)

/-- What `cjson` writes for the table of an entry is a table of the entry. -/
theorem Shows.encodes (shows : Shows metadata t) (encodes : t.Encodes w) : Shows metadata w := by
  obtain ⟨members, problems, ids, rfl, perm, onProblems, sequence⟩ := shows
  obtain ⟨written, ns, rfl, order, values⟩ := encodes.of_listed perm
  cases values with
  | cons first rest =>
    cases rest with
    | cons second rest =>
      cases rest
      obtain ⟨after, rfl, shown⟩ := onProblems.encodes first
      refine ⟨written, after, _, rfl, order, shown, second.elements?_eq sequence fun v member => ?_⟩
      obtain ⟨id, _, rfl⟩ := List.mem_map.mp member
      exact Tree.fixed_string id

theorem ShowsProblems.get?_eq_none {problems : Record String (List ProblemProblemState)}
    {members : List (String × Tree)} (shows : ShowsProblems problems members) {key : String}
    (absent : key ∉ members.map Prod.fst) :
    problems.get? key = none := by
  cases found : problems.get? key with
  | none => rfl
  | some subs => exact absurd (shows.all key subs found) absent

theorem ShowsProblems.setField {problems : Record String (List ProblemProblemState)} {members : List (String × Tree)}
    (shows : ShowsProblems problems members) (key : String) {subs : List ProblemProblemState}
    (track : ShowsTrack subs t) :
    ∃ after, (Tree.object members).setField key t = some (.object after) ∧
      ShowsProblems (problems.set key subs) after := by
  obtain ⟨after, assigned, distinct, listed⟩ := @Tree.setField_object key t members shows.distinct
  refine ⟨after, assigned, distinct, fun other v member => ?_, fun other found present => ?_⟩
  · rw [listed] at member
    rw [Record.get?_set]
    split at member
    · next same =>
      rw [if_pos same, member]
      exact ⟨subs, rfl, track⟩
    · next different =>
      rw [if_neg different]
      exact shows.shown other v member
  · rw [Record.get?_set] at present
    split at present
    · next same =>
      refine List.mem_map_of_mem (f := Prod.fst) ((listed other t).mpr ?_)
      rw [if_pos same]
    · next different =>
      obtain ⟨⟨_, v⟩, member, rfl⟩ := List.mem_map.mp (shows.all other found present)
      refine List.mem_map_of_mem (f := Prod.fst) ((listed _ v).mpr ?_)
      rwa [if_neg different]

/-- Appending to the sequence of a problem, which may be new. -/
theorem ShowsProblems.insert {problems : Record String (List ProblemProblemState)} {members : List (String × Tree)}
    (shows : ShowsProblems problems members) (key : String) {sub : ProblemProblemState} (state : ShowsState sub t) :
    ∃ track, (((Tree.object members).field? key).getD (.object [])).insert t = some track ∧
      ShowsTrack ((problems.get? key).getD [] ++ [sub]) track := by
  have last : List.Forall₂ ShowsState [sub] [t] := .cons state .nil
  by_cases present : key ∈ members.map Prod.fst
  · obtain ⟨⟨_, v⟩, member, rfl⟩ := List.mem_map.mp present
    obtain ⟨subs, found, -, elements, rfl, states⟩ := shows.shown _ v member
    rw [(Tree.field?_eq_some_iff shows.distinct).mpr member, found]
    exact ⟨_, rfl, by simp, _, rfl, List.rel_append states last⟩
  · rw [(Tree.field?_eq_none_iff shows.distinct).mpr present, shows.get?_eq_none present]
    exact ⟨_, rfl, by simp, _, rfl, last⟩

private theorem any_equals (id : String) (ids : List String) :
    (ids.map Tree.string).any (Script.equals id) = decide (id ∈ ids) := by
  induction ids with
  | nil => rfl
  | cons other ids ih =>
    rw [List.map_cons, List.any_cons, ih, Script.equals]
    simp [eq_comm]

variable {verdict : QueueMessage}

private theorem update_of_processed (shows : Shows metadata t)
    (processed : verdict.submissionId ∈ metadata.processedSubmissions) : Script.update t verdict = some none := by
  obtain ⟨members, problems, ids, rfl, perm, -, sequence⟩ := shows
  have ofIds : (Tree.object members).field? "processedSubmissions" = some ids :=
    field?_of_perm perm (by simp) (by simp)
  have seen := (any_equals verdict.submissionId metadata.processedSubmissions).trans (decide_eq_true processed)
  simp only [Script.update, ofIds, sequence, seen, Option.bind_eq_bind, Option.bind_some, ↓reduceIte, Option.pure_def]

/-- The script records a new submission. -/
theorem update_of_fresh (shows : Shows metadata t) (writable : Writable verdict.relativeSubmittedAt)
    (fresh : verdict.submissionId ∉ metadata.processedSubmissions) :
    ∃ after, Script.update t verdict = some (some after) ∧ Shows (metadata.record verdict) after := by
  obtain ⟨members, problems, ids, rfl, perm, onProblems, sequence⟩ := shows
  have ofIds : (Tree.object members).field? "processedSubmissions" = some ids :=
    field?_of_perm perm (by simp) (by simp)
  have ofProblems : (Tree.object members).field? "problems" = some (.object problems) :=
    field?_of_perm perm (by simp) (by simp)
  have unseen := (any_equals verdict.submissionId metadata.processedSubmissions).trans (decide_eq_false fresh)
  have state : ShowsState verdict.state (Script.submission verdict) := ⟨writable, _, rfl, List.Perm.refl _⟩
  obtain ⟨track, inserted, onTrack⟩ := onProblems.insert verdict.problemId state
  obtain ⟨after, assigned, shown⟩ := onProblems.setField verdict.problemId onTrack
  have appended : ids.insert (.string verdict.submissionId) =
      some (.array (metadata.processedSubmissions.map .string ++ [.string verdict.submissionId])) := by
    rw [Tree.insert, sequence, Option.map_some]
  have distinct {canonical : List (String × Tree)} {listed : List (String × Tree)} (order : listed.Perm canonical)
      (keys : (canonical.map Prod.fst).Nodup) : (listed.map Prod.fst).Nodup :=
    (order.map Prod.fst).nodup_iff.mpr keys
  obtain ⟨first, setFirst, permFirst⟩ :=
    @Tree.setField_of_perm _ _ (.object after) _ _ perm (distinct perm (by simp))
  have swapped := permFirst.trans (List.Perm.swap _ _ _)
  obtain ⟨second, setSecond, permSecond⟩ :=
    @Tree.setField_of_perm _ _ (.array (metadata.processedSubmissions.map .string ++ [.string verdict.submissionId])) _
      _ swapped (distinct swapped (by simp))
  refine ⟨.object second, ?_, second, after, _, rfl, permSecond.trans (List.Perm.swap _ _ _), shown, ?_⟩
  · simp only [Script.update, ofIds, sequence, unseen, ofProblems, inserted, assigned, appended, setFirst, setSecond,
      Option.bind_eq_bind, Option.bind_some, Bool.false_eq_true, ↓reduceIte, Option.pure_def]
  · change some _ = some _
    rw [UserContestMetadata.record, List.map_append, List.map_singleton]

private theorem parse_state {sub : ProblemProblemState} (shows : ShowsState sub t) : Parse.state t = some sub := by
  obtain ⟨-, members, rfl, perm⟩ := shows
  have field {key : String} {v : Tree} (member : (key, v) ∈ sub.members) : (Tree.object members).field? key = some v :=
    field?_of_perm perm (by simp [ProblemProblemState.members]) member
  have id := @field "submissionId" (.string sub.submissionId) (by simp [ProblemProblemState.members])
  have time := @field "relativeSubmittedAt" (.number (.ofInt sub.relativeSubmittedAt))
    (by simp [ProblemProblemState.members])
  have status := @field "status" (.string sub.status) (by simp [ProblemProblemState.members])
  simp only [Parse.state, id, time, status, Parse.string?, Parse.number?, Json.Literal.int?_ofInt, Option.bind_eq_bind,
    Option.bind_some, Option.pure_def]

private theorem parse_track {subs : List ProblemProblemState} (shows : ShowsTrack subs t) :
    Parse.track t = some subs := by
  obtain ⟨-, elements, rfl, states⟩ := shows
  change elements.mapM Parse.state = some subs
  induction states with
  | nil => rfl
  | cons here _ ih => simp [parse_state here, ih]

/-- The arrays of the problems are read one after another. -/
theorem parse_entries {problems : Record String (List ProblemProblemState)} {members : List (String × Tree)}
    (shown : ∀ key t, (key, t) ∈ members → ∃ subs, problems.get? key = some subs ∧ ShowsTrack subs t) :
    ∃ entries, members.mapM (fun member => (Parse.track member.2).map (member.1, ·)) = some entries ∧
      entries.map Prod.fst = members.map Prod.fst ∧ ∀ entry ∈ entries, problems.get? entry.1 = some entry.2 := by
  induction members with
  | nil => exact ⟨[], rfl, rfl, List.forall_mem_nil _⟩
  | cons member members ih =>
    obtain ⟨key, t⟩ := member
    obtain ⟨subs, found, track⟩ := shown key t List.mem_cons_self
    obtain ⟨entries, read, keys, all⟩ := ih fun key t member => shown key t (List.mem_cons_of_mem _ member)
    refine ⟨(key, subs) :: entries, ?_, ?_, List.forall_mem_cons.mpr ⟨found, all⟩⟩
    · simp [List.mapM_cons, parse_track track, read]
    · rw [List.map_cons, List.map_cons, keys]

private theorem parse_problems {problems : Record String (List ProblemProblemState)} {members : List (String × Tree)}
    (shows : ShowsProblems problems members) :
    ∃ parsed, Parse.problems (.object members) = some parsed ∧ ∀ key, parsed.get? key = problems.get? key := by
  obtain ⟨entries, read, keys, all⟩ := parse_entries shows.shown
  have distinct : (entries.map Prod.fst).Nodup := keys ▸ shows.distinct
  refine ⟨Record.ofList entries, ?_, fun key => ?_⟩
  · simp only [Parse.problems, Parse.object?, read, Option.bind_eq_bind, Option.bind_some, Option.pure_def]
  · ext subs
    rw [Record.get?_eq_some_iff, Record.entries_ofList distinct]
    constructor
    · exact fun present => all _ present
    · intro found
      obtain ⟨⟨_, other⟩, present, rfl⟩ := List.mem_map.mp (keys ▸ shows.all key subs found)
      obtain rfl := Option.some.inj ((all _ present).symm.trans found)
      exact present

private theorem parse_metadata (shows : Shows metadata t) (some_ : metadata.processedSubmissions ≠ []) :
    ∃ parsed, Parse.metadata t = some parsed ∧ parsed.processedSubmissions = metadata.processedSubmissions ∧
      ∀ key, parsed.problems.get? key = metadata.problems.get? key := by
  obtain ⟨members, problems, ids, rfl, perm, onProblems, sequence⟩ := shows
  have ofIds : (Tree.object members).field? "processedSubmissions" = some ids :=
    field?_of_perm perm (by simp) (by simp)
  have ofProblems : (Tree.object members).field? "problems" = some (.object problems) :=
    field?_of_perm perm (by simp) (by simp)
  have array : Parse.array? ids = some (metadata.processedSubmissions.map .string) := by
    cases ids with
    | array elements => exact sequence
    | object members =>
      cases members with
      | nil => exact absurd (List.map_eq_nil_iff.mp (Option.some.inj sequence).symm) some_
      | cons => contradiction
    | _ => contradiction
  have strings : (metadata.processedSubmissions.map Tree.string).mapM Parse.string? =
      some metadata.processedSubmissions := by
    induction metadata.processedSubmissions with
    | nil => rfl
    | cons id ids ih => simp [Parse.string?, ih]
  obtain ⟨parsed, read, same⟩ := parse_problems onProblems
  refine ⟨⟨parsed, metadata.processedSubmissions⟩, ?_, rfl, same⟩
  simp only [Parse.metadata, ofProblems, read, ofIds, array, strings, Option.bind_eq_bind, Option.bind_some,
    Option.pure_def]

/-- The text of an entry with some submission. -/
def TextOf (text : List Char) (metadata : UserContestMetadata) : Prop :=
  metadata.processedSubmissions ≠ [] ∧ ∃ t, Json.read text = some t ∧ Shows metadata t

theorem Shows.textOf (shows : Shows metadata t) (some_ : metadata.processedSubmissions ≠ []) :
    TextOf (t.print Json.cjsonEscape) metadata := ⟨some_, t, Json.read_print _ t, shows⟩

/-- The service computes the score of the entry from its text. -/
theorem TextOf.parse {text : List Char} (ofEntry : TextOf text metadata) :
    ∃ parsed, parseMetadata text = some parsed ∧
      (computeUserScores parsed).score = (computeUserScores metadata).score := by
  obtain ⟨some_, t, read, shows⟩ := ofEntry
  obtain ⟨parsed, ran, -, same⟩ := parse_metadata shows some_
  refine ⟨parsed, ?_, ?_⟩
  · rw [parseMetadata, read, Option.bind_some, ran]
  · rw [computeUserScores_score, computeUserScores_score, standing_congr fun key => congrArg _ (same key)]

private theorem absorb_ne_nil (metadata : UserContestMetadata) (verdict : QueueMessage) :
    (metadata.absorb verdict).processedSubmissions ≠ [] :=
  List.ne_nil_of_mem (UserContestMetadata.mem_processedSubmissions_absorb.mpr (.inr rfl))

/-- The texts are those of the entries, in the store and in the hands of the clients; the scores are the same. -/
structure Agrees (texts : Clients TextRedis (List Char)) (entries : Clients Redis UserContestMetadata) : Prop where
  zsets : texts.redis.zsets = entries.redis.zsets
  hashes : ∀ key field, Option.Rel TextOf (texts.redis.hashes key field) (entries.redis.hashes key field)
  replies : List.Forall₂ (fun reply entry => reply.1 = entry.1 ∧ reply.2.1 = entry.2.1 ∧ TextOf reply.2.2 entry.2.2)
    texts.replies entries.replies

private theorem hashes_evalVerdict (redis : Redis) (verdict : QueueMessage) (key field : String) :
    (evalVerdict redis verdict).2.hashes key field =
      if key = getContestMetadataKey verdict.contestId ∧ field = verdict.userId then some (evalVerdict redis verdict).1
      else redis.hashes key field := by
  rw [evalVerdict, updateUserStateLua]
  dsimp only
  split
  · next seen =>
    split
    · next here =>
      obtain ⟨rfl, rfl⟩ := here
      cases stored : redis.hGet (getContestMetadataKey verdict.contestId) verdict.userId with
      | none =>
        rw [stored] at seen
        exact absurd seen List.not_mem_nil
      | some userData => exact stored
    · rfl
  · exact Redis.hashes_hSet _ _ _ _ _ _

variable {raw after : Option (List Char)} {reply : List Char} {entry : Option UserContestMetadata}

/-- The table that the script starts from is that of the entry, or the initial one. -/
theorem shows_of_rel (stored : Option.Rel TextOf raw entry) :
    ∃ t, raw.elim (some Script.initialUserData) Json.read = some t ∧ Shows (entry.getD .initial) t := by
  cases stored with
  | some ofEntry =>
    obtain ⟨-, t, read, shows⟩ := ofEntry
    exact ⟨t, read, shows⟩
  | none => exact ⟨_, rfl, shows_initial⟩

/-- A run of the script leaves the text of the entry that absorbs the verdict, and replies with it. -/
theorem textOf_eval (stored : Option.Rel TextOf raw entry) (writable : Writable verdict.relativeSubmittedAt)
    (ran : Script.Eval verdict raw reply after) :
    after = some reply ∧ TextOf reply ((entry.getD .initial).absorb verdict) := by
  obtain ⟨t, decoded, shows⟩ := shows_of_rel stored
  cases ran with
  | processed same unchanged =>
    obtain rfl := Option.some.inj (same.symm.trans decoded)
    have seen : verdict.submissionId ∈ (entry.getD .initial).processedSubmissions := by
      by_contra fresh
      obtain ⟨after, updated, -⟩ := update_of_fresh shows writable fresh
      rw [unchanged] at updated
      cases updated
    refine ⟨rfl, ?_⟩
    rw [UserContestMetadata.absorb, Machine.absorb, if_pos seen]
    exact ⟨List.ne_nil_of_mem seen, _, same, shows⟩
  | updated same updated encoded =>
    obtain rfl := Option.some.inj (same.symm.trans decoded)
    have fresh : verdict.submissionId ∉ (entry.getD .initial).processedSubmissions := by
      intro seen
      rw [update_of_processed shows seen] at updated
      cases updated
    obtain ⟨recorded, ran, shown⟩ := update_of_fresh shows writable fresh
    obtain rfl := Option.some.inj (Option.some.inj (updated.symm.trans ran))
    refine ⟨rfl, ?_⟩
    have absorbs : (entry.getD .initial).absorb verdict = (entry.getD .initial).record verdict := by
      rw [UserContestMetadata.absorb, Machine.absorb, if_neg fresh]
    have some_ := absorb_ne_nil (entry.getD .initial) verdict
    rw [absorbs] at some_ ⊢
    exact (shown.encodes encoded).textOf some_

/-- The script never fails on a text that it has written. -/
theorem exists_eval (stored : Option.Rel TextOf raw entry) (writable : Writable verdict.relativeSubmittedAt) :
    ∃ reply after, Script.Eval verdict raw reply after := by
  obtain ⟨t, decoded, shows⟩ := shows_of_rel stored
  by_cases seen : verdict.submissionId ∈ (entry.getD .initial).processedSubmissions
  · cases stored with
    | some _ => exact ⟨_, _, .processed decoded (update_of_processed shows seen)⟩
    | none => exact absurd seen List.not_mem_nil
  · obtain ⟨recorded, ran, -⟩ := update_of_fresh shows writable seen
    obtain ⟨written, encoded⟩ := Tree.exists_encodes recorded
    exact ⟨_, _, .updated decoded ran encoded⟩

private theorem setHash_apply (redis : TextRedis) (key field key' field' : String) (value : Option (List Char)) :
    (redis.setHash key field value).hashes key' field' =
      if key' = key ∧ field' = field then value else redis.hashes key' field' := by
  rw [TextRedis.setHash]
  dsimp only
  rcases eq_or_ne key' key with rfl | otherKey
  · rw [Function.update_self, Function.update_apply]
    exact if_congr (and_iff_right rfl).symm rfl rfl
  · rw [Function.update_of_ne otherKey, if_neg fun same => otherKey same.1]

/-- A command that brings in a time brings in one that `cjson` writes. -/
def Command.Writable : Command → Prop
  | .eval verdict => LeaderboardService.Writable verdict.relativeSubmittedAt
  | _ => True

section Simulation

variable {texts next : Clients TextRedis (List Char)} {entries : Clients Redis UserContestMetadata} {command : Command}

/-- Each command on texts is the command on entries. -/
theorem Agrees.step (agrees : Agrees texts entries) (writable : command.Writable)
    (taken : texts.TextStep command next) : ∃ after, entries.step command = some after ∧ Agrees next after := by
  cases taken with
  | @eval verdict reply after ran =>
    obtain ⟨rfl, ofEntry⟩ := textOf_eval (agrees.hashes _ _) writable ran
    have replied : (evalVerdict entries.redis verdict).1 = ((entries.redis.hashes
        (getContestMetadataKey verdict.contestId) verdict.userId).getD .initial).absorb verdict :=
      evalVerdict_reply ⟨rfl, rfl⟩
    rw [← replied] at ofEntry
    refine ⟨⟨(evalVerdict entries.redis verdict).2,
      entries.replies ++ [(verdict.contestId, verdict.userId, (evalVerdict entries.redis verdict).1)]⟩, rfl, ?_,
      fun key field => ?_, ?_⟩
    · change texts.redis.zsets = (evalVerdict entries.redis verdict).2.zsets
      rw [zsets_evalVerdict]
      exact agrees.zsets
    · change Option.Rel TextOf _ ((evalVerdict entries.redis verdict).2.hashes key field)
      rw [setHash_apply, hashes_evalVerdict]
      split
      · exact .some ofEntry
      · exact agrees.hashes key field
    · exact List.rel_append agrees.replies (.cons ⟨rfl, rfl, ofEntry⟩ .nil)
  | @zAdd index contestId userId reply parsed waiting read =>
    have related := agrees.replies.rel_getElem? index
    rw [waiting] at related
    cases here : entries.replies[index]? with
    | none =>
      rw [here] at related
      cases related
    | some entry =>
      rw [here] at related
      cases related with
      | some same =>
        obtain ⟨_, _, metadata⟩ := entry
        obtain ⟨rfl, rfl, ofEntry⟩ := same
        obtain ⟨again, ran, score⟩ := ofEntry.parse
        obtain rfl := Option.some.inj (read.symm.trans ran)
        have taken : entries.step (.zAdd index) =
            some ⟨addScore entries.redis contestId userId metadata, entries.replies.eraseIdx index⟩ := by
          rw [Clients.step, here]
          rfl
        refine ⟨_, taken, ?_, agrees.hashes, agrees.replies.eraseIdx index⟩
        change Function.update texts.redis.zsets _ _ = Function.update entries.redis.zsets _ _
        rw [agrees.zsets, score]
  | @abandon index waiting =>
    rw [agrees.replies.length_eq] at waiting
    exact ⟨_, if_pos waiting, agrees.zsets, agrees.hashes, agrees.replies.eraseIdx index⟩
  | hDel =>
    refine ⟨_, rfl, agrees.zsets, fun key field => ?_, agrees.replies⟩
    rw [setHash_apply, Redis.hashes_hDel]
    split
    · exact .none
    · exact agrees.hashes key field
  | unlink =>
    refine ⟨_, rfl, ?_, fun key field => ?_, agrees.replies⟩
    · rw [TextRedis.unlink, Redis.unlink, agrees.zsets]
    · rw [TextRedis.unlink, Redis.unlink]
      dsimp only
      split
      · exact .none
      · exact agrees.hashes key field

private theorem agrees_empty : Agrees ⟨.empty, []⟩ ⟨.empty, []⟩ := ⟨rfl, fun _ _ => .none, .nil⟩

/-- No command of a handling fails on the texts. -/
theorem Agrees.exists_step (agrees : Agrees texts entries) :
    (∀ verdict : QueueMessage, Writable verdict.relativeSubmittedAt → ∃ next, texts.TextStep (.eval verdict) next) ∧
      ∀ index < texts.replies.length, ∃ next, texts.TextStep (.zAdd index) next := by
  refine ⟨fun verdict writable => ?_, fun index waiting => ?_⟩
  · obtain ⟨reply, after, ran⟩ := exists_eval (agrees.hashes _ _) writable
    exact ⟨_, .eval ran⟩
  · have related := agrees.replies.rel_getElem? index
    cases found : texts.replies[index]? with
    | none => exact absurd (List.getElem?_eq_none_iff.mp found) (Nat.not_le_of_lt waiting)
    | some reply =>
      rw [found] at related
      generalize entries.replies[index]? = here at related
      cases related with
      | some same =>
        obtain ⟨contestId, userId, text⟩ := reply
        obtain ⟨parsed, read, -⟩ := same.2.2.parse
        exact ⟨_, .zAdd found read⟩

end Simulation

/-- The same commands on entries lead to a state that agrees. -/
def Refined (commands : List Command) (texts : Clients TextRedis (List Char)) : Prop :=
  ∃ entries, Machine.Run (Machine.Steps Clients.step) ⟨.empty, []⟩ commands entries ∧ Agrees texts entries

/-- In every run of scripts, score updates, interrupted handlings, recalculations and freezes on texts, in any order and
with any order of the tables, the store holds what the same run on entries leaves, with the same scores, and no script
and no reading of a reply fails. -/
theorem texts_refine_entries {commands : List Command} {texts : Clients TextRedis (List Char)}
    (run : Machine.Run (Machine.Guarded Clients.TextStep fun _ command => command.Writable) ⟨.empty, []⟩ commands
      texts) :
    Refined commands texts ∧
      (∀ verdict : QueueMessage, Writable verdict.relativeSubmittedAt → ∃ next, texts.TextStep (.eval verdict) next) ∧
      ∀ index < texts.replies.length, ∃ next, texts.TextStep (.zAdd index) next := by
  have initial : Refined [] ⟨.empty, []⟩ := ⟨_, rfl, agrees_empty⟩
  have refined : Refined commands texts := by
    refine run.history initial ?_
    rintro done mid command next - ⟨entries, ran, agrees⟩ ⟨writable, taken⟩
    obtain ⟨after, stepped, kept⟩ := agrees.step writable taken
    exact ⟨after, ran.concat stepped, kept⟩
  obtain ⟨entries, ran, agrees⟩ := refined
  exact ⟨⟨entries, ran, agrees⟩, agrees.exists_step⟩

def accepted : QueueMessage := ⟨"s", "c", "u", "p", "AC", 60⟩

/-- An accepted verdict gets its score through the texts. -/
theorem accepted_scored : ∃ texts, Machine.Run
    (Machine.Guarded Clients.TextStep fun _ command => command.Writable) ⟨.empty, []⟩ [.eval accepted, .zAdd 0] texts ∧
      (texts.redis.zsets (getContestLeaderboardKey "c")).score? "u" = some 9999940 := by
  have start : Machine.Run (Machine.Guarded Clients.TextStep fun _ command => command.Writable) ⟨.empty, []⟩ []
      ⟨.empty, []⟩ := rfl
  obtain ⟨-, scripts, -⟩ := texts_refine_entries start
  obtain ⟨replied, ran⟩ := scripts accepted (by decide)
  have fits : (Command.eval accepted).Writable := (by decide : Writable 60)
  have one := start.concat ⟨fits, ran⟩
  obtain ⟨⟨_, first, agrees⟩, -, updates⟩ := texts_refine_entries one
  obtain ⟨_, here, rfl⟩ := first
  obtain rfl := Option.some.inj here
  obtain ⟨scored, updated⟩ := updates 0 (agrees.replies.length_eq ▸ by decide)
  have unguarded : (Command.zAdd 0).Writable := trivial
  have two := one.concat ⟨unguarded, updated⟩
  obtain ⟨⟨_, second, agrees⟩, -, -⟩ := texts_refine_entries two
  obtain ⟨_, here, _, there, rfl⟩ := second
  obtain rfl := Option.some.inj here
  obtain rfl := Option.some.inj there
  refine ⟨scored, two, ?_⟩
  rw [agrees.zsets]
  decide +kernel

end JudgeSelf.LeaderboardService
