import JudgeSelf.Model.MainApi.Submissions

/-! # The work of others

Two databases that differ only in the code and the results of submissions are asked for the same submission.
Somebody who is neither its author nor the owner of its contest must not tell them apart before the contest ends,
and of an internal submission only the owner may see results. The answer overwrites the field `results` alone:
the code goes to everybody who asks. Times are compared in milliseconds, so the results appear in the
millisecond in which the contest ends.
-/

namespace JudgeSelf.MainApi.Submissions

variable {R : Type}

def Submission.withWork (s : Submission R) (code : String) (results : Option R) : Submission R :=
  { s with code, results }

/-- What everybody may know of a submission. -/
def Submission.withoutWork (s : Submission R) : Submission R := s.withWork "" none

structure Database.SameButWork (db db' : Database R) : Prop where
  submissions : db.submissions.map Submission.withoutWork = db'.submissions.map Submission.withoutWork
  problems : db.problems = db'.problems
  contests : db.contests = db'.contests

/-- The parameter is the number of this submission to this problem of this contest. -/
structure Database.Names (db : Database R) (submissionId : String) (s : Submission R) (p : Problem) (c : Contest) :
    Prop where
  read : Sql.readInteger submissionId = some s.id
  submission : s ∈ db.submissions
  problem : p ∈ db.problems
  contest : c ∈ db.contests
  submitted : s.problemId = p.id
  posed : p.contestId = c.id

theorem Submission.eq_withWork {s s' : Submission R} (same : s.withoutWork = s'.withoutWork) :
    s' = s.withWork s'.code s'.results :=
  calc
    s' = s'.withoutWork.withWork s'.code s'.results := rfl
    _ = s.withoutWork.withWork s'.code s'.results := by rw [same]
    _ = s.withWork s'.code s'.results := rfl

/-- What a parameter names is named in the other database as well, with some other work. -/
theorem Database.SameButWork.names {db db' : Database R} (same : db.SameButWork db') {submissionId : String}
    {s : Submission R} {p : Problem} {c : Contest} (named : db.Names submissionId s p c) :
    ∃ code results, db'.Names submissionId (s.withWork code results) p c := by
  have other : s.withoutWork ∈ db'.submissions.map Submission.withoutWork :=
    same.submissions ▸ List.mem_map_of_mem named.submission
  obtain ⟨s', member, alike⟩ := List.mem_map.mp other
  rw [Submission.eq_withWork alike.symm] at member
  exact ⟨s'.code, s'.results, named.read, member, same.problems ▸ named.problem, same.contests ▸ named.contest,
    named.submitted, named.posed⟩

/-- In microseconds. -/
def Timestamp.After : Timestamp → ℤ → Prop
  | .negInfinity, _ => False
  | .micros n, now => now < n
  | .infinity, _ => True

/-- In a later millisecond than this one. -/
def Timestamp.AfterMillisecond : Timestamp → ℤ → Prop
  | .negInfinity, _ => False
  | .micros n, now => now < n / 1000
  | .infinity, _ => True

section Replies

variable {db : Database R} {submissionId : String} {s : Submission R} {p : Problem} {c : Contest}

theorem Database.Names.find? (named : db.Names submissionId s p c) :
    (db.joined.find? fun row => row.1.1.id = s.id) = some ((s, p), c) := by
  refine (List.find?_key_eq_some_iff db.nodup_ids_joined).mpr ⟨Database.mem_joined_iff.mpr ?_, rfl⟩
  exact ⟨⟨named.submission, named.problem, named.submitted⟩, named.contest, named.posed⟩

/-- The row goes to everybody, with its results or without them. -/
theorem Database.Names.reply (named : db.Names submissionId s p c) (user : Payload) (clock : Clock) :
    StatusController.getSubmissionById db user clock submissionId =
      ⟨200, .submission (StatusController.body user clock (.ofJoined ((s, p), c)))⟩ := by
  have given : submissionId ≠ "" := by
    rintro rfl
    have unread : Sql.readInteger "" = none := by decide
    exact absurd (unread.symm.trans named.read) (Option.some_ne_none s.id).symm
  rw [StatusController.getSubmissionById, if_neg given, SubmissionRepository.getSubmissionById_eq named.read,
    named.find?]
  rfl

variable {user : Payload} {clock : Clock}

/-- The end is cut to milliseconds before it is compared. -/
theorem contestEnded_eq_false_iff (before : c.endTime.After clock.micros) :
    StatusController.contestEnded clock (.ofJoined ((s, p), c)) = false ↔ c.endTime.AfterMillisecond clock.now := by
  have valid : clock.now ≤ maxTime := clock.valid
  simp only [StatusController.contestEnded, SubmissionData.ofJoined]
  cases ending : c.endTime with
  | negInfinity =>
    rw [ending] at before
    exact before.elim
  | micros n =>
    simp only [Timestamp.getTime, Timestamp.AfterMillisecond]
    by_cases representable : n / 1000 ≤ maxTime
    · simp only [representable, ↓reduceIte, Option.any_some, decide_eq_false_iff_not, not_le]
    · -- An end that no `Date` has is later than the clock.
      simp only [representable, ↓reduceIte, Option.any_none, true_iff]
      omega
  | infinity => simp only [Timestamp.getTime, Timestamp.AfterMillisecond, Option.any_none]

variable {submission : SubmissionData R}

private theorem showResults_of_internal (internal : submission.status = "INT")
    (notOwner : user.id ≠ submission.contestOwnerId) :
    StatusController.showResults user clock submission = false := by
  simp only [StatusController.showResults, internal, ↓reduceIte, decide_eq_false_iff_not]
  exact notOwner.symm

private theorem showResults_of_outsider (notAuthor : user.id ≠ submission.userId)
    (notOwner : user.id ≠ submission.contestOwnerId) :
    StatusController.showResults user clock submission = false ↔
      submission.status = "INT" ∨ StatusController.contestEnded clock submission = false := by
  by_cases internal : submission.status = "INT"
  · simp only [showResults_of_internal internal notOwner, internal, true_or]
  · simp only [StatusController.showResults, internal, ↓reduceIte, notOwner.symm, notAuthor.symm, decide_false,
      Bool.or_false, Bool.false_or, false_or]

/-- Whether results are shown does not depend on the work; where they are not, the code still is. -/
theorem body_eq_body_iff {code : String} {results : Option R} :
    StatusController.body user clock (.ofJoined ((s, p), c)) =
        StatusController.body user clock (.ofJoined ((s.withWork code results, p), c)) ↔
      s.code = code ∧
        (s.results = results ∨ StatusController.showResults user clock (.ofJoined ((s, p), c)) = false) := by
  have shown : StatusController.showResults user clock (.ofJoined ((s.withWork code results, p), c)) =
      StatusController.showResults user clock (.ofJoined ((s, p), c)) := rfl
  rw [StatusController.body, StatusController.body, shown]
  cases StatusController.showResults user clock (.ofJoined ((s, p), c)) <;>
    simp [SubmissionData.ofJoined, Submission.withWork]

end Replies

/-- An outsider gets one reply before the end, and an internal submission gives others than the owner one reply
whatever its results are. -/
structure HidesWork (db db' : Database R) (user : Payload) (clock : Clock) (submissionId : String) : Prop where
  outsiders : ∀ s p c, db.Names submissionId s p c → c.endTime.After clock.micros → user.id ≠ s.userId →
    user.id ≠ c.ownerId → StatusController.getSubmissionById db user clock submissionId =
      StatusController.getSubmissionById db' user clock submissionId
  internal : ∀ s s' p c, db.Names submissionId s p c → db'.Names submissionId s' p c → s.code = s'.code →
    s.status = "INT" → user.id ≠ c.ownerId → StatusController.getSubmissionById db user clock submissionId =
      StatusController.getSubmissionById db' user clock submissionId

section Hiding

variable {db db' : Database R} {submissionId : String} {s s' : Submission R} {p : Problem} {c : Contest}
  {user : Payload} {clock : Clock}

theorem Database.SameButWork.exists_eq_withWork (same : db.SameButWork db') (named : db.Names submissionId s p c)
    (named' : db'.Names submissionId s' p c) : ∃ code results, s' = s.withWork code results := by
  obtain ⟨code, results, other⟩ := same.names named
  have number : (s.withWork code results).id = s'.id := Option.some.inj (other.read.symm.trans named'.read)
  have one := List.inj_on_of_nodup_map db'.submissionIds other.submission named'.submission number
  exact ⟨code, results, one.symm⟩

/-- Two replies are equal if the code is and the results are equal or not shown. -/
theorem Database.SameButWork.reply_eq_iff (same : db.SameButWork db') (named : db.Names submissionId s p c)
    (named' : db'.Names submissionId s' p c) :
    StatusController.getSubmissionById db user clock submissionId =
        StatusController.getSubmissionById db' user clock submissionId ↔
      s.code = s'.code ∧
        (s.results = s'.results ∨ StatusController.showResults user clock (.ofJoined ((s, p), c)) = false) := by
  obtain ⟨code, results, rfl⟩ := same.exists_eq_withWork named named'
  rw [named.reply, named'.reply]
  simp only [Reply.mk.injEq, ReplyBody.submission.injEq, true_and]
  exact body_eq_body_iff

/-- Of an internal submission only the code gets out. -/
theorem Database.SameButWork.reply_eq_of_internal (same : db.SameButWork db') (named : db.Names submissionId s p c)
    (named' : db'.Names submissionId s' p c) (code : s.code = s'.code) (internal : s.status = "INT")
    (notOwner : user.id ≠ c.ownerId) :
    StatusController.getSubmissionById db user clock submissionId =
      StatusController.getSubmissionById db' user clock submissionId :=
  (same.reply_eq_iff named named').mpr ⟨code, .inr (showResults_of_internal internal notOwner)⟩

/-- Before the end an outsider tells codes apart, and in its last millisecond results that are not internal. -/
theorem Database.SameButWork.reply_eq_iff_of_outsider (same : db.SameButWork db')
    (named : db.Names submissionId s p c) (named' : db'.Names submissionId s' p c)
    (before : c.endTime.After clock.micros) (notAuthor : user.id ≠ s.userId) (notOwner : user.id ≠ c.ownerId) :
    StatusController.getSubmissionById db user clock submissionId =
        StatusController.getSubmissionById db' user clock submissionId ↔
      s.code = s'.code ∧
        (s.results = s'.results ∨ s.status = "INT" ∨ c.endTime.AfterMillisecond clock.now) := by
  rw [same.reply_eq_iff named named', showResults_of_outsider notAuthor notOwner, contestEnded_eq_false_iff before]
  rfl

end Hiding

/-- The work is hidden exactly if before the end no outsider asks for other code, nor for other results of a
submission that is not internal in the millisecond of the end. -/
theorem hidesWork_iff {db db' : Database R} (same : db.SameButWork db') (user : Payload) (clock : Clock)
    (submissionId : String) :
    HidesWork db db' user clock submissionId ↔
      ∀ s s' p c, db.Names submissionId s p c → db'.Names submissionId s' p c → c.endTime.After clock.micros →
        user.id ≠ s.userId → user.id ≠ c.ownerId →
          s.code = s'.code ∧
            (s.results = s'.results ∨ s.status = "INT" ∨ c.endTime.AfterMillisecond clock.now) := by
  constructor
  · intro hides s s' p c named named' before notAuthor notOwner
    exact (same.reply_eq_iff_of_outsider named named' before notAuthor notOwner).mp
      (hides.outsiders s p c named before notAuthor notOwner)
  · intro alike
    refine ⟨fun s p c named before notAuthor notOwner => ?_, fun s s' p c named named' code internal notOwner => ?_⟩
    · obtain ⟨code, results, named'⟩ := same.names named
      exact (same.reply_eq_iff_of_outsider named named' before notAuthor notOwner).mpr
        (alike s _ p c named named' before notAuthor notOwner)
    · exact same.reply_eq_of_internal named named' code internal notOwner

/-- A contest of two hours with one accepted submission. -/
def sampleDatabase (code : String) (results : Option String) : Database String where
  submissions := [{
    id := 1
    problemId := "problem"
    userId := "author"
    type := "RATED"
    code := code
    language := "python"
    status := "AC"
    time := some 46
    memory := some 3400
    results := results
    relativeSubmissionTime := some 600
    createdAt := .micros 600000000 }]
  problems := [⟨"problem", 1⟩]
  contests := [⟨1, "owner", .micros 0, .micros 7200000000⟩]
  submissionIds := List.nodup_singleton _
  problemIds := List.nodup_singleton _
  contestIds := List.nodup_singleton _
  submitted := List.forall_mem_singleton.mpr (List.mem_singleton_self _)
  posed := List.forall_mem_singleton.mpr (List.mem_singleton_self _)

/-- After one hour. -/
def sampleClock : Clock := ⟨3600000000, by decide⟩

private theorem sampleDatabase_sameButWork (code code' : String) (results results' : Option String) :
    (sampleDatabase code results).SameButWork (sampleDatabase code' results') :=
  ⟨rfl, rfl, rfl⟩

theorem hidesWork_of_same_code : HidesWork (sampleDatabase "print(1)" none) (sampleDatabase "print(1)" (some "AC"))
    ⟨"viewer", "viewer"⟩ sampleClock "1" := by
  refine (hidesWork_iff (sampleDatabase_sameButWork _ _ _ _) _ _ _).mpr fun s s' p c named named' _ _ _ => ?_
  obtain rfl := List.mem_singleton.mp named.submission
  obtain rfl := List.mem_singleton.mp named'.submission
  obtain rfl := List.mem_singleton.mp named.contest
  exact ⟨rfl, .inr (.inr (show (3600000000 : ℤ) / 1000 < 7200000000 / 1000 by decide))⟩

theorem not_hidesWork_of_other_code :
    (sampleDatabase "print(1)" none).SameButWork (sampleDatabase "print(2)" none) ∧
      ¬HidesWork (sampleDatabase "print(1)" none) (sampleDatabase "print(2)" none) ⟨"viewer", "viewer"⟩ sampleClock
        "1" := by
  refine ⟨sampleDatabase_sameButWork _ _ _ _, fun hides => ?_⟩
  have named : (sampleDatabase "print(1)" none).Names "1" _ _ _ :=
    ⟨by decide, List.mem_singleton_self _, List.mem_singleton_self _, List.mem_singleton_self _, rfl, rfl⟩
  have before : Timestamp.After (.micros 7200000000) sampleClock.micros :=
    show (3600000000 : ℤ) < 7200000000 by decide
  exact absurd (hides.outsiders _ _ _ named before (by decide) (by decide)) (by decide +kernel)

end JudgeSelf.MainApi.Submissions
