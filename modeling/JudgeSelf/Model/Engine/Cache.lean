import JudgeSelf.Model.Engine.Formatter
import JudgeSelf.ToMathlib.Record
import Mathlib.Data.List.Induction
import Mathlib.Data.List.TakeWhile

/-! # The keys of the problem caches

Model of the data of `cache.go` and of the choice that `cleanCache` makes. Times are nanoseconds. The
version of a problem is an `INT` column, whose decimal text the engine uses. A key that cannot be
split makes the source panic; every key of the store has an underscore.
-/

namespace JudgeSelf.Engine

open Go

/-- Minimum number of cache items before a cleanup can be triggered. -/
def cacheCleanupThreshold : ℕ := 30

/-- An extra time to ensure that cache items are not deleted while in use. -/
def cacheCleanupBuffer : ℤ := 5 * 60 * 10 ^ 9

/-- The `ttl` of the database cache. -/
def cacheTtl : ℤ := 5 * 60 * 10 ^ 9

def tmpDir : String := "/tmp/execution-engine/problems/"

/-- `ProblemData` together with `ProblemVersion`. -/
structure VersionedProblem where
  data : ProblemData
  problemVersion : ℤ
deriving DecidableEq

def cacheKey (problemId : String) (problemVersion : ℤ) : String := problemId ++ "_" ++ toString problemVersion

def VersionedProblem.key (problem : VersionedProblem) : String :=
  cacheKey problem.data.problemId problem.problemVersion

/-- `strings.Split(k, "_")[0]`. -/
def keyId (key : String) : String := String.ofList (key.toList.takeWhile (· ≠ '_'))

/-- `strings.Split(k, "_")[1]` as a number. -/
def keyVersion (key : String) : ℤ :=
  atoi (String.ofList (((key.toList.dropWhile (· ≠ '_')).drop 1).takeWhile (· ≠ '_')))

/-- One iteration of the loop that looks for the latest versions. -/
def recordVersion (latest : Record String ℤ) (k : String) : Record String ℤ :=
  match latest.get? (keyId k) with
  | none => latest.set (keyId k) (keyVersion k)
  | some item => if item < keyVersion k then latest.set (keyId k) (keyVersion k) else latest

/-- `latestS3Keys`, from the keys of the archive cache. -/
def latestS3Keys (keys : List String) : Record String ℤ := keys.foldl recordVersion Record.empty

/-- The test of the deleting loop: not present in the database cache, or an older version. -/
def IsStale (validKeys keys : List String) (key : String) : Prop :=
  keyId key ∉ validKeys ∨ keyVersion key < ((latestS3Keys keys).get? (keyId key)).getD 0

instance (validKeys keys : List String) (key : String) : Decidable (IsStale validKeys keys key) :=
  inferInstanceAs (Decidable (_ ∨ _))

private theorem split_last {α : Type*} [DecidableEq α] {a a' b b' : List α} {c : α} (fresh : c ∉ b) (fresh' : c ∉ b')
    (same : a ++ c :: b = a' ++ c :: b') : a = a' ∧ b = b' := by
  have read (a b : List α) (fresh : c ∉ b) : (a ++ c :: b).reverse.takeWhile (· ≠ c) = b.reverse := by
    rw [List.reverse_append, List.reverse_cons, List.append_assoc, List.takeWhile_append_of_pos]
    · simp
    · intro d member
      simp only [ne_eq, decide_not, Bool.not_eq_true', decide_eq_false_iff_not]
      rintro rfl
      exact fresh (List.mem_reverse.mp member)
  have tails : b = b' := by
    rw [← List.reverse_inj, ← read a b fresh, same, read a' b' fresh']
  subst tails
  exact ⟨List.append_cancel_right same, rfl⟩

private theorem toList_cacheKey (problemId : String) (problemVersion : ℤ) : (cacheKey problemId problemVersion).toList =
    problemId.toList ++ '_' :: (toString problemVersion).toList := by
  rw [cacheKey, String.toList_append, String.toList_append, List.append_assoc]
  rfl

private theorem underscore_notMem_toString (v : ℤ) : '_' ∉ (toString v).toList := by
  intro member
  rcases Int.isDigit_or_sign_of_mem_toString member with digit | sign
  · exact absurd digit (by decide)
  · exact absurd sign (by decide)

/-- The key of an archive determines the problem and its version. -/
theorem cacheKey_inj {id id' : String} {v v' : ℤ} : cacheKey id v = cacheKey id' v' ↔ id = id' ∧ v = v' := by
  constructor
  · intro same
    have lists := congrArg String.toList same
    rw [toList_cacheKey, toList_cacheKey] at lists
    obtain ⟨ids, versions⟩ := split_last (underscore_notMem_toString v) (underscore_notMem_toString v') lists
    exact ⟨String.toList_inj.mp ids, toString_inj.mp (String.toList_inj.mp versions)⟩
  · rintro ⟨rfl, rfl⟩
    rfl

/-- The text of an id in canonical form. -/
def Canonical (problemId : String) : Prop := '_' ∉ problemId.toList

private theorem takeWhile_cacheKey {id : String} (canonical : Canonical id) (v : ℤ) :
    (cacheKey id v).toList.takeWhile (· ≠ '_') = id.toList ∧
      (cacheKey id v).toList.dropWhile (· ≠ '_') = '_' :: (toString v).toList := by
  have passes : ∀ c ∈ id.toList, decide (c ≠ '_') = true := by
    intro c member
    rw [decide_eq_true_eq]
    rintro rfl
    exact canonical member
  rw [toList_cacheKey, List.takeWhile_append_of_pos passes, List.dropWhile_append_of_pos passes]
  simp

theorem keyId_cacheKey {id : String} (canonical : Canonical id) (v : ℤ) : keyId (cacheKey id v) = id := by
  rw [keyId, (takeWhile_cacheKey canonical v).1, String.ofList_toList]

theorem keyVersion_cacheKey {id : String} (canonical : Canonical id) {v : ℤ} (inRange : -2 ^ 63 ≤ v ∧ v < 2 ^ 63) :
    keyVersion (cacheKey id v) = v := by
  have whole : (toString v).toList.takeWhile (· ≠ '_') = (toString v).toList := by
    apply List.takeWhile_eq_self_iff.mpr
    intro c member
    rw [decide_eq_true_eq]
    rintro rfl
    exact underscore_notMem_toString v member
  rw [keyVersion, (takeWhile_cacheKey canonical v).2, List.drop_succ_cons, List.drop_zero, whole,
    String.ofList_toList, atoi_toString inRange]

private theorem get?_recordVersion (latest : Record String ℤ) (k id : String) :
    (recordVersion latest k).get? id = if id = keyId k
      then some ((latest.get? (keyId k)).elim (keyVersion k) (max · (keyVersion k)))
      else latest.get? id := by
  rw [recordVersion]
  by_cases same : id = keyId k
  · subst same
    rw [if_pos rfl]
    cases found : latest.get? (keyId k) with
    | none => simp
    | some item =>
      dsimp only [Option.elim]
      split
      · next newer => rw [Record.get?_set_self, max_eq_right newer.le]
      · next older => rw [found, max_eq_left (not_lt.mp older)]
  · rw [if_neg same]
    split
    · rw [Record.get?_set, if_neg same]
    · split
      · rw [Record.get?_set, if_neg same]
      · rfl

/-- The greatest version among the keys of an id. -/
def IsLatest (keys : List String) (id : String) : Option ℤ → Prop
  | none => ∀ k ∈ keys, keyId k ≠ id
  | some v => (∃ k ∈ keys, keyId k = id ∧ keyVersion k = v) ∧ ∀ k ∈ keys, keyId k = id → keyVersion k ≤ v

private theorem isLatest_latestS3Keys (keys : List String) (id : String) :
    IsLatest keys id ((latestS3Keys keys).get? id) := by
  induction keys using List.reverseRecOn with
  | nil => exact fun _ member => absurd member List.not_mem_nil
  | append_singleton keys key ih =>
    rw [latestS3Keys, List.foldl_concat, ← latestS3Keys, get?_recordVersion]
    by_cases same : id = keyId key
    · subst same
      rw [if_pos rfl]
      cases found : (latestS3Keys keys).get? (keyId key) with
      | none =>
        rw [found] at ih
        refine ⟨⟨key, by simp, rfl, rfl⟩, fun k member ofSame => ?_⟩
        rcases List.mem_append.mp member with before | last
        · exact absurd ofSame (ih k before)
        · rw [List.mem_singleton.mp last, Option.elim]
      | some v =>
        rw [found] at ih
        obtain ⟨⟨newest, present, ofSame, rfl⟩, greatest⟩ := ih
        refine ⟨?_, fun k member ofSame => ?_⟩
        · rcases max_choice (keyVersion newest) (keyVersion key) with older | newer
          · exact ⟨newest, by simp [present], ofSame, older.symm⟩
          · exact ⟨key, by simp, rfl, newer.symm⟩
        · rcases List.mem_append.mp member with before | last
          · exact le_max_of_le_left (greatest k before ofSame)
          · rw [List.mem_singleton.mp last]
            exact le_max_right _ _
    · rw [if_neg same]
      have other : keyId key ≠ id := Ne.symm same
      cases found : (latestS3Keys keys).get? id with
      | none =>
        rw [found] at ih
        intro k member
        rcases List.mem_append.mp member with before | last
        · exact ih k before
        · rwa [List.mem_singleton.mp last]
      | some v =>
        rw [found] at ih
        obtain ⟨⟨newest, present, ofSame, rfl⟩, greatest⟩ := ih
        refine ⟨⟨newest, by simp [present], ofSame, rfl⟩, fun k member ofSame => ?_⟩
        rcases List.mem_append.mp member with before | last
        · exact greatest k before ofSame
        · rw [List.mem_singleton.mp last] at ofSame
          exact absurd ofSame other

/-- The cleaner deletes an archive whose problem is not cached, or which is not the newest stored version. -/
theorem isStale_iff {validKeys keys : List String} {key : String} (member : key ∈ keys) :
    IsStale validKeys keys key ↔ keyId key ∉ validKeys ∨
      ∃ other ∈ keys, keyId other = keyId key ∧ keyVersion key < keyVersion other := by
  apply or_congr_right
  have spec := isLatest_latestS3Keys keys (keyId key)
  cases latest : (latestS3Keys keys).get? (keyId key) with
  | none =>
    rw [latest] at spec
    exact absurd rfl (spec key member)
  | some v =>
    rw [latest] at spec
    obtain ⟨⟨newest, present, same, rfl⟩, greatest⟩ := spec
    rw [Option.getD_some]
    constructor
    · exact fun older => ⟨newest, present, same, older⟩
    · rintro ⟨other, stored, ofSame, newer⟩
      exact newer.trans_le (greatest other stored ofSame)

end JudgeSelf.Engine
