import JudgeSelf.Soundness.StoreLock

/-! # Store, directories and cached checkers

The store, the problem directories and the cached checkers are guarded by different locks. Whoever
downloads or deletes an archive holds the lock of the store alone, so a directory is complete as long
as its key is stored, and a checker compiled while its item is stored is compiled from the archive.
-/

namespace JudgeSelf.Engine

open Machine (RwLock)

/-- What the compilation of a source yields in the event. -/
def CacheEvent.Yields : CacheEvent → Option String → String → Prop
  | .compile _ env w, source, bin =>
    ∃ language resources, (compileCode env source language resources getDefaultConfig w).1 = some bin
  | _, _, _ => False

namespace CacheSystem

variable {archives : String → ℤ → Directory} {outputs : Option String → String → Prop} {s t : CacheSystem}
  {worker item : ℕ} {caller : Caller} {problem : VersionedProblem}

/-- What the stage of a worker says about the caches. -/
def StageCoherent (archives : String → ℤ → Directory) (s : CacheSystem) : CacheStage → Prop
  | .loading caller problem phase =>
    (caller = .compileCheckerCode → problem.data.localProblemDir = tmpDir ++ problem.key) ∧
      (phase = .download → s.store.get? problem.key = none)
  | .loaded problem => problem.data.localProblemDir = tmpDir ++ problem.key
  | .compiling problem item phase =>
    problem.data.localProblemDir = tmpDir ++ problem.key ∧ (s.items item).path = tmpDir ++ problem.key ∧
      ∀ source, phase = .compile source → s.store.get? problem.key = some item →
        source = archives problem.data.problemId problem.problemVersion "checker"
  | _ => True

/-- Stored items, problem directories and stages agree with the archives, and binaries are `outputs` of them. -/
structure Coherent (archives : String → ℤ → Directory) (outputs : Option String → String → Prop)
    (s : CacheSystem) : Prop where
  paths : ∀ key item, s.store.get? key = some item → (s.items item).path = tmpDir ++ key
  checkers : ∀ id version item, s.store.get? (cacheKey id version) = some item →
    s.directories (tmpDir ++ cacheKey id version) "checker" = archives id version "checker"
  files : ∀ id version name, name ≠ "temp.zip" →
    (s.directories (tmpDir ++ cacheKey id version) name).isSome → (archives id version name).isSome
  binaries : ∀ id version item bin, s.store.get? (cacheKey id version) = some item →
    (s.items item).compiledBin = some bin → outputs (archives id version "checker") bin
  stages : ∀ worker, s.StageCoherent archives (s.workers worker)

/-- The store, the directories and the items apart from their locks are the same. -/
def SameData (s t : CacheSystem) : Prop :=
  t.store = s.store ∧ t.directories = s.directories ∧
    (∀ item, (t.items item).path = (s.items item).path) ∧
      ∀ item, (t.items item).compiledBin = (s.items item).compiledBin

private theorem sameData_refl (s : CacheSystem) : s.SameData s := ⟨rfl, rfl, fun _ => rfl, fun _ => rfl⟩

private theorem items_setMu (s : CacheSystem) (item : ℕ) (mu : RwLock ℕ) (i : ℕ) : (s.setMu item mu).items i =
    ⟨((s.setMu item mu).items i).mu, (s.items i).path, (s.items i).compiledBin⟩ := by
  change Function.update s.items item _ i = ⟨(Function.update s.items item _ i).mu, _, _⟩
  by_cases same : i = item
  · rw [same, Function.update_self]
  · rw [Function.update_of_ne same]

private theorem sameData_setMu (s : CacheSystem) (item : ℕ) (mu : RwLock ℕ) : s.SameData (s.setMu item mu) :=
  ⟨rfl, rfl, fun i => by rw [items_setMu], fun i => by rw [items_setMu]⟩

/-- A stage says the same about the same data. -/
theorem StageCoherent.of_same {stage : CacheStage} (same : s.SameData t) (coherent : s.StageCoherent archives stage) :
    t.StageCoherent archives stage := by
  obtain ⟨store, _, paths, _⟩ := same
  cases stage with
  | loading caller problem phase => exact ⟨coherent.1, fun download => store ▸ coherent.2 download⟩
  | compiling problem item phase =>
    obtain ⟨located, path, source⟩ := coherent
    exact ⟨located, (paths item).trans path, fun code at_ stored => source code at_ (store ▸ stored)⟩
  | _ => exact coherent

/-- With the data the coherence stays, if the stages that change are coherent. -/
theorem Coherent.of_same (coherent : s.Coherent archives outputs) (same : s.SameData t)
    (stages : ∀ worker, t.workers worker = s.workers worker ∨ s.StageCoherent archives (t.workers worker)) :
    t.Coherent archives outputs := by
  obtain ⟨store, directories, paths, bins⟩ := id same
  refine ⟨fun key item stored => ?_, fun id version item stored => ?_, fun id version name => ?_,
    fun id version item bin stored compiled => ?_, fun worker => StageCoherent.of_same same ?_⟩
  · rw [paths, coherent.paths key item (store ▸ stored)]
  · rw [directories, coherent.checkers id version item (store ▸ stored)]
  · rw [directories]
    exact coherent.files id version name
  · exact coherent.binaries id version item bin (store ▸ stored) (bins item ▸ compiled)
  · rcases stages worker with kept | moved
    · exact kept ▸ coherent.stages worker
    · exact moved

/-- A worker takes a coherent stage. -/
theorem Coherent.move (coherent : s.Coherent archives outputs) {stage : CacheStage} (same : s.SameData t)
    (moved : t.workers = Function.update s.workers worker stage) (staged : s.StageCoherent archives stage) :
    t.Coherent archives outputs := by
  refine coherent.of_same same fun other => ?_
  rw [moved]
  by_cases here : other = worker
  · rw [here, Function.update_self]
    exact .inr staged
  · rw [Function.update_of_ne here]
    exact .inl rfl

/-- Obtaining a stored item. -/
theorem Coherent.obtain (coherent : s.Coherent archives outputs) {phase : LoadPhase}
    (at_ : s.workers worker = .loading caller problem phase) (stored : s.store.get? problem.key = some item)
    (mu : RwLock (Option ℕ)) : ({ s with mu }.obtain worker caller problem item).Coherent archives outputs := by
  have path := coherent.paths _ _ stored
  have here := coherent.stages worker
  rw [at_] at here
  refine coherent.move (sameData_refl s) rfl ?_
  cases caller with
  | preExecute => exact path
  | compileCheckerCode => exact ⟨here.1 rfl, path, fun _ absurdity => CompilePhase.noConfusion absurdity⟩

/-- What a worker knows in `GetOrLoad` it knows in the phases before the download. -/
theorem Coherent.setLoadPhase (coherent : s.Coherent archives outputs) {phase next : LoadPhase}
    (at_ : s.workers worker = .loading caller problem phase) (other : next ≠ .download) (mu : RwLock (Option ℕ)) :
    ({ s with mu }.setStage worker (.loading caller problem next)).Coherent archives outputs := by
  have here := coherent.stages worker
  rw [at_] at here
  exact coherent.move (sameData_refl s) rfl ⟨here.1, fun same => absurd same other⟩

/-- What a worker knows in `CompileCheckerCode` it knows in the phases before the compilation. -/
theorem Coherent.setCompilePhase (coherent : s.Coherent archives outputs) {phase next : CompilePhase}
    (at_ : s.workers worker = .compiling problem item phase) (other : ∀ source, next ≠ .compile source)
    (same : s.SameData t) (moved : t.workers = Function.update s.workers worker (.compiling problem item next)) :
    t.Coherent archives outputs := by
  have here := coherent.stages worker
  rw [at_] at here
  exact coherent.move same moved ⟨here.1, here.2.1, fun source ends => absurd ends (other source)⟩

/-- The source of the checker is that of the archive as long as the item is stored. -/
theorem Coherent.readSource (coherent : s.Coherent archives outputs)
    (at_ : s.workers worker = .compiling problem item .readSource) :
    (s.setStage worker (.compiling problem item
      (.compile (s.directories problem.data.localProblemDir "checker")))).Coherent archives outputs := by
  have here := coherent.stages worker
  rw [at_] at here
  obtain ⟨located, path, _⟩ := here
  refine coherent.move (sameData_refl s) rfl ⟨located, path, fun source same stored => ?_⟩
  obtain rfl := CompilePhase.compile.inj same
  rw [located]
  exact coherent.checkers _ _ _ stored

/-- A download writes files of the archive over a directory whose key is not stored. -/
theorem Coherent.write (coherent : s.Coherent archives outputs)
    (at_ : s.workers worker = .loading caller problem .download) {name : String}
    (named : name = "temp.zip" ∨ (archives problem.data.problemId problem.problemVersion name).isSome)
    (content : String) :
    { s with directories := Function.update s.directories (tmpDir ++ problem.key)
                (Function.update (s.directories (tmpDir ++ problem.key)) name (some content)) }.Coherent
      archives outputs := by
  have here := coherent.stages worker
  rw [at_] at here
  refine ⟨coherent.paths, fun id version item stored => ?_, fun id version file ordinary present => ?_,
    coherent.binaries, coherent.stages⟩
  · have other : tmpDir ++ cacheKey id version ≠ tmpDir ++ problem.key := by
      intro same
      have absent := here.2 rfl
      rw [← (String.append_right_inj tmpDir).mp same, stored] at absent
      contradiction
    change Function.update s.directories _ _ _ _ = _
    rw [Function.update_of_ne other]
    exact coherent.checkers id version item stored
  · change (Function.update s.directories _ _ _ _).isSome at present
    by_cases same : cacheKey id version = problem.key
    · rw [same, Function.update_self] at present
      obtain ⟨rfl, rfl⟩ := cacheKey_inj.mp same
      by_cases written : file = name
      · subst written
        exact named.resolve_left ordinary
      · rw [Function.update_of_ne written, ← same] at present
        exact coherent.files _ _ file ordinary present
    · rw [Function.update_of_ne (fun joined => same ((String.append_right_inj tmpDir).mp joined))] at present
      exact coherent.files id version file ordinary present

/-- The data of a state with a new item. -/
structure Inserted (archives : String → ℤ → Directory) (problem : VersionedProblem) (s t : CacheSystem) :
    Prop where
  store : t.store = s.store.set problem.key s.allocated
  items : t.items = Function.update s.items s.allocated ⟨.free, tmpDir ++ problem.key, none⟩
  directories : t.directories = Function.update s.directories (tmpDir ++ problem.key)
    ((s.directories (tmpDir ++ problem.key)).extract (archives problem.data.problemId problem.problemVersion))

theorem Inserted.items_of_known (inserted : Inserted archives problem s t) (known : item < s.allocated) :
    t.items item = s.items item := by
  rw [inserted.items, Function.update_of_ne known.ne]

/-- A worker that does not download goes on as before. -/
theorem StageCoherent.insert {stage : CacheStage} (coherent : s.StageCoherent archives stage)
    (inserted : Inserted archives problem s t) (waiting : stage.storeMode ≠ .write)
    (known : ∀ problem item phase, stage = .compiling problem item phase → item < s.allocated) :
    t.StageCoherent archives stage := by
  cases stage with
  | loading caller other phase =>
    refine ⟨coherent.1, fun download => ?_⟩
    rw [download] at waiting
    exact absurd rfl waiting
  | compiling other item phase =>
    obtain ⟨located, path, source⟩ := coherent
    have given := known other item phase rfl
    refine ⟨located, ?_, fun code at_ stored => ?_⟩
    · rw [inserted.items_of_known given]
      exact path
    · rw [inserted.store, Record.get?_set] at stored
      split at stored
      · exact absurd (Option.some.inj stored).symm given.ne
      · exact source code at_ stored
  | _ => exact coherent

/-- A checker that is missing in the archive is missing in the directory. -/
private theorem extract_checker (coherent : s.Coherent archives outputs) (id : String) (version : ℤ) :
    (s.directories (tmpDir ++ cacheKey id version)).extract (archives id version) "checker" =
      archives id version "checker" := by
  rw [Directory.extract, if_neg (by decide)]
  cases archived : archives id version "checker" with
  | some content => rfl
  | none =>
    rw [Option.none_or]
    by_contra present
    have left := coherent.files id version "checker" (by decide) (Option.isSome_iff_ne_none.mpr present)
    rw [archived] at left
    contradiction

theorem Coherent.storeItem (coherent : s.Coherent archives outputs) (pointers : s.Pointers) (locked : s.StoreLocked)
    (at_ : s.workers worker = .loading caller problem .download) (mu : RwLock (Option ℕ)) :
    (s.storeItem worker caller problem (archives problem.data.problemId problem.problemVersion) mu).Coherent
      archives outputs := by
  have here := coherent.stages worker
  rw [at_] at here
  generalize next : s.storeItem worker caller problem (archives problem.data.problemId problem.problemVersion) mu = t
  have inserted : Inserted archives problem s t := by
    subst next
    exact ⟨rfl, rfl, rfl⟩
  have lookup (key : String) (item : ℕ) (stored : t.store.get? key = some item) :
      (key = problem.key ∧ item = s.allocated) ∨ (key ≠ problem.key ∧ s.store.get? key = some item) := by
    rw [inserted.store, Record.get?_set] at stored
    split at stored
    · next same => exact .inl ⟨same, (Option.some.inj stored).symm⟩
    · next other => exact .inr ⟨other, stored⟩
  have fresh : t.items s.allocated = ⟨.free, tmpDir ++ problem.key, none⟩ := by
    rw [inserted.items, Function.update_self]
  refine ⟨fun key item stored => ?_, fun id version item stored => ?_, fun id version name ordinary present => ?_,
    fun id version item bin stored compiled => ?_, fun other => ?_⟩
  · obtain ⟨rfl, rfl⟩ | ⟨_, before⟩ := lookup key item stored
    · rw [fresh]
    · rw [inserted.items_of_known (pointers.store _ _ before), coherent.paths key item before]
  · obtain ⟨same, _⟩ | ⟨other, before⟩ := lookup _ item stored
    · obtain ⟨rfl, rfl⟩ := cacheKey_inj.mp same
      rw [inserted.directories, same, Function.update_self]
      exact extract_checker coherent _ _
    · rw [inserted.directories,
        Function.update_of_ne (fun joined => other ((String.append_right_inj tmpDir).mp joined))]
      exact coherent.checkers id version item before
  · rw [inserted.directories] at present
    by_cases same : cacheKey id version = problem.key
    · obtain ⟨rfl, rfl⟩ := cacheKey_inj.mp same
      rw [same, Function.update_self, Directory.extract, if_neg ordinary, Option.isSome_or, Bool.or_eq_true] at present
      exact present.elim id fun left => coherent.files _ _ name ordinary left
    · rw [Function.update_of_ne (fun joined => same ((String.append_right_inj tmpDir).mp joined))] at present
      exact coherent.files id version name ordinary present
  · obtain ⟨_, rfl⟩ | ⟨_, before⟩ := lookup _ item stored
    · rw [fresh] at compiled
      contradiction
    · rw [inserted.items_of_known (pointers.store _ _ before)] at compiled
      exact coherent.binaries id version item bin before compiled
  · by_cases same : other = worker
    · rw [same]
      cases caller with
      | preExecute =>
        have staged : t.workers worker = .loaded (problem.withDir (t.items s.allocated).path) := by
          subst next
          exact Function.update_self ..
        rw [staged]
        exact congrArg CacheS3Item.path fresh
      | compileCheckerCode =>
        have staged : t.workers worker = .compiling problem s.allocated .rLock := by
          subst next
          exact Function.update_self ..
        rw [staged]
        exact ⟨here.1 rfl, congrArg CacheS3Item.path fresh, fun _ absurdity => CompilePhase.noConfusion absurdity⟩
    · have kept : t.workers other = s.workers other := by
        subst next
        exact Function.update_of_ne same ..
      rw [kept]
      refine (coherent.stages other).insert inserted (fun writing => ?_) (pointers.workers other)
      have alone : s.mu = .exclusive (some worker) := locked.alone (by rw [at_]; rfl)
      rw [locked.alone writing] at alone
      exact same (Option.some.inj (RwLock.exclusive.inj alone))

/-- What a removal leaves behind was there. -/
private theorem isSome_restrict {files : Directory} {survives : String → Bool} {name : String}
    (present : (files.restrict survives name).isSome) : (files name).isSome := by
  rw [Directory.restrict] at present
  split at present
  · exact present
  · contradiction

/-- A removal touches no directory of another key. -/
theorem Coherent.remove (coherent : s.Coherent archives outputs) (key : String) (keys : List String)
    (survives : String → Bool) : (s.remove key keys survives).Coherent archives outputs := by
  have before {k : String} {item : ℕ} (stored : (s.remove key keys survives).store.get? k = some item) :
      k ≠ key ∧ s.store.get? k = some item := by
    change (s.store.erase key).get? k = some item at stored
    rw [Record.get?_erase] at stored
    split at stored
    · contradiction
    · next other => exact ⟨other, stored⟩
  generalize joined : ((s.store.get? key).map fun item => (s.items item).path).getD "" = path
  have directories : (s.remove key keys survives).directories =
      Function.update s.directories path ((s.directories path).restrict survives) := by
    rw [← joined]
    rfl
  have elsewhere {k : String} (other : k ≠ key) : tmpDir ++ k ≠ path := by
    intro same
    subst joined
    cases stored : s.store.get? key with
    | none =>
      rw [stored] at same
      have lengths := congrArg String.length same
      rw [String.length_append] at lengths
      simp [tmpDir] at lengths
    | some item =>
      rw [stored, Option.map_some, Option.getD_some, coherent.paths key item stored] at same
      exact other ((String.append_right_inj tmpDir).mp same)
  refine ⟨fun k item stored => coherent.paths k item (before stored).2, fun id version item stored => ?_,
    fun id version name ordinary present => ?_,
    fun id version item bin stored => coherent.binaries id version item bin (before stored).2, fun worker => ?_⟩
  · rw [directories, Function.update_of_ne (elsewhere (before stored).1)]
    exact coherent.checkers id version item (before stored).2
  · rw [directories, Function.update_apply] at present
    split at present
    · next same => exact coherent.files id version name ordinary (same ▸ isSome_restrict present)
    · exact coherent.files id version name ordinary present
  · have stage := coherent.stages worker
    change StageCoherent archives _ (s.workers worker)
    cases at_ : s.workers worker with
    | loading caller problem phase =>
      rw [at_] at stage
      refine ⟨stage.1, fun download => ?_⟩
      change (s.store.erase key).get? problem.key = none
      rw [Record.get?_erase, stage.2 download, ite_self]
    | compiling problem item phase =>
      rw [at_] at stage
      exact ⟨stage.1, stage.2.1, fun source same stored => stage.2.2 source same (before stored).2⟩
    | loaded problem =>
      rw [at_] at stage
      exact stage
    | _ => trivial

theorem Coherent.exit (coherent : s.Coherent archives outputs) (survives : String → String → Bool) :
    (s.exit survives).Coherent archives outputs := by
  refine ⟨fun key item stored => ?_, fun id version item stored => ?_,
    fun id version name ordinary present => coherent.files id version name ordinary (isSome_restrict present),
    fun id version item bin stored => ?_, fun _ => trivial⟩
  all_goals
    rw [CacheSystem.exit, Record.get?_empty] at stored
    contradiction

/-- The binary of a compilation is stored in its item. -/
theorem Coherent.compile (coherent : s.Coherent archives outputs) {source : Option String} {bin : String}
    (yields : outputs source bin) (at_ : s.workers worker = .compiling problem item (.compile source))
    (mu : RwLock ℕ) :
    ((s.setItem item ⟨mu, (s.items item).path, some bin⟩).setStage worker (.returned (some bin))).Coherent
      archives outputs := by
  have here := coherent.stages worker
  rw [at_] at here
  obtain ⟨_, path, checker⟩ := here
  have read (i : ℕ) : (Function.update s.items item ⟨mu, (s.items item).path, some bin⟩ i).path =
      (s.items i).path := by
    rw [Function.update_apply]
    split
    · next same => rw [same]
    · rfl
  refine ⟨fun key i stored => (read i).trans (coherent.paths key i stored), coherent.checkers, coherent.files,
    fun id version i other stored bins => ?_, fun other => ?_⟩
  · change (Function.update s.items item _ i).compiledBin = some other at bins
    by_cases same : i = item
    · subst same
      rw [Function.update_self] at bins
      obtain rfl := Option.some.inj bins
      -- the item is still stored, so the worker has read the checker of the archive
      have joined := (coherent.paths _ _ stored).symm.trans path
      have keys := (String.append_right_inj tmpDir).mp joined
      obtain ⟨rfl, rfl⟩ := cacheKey_inj.mp keys
      rw [← checker source rfl stored]
      exact yields
    · rw [Function.update_of_ne same] at bins
      exact coherent.binaries id version i other stored bins
  · change StageCoherent archives _ (Function.update s.workers worker _ other)
    rw [Function.update_apply]
    split
    · trivial
    · have stage := coherent.stages other
      cases place : s.workers other with
      | compiling p i phase =>
        rw [place] at stage
        exact ⟨stage.1, (read i).trans stage.2.1, stage.2.2⟩
      | loading | loaded =>
        rw [place] at stage
        exact stage
      | _ => trivial

theorem Coherent.step (coherent : s.Coherent archives outputs) (pointers : s.Pointers) (locked : s.StoreLocked)
    {event : CacheEvent} (yields : ∀ source bin, event.Yields source bin → outputs source bin)
    (taken : s.step archives event = some t) : t.Coherent archives outputs := by
  cases effect_of_step taken with
  | preExecute => exact coherent.move (sameData_refl s) rfl ⟨Caller.noConfusion, LoadPhase.noConfusion⟩
  | @compileCheckerCode worker _ at_ =>
    have located := coherent.stages worker
    rw [at_] at located
    exact coherent.move (sameData_refl s) rfl ⟨fun _ => located, LoadPhase.noConfusion⟩
  | finish | compileFailed => exact coherent.move (sameData_refl s) rfl trivial
  | storeRLock at_ | missing at_ | storeLock at_ => exact coherent.setLoadPhase at_ LoadPhase.noConfusion _
  | found at_ stored | foundLocked at_ stored => exact coherent.obtain at_ stored _
  | @missingLocked worker _ _ at_ absent =>
    have here := coherent.stages worker
    rw [at_] at here
    exact coherent.move (sameData_refl s) rfl ⟨here.1, fun _ => absent⟩
  | write at_ named => exact coherent.write at_ named _
  | downloaded at_ => exact coherent.storeItem pointers locked at_ _
  | @downloadFailed _ caller =>
    refine coherent.move (sameData_refl s) rfl ?_
    cases caller <;> trivial
  | itemRLock at_ | uncompiled at_ | itemLock at_ =>
    exact coherent.setCompilePhase at_ (fun _ => CompilePhase.noConfusion) (sameData_setMu s _ _) rfl
  | uncompiledLocked at_ =>
    exact coherent.setCompilePhase at_ (fun _ => CompilePhase.noConfusion) (sameData_refl s) rfl
  | compiled | compiledLocked => exact coherent.move (sameData_setMu s _ _) rfl trivial
  | readSource at_ => exact coherent.readSource at_
  | compile at_ compiled => exact coherent.compile (yields _ _ ⟨_, _, compiled⟩) at_ _
  | cleanStart | cleanLock | cleanEnd => exact coherent.of_same (sameData_refl s) fun _ => .inl rfl
  | @cleanRemove _ _ survives => exact coherent.remove _ _ survives
  | @exit survives => exact coherent.exit survives

theorem coherent_start : start.Coherent archives outputs := by
  refine ⟨fun key item stored => ?_, fun id version item stored => ?_, fun id version name ordinary present => ?_,
    fun id version item bin stored => ?_, fun _ => trivial⟩
  · rw [start, Record.get?_empty] at stored
    contradiction
  · rw [start, Record.get?_empty] at stored
    contradiction
  · exact absurd present (by simp [start])
  · rw [start, Record.get?_empty] at stored
    contradiction

end CacheSystem

end JudgeSelf.Engine
