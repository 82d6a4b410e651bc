import JudgeSelf.Model.Engine.CleanCache

/-! # What the cleaner leaves

The three loops of the cleaner come to one filter for each cache, in whatever order they visit the
maps. The version of a key is read by `strconv.Atoi`: versions beyond the range of `int` are read as its
last number, and are not told apart.
-/

namespace JudgeSelf.Engine

open Machine (Tree)
open Machine.Path (resolve)

/-- The directory of the problem that a key belongs to. -/
def problemDir (key : String) : List String := ["tmp", "execution-engine", "problems", key]

/-- The database cache has its live entries left, the archive cache the latest version of each live
problem, and the directories of all other archives are gone. -/
structure Cleaned (now : ℤ) (c after : Caches) : Prop where
  problems : ∀ id item, after.dbStore.get? id = some item ↔
    c.dbStore.get? id = some item ∧ now ≤ item.expiresAt + cacheCleanupBuffer
  archives : ∀ id version item, after.s3Store.get? (cacheKey id version) = some item ↔
    c.s3Store.get? (cacheKey id version) = some item ∧ (after.dbStore.get? id).isSome ∧
      ∀ other, (c.s3Store.get? (cacheKey id other)).isSome → other ≤ version
  unchanged : ∀ key item, after.s3Store.get? key = some item → c.s3Store.get? key = some item
  single : ∀ id version version', (after.s3Store.get? (cacheKey id version)).isSome →
    (after.s3Store.get? (cacheKey id version')).isSome → version = version'
  directories : ∀ path, after.tree.get? path =
    if ∃ key ∈ c.s3Store.keys, after.s3Store.get? key = none ∧ problemDir key <+: path then none
    else c.tree.get? path

namespace Caches

/-- Every key is an id and a version, and every path is that of `GetOrLoad`. -/
def Named (c : Caches) : Prop :=
  ∀ key item, c.s3Store.get? key = some item → item.path = tmpDir ++ key ∧
    ∃ id version, key = cacheKey id version ∧ '_' ∉ id.toList ∧ '/' ∉ id.toList

/-- The versions of the stored archives are of type `int`. -/
def VersionsFit (c : Caches) : Prop :=
  ∀ id version, (c.s3Store.get? (cacheKey id version)).isSome → -2 ^ 63 ≤ version ∧ version < 2 ^ 63

end Caches

variable {now : ℤ} {c : Caches} {order : VisitOrder}

theorem get?_evict (l : List (String × CachedProblem)) (store : Record String CachedProblem) (valid : List String)
    (id : String) : (l.foldl (evict now) (store, valid)).1.get? id =
      if ∃ entry ∈ l, entry.1 = id ∧ entry.2.expiresAt + cacheCleanupBuffer < now then none else store.get? id := by
  refine List.read_foldl_of_removes (fun c : Record String CachedProblem × List String => c.1.get? id)
    (fun entry : String × CachedProblem => entry.1 = id ∧ entry.2.expiresAt + cacheCleanupBuffer < now)
    (fun c entry => ?_) l (store, valid)
  by_cases expired : entry.2.expiresAt + cacheCleanupBuffer < now
  · simp only [evict, expired, ↓reduceIte, and_true, Record.get?_erase, eq_comm]
  · simp only [evict, expired, ↓reduceIte, and_false]

private theorem validKeys_evict (l : List (String × CachedProblem)) (store : Record String CachedProblem)
    (valid : List String) : (l.foldl (evict now) (store, valid)).2 =
      valid ++ (l.filter fun entry => ¬ entry.2.expiresAt + cacheCleanupBuffer < now).map Prod.fst := by
  induction l generalizing store valid with
  | nil => simp
  | cons entry l ih =>
    rw [List.foldl_cons, evict]
    by_cases expired : entry.2.expiresAt + cacheCleanupBuffer < now
    · rw [if_pos expired, ih, List.filter_cons_of_neg (by simpa using expired)]
    · rw [if_neg expired, ih, List.filter_cons_of_pos (by simpa using expired), List.map_cons, List.append_assoc]
      rfl

variable {valid keys : List String}

private theorem dbStore_removeStale (l : List (String × CachedArchive)) (c : Caches) :
    (l.foldl (removeStale valid keys) c).dbStore = c.dbStore := by
  induction l generalizing c with
  | nil => rfl
  | cons entry l ih =>
    rw [List.foldl_cons, ih, removeStale]
    split <;> rfl

private theorem s3Store_removeStale (l : List (String × CachedArchive)) (c : Caches) (key : String) :
    (l.foldl (removeStale valid keys) c).s3Store.get? key =
      if ∃ entry ∈ l, entry.1 = key ∧ IsStale valid keys key then none else c.s3Store.get? key := by
  refine List.read_foldl_of_removes (fun c : Caches => c.s3Store.get? key)
    (fun entry : String × CachedArchive => entry.1 = key ∧ IsStale valid keys key) (fun c entry => ?_) l c
  by_cases stale : IsStale valid keys entry.1
  · simp only [removeStale, stale, ↓reduceIte, Record.get?_erase]
    refine if_congr ⟨fun same => ⟨same.symm, ?_⟩, fun removed : entry.1 = key ∧ _ => removed.1.symm⟩ rfl rfl
    rw [same]
    exact stale
  · simp only [removeStale, stale, ↓reduceIte]
    refine (if_neg ?_).symm
    rintro ⟨rfl, stale'⟩
    exact stale stale'

private theorem tree_removeStale (l : List (String × CachedArchive)) (c : Caches) (path : List String) :
    (l.foldl (removeStale valid keys) c).tree.get? path =
      if ∃ entry ∈ l, IsStale valid keys entry.1 ∧ resolve [] entry.2.path <+: path then none
      else c.tree.get? path := by
  refine List.read_foldl_of_removes (fun c : Caches => c.tree.get? path)
    (fun entry : String × CachedArchive => IsStale valid keys entry.1 ∧ resolve [] entry.2.path <+: path)
    (fun c entry => ?_) l c
  by_cases stale : IsStale valid keys entry.1
  · simp only [removeStale, stale, ↓reduceIte, true_and, Tree.get?_removeAll]
  · simp only [removeStale, stale, ↓reduceIte, false_and]

/-- Entries in their time are all kept. -/
theorem foldl_evict_of_live {l : List (String × CachedProblem)} {store : Record String CachedProblem}
    (live : ∀ entry ∈ l, now ≤ entry.2.expiresAt + cacheCleanupBuffer) :
    (l.foldl (evict now) (store, valid)).1 = store := by
  induction l generalizing valid with
  | nil => rfl
  | cons entry l ih =>
    obtain ⟨first, rest⟩ := List.forall_mem_cons.mp live
    rw [List.foldl_cons, evict, if_neg (not_lt.mpr first)]
    exact ih rest

private theorem foldl_removeStale_of_fresh {l : List (String × CachedArchive)}
    (fresh : ∀ entry ∈ l, ¬ IsStale valid keys entry.1) : l.foldl (removeStale valid keys) c = c := by
  induction l with
  | nil => rfl
  | cons entry l ih =>
    obtain ⟨first, rest⟩ := List.forall_mem_cons.mp fresh
    rw [List.foldl_cons, removeStale, if_neg first]
    exact ih rest

/-- `validKeys` after the first loop. -/
def VisitOrder.validKeys (now : ℤ) (order : VisitOrder) (c : Caches) : List String :=
  (order.problems.foldl (evict now) (c.dbStore, [])).2

private theorem mem_validKeys (visits : order.Of c) {id : String} : id ∈ order.validKeys now c ↔
    ∃ item, c.dbStore.get? id = some item ∧ now ≤ item.expiresAt + cacheCleanupBuffer := by
  rw [VisitOrder.validKeys, validKeys_evict, List.nil_append, List.mem_map]
  constructor
  · rintro ⟨⟨id, item⟩, member, rfl⟩
    obtain ⟨present, live⟩ := List.mem_filter.mp member
    exact ⟨item, Record.get?_eq_some_iff.mpr (visits.problems.mem_iff.mp present),
      not_lt.mp (of_decide_eq_true live)⟩
  · rintro ⟨item, found, live⟩
    exact ⟨(id, item), List.mem_filter.mpr
      ⟨visits.problems.mem_iff.mpr (Record.get?_eq_some_iff.mp found), decide_eq_true (not_lt.mpr live)⟩, rfl⟩

private theorem mem_versions (visits : order.Of c) {key : String} :
    key ∈ order.versions.map Prod.fst ↔ (c.s3Store.get? key).isSome := by
  rw [(visits.versions.map Prod.fst).mem_iff, Option.isSome_iff_exists]
  exact Record.mem_keys_iff

private theorem isName_cacheKey {id : String} (slash : '/' ∉ id.toList) (version : ℤ) :
    Machine.Path.IsName (cacheKey id version) := by
  have underscore : '_' ∈ (cacheKey id version).toList := by simp [cacheKey]
  have other {text : String} (without : '_' ∉ text.toList) : cacheKey id version ≠ text := by
    rintro same
    exact without (same ▸ underscore)
  refine ⟨?_, other (by decide), other (by decide), other (by decide)⟩
  have digits : '/' ∉ (toString version).toList := by
    intro member
    rcases Int.isDigit_or_sign_of_mem_toString member with digit | sign
    · exact absurd digit (by decide)
    · exact absurd sign (by decide)
  simp only [cacheKey, String.toList_append, List.mem_append, not_or]
  exact ⟨⟨slash, by decide⟩, digits⟩

private theorem resolve_path (named : c.Named) {key : String} {item : CachedArchive}
    (stored : c.s3Store.get? key = some item) : resolve [] item.path = problemDir key := by
  obtain ⟨located, id, version, rfl, canonical, slash⟩ := named key item stored
  have joined : item.path = "/tmp/execution-engine/problems" ++ "/" ++ cacheKey id version := located
  rw [joined, Machine.Path.resolve_join, Machine.Path.resolve_name _ (isName_cacheKey slash version)]
  rfl

/-- An archive goes if its problem is not cached, or if a later version of it is stored. -/
theorem isStale_cacheKey (named : c.Named) (fit : c.VersionsFit) (visits : order.Of c) {id : String} {version : ℤ}
    (stored : (c.s3Store.get? (cacheKey id version)).isSome) :
    IsStale valid (order.versions.map Prod.fst) (cacheKey id version) ↔ id ∉ valid ∨
      ∃ other, (c.s3Store.get? (cacheKey id other)).isSome ∧ version < other := by
  have parts {key : String} (present : (c.s3Store.get? key).isSome) :
      ∃ id version, key = cacheKey id version ∧ keyId key = id ∧ keyVersion key = version := by
    obtain ⟨item, found⟩ := Option.isSome_iff_exists.mp present
    obtain ⟨_, id, version, rfl, canonical, _⟩ := named key item found
    exact ⟨id, version, rfl, keyId_cacheKey canonical version, keyVersion_cacheKey canonical (fit id version present)⟩
  obtain ⟨id', version', same, isId, isVersion⟩ := parts stored
  obtain ⟨rfl, rfl⟩ := cacheKey_inj.mp same
  rw [isStale_iff ((mem_versions visits).mpr stored), isId, isVersion]
  apply or_congr_right
  constructor
  · rintro ⟨key, member, sameId, newer⟩
    have present := (mem_versions visits).mp member
    obtain ⟨id', other, rfl, ofId, ofVersion⟩ := parts present
    rw [← sameId, ofId]
    exact ⟨other, present, ofVersion ▸ newer⟩
  · rintro ⟨other, present, newer⟩
    obtain ⟨id', other', same, ofId, ofVersion⟩ := parts present
    obtain ⟨rfl, rfl⟩ := cacheKey_inj.mp same
    exact ⟨_, (mem_versions visits).mpr present, ofId, ofVersion.symm ▸ newer⟩

variable (full : cacheCleanupThreshold < c.s3Store.entries.length)
include full

private theorem cleanCache_eq : c.cleanCache now order =
    order.archives.foldl (removeStale (order.validKeys now c) (order.versions.map Prod.fst))
      { c with dbStore := (order.problems.foldl (evict now) (c.dbStore, [])).1 } := by
  rw [Caches.cleanCache, if_neg (not_le.mpr full)]
  rfl

private theorem dbStore_cleanCache (visits : order.Of c) {id : String} {item : CachedProblem} :
    (c.cleanCache now order).dbStore.get? id = some item ↔
      c.dbStore.get? id = some item ∧ now ≤ item.expiresAt + cacheCleanupBuffer := by
  rw [cleanCache_eq full, dbStore_removeStale, get?_evict]
  have visited {item : CachedProblem} : (id, item) ∈ order.problems ↔ c.dbStore.get? id = some item := by
    rw [visits.problems.mem_iff, Record.get?_eq_some_iff]
  split
  · next gone =>
    obtain ⟨⟨_, stale⟩, member, rfl, expired⟩ := gone
    refine iff_of_false (by simp) ?_
    rintro ⟨found, live⟩
    rw [visited.mp member] at found
    obtain rfl := Option.some.inj found
    exact absurd live (not_le.mpr expired)
  · next stays =>
    refine iff_self_and.mpr fun found => ?_
    by_contra expired
    exact stays ⟨(id, item), visited.mpr found, rfl, not_le.mp expired⟩

private theorem isSome_dbStore_cleanCache (visits : order.Of c) {id : String} :
    ((c.cleanCache now order).dbStore.get? id).isSome ↔ id ∈ order.validKeys now c := by
  rw [Option.isSome_iff_exists, mem_validKeys visits]
  exact exists_congr fun item => dbStore_cleanCache full visits

private theorem s3Store_cleanCache (visits : order.Of c) {key : String} {item : CachedArchive} :
    (c.cleanCache now order).s3Store.get? key = some item ↔ c.s3Store.get? key = some item ∧
      ¬ IsStale (order.validKeys now c) (order.versions.map Prod.fst) key := by
  rw [cleanCache_eq full, s3Store_removeStale]
  split
  · next gone =>
    obtain ⟨_, _, _, stale⟩ := gone
    exact iff_of_false (by simp) fun kept => kept.2 stale
  · next stays =>
    refine iff_self_and.mpr fun found stale => stays ⟨(key, item), ?_, rfl, stale⟩
    exact visits.archives.mem_iff.mpr (Record.get?_eq_some_iff.mp found)

private theorem archives_cleanCache (named : c.Named) (fit : c.VersionsFit) (visits : order.Of c) {id : String}
    {version : ℤ}
    {item : CachedArchive} : (c.cleanCache now order).s3Store.get? (cacheKey id version) = some item ↔
      c.s3Store.get? (cacheKey id version) = some item ∧ ((c.cleanCache now order).dbStore.get? id).isSome ∧
        ∀ other, (c.s3Store.get? (cacheKey id other)).isSome → other ≤ version := by
  rw [s3Store_cleanCache full visits, isSome_dbStore_cleanCache full visits]
  refine and_congr_right fun found => ?_
  rw [isStale_cacheKey named fit visits (by rw [found]; rfl)]
  push Not
  rfl

private theorem tree_cleanCache (named : c.Named) (visits : order.Of c) (path : List String) :
    (c.cleanCache now order).tree.get? path =
      if ∃ key ∈ c.s3Store.keys, (c.cleanCache now order).s3Store.get? key = none ∧ problemDir key <+: path then none
      else c.tree.get? path := by
  have removed {key : String} {item : CachedArchive} (found : c.s3Store.get? key = some item) :
      (c.cleanCache now order).s3Store.get? key = none ↔
        IsStale (order.validKeys now c) (order.versions.map Prod.fst) key := by
    rw [Option.eq_none_iff_forall_ne_some]
    constructor
    · intro gone
      by_contra fresh
      exact gone item ((s3Store_cleanCache full visits).mpr ⟨found, fresh⟩)
    · exact fun stale item kept => ((s3Store_cleanCache full visits).mp kept).2 stale
  rw [cleanCache_eq full, tree_removeStale, ← cleanCache_eq full]
  refine if_congr ⟨?_, ?_⟩ rfl rfl
  · rintro ⟨⟨key, item⟩, member, stale, inside⟩
    have found := Record.get?_eq_some_iff.mpr (visits.archives.mem_iff.mp member)
    rw [resolve_path named found] at inside
    exact ⟨key, Record.mem_keys_iff.mpr ⟨item, found⟩, (removed found).mpr stale, inside⟩
  · rintro ⟨key, member, gone, inside⟩
    obtain ⟨item, found⟩ := Record.mem_keys_iff.mp member
    refine ⟨(key, item), visits.archives.mem_iff.mpr (Record.get?_eq_some_iff.mp found), (removed found).mp gone, ?_⟩
    rwa [resolve_path named found]

private theorem cleaned_cleanCache (named : c.Named) (fit : c.VersionsFit) (visits : order.Of c) :
    Cleaned now c (c.cleanCache now order) where
  problems _ _ := dbStore_cleanCache full visits
  archives _ _ _ := archives_cleanCache full named fit visits
  unchanged _ _ kept := ((s3Store_cleanCache full visits).mp kept).1
  single id version version' kept kept' := by
    obtain ⟨item, found⟩ := Option.isSome_iff_exists.mp kept
    obtain ⟨item', found'⟩ := Option.isSome_iff_exists.mp kept'
    obtain ⟨stored, _, latest⟩ := (archives_cleanCache full named fit visits).mp found
    obtain ⟨stored', _, latest'⟩ := (archives_cleanCache full named fit visits).mp found'
    exact le_antisymm (latest' version (by rw [stored]; rfl)) (latest version' (by rw [stored']; rfl))
  directories := tree_cleanCache full named visits

omit full

/-- What a run leaves is left by another run at the same time. -/
theorem cleanCache_of_cleaned {after : Caches} (named : c.Named) (fit : c.VersionsFit) (cleaned : Cleaned now c after)
    (visits : order.Of after) : after.cleanCache now order = after := by
  by_cases full : cacheCleanupThreshold < after.s3Store.entries.length
  · have namedAfter : after.Named := fun key item kept => named key item (cleaned.unchanged key item kept)
    have fitAfter : after.VersionsFit := by
      intro id version kept
      obtain ⟨item, found⟩ := Option.isSome_iff_exists.mp kept
      exact fit id version (by rw [cleaned.unchanged _ _ found]; rfl)
    rw [cleanCache_eq full, foldl_evict_of_live]
    · refine foldl_removeStale_of_fresh ?_
      rintro ⟨key, item⟩ member
      have kept := Record.get?_eq_some_iff.mpr (visits.archives.mem_iff.mp member)
      obtain ⟨_, id, version, rfl, _⟩ := namedAfter key item kept
      obtain ⟨_, live, _⟩ := (cleaned.archives id version item).mp kept
      dsimp only
      rw [isStale_cacheKey namedAfter fitAfter visits (by rw [kept]; rfl)]
      rintro (unlisted | ⟨other, present, newer⟩)
      · obtain ⟨cached, found⟩ := Option.isSome_iff_exists.mp live
        exact unlisted ((mem_validKeys visits).mpr ⟨cached, found, ((cleaned.problems id cached).mp found).2⟩)
      · exact newer.ne (cleaned.single id version other (by rw [kept]; rfl) present)
    · rintro ⟨id, item⟩ member
      have found := Record.get?_eq_some_iff.mpr (visits.problems.mem_iff.mp member)
      exact ((cleaned.problems id item).mp found).2
  · rw [Caches.cleanCache, if_pos (not_lt.mp full)]

/-- The cleaner keeps the live, latest entries, and then keeps them all. -/
theorem cleanCache_keeps_latest (named : c.Named) (fit : c.VersionsFit)
    (full : cacheCleanupThreshold < c.s3Store.entries.length) (visits : order.Of c) :
    Cleaned now c (c.cleanCache now order) ∧
      ∀ again : VisitOrder, again.Of (c.cleanCache now order) →
        (c.cleanCache now order).cleanCache now again = c.cleanCache now order :=
  ⟨cleaned_cleanCache full named fit visits,
    fun _ visits' => cleanCache_of_cleaned named fit (cleaned_cleanCache full named fit visits) visits'⟩

/-- Caches with some versions of one problem, which expires at the time 0. -/
def shelf (versions : List ℤ) : Caches where
  dbStore := Record.empty.set "7" ⟨⟨⟨⟨"7", 1000, 65536, 1, "cpp", "", "1"⟩, 0⟩, ""⟩, 0⟩
  s3Store := Record.ofList (versions.map fun version => (cacheKey "7" version, ⟨tmpDir ++ cacheKey "7" version, none⟩))
  tree := Tree.empty

def shelfOrder (versions : List ℤ) : VisitOrder :=
  ⟨(shelf versions).dbStore.entries, (shelf versions).s3Store.entries, (shelf versions).s3Store.entries.reverse⟩

private theorem shelfOrder_of (versions : List ℤ) : (shelfOrder versions).Of (shelf versions) :=
  ⟨.refl _, .refl _, List.reverse_perm _⟩

private theorem entries_shelf {versions : List ℤ} (distinct : versions.Nodup) : (shelf versions).s3Store.entries =
    versions.map fun version => (cacheKey "7" version, ⟨tmpDir ++ cacheKey "7" version, none⟩) := by
  refine Record.entries_ofList ?_
  rw [List.map_map]
  exact distinct.map fun _ _ same => (cacheKey_inj.mp same).2

private theorem shelf_get? {versions : List ℤ} (distinct : versions.Nodup) {key : String} {item : CachedArchive}
    (stored : (shelf versions).s3Store.get? key = some item) :
    ∃ version ∈ versions, cacheKey "7" version = key ∧ ⟨tmpDir ++ cacheKey "7" version, none⟩ = item := by
  rw [Record.get?_eq_some_iff, entries_shelf distinct, List.mem_map] at stored
  obtain ⟨version, member, same⟩ := stored
  exact ⟨version, member, Prod.mk.inj same⟩

private theorem shelf_named {versions : List ℤ} (distinct : versions.Nodup) : (shelf versions).Named := by
  intro key item stored
  obtain ⟨version, _, rfl, rfl⟩ := shelf_get? distinct stored
  exact ⟨rfl, "7", version, rfl, by decide, by decide⟩

private theorem shelf_fit {versions : List ℤ} (distinct : versions.Nodup)
    (inRange : ∀ version ∈ versions, -2 ^ 63 ≤ version ∧ version < 2 ^ 63) : (shelf versions).VersionsFit := by
  intro id version stored
  obtain ⟨item, found⟩ := Option.isSome_iff_exists.mp stored
  obtain ⟨version', member, same, _⟩ := shelf_get? distinct found
  obtain ⟨_, rfl⟩ := cacheKey_inj.mp same
  exact inRange _ member

def smallVersions (n : ℕ) : List ℤ := (List.range n).map (↑)

theorem cleanCache_thirty_one_versions :
    Cleaned 0 (shelf (smallVersions 31))
        ((shelf (smallVersions 31)).cleanCache 0 (shelfOrder (smallVersions 31))) ∧
      ∀ again : VisitOrder, again.Of ((shelf (smallVersions 31)).cleanCache 0 (shelfOrder (smallVersions 31))) →
        ((shelf (smallVersions 31)).cleanCache 0 (shelfOrder (smallVersions 31))).cleanCache 0 again =
          (shelf (smallVersions 31)).cleanCache 0 (shelfOrder (smallVersions 31)) :=
  have distinct : (smallVersions 31).Nodup := by decide
  cleanCache_keeps_latest (shelf_named distinct) (shelf_fit distinct (by decide))
    (by rw [entries_shelf distinct, List.length_map]; decide) (shelfOrder_of _)

/-- Two versions beyond the range of `int` are both read as its last number, and both stay. -/
def vastVersions : List ℤ := smallVersions 30 ++ [10 ^ 19, 10 ^ 19 + 1]

private theorem keyVersion_le (key : String) : keyVersion key ≤ 2 ^ 63 - 1 := max_le (by decide) (min_le_left _ _)

/-- A version that is read as the last number stays. -/
theorem last_version_kept {versions : List ℤ} {version : ℤ} (distinct : versions.Nodup) (member : version ∈ versions)
    (full : cacheCleanupThreshold < (shelf versions).s3Store.entries.length)
    (last : keyVersion (cacheKey "7" version) = 2 ^ 63 - 1) :
    (((shelf versions).cleanCache 0 (shelfOrder versions)).s3Store.get? (cacheKey "7" version)).isSome := by
  have visits := shelfOrder_of versions
  have canonical : Canonical "7" := by rw [Canonical]; decide
  have stored : (shelf versions).s3Store.get? (cacheKey "7" version) =
      some ⟨tmpDir ++ cacheKey "7" version, none⟩ := by
    rw [Record.get?_eq_some_iff, entries_shelf distinct]
    exact List.mem_map_of_mem member
  refine Option.isSome_iff_exists.mpr ⟨_, (s3Store_cleanCache full visits).mpr ⟨stored, ?_⟩⟩
  rw [isStale_iff ((mem_versions visits).mpr (by rw [stored]; rfl)), keyId_cacheKey canonical, last]
  rintro (unlisted | ⟨other, _, _, newer⟩)
  · exact unlisted ((mem_validKeys visits).mpr ⟨_, rfl, by decide⟩)
  · exact absurd (keyVersion_le other) (not_le.mpr newer)

theorem vast_versions_kept : (shelf vastVersions).Named ∧
    cacheCleanupThreshold < (shelf vastVersions).s3Store.entries.length ∧
    (shelfOrder vastVersions).Of (shelf vastVersions) ∧
    ¬ Cleaned 0 (shelf vastVersions) ((shelf vastVersions).cleanCache 0 (shelfOrder vastVersions)) := by
  have distinct : vastVersions.Nodup := by decide
  have full : cacheCleanupThreshold < (shelf vastVersions).s3Store.entries.length := by
    rw [entries_shelf distinct, List.length_map]
    decide
  refine ⟨shelf_named distinct, full, shelfOrder_of _, fun cleaned => ?_⟩
  have first := last_version_kept distinct (by decide : (10 ^ 19 : ℤ) ∈ vastVersions) full (by decide +kernel)
  have second := last_version_kept distinct (by decide : (10 ^ 19 + 1 : ℤ) ∈ vastVersions) full (by decide +kernel)
  exact absurd (cleaned.single "7" _ _ first second) (by decide)

end JudgeSelf.Engine
