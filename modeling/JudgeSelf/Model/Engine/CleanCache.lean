import JudgeSelf.Machine.Tree
import JudgeSelf.Model.Engine.Cache

/-! # A run of the cleaner

Model of `cleanCache` under both locks. Go visits the entries of a map in any order, and an order of
its own for each of the three loops; every entry is visited once, also when others are deleted meanwhile.
-/

namespace JudgeSelf.Engine

open Machine (Tree)
open Machine.Path (resolve)

/-- `models.ProblemData` as `GetProblemData` fills it in, without the directory. -/
structure FetchedProblem extends VersionedProblem where
  s3Hash : String
deriving DecidableEq

/-- `cacheDbItem`. -/
structure CachedProblem where
  data : FetchedProblem
  expiresAt : ℤ
deriving DecidableEq

/-- `cacheS3Item` without its lock. -/
structure CachedArchive where
  path : String
  compiledBin : Option String
deriving DecidableEq, Repr

structure Caches where
  dbStore : Record String CachedProblem
  s3Store : Record String CachedArchive
  tree : Tree

/-- The orders in which the loops visit the maps. -/
structure VisitOrder where
  problems : List (String × CachedProblem)
  versions : List (String × CachedArchive)
  archives : List (String × CachedArchive)

structure VisitOrder.Of (order : VisitOrder) (c : Caches) : Prop where
  problems : order.problems.Perm c.dbStore.entries
  versions : order.versions.Perm c.s3Store.entries
  archives : order.archives.Perm c.s3Store.entries

/-- One iteration over the database cache; the keys are `validKeys`. -/
def evict (now : ℤ) (state : Record String CachedProblem × List String) (entry : String × CachedProblem) :
    Record String CachedProblem × List String :=
  if entry.2.expiresAt + cacheCleanupBuffer < now then (state.1.erase entry.1, state.2)
  else (state.1, state.2 ++ [entry.1])

/-- One iteration of the deleting loop. -/
def removeStale (validKeys keys : List String) (c : Caches) (entry : String × CachedArchive) : Caches :=
  if IsStale validKeys keys entry.1 then
    { c with
      s3Store := c.s3Store.erase entry.1
      tree := c.tree.removeAll (resolve [] entry.2.path) }
  else c

def Caches.cleanCache (now : ℤ) (order : VisitOrder) (c : Caches) : Caches :=
  if c.s3Store.entries.length ≤ cacheCleanupThreshold then c
  else
    let (dbStore, validKeys) := order.problems.foldl (evict now) (c.dbStore, [])
    order.archives.foldl (removeStale validKeys (order.versions.map Prod.fst)) { c with dbStore }

end JudgeSelf.Engine
