import Mathlib.Data.List.Nodup
import Mathlib.Logic.Function.Basic

/-! # Readers–writer locks

A lock is held by some readers or by one writer. An acquisition that would block is not offered. The
parties that use a lock know their own mode at every moment; `Tracks` says that the lock agrees, and
it survives every operation together with the change of mode of the party that performs it.
-/

namespace Machine

inductive RwLock (ι : Type*)
  | shared (readers : List ι)
  | exclusive (writer : ι)
deriving DecidableEq

namespace RwLock

variable {ι : Type*}

def free : RwLock ι := shared []

/-- The party holds the lock, in whatever mode. -/
def Holds : RwLock ι → ι → Prop
  | shared readers, i => i ∈ readers
  | exclusive writer, i => i = writer

def rLock (i : ι) : RwLock ι → Option (RwLock ι)
  | shared readers => some (shared (i :: readers))
  | exclusive _ => none

def lock (i : ι) : RwLock ι → Option (RwLock ι)
  | shared [] => some (exclusive i)
  | _ => none

/-- What a party holds. -/
inductive Mode
  | none
  | read
  | write
deriving DecidableEq

/-- The lock is held as the modes of the parties say. -/
def Tracks (mode : ι → Mode) : RwLock ι → Prop
  | shared readers => readers.Nodup ∧ (∀ i, i ∈ readers ↔ mode i = .read) ∧ ∀ i, mode i ≠ .write
  | exclusive writer => mode writer = .write ∧ ∀ i, i ≠ writer → mode i = .none

variable {mode : ι → Mode} {l l' : RwLock ι} {i : ι}

theorem tracks_free : Tracks (fun _ : ι => Mode.none) free := by
  refine ⟨List.nodup_nil, fun _ => ?_, fun _ => ?_⟩ <;> simp

/-- A party holds the lock exactly in a mode of its own. -/
theorem Tracks.holds_iff (tracks : Tracks mode l) : l.Holds i ↔ mode i ≠ .none := by
  cases l with
  | shared readers =>
    obtain ⟨_, readersIff, noWriter⟩ := tracks
    change i ∈ readers ↔ _
    rw [readersIff]
    cases held : mode i with
    | none | read => simp
    | write => exact absurd held (noWriter i)
  | exclusive writer =>
    obtain ⟨owner, others⟩ := tracks
    change i = writer ↔ _
    by_cases same : i = writer
    · simp [same, owner]
    · simp [same, others i same]

/-- Without parties that hold it the lock is free. -/
theorem Tracks.eq_free (tracks : Tracks mode l) (released : ∀ i, mode i = .none) : l = free := by
  cases l with
  | shared readers =>
    have none : readers = [] := by
      rw [List.eq_nil_iff_forall_not_mem]
      intro i member
      have reads := (tracks.2.1 i).mp member
      rw [released i] at reads
      contradiction
    rw [none, free]
  | exclusive writer =>
    have owner := tracks.1
    rw [released writer] at owner
    contradiction

/-- At most one party writes, and then nobody else holds the lock. -/
theorem Tracks.eq_exclusive (tracks : Tracks mode l) (writing : mode i = .write) : l = exclusive i := by
  cases l with
  | shared readers => exact absurd writing (tracks.2.2 i)
  | exclusive writer =>
    by_cases same : i = writer
    · rw [same]
    · rw [tracks.2 i same] at writing
      contradiction

variable [DecidableEq ι]

def rUnlock (i : ι) : RwLock ι → Option (RwLock ι)
  | shared readers => if i ∈ readers then some (shared (readers.erase i)) else none
  | exclusive _ => none

def unlock (i : ι) : RwLock ι → Option (RwLock ι)
  | exclusive writer => if i = writer then some free else none
  | shared _ => none

/-- A reader can let the lock go. -/
theorem Tracks.exists_rUnlock (tracks : Tracks mode l) (reading : mode i = .read) : ∃ l', l.rUnlock i = some l' := by
  cases l with
  | shared readers => exact ⟨_, if_pos ((tracks.2.1 i).mpr reading)⟩
  | exclusive writer =>
    by_cases same : i = writer
    · rw [same, tracks.1] at reading
      contradiction
    · rw [tracks.2 i same] at reading
      contradiction

/-- A writer can let the lock go. -/
theorem Tracks.exists_unlock (tracks : Tracks mode l) (writing : mode i = .write) : ∃ l', l.unlock i = some l' := by
  rw [tracks.eq_exclusive writing]
  exact ⟨_, if_pos rfl⟩

theorem Tracks.rLock (tracks : Tracks mode l) (idle : mode i = .none) (taken : l.rLock i = some l') :
    Tracks (Function.update mode i .read) l' := by
  cases l with
  | exclusive writer => contradiction
  | shared readers =>
    obtain rfl := Option.some.inj taken
    obtain ⟨nodup, readersIff, noWriter⟩ := tracks
    refine ⟨List.nodup_cons.mpr ⟨?_, nodup⟩, fun j => ?_, fun j => ?_⟩
    · rw [readersIff, idle]
      exact Mode.noConfusion
    · by_cases same : j = i
      · simp [same]
      · simp [same, readersIff]
    · by_cases same : j = i
      · simp [same]
      · simp [same, noWriter]

theorem Tracks.rUnlock (tracks : Tracks mode l) (taken : l.rUnlock i = some l') :
    Tracks (Function.update mode i .none) l' := by
  cases l with
  | exclusive writer => contradiction
  | shared readers =>
    rw [RwLock.rUnlock] at taken
    split at taken
    · obtain rfl := Option.some.inj taken
      obtain ⟨nodup, readersIff, noWriter⟩ := tracks
      refine ⟨nodup.erase i, fun j => ?_, fun j => ?_⟩
      · rw [nodup.mem_erase_iff]
        by_cases same : j = i
        · simp [same]
        · simp [same, readersIff]
      · by_cases same : j = i
        · simp [same]
        · simp [same, noWriter]
    · contradiction

theorem Tracks.lock (tracks : Tracks mode l) (taken : l.lock i = some l') :
    Tracks (Function.update mode i .write) l' := by
  cases l with
  | exclusive writer => contradiction
  | shared readers =>
    cases readers with
    | cons _ _ => contradiction
    | nil =>
      obtain rfl := Option.some.inj taken
      obtain ⟨_, readersIff, noWriter⟩ := tracks
      refine ⟨by simp, fun j other => ?_⟩
      rw [Function.update_of_ne other]
      cases held : mode j with
      | none => rfl
      | read => exact absurd ((readersIff j).mpr held) List.not_mem_nil
      | write => exact absurd held (noWriter j)

theorem Tracks.unlock (tracks : Tracks mode l) (taken : l.unlock i = some l') :
    Tracks (Function.update mode i .none) l' := by
  cases l with
  | shared readers => contradiction
  | exclusive writer =>
    rw [RwLock.unlock] at taken
    split at taken
    · next same =>
      obtain rfl := Option.some.inj taken
      subst same
      obtain ⟨_, others⟩ := tracks
      have released : Function.update mode i .none = fun _ => Mode.none := by
        funext j
        by_cases same : j = i
        · simp [same]
        · simp [same, others j same]
      rw [released]
      exact tracks_free
    · contradiction

end RwLock

end Machine
