import JudgeSelf.Icpc.Timing

/-! # The scoreboard of a contest

A log of attempts gives every contestant a standing. A scoreboard lists the contestants of the log such that
nobody stands below a worse one. Ties may stand in any order, but every scoreboard shows the same standings
from top to bottom (`standings_unique`), and the place of a contestant is the true one up to ties (`place`).
-/

namespace Icpc

/-- What the rules read of an attempt, and the toll of a rejected one. -/
structure Rules (α γ κ : Type*) where
  contestant : α → γ
  problem : α → κ
  accepted : α → Bool
  rejected : α → Bool
  time : α → ℤ
  toll : ℤ

/-- Standings of which neither is better are the same. -/
theorem Standing.eq_of_not_better {a b : Standing} (first : ¬ a.Better b) (second : ¬ b.Better a) : a = b := by
  obtain ⟨solved, penalty⟩ := a
  obtain ⟨solved', penalty'⟩ := b
  simp only [Better, not_or, not_and, not_lt] at first second
  have sameSolved : solved = solved' := by omega
  have samePenalty : penalty = penalty' := by omega
  rw [sameSolved, samePenalty]

theorem Standing.not_better_self (a : Standing) : ¬ a.Better a := by
  simp only [Better, not_or, not_and, not_lt]
  omega

namespace Rules

variable {α γ κ : Type*} [DecidableEq γ] [DecidableEq κ] (rules : Rules α γ κ)

/-- The standing of a contestant in a log. -/
def standingOf (log : List α) (u : γ) : Standing :=
  standing rules.accepted rules.rejected rules.time rules.toll
    (problems rules.problem (log.filter fun a => rules.contestant a = u))

/-- A list of the contestants of a log in which nobody stands below a worse one. -/
structure Scoreboard (log : List α) (ranking : List γ) : Prop where
  once : ranking.Nodup
  contestants : ∀ u, u ∈ ranking ↔ ∃ a ∈ log, rules.contestant a = u
  ordered : ranking.Pairwise fun u v => ¬ (rules.standingOf log v).Better (rules.standingOf log u)

variable {rules} {log : List α} {ranking other : List γ}

/-- From top to bottom all scoreboards of a log show the same standings. -/
theorem Scoreboard.standings_unique (first : rules.Scoreboard log ranking) (second : rules.Scoreboard log other) :
    ranking.map (rules.standingOf log) = other.map (rules.standingOf log) := by
  have same : ranking.Perm other := by
    apply (List.perm_ext_iff_of_nodup first.once second.once).mpr
    intro u
    rw [first.contestants, second.contestants]
  have sorted {list : List γ} (board : rules.Scoreboard log list) :
      (list.map (rules.standingOf log)).Pairwise fun a b => ¬ b.Better a :=
    List.pairwise_map.mpr board.ordered
  apply List.Perm.eq_of_pairwise ?_ (sorted first) (sorted second) (same.map _)
  intro a b _ _ above below
  exact Standing.eq_of_not_better below above

/-- A place lies behind all better contestants, and ahead of all worse ones. -/
theorem Scoreboard.place (board : rules.Scoreboard log ranking) {i : ℕ} {u : γ} (stands : ranking[i]? = some u) :
    ranking.countP (fun v => (rules.standingOf log v).Better (rules.standingOf log u)) ≤ i ∧
      i < ranking.countP fun v => ¬ (rules.standingOf log u).Better (rules.standingOf log v) := by
  obtain ⟨inside, rfl⟩ := List.getElem?_eq_some_iff.mp stands
  have split : ranking.take i ++ ranking[i] :: ranking.drop (i + 1) = ranking := by
    rw [List.getElem_cons_drop, List.take_append_drop]
  have ordered := board.ordered
  rw [← split, List.pairwise_append, List.pairwise_cons] at ordered
  obtain ⟨-, ⟨below, -⟩, above⟩ := ordered
  have count (p : γ → Bool) : ranking.countP p =
      (ranking.take i).countP p + ((ranking.drop (i + 1)).countP p + if p ranking[i] then 1 else 0) := by
    rw [← List.countP_cons, ← List.countP_append, split]
  have front : (ranking.take i).length = i := List.length_take_of_le (Nat.le_of_lt inside)
  constructor
  · have none : (ranking.drop (i + 1)).countP
        (fun v => (rules.standingOf log v).Better (rules.standingOf log ranking[i])) = 0 := by
      apply List.countP_eq_zero.mpr
      intro v member
      simpa using below v member
    have few : (ranking.take i).countP
        (fun v => (rules.standingOf log v).Better (rules.standingOf log ranking[i])) ≤ i :=
      List.countP_le_length.trans (Nat.le_of_eq front)
    rw [count, none, if_neg (by simpa using Standing.not_better_self _)]
    omega
  · have all : (ranking.take i).countP
        (fun v => ¬ (rules.standingOf log ranking[i]).Better (rules.standingOf log v)) = i := by
      rw [List.countP_eq_length.mpr, front]
      intro v member
      simpa using above v member _ List.mem_cons_self
    rw [count, all, if_pos (by simpa using Standing.not_better_self _)]
    omega

end Rules

end Icpc
