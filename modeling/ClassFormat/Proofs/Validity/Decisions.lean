import Mathlib
import ClassFormat.Walk

namespace ClassFormat

/-!
# What walks decide

A walk decides a rule to a depth when it passes exactly where the rule holds and
that many levels are left, and when it always ends at the level where it started,
whether it passes or not.  What a walk decides follows from its parts.

* `Walk.Decides.andThen` says that two walks one after the other decide both rules.
* `Walk.Decides.nested` says that a walk one level down needs one level more.
-/

namespace Walk

/-- The walk ends where it starts, and it passes where the rule holds and so many
levels are left. -/
structure Decides (walk : Walk Unit) (rule : Prop) (depth : Nat) : Prop where
  level_eq : ∀ level, (walk.runAt level).2 = level
  passes_iff : ∀ level,
    (walk.runAt level).1 = .ok () ↔ rule ∧ depth ≤ maxNesting - level

/-- The same rule and the same depth may be told in other words. -/
theorem Decides.congr {walk : Walk Unit} {rule other : Prop} {depth depth' : Nat}
    (hDecides : walk.Decides rule depth) (hRule : rule ↔ other)
    (hDepth : depth = depth') : walk.Decides other depth' where
  level_eq := hDecides.level_eq
  passes_iff := by
    intro level
    rw [hDecides.passes_iff level, hRule, hDepth]

theorem Decides.pure : (pure () : Walk Unit).Decides True 0 where
  level_eq := fun _ => rfl
  passes_iff := fun _ => by simp [runAt_pure]

/-- A check that does not walk decides what it checks. -/
theorem Decides.check {check : Verdict} {rule : Prop}
    (hCheck : check = .ok () ↔ rule) : (liftM check : Walk Unit).Decides rule 0 where
  level_eq := fun _ => rfl
  passes_iff := fun level => by simp [runAt_liftM, hCheck]

/-- Walks one after the other decide both rules. -/
theorem Decides.andThen {walk next : Walk Unit} {rule other : Prop}
    {depth depth' : Nat} (hWalk : walk.Decides rule depth)
    (hNext : next.Decides other depth') :
    (walk >>= fun _ => next).Decides (rule ∧ other) (max depth depth') where
  level_eq := by
    intro level
    have hLevel := hWalk.level_eq level
    rw [runAt_bind]
    rcases hRun : walk.runAt level with ⟨_ | _, reached⟩
    · rw [hRun] at hLevel
      exact hLevel
    · rw [hRun] at hLevel
      rw [show reached = level from hLevel]
      exact hNext.level_eq level
  passes_iff := by
    intro level
    have hLevel := hWalk.level_eq level
    have hFirst := hWalk.passes_iff level
    have hSecond := hNext.passes_iff level
    rw [runAt_bind]
    rcases hRun : walk.runAt level with ⟨_ | _, reached⟩
    -- The first walk fails, so its rule or its depth does not hold.
    · rw [hRun] at hFirst
      simp only [reduceCtorEq, false_iff] at hFirst ⊢
      intro hBoth
      exact hFirst ⟨hBoth.1.1, (max_le_iff.mp hBoth.2).1⟩
    · rw [hRun] at hLevel hFirst
      rw [show reached = level from hLevel]
      obtain ⟨hRule, hDepth⟩ := hFirst.mp rfl
      rw [hSecond, max_le_iff]
      simp only [hRule, hDepth, true_and]

/-- A lookup, and a walk that is started with what is found. -/
theorem Decides.lookup {α : Type} {lookup : Except Fault α} {next : α → Walk Unit}
    {found rule : Prop} {depth : Nat} (hLookup : (∃ a, lookup = .ok a) ↔ found)
    (hNext : ∀ a, (next a).Decides rule depth) :
    ((liftM lookup : Walk α) >>= next).Decides (found ∧ rule) depth where
  level_eq := by
    intro level
    rw [runAt_bind, runAt_liftM]
    cases lookup with
    | error fault => rfl
    | ok a => exact (hNext a).level_eq level
  passes_iff := by
    intro level
    rw [runAt_bind, runAt_liftM, ← hLookup]
    cases lookup with
    | error fault => simp
    | ok a => simpa using (hNext a).passes_iff level

/-- A walk one level down needs one level more. -/
theorem Decides.nested {walk : Walk Unit} {rule : Prop} {depth : Nat}
    (hWalk : walk.Decides rule depth) : (nested walk).Decides rule (depth + 1) where
  level_eq := by
    intro level
    rw [runAt_nested]
    split <;> rfl
  passes_iff := by
    intro level
    rw [runAt_nested]
    split
    · next hDeep =>
        simp only [reduceCtorEq, false_iff]
        intro hRoom
        omega
    · next hRoom =>
        rw [hWalk.passes_iff]
        -- One level further down, one level less is left.
        have hLevels : depth ≤ maxNesting - (level + 1) ↔
            depth + 1 ≤ maxNesting - level := by omega
        rw [hLevels]

/-- A walk over a list decides the rules of all items. -/
theorem Decides.each {α : Type} {walk : α → Walk Unit} {rule : α → Prop}
    {depth : α → Nat} (hItem : ∀ item, (walk item).Decides (rule item) (depth item))
    (items : List α) :
    (each walk items).Decides (∀ item ∈ items, rule item)
      ((items.map depth).foldr max 0) := by
  induction items with
  | nil => exact Decides.pure.congr (by simp) rfl
  | cons item rest ih => exact ((hItem item).andThen ih).congr (by simp) rfl

end Walk

end ClassFormat
