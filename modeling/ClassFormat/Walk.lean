import ClassFormat.Fault

namespace ClassFormat

/-!
# Verdicts and walks

A check ends with a verdict: all is well, or the first fault that was found.  The
checks of attributes and element values walk down the tree.  A walk carries the
level it has reached and keeps it also when it stops with a fault, so that whoever
started the walk finds it where it was.

* `Verdict.each_eq_ok_iff` says when a list passes.
* `Walk.nested` goes one level down, and up again whatever happens there.
-/

/-- The outcome of a check. -/
abbrev Verdict : Type := Except Fault Unit

namespace Verdict

/-- Checks the items of a list one after another, up to the first fault. -/
def each {α : Type} (check : α → Verdict) : List α → Verdict
  | [] => .ok ()
  | item :: rest =>
      match check item with
      | .ok () => each check rest
      | .error fault => .error fault

/-- A list passes if and only if each of its items does. -/
theorem each_eq_ok_iff {α : Type} {check : α → Verdict} {items : List α} :
    each check items = .ok () ↔ ∀ item ∈ items, check item = .ok () := by
  induction items with
  | nil => simp [each]
  | cons item rest ih =>
      cases hItem : check item with
      | error fault => simp [each, hItem]
      | ok _ => simp [each, hItem, ih]

end Verdict

/-- A walk that starts at a level, ends at a level, and may stop with a
fault. -/
abbrev Walk : Type → Type := ExceptT Fault (StateM Nat)

namespace Walk

/-- What a walk that starts at a level finds, and the level where it ends. -/
def runAt {α : Type} (walk : Walk α) (level : Nat) : Except Fault α × Nat :=
  ExceptT.run walk level

/-- The walk one level down.  It does not go below `maxNesting`, and it returns
to the level where it started. -/
def nested (walk : Walk Unit) : Walk Unit :=
  ExceptT.mk fun level =>
    if maxNesting ≤ level then (.error .nestedTooDeep, level)
    else ((walk.runAt (level + 1)).1, level)

/-- Walks over the items of a list one after another, up to the first fault. -/
def each {α : Type} (walk : α → Walk Unit) : List α → Walk Unit
  | [] => pure ()
  | item :: rest => do
      walk item
      each walk rest

theorem runAt_pure {α : Type} (a : α) (level : Nat) :
    runAt (pure a) level = (.ok a, level) := rfl

theorem runAt_throw {α : Type} (fault : Fault) (level : Nat) :
    runAt (throw fault : Walk α) level = (.error fault, level) := rfl

theorem runAt_bind {α β : Type} (walk : Walk α) (next : α → Walk β)
    (level : Nat) :
    runAt (walk >>= next) level =
      match runAt walk level with
      | (.ok a, reached) => runAt (next a) reached
      | (.error fault, reached) => (.error fault, reached) := by
  change (ExceptT.bindCont next (runAt walk level).1) (runAt walk level).2 = _
  rcases runAt walk level with ⟨_ | _, _⟩ <;> rfl

/-- A check that does not walk stays where it is. -/
theorem runAt_liftM {α : Type} (check : Except Fault α) (level : Nat) :
    runAt (liftM check : Walk α) level = (check, level) := rfl

theorem runAt_nested (walk : Walk Unit) (level : Nat) :
    runAt (nested walk) level =
      if maxNesting ≤ level then (.error .nestedTooDeep, level)
      else ((runAt walk (level + 1)).1, level) := rfl

end Walk

end ClassFormat
