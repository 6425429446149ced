import Mathlib
import ClassFormat.Proofs.Costs.Items
import ClassFormat.Proofs.Spelling.Basic

namespace ClassFormat

/-!
# Readers that pay for what they return

A reader pays for its result when it takes at least as many bytes as the result costs.
Whatever count the input announces, a list is paid for item by item.

* `Reader.Pays.bind` says how two steps pay together: what the first one takes is credit
  for the second one.
* `Reader.Pays.count`, `Reader.Pays.list16` and `Reader.Pays.list8` are about lists.
-/

namespace Reader

variable {α β : Type}

/-- The bytes that the reader takes, and `credit` bytes that were taken before, pay for
what its result costs. -/
def Pays (p : Reader α) (credit : Nat) (cost : α → Nat) : Prop :=
  ∀ ⦃bytes a rest⦄, p.run bytes = .ok (a, rest) →
    cost a + rest.length ≤ credit + bytes.length

/-! ## Steps -/

theorem Pays.pure {credit : Nat} {cost : α → Nat} {a : α} (hCost : cost a ≤ credit) :
    (pure a : Reader α).Pays credit cost := by
  intro bytes b rest hRun
  obtain ⟨rfl, rfl⟩ := run_pure_eq_ok.mp hRun
  omega

theorem Pays.fail {credit : Nat} {cost : α → Nat} {fault : Fault} :
    (fail fault : Reader α).Pays credit cost := by
  intro bytes a rest hRun
  cases hRun

/-- What the first step takes is credit for the second one, whose result is all that is
returned. -/
theorem Pays.bind {p : Reader α} {f : α → Reader β} {credit : Nat} {paid : α → Nat}
    {cost : β → Nat} (hFirst : p.Pays 0 paid)
    (hNext : ∀ a, (f a).Pays (credit + paid a) cost) : (p >>= f).Pays credit cost := by
  intro bytes b rest hRun
  obtain ⟨a, middle, hRun, hRest⟩ := run_bind_eq_ok.mp hRun
  have hPaid := hFirst hRun
  have hCost := hNext a hRest
  omega

/-- Credit that is not needed is kept. -/
theorem Pays.withCredit {p : Reader α} {cost : α → Nat} (hPays : p.Pays 0 cost)
    (credit : Nat) : p.Pays credit fun a => cost a + credit := by
  intro bytes a rest hRun
  have hPaid := hPays hRun
  show cost a + credit + rest.length ≤ credit + bytes.length
  omega

/-- What is cheaper is paid for too. -/
theorem Pays.cheaper {p : Reader α} {credit : Nat} {paid cost : α → Nat}
    (hPays : p.Pays credit paid) (hCost : ∀ a, cost a ≤ paid a) : p.Pays credit cost := by
  intro bytes a rest hRun
  have hPaid := hPays hRun
  have hLess := hCost a
  omega

theorem Pays.map {p : Reader α} {f : α → β} {credit : Nat} {paid : α → Nat}
    {cost : β → Nat} (hFirst : p.Pays credit paid) (hCost : ∀ a, cost (f a) ≤ paid a) :
    (f <$> p).Pays credit cost := by
  intro bytes b rest hRun
  obtain ⟨a, hResult, rfl⟩ := run_map_eq_ok.mp hRun
  exact hFirst.cheaper hCost hResult

theorem Pays.byte : byte.Pays 0 fun _ => 1 := by
  intro bytes a rest hRun
  rw [run_byte_eq_ok.mp hRun, List.length_cons]
  show 1 + rest.length ≤ 0 + (rest.length + 1)
  omega

theorem Pays.word16 : word16.Pays 0 fun _ => 2 :=
  .bind .byte fun _ => .bind .byte fun _ => .pure le_rfl

theorem Pays.word32 : word32.Pays 0 fun _ => 4 :=
  .bind .word16 fun _ => .bind .word16 fun _ => .pure le_rfl

theorem Pays.word64 : word64.Pays 0 fun _ => 8 :=
  .bind .word32 fun _ => .bind .word32 fun _ => .pure le_rfl

theorem Pays.take (n : Nat) : (take n).Pays 0 List.length := by
  intro bytes taken rest hRun
  obtain ⟨-, rfl⟩ := run_take_eq_ok.mp hRun
  rw [List.length_append]
  omega

theorem Pays.measure {p : Reader α} {cost : α → Nat} (hMeasured : p.Pays 0 cost) :
    (measure p).Pays 0 fun result => cost result.1 := by
  intro bytes result rest hRun
  exact hMeasured (run_measure_eq_ok.mp hRun).1

/-! ## Lists -/

theorem Pays.count {p : Reader α} {inside : α → Nat}
    (hItem : p.Pays 0 fun a => inside a + 1) (n : Nat) :
    (count p n).Pays 0 (itemsOf inside) := by
  induction n with
  | zero => exact .pure le_rfl
  | succ n ih =>
      -- The first item has paid for its place in the list.
      rw [count_succ]
      refine .bind hItem fun a => (ih.withCredit _).map fun others => ?_
      show inside a + 1 + itemsOf inside others ≤
        itemsOf inside others + (0 + (inside a + 1))
      omega

/-- The length of a list is taken too. -/
theorem Pays.list16 {p : Reader α} {inside : α → Nat}
    (hItem : p.Pays 0 fun a => inside a + 1) :
    (list16 p).Pays 0 fun items => itemsOf inside items + 2 :=
  .bind .word16 fun length => (hItem.count length.toNat).withCredit 2

theorem Pays.list8 {p : Reader α} {inside : α → Nat}
    (hItem : p.Pays 0 fun a => inside a + 1) :
    (list8 p).Pays 0 fun items => itemsOf inside items + 1 :=
  .bind .byte fun length => (hItem.count length.toNat).withCredit 1

/-- A list of things that have nothing inside. -/
theorem Pays.plain16 {p : Reader α} {n : Nat} (hItem : p.Pays 0 fun _ => n)
    (hSome : 1 ≤ n) : (Reader.list16 p).Pays 0 fun items => items.length + 2 := by
  have hPlain : p.Pays 0 fun _ => 0 + 1 := hItem.cheaper fun _ => hSome
  exact hPlain.list16.cheaper fun items => by rw [itemsOf_zero]

theorem Pays.plain8 {p : Reader α} {n : Nat} (hItem : p.Pays 0 fun _ => n)
    (hSome : 1 ≤ n) : (Reader.list8 p).Pays 0 fun items => items.length + 1 := by
  have hPlain : p.Pays 0 fun _ => 0 + 1 := hItem.cheaper fun _ => hSome
  exact hPlain.list8.cheaper fun items => by rw [itemsOf_zero]

end Reader

end ClassFormat
