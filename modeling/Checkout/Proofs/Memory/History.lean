import Checkout.Proofs.Batch.Settlement

/-!
# The history of a store in memory

What happens to a store in memory comes one after the other: stock is set, operations are told to
fail, failures are cleared, and batches are processed. `Memory.run` follows such a history, and
`Memory.Reachable` are the stores that one can lead to from a new store. Their contents are sound
(`Reachable.sound`), because all that a batch can do to sound contents is a sale that fits
(`contents_processInMemory`).
-/

namespace Checkout

open Batch

/-- Something that happens to a store in memory. -/
inductive Event (ρ : Type) where
  | setStock (product : ProductId) (quantity : UInt32)
  | failOn (operation : Operation)
  | clearFailures
  | process (batch : List (Pending ρ))

namespace Memory

variable {ρ : Type} {m : Memory}

/-- What an event makes of the store. -/
def step (m : Memory) : Event ρ → Memory
  | .setStock product quantity => m.setStock product quantity
  | .failOn operation => m.failOn operation
  | .clearFailures => m.clearFailures
  | .process batch => (processInMemory batch m).2

/-- What the events make of the store, one after the other. -/
def run (m : Memory) (events : List (Event ρ)) : Memory := events.foldl step m

/-- A store that comes of a new one. -/
inductive Reachable : Memory → Prop
  | empty : Reachable empty
  | step {m : Memory} {ρ : Type} (h : Reachable m) (event : Event ρ) : Reachable (m.step event)

theorem Reachable.run (h : Reachable m) (events : List (Event ρ)) : Reachable (m.run events) := by
  induction events generalizing m with
  | nil => exact h
  | cons event events ih => exact ih (h.step event)

/-- **A batch leaves the contents alone, or makes a sale that fits them.** -/
theorem contents_processInMemory (hsound : m.contents.Sound) (batch : List (Pending ρ)) :
    (processInMemory batch m).2.contents = m.contents ∨
      ∃ orders, m.contents.Fits orders ∧
        m.contents.Sale orders (processInMemory batch m).2.contents := by
  by_cases hnil : batch = []
  · subst hnil
    exact .inl rfl
  obtain ⟨settled, hsettled, -⟩ := processInMemory_settled hsound hnil
  cases hsettled with
  | failed _ hcore => exact .inl (congrArg (·.1) hcore)
  | committed hsale => exact .inr ⟨_, Contents.fits_sales_admitted (kept_separate batch), hsale⟩

theorem sound_step (hsound : m.contents.Sound) (event : Event ρ) :
    (m.step event).contents.Sound := by
  cases event with
  | setStock product quantity => exact hsound.setStock product quantity
  | failOn operation => exact hsound
  | clearFailures => exact hsound
  | process batch =>
      show (processInMemory batch m).2.contents.Sound
      rcases contents_processInMemory hsound batch with hsame | ⟨orders, hfit, hsale⟩
      · rw [hsame]
        exact hsound
      · exact hsound.sale hfit hsale

/-- **The contents of a store are always sound.** -/
theorem Reachable.sound (h : Reachable m) : m.contents.Sound := by
  induction h with
  | empty => exact .empty
  | step _ event ih => exact sound_step ih event

end Memory

/-! ## A sample

Two requests want product 1, of which there are three pieces, and one of them wants product 2 as
well, which has no stock row. The first request comes twice. -/

namespace Sample

def id {kind : Kind} (n : Fin 16) : Identifier kind := ⟨⟨n, Nat.lt_trans n.isLt (by decide)⟩⟩

def header (order : Fin 16) : Header := ⟨id order, id 0, .epoch, .epoch⟩

def first : Request where
  header := header 1
  items := [⟨id 1, id 1, id 1, .zero, 2, by decide⟩, ⟨id 2, id 1, id 2, .zero, 1, by decide⟩]
  trace := .zero
  items_ne_nil := by decide
  order_eq := by decide
  ids_nodup := by decide
  total_isOk := by decide

def second : Request where
  header := header 2
  items := [⟨id 3, id 2, id 1, .zero, 2, by decide⟩]
  trace := .zero
  items_ne_nil := by decide
  order_eq := by decide
  ids_nodup := by decide
  total_isOk := by decide

def firstProduct : ProductId := id 1

def secondProduct : ProductId := id 2

/-- A piece of product 1, for nothing. -/
def single : Item := ⟨id 5, id 1, id 1, .zero, 1, by decide⟩

def batch : List (Pending Nat) := [⟨first, 0⟩, ⟨second, 1⟩, ⟨first, 2⟩]

def store : Memory := Memory.empty.setStock (id 1) 3

theorem store_reachable : store.Reachable := .step .empty (.setStock (id 1) 3 : Event Nat)

/-- The same store, where items cannot be added. -/
def brokenStore : Memory := store.failOn .insertItems

/-- The batch is processed three times, the second time in vain. -/
def history : List (Event Nat) :=
  [.process batch, .failOn .commit, .process batch, .clearFailures, .process batch]

end Sample

end Checkout
