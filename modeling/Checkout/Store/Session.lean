import Checkout.Store.Memory

/-!
# Transactions side by side

Several transactions may be open on a store in memory at the same time. Each has a name and works on
its own copy of the contents; what is counted and which operations fail is common to all.
-/

namespace Checkout.Memory

/-- A store in memory and the transactions open on it, by name, each with its copy. -/
structure Sessions where
  memory : Memory
  transactions : List (String × Contents)

namespace Sessions

/-- A new store without transactions. -/
def empty : Sessions := ⟨Memory.empty, []⟩

/-- The transactions of all other names. -/
def others (s : Sessions) (name : String) : List (String × Contents) :=
  s.transactions.filter (·.1 ≠ name)

/-- The copy that the transaction of a name works on, if it is open. -/
def working? (s : Sessions) (name : String) : Option Contents :=
  (s.transactions.find? (·.1 = name)).map (·.2)

/-- Opens a transaction. One of the same name is forgotten, unless the new one cannot be opened. -/
def start (s : Sessions) (name : String) : Except StoreError Unit × Sessions :=
  match store.start.run ⟨s.memory, s.memory.contents⟩ with
  | (.ok _, session) => (.ok (), ⟨session.memory, (name, session.working) :: s.others name⟩)
  | (.error e, session) => (.error e, { s with memory := session.memory })

/-- Does something in an open transaction. -/
def within? {α : Type} (s : Sessions) (name : String) (action : StoreAction Session α) :
    Option (Except StoreError α × Sessions) :=
  (s.working? name).map fun working =>
    let (answer, session) := action.run ⟨s.memory, working⟩
    (answer, ⟨session.memory, (name, session.working) :: s.others name⟩)

/-- Ends an open transaction; it is gone, also if ending it fails. -/
def finish? {α : Type} (s : Sessions) (name : String) (action : StoreAction Session α) :
    Option (Except StoreError α × Sessions) :=
  (s.working? name).map fun working =>
    let (answer, session) := action.run ⟨s.memory, working⟩
    (answer, ⟨session.memory, s.others name⟩)

end Sessions

end Checkout.Memory
