import Checkout.Uuid
import Std.Data.ExtTreeSet.Lemmas

/-!
# Identifiers

Orders, order items, users and products are each named by a UUID. The kind is part of the type, so
that an order's identifier is never taken for an item's.
-/

namespace Checkout

/-- What an identifier names. -/
inductive Kind where
  | order
  | item
  | user
  | product
  deriving DecidableEq

/-- The identifier of a thing of the given kind. -/
structure Identifier (kind : Kind) where
  uuid : Uuid
  deriving DecidableEq

/-- The identifier of an order. -/
abbrev OrderId := Identifier .order

/-- The identifier of an order item. -/
abbrev ItemId := Identifier .item

/-- The identifier of a user. -/
abbrev UserId := Identifier .user

/-- The identifier of a product. -/
abbrev ProductId := Identifier .product

namespace Identifier

variable {kind : Kind}

instance : Inhabited (Identifier kind) := ⟨⟨Uuid.zero⟩⟩

/-- Identifiers are ordered as their UUIDs. -/
instance : Ord (Identifier kind) := ⟨compareOn uuid⟩

instance : Std.TransOrd (Identifier kind) :=
  inferInstanceAs (Std.TransCmp (compareOn fun i : Identifier kind => i.uuid))

instance : Std.LawfulEqOrd (Identifier kind) where
  eq_of_compare {a b} h := by
    cases a; cases b
    exact congrArg _ (Std.LawfulEqOrd.eq_of_compare h)

instance : ToString (Identifier kind) := ⟨fun i => i.uuid.toString⟩

/-- Reads an identifier in any spelling of its UUID. -/
def ofString? (s : String) : Option (Identifier kind) := (Uuid.ofString? s).map (⟨·⟩)

/-- Comes strictly before. -/
def before (a b : Identifier kind) : Bool := a.uuid.value < b.uuid.value

/-- Comes before or is the same. -/
def notAfter (a b : Identifier kind) : Bool := a.uuid.value ≤ b.uuid.value

end Identifier

/-- A set of identifiers. -/
abbrev IdentifierSet (kind : Kind) := Std.ExtTreeSet (Identifier kind)

end Checkout
