import Checkout.Proofs.Decimal.Money
import Checkout.Proofs.Http.Body
import Checkout.Proofs.Memory.History
import Checkout.Sql.Statement
import Mathlib.Data.List.Forall2

/-!
# What columns take

A table declares for each column which values it takes. The rows of orders and items that are made
of an accepted body fit the columns they are for, as long as the times of the order do: identifiers,
prices and quantities always fit (`fits_iff_of_toRequest`). Nothing is asked of the times, so a body
whose order cannot be stored may be accepted (`accepted_too_late`).
-/

namespace Checkout

/-- The date and the time of day, read as one number. -/
def Timestamp.reading (t : Timestamp) : Int :=
  ((((t.date.year * 100 + t.date.month) * 100 + t.date.day) * 100 + t.hour) * 100 + t.minute) * 100 +
    t.second

/-- Columns take times from the first second of 1970 that is not the epoch up to the last second
that is counted with 31 bits. -/
def Timestamp.FitsColumn (t : Timestamp) : Prop :=
  19700101000001 ≤ t.reading ∧ t.reading ≤ 20380119031407

namespace Sql

/-! ## The schema -/

/-- Which values a column takes. -/
inductive Domain where
  | char (length : Nat)
  | decimal (digits places : Nat)
  | intUnsigned
  | timestamp (places : Nat)
  deriving DecidableEq

namespace Domain

/-- The domain as it is declared. -/
def text : Domain → String
  | char length => s!"CHAR({length})"
  | decimal digits places => s!"DECIMAL({digits}, {places})"
  | intUnsigned => "INT UNSIGNED"
  | timestamp places => s!"TIMESTAMP({places})"

/-- The value can be stored without loss. Of times this means the second; what is given to the
column has no more places than microseconds. -/
def Takes : Domain → Parameter → Prop
  | char length, .text s => s.length ≤ length
  | decimal digits places, .decimal a =>
    ∃ n : Int, n.natAbs < tenTo digits ∧ a.signed * tenTo places = n * tenTo a.scale
  | intUnsigned, .number n => n.toNat < twoTo 32
  | timestamp _, .time t => t.FitsColumn
  | _, _ => False

/-- The domains that the columns of inserted rows have. -/
def all : List Domain := [char 36, decimal 12 2, intUnsigned, timestamp 6]

end Domain

namespace Table

/-- What a table declares of a column. -/
def domain? (t : Table) (column : String) : Option Domain :=
  Domain.all.find? fun d => t.clauses.any fun clause =>
    s!"{column} {d.text} NOT NULL".toList.isPrefixOf clause.toList

/-- The columns that are given when a row is inserted. -/
def insertedColumns : Table → List String
  | products => []
  | orders => ["id", "user_id", "created_at", "updated_at"]
  | orderItems => ["id", "order_id", "product_id", "price", "quantity"]

/-- How a statement that inserts rows begins. -/
def insertText (t : Table) : String :=
  s!"INSERT INTO {t.name} (" ++ ", ".intercalate t.insertedColumns ++ ") VALUES "

/-- The values of a row fit the columns they are inserted into. -/
def Fits (t : Table) (row : List Parameter) : Prop :=
  List.Forall₂ (fun column value => ∃ d, t.domain? column = some d ∧ d.Takes value)
    t.insertedColumns row

end Table

namespace Statement

/-- The columns are those that the statements name, in their sequence. -/
theorem chars_insertOrders (orders : List Order) :
    (insertOrders orders).chars = Table.orders.insertText.toList ++
      rows orders.length Table.orders.insertedColumns.length := by
  have htext : Table.orders.insertText =
      "INSERT INTO orders (id, user_id, created_at, updated_at) VALUES " := by decide +kernel
  rw [htext]
  rfl

theorem chars_insertItems (items : List Item) :
    (insertItems items).chars = Table.orderItems.insertText.toList ++
      rows items.length Table.orderItems.insertedColumns.length := by
  have htext : Table.orderItems.insertText =
      "INSERT INTO order_items (id, order_id, product_id, price, quantity) VALUES " := by
    decide +kernel
  rw [htext]
  rfl

end Statement

/-- All rows that an order is stored in fit their columns. -/
structure Storable (o : Order) : Prop where
  header : Table.orders.Fits (Statement.orderParameters o)
  items : ∀ i ∈ o.items, Table.orderItems.Fits (Statement.itemParameters i)

/-! ## What always fits -/

theorem domains_orders : Table.orders.insertedColumns.map Table.orders.domain? =
    [some (.char 36), some (.char 36), some (.timestamp 6), some (.timestamp 6)] := by
  decide +kernel

theorem domains_orderItems : Table.orderItems.insertedColumns.map Table.orderItems.domain? =
    [some (.char 36), some (.char 36), some (.char 36), some (.decimal 12 2),
      some .intUnsigned] := by
  decide +kernel

theorem fits_iff {t : Table} {row : List Parameter} :
    t.Fits row ↔ List.Forall₂ (fun domain value => ∃ d, domain = some d ∧ d.Takes value)
      (t.insertedColumns.map t.domain?) row := by
  rw [List.forall₂_map_left_iff]
  rfl

theorem length_toString (u : Uuid) : u.toString.length = 36 := by
  unfold Uuid.toString Uuid.hyphenate
  rw [String.length_ofList]
  have hlength : u.hexDigits.length = 32 := Text.length_fixed 16 32 u.value
  simp only [List.length_append, List.length_cons, List.length_take, List.length_drop, hlength]
  rfl

theorem takes_ofId {kind : Kind} (id : Identifier kind) :
    (Domain.char 36).Takes (Statement.ofId id) := (length_toString id.uuid).le

theorem takes_price {a : Decimal} {price : Money} (h : Money.new a = .ok price) :
    (Domain.decimal 12 2).Takes (.decimal price.amount) := by
  obtain ⟨cents, hcents, hlt⟩ := Money.exists_new_iff.mp ⟨price, h⟩
  rw [Money.amount_of_new h]
  exact ⟨cents, by simpa using hlt, hcents⟩

theorem fits_item {i : Item} {a : Decimal} (h : Money.new a = .ok i.price) :
    Table.orderItems.Fits (Statement.itemParameters i) := by
  rw [fits_iff, domains_orderItems]
  refine .cons ⟨_, rfl, takes_ofId i.id⟩ (.cons ⟨_, rfl, takes_ofId i.order⟩
    (.cons ⟨_, rfl, takes_ofId i.product⟩ (.cons ⟨_, rfl, takes_price h⟩
      (.cons ⟨_, rfl, ?_⟩ .nil))))
  exact i.quantity.toNat_lt

theorem fits_header_iff {o : Order} : Table.orders.Fits (Statement.orderParameters o) ↔
    o.createdAt.FitsColumn ∧ o.updatedAt.FitsColumn := by
  rw [fits_iff, domains_orders]
  constructor
  · rintro (_ | ⟨-, _ | ⟨-, _ | ⟨⟨d, hd, hcreated⟩, _ | ⟨⟨d', hd', hupdated⟩, -⟩⟩⟩⟩)
    cases hd
    cases hd'
    exact ⟨hcreated, hupdated⟩
  · rintro ⟨hcreated, hupdated⟩
    exact .cons ⟨_, rfl, takes_ofId o.id⟩ (.cons ⟨_, rfl, takes_ofId o.user⟩
      (.cons ⟨_, rfl, hcreated⟩ (.cons ⟨_, rfl, hupdated⟩ .nil)))

/-! ## What bodies come to -/

variable {b : Body} {user : UserId} {trace : Uuid} {supply : Body.Supply} {r : Request}
  {items : List Item}

/-- **An order made of an accepted body can be stored if its times can**, and only then. -/
theorem storable_iff_of_toRequest (h : b.toRequest user trace supply = .ok r)
    (hitems : items.Sublist r.items) :
    Storable (r.toOrder items) ↔
      (b.header user supply).createdAt.FitsColumn ∧ (b.header user supply).updatedAt.FitsColumn := by
  obtain ⟨hheader, hprices⟩ := Body.of_toRequest h
  have hrows : ∀ i ∈ items, Table.orderItems.Fits (Statement.itemParameters i) := by
    intro i hi
    obtain ⟨body, -, hprice⟩ := hprices i (hitems.subset hi)
    exact fits_item hprice
  have hcreated : (r.toOrder items).createdAt = (b.header user supply).createdAt :=
    congrArg Header.createdAt hheader
  have hupdated : (r.toOrder items).updatedAt = (b.header user supply).updatedAt :=
    congrArg Header.updatedAt hheader
  rw [← hcreated, ← hupdated, ← fits_header_iff]
  exact ⟨Storable.header, fun hfits => ⟨hfits, hrows⟩⟩

end Sql

/-! An order made in one year or another, of one item whose price is nothing. -/

namespace Sample

def supply : Body.Supply := ⟨first.order, fun _ => single.id, .epoch⟩

/-- The beginning of the year. -/
def newYear (year : Int) (h : yearRange year) : Timestamp :=
  { Timestamp.epoch with
    date := ⟨year, 1, 1, h, Timestamp.epoch.date.day_pos, by simp [daysInMonth]⟩ }

/-- A body for an order of the first day of the year. -/
def bodyOf (year : Int) (h : yearRange year) : Body where
  id := none
  user := none
  items := [⟨none, .zero, .zero, 1⟩]
  createdAt := some (newYear year h)
  updatedAt := none

end Sample

namespace Sql

theorem storable_iff_of_toRequest_sample :
    ∃ r, (Sample.bodyOf 2024 (by decide)).toRequest (Sample.id 0) .zero Sample.supply = .ok r ∧
      Storable (r.toOrder r.items) := by
  have htimes : ((Sample.bodyOf 2024 (by decide)).header (Sample.id 0)
      Sample.supply).createdAt.FitsColumn ∧
      ((Sample.bodyOf 2024 (by decide)).header (Sample.id 0) Sample.supply).updatedAt.FitsColumn := by
    unfold Timestamp.FitsColumn
    decide
  obtain ⟨r, haccepted⟩ : ∃ r, (Sample.bodyOf 2024 (by decide)).toRequest (Sample.id 0) .zero
      Sample.supply = .ok r := ⟨_, rfl⟩
  exact ⟨r, haccepted, (storable_iff_of_toRequest haccepted (.refl _)).mpr htimes⟩

/-- **A body may be accepted although its order cannot be stored.** -/
theorem accepted_too_late :
    ∃ r, (Sample.bodyOf 2100 (by decide)).toRequest (Sample.id 0) .zero Sample.supply = .ok r ∧
      ¬ Storable (r.toOrder r.items) := by
  refine ⟨_, rfl, fun h => ?_⟩
  obtain ⟨⟨-, hlate⟩, -⟩ := fits_header_iff.mp h.header
  revert hlate
  decide

end Sql

end Checkout
