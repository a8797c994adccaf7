import Checkout.Sql.Statement
import Checkout.Store.Tapped

/-!
# What statements say

A statement is sent as a text with places and, apart from it, the parameters for the places. What it
says is the text with the parameters put in, which is there only if there are exactly as many
parameters as places (`count_of_fill?`). `Call.wording` spells out what each bulk call wants to say,
row by row; in an insertion the names of the columns and the values of a row are read off one list
of columns. Each statement of a bulk call says that, for any number of rows (`filled?_decrementStock`
and its siblings).
-/

namespace Checkout.Sql

open Statement

variable {α : Type}

/-! ## Texts with values in them -/

/-- A text in which values stand. -/
abbrev Wording := List (Char ⊕ Parameter)

namespace Wording

/-- A text without values. -/
def plain (s : String) : Wording := s.toList.map .inl

/-- A value alone. -/
def value (p : Parameter) : Wording := [.inr p]

/-- Parts with commas between them. -/
def listed (parts : List Wording) : Wording := (plain ", ").intercalate parts

/-- Values in parentheses, with commas between them. -/
def tuple (values : List Parameter) : Wording :=
  plain "(" ++ listed (values.map value) ++ plain ")"

theorem listed_cons (w : Wording) (ws : List Wording) :
    listed (w :: ws) = w ++ ws.flatMap (plain ", " ++ ·) := by
  induction ws generalizing w with
  | nil => simp [listed]
  | cons w' ws ih =>
      have h := ih w'
      unfold listed at h ⊢
      rw [List.intercalate_cons_cons, h, List.flatMap_cons, List.append_assoc, List.append_assoc]

end Wording

open Wording

/-- The text with the parameters in its places, if there is exactly one for each place. -/
def fill? : List Char → List Parameter → Option Wording
  | [], [] => some []
  | [], _ :: _ => none
  | c :: cs, ps =>
    if c = '?' then
      match ps with
      | [] => none
      | p :: ps => (fill? cs ps).map (.inr p :: ·)
    else (fill? cs ps).map (.inl c :: ·)

/-- A text that can be filled has as many places as there are parameters. -/
theorem count_of_fill? {cs : List Char} {ps : List Parameter} {w : Wording}
    (h : fill? cs ps = some w) : cs.count '?' = ps.length := by
  induction cs generalizing ps w with
  | nil =>
      cases ps with
      | nil => rfl
      | cons p ps => cases h
  | cons c cs ih =>
      unfold fill? at h
      split at h
      next hplace =>
        cases ps with
        | nil => cases h
        | cons p ps =>
            obtain ⟨w', hw', -⟩ := Option.map_eq_some_iff.mp h
            rw [hplace, List.count_cons_self, ih hw', List.length_cons]
      next hplace =>
        obtain ⟨w', hw', -⟩ := Option.map_eq_some_iff.mp h
        rw [List.count_cons_of_ne hplace, ih hw']

theorem fill?_append {cs cs' : List Char} {ps ps' : List Parameter} {w w' : Wording}
    (h : fill? cs ps = some w) (h' : fill? cs' ps' = some w') :
    fill? (cs ++ cs') (ps ++ ps') = some (w ++ w') := by
  induction cs generalizing ps w with
  | nil =>
      cases ps with
      | nil =>
          cases h
          exact h'
      | cons p ps => cases h
  | cons c cs ih =>
      unfold fill? at h
      rw [List.cons_append]
      unfold fill?
      split at h
      next hplace =>
        rw [if_pos hplace]
        cases ps with
        | nil => cases h
        | cons p ps =>
            obtain ⟨w₀, hw₀, rfl⟩ := Option.map_eq_some_iff.mp h
            rw [List.cons_append]
            dsimp only
            rw [ih hw₀]
            rfl
      next hplace =>
        rw [if_neg hplace]
        obtain ⟨w₀, hw₀, rfl⟩ := Option.map_eq_some_iff.mp h
        rw [ih hw₀]
        rfl

theorem fill?_plain {s : String} (h : '?' ∉ s.toList) : fill? s.toList [] = some (plain s) := by
  unfold plain
  generalize s.toList = cs at h
  induction cs with
  | nil => rfl
  | cons c cs ih =>
      unfold fill?
      rw [if_neg (List.ne_of_not_mem_cons h).symm, ih (List.not_mem_of_not_mem_cons h)]
      rfl

/-- In front of what is filled may stand a text without places, and so behind it. -/
theorem fill?_plain_append {s : String} {cs : List Char} {ps : List Parameter} {w : Wording}
    (hs : '?' ∉ s.toList) (h : fill? cs ps = some w) :
    fill? (s.toList ++ cs) ps = some (plain s ++ w) :=
  fill?_append (fill?_plain hs) h

theorem fill?_append_plain {s : String} {cs : List Char} {ps : List Parameter} {w : Wording}
    (hs : '?' ∉ s.toList) (h : fill? cs ps = some w) :
    fill? (cs ++ s.toList) ps = some (w ++ plain s) := by
  have hall := fill?_append h (fill?_plain hs)
  rwa [List.append_nil] at hall

theorem fill?_place (p : Parameter) : fill? ['?'] [p] = some (value p) := rfl

theorem fill?_flatMap {text : α → List Char} {f : α → List Parameter} {word : α → Wording}
    (h : ∀ a, fill? (text a) (f a) = some (word a)) (as : List α) :
    fill? (as.flatMap text) (as.flatMap f) = some (as.flatMap word) := by
  induction as with
  | nil => rfl
  | cons a as ih =>
      rw [List.flatMap_cons, List.flatMap_cons, List.flatMap_cons]
      exact fill?_append (h a) ih

theorem fill?_commas {text : α → List Char} {f : α → List Parameter} {word : α → Wording}
    (h : ∀ a, fill? (text a) (f a) = some (word a)) (as : List α) :
    fill? (commas (as.map text)) (as.flatMap f) = some (listed (as.map word)) := by
  cases as with
  | nil => rfl
  | cons a as =>
      have hrest := fill?_flatMap
        (fun a => fill?_plain_append (s := ", ") (by decide) (h a)) as
      rw [List.map_cons, List.map_cons, List.flatMap_cons, listed_cons, List.flatMap_map]
      show fill? (text a ++ (as.map text).flatMap ([',', ' '] ++ ·)) _ = _
      rw [List.flatMap_map]
      exact fill?_append (h a) hrest

/-- As many places as there are values. -/
theorem fill?_places {n : Nat} (values : List Parameter) (h : values.length = n) :
    fill? (places n) values = some (tuple values) := by
  subst h
  have hinner := fill?_commas (fun p => fill?_place p) values
  rw [List.flatMap_singleton', List.map_const'] at hinner
  exact fill?_append_plain (s := ")") (by decide)
    (fill?_plain_append (s := "(") (by decide) hinner)

/-- As many rows of places as there are rows, and in each as many as it has values. -/
theorem fill?_rows {f : α → List Parameter} {width : Nat}
    (h : ∀ a, (f a).length = width) (as : List α) :
    fill? (rows as.length width) (as.flatMap f) =
      some (listed (as.map fun a => tuple (f a))) := by
  have hall := fill?_commas (fun a => fill?_places (f a) (h a)) as
  rwa [List.map_const'] at hall

end Checkout.Sql

/-! ## What bulk calls want to say -/

namespace Checkout

open Sql Sql.Wording Sql.Statement

variable {α : Type}

/-- The columns of a row for the header of an order: their names, and what stands in them. -/
def Order.columns : List (String × (Order → Parameter)) :=
  [ ("id", fun o => ofId o.id), ("user_id", fun o => ofId o.user),
    ("created_at", fun o => .time o.createdAt), ("updated_at", fun o => .time o.updatedAt) ]

/-- The columns of a row for an item. -/
def Item.columns : List (String × (Item → Parameter)) :=
  [ ("id", fun i => ofId i.id), ("order_id", fun i => ofId i.order),
    ("product_id", fun i => ofId i.product), ("price", fun i => .decimal i.price.amount),
    ("quantity", fun i => .number i.quantity) ]

/-- The values of a row, in the sequence of its columns. -/
def rowOf (columns : List (String × (α → Parameter))) (a : α) : List Parameter :=
  columns.map fun column => column.2 a

namespace Sql.Wording

/-- Inserts a row for each element of a list. -/
def inserting (table : Table) (columns : List (String × (α → Parameter))) (as : List α) : Wording :=
  plain "INSERT INTO " ++ plain table.name ++ plain " (" ++
    listed (columns.map fun column => plain column.1) ++ plain ") VALUES " ++
    listed (as.map fun a => tuple (rowOf columns a))

/-- Takes from each product its own quantity, and touches no other product. -/
def decrementing (ds : List Decrement) : Wording :=
  plain "UPDATE products SET quantity = CASE id" ++
    ds.flatMap (fun d => plain " WHEN " ++ value (ofId d.product) ++ plain " THEN quantity - " ++
      value (.number d.quantity)) ++
    plain " ELSE quantity END WHERE id IN " ++ tuple (ds.map (ofId ·.product))

end Sql.Wording

namespace Call

/-- The rows of a bulk call: what it says of each element of its list. -/
def rows : Call → List (List Parameter)
  | .existingOrders ids => ids.map ([ofId ·])
  | .existingItems ids => ids.map ([ofId ·])
  | .fetchStock ids => ids.map ([ofId ·])
  | .decrementStock ds => ds.map fun d => [ofId d.product, .number d.quantity]
  | .insertOrders orders => orders.map (rowOf Order.columns)
  | .insertItems items => items.map (rowOf Item.columns)
  | .fetchOrders ids => ids.map ([ofId ·])
  | _ => []

/-- What a bulk call says of all elements of its list. -/
def wording : Call → Wording
  | .existingOrders ids => plain "SELECT id FROM orders WHERE id IN " ++ tuple (ids.map ofId)
  | .existingItems ids => plain "SELECT id FROM order_items WHERE id IN " ++ tuple (ids.map ofId)
  | .fetchStock ids =>
    plain "SELECT id, quantity FROM products WHERE id IN " ++ tuple (ids.map ofId)
  | .decrementStock ds => decrementing ds
  | .insertOrders orders => inserting .orders Order.columns orders
  | .insertItems items => inserting .orderItems Item.columns items
  | .fetchOrders ids =>
    plain "SELECT o.id, o.user_id, o.created_at, o.updated_at, " ++
      plain "i.id AS item_id, i.product_id, i.price, i.quantity FROM orders o " ++
      plain "LEFT JOIN order_items i ON i.order_id = o.id WHERE o.id IN " ++
      tuple (ids.map ofId) ++ plain " ORDER BY o.id, i.seq"
  | _ => []

end Call

/-! ## What statements say -/

namespace Sql.Statement

/-- What a statement says, if there is exactly one parameter for each of its places. -/
def filled? (s : Statement) : Option Wording := fill? s.chars s.parameters

theorem count_of_filled? {s : Statement} {w : Wording} (h : s.filled? = some w) :
    s.chars.count '?' = s.parameters.length :=
  count_of_fill? h

theorem filled?_selectIds {table : Table} {head : String} (h : '?' ∉ head.toList)
    (htext : s!"SELECT id FROM {table.name} WHERE id IN " = head) {kind : Kind}
    (ids : List (Identifier kind)) :
    (selectIds table (ids.map toString)).filled? = some (plain head ++ tuple (ids.map ofId)) := by
  show fill? (String.toList _ ++ places _) ((ids.map toString).map .text) = _
  rw [htext, List.map_map]
  exact fill?_plain_append h (fill?_places (ids.map ofId) (by rw [List.length_map, List.length_map]))

theorem filled?_selectStock (ids : List ProductId) :
    (selectStock ids).filled? = some (Call.fetchStock ids).wording :=
  fill?_plain_append (s := "SELECT id, quantity FROM products WHERE id IN ") (by decide)
    (fill?_places (ids.map ofId) (List.length_map _))

theorem filled?_selectOrders (ids : List OrderId) :
    (selectOrders ids).filled? = some (Call.fetchOrders ids).wording := by
  have hcolumns := fill?_append_plain
    (s := "i.id AS item_id, i.product_id, i.price, i.quantity FROM orders o ") (by decide)
    (fill?_plain (s := "SELECT o.id, o.user_id, o.created_at, o.updated_at, ") (by decide))
  have hjoin := fill?_append_plain
    (s := "LEFT JOIN order_items i ON i.order_id = o.id WHERE o.id IN ") (by decide) hcolumns
  have hids := fill?_append hjoin (fill?_places (ids.map ofId) (List.length_map _))
  exact fill?_append_plain (s := " ORDER BY o.id, i.seq") (by decide) hids

/-- Each product stands in front of its own quantity, and the same products once more, in the same
sequence, in the condition. -/
theorem filled?_decrementStock (ds : List Decrement) :
    (decrementStock ds).filled? = some (Call.decrementStock ds).wording := by
  have hcase (d : Decrement) :
      fill? " WHEN ? THEN quantity - ?".toList [ofId d.product, .number d.quantity] =
        some (plain " WHEN " ++ value (ofId d.product) ++ plain " THEN quantity - " ++
          value (.number d.quantity)) := rfl
  have hproducts := fill?_places (ds.map (ofId ·.product)) (List.length_map _)
  exact fill?_append
    (fill?_append_plain (s := " ELSE quantity END WHERE id IN ") (by decide)
      (fill?_plain_append (s := "UPDATE products SET quantity = CASE id") (by decide)
        (fill?_flatMap hcase ds)))
    hproducts

/-- A row of values for each element, under the names of their columns. -/
theorem filled?_insertOrders (orders : List Order) :
    (insertOrders orders).filled? = some (Call.insertOrders orders).wording :=
  fill?_plain_append
    (s := "INSERT INTO orders (id, user_id, created_at, updated_at) VALUES ") (by decide)
    (fill?_rows (f := rowOf Order.columns) (fun _ => rfl) orders)

theorem filled?_insertItems (items : List Item) :
    (insertItems items).filled? = some (Call.insertItems items).wording :=
  fill?_plain_append
    (s := "INSERT INTO order_items (id, order_id, product_id, price, quantity) VALUES ") (by decide)
    (fill?_rows (f := rowOf Item.columns) (fun _ => rfl) items)

end Sql.Statement

end Checkout
