import Checkout.Proofs.Batch.Sales
import Checkout.Proofs.Sql.Connection
import Mathlib.Data.List.Dedup
import Mathlib.Data.List.Perm.Subperm

/-!
# How many parameters statements have

A server takes a statement only if it has not too many parameters. Four statements of a batch are
cut up where they get long, and have never more than five parameters in each of a thousand rows.
Three are not: they have a parameter for each request, and one or three for each product
(`parameters_le_of_process`).
-/

namespace Checkout

open Batch StoreAction

/-- The products that the requests ask for, each of them once. -/
def Request.products (requests : List Request) : List ProductId :=
  (requests.flatMap (·.items.map (·.product))).dedup

namespace Ledger

variable {requests requests' : List Request}

theorem mem_products_merge {p : ProductId} :
    p ∈ (merge requests).products ↔ p ∈ Request.products requests := by
  have hitems := Arrival.map_item_ofRequests 0 requests
  have hmem := (merge_collects requests).mem_products p
  unfold Arrival.ofBatch at hmem
  rw [show (fun a : Arrival => a.item.product) = Item.product ∘ Arrival.item from rfl,
    ← List.map_map, hitems] at hmem
  unfold products Request.products
  rw [hmem, List.mem_dedup, List.map_flatMap]

/-- The ledger of some of the requests has no product that is not asked for. -/
theorem length_products_le (h : requests'.Sublist requests) :
    (merge requests').products.length ≤ (Request.products requests).length := by
  have hnodup : (merge requests').products.Nodup :=
    (merge_collects requests').ascending.products_nodup
  refine (List.Nodup.subperm hnodup fun p hp => ?_).length_le
  have hp' := mem_products_merge.mp hp
  unfold Request.products at hp' ⊢
  rw [List.mem_dedup] at hp' ⊢
  obtain ⟨r, hr, hpr⟩ := List.mem_flatMap.mp hp'
  exact List.mem_flatMap.mpr ⟨r, h.subset hr, hpr⟩

theorem length_products (requests : List Request) :
    (merge requests).products.length = (Request.products requests).length := by
  have hnodup : (merge requests).products.Nodup :=
    (merge_collects requests).ascending.products_nodup
  have hmem : ∀ p, p ∈ (merge requests).products ↔ p ∈ Request.products requests :=
    fun _ => mem_products_merge
  exact ((List.perm_ext_iff_of_nodup hnodup (List.nodup_dedup _)).mpr hmem).length_eq

end Ledger

theorem Resolution.length_decrements (requests : List Request) (stock : List StockRow) :
    (Resolution.ofBatch requests stock).decrements.length =
      (Ledger.merge requests).products.length := by
  rw [← map_product_demands requests stock]
  unfold decrements
  rw [List.length_map, List.length_map]

variable {π ρ α : Type}

namespace Sql

/-! ## The parameters of single statements -/

theorem length_le_of_mem_chunks {l part : List α} (h : part ∈ chunks l) :
    part.length ≤ rowsPerStatement := by
  fun_induction chunks l with
  | case1 => cases h
  | case2 a as ih =>
      rcases List.mem_cons.mp h with rfl | h
      · exact List.length_take_le _ _
      · exact ih h

/-- Rows of `k` parameters each. -/
theorem length_flatMap_rows {f : α → List Parameter} {k : Nat} (l : List α)
    (h : ∀ a, (f a).length = k) : (l.flatMap f).length = k * l.length := by
  simp [List.length_flatMap, h, Nat.mul_comm]

namespace Statement

theorem length_parameters_selectIds (table : Table) (ids : List String) :
    (selectIds table ids).parameters.length = ids.length := List.length_map _

theorem length_parameters_selectStock (products : List ProductId) :
    (selectStock products).parameters.length = products.length := List.length_map _

theorem length_parameters_decrementStock (ds : List Decrement) :
    (decrementStock ds).parameters.length = 3 * ds.length := by
  show (ds.flatMap _ ++ ds.map _).length = _
  rw [List.length_append, length_flatMap_rows (k := 2) ds fun _ => rfl, List.length_map]
  omega

theorem length_parameters_insertOrders (orders : List Order) :
    (insertOrders orders).parameters.length = 4 * orders.length :=
  length_flatMap_rows orders fun _ => rfl

theorem length_parameters_insertItems (items : List Item) :
    (insertItems items).parameters.length = 5 * items.length :=
  length_flatMap_rows items fun _ => rfl

theorem length_parameters_selectOrders (orders : List OrderId) :
    (selectOrders orders).parameters.length = orders.length := List.length_map _

end Statement

open Statement

/-! ## What the actions of the store send -/

variable {allowed : Statement → Prop} (db : Database π)

theorem existingTexts_sends {table : Table} {parts : List (List String)}
    (h : ∀ ids ∈ parts, allowed (.selectIds table ids)) :
    Sends allowed (existingTexts db.recorded table parts) (existingTexts db table parts) := by
  induction parts with
  | nil => exact .pure _
  | cons ids rest ih =>
      unfold existingTexts
      apply Sends.bind (.query db _ (h ids List.mem_cons_self))
      intro cells
      apply Sends.bind (.answer _)
      intro found
      apply Sends.bind (ih fun ids hids => h ids (List.mem_cons_of_mem _ hids))
      intro more
      exact .pure _

theorem existingIds_sends {kind : Kind} {table : Table} (context : String)
    {ids : List (Identifier kind)}
    (h : ∀ part ∈ chunks (ids.map toString), allowed (.selectIds table part)) :
    Sends allowed (existingIds db.recorded table context ids) (existingIds db table context ids) := by
  unfold existingIds
  apply Sends.bind (existingTexts_sends db h)
  intro texts
  exact .answer _

theorem sendAll_sends (context : String) {statements : List Statement}
    (h : ∀ s ∈ statements, allowed s) :
    Sends allowed (sendAll db.recorded context statements) (sendAll db context statements) := by
  induction statements with
  | nil => exact .pure _
  | cons s ss ih =>
      unfold sendAll
      apply Sends.bind (.query db _ (h s List.mem_cons_self))
      intro rows
      exact ih fun s hs => h s (List.mem_cons_of_mem _ hs)

theorem fetchStock_sends {ids : List ProductId} (h : allowed (.selectStock ids)) :
    Sends allowed ((store db.recorded).fetchStock ids) ((store db).fetchStock ids) := by
  show Sends allowed (if ids.isEmpty then _ else _) (if ids.isEmpty then _ else _)
  split
  · exact .pure _
  · apply Sends.bind (.query db _ h)
    intro rows
    exact .answer _

theorem fetchOrders_sends {ids : List OrderId} (h : allowed (.selectOrders ids)) :
    Sends allowed ((store db.recorded).fetchOrders ids) ((store db).fetchOrders ids) := by
  show Sends allowed (if ids.isEmpty then _ else _) (if ids.isEmpty then _ else _)
  split
  · exact .pure _
  · apply Sends.bind (.query db _ h)
    intro rows
    exact .answer _

/-! ## What a batch sends -/

/-- The statement has at most so many parameters. -/
def Within (n : Nat) (s : Statement) : Prop := s.parameters.length ≤ n

variable {n : Nat} {requests : List Request}

theorem persistedClashes_sends (hrows : 5 * rowsPerStatement ≤ n) (requests : List Request) :
    Sends (Within n) (persistedClashes (store db.recorded) requests)
      (persistedClashes (store db) requests) := by
  have hpart (table : Table) (l : List String) :
      ∀ part ∈ chunks l, Within n (.selectIds table part) := by
    intro part hpart
    have hlength := length_le_of_mem_chunks hpart
    unfold Within
    rw [length_parameters_selectIds]
    omega
  unfold persistedClashes
  apply Sends.bind (existingIds_sends db _ (hpart _ _))
  intro orders
  apply Sends.bind (existingIds_sends db _ (hpart _ _))
  intro items
  exact .pure _

theorem persist_sends (hrows : 5 * rowsPerStatement ≤ n) {orders : List Order}
    (horders : orders.length ≤ n) :
    Sends (Within n) (persist (store db.recorded) orders) (persist (store db) orders) := by
  unfold persist
  apply Sends.bind
  · apply sendAll_sends
    intro s hs
    obtain ⟨part, hpart, rfl⟩ := List.mem_map.mp hs
    have hlength := length_le_of_mem_chunks hpart
    unfold Within
    rw [length_parameters_insertOrders]
    omega
  intro _
  apply Sends.bind
  · apply sendAll_sends
    intro s hs
    obtain ⟨part, hpart, rfl⟩ := List.mem_map.mp hs
    have hlength := length_le_of_mem_chunks hpart
    unfold Within
    rw [length_parameters_insertItems]
    omega
  intro _
  split
  · exact .pure _
  · apply fetchOrders_sends
    unfold Within
    rw [length_parameters_selectOrders, List.length_map]
    exact horders

theorem settle_sends (hrows : 5 * rowsPerStatement ≤ n)
    (hproducts : 3 * (Request.products requests).length ≤ n) (hrequests : requests.length ≤ n) :
    Sends (Within n) (settle (store db.recorded) requests) (settle (store db) requests) := by
  unfold settle
  apply Sends.bind (persistedClashes_sends db hrows requests)
  intro rejected
  have hsub : (requests.filter fun r => !rejected.any (·.1 = r.order)).Sublist requests :=
    List.filter_sublist
  dsimp only
  generalize requests.filter _ = admitted at hsub ⊢
  have hledger := Ledger.length_products_le hsub
  split
  · exact .pure _
  apply Sends.bind
  · apply fetchStock_sends
    unfold Within
    rw [length_parameters_selectStock]
    omega
  intro stock
  apply Sends.bind
  · apply sendAll_sends
    intro s hs
    split at hs
    · cases hs
    · obtain rfl := List.mem_singleton.mp hs
      have hlength : ((Ledger.merge admitted).resolve stock).decrements.length = _ :=
        Resolution.length_decrements admitted stock
      unfold Within
      rw [length_parameters_decrementStock, hlength]
      omega
  intro _
  apply Sends.bind
  · apply persist_sends db hrows
    have hids :=
      (survivingOrders_ids_sublist ((Ledger.merge admitted).resolve stock) admitted).length_le
    rw [List.length_map, List.length_map] at hids
    exact hids.trans (hsub.length_le.trans hrequests)
  intro persisted
  exact .pure _

theorem transact_sends (hrows : 5 * rowsPerStatement ≤ n)
    (hproducts : 3 * (Request.products requests).length ≤ n) (hrequests : requests.length ≤ n) :
    Sends (Within n) (transact (store db.recorded) requests) (transact (store db) requests) := by
  unfold transact
  apply Sends.bind (.start db (Nat.zero_le _))
  intro _
  apply Sends.bind (.attempt (settle_sends db hrows hproducts hrequests))
  intro settled
  cases settled with
  | ok settlement =>
      apply Sends.bind (.finish db _ (Nat.zero_le _) (Nat.zero_le _))
      intro _
      exact .pure _
  | error e =>
      apply Sends.bind (.attempt (.finish db _ (Nat.zero_le _) (Nat.zero_le _)))
      intro _
      exact .throw e

/-- A batch does the same on a database that keeps a record, and sends only what is allowed. -/
theorem process_sends {batch : List (Pending ρ)} (hrows : 5 * rowsPerStatement ≤ n)
    (hproducts : 3 * (Request.products (batch.map (·.request))).length ≤ n)
    (hrequests : batch.length ≤ n) (c : Connection π) (sent : List Statement) :
    ∃ new, (process (store db.recorded) batch).run (c.recording sent) =
        (((process (store db) batch).run c).1,
          ((process (store db) batch).run c).2.recording (sent ++ new)) ∧
      ∀ s ∈ new, Within n s := by
  by_cases hnil : (screen ∅ ∅ batch).2 = []
  · refine ⟨[], ?_, fun _ hs => absurd hs List.not_mem_nil⟩
    rw [process_of_none_kept _ _ hnil, process_of_none_kept _ _ hnil, List.append_nil]
  have hkept : (screen ∅ ∅ batch).2.Sublist batch := screen_kept_sublist batch
  have hledger : (Request.products ((screen ∅ ∅ batch).2.map (·.request))).length ≤
      (Request.products (batch.map (·.request))).length := by
    rw [← Ledger.length_products]
    exact Ledger.length_products_le (hkept.map _)
  have hlength := hkept.length_le
  have hsends : Sends (Within n)
      (transact (store db.recorded) ((screen ∅ ∅ batch).2.map (·.request)))
      (transact (store db) ((screen ∅ ∅ batch).2.map (·.request))) :=
    transact_sends db hrows (by omega) (by rw [List.length_map]; omega)
  obtain ⟨new, hperform, hnew⟩ := hsends c sent
  refine ⟨new, ?_, hnew⟩
  rw [process_of_kept _ _ hnil, process_of_kept _ _ hnil]
  dsimp only
  rw [hperform]

/-- **How many parameters the statements of a batch have**: at most five for each of a thousand
rows, or three for each product, or one for each request, whatever the database answers. -/
theorem parameters_le_of_process (batch : List (Pending ρ)) (c : Connection π)
    (sent : List Statement) :
    ∃ new, (process (store db.recorded) batch).run (c.recording sent) =
        (((process (store db) batch).run c).1,
          ((process (store db) batch).run c).2.recording (sent ++ new)) ∧
      ∀ s ∈ new, s.parameters.length ≤
        max (5 * rowsPerStatement)
          (max (3 * (Request.products (batch.map (·.request))).length) batch.length) :=
  process_sends db (Nat.le_max_left _ _)
    ((Nat.le_max_left _ _).trans (Nat.le_max_right _ _))
    ((Nat.le_max_right _ _).trans (Nat.le_max_right _ _)) c sent

end Sql

end Checkout
