import Checkout.Proofs.Memory.History
import Checkout.Proofs.Sql.Limits
import Checkout.Sql.Script
import Mathlib.Data.List.FinRange

/-!
# Statements in silence

A database that follows an empty script takes every statement and finds nothing. A batch goes
through all its statements then, and reduces the stock of all its products in one of them
(`decrement_of_process_silent`). If there are enough products, that statement is too large for any
server (`decrement_too_large`).
-/

namespace Checkout

open Batch StoreAction

variable {ρ α : Type}

namespace Sql

open Statement

/-! ## Actions in silence -/

/-- The connection in a transaction on a database that has nothing to say. -/
def silent (sent : List Statement) : Connection Script := ⟨⟨[], sent⟩, true, false⟩

/-- With nothing said to it, the action answers `a`. It may have sent statements. -/
def InSilence (action : StoreAction (Connection Script) α) (a : α) : Prop :=
  ∀ sent, ∃ new, perform action (silent sent) = (.ok a, silent (sent ++ new))

namespace InSilence

variable {β : Type}

theorem pure (a : α) : InSilence (pure a) a := by
  intro sent
  refine ⟨[], ?_⟩
  rw [List.append_nil]
  rfl

theorem bind {x : StoreAction (Connection Script) α} {f : α → StoreAction (Connection Script) β}
    {a : α} {b : β} (hx : InSilence x a) (hf : InSilence (f a) b) : InSilence (x >>= f) b := by
  intro sent
  obtain ⟨new, hx⟩ := hx sent
  obtain ⟨more, hf⟩ := hf (sent ++ new)
  refine ⟨new ++ more, ?_⟩
  rw [perform_bind_of_ok hx, hf, List.append_assoc]

theorem query (context : String) (s : Statement) :
    InSilence (Connection.query Script.database context s) [] := by
  intro sent
  refine ⟨[s], ?_⟩
  rw [perform_query]
  rfl

theorem existingTexts (table : Table) (parts : List (List String)) :
    InSilence (existingTexts Script.database table parts) [] := by
  induction parts with
  | nil => exact .pure _
  | cons ids rest ih =>
      unfold Sql.existingTexts
      apply bind (query _ _)
      apply bind (a := [])
      · exact .pure _
      · exact ih.bind (.pure _)

theorem existingIds {kind : Kind} (table : Table) (context : String)
    (ids : List (Identifier kind)) :
    InSilence (existingIds Script.database table context ids) [] := by
  unfold Sql.existingIds
  apply bind (existingTexts _ _)
  exact .pure _

theorem sendAll (context : String) (statements : List Statement) :
    InSilence (sendAll Script.database context statements) () := by
  induction statements with
  | nil => exact .pure _
  | cons s ss ih =>
      unfold Sql.sendAll
      exact (query context s).bind ih

theorem fetchStock (ids : List ProductId) :
    InSilence ((store Script.database).fetchStock ids) [] := by
  show InSilence (if ids.isEmpty then _ else _) _
  split
  · exact .pure _
  · apply bind (query _ _)
    exact .pure _

theorem fetchOrders (ids : List OrderId) :
    InSilence ((store Script.database).fetchOrders ids) [] := by
  show InSilence (if ids.isEmpty then _ else _) _
  split
  · exact .pure _
  · apply bind (query _ _)
    exact .pure _

theorem persistedClashes (requests : List Request) :
    InSilence (persistedClashes (store Script.database) requests) [] := by
  unfold Batch.persistedClashes
  apply bind (existingIds .orders _ _)
  apply bind (existingIds .orderItems _ _)
  have hnone : (requests.filterMap fun r =>
      (clash (Std.ExtTreeSet.ofList ([] : List OrderId)) (Std.ExtTreeSet.ofList ([] : List ItemId))
        r).map (r.order, ·)) = [] := by
    apply List.filterMap_eq_nil_iff.mpr
    intro r _
    simp [clash]
  dsimp only
  rw [hnone]
  exact .pure _

theorem persist (orders : List Order) : InSilence (persist (store Script.database) orders) [] := by
  unfold Batch.persist
  apply bind (sendAll _ _)
  apply bind (sendAll _ _)
  split
  · exact .pure _
  · exact fetchOrders _

end InSilence

/-! ## A batch in silence -/

theorem perform_decrementStock_silent {ds : List Decrement} (h : ds ≠ []) (sent : List Statement) :
    perform ((store Script.database).decrementStock ds) (silent sent) =
      (.ok (), silent (sent ++ [.decrementStock ds])) := by
  show perform (sendAll _ _ (if ds.isEmpty then _ else _)) _ = _
  rw [if_neg (by simpa using h)]
  rfl

/-- A transaction in silence reduces the stock in one statement. -/
theorem perform_settle_silent {requests : List Request}
    (h : Request.products requests ≠ []) (sent : List Statement) :
    ∃ settlement before after ds, perform (settle (store Script.database) requests) (silent sent) =
        (.ok settlement, silent (sent ++ (before ++ .decrementStock ds :: after))) ∧
      ds.length = (Request.products requests).length := by
  obtain ⟨before, hclashes⟩ := InSilence.persistedClashes requests sent
  obtain ⟨more, hstock⟩ :=
    InSilence.fetchStock (Ledger.merge requests).products (sent ++ before)
  have hlength := (Resolution.length_decrements requests []).trans (Ledger.length_products requests)
  have hds : ((Ledger.merge requests).resolve []).decrements ≠ [] := by
    intro hnil
    have hzero : (Resolution.ofBatch requests []).decrements.length = 0 := congrArg _ hnil
    exact h (List.length_eq_zero_iff.mp (hlength.symm.trans hzero))
  obtain ⟨after, hpersist⟩ := InSilence.persist
    (survivingOrders ((Ledger.merge requests).resolve []) requests)
    (sent ++ before ++ more ++ [.decrementStock ((Ledger.merge requests).resolve []).decrements])
  refine ⟨⟨[], []⟩, before ++ more, after, _, ?_, hlength⟩
  unfold settle
  have hadmitted : (requests.filter fun r =>
      !([] : List (OrderId × CheckoutError)).any (·.1 = r.order)) = requests :=
    List.filter_eq_self.mpr fun _ _ => rfl
  have hrequests : ¬ requests.isEmpty := by
    intro hnil
    rw [List.isEmpty_iff.mp hnil] at h
    exact h rfl
  rw [perform_bind_of_ok hclashes, hadmitted]
  dsimp only
  rw [if_neg hrequests, perform_bind_of_ok hstock,
    perform_bind_of_ok (perform_decrementStock_silent hds _), perform_bind_of_ok hpersist]
  simp

/-- So a batch reduces the stock in one statement, with three parameters for each product. -/
theorem decrement_of_process_silent {batch : List (Pending ρ)} (h : (screen ∅ ∅ batch).2 ≠ []) :
    ∃ s ∈ ((process (store Script.database) batch).run (.new ⟨[], []⟩)).2.remembered.sent,
      s.parameters.length =
        3 * (Request.products ((screen ∅ ∅ batch).2.map (·.request))).length := by
  obtain ⟨p, ps, hkept⟩ := List.exists_cons_of_ne_nil h
  have hproducts : Request.products ((screen ∅ ∅ batch).2.map (·.request)) ≠ [] := by
    obtain ⟨i, is, hitems⟩ := List.exists_cons_of_ne_nil p.request.items_ne_nil
    refine List.ne_nil_of_mem (a := i.product) ?_
    unfold Request.products
    simp [hkept, hitems]
  obtain ⟨settlement, before, after, ds, hsettle, hlength⟩ :=
    perform_settle_silent hproducts [.start]
  refine ⟨.decrementStock ds, ?_, ?_⟩
  · have hstart : perform (store Script.database).start (.new ⟨[], []⟩) =
        (.ok (), silent [.start]) := rfl
    have hcommit : ∀ sent, perform (store Script.database).commit (silent sent) =
        (.ok (), ⟨⟨[], sent ++ [.commit]⟩, false, false⟩) := fun _ => rfl
    rw [process_of_kept _ _ h]
    dsimp only
    rw [perform_transact, hstart]
    dsimp only
    rw [hsettle]
    dsimp only
    rw [hcommit]
    simp
  · rw [length_parameters_decrementStock, hlength]

end Sql

/-! ## A batch that is too large

A request wants one piece each of many products. -/

namespace Sample

variable {n : Nat} (hn : n < Uuid.bound)

/-- The identifier of a number. -/
def crowdId {kind : Kind} (k : Fin n) : Identifier kind := ⟨⟨k, Nat.lt_trans k.isLt hn⟩⟩

theorem crowdId_injective {kind : Kind} :
    Function.Injective (crowdId hn : Fin n → Identifier kind) := by
  intro a b h
  exact Fin.ext (congrArg (·.uuid.value) h)

def crowdItem (k : Fin n) : Item := { single with id := crowdId hn k, product := crowdId hn k }

theorem total_crowd (ks : List (Fin n)) : Item.total (ks.map (crowdItem hn)) = .ok .zero := by
  unfold Item.total
  induction ks with
  | nil => rfl
  | cons k ks ih =>
      rw [List.map_cons, List.foldlM_cons]
      exact ih

def crowd (hpos : 0 < n) : Request where
  header := first.header
  items := (List.finRange n).map (crowdItem hn)
  trace := .zero
  items_ne_nil := by simpa using Nat.ne_of_gt hpos
  order_eq := by
    intro i hi
    obtain ⟨k, -, rfl⟩ := List.mem_map.mp hi
    rfl
  ids_nodup := by
    rw [List.map_map]
    exact (List.nodup_finRange n).map (crowdId_injective hn)
  total_isOk := by
    rw [total_crowd]
    rfl

theorem length_products_crowd (hpos : 0 < n) :
    (Request.products [crowd hn hpos]).length = n := by
  have hproducts : (crowd hn hpos).items.map (·.product) = (List.finRange n).map (crowdId hn) := by
    show List.map _ (List.map _ _) = _
    rw [List.map_map]
    rfl
  unfold Request.products
  rw [List.flatMap_cons, List.flatMap_nil, List.append_nil, hproducts,
    List.Nodup.dedup ((List.nodup_finRange n).map (crowdId_injective hn)), List.length_map,
    List.length_finRange]

end Sample

theorem screen_singleton (p : Pending ρ) : (screen ∅ ∅ [p]).2 = [p] := by
  rw [screen_cons_of_none (by simp [clash])]
  rfl

theorem decrement_of_crowd {n : Nat} (hn : n < Uuid.bound) (hpos : 0 < n) (responder : ρ) :
    ∃ s ∈ ((process (Sql.store Sql.Script.database) [⟨Sample.crowd hn hpos, responder⟩]).run
        (.new ⟨[], []⟩)).2.remembered.sent,
      s.parameters.length = 3 * n := by
  have hkept := screen_singleton (⟨Sample.crowd hn hpos, responder⟩ : Pending ρ)
  obtain ⟨s, hs, hlength⟩ := Sql.decrement_of_process_silent (hkept ▸ List.cons_ne_nil _ _)
  rw [hkept, List.map_singleton, Sample.length_products_crowd] at hlength
  exact ⟨s, hs, hlength⟩

/-- **A request for many products makes a statement with too many parameters** for a server, which
takes 65535 of them. -/
theorem decrement_too_large :
    ∃ s ∈ ((process (Sql.store Sql.Script.database)
        [⟨Sample.crowd (n := 21846) (by decide) (by decide), 0⟩]).run
          (.new ⟨[], []⟩)).2.remembered.sent,
      65535 < s.parameters.length := by
  obtain ⟨s, hs, hlength⟩ := decrement_of_crowd (n := 21846) (by decide) (by decide) 0
  refine ⟨s, hs, ?_⟩
  rw [hlength]
  decide

end Checkout
