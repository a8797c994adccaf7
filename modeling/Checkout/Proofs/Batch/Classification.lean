import Checkout.Proofs.Batch.Outcome

/-!
# What comes of each request

The outcome of every request of a batch can be told from the batch and the contents of the store
(`verdict`), without sets of what was seen, a transaction, or looking up what was stored. The batch
is scanned once, and a request is turned away if it repeats an identifier of one that is kept before
it. Of those that are kept the store turns away the ones that exist already. The demand of the rest
is resolved against the stock, and each gets what is left of it. `process_classifies` says that a
batch on the store in memory delivers just these outcomes.
-/

namespace Checkout

variable {ρ : Type}

namespace Batch

open Contents

/-! ## The verdict on a request -/

/-- Why a request is turned away behind those that are kept, if it is: its order is one of theirs,
or else the first of its items whose identifier is one of theirs. -/
def repetition (kept : List Request) (r : Request) : Option CheckoutError :=
  if ∃ k ∈ kept, k.order = r.order then some (.duplicateOrder (toString r.order))
  else (r.items.find? fun i => ∃ k ∈ kept, ∃ j ∈ k.items, j.id = i.id).map fun i =>
    .duplicateItem (toString i.id)

/-- Those that are kept when one more request is scanned. -/
def keep (kept : List Request) (r : Request) : List Request :=
  match repetition kept r with
  | some _ => kept
  | none => kept ++ [r]

/-- The requests that are kept, scanned in their sequence. -/
def keptOf (requests : List Request) : List Request := requests.foldl keep []

/-- What a kept request gets: the store turns it away, or its items that survive become its order.
Only those that the store does not turn away ask for stock, and `before` are the kept requests that
come before this one. -/
def share (c : Contents) (kept before : List Request) (r : Request) : Outcome :=
  match c.clash r with
  | some e => .error e
  | none =>
    let items :=
      (c.resolution (c.admitted kept)).survivingItems (c.admitted before).length r
    if items = [] then .error .outOfStock else .ok (r.toOrder items)

/-- What must come of a request of a batch behind the requests `before`. -/
def verdict (c : Contents) (batch before : List Request) (r : Request) : Outcome :=
  match repetition (keptOf before) r with
  | some e => .error e
  | none => share c (keptOf batch) (keptOf before) r

/-! ## Scanning -/

/-- The sets hold the identifiers of the requests. -/
structure Represents (orders : IdentifierSet .order) (items : IdentifierSet .item)
    (kept : List Request) : Prop where
  order : ∀ id, id ∈ orders ↔ ∃ k ∈ kept, k.order = id
  item : ∀ id, id ∈ items ↔ ∃ k ∈ kept, ∃ j ∈ k.items, j.id = id

variable {orders : IdentifierSet .order} {items : IdentifierSet .item} {kept : List Request}

theorem Represents.empty : Represents ∅ ∅ [] := by
  constructor <;> simp

theorem Represents.insert (h : Represents orders items kept) (r : Request) :
    Represents (orders.insert r.order) (items.insertMany (r.items.map (·.id))) (kept ++ [r]) where
  order id := by
    rw [Std.ExtTreeSet.mem_insert, Std.compare_eq_iff_eq, h.order]
    simp [or_and_right, exists_or, or_comm]
  item id := by
    rw [Std.ExtTreeSet.mem_insertMany_list, List.contains_iff_mem, h.item]
    simp [or_and_right, exists_or]

theorem Represents.clash_eq (h : Represents orders items kept) (r : Request) :
    clash orders items r = repetition kept r := by
  unfold clash repetition
  simp only [h.order, h.item]

theorem keep_of_some {r : Request} {e : CheckoutError} (h : repetition kept r = some e) :
    keep kept r = kept := by
  rw [keep, h]

theorem keep_of_none {r : Request} (h : repetition kept r = none) : keep kept r = kept ++ [r] := by
  rw [keep, h]

/-- Screening keeps what scanning keeps. -/
theorem screen_kept (h : Represents orders items kept) (batch : List (Pending ρ)) :
    kept ++ (screen orders items batch).2.map (·.request) =
      (batch.map (·.request)).foldl keep kept := by
  induction batch generalizing orders items kept with
  | nil => simp [screen]
  | cons p ps ih =>
      have hclash := h.clash_eq p.request
      rw [List.map_cons, List.foldl_cons]
      cases hrep : repetition kept p.request with
      | some e =>
          rw [screen_cons_of_clash (hclash.trans hrep), keep_of_some hrep]
          exact ih h
      | none =>
          rw [screen_cons_of_none (hclash.trans hrep), keep_of_none hrep, ← ih (h.insert p.request)]
          simp

/-- The deliveries of a batch, request by request. What those that are kept are told may depend on
which of all that are kept come before them. -/
theorem screen_tell_perm (h : Represents orders items kept) (batch : List (Pending ρ))
    {all : List Request} (hall : kept ++ (screen orders items batch).2.map (·.request) = all)
    {settled : Except StoreError Settlement} {due : List Request → Request → Outcome}
    (hdue : ∀ before r after, all = before ++ r :: after →
      settledOutcome settled r = due before r) :
    ((screen orders items batch).1 ++ tell (screen orders items batch).2 settled).Perm
      (batch.mapIdx fun n p =>
        let before := ((batch.take n).map (·.request)).foldl keep kept
        Delivery.mk p.responder (match repetition before p.request with
          | some e => .error e
          | none => due before p.request)) := by
  induction batch generalizing orders items kept with
  | nil => exact .refl _
  | cons p ps ih =>
      have hclash := h.clash_eq p.request
      rw [List.mapIdx_cons]
      simp only [List.take_zero, List.map_nil, List.foldl_nil, List.take_succ_cons, List.map_cons,
        List.foldl_cons]
      cases hrep : repetition kept p.request with
      | some e =>
          rw [screen_cons_of_clash (hclash.trans hrep)] at hall ⊢
          rw [keep_of_some hrep]
          exact (ih h hall).cons _
      | none =>
          rw [screen_cons_of_none (hclash.trans hrep)] at hall ⊢
          rw [keep_of_none hrep]
          have hrest := ih (h.insert p.request) (by simpa using hall)
          have hfirst := hdue kept p.request _ hall.symm
          dsimp only
          rw [← hfirst]
          exact List.perm_middle.trans (hrest.cons _)

end Batch

/-! ## Settling -/

namespace Contents

open Batch

variable {before after : List Request} {r : Request}

/-- The order made for a request can be looked up among all that are made. -/
theorem find?_survivingOrders (resolution : Resolution)
    (hnd : ((before ++ r :: after).map (·.order)).Nodup) :
    (survivingOrders resolution (before ++ r :: after)).find? (·.id = r.order) =
      if resolution.survivingItems before.length r = [] then none
      else some (r.toOrder (resolution.survivingItems before.length r)) := by
  rw [List.map_append, List.map_cons, List.nodup_append, List.nodup_cons] at hnd
  obtain ⟨-, ⟨hafter, -⟩, hdisjoint⟩ := hnd
  have hbefore : r.order ∉ before.map (·.order) := fun hmem =>
    hdisjoint _ hmem _ List.mem_cons_self rfl
  -- neither the orders made before nor those made after are for the same request
  have hfirst : (survivingFrom resolution 0 before).find? (·.id = r.order) = none :=
    Order.find?_of_not_mem fun hmem => hbefore ((survivingFrom_ids_sublist _ _ _).subset hmem)
  have hlast : (survivingFrom resolution (before.length + 1) after).find? (·.id = r.order) = none :=
    Order.find?_of_not_mem fun hmem => hafter ((survivingFrom_ids_sublist _ _ _).subset hmem)
  show (survivingFrom resolution 0 _).find? _ = _
  rw [survivingFrom_append, survivingFrom_cons, Nat.zero_add, List.find?_append, List.find?_append,
    hfirst, hlast, Option.or_none, Option.none_or]
  by_cases hnil : resolution.survivingItems before.length r = [] <;>
    simp [hnil, Request.toOrder]

/-- **A kept request gets its share.** -/
theorem outcome_eq_share (c : Contents) (hnd : ((before ++ r :: after).map (·.order)).Nodup) :
    Settlement.outcome ⟨c.sales (c.admitted (before ++ r :: after)),
        c.turnedAway (before ++ r :: after)⟩ r =
      share c (before ++ r :: after) before r := by
  have hr : r ∈ before ++ r :: after := List.mem_append_right _ List.mem_cons_self
  unfold Settlement.outcome share
  dsimp only
  rw [c.find?_turnedAway hnd hr]
  cases hclash : c.clash r with
  | some e => rfl
  | none =>
      have hadmitted : c.admitted (before ++ r :: after) =
          c.admitted before ++ r :: c.admitted after := by
        unfold admitted
        rw [List.filter_append, List.filter_cons_of_pos (by rw [hclash]; rfl)]
      have hsub := (c.admitted_sublist (before ++ r :: after)).map (·.order)
      rw [hadmitted] at hsub
      unfold sales
      rw [hadmitted, find?_survivingOrders _ (hnd.sublist hsub)]
      dsimp only [Option.map_none]
      by_cases hnil : (c.resolution (c.admitted before ++ r :: c.admitted after)).survivingItems
          (c.admitted before).length r = []
      · rw [if_pos hnil, if_pos hnil]
      · rw [if_neg hnil, if_neg hnil]

end Contents

namespace Batch

variable {m : Memory}

/-- **What comes of each request.** On a store in memory of which nothing has been told to fail, a
batch delivers to each of its requests the verdict on it, and nothing else. -/
theorem process_classifies (h : m.Reachable) (hfailing : m.failing = [])
    (batch : List (Pending ρ)) :
    (processInMemory batch m).1.Perm (batch.mapIdx fun n p =>
      ⟨p.responder, verdict m.contents (batch.map (·.request)) ((batch.take n).map (·.request))
        p.request⟩) := by
  have hkept : (screen ∅ ∅ batch).2.map (·.request) = keptOf (batch.map (·.request)) :=
    screen_kept .empty batch
  have hsep := kept_separate batch
  rw [(processInMemory_committed h.sound hfailing batch).1]
  refine screen_tell_perm .empty batch hkept fun before r after hall => ?_
  rw [hkept, hall] at hsep
  show Settlement.outcome (settlement _ _) r = _
  unfold settlement
  rw [hkept, hall]
  exact m.contents.outcome_eq_share hsep.orders_nodup

/-- Of the sample the first request gets its item of product 1, there is not enough left for the
second, and the third is for the same order as the first. -/
theorem process_classifies_sample :
    Sample.store.failing = [] ∧
    (processInMemory Sample.batch Sample.store).1.Perm
      [⟨0, .ok (Sample.first.toOrder (Sample.first.items.take 1))⟩, ⟨1, .error .outOfStock⟩,
        ⟨2, .error (.duplicateOrder (toString Sample.first.order))⟩] :=
  ⟨rfl, process_classifies Sample.store_reachable rfl Sample.batch⟩

end Batch

end Checkout
