import Checkout.Proofs.Batch.Sales
import Checkout.Proofs.Memory.Session

/-!
# Settling a batch in memory

On the store in memory a transaction either fails as an operation that was told to fail, and then
nothing is left of it; or it is committed, the sales of the batch are made, and its settlement names
just these sales and those turned away (`transact_settled`). There is no third way: what the
operations themselves refuse never comes up. `processInMemory_settled` is the same for whole
batches.
-/

namespace Checkout

namespace Batch

open StoreAction Memory Session

variable {c c' : Contents} {requests : List Request} {failing : List Operation}

/-! ## Inside the transaction -/

theorem foldl_index (acc orders : List Order) (h : ((acc ++ orders).map (·.id)).Nodup) :
    orders.foldl Settlement.index acc = acc ++ orders := by
  induction orders generalizing acc with
  | nil => exact (List.append_nil _).symm
  | cons o orders ih =>
      have hacc : acc.filter (·.id ≠ o.id) = acc := by
        refine List.filter_eq_self.mpr fun p hp => ?_
        rw [List.map_append] at h
        have hne := (List.nodup_append.mp h).2.2 p.id (List.mem_map_of_mem hp) o.id
          List.mem_cons_self
        exact decide_eq_true hne
      have hindex : Settlement.index acc o = acc ++ [o] := by
        unfold Settlement.index
        rw [hacc]
      rw [List.foldl_cons, hindex, ih _ (by rwa [List.append_assoc]), List.append_assoc]
      rfl

theorem persistedClashes_achieves (c : Contents) (requests : List Request) :
    Achieves failing (· = c) (persistedClashes store requests)
      (fun rejected c' => c' = c ∧ rejected = c.turnedAway requests) := by
  unfold persistedClashes
  rw [existingOrders_eq]
  refine ((Achieves.check _).bind fun _ => .ask _).bind fun orders => ?_
  rw [existingItems_eq]
  refine ((Achieves.check _).bind fun _ => .ask _).bind fun items => ?_
  refine .pure _ ?_
  rintro _ ⟨⟨rfl, rfl⟩, rfl⟩
  refine ⟨rfl, List.filterMap_congr fun r hr => ?_⟩
  rw [Contents.clash_ofList hr]

/-- Stored orders are read back as they are. -/
theorem filterMap_order? {orders : List Order} (h : ∀ o ∈ orders, c.order? o.id = some o) :
    (orders.map (·.id)).filterMap c.order? = orders := by
  rw [List.filterMap_map]
  calc orders.filterMap (c.order? ∘ (·.id)) = orders.filterMap some :=
        List.filterMap_congr fun o ho => h o ho
    _ = orders := List.filterMap_some

theorem persist_achieves {orders : List Order} {c₁ c₂ c₃ : Contents}
    (horders : orders.foldlM Contents.insertOrder c₁ = .ok c₂)
    (hitems : (Contents.sold orders).foldlM Contents.insertItem c₂ = .ok c₃)
    (hread : ∀ o ∈ orders, c₃.order? o.id = some o) :
    Achieves failing (· = c₁) (persist store orders)
      (fun persisted c' => c' = c₃ ∧ persisted = orders) := by
  unfold persist
  rw [insertOrders_eq, insertItems_eq]
  refine Achieves.bind (Q := fun _ c => c = c₂) ?_ fun _ => ?_
  · refine (Achieves.check _).bind fun _ => .applyAll ?_
    rintro _ rfl
    exact ⟨c₂, horders, rfl⟩
  refine Achieves.bind (Q := fun _ c => c = c₃) ?_ fun _ => ?_
  · refine (Achieves.check _).bind fun _ => .applyAll ?_
    rintro _ rfl
    exact ⟨c₃, hitems, rfl⟩
  split
  next hnil => exact .pure _ fun c hc => ⟨hc, (List.isEmpty_iff.mp hnil).symm⟩
  next =>
    rw [fetchOrders_eq]
    refine (Achieves.check _).bind fun _ => (Achieves.ask _).mono ?_
    rintro persisted c ⟨rfl, rfl⟩
    exact ⟨rfl, filterMap_order? hread⟩

/-- **What happens inside a transaction**: the sales of the admitted requests are made, or an
operation fails that was told to. -/
theorem settle_achieves (hsound : c.Sound) (hsep : Separate requests) :
    Achieves failing (· = c) (settle store requests) (fun s c' =>
      s = ⟨c.sales (c.admitted requests), c.turnedAway requests⟩ ∧
      c.Sale (c.sales (c.admitted requests)) c') := by
  unfold settle
  refine (persistedClashes_achieves c requests).bind fun rejected => ?_
  refine .of_forall ?_
  rintro c ⟨rfl, rfl⟩
  rw [Contents.filter_not_turnedAway hsep.orders_nodup]
  dsimp only
  -- without an admitted request there is nothing to sell
  split
  next hnil =>
    refine .pure _ ?_
    rintro _ rfl
    rw [List.isEmpty_iff.mp hnil]
    exact ⟨rfl, .nil _⟩
  next =>
    have hfits := Contents.fits_sales_admitted (c := c) hsep
    obtain ⟨c₁, h₁, c₂, h₂, c₃, h₃, hsale⟩ :=
      Contents.sale_of_fits hfits (c.covers_sales (c.admitted requests))
    -- `c` goes over into `c₁`, `c₂` and `c₃`, one bulk change after the other
    rw [fetchStock_eq]
    refine ((Achieves.check _).bind fun _ => .ask _).bind fun stock => ?_
    refine .of_forall ?_
    rintro c ⟨rfl, rfl⟩
    rw [decrementStock_eq]
    refine Achieves.bind (Q := fun _ c => c = c₁) ?_ fun _ => ?_
    · refine (Achieves.check _).bind fun _ => (Achieves.log _).bind fun _ => .applyAll ?_
      rintro _ rfl
      exact ⟨c₁, h₁, rfl⟩
    refine (persist_achieves h₂ h₃ fun o ho => hsale.order?_of_mem hsound hfits ho).bind
      fun persisted => ?_
    refine .pure _ ?_
    rintro _ ⟨rfl, rfl⟩
    refine ⟨?_, hsale⟩
    rw [foldl_index [] (c.sales (c.admitted requests)) hfits.ids_nodup, List.nil_append]

/-- A request that is settled without an order is turned away as a duplicate, or nothing is left for
it. -/
theorem outcome_error {orders : List Order} {r : Request} {e : CheckoutError}
    (h : Settlement.outcome ⟨orders, c.turnedAway requests⟩ r = .error e) :
    e.isDuplicate ∨ e = .outOfStock := by
  unfold Settlement.outcome at h
  split at h
  next id e' hfind =>
    cases h
    obtain ⟨r', -, hsome⟩ := List.mem_filterMap.mp (List.mem_of_find?_eq_some hfind)
    obtain ⟨e', he', hpair⟩ := Option.map_eq_some_iff.mp hsome
    cases hpair
    exact .inl (Contents.isDuplicate_of_clash he')
  next =>
    split at h
    · cases h
    · cases h
      exact .inr rfl

/-! ## The transaction -/

/-- A transaction in memory comes to nothing if it cannot be opened, if an action inside it fails,
or if it cannot be committed. -/
theorem perform_transact_store (requests : List Request) (s : Session) :
    perform (transact store requests) s =
      if .start ∈ s.memory.failing then (.error (Operation.failure .start), s)
      else
        match perform (settle store requests) (opened s.memory) with
        | (.error e, t) => (.error e, t)
        | (.ok settlement, t) =>
          if .commit ∈ t.memory.failing then (.error (Operation.failure .commit), t)
          else (.ok settlement, closed t) := by
  rw [perform_transact, perform_start]
  by_cases hstart : .start ∈ s.memory.failing
  · rw [if_pos hstart, if_pos hstart]
  rw [if_neg hstart, if_neg hstart]
  dsimp only
  rcases perform (settle store requests) (opened s.memory) with ⟨e | settlement, t⟩
  · rfl
  dsimp only
  rw [perform_commit]
  by_cases hcommit : .commit ∈ t.memory.failing
  · rw [if_pos hcommit, if_pos hcommit]
  · rw [if_neg hcommit, if_neg hcommit]

/-- What becomes of a store in memory when requests are settled, and what they are told. -/
inductive Settled (m : Memory) (requests : List Request) :
    Except StoreError Settlement → Memory → Prop
  | failed {operation : Operation} {after : Memory} (hfails : operation ∈ m.failing)
      (hcore : after.core = m.core) : Settled m requests (.error operation.failure) after
  | committed {after : Memory}
      (hsale : m.contents.Sale (m.contents.sales (m.contents.admitted requests)) after.contents)
      (hfailing : after.failing = m.failing) (hcommitted : after.committed = m.committed + 1) :
      Settled m requests
        (.ok ⟨m.contents.sales (m.contents.admitted requests), m.contents.turnedAway requests⟩)
        after

/-- **A transaction in memory fails without a trace or makes the sales of its requests.** -/
theorem transact_settled {m : Memory} (hsound : m.contents.Sound) (hsep : Separate requests) :
    Settled m requests (perform (transact store requests) ⟨m, m.contents⟩).1
      (perform (transact store requests) ⟨m, m.contents⟩).2.memory := by
  -- inside the transaction nothing is committed, and the contract says how it may fail
  have hcore := (store_linked.settle requests _ _ (Alike.opened (m := m) rfl)).2.2
  have hcontract : Achieves m.failing (· = m.contents) _ _ := settle_achieves hsound hsep
  have hanswer := hcontract (opened m) rfl rfl
  rw [perform_transact_store]
  split
  next hstart => exact .failed hstart rfl
  next =>
    rcases h : perform (settle store requests) (opened m) with ⟨e | s, t⟩ <;>
      rw [h] at hcore hanswer
    · obtain ⟨operation, hfails, rfl⟩ := hanswer
      exact .failed hfails hcore
    obtain ⟨hfailing, rfl, hsale⟩ := hanswer
    dsimp only
    split
    next hcommit => exact .failed (hfailing ▸ hcommit) hcore
    next => exact .committed hsale hfailing (congrArg (·.2.2 + 1) hcore)

/-! ## Whole batches -/

variable {ρ : Type} {m : Memory}

/-- **A batch on the store in memory.** What is screened out is told so, and the others are told
what came of settling them. -/
theorem processInMemory_settled (hsound : m.contents.Sound) {batch : List (Pending ρ)}
    (hne : batch ≠ []) :
    ∃ settled, Settled m ((screen ∅ ∅ batch).2.map (·.request)) settled
        (processInMemory batch m).2 ∧
      (processInMemory batch m).1 =
        (screen ∅ ∅ batch).1 ++ tell (screen ∅ ∅ batch).2 settled := by
  have hkept := screen_kept_ne_nil hne
  unfold processInMemory
  rw [process_of_kept store _ hkept]
  exact ⟨_, transact_settled hsound (kept_separate batch), rfl⟩

/-- A batch does not change which operations fail. -/
theorem failing_processInMemory (hsound : m.contents.Sound)
    (batch : List (Pending ρ)) : (processInMemory batch m).2.failing = m.failing := by
  by_cases hnil : batch = []
  · subst hnil
    rfl
  obtain ⟨settled, hsettled, -⟩ := processInMemory_settled hsound hnil
  cases hsettled with
  | failed _ hcore => exact congrArg (·.2.1) hcore
  | committed _ hfailing _ => exact hfailing

/-- What the transaction of a batch comes to if nothing has been told to fail. -/
def settlement (c : Contents) (kept : List (Pending ρ)) : Settlement :=
  ⟨c.sales (c.admitted (kept.map (·.request))), c.turnedAway (kept.map (·.request))⟩

/-- If nothing has been told to fail, the sales of the batch are made, and its requests are told
so. -/
theorem processInMemory_committed (hsound : m.contents.Sound) (hfailing : m.failing = [])
    (batch : List (Pending ρ)) :
    (processInMemory batch m).1 = (screen ∅ ∅ batch).1 ++
        tell (screen ∅ ∅ batch).2 (.ok (settlement m.contents (screen ∅ ∅ batch).2)) ∧
      m.contents.Sale (settlement m.contents (screen ∅ ∅ batch).2).persisted
        (processInMemory batch m).2.contents := by
  by_cases hnil : batch = []
  · subst hnil
    exact ⟨rfl, .nil _⟩
  obtain ⟨settled, hsettled, hdeliveries⟩ := processInMemory_settled hsound hnil
  cases hsettled with
  | failed hfails _ =>
      rw [hfailing] at hfails
      cases hfails
  | committed hsale _ _ => exact ⟨hdeliveries, hsale⟩

end Batch

end Checkout
