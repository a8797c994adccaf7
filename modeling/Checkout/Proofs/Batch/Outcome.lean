import Checkout.Proofs.Batch.Answers

/-!
# Single answers of a batch

Each request of a batch is answered once (`answers_perm`). An answer is either an order, which was
not in the store before and is there now (`order_of_answer`), or one of a few failures
(`isOfBatch_of_answer`). All that a batch does to the store is a sale of the orders that it answers
with (`sale_of_answers`), and no two of them are for one order (`granted_nodup`).
-/

namespace Checkout

open Batch

variable {σ ρ : Type}

/-- The failure is one that a batch answers with. -/
def CheckoutError.isOfBatch : CheckoutError → Bool
  | .outOfStock | .duplicateOrder _ | .duplicateItem _ | .store _ => true
  | _ => false

theorem CheckoutError.isOfBatch_of_isDuplicate {e : CheckoutError} (h : e.isDuplicate) :
    e.isOfBatch := by
  cases e with
  | duplicateOrder order => rfl
  | duplicateItem item => rfl
  | _ => cases h

/-- What is delivered of an answer. -/
def Answer.delivery (a : Answer ρ) : Delivery ρ := ⟨a.1.responder, a.2⟩

/-- The requests that are answered with an order. -/
def Answer.granted (answers : List (Answer ρ)) : List (Pending ρ) :=
  (answers.filter (·.2.isOk)).map (·.1)

theorem Order.id_eq_order {o : Order} {r : Request} (h : o.toHeader = r.header) : o.id = r.order :=
  congrArg (·.id) h

namespace Batch

theorem process_perm (store : Store σ) (batch : List (Pending ρ)) (s : σ) :
    (((process store batch).run s).1.map (·.responder)).Perm (batch.map (·.responder)) := by
  have hperm := @screen_perm ρ ∅ ∅ batch
  by_cases hnil : (screen ∅ ∅ batch).2 = []
  · rw [process_of_none_kept store s hnil]
    simpa [hnil] using hperm
  · rw [process_of_kept store s hnil]
    simpa [tell, Function.comp_def] using hperm

/-- **Each request is answered once.** -/
theorem answers_perm (batch : List (Pending ρ)) (m : Memory) :
    ((answers batch m).map (·.1)).Perm batch := by
  have hperm := process_perm Memory.store (batch.map (·.own)) ⟨m, m.contents⟩
  have hown : (batch.map (·.own)).map (·.responder) = batch := by
    rw [List.map_map]
    exact List.map_id _
  rw [hown] at hperm
  unfold answers
  rw [List.map_map]
  exact hperm

theorem deliveries_eq (batch : List (Pending ρ)) (m : Memory) :
    (processInMemory batch m).1 = (answers batch m).map Answer.delivery :=
  congrArg (·.1) (processInMemory_answers batch m)

variable {m : Memory} {batch : List (Pending ρ)} {p : Pending ρ} {o : Order}

/-! ## Answers one by one -/

/-- **An order that a request is answered with** is in the store now and was not there before. -/
theorem order_of_answer (hsound : m.contents.Sound) (h : (p, .ok o) ∈ answers batch m) :
    m.contents.order? o.id = none ∧ (processInMemory batch m).2.contents.order? o.id = some o ∧
      o.toHeader = p.request.header ∧ o.items ≠ [] ∧ o.items.Sublist p.request.items := by
  have hne : batch ≠ [] := by
    rintro rfl
    cases h
  obtain ⟨rejected, kept, settled, hsettled, hsep, -, herror, hanswers⟩ :=
    answers_settled hsound hne
  obtain ⟨orders, hfit, hsale, horders, hasked⟩ := hsettled.sale hsep
  have hafter : (processInMemory batch m).2 = (processInMemory (batch.map (·.own)) m).2 :=
    congrArg (·.2) (processInMemory_answers batch m)
  rw [hanswers, List.mem_append] at h
  rcases h with h | h
  · obtain ⟨e, he⟩ := herror _ h
    cases he
  · obtain ⟨q, hq, heq⟩ := List.mem_map.mp h
    obtain ⟨rfl, houtcome⟩ := Prod.mk.inj heq
    have hr : q.request ∈ kept.map (·.request) := List.mem_map_of_mem hq
    have ho : o ∈ orders := by
      rw [← horders, List.mem_filterMap]
      exact ⟨q.request, hr, by rw [houtcome]; rfl⟩
    have hnew := Contents.order?_eq_none_iff.mpr (hfit.id_new o ho)
    have hfound := hsale.order?_of_mem hsound hfit ho
    rw [hafter]
    exact ⟨hnew, hfound, hasked q.request hr o houtcome⟩

/-- A request that is not answered with an order is told one of the failures of a batch. -/
theorem isOfBatch_of_answer (hsound : m.contents.Sound) {e : CheckoutError}
    (h : (p, .error e) ∈ answers batch m) : e.isOfBatch := by
  have hne : batch.map (·.own) ≠ [] := by
    rintro hnil
    rw [List.map_eq_nil_iff.mp hnil] at h
    cases h
  obtain ⟨settled, hsettled, hdeliveries⟩ := processInMemory_settled hsound hne
  obtain ⟨d, hd, heq⟩ := List.mem_map.mp h
  obtain ⟨-, houtcome⟩ := Prod.mk.inj heq
  rw [hdeliveries, List.mem_append] at hd
  rcases hd with hd | hd
  · obtain ⟨e', he', hduplicate⟩ := screen_rejected hd
    cases he'.symm.trans houtcome
    exact CheckoutError.isOfBatch_of_isDuplicate hduplicate
  · obtain ⟨q, -, rfl⟩ := List.mem_map.mp hd
    cases hsettled with
    | failed _ _ =>
        cases houtcome
        rfl
    | committed _ _ _ =>
        rcases outcome_error houtcome with hduplicate | rfl
        · exact CheckoutError.isOfBatch_of_isDuplicate hduplicate
        · rfl

/-! ## All that a batch does -/

/-- **All that a batch does to the contents is a sale** of the orders that it answers with. -/
theorem sale_of_answers (hsound : m.contents.Sound) (batch : List (Pending ρ)) :
    m.contents.Sale (Answer.orders (answers batch m)) (processInMemory batch m).2.contents := by
  by_cases hnil : batch = []
  · subst hnil
    exact .nil _
  obtain ⟨rejected, kept, settled, hsettled, hsep, -, herror, hanswers⟩ :=
    answers_settled hsound hnil
  obtain ⟨orders, -, hsale, horders, -⟩ := hsettled.sale hsep
  -- those who are screened out are not answered with orders
  have hnone : rejected.filterMap (·.2.toOption) = [] := by
    refine List.filterMap_eq_nil_iff.mpr fun a ha => ?_
    obtain ⟨e, heq⟩ := herror a ha
    rw [heq]
    rfl
  have hsold : Answer.orders (answers batch m) = orders := by
    unfold Answer.orders
    rw [hanswers, List.filterMap_append, hnone, ← horders, List.filterMap_map, List.filterMap_map]
    rfl
  rw [show (processInMemory batch m).2 = _ from congrArg (·.2) (processInMemory_answers batch m),
    hsold]
  exact hsale

/-- The requests of a batch that are answered with orders are for different orders. -/
theorem granted_nodup (hsound : m.contents.Sound) (batch : List (Pending ρ)) :
    ((Answer.granted (answers batch m)).map (·.request.order)).Nodup := by
  by_cases hnil : batch = []
  · subst hnil
    exact List.nodup_nil
  obtain ⟨rejected, kept, settled, -, hsep, -, herror, hanswers⟩ := answers_settled hsound hnil
  have hrejected : rejected.filter (·.2.isOk) = [] := by
    apply List.filter_eq_nil_iff.mpr
    intro a ha
    obtain ⟨e, he⟩ := herror a ha
    simp [he, Except.isOk, Except.toBool]
  have hgranted : (Answer.granted (answers batch m)).Sublist kept := by
    unfold Answer.granted
    rw [hanswers, List.filter_append, hrejected, List.nil_append, List.filter_map, List.map_map]
    have hmap : ∀ ps : List (Pending ρ),
        ps.map ((·.1) ∘ fun p => (p, settledOutcome settled p.request)) = ps :=
      fun ps => List.map_id ps
    rw [hmap]
    exact List.filter_sublist
  have horders := hsep.orders_nodup
  rw [List.map_map] at horders
  exact horders.sublist (hgranted.map _)

end Batch

end Checkout
