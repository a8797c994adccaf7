import Checkout.Proofs.Batch.Outcome
import Checkout.Proofs.Demand.Precedence

/-!
# First come, first served

Requests that are put behind a batch change nothing for those in it. Each of those is turned away,
or gets its order, or gets nothing, just as in the batch alone; and whatever the store has in the
end for the requests behind is sold from what the batch alone leaves (`earlier_undisturbed`).
-/

namespace Checkout

open Batch

variable {ρ : Type}

/-! ## What more requests are sold -/

namespace Contents

open Arrival Ledger Resolution

variable {c : Contents} {requests later : List Request} {r : Request}

/-- An item is given up exactly if the stock does not do for it and all that came before. -/
theorem isEvicted_resolution_iff {a : Arrival} {before after : List Arrival}
    (h : Arrival.ofBatch requests = before ++ a :: after) :
    (c.resolution requests).isEvicted a.position = true ↔
      ((c.stock? a.item.product).getD 0).toNat <
        pieces a.item.product ((before ++ [a]).map (·.item)) := by
  have hproduct : a.item.product ∈ (merge requests).products := by
    refine ((merge_collects requests).mem_products _).mpr (List.mem_map_of_mem ?_)
    simp [h]
  rw [← available_rows hproduct]
  exact isEvicted_iff_lt_pieces h

/-- **An item is given up or not, whatever requests follow.** -/
theorem isEvicted_append (c : Contents) {a : Arrival} (ha : a ∈ Arrival.ofBatch requests)
    (later : List Request) :
    (c.resolution (requests ++ later)).isEvicted a.position =
      (c.resolution requests).isEvicted a.position := by
  obtain ⟨before, after, h⟩ := List.append_of_mem ha
  have hmore : Arrival.ofBatch (requests ++ later) =
      before ++ a :: (after ++ ofRequests (0 + requests.length) later) := by
    show ofRequests 0 (requests ++ later) = _
    rw [ofRequests_append, show ofRequests 0 requests = _ from h, List.append_assoc,
      List.cons_append]
  rw [Bool.eq_iff_iff, isEvicted_resolution_iff h, isEvicted_resolution_iff hmore]

/-- What requests are sold comes first, and what is sold to later ones is added. -/
theorem sales_append (c : Contents) (requests later : List Request) :
    c.sales (requests ++ later) = c.sales requests ++
      survivingFrom (c.resolution (requests ++ later)) requests.length later := by
  have hsame : survivingFrom (c.resolution (requests ++ later)) 0 requests =
      survivingFrom (c.resolution requests) 0 requests := by
    refine List.filterMap_congr ?_
    rintro ⟨r, index⟩ hr
    have hitems : (c.resolution (requests ++ later)).survivingItems index r =
        (c.resolution requests).survivingItems index r := by
      rw [survivingItems_eq, survivingItems_eq]
      refine congrArg _ (List.filter_congr fun a ha => ?_)
      rw [c.isEvicted_append (mem_ofRequests hr ha) later]
    dsimp only
    rw [hitems]
  show survivingFrom _ 0 (requests ++ later) = survivingFrom _ 0 requests ++ _
  rw [← hsame, survivingFrom_append, Nat.zero_add]

theorem admitted_append (c : Contents) (requests later : List Request) :
    c.admitted (requests ++ later) = c.admitted requests ++ c.admitted later :=
  List.filter_append _ _

theorem turnedAway_append (c : Contents) (requests later : List Request) :
    c.turnedAway (requests ++ later) = c.turnedAway requests ++ c.turnedAway later :=
  List.filterMap_append

/-- What is sold to more requests is added for some of them. -/
theorem sales_admitted_append (c : Contents) (requests later : List Request) :
    ∃ orders, c.sales (c.admitted (requests ++ later)) =
        c.sales (c.admitted requests) ++ orders ∧
      (orders.map (·.id)).Sublist (later.map (·.order)) := by
  rw [admitted_append, sales_append]
  refine ⟨_, rfl, ?_⟩
  exact (survivingFrom_ids_sublist _ _ _).trans ((c.admitted_sublist later).map _)

/-- **A request is told the same, whatever other requests follow.** -/
theorem outcome_append (hnd : ((requests ++ later).map (·.order)).Nodup) (hr : r ∈ requests) :
    Settlement.outcome ⟨c.sales (c.admitted (requests ++ later)),
        c.turnedAway (requests ++ later)⟩ r =
      Settlement.outcome ⟨c.sales (c.admitted requests), c.turnedAway requests⟩ r := by
  rw [List.map_append] at hnd
  have hother : r.order ∉ later.map (·.order) := fun hmem =>
    (List.nodup_append.mp hnd).2.2 r.order (List.mem_map_of_mem hr) r.order hmem rfl
  obtain ⟨orders, hsales, hids⟩ := c.sales_admitted_append requests later
  have hsold : orders.find? (·.id = r.order) = none :=
    Order.find?_of_not_mem fun hmem => hother (hids.subset hmem)
  have hturned : (c.turnedAway later).find? (·.1 = r.order) = none := by
    refine List.find?_eq_none.mpr fun t ht heq => hother ?_
    obtain ⟨r', hr', hsome⟩ := List.mem_filterMap.mp ht
    obtain ⟨e, -, rfl⟩ := Option.map_eq_some_iff.mp hsome
    exact List.mem_map.mpr ⟨r', hr', of_decide_eq_true heq⟩
  unfold Settlement.outcome
  simp only [hsales, turnedAway_append, List.find?_append, hsold, hturned, Option.or_none]

/-- What is sold besides is what the requests that follow are answered with. -/
theorem sales_eq_append_outcomes (hsep : Separate (requests ++ later)) :
    c.sales (c.admitted (requests ++ later)) = c.sales (c.admitted requests) ++
      later.filterMap fun r => (Settlement.outcome ⟨c.sales (c.admitted (requests ++ later)),
        c.turnedAway (requests ++ later)⟩ r).toOption := by
  have hsame := List.filterMap_congr fun r hr =>
    congrArg Except.toOption (outcome_append (c := c) hsep.orders_nodup (r := r) hr)
  have hfirst := filterMap_outcome (c := c) (hsep.sublist (List.sublist_append_left _ _))
  have hall := filterMap_outcome (c := c) hsep
  rw [List.filterMap_append, hsame, hfirst] at hall
  exact hall.symm

/-! ## One sale after the other -/

variable {c' c'' : Contents} {orders more : List Order}

theorem sold_append (orders more : List Order) :
    sold (orders ++ more) = sold orders ++ sold more := List.flatMap_append

/-- A sale can be made in two parts, and the second is a sale from what the first one leaves. -/
theorem Sale.rest (h : c.Sale (orders ++ more) c'') (hfirst : c.Sale orders c')
    (hnd : ((orders ++ more).map (·.id)).Nodup) : c'.Sale more c'' := by
  refine ⟨fun p => ?_, fun i hi => ?_, fun id => ?_, ?_⟩
  · have hall := h.stock p
    have hpart := hfirst.stock p
    rw [sold_append, pieces_append] at hall
    cases hc : c.stock? p with
    | none =>
        rw [hc, Option.map_none, Option.map_eq_none_iff] at hall hpart
        rw [hall, hpart]
        rfl
    | some n =>
        rw [hc] at hall hpart
        obtain ⟨n'', hn'', hsum⟩ := Option.map_eq_some_iff.mp hall
        obtain ⟨n', hn', hsum'⟩ := Option.map_eq_some_iff.mp hpart
        rw [hn', hn'', Option.map_some, Option.map_some]
        congr 1
        omega
  · have hsome := h.stocked i (by rw [sold_append]; exact List.mem_append_right _ hi)
    obtain ⟨n, hn⟩ := Option.isSome_iff_exists.mp hsome
    have hpart := hfirst.stock i.product
    rw [hn] at hpart
    obtain ⟨n', hn', -⟩ := Option.map_eq_some_iff.mp hpart
    simp [hn']
  · rw [h.header?, hfirst.header?, List.find?_append]
    rw [List.map_append] at hnd
    by_cases hid : id ∈ orders.map (·.id)
    · have hmore : more.find? (·.id = id) = none :=
        Order.find?_of_not_mem fun hmem => (List.nodup_append.mp hnd).2.2 id hid id hmem rfl
      simp [hmore]
    · simp [Order.find?_of_not_mem hid]
  · rw [h.items, hfirst.items, sold_append, List.append_assoc]

/-- What fits in two parts fits behind the first of them. -/
theorem Fits.rest (h : c.Fits (orders ++ more)) (hfirst : c.Sale orders c') : c'.Fits more := by
  have hids := h.ids_nodup
  have hitems := h.itemIds_nodup
  rw [List.map_append] at hids
  rw [sold_append, List.map_append] at hitems
  refine ⟨(List.nodup_append.mp hids).2.1, fun o ho => ?_,
    fun o ho => h.items_ne_nil o (List.mem_append_right _ ho),
    fun o ho => h.item_order o (List.mem_append_right _ ho),
    (List.nodup_append.mp hitems).2.1, fun i hi j hj heq => ?_⟩
  · have hother : o.id ∉ orders.map (·.id) := fun hmem =>
      (List.nodup_append.mp hids).2.2 o.id hmem o.id (List.mem_map_of_mem ho) rfl
    rw [hfirst.header?, Order.find?_of_not_mem hother]
    exact h.id_new o (List.mem_append_right _ ho)
  · rw [hfirst.items] at hj
    rcases List.mem_append.mp hj with hj | hj
    · refine h.itemId_new i ?_ j hj heq
      rw [sold_append]
      exact List.mem_append_right _ hi
    · exact (List.nodup_append.mp hitems).2.2 j.id (List.mem_map_of_mem hj) i.id
        (List.mem_map_of_mem hi) heq

end Contents

/-! ## Requests behind a batch -/

/-- A delivery to a request that waits for its own outcome. -/
def Delivery.answer (d : Delivery (Pending ρ)) : Answer ρ := (d.responder, d.outcome)

namespace Batch

variable {m : Memory}

/-- The orders that are delivered. -/
def delivered (deliveries : List (Delivery ρ)) : List Order :=
  deliveries.filterMap (·.outcome.toOption)

theorem delivered_append (deliveries later : List (Delivery ρ)) :
    delivered (deliveries ++ later) = delivered deliveries ++ delivered later :=
  List.filterMap_append

theorem delivered_screen {orders : IdentifierSet .order} {items : IdentifierSet .item}
    (batch : List (Pending ρ)) : delivered (screen orders items batch).1 = [] := by
  refine List.filterMap_eq_nil_iff.mpr fun d hd => ?_
  obtain ⟨e, he, -⟩ := screen_rejected hd
  rw [he]
  rfl

theorem delivered_tell (kept : List (Pending ρ)) (settled : Except StoreError Settlement) :
    delivered (tell kept settled) =
      (kept.map (·.request)).filterMap fun r => (settledOutcome settled r).toOption := by
  unfold delivered tell
  rw [List.filterMap_map, List.filterMap_map]
  rfl

/-- What is done to the store does not depend on who waits for an outcome. -/
theorem processInMemory_own (batch : List (Pending ρ)) (m : Memory) :
    (processInMemory (batch.map (·.own)) m).2 = (processInMemory batch m).2 :=
  congrArg (·.2) (processInMemory_answers batch m).symm

/-- The deliveries of a longer batch are those of the batch and others, which are for the requests
behind it. What is sold to those is sold from what the batch leaves. -/
theorem processInMemory_append (hsound : m.contents.Sound) (hfailing : m.failing = [])
    (batch behind : List (Pending ρ)) :
    ∃ later : List (Delivery ρ),
      (later.map (·.responder)).Perm (behind.map (·.responder)) ∧
      (processInMemory (batch ++ behind) m).1.Perm ((processInMemory batch m).1 ++ later) ∧
      (processInMemory batch m).2.contents.Fits (delivered later) ∧
      (processInMemory batch m).2.contents.Sale (delivered later)
        (processInMemory (batch ++ behind) m).2.contents := by
  obtain ⟨hdeliveries, hsale⟩ := processInMemory_committed hsound hfailing (batch ++ behind)
  obtain ⟨hdeliveries', hsale'⟩ := processInMemory_committed hsound hfailing batch
  have hsep := kept_separate (batch ++ behind)
  have hperm := @screen_perm ρ (seen ∅ ∅ (screen ∅ ∅ batch).2).1
    (seen ∅ ∅ (screen ∅ ∅ batch).2).2 behind
  have hnone := @delivered_screen ρ (seen ∅ ∅ (screen ∅ ∅ batch).2).1
    (seen ∅ ∅ (screen ∅ ∅ batch).2).2 behind
  rw [screen_append] at hdeliveries hsale hsep
  dsimp only at hdeliveries hsale hsep
  generalize screen (seen ∅ ∅ (screen ∅ ∅ batch).2).1 (seen ∅ ∅ (screen ∅ ∅ batch).2).2 behind =
    last at *
  generalize screen ∅ ∅ batch = first at *
  rw [List.map_append] at hsep
  -- those who are kept of the batch are told what they are told without the others
  have htell : tell first.2 (.ok (settlement m.contents (first.2 ++ last.2))) =
      tell first.2 (.ok (settlement m.contents first.2)) := by
    refine List.map_congr_left fun p hp => congrArg (Delivery.mk p.responder) ?_
    show Settlement.outcome _ _ = Settlement.outcome _ _
    unfold settlement
    rw [List.map_append]
    exact Contents.outcome_append hsep.orders_nodup (List.mem_map_of_mem hp)
  have hfits : m.contents.Fits (settlement m.contents (first.2 ++ last.2)).persisted := by
    unfold settlement
    rw [List.map_append]
    exact Contents.fits_sales_admitted hsep
  -- and what is sold besides is what the others are told
  have hsold : (settlement m.contents (first.2 ++ last.2)).persisted =
      (settlement m.contents first.2).persisted ++
        delivered (last.1 ++ tell last.2 (.ok (settlement m.contents (first.2 ++ last.2)))) := by
    rw [delivered_append, hnone, List.nil_append, delivered_tell]
    unfold settlement
    rw [List.map_append]
    exact Contents.sales_eq_append_outcomes hsep
  rw [hsold] at hsale hfits
  refine ⟨_, ?_, ?_, hfits.rest hsale', hsale.rest hsale' hfits.ids_nodup⟩
  · rw [List.map_append]
    simpa [tell, Function.comp_def] using hperm
  · rw [hdeliveries, hdeliveries', show tell (first.2 ++ last.2) _ = tell first.2 _ ++ tell last.2 _
      from List.map_append, htell, List.append_assoc, List.append_assoc]
    exact (List.perm_append_comm_assoc _ _ _).append_left _

/-- The answers of a longer batch are those of the batch, and others to the requests behind it. -/
theorem answers_append (hsound : m.contents.Sound) (hfailing : m.failing = [])
    (batch behind : List (Pending ρ)) :
    ∃ later : List (Answer ρ),
      (later.map (·.1)).Perm behind ∧
      (answers (batch ++ behind) m).Perm (answers batch m ++ later) ∧
      (processInMemory batch m).2.contents.Fits (Answer.orders later) ∧
      (processInMemory batch m).2.contents.Sale (Answer.orders later)
        (processInMemory (batch ++ behind) m).2.contents := by
  obtain ⟨later, hfor, hperm, hfits, hsale⟩ :=
    processInMemory_append hsound hfailing (batch.map (·.own)) (behind.map (·.own))
  rw [← List.map_append] at hperm hsale
  rw [processInMemory_own] at hfits hsale
  rw [processInMemory_own] at hsale
  have horders : Answer.orders (later.map Delivery.answer) = delivered later := by
    unfold Answer.orders delivered
    rw [List.filterMap_map]
    rfl
  rw [← horders] at hfits hsale
  refine ⟨later.map Delivery.answer, ?_, ?_, hfits, hsale⟩
  · rw [List.map_map] at hfor ⊢
    exact hfor.trans (.of_eq (List.map_id behind))
  · exact (hperm.map Delivery.answer).trans (.of_eq List.map_append)

/-- **First come, first served.** Requests are put behind a batch. Everybody in the batch is
answered just as without them, and has the same order in the store. The others are answered truly
for what is done to the store that the batch alone leaves: none of its orders changes, and they are
sold what it has left in stock. -/
theorem earlier_undisturbed (h : m.Reachable) (hfailing : m.failing = [])
    (batch behind : List (Pending ρ)) :
    ∃ later : List (Answer ρ),
      (answers (batch ++ behind) m).Perm (answers batch m ++ later) ∧
      (∀ p o, (p, .ok o) ∈ answers batch m →
        (processInMemory batch m).2.contents.order? p.request.order = some o ∧
        (processInMemory (batch ++ behind) m).2.contents.order? p.request.order = some o) ∧
      Faithful behind later (processInMemory batch m).2.contents
        (processInMemory (batch ++ behind) m).2.contents ∧
      (processInMemory batch m).2.contents.Sale (Answer.orders later)
        (processInMemory (batch ++ behind) m).2.contents := by
  obtain ⟨later, hfor, hanswers, hfits, hsale⟩ :=
    answers_append h.sound hfailing batch behind
  have hafter : (processInMemory batch m).2.contents.Sound := (h.step (.process batch)).sound
  have hfaithful : Faithful behind later (processInMemory batch m).2.contents
      (processInMemory (batch ++ behind) m).2.contents := by
    refine .of_sale hfor hafter hfits hsale fun hmem => ?_
    exact (order_of_answer h.sound (hanswers.mem_iff.mpr (List.mem_append_right _ hmem))).2.2
  refine ⟨later, hanswers, fun p o hmem => ?_, hfaithful, hsale⟩
  obtain ⟨-, hfound, hheader, -⟩ := order_of_answer h.sound hmem
  rw [Order.id_eq_order hheader] at hfound
  exact ⟨hfound, hfaithful.old _ o hfound⟩

theorem earlier_undisturbed_sample :
    Sample.store.failing = [] ∧
    ∃ later : List (Answer Nat),
      (answers (Sample.batch.take 1 ++ Sample.batch.drop 1) Sample.store).Perm
        (answers (Sample.batch.take 1) Sample.store ++ later) ∧
      (∀ p o, (p, .ok o) ∈ answers (Sample.batch.take 1) Sample.store →
        (processInMemory (Sample.batch.take 1) Sample.store).2.contents.order? p.request.order =
          some o ∧
        (processInMemory (Sample.batch.take 1 ++ Sample.batch.drop 1)
          Sample.store).2.contents.order? p.request.order = some o) ∧
      Faithful (Sample.batch.drop 1) later
        (processInMemory (Sample.batch.take 1) Sample.store).2.contents
        (processInMemory (Sample.batch.take 1 ++ Sample.batch.drop 1) Sample.store).2.contents ∧
      (processInMemory (Sample.batch.take 1) Sample.store).2.contents.Sale (Answer.orders later)
        (processInMemory (Sample.batch.take 1 ++ Sample.batch.drop 1) Sample.store).2.contents :=
  ⟨rfl, earlier_undisturbed Sample.store_reachable rfl _ _⟩

end Batch

end Checkout
