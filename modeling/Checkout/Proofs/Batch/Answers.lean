import Checkout.Proofs.Memory.History

/-!
# Answers

A batch on the store in memory answers each of its requests once, and the answers are true: whoever
is answered with an order finds just this order in the store, it was not there before, and nothing
else was added (`answers_faithful`).

Nothing depends on who waits for an outcome (`process_map`). So each request can be let wait for its
own outcome, and that is how an answer is told together with the request that it answers.
-/

namespace Checkout

open Batch

variable {σ ρ τ : Type}

namespace Batch

/-! ## Who waits for an outcome does not matter -/

theorem tell_map (f : ρ → τ) (kept : List (Pending ρ)) (settled : Except StoreError Settlement) :
    tell (kept.map (·.map f)) settled = (tell kept settled).map (·.map f) := by
  unfold tell
  rw [List.map_map, List.map_map]
  rfl

/-- **Handing requests over to others hands their deliveries over, and changes nothing else.** -/
theorem process_map (store : Store σ) (f : ρ → τ) (batch : List (Pending ρ)) (s : σ) :
    (process store (batch.map (·.map f))).run s =
      (((process store batch).run s).1.map (·.map f), ((process store batch).run s).2) := by
  have hscreen := @screen_map _ _ ∅ ∅ f batch
  have hkept : (screen ∅ ∅ (batch.map (·.map f))).2 = (screen ∅ ∅ batch).2.map (·.map f) := by
    rw [hscreen]
  by_cases hnil : (screen ∅ ∅ batch).2 = []
  · have hnil' : (screen ∅ ∅ (batch.map (·.map f))).2 = [] := by rw [hkept, hnil, List.map_nil]
    rw [process_of_none_kept store s hnil, process_of_none_kept store s hnil', hscreen]
  · have hne : (screen ∅ ∅ (batch.map (·.map f))).2 ≠ [] := by
      rw [hkept]
      exact fun heq => hnil (List.map_eq_nil_iff.mp heq)
    have hrequests : ((screen ∅ ∅ batch).2.map (·.map f)).map (·.request) =
        (screen ∅ ∅ batch).2.map (·.request) := by
      rw [List.map_map]
      rfl
    rw [process_of_kept store s hnil, process_of_kept store s hne, hscreen]
    dsimp only
    rw [hrequests, tell_map, List.map_append]

theorem processInMemory_map (f : ρ → τ) (batch : List (Pending ρ)) (m : Memory) :
    processInMemory (batch.map (·.map f)) m =
      ((processInMemory batch m).1.map (·.map f), (processInMemory batch m).2) := by
  unfold processInMemory
  rw [process_map]
  rfl

end Batch

/-! ## Answers with their requests -/

/-- An answer and the request that it is for. -/
abbrev Answer (ρ : Type) := Pending ρ × Outcome

/-- The request, waiting for its own outcome. -/
def Pending.own (p : Pending ρ) : Pending (Pending ρ) := ⟨p.request, p⟩

/-- The answers that a batch gives on the store in memory. -/
def Batch.answers (batch : List (Pending ρ)) (m : Memory) : List (Answer ρ) :=
  (processInMemory (batch.map (·.own)) m).1.map fun d => (d.responder, d.outcome)

/-- The orders that requests are answered with. -/
def Answer.orders (answers : List (Answer ρ)) : List Order := answers.filterMap (·.2.toOption)

/-- The answers are given to the requests of the batch, each once, and they tell truly what the
batch did to the contents of the store. -/
structure Faithful (batch : List (Pending ρ)) (answers : List (Answer ρ))
    (before after : Contents) : Prop where
  perm : (answers.map (·.1)).Perm batch
  /-- Who is answered with an order has asked for it, or for more items of it. -/
  asked : ∀ {p o}, (p, .ok o) ∈ answers →
    o.toHeader = p.request.header ∧ o.items ≠ [] ∧ o.items.Sublist p.request.items
  /-- The orders that are new in the store are those that requests are answered with. -/
  new : ∀ id o, (before.order? id = none ∧ after.order? id = some o) ↔
    ∃ p, (p, .ok o) ∈ answers ∧ p.request.order = id
  old : ∀ id o, before.order? id = some o → after.order? id = some o
  once : ((Answer.orders answers).map (·.id)).Nodup
  /-- Nothing else is added: no header and no item for a request that is answered with an error. -/
  header? : ∀ id, after.header? id =
    (((Answer.orders answers).find? (·.id = id)).map (·.toHeader)).or (before.header? id)
  items : after.items = before.items ++ (Answer.orders answers).flatMap (·.items)

/-! ## Answers are true -/

namespace Contents

variable {c : Contents} {requests : List Request}

theorem sales_ids_sublist (c : Contents) (requests : List Request) :
    ((c.sales (c.admitted requests)).map (·.id)).Sublist (requests.map (·.order)) :=
  (survivingOrders_ids_sublist _ _).trans ((c.admitted_sublist requests).map _)

/-- An order that is sold is sold to the request that asked for it. -/
theorem asked_of_mem_sales (hsep : Separate requests) {o : Order}
    (ho : o ∈ c.sales (c.admitted requests)) {r : Request} (hr : r ∈ requests)
    (hid : o.id = r.order) :
    c.clash r = none ∧ o.toHeader = r.header ∧ o.items ≠ [] ∧ o.items.Sublist r.items := by
  obtain ⟨index, request, hrequest, rfl, hne⟩ := mem_survivingOrders ho
  have hadmitted : request ∈ c.admitted requests := List.mem_of_getElem? hrequest
  have hmem : request ∈ requests := (c.admitted_sublist requests).subset hadmitted
  obtain rfl : request = r := List.inj_on_of_nodup_map hsep.orders_nodup hmem hr hid
  exact ⟨clash_of_mem_admitted hadmitted, rfl, hne, Resolution.survivingItems_sublist _ _ _⟩

/-- A request is answered with the order that is sold to it, if there is one. -/
theorem toOption_outcome (hsep : Separate requests) {r : Request} (hr : r ∈ requests) :
    (Settlement.outcome ⟨c.sales (c.admitted requests), c.turnedAway requests⟩ r).toOption =
      (c.sales (c.admitted requests)).find? (·.id = r.order) := by
  unfold Settlement.outcome
  dsimp only
  rw [c.find?_turnedAway hsep.orders_nodup hr]
  cases hclash : c.clash r with
  | some e =>
      -- a request that is turned away is not sold anything
      symm
      refine List.find?_eq_none.mpr fun o ho heq => ?_
      have hnone := (asked_of_mem_sales hsep ho hr (of_decide_eq_true heq)).1
      rw [hclash] at hnone
      cases hnone
  | none => cases hfind : (c.sales (c.admitted requests)).find? (·.id = r.order) <;> rfl

end Contents

/-- Looked up request by request, orders that come in the sequence of the requests are found in
their own sequence. -/
theorem filterMap_find? {requests : List Request} {orders : List Order}
    (hsub : (orders.map (·.id)).Sublist (requests.map (·.order)))
    (hnd : (requests.map (·.order)).Nodup) :
    requests.filterMap (fun r => orders.find? (·.id = r.order)) = orders := by
  induction requests generalizing orders with
  | nil =>
      rw [List.map_nil, List.sublist_nil, List.map_eq_nil_iff] at hsub
      rw [hsub]
      rfl
  | cons r rs ih =>
      obtain ⟨hr, hnd⟩ : r.order ∉ rs.map (·.order) ∧ (rs.map (·.order)).Nodup :=
        List.nodup_cons.mp hnd
      rw [List.filterMap_cons]
      rcases List.sublist_cons_iff.mp hsub with hsub | ⟨ids, hids, hsub⟩
      · rw [Order.find?_of_not_mem fun hmem => hr (hsub.subset hmem)]
        exact ih hsub hnd
      · obtain ⟨o, os, rfl, hid, rfl⟩ := List.map_eq_cons_iff.mp hids
        have hrest : rs.filterMap (fun r' => (o :: os).find? (·.id = r'.order)) =
            rs.filterMap (fun r' => os.find? (·.id = r'.order)) := by
          refine List.filterMap_congr fun r' hr' => List.find?_cons_of_neg ?_
          intro heq
          apply hr
          rw [← show o.id = r.order from hid, of_decide_eq_true heq]
          exact List.mem_map_of_mem hr'
        have hfirst : (o :: os).find? (·.id = r.order) = some o :=
          List.find?_cons_of_pos (decide_eq_true hid)
        rw [hfirst, hrest, ih hsub hnd]

/-- The orders that requests are answered with are those that are sold, in their own sequence. -/
theorem Contents.filterMap_outcome {c : Contents} {requests : List Request}
    (hsep : Separate requests) :
    requests.filterMap (fun r => (Settlement.outcome
        ⟨c.sales (c.admitted requests), c.turnedAway requests⟩ r).toOption) =
      c.sales (c.admitted requests) := by
  calc requests.filterMap _ = requests.filterMap fun r =>
        (c.sales (c.admitted requests)).find? (·.id = r.order) :=
      List.filterMap_congr fun r hr => toOption_outcome hsep hr
    _ = c.sales (c.admitted requests) :=
      filterMap_find? (c.sales_ids_sublist requests) hsep.orders_nodup

/-- What settling requests comes to is a sale, and each request is answered with its order, if
something is sold to it. -/
theorem Batch.Settled.sale {m after : Memory} {requests : List Request}
    {settled : Except StoreError Settlement} (h : Settled m requests settled after)
    (hsep : Separate requests) :
    ∃ orders, m.contents.Fits orders ∧ m.contents.Sale orders after.contents ∧
      requests.filterMap (fun r => (settledOutcome settled r).toOption) = orders ∧
      ∀ r ∈ requests, ∀ o, settledOutcome settled r = .ok o →
        o.toHeader = r.header ∧ o.items ≠ [] ∧ o.items.Sublist r.items := by
  cases h with
  | failed _ hcore =>
      have hsame : after.contents = m.contents := congrArg (·.1) hcore
      rw [hsame]
      refine ⟨[], .nil _, .nil _, List.filterMap_eq_nil_iff.mpr fun _ _ => rfl, ?_⟩
      intro r _ o heq
      cases heq
  | committed hsale =>
      refine ⟨_, Contents.fits_sales_admitted hsep, hsale, Contents.filterMap_outcome hsep, ?_⟩
      intro r hr o heq
      have hfind := Contents.toOption_outcome (c := m.contents) hsep hr
      rw [show Settlement.outcome _ r = .ok o from heq] at hfind
      have hmem := List.mem_of_find?_eq_some hfind.symm
      have hid : o.id = r.order := by simpa using List.find?_some hfind.symm
      exact (Contents.asked_of_mem_sales hsep hmem hr hid).2

theorem Answer.mem_orders {answers : List (Answer ρ)} {o : Order} :
    o ∈ Answer.orders answers ↔ ∃ p, (p, .ok o) ∈ answers := by
  unfold Answer.orders
  rw [List.mem_filterMap]
  constructor
  · rintro ⟨⟨p, outcome⟩, hmem, heq⟩
    cases outcome with
    | error e => cases heq
    | ok o' =>
        cases heq
        exact ⟨p, hmem⟩
  · rintro ⟨p, hmem⟩
    exact ⟨(p, .ok o), hmem, rfl⟩

/-- Answers are true if the orders in them are what was sold. -/
theorem Faithful.of_sale {batch : List (Pending ρ)} {answers : List (Answer ρ)}
    {before after : Contents} (hperm : (answers.map (·.1)).Perm batch) (hsound : before.Sound)
    (hfit : before.Fits (Answer.orders answers))
    (hsale : before.Sale (Answer.orders answers) after)
    (hasked : ∀ {p o}, (p, .ok o) ∈ answers →
      o.toHeader = p.request.header ∧ o.items ≠ [] ∧ o.items.Sublist p.request.items) :
    Faithful batch answers before after := by
  refine ⟨hperm, hasked, ?_, ?_, hfit.ids_nodup, hsale.header?, hsale.items⟩
  · intro id o
    constructor
    · rintro ⟨hbefore, hafter⟩
      -- an order that was not sold is the same before and after
      by_cases hid : id ∈ (Answer.orders answers).map (·.id)
      · obtain ⟨o', ho', rfl⟩ := List.mem_map.mp hid
        rw [hsale.order?_of_mem hsound hfit ho', Option.some_inj] at hafter
        obtain ⟨p, hp⟩ := Answer.mem_orders.mp ho'
        refine ⟨p, hafter ▸ hp, ?_⟩
        exact (congrArg (·.id) (hasked hp).1).symm
      · rw [hsale.order?_of_not_mem hfit hid, hbefore] at hafter
        cases hafter
    · rintro ⟨p, hp, rfl⟩
      have ho := Answer.mem_orders.mpr ⟨p, hp⟩
      have hid : o.id = p.request.order := congrArg (·.id) (hasked hp).1
      rw [← hid]
      exact ⟨Contents.order?_eq_none_iff.mpr (hfit.id_new o ho), hsale.order?_of_mem hsound hfit ho⟩
  · intro id o hbefore
    have hid : id ∉ (Answer.orders answers).map (·.id) := by
      intro hmem
      obtain ⟨o', ho', rfl⟩ := List.mem_map.mp hmem
      rw [Contents.order?_eq_none_iff.mpr (hfit.id_new o' ho')] at hbefore
      cases hbefore
    rw [hsale.order?_of_not_mem hfit hid, hbefore]

/-- The answers are what is delivered. -/
theorem Batch.processInMemory_answers (batch : List (Pending ρ)) (m : Memory) :
    processInMemory batch m =
      ((answers batch m).map fun a => ⟨a.1.responder, a.2⟩,
        (processInMemory (batch.map (·.own)) m).2) := by
  have hown : (batch.map (·.own)).map (·.map (·.responder)) = batch := by
    rw [List.map_map]
    exact List.map_id _
  calc processInMemory batch m
    _ = processInMemory ((batch.map (·.own)).map (·.map (·.responder))) m := by rw [hown]
    _ = _ := by
      rw [processInMemory_map]
      unfold answers
      rw [List.map_map]
      rfl

/-- The answers of a batch: those of the requests that are screened out, and what the others are
told when they have been settled. -/
theorem Batch.answers_settled {m : Memory} (hsound : m.contents.Sound) {batch : List (Pending ρ)}
    (hne : batch ≠ []) :
    ∃ (rejected : List (Answer ρ)) (kept : List (Pending ρ)) (settled : _),
      Settled m (kept.map (·.request)) settled (processInMemory (batch.map (·.own)) m).2 ∧
      Separate (kept.map (·.request)) ∧
      (rejected.map (·.1) ++ kept).Perm batch ∧
      (∀ a ∈ rejected, ∃ e, a.2 = .error e) ∧
      answers batch m = rejected ++ kept.map fun p => (p, settledOutcome settled p.request) := by
  have hne' : batch.map (·.own) ≠ [] := fun heq => hne (List.map_eq_nil_iff.mp heq)
  have hsep := kept_separate (batch.map (·.own))
  have hperm := @screen_perm _ ∅ ∅ (batch.map (·.own))
  obtain ⟨settled, hsettled, hdeliveries⟩ := processInMemory_settled hsound hne'
  -- who is kept waits for its own outcome
  obtain ⟨kept, -, hkept⟩ := List.sublist_map_iff.mp (screen_kept_sublist (batch.map (·.own)))
  rw [hkept] at hsettled hsep hperm hdeliveries
  simp only [List.map_map] at hsettled hsep hperm
  refine ⟨(screen ∅ ∅ (batch.map (·.own))).1.map fun d => (d.responder, d.outcome), kept, settled,
    hsettled, hsep, ?_, ?_, ?_⟩
  · rw [List.map_map]
    simpa [Function.comp_def, Pending.own] using hperm
  · intro a ha
    obtain ⟨d, hd, rfl⟩ := List.mem_map.mp ha
    obtain ⟨e, heq, -⟩ := screen_rejected hd
    exact ⟨e, heq⟩
  · unfold answers
    rw [hdeliveries, List.map_append]
    unfold tell
    rw [List.map_map, List.map_map]
    rfl

/-- **Answers are true.** Each request of a batch has one answer. Who is answered with an order
finds it in the store, where it was not before, with the header and some of the items asked for;
and besides these orders and their items nothing is added. -/
theorem Batch.answers_faithful {m : Memory} (h : m.Reachable) (batch : List (Pending ρ)) :
    (processInMemory batch m).1 = (answers batch m).map (fun a => ⟨a.1.responder, a.2⟩) ∧
      Faithful batch (answers batch m) m.contents (processInMemory batch m).2.contents := by
  have hdelivered := processInMemory_answers batch m
  refine ⟨congrArg (·.1) hdelivered, ?_⟩
  rw [show (processInMemory batch m).2 = _ from congrArg (·.2) hdelivered]
  by_cases hnil : batch = []
  · subst hnil
    exact .of_sale (.refl _) h.sound (.nil _) (.nil _) fun hmem => absurd hmem List.not_mem_nil
  obtain ⟨rejected, kept, settled, hsettled, hsep, hperm, herror, hanswers⟩ :=
    answers_settled h.sound hnil
  obtain ⟨orders, hfit, hsale, horders, hasked⟩ := hsettled.sale hsep
  -- those who are screened out are not answered with orders
  have hsold : Answer.orders (answers batch m) = orders := by
    have hnone : rejected.filterMap (·.2.toOption) = [] := by
      refine List.filterMap_eq_nil_iff.mpr fun a ha => ?_
      obtain ⟨e, heq⟩ := herror a ha
      rw [heq]
      rfl
    unfold Answer.orders
    rw [hanswers, List.filterMap_append, hnone, ← horders, List.filterMap_map, List.filterMap_map]
    rfl
  refine .of_sale ?_ h.sound (hsold ▸ hfit) (hsold ▸ hsale) ?_
  · rw [hanswers, List.map_append, List.map_map]
    simpa [Function.comp_def] using hperm
  · intro p o hmem
    rw [hanswers, List.mem_append] at hmem
    rcases hmem with hmem | hmem
    · obtain ⟨e, heq⟩ := herror _ hmem
      cases heq
    · obtain ⟨q, hq, heq⟩ := List.mem_map.mp hmem
      obtain ⟨rfl, houtcome⟩ := Prod.mk.inj heq
      exact hasked q.request (List.mem_map_of_mem hq) o houtcome

theorem Batch.answers_faithful_sample :
    (processInMemory Sample.batch Sample.store).1 =
        (answers Sample.batch Sample.store).map (fun a => ⟨a.1.responder, a.2⟩) ∧
      Faithful Sample.batch (answers Sample.batch Sample.store) Sample.store.contents
        (processInMemory Sample.batch Sample.store).2.contents :=
  answers_faithful Sample.store_reachable Sample.batch

example : (Batch.answers Sample.batch Sample.store).map (fun a => (a.1.responder, a.2)) =
    [(2, .error (.duplicateOrder (toString Sample.first.order))),
      (0, .ok (Sample.first.toOrder (Sample.first.items.take 1))), (1, .error .outOfStock)] := by
  rfl

end Checkout
