import Checkout.Proofs.Batch.Calls
import Checkout.Proofs.Batch.Outcome

/-!
# Orders are permanent

An order that is in the store stays there as it is, whatever happens (`order?_run`). A request for
it is not served again, and so of all the requests for one order at most one is ever answered with
it (`granted_nodup_run`). `orders_permanent` puts this together.
-/

namespace Checkout

open Batch

variable {ρ : Type}

namespace Memory

variable {m : Memory} {id : OrderId} {o : Order}

/-! ## Orders that exist -/

theorem order?_step (hsound : m.contents.Sound) (event : Event ρ)
    (ho : m.contents.order? id = some o) : (m.step event).contents.order? id = some o := by
  cases event with
  | setStock product quantity => exact ho
  | failOn operation => exact ho
  | clearFailures => exact ho
  | process batch =>
      show (processInMemory batch m).2.contents.order? id = some o
      rcases contents_processInMemory hsound batch with hsame | ⟨orders, hfit, hsale⟩
      · rw [hsame]
        exact ho
      -- only new orders are sold, and other orders do not change
      · have hid : id ∉ orders.map (·.id) := by
          intro hmem
          obtain ⟨o', ho', rfl⟩ := List.mem_map.mp hmem
          rw [Contents.order?_eq_none_iff.mpr (hfit.id_new o' ho')] at ho
          cases ho
        rw [hsale.order?_of_not_mem hfit hid]
        exact ho

/-- **An order stays in the store, item for item.** -/
theorem order?_run (hsound : m.contents.Sound) (events : List (Event ρ))
    (ho : m.contents.order? id = some o) : (m.run events).contents.order? id = some o := by
  induction events generalizing m with
  | nil => exact ho
  | cons event events ih => exact ih (sound_step hsound event) (order?_step hsound event ho)

end Memory

/-! ## Answers along a history -/

/-- The answers that an event leads to. -/
def Event.answers (m : Memory) : Event ρ → List (Answer ρ)
  | .process batch => Batch.answers batch m
  | .setStock _ _ | .failOn _ | .clearFailures => []

/-- The answers that are given in the course of a history. -/
def Memory.answers (m : Memory) : List (Event ρ) → List (Answer ρ)
  | [] => []
  | event :: events => event.answers m ++ (m.step event).answers events

theorem Memory.run_append (m : Memory) (events more : List (Event ρ)) :
    m.run (events ++ more) = (m.run events).run more := List.foldl_append

theorem Memory.answers_append (m : Memory) (events more : List (Event ρ)) :
    m.answers (events ++ more) = m.answers events ++ (m.run events).answers more := by
  induction events generalizing m with
  | nil => rfl
  | cons event events ih =>
      show event.answers m ++ (m.step event).answers (events ++ more) = _
      rw [ih, ← List.append_assoc]
      rfl

theorem Answer.mem_granted {answers : List (Answer ρ)} {p : Pending ρ} :
    p ∈ Answer.granted answers ↔ ∃ o, (p, .ok o) ∈ answers := by
  unfold Answer.granted
  rw [List.mem_map]
  constructor
  · rintro ⟨⟨q, outcome⟩, hmem, rfl⟩
    obtain ⟨hmem, hok⟩ := List.mem_filter.mp hmem
    cases outcome with
    | error e => cases hok
    | ok o => exact ⟨o, hmem⟩
  · rintro ⟨o, hmem⟩
    exact ⟨(p, .ok o), List.mem_filter.mpr ⟨hmem, rfl⟩, rfl⟩

theorem Answer.granted_append (answers more : List (Answer ρ)) :
    Answer.granted (answers ++ more) = Answer.granted answers ++ Answer.granted more := by
  unfold Answer.granted
  rw [List.filter_append, List.map_append]

namespace Memory

variable {m : Memory} {o : Order} {p : Pending ρ}

theorem order_of_event_answer (hsound : m.contents.Sound) {event : Event ρ}
    (h : (p, .ok o) ∈ event.answers m) :
    m.contents.order? o.id = none ∧ (m.step event).contents.order? o.id = some o ∧
      o.toHeader = p.request.header ∧ o.items ≠ [] ∧ o.items.Sublist p.request.items := by
  cases event with
  | setStock product quantity => cases h
  | failOn operation => cases h
  | clearFailures => cases h
  | process batch => exact order_of_answer hsound h

/-- **An order that a request was answered with** was not in the store at first and is there in the
end. -/
theorem order_of_answers (hsound : m.contents.Sound) {events : List (Event ρ)}
    (h : (p, .ok o) ∈ m.answers events) :
    m.contents.order? o.id = none ∧ (m.run events).contents.order? o.id = some o ∧
      o.toHeader = p.request.header ∧ o.items ≠ [] ∧ o.items.Sublist p.request.items := by
  induction events generalizing m with
  | nil => cases h
  | cons event events ih =>
      have hsound' := sound_step hsound event
      rcases List.mem_append.mp h with h | h
      · obtain ⟨hbefore, hafter, hasked⟩ := order_of_event_answer hsound h
        exact ⟨hbefore, order?_run hsound' events hafter, hasked⟩
      · obtain ⟨hbetween, hafter, hasked⟩ := ih hsound' h
        refine ⟨?_, hafter, hasked⟩
        cases ho : m.contents.order? o.id with
        | none => rfl
        | some o' =>
            rw [order?_step hsound event ho] at hbetween
            cases hbetween

/-- **No order is given twice.** All requests that are answered with an order are for different
ones. -/
theorem granted_nodup_run (hsound : m.contents.Sound) (events : List (Event ρ)) :
    ((Answer.granted (m.answers events)).map (·.request.order)).Nodup := by
  induction events generalizing m with
  | nil => exact List.nodup_nil
  | cons event events ih =>
      unfold Memory.answers
      rw [Answer.granted_append, List.map_append]
      refine List.nodup_append.mpr ⟨?_, ih (sound_step hsound event), ?_⟩
      · cases event with
        | setStock product quantity => exact List.nodup_nil
        | failOn operation => exact List.nodup_nil
        | clearFailures => exact List.nodup_nil
        | process batch => exact granted_nodup hsound batch
      -- what the event gives is in the store before the later answers
      · rintro id hfirst _ hlater rfl
        obtain ⟨p, hp, rfl⟩ := List.mem_map.mp hfirst
        obtain ⟨q, hq, heq⟩ := List.mem_map.mp hlater
        obtain ⟨o, ho⟩ := Answer.mem_granted.mp hp
        obtain ⟨o', ho'⟩ := Answer.mem_granted.mp hq
        obtain ⟨-, hafter, hheader, -⟩ := order_of_event_answer hsound ho
        obtain ⟨hbefore, -, hheader', -⟩ := order_of_answers (sound_step hsound event) ho'
        have hid : o'.id = o.id := by
          calc o'.id = q.request.order := Order.id_eq_order hheader'
            _ = p.request.order := heq
            _ = o.id := (Order.id_eq_order hheader).symm
        rw [hid, hafter] at hbefore
        cases hbefore

/-! ## Requests for orders that exist -/

/-- **A request for an order that exists is not served**, and it is answered with an error. -/
theorem serves_others {id : OrderId} (hsound : m.contents.Sound)
    (ho : m.contents.order? id = some o) (batch : List (Pending ρ)) :
    ∃ requests, Serves batch requests m ∧ (∀ r ∈ requests, r.order ≠ id) ∧
      ∀ p outcome, (p, outcome) ∈ Batch.answers batch m → p.request.order = id →
        ∃ e, outcome = .error e := by
  refine ⟨_, serves_admitted hsound batch, ?_, ?_⟩
  · rintro r hr rfl
    have hnone := (Contents.clash_eq_none (Contents.clash_of_mem_admitted hr)).1
    rw [Contents.order?_eq_none_iff.mpr hnone] at ho
    cases ho
  · rintro p outcome hanswer rfl
    cases outcome with
    | error e => exact ⟨e, rfl⟩
    | ok o' =>
        obtain ⟨hbefore, -, hheader, -⟩ := order_of_answer hsound hanswer
        rw [Order.id_eq_order hheader, ho] at hbefore
        cases hbefore

/-- **Orders are permanent.** Whatever batches a store goes through, whatever is set and whatever
fails: an order in it stays as it is; of all requests for one order at most one is answered with
it; and once an order is in the store, no batch serves a request for it again. -/
theorem orders_permanent (h : m.Reachable) (events : List (Event ρ)) :
    (∀ id o, m.contents.order? id = some o → (m.run events).contents.order? id = some o) ∧
    ((Answer.granted (m.answers events)).map (·.request.order)).Nodup ∧
    (∀ p o, (p, .ok o) ∈ m.answers events →
      (m.run events).contents.order? p.request.order = some o) ∧
    ∀ id o, (m.run events).contents.order? id = some o → ∀ batch : List (Pending ρ),
      ∃ requests, Serves batch requests (m.run events) ∧ (∀ r ∈ requests, r.order ≠ id) ∧
        ∀ p outcome, (p, outcome) ∈ Batch.answers batch (m.run events) → p.request.order = id →
          ∃ e, outcome = .error e := by
  refine ⟨?_, granted_nodup_run h.sound events, ?_, ?_⟩
  · intro id o ho
    exact order?_run h.sound events ho
  · intro p o hanswer
    obtain ⟨-, hafter, hheader, -⟩ := order_of_answers h.sound hanswer
    rw [← Order.id_eq_order hheader]
    exact hafter
  · intro id o ho batch
    exact serves_others (h.run events).sound ho batch

theorem orders_permanent_sample :
    let m := Sample.store.run Sample.history
    let o := Sample.first.toOrder (Sample.first.items.take 1)
    m.contents.order? (Sample.id 1) = some o ∧
    (m.run Sample.history).contents.order? (Sample.id 1) = some o ∧
    ((Answer.granted (m.answers Sample.history)).map (·.request.order)).Nodup ∧
    (∀ p o, (p, .ok o) ∈ m.answers Sample.history →
      (m.run Sample.history).contents.order? p.request.order = some o) ∧
    ∃ requests, Serves Sample.batch requests (m.run Sample.history) ∧
      (∀ r ∈ requests, r.order ≠ Sample.id 1) ∧
      ∀ p outcome, (p, outcome) ∈ Batch.answers Sample.batch (m.run Sample.history) →
        p.request.order = Sample.id 1 → ∃ e, outcome = .error e := by
  intro m o
  have ho : m.contents.order? (Sample.id 1) = some o := by rfl
  obtain ⟨hstays, hnodup, hstored, hserves⟩ :=
    orders_permanent (Sample.store_reachable.run Sample.history) Sample.history
  have hlater := hstays (Sample.id 1) o ho
  exact ⟨ho, hlater, hnodup, hstored, hserves (Sample.id 1) o hlater Sample.batch⟩

end Memory

end Checkout
