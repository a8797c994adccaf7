import Checkout.Proofs.Memory.History

/-!
# Conservation of stock

Whatever batches are processed and whatever fails, no piece is sold that was not in stock, and none
is lost: what is in stock of a product and what is sold of it always add up to the same
(`Conserves`). One event keeps that (`conserves_step`), so every history does that does not set
stock (`conserves_run`). For a store that starts without orders this is `stock_eq_add_sold`.
-/

namespace Checkout

namespace Contents

variable {c c' c'' : Contents}

/-- Pieces in stock and pieces sold add up to the same for each product with a stock row; a product
without one is not sold. -/
structure Conserves (c c' : Contents) : Prop where
  stocked : ∀ p, (c'.stock? p).map (·.toNat + pieces p c'.items) =
    (c.stock? p).map (·.toNat + pieces p c.items)
  unstocked : ∀ p, c.stock? p = none → pieces p c'.items = pieces p c.items

namespace Conserves

theorem refl (c : Contents) : Conserves c c := ⟨fun _ => rfl, fun _ _ => rfl⟩

theorem trans (h : Conserves c c') (h' : Conserves c' c'') : Conserves c c'' := by
  refine ⟨fun p => (h'.stocked p).trans (h.stocked p), fun p hp => ?_⟩
  have hp' : c'.stock? p = none := by
    have hsame := h.stocked p
    rw [hp, Option.map_none, Option.map_eq_none_iff] at hsame
    exact hsame
  exact (h'.unstocked p hp').trans (h.unstocked p hp)

end Conserves

theorem Sale.conserves {orders : List Order} (h : Sale c orders c') : Conserves c c' := by
  have hpieces : ∀ p, pieces p c'.items = pieces p c.items + pieces p (sold orders) := by
    intro p
    rw [h.items, pieces_append]
  refine ⟨fun p => ?_, fun p hp => ?_⟩
  -- a sale never adds a row, so a row after it was there before
  · have hstock := h.stock p
    rw [hpieces]
    cases hc : c.stock? p with
    | none =>
        rw [hc, Option.map_none, Option.map_eq_none_iff] at hstock
        rw [hstock]
        rfl
    | some n =>
        rw [hc] at hstock
        obtain ⟨n', hn', hsum⟩ : ∃ n', c'.stock? p = some n' ∧
            n'.toNat + pieces p (sold orders) = n.toNat := Option.map_eq_some_iff.mp hstock
        rw [hn', Option.map_some, Option.map_some, ← hsum]
        congr 1
        omega
  · have hzero : pieces p (sold orders) = 0 := by
      refine pieces_eq_zero fun i hi heq => ?_
      have hsome := h.stocked i hi
      rw [heq, hp] at hsome
      cases hsome
    rw [hpieces, hzero, Nat.add_zero]

end Contents

namespace Memory

open Batch Contents

variable {ρ : Type} {m : Memory}

theorem conserves_step (hsound : m.contents.Sound) {event : Event ρ}
    (hevent : ∀ product quantity, event ≠ .setStock product quantity) :
    m.contents.Conserves (m.step event).contents := by
  cases event with
  | setStock product quantity => exact absurd rfl (hevent product quantity)
  | failOn operation => exact .refl _
  | clearFailures => exact .refl _
  | process batch =>
      show m.contents.Conserves (processInMemory batch m).2.contents
      rcases contents_processInMemory hsound batch with hsame | ⟨orders, -, hsale⟩
      · rw [hsame]
        exact .refl _
      · exact hsale.conserves

theorem conserves_run (hsound : m.contents.Sound) {events : List (Event ρ)}
    (hevents : ∀ product quantity, .setStock product quantity ∉ events) :
    m.contents.Conserves (m.run events).contents := by
  induction events generalizing m with
  | nil => exact .refl _
  | cons event events ih =>
      have hstep : m.contents.Conserves (m.step event).contents := by
        refine conserves_step hsound fun product quantity heq => hevents product quantity ?_
        rw [heq]
        exact List.mem_cons_self
      refine hstep.trans (ih (sound_step hsound event) fun product quantity hmem => ?_)
      exact hevents product quantity (List.mem_cons_of_mem _ hmem)

/-- **No piece is oversold, and none is lost.** A store that starts without orders goes through
batches and failures. At any time, what was in stock of a product at first is what is in stock now
and what has been sold since. A product without a stock row gets none and is never sold. -/
theorem stock_eq_add_sold (hheaders : m.contents.headers = ∅) (hitems : m.contents.items = [])
    {events : List (Event ρ)} (hevents : ∀ product quantity, .setStock product quantity ∉ events)
    (product : ProductId) :
    (∀ initial, m.contents.stock? product = some initial →
      ∃ current, (m.run events).contents.stock? product = some current ∧
        initial.toNat = current.toNat + pieces product (m.run events).contents.items) ∧
    (m.contents.stock? product = none →
      (m.run events).contents.stock? product = none ∧
        ∀ i ∈ (m.run events).contents.items, i.product ≠ product) := by
  have hsound : m.contents.Sound := .of_no_orders hheaders hitems
  have hconserves := conserves_run hsound hevents
  have hstocked := hconserves.stocked product
  have hzero : pieces product m.contents.items = 0 := by rw [hitems, pieces_nil]
  rw [hzero] at hstocked
  constructor
  · intro initial hinitial
    rw [hinitial] at hstocked
    obtain ⟨current, hcurrent, hsum⟩ := Option.map_eq_some_iff.mp hstocked
    exact ⟨current, hcurrent, hsum.symm⟩
  · intro hnone
    rw [hnone, Option.map_none, Option.map_eq_none_iff] at hstocked
    refine ⟨hstocked, fun i hi hproduct => ?_⟩
    have hpos := pieces_pos hi hproduct
    rw [hconserves.unstocked product hnone, hzero] at hpos
    exact absurd hpos (Nat.lt_irrefl 0)

theorem stock_eq_add_sold_sample :
    (∃ current, (Sample.store.run Sample.history).contents.stock? (Sample.id 1) = some current ∧
      (3 : UInt32).toNat = current.toNat +
        pieces (Sample.id 1) (Sample.store.run Sample.history).contents.items) ∧
    (Sample.store.run Sample.history).contents.stock? (Sample.id 2) = none ∧
      ∀ i ∈ (Sample.store.run Sample.history).contents.items, i.product ≠ Sample.id 2 := by
  have hevents : ∀ product quantity, .setStock product quantity ∉ Sample.history := by
    simp [Sample.history]
  constructor
  · exact (stock_eq_add_sold rfl rfl hevents (Sample.id 1)).1 3 rfl
  · exact (stock_eq_add_sold rfl rfl hevents (Sample.id 2)).2 rfl

end Memory

end Checkout
