import Checkout.Proofs.Batch.Precedence
import Checkout.Proofs.Batch.Withdrawal
import Checkout.Proofs.Memory.Permanence
import Mathlib.Algebra.Order.BigOperators.Group.List
import Mathlib.Algebra.Order.Group.Nat

/-!
# Batches in windows

A sequence of requests can be processed as one batch, or cut into windows that are processed one
after the other. Cutting can only help: whatever is sold of the one batch is sold of the windows as
well (`sold_of_cut`). For what is left in stock behind a window is at least what was there before,
less what the window asks for (`stock_le_add_pieces`), while in the one batch an item has to do with
what is left by all that has been asked for before it (`mem_sold_sales_iff`).
-/

namespace Checkout

open Batch

variable {ρ : Type}

/-! ## What is sold of separate requests -/

namespace Contents

open Ledger Resolution

variable {c c' : Contents} {requests later : List Request}

/-- The pieces of a product that are in stock. -/
def inStock (c : Contents) (product : ProductId) : Nat := ((c.stock? product).getD 0).toNat

/-- **An item is sold exactly if the stock does for it and all that is asked for before it.** -/
theorem mem_sold_sales_iff {i : Item} :
    i ∈ sold (c.sales requests) ↔ ∃ before after,
      requests.flatMap (·.items) = before ++ i :: after ∧
        pieces i.product (before ++ [i]) ≤ c.inStock i.product := by
  show i ∈ sold (survivingOrders _ _) ↔ _
  rw [sold_survivingOrders, ← Arrival.map_item_ofRequests 0]
  unfold survivors surviving
  simp only [List.mem_map, List.mem_filter]
  constructor
  · rintro ⟨a, ⟨ha, hkept⟩, rfl⟩
    obtain ⟨before, after, h⟩ := List.append_of_mem ha
    refine ⟨before.map (·.item), after.map (·.item), ?_, ?_⟩
    · show (Arrival.ofBatch requests).map _ = _
      simp [h]
    · apply Nat.le_of_not_lt
      intro hlt
      have hevicted := (isEvicted_resolution_iff (c := c) h).mpr (by simpa [inStock] using hlt)
      simp [hevicted] at hkept
  · rintro ⟨before, after, hitems, hle⟩
    obtain ⟨before, rest, h, rfl, hrest⟩ := List.map_eq_append_iff.mp hitems
    obtain ⟨a, after, rfl, rfl, -⟩ := List.map_eq_cons_iff.mp hrest
    have h' : Arrival.ofBatch requests = before ++ a :: after := h
    refine ⟨a, ⟨?_, ?_⟩, rfl⟩
    · simp [h']
    · rw [Bool.not_eq_true', ← Bool.not_eq_true, isEvicted_resolution_iff h', Nat.not_lt]
      simpa [inStock] using hle

/-! ## What a window leaves -/

theorem pieces_le_of_sublist (product : ProductId) {items more : List Item}
    (h : items.Sublist more) : pieces product items ≤ pieces product more :=
  ((h.filter _).map _).sum_le_sum fun _ _ => Nat.zero_le _

/-- A window takes no more from the stock than it asks for. -/
theorem inStock_le_add_pieces (h : c.Sale (c.sales requests) c') (product : ProductId) :
    c.inStock product ≤ c'.inStock product + pieces product (requests.flatMap (·.items)) := by
  have hasked := pieces_le_of_sublist product (c.sold_sales_sublist requests)
  have hstock := h.stock product
  unfold inStock
  cases hc : c.stock? product with
  | none => simp
  | some n =>
      rw [hc] at hstock
      obtain ⟨n', hn', hsum⟩ : ∃ n', c'.stock? product = some n' ∧
          n'.toNat + pieces product (sold (c.sales requests)) = n.toNat :=
        Option.map_eq_some_iff.mp hstock
      simp only [hn', Option.getD_some]
      omega

/-- The requests are for orders and items that do not exist yet, all of them different. -/
structure Fresh (c : Contents) (requests : List Request) : Prop where
  separate : Separate requests
  order_new : ∀ r ∈ requests, c.header? r.order = none
  item_new : ∀ r ∈ requests, ∀ i ∈ r.items, c.hasItem i.id = false

namespace Fresh

theorem admitted_eq (h : Fresh c requests) : c.admitted requests = requests := by
  refine List.filter_eq_self.mpr fun r hr => ?_
  have hitem := h.item_new r hr
  unfold clash
  simpa [h.order_new r hr] using hitem

theorem left (h : Fresh c (requests ++ later)) : Fresh c requests where
  separate := h.separate.sublist (List.sublist_append_left _ _)
  order_new r hr := h.order_new r (List.mem_append_left _ hr)
  item_new r hr := h.item_new r (List.mem_append_left _ hr)

/-- What is new behind a window is still new when the window has been sold. -/
theorem rest (h : Fresh c (requests ++ later)) (hsale : c.Sale (c.sales requests) c') :
    Fresh c' later := by
  have horders := h.separate.orders_nodup
  have hitems := h.separate.itemIds_nodup
  rw [List.map_append] at horders
  rw [List.flatMap_append, List.map_append] at hitems
  refine ⟨h.separate.sublist (List.sublist_append_right _ _), fun r hr => ?_, fun r hr i hi => ?_⟩
  · have hother : r.order ∉ (c.sales requests).map (·.id) := fun hmem =>
      (List.nodup_append.mp horders).2.2 r.order
        ((survivingOrders_ids_sublist _ _).subset hmem) r.order (List.mem_map_of_mem hr) rfl
    rw [hsale.header?, Order.find?_of_not_mem hother]
    exact h.order_new r (List.mem_append_right _ hr)
  · refine hasItem_eq_false fun j hj heq => ?_
    rw [hsale.items] at hj
    rcases List.mem_append.mp hj with hj | hj
    · have hnew := h.item_new r (List.mem_append_right _ hr) i hi
      rw [hasItem_iff.mpr ⟨j, hj, heq⟩] at hnew
      cases hnew
    · refine (List.nodup_append.mp hitems).2.2 j.id ?_ i.id ?_ heq
      · exact List.mem_map_of_mem ((c.sold_sales_sublist requests).subset hj)
      · exact List.mem_map_of_mem (List.mem_flatMap.mpr ⟨r, hr, hi⟩)

end Fresh

end Contents

/-! ## One window after the other -/

/-- An element of two lists in a row is in the first one or behind it. -/
theorem split_at {α : Type} {xs ys before after : List α} {a : α}
    (h : xs ++ ys = before ++ a :: after) :
    (∃ more, xs = before ++ a :: more) ∨
      ∃ more, before = xs ++ more ∧ ys = more ++ a :: after := by
  rcases List.append_eq_append_iff.mp h with ⟨more, hbefore, hys⟩ | ⟨more, hxs, hafter⟩
  · exact .inr ⟨more, hbefore, hys⟩
  · cases more with
    | nil => exact .inr ⟨[], by simpa using hxs.symm, hafter.symm⟩
    | cons b more =>
        obtain ⟨rfl, -⟩ := List.cons.inj hafter
        exact .inl ⟨more, hxs⟩

namespace Memory

variable {m : Memory} {windows : List (List (Pending ρ))}

/-- A batch of new requests makes the sales of all of them. -/
theorem sale_of_fresh (hsound : m.contents.Sound) (hfailing : m.failing = [])
    {batch : List (Pending ρ)} (hfresh : m.contents.Fresh (batch.map (·.request))) :
    m.contents.Sale (m.contents.sales (batch.map (·.request)))
      (processInMemory batch m).2.contents := by
  have hsale := (processInMemory_committed hsound hfailing batch).2
  have hkept : screen ∅ ∅ batch = ([], batch) :=
    screen_of_separate hfresh.separate fun _ _ =>
      ⟨Std.ExtTreeSet.not_mem_empty, fun _ _ => Std.ExtTreeSet.not_mem_empty⟩
  unfold settlement at hsale
  rw [hkept, hfresh.admitted_eq] at hsale
  exact hsale

/-- What has been sold stays sold. -/
theorem items_run (hsound : m.contents.Sound) (events : List (Event ρ)) {i : Item}
    (hi : i ∈ m.contents.items) : i ∈ (m.run events).contents.items := by
  induction events generalizing m with
  | nil => exact hi
  | cons event events ih =>
      refine ih (sound_step hsound event) ?_
      cases event with
      | process batch =>
          show i ∈ (processInMemory batch m).2.contents.items
          rcases contents_processInMemory hsound batch with hsame | ⟨orders, -, hsale⟩
          · simpa [hsame] using hi
          · simp [hsale.items, hi]
      | _ => exact hi

/-- **An item is sold of some window** if the stock at first does for it and all that is asked for
before it in all windows. -/
theorem mem_items_run (hm : m.Reachable) (hfailing : m.failing = [])
    (hfresh : m.contents.Fresh (windows.flatten.map (·.request))) {before after : List Item}
    {i : Item} (hitems : (windows.flatten.map (·.request)).flatMap (·.items) = before ++ i :: after)
    (hle : pieces i.product (before ++ [i]) ≤ m.contents.inStock i.product) :
    i ∈ (m.run (windows.map .process)).contents.items := by
  induction windows generalizing m before with
  | nil => simp at hitems
  | cons window windows ih =>
      rw [List.flatten_cons, List.map_append] at hfresh hitems
      have hsale := sale_of_fresh hm.sound hfailing hfresh.left
      have hnext := hm.step (.process window)
      show i ∈ ((m.step (.process window)).run (windows.map .process)).contents.items
      rw [List.flatMap_append] at hitems
      rcases split_at hitems with ⟨more, hwindow⟩ | ⟨more, hbefore, hrest⟩
      -- the item is asked for in this window
      · have hsold := Contents.mem_sold_sales_iff.mpr ⟨before, more, hwindow, hle⟩
        refine items_run hnext.sound _ ?_
        show i ∈ (processInMemory window m).2.contents.items
        rw [hsale.items]
        exact List.mem_append_right _ hsold
      -- or behind it
      · refine ih hnext ((failing_processInMemory hm.sound window).trans hfailing)
          (hfresh.rest hsale) hrest ?_
        have hstock := Contents.inStock_le_add_pieces hsale i.product
        rw [hbefore] at hle
        simp only [pieces_append] at hle ⊢
        show _ ≤ (processInMemory window m).2.contents.inStock i.product
        omega

/-! ## Cutting a batch -/

/-- Only requests of a window are answered. -/
theorem mem_flatten_of_answer {p : Pending ρ} {outcome : Outcome}
    (h : (p, outcome) ∈ m.answers (windows.map .process)) : p ∈ windows.flatten := by
  induction windows generalizing m with
  | nil => cases h
  | cons window windows ih =>
      rw [List.flatten_cons, List.mem_append]
      rcases List.mem_append.mp h with h | h
      · exact .inl ((answers_perm window m).subset (List.mem_map_of_mem h))
      · exact .inr (ih h)

/-- The requests of the first window are answered as in the one batch. -/
theorem answer_iff_of_mem_first (hsound : m.contents.Sound) (hfailing : m.failing = [])
    {first : List (Pending ρ)} {p : Pending ρ} (hp : p ∈ first)
    (hnd : ((first :: windows).flatten.map (·.request.order)).Nodup) (outcome : Outcome) :
    (p, outcome) ∈ Batch.answers (first :: windows).flatten m ↔
      (p, outcome) ∈ m.answers ((first :: windows).map .process) := by
  have hbehind : p ∉ windows.flatten := by
    rw [List.flatten_cons, List.map_append] at hnd
    exact fun hmem => (List.nodup_append.mp hnd).2.2 _ (List.mem_map_of_mem hp) _
      (List.mem_map_of_mem hmem) rfl
  obtain ⟨later, hfor, hperm, -, -⟩ := Batch.answers_append hsound hfailing first windows.flatten
  have hlater : (p, outcome) ∉ later :=
    fun hmem => hbehind (hfor.subset (List.mem_map_of_mem hmem))
  have hwindows : (p, outcome) ∉ (m.step (.process first)).answers (windows.map .process) :=
    fun hmem => hbehind (mem_flatten_of_answer hmem)
  calc (p, outcome) ∈ Batch.answers (first :: windows).flatten m
    _ ↔ (p, outcome) ∈ Batch.answers first m ++ later := by
      rw [List.flatten_cons, hperm.mem_iff]
    _ ↔ (p, outcome) ∈ Batch.answers first m := by simp [hlater]
    _ ↔ (p, outcome) ∈ Batch.answers first m ++
        (m.step (.process first)).answers (windows.map .process) := by simp [hwindows]

/-- **Cutting a batch into windows can only help.** New requests are processed as one batch, or cut
into windows that are processed one after the other. Each item that is sold of the one batch is
also sold of the windows, and the requests of the first window get the same answers. -/
theorem sold_of_cut (hm : m.Reachable) (hfailing : m.failing = [])
    (hfresh : m.contents.Fresh (windows.flatten.map (·.request))) :
    (∀ i ∈ (processInMemory windows.flatten m).2.contents.items,
      i ∈ (m.run (windows.map .process)).contents.items) ∧
    ∀ first ∈ windows.head?, ∀ p ∈ first, ∀ outcome,
      (p, outcome) ∈ Batch.answers windows.flatten m ↔
        (p, outcome) ∈ m.answers (windows.map .process) := by
  constructor
  · intro i hi
    rw [(sale_of_fresh hm.sound hfailing hfresh).items] at hi
    rcases List.mem_append.mp hi with hold | hsold
    · exact items_run hm.sound _ hold
    · obtain ⟨before, after, hitems, hle⟩ := Contents.mem_sold_sales_iff.mp hsold
      exact mem_items_run hm hfailing hfresh hitems hle
  · intro first hfirst p hp outcome
    cases windows with
    | nil => cases hfirst
    | cons window windows =>
        cases hfirst
        have hnd := hfresh.separate.orders_nodup
        rw [List.map_map] at hnd
        exact answer_iff_of_mem_first hm.sound hfailing hp hnd outcome

theorem sold_of_cut_sample :
    let windows := [Sample.batch.take 1, (Sample.batch.drop 1).take 1]
    Sample.store.failing = [] ∧
    Sample.store.contents.Fresh (windows.flatten.map (·.request)) ∧
    (∀ i ∈ (processInMemory windows.flatten Sample.store).2.contents.items,
      i ∈ (Sample.store.run (windows.map .process)).contents.items) ∧
    ∀ p ∈ Sample.batch.take 1, ∀ outcome,
      (p, outcome) ∈ Batch.answers windows.flatten Sample.store ↔
        (p, outcome) ∈ Sample.store.answers (windows.map .process) := by
  intro windows
  have hfresh : Sample.store.contents.Fresh (windows.flatten.map (·.request)) := by
    refine ⟨⟨by decide, by decide⟩, by decide, by decide⟩
  obtain ⟨hitems, hfirst⟩ := sold_of_cut Sample.store_reachable rfl hfresh
  exact ⟨rfl, hfresh, hitems, hfirst _ rfl⟩

end Memory

/-- A request that asks for too much is in the way of another in the same window, and only there. -/
example :
    let m := Memory.empty.setStock (Sample.id 1) 1
    let batch : List (Pending Nat) := [⟨Sample.first, 0⟩, ⟨Sample.follower, 1⟩]
    (processInMemory batch m).2.contents.items = [] ∧
    (m.run [.process (batch.take 1), .process (batch.drop 1)]).contents.items =
      Sample.follower.items := by
  exact ⟨rfl, rfl⟩

end Checkout
