import Checkout.Batch
import Mathlib.Data.List.Flatten

/-!
# Screening a batch

Screening parts a batch into requests that are turned away and requests that are kept, and loses
none (`screen_perm`). The kept requests share no order and no item (`screen_separate`), so none of
them stands in the way of another when they are settled together. It does not matter who waits for
the outcome of a request (`screen_map`).
-/

namespace Checkout

variable {σ ρ τ : Type}

/-- Hands a request over to somebody else. -/
def Pending.map (f : ρ → τ) (p : Pending ρ) : Pending τ := ⟨p.request, f p.responder⟩

/-- Hands a delivery over to somebody else. -/
def Delivery.map (f : ρ → τ) (d : Delivery ρ) : Delivery τ := ⟨f d.responder, d.outcome⟩

/-- The failure is that an order or an item is there already. -/
def CheckoutError.isDuplicate : CheckoutError → Bool
  | .duplicateOrder _ | .duplicateItem _ => true
  | _ => false

/-- The requests share no order, and neither in one nor between two of them is an item repeated. -/
structure Separate (requests : List Request) : Prop where
  orders_nodup : (requests.map (·.order)).Nodup
  itemIds_nodup : ((requests.flatMap (·.items)).map (·.id)).Nodup

theorem Separate.sublist {requests rs : List Request} (h : Separate requests)
    (hsub : rs.Sublist requests) : Separate rs where
  orders_nodup := h.orders_nodup.sublist (hsub.map _)
  itemIds_nodup := h.itemIds_nodup.sublist ((List.Sublist.flatMap hsub _).map _)

namespace Batch

variable {orders : IdentifierSet .order} {items : IdentifierSet .item}

theorem clash_eq_none {r : Request} (h : clash orders items r = none) :
    r.order ∉ orders ∧ ∀ i ∈ r.items, i.id ∉ items := by
  unfold clash at h
  split at h
  · cases h
  next hr =>
    refine ⟨hr, fun i hi hmem => ?_⟩
    have hfind := List.find?_eq_none.mp (Option.map_eq_none_iff.mp h) i hi
    exact hfind (decide_eq_true hmem)

/-- A request is turned away as a duplicate. -/
theorem isDuplicate_of_clash {r : Request} {e : CheckoutError}
    (h : clash orders items r = some e) : e.isDuplicate := by
  unfold clash at h
  split at h
  · cases h
    rfl
  · obtain ⟨i, -, rfl⟩ := Option.map_eq_some_iff.mp h
    rfl

/-! ## What is kept -/

theorem screen_cons_of_clash {p : Pending ρ} {ps : List (Pending ρ)} {e : CheckoutError}
    (h : clash orders items p.request = some e) :
    screen orders items (p :: ps) =
      (⟨p.responder, .error e⟩ :: (screen orders items ps).1, (screen orders items ps).2) := by
  rw [screen, h]

theorem screen_cons_of_none {p : Pending ρ} {ps : List (Pending ρ)}
    (h : clash orders items p.request = none) :
    screen orders items (p :: ps) =
      let rest := screen (orders.insert p.request.order)
        (items.insertMany (p.request.items.map (·.id))) ps
      (rest.1, p :: rest.2) := by
  rw [screen, h]

/-- Every request is either turned away or kept. -/
theorem screen_perm (batch : List (Pending ρ)) :
    ((screen orders items batch).1.map (·.responder) ++
      (screen orders items batch).2.map (·.responder)).Perm (batch.map (·.responder)) := by
  induction batch generalizing orders items with
  | nil => exact .refl _
  | cons p ps ih =>
      cases h : clash orders items p.request with
      | some e =>
          rw [screen_cons_of_clash h]
          exact ih.cons p.responder
      | none =>
          rw [screen_cons_of_none h]
          exact List.perm_middle.trans (ih.cons p.responder)

theorem screen_kept_sublist (batch : List (Pending ρ)) :
    (screen orders items batch).2.Sublist batch := by
  induction batch generalizing orders items with
  | nil => exact .refl _
  | cons p ps ih =>
      cases h : clash orders items p.request with
      | some e =>
          rw [screen_cons_of_clash h]
          exact ih.cons p
      | none =>
          rw [screen_cons_of_none h]
          exact ih.cons_cons p

/-- The first request of a batch is kept. -/
theorem screen_kept_ne_nil {batch : List (Pending ρ)} (h : batch ≠ []) :
    (screen ∅ ∅ batch).2 ≠ [] := by
  cases batch with
  | nil => exact absurd rfl h
  | cons p ps =>
      have hnone : clash ∅ ∅ p.request = none := by
        unfold clash
        simp
      rw [screen_cons_of_none hnone]
      exact List.cons_ne_nil _ _

/-- Requests are turned away as duplicates only. -/
theorem screen_rejected {batch : List (Pending ρ)} {d : Delivery ρ}
    (h : d ∈ (screen orders items batch).1) :
    ∃ e, d.outcome = .error e ∧ e.isDuplicate := by
  induction batch generalizing orders items with
  | nil => cases h
  | cons p ps ih =>
      cases hc : clash orders items p.request with
      | some e =>
          rw [screen_cons_of_clash hc] at h
          rcases List.mem_cons.mp h with rfl | h
          · exact ⟨e, rfl, isDuplicate_of_clash hc⟩
          · exact ih h
      | none =>
          rw [screen_cons_of_none hc] at h
          exact ih h

/-- **Kept requests do not clash**: not with what was seen before the batch, and not with each
other. -/
theorem screen_separate (batch : List (Pending ρ)) :
    Separate ((screen orders items batch).2.map (·.request)) ∧
      ∀ p ∈ (screen orders items batch).2,
        p.request.order ∉ orders ∧ ∀ i ∈ p.request.items, i.id ∉ items := by
  induction batch generalizing orders items with
  | nil => exact ⟨⟨List.nodup_nil, List.nodup_nil⟩, fun _ h => absurd h List.not_mem_nil⟩
  | cons p ps ih =>
      cases h : clash orders items p.request with
      | some e =>
          rw [screen_cons_of_clash h]
          exact ih
      | none =>
          rw [screen_cons_of_none h]
          obtain ⟨horder, hitem⟩ := clash_eq_none h
          obtain ⟨hsep, hnew⟩ := @ih (orders.insert p.request.order)
            (items.insertMany (p.request.items.map (·.id)))
          -- what is kept later avoids what was seen and `p` itself
          have horders : ∀ q ∈ (screen (orders.insert p.request.order)
              (items.insertMany (p.request.items.map (·.id))) ps).2,
              q.request.order ∉ orders ∧ q.request.order ≠ p.request.order := by
            intro q hq
            have hnot := (hnew q hq).1
            rw [Std.ExtTreeSet.mem_insert, not_or] at hnot
            exact ⟨hnot.2, fun heq => hnot.1 (Std.compare_eq_iff_eq.mpr heq.symm)⟩
          have hitems : ∀ q ∈ (screen (orders.insert p.request.order)
              (items.insertMany (p.request.items.map (·.id))) ps).2, ∀ i ∈ q.request.items,
              i.id ∉ items ∧ i.id ∉ p.request.items.map (·.id) := by
            intro q hq i hi
            have hnot := (hnew q hq).2 i hi
            rw [Std.ExtTreeSet.mem_insertMany_list, not_or] at hnot
            exact ⟨hnot.1, fun hmem => hnot.2 (List.contains_iff_mem.mpr hmem)⟩
          refine ⟨⟨?_, ?_⟩, ?_⟩
          · refine List.nodup_cons.mpr ⟨fun hmem => ?_, hsep.orders_nodup⟩
            obtain ⟨r, hr, heq⟩ := List.mem_map.mp hmem
            obtain ⟨q, hq, rfl⟩ := List.mem_map.mp hr
            exact (horders q hq).2 heq
          · show ((p.request.items ++ _).map _).Nodup
            rw [List.map_append]
            refine List.nodup_append.mpr ⟨p.request.ids_nodup, hsep.itemIds_nodup, ?_⟩
            rintro a ha b hb rfl
            obtain ⟨i, hi, rfl⟩ := List.mem_map.mp hb
            obtain ⟨r, hr, hi⟩ := List.mem_flatMap.mp hi
            obtain ⟨q, hq, rfl⟩ := List.mem_map.mp hr
            exact (hitems q hq i hi).2 ha
          · intro q hq
            rcases List.mem_cons.mp hq with rfl | hq
            · exact ⟨horder, hitem⟩
            · exact ⟨(horders q hq).1, fun i hi => (hitems q hq i hi).1⟩

theorem kept_separate (batch : List (Pending ρ)) :
    Separate ((screen ∅ ∅ batch).2.map (·.request)) := (screen_separate batch).1

/-- **Requests that do not clash are all kept.** -/
theorem screen_of_separate {batch : List (Pending ρ)} (hsep : Separate (batch.map (·.request)))
    (hnew : ∀ p ∈ batch, p.request.order ∉ orders ∧ ∀ i ∈ p.request.items, i.id ∉ items) :
    screen orders items batch = ([], batch) := by
  induction batch generalizing orders items with
  | nil => rfl
  | cons p ps ih =>
      have hnone : clash orders items p.request = none := by
        obtain ⟨horder, hitem⟩ := hnew p List.mem_cons_self
        unfold clash
        simpa [horder] using hitem
      have horders := hsep.orders_nodup
      have hitems := hsep.itemIds_nodup
      simp only [List.map_cons, List.flatMap_cons, List.map_append] at horders hitems
      have hrest := hsep.sublist (List.sublist_cons_self p.request (ps.map (·.request)))
      rw [screen_cons_of_none hnone, ih hrest]
      intro q hq
      obtain ⟨horder, hitem⟩ := hnew q (List.mem_cons_of_mem p hq)
      refine ⟨?_, fun i hi => ?_⟩
      · rw [Std.ExtTreeSet.mem_insert, Std.compare_eq_iff_eq, not_or]
        refine ⟨fun heq => ?_, horder⟩
        rw [heq] at horders
        exact (List.nodup_cons.mp horders).1
          (List.mem_map_of_mem (List.mem_map_of_mem hq))
      · rw [Std.ExtTreeSet.mem_insertMany_list, List.contains_iff_mem, not_or]
        refine ⟨hitem i hi, fun hmem => ?_⟩
        refine (List.nodup_append.mp hitems).2.2 i.id hmem i.id ?_ rfl
        exact List.mem_map_of_mem (List.mem_flatMap.mpr ⟨_, List.mem_map_of_mem hq, hi⟩)

/-! ## One batch after the other -/

/-- What has been seen when some more requests have been kept. -/
def seen (orders : IdentifierSet .order) (items : IdentifierSet .item) :
    List (Pending ρ) → IdentifierSet .order × IdentifierSet .item
  | [] => (orders, items)
  | p :: ps => seen (orders.insert p.request.order)
      (items.insertMany (p.request.items.map (·.id))) ps

theorem screen_append (pre post : List (Pending ρ)) :
    screen orders items (pre ++ post) =
      let before := screen orders items pre
      let after := screen (seen orders items before.2).1 (seen orders items before.2).2 post
      (before.1 ++ after.1, before.2 ++ after.2) := by
  induction pre generalizing orders items with
  | nil => rfl
  | cons p ps ih =>
      rw [List.cons_append]
      cases h : clash orders items p.request with
      | some e =>
          rw [screen_cons_of_clash h, screen_cons_of_clash h, ih]
          rfl
      | none =>
          rw [screen_cons_of_none h, screen_cons_of_none h]
          dsimp only
          rw [ih]
          rfl

/-! ## Who waits for an outcome does not matter -/

theorem screen_map (f : ρ → τ) (batch : List (Pending ρ)) :
    screen orders items (batch.map (·.map f)) =
      ((screen orders items batch).1.map (·.map f),
        (screen orders items batch).2.map (·.map f)) := by
  induction batch generalizing orders items with
  | nil => rfl
  | cons p ps ih =>
      rw [List.map_cons]
      cases h : clash orders items p.request with
      | some e =>
          rw [screen_cons_of_clash h, screen_cons_of_clash (p := p.map f) h, ih]
          rfl
      | none =>
          rw [screen_cons_of_none h, screen_cons_of_none (p := p.map f) h]
          show (_, p.map f :: _) = _
          dsimp only
          rw [show (p.map f).request = p.request from rfl, ih]
          rfl

end Batch

end Checkout
