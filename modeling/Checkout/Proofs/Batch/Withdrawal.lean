import Checkout.Proofs.Batch.Outcome

/-!
# Withdrawing a request

A request that is turned away as a duplicate is compared with one that was never made: is a batch
without it the same to everybody else? It is if the request is screened out, because screening
remembers only what it keeps. A request that the store turns away was kept by the screening, so its
identifiers stand in the way of later requests of the batch. If none of these shares one, nobody
else notices the request either (`perm_of_withdrawn`). Otherwise somebody may
(`turned_away_blocks_another`).
-/

namespace Checkout

open Batch

variable {ρ : Type}

/-- The requests are for one order, or have an item in common. -/
def Request.Shares (r r' : Request) : Prop :=
  r.order = r'.order ∨ ∃ i ∈ r.items, ∃ j ∈ r'.items, i.id = j.id

namespace Batch

variable {orders orders' : IdentifierSet .order} {items items' : IdentifierSet .item}
  {pre post : List (Pending ρ)} {p : Pending ρ} {e : CheckoutError}

/-! ## Screening without a request -/

theorem clash_congr {r : Request} (horder : r.order ∈ orders ↔ r.order ∈ orders')
    (hitem : ∀ i ∈ r.items, i.id ∈ items ↔ i.id ∈ items') :
    clash orders items r = clash orders' items' r := by
  have hfind : r.items.find? (fun i => decide (i.id ∈ items)) =
      r.items.find? (fun i => decide (i.id ∈ items')) :=
    List.find?_congr fun i hi => decide_eq_decide.mpr (hitem i hi)
  unfold clash
  rw [hfind]
  simp only [horder]

/-- Screening asks no more of what was seen than whether the identifiers of the batch are in it. -/
theorem screen_congr {batch : List (Pending ρ)}
    (horder : ∀ q ∈ batch, q.request.order ∈ orders ↔ q.request.order ∈ orders')
    (hitem : ∀ q ∈ batch, ∀ i ∈ q.request.items, i.id ∈ items ↔ i.id ∈ items') :
    screen orders items batch = screen orders' items' batch := by
  induction batch generalizing orders orders' items items' with
  | nil => rfl
  | cons q qs ih =>
      have hclash : clash orders items q.request = clash orders' items' q.request :=
        clash_congr (horder q List.mem_cons_self) (hitem q List.mem_cons_self)
      have horder' : ∀ q' ∈ qs, q'.request.order ∈ orders ↔ q'.request.order ∈ orders' :=
        fun q' hq' => horder q' (List.mem_cons_of_mem _ hq')
      have hitem' : ∀ q' ∈ qs, ∀ i ∈ q'.request.items, i.id ∈ items ↔ i.id ∈ items' :=
        fun q' hq' => hitem q' (List.mem_cons_of_mem _ hq')
      cases h : clash orders items q.request with
      | some e =>
          rw [screen_cons_of_clash h, screen_cons_of_clash (hclash ▸ h), ih horder' hitem']
      | none =>
          rw [screen_cons_of_none h, screen_cons_of_none (hclash ▸ h)]
          dsimp only
          rw [ih]
          · intro q' hq'
            rw [Std.ExtTreeSet.mem_insert, Std.ExtTreeSet.mem_insert, horder' q' hq']
          · intro q' hq' i hi
            rw [Std.ExtTreeSet.mem_insertMany_list, Std.ExtTreeSet.mem_insertMany_list,
              hitem' q' hq' i hi]

/-- The request is screened out behind those that come before it. -/
def Repeats (pre : List (Pending ρ)) (p : Pending ρ) (e : CheckoutError) : Prop :=
  clash (seen ∅ ∅ (screen ∅ ∅ pre).2).1 (seen ∅ ∅ (screen ∅ ∅ pre).2).2 p.request = some e

/-- A request that is screened out leaves no trace in the rest of the screening. -/
theorem screen_of_repeats (h : Repeats pre p e) (post : List (Pending ρ)) :
    ∃ rejected rejected',
      screen ∅ ∅ (pre ++ p :: post) =
        (rejected ++ ⟨p.responder, .error e⟩ :: rejected', (screen ∅ ∅ (pre ++ post)).2) ∧
      (screen ∅ ∅ (pre ++ post)).1 = rejected ++ rejected' := by
  rw [screen_append, screen_append]
  dsimp only
  rw [screen_cons_of_clash h]
  exact ⟨_, _, rfl, rfl⟩

/-- A request that is kept leaves no trace either if no later one shares an identifier with it. -/
theorem screen_of_not_repeats (h : ∀ e, ¬ Repeats pre p e)
    (hpost : ∀ q ∈ post, ¬ q.request.Shares p.request) :
    ∃ rejected kept kept',
      screen ∅ ∅ (pre ++ p :: post) = (rejected, kept ++ p :: kept') ∧
      screen ∅ ∅ (pre ++ post) = (rejected, kept ++ kept') := by
  have hnone : clash (seen ∅ ∅ (screen ∅ ∅ pre).2).1 (seen ∅ ∅ (screen ∅ ∅ pre).2).2 p.request =
      none := Option.eq_none_iff_forall_ne_some.mpr h
  rw [screen_append, screen_append]
  dsimp only
  rw [screen_cons_of_none hnone]
  dsimp only
  generalize seen ∅ ∅ (screen ∅ ∅ pre).2 = s
  have hsame : screen (s.1.insert p.request.order)
      (s.2.insertMany (p.request.items.map (·.id))) post = screen s.1 s.2 post := by
    refine screen_congr ?_ ?_
    · intro q hq
      rw [Std.ExtTreeSet.mem_insert, Std.compare_eq_iff_eq]
      exact or_iff_right fun heq => hpost q hq (.inl heq.symm)
    · intro q hq i hi
      rw [Std.ExtTreeSet.mem_insertMany_list, List.contains_iff_mem]
      refine or_iff_left fun hmem => ?_
      obtain ⟨j, hj, heq⟩ := List.mem_map.mp hmem
      exact hpost q hq (.inr ⟨i, hi, j, hj, heq.symm⟩)
  rw [hsame]
  exact ⟨_, _, _, rfl, rfl⟩

end Batch

/-! ## Settling without a request -/

namespace Contents

variable {c c₁ c₂ : Contents} {requests requests' : List Request} {r : Request}
  {e : CheckoutError}

/-- The same stock, the same orders, and the same items in the same sequence. -/
structure Agree (c₁ c₂ : Contents) : Prop where
  stock? : ∀ p, c₁.stock? p = c₂.stock? p
  order? : ∀ id, c₁.order? id = c₂.order? id
  items : c₁.items = c₂.items

/-- Contents change in one way only when orders are sold from them. -/
theorem Sale.agree {orders : List Order} (h₁ : c.Sale orders c₁) (h₂ : c.Sale orders c₂) :
    Agree c₁ c₂ := by
  have hitems : c₁.items = c₂.items := h₁.items.trans h₂.items.symm
  refine ⟨fun p => ?_, fun id => ?_, hitems⟩
  · have hinj : Function.Injective fun q : UInt32 => q.toNat + pieces p (sold orders) := by
      intro q q' h
      exact UInt32.toNat.inj (Nat.add_right_cancel h)
    exact Option.map_injective hinj ((h₁.stock p).trans (h₂.stock p).symm)
  · unfold Contents.order?
    rw [h₁.header?, h₂.header?, hitems]

/-- Among different orders, a request that is told it is a duplicate clashes with the contents. -/
theorem clash_of_outcome {orders : List Order} (hnd : (requests.map (·.order)).Nodup)
    (hr : r ∈ requests) (he : e.isDuplicate)
    (h : Settlement.outcome ⟨orders, c.turnedAway requests⟩ r = .error e) : c.clash r = some e := by
  unfold Settlement.outcome at h
  dsimp only at h
  rw [c.find?_turnedAway hnd hr] at h
  cases hclash : c.clash r with
  | some e' =>
      rw [hclash] at h
      cases h
      rfl
  | none =>
      rw [hclash] at h
      dsimp only [Option.map_none] at h
      split at h
      · cases h
      · cases h
        cases he

/-- A request for another order makes no difference to what a request is told. -/
theorem outcome_without {orders : List Order} {w : Request} (h : r.order ≠ w.order) :
    Settlement.outcome ⟨orders, c.turnedAway (requests ++ w :: requests')⟩ r =
      Settlement.outcome ⟨orders, c.turnedAway (requests ++ requests')⟩ r := by
  have hfind : (c.turnedAway (requests ++ w :: requests')).find? (·.1 = r.order) =
      (c.turnedAway (requests ++ requests')).find? (·.1 = r.order) := by
    unfold turnedAway
    rw [List.filterMap_append, List.filterMap_append, List.find?_append, List.find?_append,
      List.filterMap_cons]
    cases c.clash w with
    | none => rfl
    | some e =>
        dsimp only [Option.map_some]
        rw [List.find?_cons_of_neg]
        simpa using h.symm
  unfold Settlement.outcome
  rw [hfind]

/-- A request that clashes is not admitted, so without it the same requests are. -/
theorem admitted_without {w : Request} (h : c.clash w = some e) :
    c.admitted (requests ++ w :: requests') = c.admitted (requests ++ requests') := by
  unfold admitted
  rw [List.filter_append, List.filter_append, List.filter_cons_of_neg]
  rw [h]
  exact Bool.false_ne_true

end Contents

namespace Batch

variable {m : Memory} {batch pre post : List (Pending ρ)} {p : Pending ρ} {e : CheckoutError}

/-- Everybody waits for one outcome only. -/
theorem delivery_unique (hown : (batch.map (·.responder)).Nodup) {d d' : Delivery ρ}
    (hd : d ∈ (processInMemory batch m).1) (hd' : d' ∈ (processInMemory batch m).1)
    (h : d.responder = d'.responder) : d = d' := by
  have hperm := process_perm Memory.store batch ⟨m, m.contents⟩
  exact List.inj_on_of_nodup_map (hperm.nodup_iff.mpr hown) hd hd' h

/-- A request that is screened out can be left out of the batch. -/
theorem perm_of_repeats (hsound : m.contents.Sound) (hfailing : m.failing = [])
    (h : Repeats pre p e) (post : List (Pending ρ)) :
    (processInMemory (pre ++ p :: post) m).1.Perm
        (⟨p.responder, .error e⟩ :: (processInMemory (pre ++ post) m).1) ∧
      (processInMemory (pre ++ p :: post) m).2.contents.Agree
        (processInMemory (pre ++ post) m).2.contents := by
  obtain ⟨rejected, rejected', hwith, hwithout⟩ := screen_of_repeats h post
  obtain ⟨hdeliveries, hsale⟩ := processInMemory_committed hsound hfailing (pre ++ p :: post)
  obtain ⟨hdeliveries', hsale'⟩ := processInMemory_committed hsound hfailing (pre ++ post)
  rw [hwith] at hdeliveries hsale
  refine ⟨?_, hsale.agree hsale'⟩
  rw [hdeliveries, hdeliveries', hwithout]
  dsimp only
  rw [List.append_assoc, List.append_assoc]
  exact List.perm_middle

/-- A request that the store turns away can be left out of the batch if no later request shares an
identifier with it. -/
theorem perm_of_clash (hsound : m.contents.Sound) (hfailing : m.failing = [])
    (h : ∀ e, ¬ Repeats pre p e) (hclash : m.contents.clash p.request = some e)
    (hpost : ∀ q ∈ post, ¬ q.request.Shares p.request) :
    (processInMemory (pre ++ p :: post) m).1.Perm
        (⟨p.responder, settledOutcome
            (.ok (settlement m.contents (screen ∅ ∅ (pre ++ p :: post)).2)) p.request⟩ ::
          (processInMemory (pre ++ post) m).1) ∧
      (processInMemory (pre ++ p :: post) m).2.contents.Agree
        (processInMemory (pre ++ post) m).2.contents := by
  obtain ⟨rejected, kept, kept', hwith, hwithout⟩ := screen_of_not_repeats h hpost
  obtain ⟨hdeliveries, hsale⟩ := processInMemory_committed hsound hfailing (pre ++ p :: post)
  obtain ⟨hdeliveries', hsale'⟩ := processInMemory_committed hsound hfailing (pre ++ post)
  have horders := (kept_separate (pre ++ p :: post)).orders_nodup
  rw [hwith] at hdeliveries hsale horders
  rw [hwithout] at hdeliveries' hsale'
  rw [hwith]
  dsimp only at *
  -- the requests that are admitted are the same, so the same is sold
  have hsold : (settlement m.contents (kept ++ p :: kept')).persisted =
      (settlement m.contents (kept ++ kept')).persisted := by
    unfold settlement
    dsimp only
    rw [List.map_append, List.map_append, List.map_cons, Contents.admitted_without hclash]
  rw [hsold] at hsale
  refine ⟨?_, hsale.agree hsale'⟩
  -- and all others are told the same
  have htell : ∀ q ∈ kept ++ kept',
      settledOutcome (.ok (settlement m.contents (kept ++ p :: kept'))) q.request =
        settledOutcome (.ok (settlement m.contents (kept ++ kept'))) q.request := by
    intro q hq
    have hne : q.request.order ≠ p.request.order := by
      rw [List.map_map] at horders
      have hmiddle := (List.perm_middle.map _).nodup_iff.mp horders
      intro heq
      exact (List.nodup_cons.mp hmiddle).1 (List.mem_map.mpr ⟨q, hq, heq⟩)
    show Settlement.outcome (settlement _ _) _ = Settlement.outcome (settlement _ _) _
    unfold settlement at hsold ⊢
    dsimp only at hsold
    rw [hsold]
    rw [List.map_append, List.map_append, List.map_cons]
    exact Contents.outcome_without hne
  rw [hdeliveries, hdeliveries']
  unfold tell
  rw [List.map_append, List.map_cons, List.map_append]
  rw [List.map_congr_left fun q hq => congrArg (Delivery.mk q.responder)
      (htell q (List.mem_append_left _ hq)),
    List.map_congr_left fun q hq => congrArg (Delivery.mk q.responder)
      (htell q (List.mem_append_right _ hq))]
  rw [← List.append_assoc, ← List.append_assoc]
  exact List.perm_middle

/-- **A request that is told it is a duplicate can be left out of the batch** if it is screened out,
or if no later request shares an identifier with it: everybody else is told the same, and the store
is left with the same. -/
theorem perm_of_withdrawn (hm : m.Reachable) (hfailing : m.failing = [])
    (hown : ((pre ++ p :: post).map (·.responder)).Nodup)
    (h : ⟨p.responder, .error e⟩ ∈ (processInMemory (pre ++ p :: post) m).1) (he : e.isDuplicate)
    (halone : (∃ e, Repeats pre p e) ∨ ∀ q ∈ post, ¬ q.request.Shares p.request) :
    (processInMemory (pre ++ p :: post) m).1.Perm
        (⟨p.responder, .error e⟩ :: (processInMemory (pre ++ post) m).1) ∧
      (processInMemory (pre ++ p :: post) m).2.contents.Agree
        (processInMemory (pre ++ post) m).2.contents := by
  have hsound := hm.sound
  by_cases hrepeats : ∃ e, Repeats pre p e
  · obtain ⟨e', hrepeats⟩ := hrepeats
    obtain ⟨hperm, hagree⟩ := perm_of_repeats hsound hfailing hrepeats post
    have htold := delivery_unique hown h (hperm.mem_iff.mpr List.mem_cons_self) rfl
    rw [htold]
    exact ⟨hperm, hagree⟩
  · have hnot := not_exists.mp hrepeats
    have hpost := halone.resolve_left hrepeats
    obtain ⟨rejected, kept, kept', hwith, -⟩ := screen_of_not_repeats hnot hpost
    have hkept : p ∈ (screen ∅ ∅ (pre ++ p :: post)).2 := by simp [hwith]
    -- the request is kept, so what it is told is what the transaction came to
    have htold : ⟨p.responder, settledOutcome
          (.ok (settlement m.contents (screen ∅ ∅ (pre ++ p :: post)).2)) p.request⟩ ∈
        (processInMemory (pre ++ p :: post) m).1 := by
      rw [(processInMemory_committed hsound hfailing _).1]
      exact List.mem_append_right _ (List.mem_map.mpr ⟨p, hkept, rfl⟩)
    have hout := (Delivery.mk.inj (delivery_unique hown htold h rfl)).2
    have hclash := Contents.clash_of_outcome (kept_separate (pre ++ p :: post)).orders_nodup
      (List.mem_map_of_mem hkept) he hout
    rw [← hout]
    exact perm_of_clash hsound hfailing hnot hclash hpost

end Batch

/-! ## Requests that are in the way

Order 1 has been sold when it is asked for again, with an item that a request for order 2 has as
well. -/

namespace Sample

def again : Request where
  header := first.header
  items := [single]
  trace := .zero
  items_ne_nil := by decide
  order_eq := by decide
  ids_nodup := by decide
  total_isOk := by decide

def follower : Request where
  header := second.header
  items := [{ single with order := second.order }]
  trace := .zero
  items_ne_nil := by decide
  order_eq := by decide
  ids_nodup := by decide
  total_isOk := by decide

/-- There were five pieces of product 1, and order 1 has two of them. -/
def soldStore : Memory := (Batch.processInMemory [⟨first, 0⟩] (store.setStock single.product 5)).2

theorem soldStore_reachable : soldStore.Reachable :=
  .step (.step store_reachable (.setStock single.product 5 : Event Nat)) (.process [⟨first, 0⟩] : Event Nat)

end Sample

namespace Batch

/-- Another request for order 2 has an item of its own. -/
theorem perm_of_withdrawn_sample :
    (processInMemory [⟨Sample.again, 0⟩, ⟨Sample.second, 1⟩] Sample.soldStore).1.Perm
        (⟨0, .error (.duplicateOrder (toString (Sample.id 1 : OrderId)))⟩ ::
          (processInMemory [⟨Sample.second, 1⟩] Sample.soldStore).1) ∧
      (processInMemory [⟨Sample.again, 0⟩, ⟨Sample.second, 1⟩] Sample.soldStore).2.contents.Agree
        (processInMemory [⟨Sample.second, 1⟩] Sample.soldStore).2.contents := by
  have h : (⟨0, .error (.duplicateOrder (toString (Sample.id 1 : OrderId)))⟩ : Delivery Nat) ∈
      (processInMemory ([] ++ ⟨Sample.again, 0⟩ :: [⟨Sample.second, 1⟩]) Sample.soldStore).1 := by
    rw [show (processInMemory ([] ++ ⟨Sample.again, 0⟩ :: [⟨Sample.second, 1⟩])
        Sample.soldStore).1 =
      [⟨0, .error (.duplicateOrder (toString (Sample.id 1 : OrderId)))⟩,
        ⟨1, .ok (Sample.second.toOrder Sample.second.items)⟩] from rfl]
    exact List.mem_cons_self
  have halone : ∀ q ∈ [(⟨Sample.second, 1⟩ : Pending Nat)],
      ¬ q.request.Shares Sample.again := by
    unfold Request.Shares
    decide
  exact perm_of_withdrawn Sample.soldStore_reachable rfl (by decide) h rfl (.inr halone)

/-- **A request that is turned away may be in the way of another.** The request for order 1 is told
that its order exists. Because of it, the request for order 2 is told that its item exists, and
without it gets its order. -/
theorem turned_away_blocks_another :
    Sample.soldStore.failing = [] ∧
    (processInMemory [⟨Sample.again, 0⟩, ⟨Sample.follower, 1⟩] Sample.soldStore).1 =
      [⟨1, .error (.duplicateItem (toString (Sample.id 5 : ItemId)))⟩,
        ⟨0, .error (.duplicateOrder (toString (Sample.id 1 : OrderId)))⟩] ∧
    (processInMemory [⟨Sample.follower, 1⟩] Sample.soldStore).1 =
      [⟨1, .ok (Sample.follower.toOrder Sample.follower.items)⟩] ∧
    (processInMemory [⟨Sample.again, 0⟩, ⟨Sample.follower, 1⟩]
        Sample.soldStore).2.contents.order? (Sample.id 2) = none ∧
    (processInMemory [⟨Sample.follower, 1⟩] Sample.soldStore).2.contents.order? (Sample.id 2) =
      some (Sample.follower.toOrder Sample.follower.items) :=
  ⟨rfl, rfl, rfl, rfl, rfl⟩

end Batch

end Checkout
