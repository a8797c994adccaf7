import Checkout.Proofs.Sql.Contract
import Checkout.Proofs.Sql.Holding
import Mathlib.Data.Set.List

/-!
# The actions of the store on a relational server

Every action of the store keeps a contract with the server, however many statements it takes: what is
asked for is found as it is in the tables, and what is stored comes to be in them.
-/

namespace Checkout.Sql

open Connection

/-! ## Lists of statements -/

theorem flatten_chunks {α : Type} (l : List α) : (chunks l).flatten = l := by
  fun_induction chunks l with
  | case1 => rfl
  | case2 a as ih => rw [List.flatten_cons, ih, List.take_append_drop]

theorem ne_nil_of_mem_chunks {α : Type} {l part : List α} (h : part ∈ chunks l) : part ≠ [] := by
  fun_induction chunks l with
  | case1 => cases h
  | case2 a as ih =>
      rcases List.mem_cons.mp h with rfl | h
      · exact List.cons_ne_nil _ _
      · exact ih h

/-- If just one quantity is listed for a product, it is what is available. -/
theorem available_eq {stock : List StockRow} {p : ProductId} {quantity? : Option UInt32}
    (h : ∀ q, ⟨p, q⟩ ∈ stock ↔ quantity? = some q) : available stock p = quantity?.getD 0 := by
  unfold available
  cases hfind : stock.reverse.find? (·.product = p) with
  | some row =>
      have hproduct : row.product = p := by simpa using List.find?_some hfind
      have hrow : row ∈ stock := List.mem_reverse.mp (List.mem_of_find?_eq_some hfind)
      rw [(h row.quantity).mp (hproduct ▸ hrow)]
      rfl
  | none =>
      cases quantity? with
      | none => rfl
      | some q =>
          have hrow := List.mem_reverse.mpr ((h q).mpr rfl)
          exact absurd (decide_eq_true rfl) (List.find?_eq_none.mp hfind _ hrow)

namespace Yields

variable {π : Type} {db : Database π} {view : π → Server} {t₀ : Tables} {P : Tables → Prop}

/-! ## Questions -/

theorem existingTexts (hdb : Relational db view) (table : Table) {parts : List (List String)}
    (hparts : ∀ part ∈ parts, part ≠ []) {Q : List String → Tables → Prop}
    (h : ∀ t, P t → ∀ texts, (∀ x, x ∈ texts ↔ x ∈ t.ids table ∧ x ∈ parts.flatten) → Q texts t) :
    Yields view t₀ P (existingTexts db.recorded table parts) Q := by
  induction parts generalizing P Q with
  | nil => exact .pure [] fun t hp => h t hp [] (by simp)
  | cons part parts ih =>
      unfold Sql.existingTexts
      refine Yields.bind (Q := fun cells t => P t ∧
          ∃ l : List String, l.Perm ((t.ids table).filter (· ∈ part)) ∧ cells = l.map .ofId)
        (.query hdb _ ?_) fun cells => ?_
      · intro t hp
        refine ⟨hparts part List.mem_cons_self, ?_⟩
        rintro rows v ⟨rfl, l, hl, rfl⟩
        exact ⟨t, rfl, hp, l, hl, rfl⟩
      refine Yields.bind (Q := fun texts t => P t ∧ ∀ x, x ∈ texts ↔ x ∈ t.ids table ∧ x ∈ part)
        (.answer ?_) fun texts => ?_
      · rintro t ⟨hp, l, hl, rfl⟩
        refine ⟨l, ?_, hp, fun x => ?_⟩
        · rw [mapM_ok Cell.ofId (fun x => x) fun _ _ => rfl, List.map_id']
        · rw [hl.mem_iff, List.mem_filter, decide_eq_true_iff]
      refine Yields.bind (Q := fun more t => P t ∧
          (∀ x, x ∈ texts ↔ x ∈ t.ids table ∧ x ∈ part) ∧
          ∀ x, x ∈ more ↔ x ∈ t.ids table ∧ x ∈ parts.flatten)
        (ih (fun part hpart => hparts part (List.mem_cons_of_mem _ hpart)) ?_) fun more => ?_
      · rintro t ⟨hp, htexts⟩ more hmore
        exact ⟨hp, htexts, hmore⟩
      · refine .pure _ ?_
        rintro t ⟨hp, htexts, hmore⟩
        refine h t hp _ fun x => ?_
        rw [List.mem_append, htexts, hmore, List.flatten_cons, List.mem_append, and_or_left]

/-- Which of the identifiers are in a table. -/
theorem existingIds (hdb : Relational db view) {kind : Kind} (table : Table) (context : String)
    (ids : List (Identifier kind)) {Q : List (Identifier kind) → Tables → Prop}
    (h : ∀ t, P t → ∀ found : List (Identifier kind),
      (∀ id, id ∈ found ↔ toString id ∈ t.ids table ∧ id ∈ ids) → Q found t) :
    Yields view t₀ P (existingIds db.recorded table context ids) Q := by
  unfold Sql.existingIds
  refine Yields.bind (Q := fun texts t => P t ∧
      ∀ x, x ∈ texts ↔ x ∈ t.ids table ∧ x ∈ ids.map toString)
    (.existingTexts hdb table (fun _ => ne_nil_of_mem_chunks) ?_) fun texts => ?_
  · intro t hp texts htexts
    rw [flatten_chunks] at htexts
    exact ⟨hp, htexts⟩
  · refine .answer ?_
    rintro t ⟨hp, htexts⟩
    -- every text is that of an identifier
    obtain ⟨found, rfl⟩ : texts ∈ Set.range (List.map (toString : Identifier kind → String)) := by
      rw [Set.range_list_map]
      intro x hx
      obtain ⟨id, -, rfl⟩ := List.mem_map.mp ((htexts x).mp hx).2
      exact ⟨id, rfl⟩
    refine ⟨found, ?_, h t hp found fun id => ?_⟩
    · rw [mapM_ok toString (fun id => id), List.map_id']
      intro id _
      rw [Identifier.ofString?_toString]
      rfl
    · rw [← List.mem_map_of_injective Identifier.toString_injective, htexts,
        List.mem_map_of_injective Identifier.toString_injective]

/-- The stock of products that is kept is available. -/
theorem fetchStock (hdb : Relational db view) {ids : List ProductId} {c : Contents}
    {Q : List StockRow → Tables → Prop}
    (h : ∀ t, P t → t.HoldsStock c ∧
      ∀ stock, (∀ p ∈ ids, available stock p = (c.stock? p).getD 0) → Q stock t) :
    Yields view t₀ P ((store db.recorded).fetchStock ids) Q := by
  show Yields view t₀ P (if ids.isEmpty then _ else _) Q
  split
  next hnil =>
    refine .pure _ fun t hp => (h t hp).2 [] ?_
    rw [List.isEmpty_iff.mp hnil]
    exact fun _ hmem => absurd hmem List.not_mem_nil
  next hne =>
    refine Yields.bind (Q := fun rows t => P t ∧ ∃ l : List ProductRow,
        l.Perm (t.products.filter (·.id ∈ ids.map toString)) ∧ rows = l.map ProductRow.cells)
      (.query hdb _ ?_) fun rows => .answer ?_
    · intro t hp
      refine ⟨fun hnil => hne (List.isEmpty_iff.mpr hnil), ?_⟩
      rintro rows v ⟨rfl, l, hl, rfl⟩
      exact ⟨t, rfl, hp, l, hl, rfl⟩
    · rintro t ⟨hp, l, hl, rfl⟩
      obtain ⟨hholds, hq⟩ := h t hp
      have hrow : ∀ row, row ∈ l ↔ row.id ∈ ids.map toString ∧
          ∃ p, c.stock? p = some row.quantity ∧ row.id = toString p := by
        intro row
        rw [hl.mem_iff, List.mem_filter, decide_eq_true_iff, hholds.products, and_comm]
      refine ⟨l.map fun row => ⟨(Identifier.ofString? row.id).getD default, row.quantity⟩,
        mapM_ok _ _ fun row hmem => ?_, hq _ fun p hp => available_eq fun q => ?_⟩
      · obtain ⟨-, p, -, hid⟩ := (hrow row).mp hmem
        rw [readStock_cells hid, hid, Identifier.ofString?_toString]
        rfl
      · rw [List.mem_map]
        constructor
        · rintro ⟨row, hmem, heq⟩
          obtain ⟨-, p', hstock, hid⟩ := (hrow row).mp hmem
          rw [hid, Identifier.ofString?_toString] at heq
          cases heq
          exact hstock
        · intro hstock
          refine ⟨⟨toString p, q⟩, (hrow _).mpr ⟨List.mem_map_of_mem hp, p, hstock, rfl⟩, ?_⟩
          rw [Identifier.ofString?_toString]
          rfl

/-- The orders that are shown are found. -/
theorem fetchOrders (hdb : Relational db view) {orders : List Order} (hne : orders ≠ [])
    {Q : List Order → Tables → Prop}
    (h : ∀ t, P t → t.Shows orders ∧ ∀ found, Found found orders → Q found t) :
    Yields view t₀ P ((store db.recorded).fetchOrders (orders.map (·.id))) Q := by
  show Yields view t₀ P (if (orders.map (·.id)).isEmpty then _ else _) Q
  have hids : orders.map (·.id) ≠ [] := fun hnil => hne (List.map_eq_nil_iff.mp hnil)
  rw [if_neg fun hempty => hids (List.isEmpty_iff.mp hempty)]
  refine Yields.bind (Q := fun rows t => P t ∧ ∃ l : List JoinedRow,
      l.Perm (t.joined (orders.map (toString ·.id))) ∧ l.Pairwise JoinedRow.Precedes ∧
      rows = l.map JoinedRow.cells)
    (.query hdb _ ?_) fun rows => .answer ?_
  · intro t hp
    refine ⟨hids, ?_⟩
    rintro rows v ⟨rfl, l, hl, hsorted, rfl⟩
    rw [List.map_map] at hl
    exact ⟨t, rfl, hp, l, hl, hsorted, rfl⟩
  · rintro t ⟨hp, l, hl, hsorted, rfl⟩
    obtain ⟨hshows, hq⟩ := h t hp
    obtain ⟨found, hfound, horders⟩ := hshows.ordersOfRows_joined hl hsorted
    exact ⟨found, hfound, hq found horders⟩

/-! ## Changes -/

/-- The quantities that are there are reduced. -/
theorem decrementStock (hdb : Relational db view) {ds : List Decrement}
    {Q : Unit → Tables → Prop}
    (h : ∀ t, P t →
      (∀ d ∈ ds, ∀ row ∈ t.products, row.id = toString d.product → d.quantity ≤ row.quantity) ∧
      Q () { t with products := t.products.map (.reduced ds) }) :
    Yields view t₀ P ((store db.recorded).decrementStock ds) Q := by
  show Yields view t₀ P (sendAll _ _ (if ds.isEmpty then _ else _)) Q
  split
  next hnil =>
    refine .pure _ fun t hp => ?_
    have hq := (h t hp).2
    rw [List.isEmpty_iff.mp hnil] at hq
    rwa [show t.products.map (.reduced []) = t.products from List.map_id' _] at hq
  next hne =>
    refine Yields.bind (Q := fun _ => Q ()) (.query hdb _ ?_) fun _ => .pure _ fun _ hq => hq
    intro t hp
    obtain ⟨hle, hq⟩ := h t hp
    refine ⟨⟨fun hnil => hne (List.isEmpty_iff.mpr hnil), hle⟩, ?_⟩
    rintro rows v rfl
    exact ⟨_, rfl, hq⟩

theorem sendOrders (hdb : Relational db view) (context : String) {parts : List (List Order)}
    (hparts : ∀ part ∈ parts, part ≠ []) {Q : Unit → Tables → Prop}
    (h : ∀ t, P t → (t.ids .orders ++ parts.flatten.map (toString ·.id)).Nodup ∧
      (∀ o ∈ parts.flatten, o.toHeader.IsKept) ∧
      Q () { t with orders := t.orders ++ parts.flatten.map fun o => .of o.toHeader }) :
    Yields view t₀ P (sendAll db.recorded context (parts.map .insertOrders)) Q := by
  induction parts generalizing P with
  | nil =>
      refine .pure _ fun t hp => ?_
      have hq := (h t hp).2.2
      rwa [List.flatten_nil, List.map_nil, List.append_nil] at hq
  | cons part parts ih =>
      refine Yields.bind (Q := fun _ t' => ∃ t, P t ∧
          t' = { t with orders := t.orders ++ part.map fun o => .of o.toHeader })
        (.query hdb _ ?_) fun _ => ?_
      · intro t hp
        obtain ⟨hnd, hkept, -⟩ := h t hp
        rw [List.flatten_cons, List.map_append, ← List.append_assoc] at hnd
        refine ⟨⟨hparts part List.mem_cons_self, (List.nodup_append.mp hnd).1,
          fun o ho => hkept o (List.mem_append_left _ ho)⟩, ?_⟩
        rintro rows v rfl
        exact ⟨_, rfl, t, hp, rfl⟩
      · refine ih (fun part hpart => hparts part (List.mem_cons_of_mem _ hpart)) ?_
        rintro _ ⟨t, hp, rfl⟩
        obtain ⟨hnd, hkept, hq⟩ := h t hp
        rw [List.flatten_cons, List.map_append, ← List.append_assoc] at hnd hq
        refine ⟨?_, fun o ho => hkept o (List.mem_append_right _ ho), hq⟩
        show (List.map _ (_ ++ _) ++ _).Nodup
        rw [List.map_append, List.map_map]
        exact hnd

/-- New headers come to be in their table. -/
theorem insertOrders (hdb : Relational db view) {orders : List Order} {Q : Unit → Tables → Prop}
    (h : ∀ t, P t → (t.ids .orders ++ orders.map (toString ·.id)).Nodup ∧
      (∀ o ∈ orders, o.toHeader.IsKept) ∧
      Q () { t with orders := t.orders ++ orders.map fun o => .of o.toHeader }) :
    Yields view t₀ P ((store db.recorded).insertOrders orders) Q := by
  refine sendOrders hdb _ (fun _ => ne_nil_of_mem_chunks) ?_
  rwa [flatten_chunks]

theorem sendItems (hdb : Relational db view) (context : String) {parts : List (List Item)}
    (hparts : ∀ part ∈ parts, part ≠ []) {Q : Unit → Tables → Prop}
    (h : ∀ t, P t → (t.ids .orderItems ++ parts.flatten.map (toString ·.id)).Nodup ∧
      (∀ i ∈ parts.flatten, toString i.order ∈ t.ids .orders) ∧
      (∀ i ∈ parts.flatten, i.IsKept) ∧ t.items.Pairwise (·.seq < ·.seq) ∧
      ∀ new, List.Forall₂ ItemRow.Stores new parts.flatten →
        (t.items ++ new).Pairwise (·.seq < ·.seq) → Q () { t with items := t.items ++ new }) :
    Yields view t₀ P (sendAll db.recorded context (parts.map .insertItems)) Q := by
  induction parts generalizing P with
  | nil =>
      refine .pure _ fun t hp => ?_
      obtain ⟨-, -, -, hascending, hq⟩ := h t hp
      have hq' := hq [] .nil (by rwa [List.append_nil])
      rwa [List.append_nil] at hq'
  | cons part parts ih =>
      refine Yields.bind (Q := fun _ t' => ∃ t, P t ∧ ∃ new, List.Forall₂ ItemRow.Stores new part ∧
          (t.items ++ new).Pairwise (·.seq < ·.seq) ∧ t' = { t with items := t.items ++ new })
        (.query hdb _ ?_) fun _ => ?_
      · intro t hp
        obtain ⟨hnd, horder, hkept, hascending, -⟩ := h t hp
        rw [List.flatten_cons, List.map_append, ← List.append_assoc] at hnd
        refine ⟨⟨hparts part List.mem_cons_self, (List.nodup_append.mp hnd).1,
          fun i hi => horder i (List.mem_append_left _ hi),
          fun i hi => hkept i (List.mem_append_left _ hi)⟩, ?_⟩
        rintro rows v ⟨new, hstores, hnew, hlater, rfl⟩
        exact ⟨_, rfl, t, hp, new, hstores, List.pairwise_append.mpr ⟨hascending, hnew, hlater⟩, rfl⟩
      · refine ih (fun part hpart => hparts part (List.mem_cons_of_mem _ hpart)) ?_
        rintro _ ⟨t, hp, new, hstores, hascending, rfl⟩
        obtain ⟨hnd, horder, hkept, -, hq⟩ := h t hp
        rw [List.flatten_cons, List.map_append, ← List.append_assoc] at hnd
        have hids : new.map (·.id) = part.map (toString ·.id) := by
          rw [← List.forall₂_eq_eq_eq, List.forall₂_map_left_iff, List.forall₂_map_right_iff]
          exact hstores.imp fun _ _ hrow => hrow.id
        refine ⟨?_, fun i hi => horder i (List.mem_append_right _ hi),
          fun i hi => hkept i (List.mem_append_right _ hi), hascending, fun more hmore hall => ?_⟩
        · show (List.map _ (_ ++ _) ++ _).Nodup
          rw [List.map_append, hids]
          exact hnd
        · dsimp only at hall ⊢
          rw [List.append_assoc] at hall ⊢
          exact hq _ (List.rel_append hstores hmore) hall

/-- New items come to be in their table, behind the others. -/
theorem insertItems (hdb : Relational db view) {items : List Item} {Q : Unit → Tables → Prop}
    (h : ∀ t, P t → (t.ids .orderItems ++ items.map (toString ·.id)).Nodup ∧
      (∀ i ∈ items, toString i.order ∈ t.ids .orders) ∧ (∀ i ∈ items, i.IsKept) ∧
      t.items.Pairwise (·.seq < ·.seq) ∧
      ∀ new, List.Forall₂ ItemRow.Stores new items → (t.items ++ new).Pairwise (·.seq < ·.seq) →
        Q () { t with items := t.items ++ new }) :
    Yields view t₀ P ((store db.recorded).insertItems items) Q := by
  refine sendItems hdb _ (fun _ => ne_nil_of_mem_chunks) ?_
  rwa [flatten_chunks]

end Yields

end Checkout.Sql
