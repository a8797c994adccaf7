import Checkout.Proofs.Demand.Resolution
import Checkout.Store.Memory

/-!
# Selling from the contents of a store

Contents are looked at through `stock?`, `header?` and `items`. A sale reduces stock, adds headers
and adds items, each in one bulk change that is made of single ones. `Contents.Covers` and
`Contents.Fits` are what the three bulk changes need, and then none of them fails
(`decrements_ok`, `insertOrders_ok`, `insertItems_ok`).
`Contents.Sale` is all that they do together (`sale_of_fits`).

`Contents.Sound` is what the contents of a store always satisfy. A sale that fits keeps it
(`Sound.sale`), and the store then has the sold orders just as they were given to it
(`Sale.order?_of_mem`).
-/

namespace Checkout

namespace Order

variable {orders : List Order}

theorem find?_of_mem (hnd : (orders.map (·.id)).Nodup) {o : Order} (ho : o ∈ orders) :
    orders.find? (·.id = o.id) = some o := by
  cases h : orders.find? (·.id = o.id) with
  | none => exact absurd (decide_eq_true rfl) (List.find?_eq_none.mp h o ho)
  | some p =>
      have hid : p.id = o.id := by simpa using List.find?_some h
      rw [List.inj_on_of_nodup_map hnd (List.mem_of_find?_eq_some h) ho hid]

theorem find?_of_not_mem {id : OrderId} (h : id ∉ orders.map (·.id)) :
    orders.find? (·.id = id) = none := by
  refine List.find?_eq_none.mpr fun o ho heq => h ?_
  exact List.mem_map.mpr ⟨o, ho, of_decide_eq_true heq⟩

end Order

namespace Contents

variable {c c' : Contents}

/-! ## Looking at contents -/

@[simp] theorem stock?_setStock (c : Contents) (product : ProductId) (quantity : UInt32)
    (p : ProductId) :
    (c.setStock product quantity).stock? p = if product = p then some quantity else c.stock? p := by
  unfold stock? setStock
  rw [Std.ExtTreeMap.getElem?_insert]
  simp only [Std.LawfulEqCmp.compare_eq_iff_eq]

theorem hasItem_eq_false {id : ItemId} (h : ∀ i ∈ c.items, i.id ≠ id) : c.hasItem id = false := by
  rw [← Bool.not_eq_true, hasItem_iff]
  rintro ⟨i, hi, heq⟩
  exact h i hi heq

/-! ## Single changes -/

/-- If a product has enough stock, or no row at all, a decrement reduces its row and changes nothing
else. -/
theorem decrement_ok {d : Decrement} (hle : ∀ q, c.stock? d.product = some q → d.quantity ≤ q) :
    ∃ c', c.decrement d = .ok c' ∧ c'.headers = c.headers ∧ c'.items = c.items ∧
      ∀ p, c'.stock? p =
        if d.product = p then (c.stock? p).map (· - d.quantity) else c.stock? p := by
  unfold decrement
  split
  next h =>
    refine ⟨c, rfl, rfl, rfl, fun p => ?_⟩
    split
    next heq => rw [← heq, h, Option.map_none]
    next => rfl
  next q h =>
    rw [if_pos (hle q h)]
    refine ⟨_, rfl, rfl, rfl, fun p => ?_⟩
    rw [stock?_setStock]
    split
    next heq => rw [← heq, h, Option.map_some]
    next => rfl

/-- A new order gets its header. -/
theorem insertOrder_ok {o : Order} (hnew : c.header? o.id = none) :
    ∃ c', c.insertOrder o = .ok c' ∧ c'.stock = c.stock ∧ c'.items = c.items ∧
      ∀ id, c'.header? id = if o.id = id then some o.toHeader else c.header? id := by
  unfold insertOrder
  rw [hnew]
  refine ⟨_, rfl, rfl, rfl, fun id => ?_⟩
  show (c.headers.insert o.id o.toHeader)[id]? = _
  rw [Std.ExtTreeMap.getElem?_insert]
  simp only [Std.LawfulEqCmp.compare_eq_iff_eq]
  rfl

/-- A new item is added, if its order exists. -/
theorem insertItem_ok {i : Item} (hown : (c.header? i.order).isSome)
    (hnew : ∀ j ∈ c.items, j.id ≠ i.id) :
    ∃ c', c.insertItem i = .ok c' ∧ c'.stock = c.stock ∧ c'.headers = c.headers ∧
      c'.items = c.items ++ [i] := by
  obtain ⟨h, hh⟩ := Option.isSome_iff_exists.mp hown
  unfold insertItem
  rw [hh]
  dsimp only
  rw [hasItem_eq_false hnew]
  exact ⟨_, rfl, rfl, rfl, List.reverse_cons⟩

/-! ## Bulk changes -/

/-- Each listed product has enough stock, if it has a row at all; then all of them are reduced, and
nothing else changes. -/
theorem decrements_ok {ds : List Decrement} (hnd : (ds.map (·.product)).Nodup)
    (hle : ∀ d ∈ ds, ∀ q, c.stock? d.product = some q → d.quantity ≤ q) :
    ∃ c', ds.foldlM decrement c = .ok c' ∧ c'.headers = c.headers ∧ c'.items = c.items ∧
      (∀ p, p ∉ ds.map (·.product) → c'.stock? p = c.stock? p) ∧
      ∀ d ∈ ds, c'.stock? d.product = (c.stock? d.product).map (· - d.quantity) := by
  induction ds generalizing c with
  | nil => exact ⟨c, rfl, rfl, rfl, fun _ _ => rfl, fun _ h => absurd h List.not_mem_nil⟩
  | cons d ds ih =>
      obtain ⟨hd, hnd⟩ := List.nodup_cons.mp hnd
      have hne : ∀ e ∈ ds, d.product ≠ e.product := by
        intro e he heq
        exact hd (List.mem_map.mpr ⟨e, he, heq.symm⟩)
      obtain ⟨c₁, hc₁, hheaders, hitems, hstock⟩ := decrement_ok (hle d List.mem_cons_self)
      obtain ⟨c', hc', hheaders', hitems', hrest, hlisted⟩ := ih (c := c₁) hnd (by
        intro e he q hq
        rw [hstock, if_neg (hne e he)] at hq
        exact hle e (List.mem_cons_of_mem _ he) q hq)
      refine ⟨c', ?_, hheaders'.trans hheaders, hitems'.trans hitems, ?_, ?_⟩
      · rw [List.foldlM_cons, hc₁]
        exact hc'
      · intro p hp
        rw [List.map_cons, List.mem_cons, not_or] at hp
        rw [hrest p hp.2, hstock, if_neg (Ne.symm hp.1)]
      · intro e he
        rcases List.mem_cons.mp he with rfl | he
        · rw [hrest _ hd, hstock, if_pos rfl]
        · rw [hlisted e he, hstock, if_neg (hne e he)]

/-- New orders with different identifiers all get their headers. -/
theorem insertOrders_ok {orders : List Order} (hnd : (orders.map (·.id)).Nodup)
    (hnew : ∀ o ∈ orders, c.header? o.id = none) :
    ∃ c', orders.foldlM insertOrder c = .ok c' ∧ c'.stock = c.stock ∧ c'.items = c.items ∧
      ∀ id, c'.header? id =
        ((orders.find? (·.id = id)).map (·.toHeader)).or (c.header? id) := by
  induction orders generalizing c with
  | nil => exact ⟨c, rfl, rfl, rfl, fun _ => rfl⟩
  | cons o orders ih =>
      obtain ⟨ho, hnd⟩ : o.id ∉ orders.map (·.id) ∧ (orders.map (·.id)).Nodup :=
        List.nodup_cons.mp hnd
      have hne : ∀ p ∈ orders, o.id ≠ p.id := by
        intro p hp heq
        exact ho (List.mem_map.mpr ⟨p, hp, heq.symm⟩)
      obtain ⟨c₁, hc₁, hstock, hitems, hheader⟩ := insertOrder_ok (hnew o List.mem_cons_self)
      obtain ⟨c', hc', hstock', hitems', hheader'⟩ := ih (c := c₁) hnd (by
        intro p hp
        rw [hheader, if_neg (hne p hp)]
        exact hnew p (List.mem_cons_of_mem _ hp))
      refine ⟨c', ?_, hstock'.trans hstock, hitems'.trans hitems, fun id => ?_⟩
      · rw [List.foldlM_cons, hc₁]
        exact hc'
      rw [hheader', hheader, List.find?_cons]
      by_cases h : o.id = id
      · subst h
        simp [Order.find?_of_not_mem ho]
      · simp [h]

/-- New items with different identifiers are all added, if their orders exist. -/
theorem insertItems_ok {items : List Item} (hown : ∀ i ∈ items, (c.header? i.order).isSome)
    (hnd : (items.map (·.id)).Nodup) (hnew : ∀ i ∈ items, ∀ j ∈ c.items, j.id ≠ i.id) :
    ∃ c', items.foldlM insertItem c = .ok c' ∧ c'.stock = c.stock ∧ c'.headers = c.headers ∧
      c'.items = c.items ++ items := by
  induction items generalizing c with
  | nil => exact ⟨c, rfl, rfl, rfl, (List.append_nil _).symm⟩
  | cons i items ih =>
      obtain ⟨hi, hnd⟩ := List.nodup_cons.mp hnd
      obtain ⟨c₁, hc₁, hstock, hheaders, hitems⟩ :=
        insertItem_ok (hown i List.mem_cons_self) (hnew i List.mem_cons_self)
      have hown₁ : ∀ j ∈ items, (c₁.header? j.order).isSome := by
        intro j hj
        show (c₁.headers[j.order]?).isSome
        rw [hheaders]
        exact hown j (List.mem_cons_of_mem _ hj)
      have hnew₁ : ∀ j ∈ items, ∀ k ∈ c₁.items, k.id ≠ j.id := by
        intro j hj k hk heq
        rw [hitems, List.mem_append, List.mem_singleton] at hk
        rcases hk with hk | rfl
        · exact hnew j (List.mem_cons_of_mem _ hj) k hk heq
        · exact hi (List.mem_map.mpr ⟨j, hj, heq.symm⟩)
      obtain ⟨c', hc', hstock', hheaders', hitems'⟩ := ih hown₁ hnd hnew₁
      refine ⟨c', ?_, hstock'.trans hstock, hheaders'.trans hheaders, ?_⟩
      · rw [List.foldlM_cons, hc₁]
        exact hc'
      · rw [hitems', hitems, List.append_assoc]
        rfl

/-! ## Sales -/

/-- The items of all orders. -/
def sold (orders : List Order) : List Item := orders.flatMap (·.items)

/-- The orders can be added: they and their items are new and different, no order is empty, and each
item belongs to its own order. -/
structure Fits (c : Contents) (orders : List Order) : Prop where
  ids_nodup : (orders.map (·.id)).Nodup
  id_new : ∀ o ∈ orders, c.header? o.id = none
  items_ne_nil : ∀ o ∈ orders, o.items ≠ []
  item_order : ∀ o ∈ orders, ∀ i ∈ o.items, i.order = o.id
  itemIds_nodup : ((sold orders).map (·.id)).Nodup
  itemId_new : ∀ i ∈ sold orders, ∀ j ∈ c.items, j.id ≠ i.id

/-- The stock can be reduced, and is reduced by just what the items come to. -/
structure Covers (c : Contents) (ds : List Decrement) (items : List Item) : Prop where
  products_nodup : (ds.map (·.product)).Nodup
  quantity_le : ∀ d ∈ ds, ∀ q, c.stock? d.product = some q → d.quantity ≤ q
  quantity_eq : ∀ d ∈ ds, d.quantity.toNat = pieces d.product items
  product_mem : ∀ i ∈ items, i.product ∈ ds.map (·.product)
  stocked : ∀ i ∈ items, (c.stock? i.product).isSome

/-- What a sale changes: stock goes over into sold items, and the orders are added behind those that
were there. Only products with a stock row are sold. -/
structure Sale (c : Contents) (orders : List Order) (c' : Contents) : Prop where
  stock : ∀ p, (c'.stock? p).map (·.toNat + pieces p (sold orders)) = (c.stock? p).map (·.toNat)
  stocked : ∀ i ∈ sold orders, (c.stock? i.product).isSome
  header? : ∀ id, c'.header? id = ((orders.find? (·.id = id)).map (·.toHeader)).or (c.header? id)
  items : c'.items = c.items ++ sold orders

/-- The empty sale. -/
theorem Sale.nil (c : Contents) : Sale c [] c :=
  ⟨fun _ => rfl, fun _ h => absurd h List.not_mem_nil, fun _ => rfl, (List.append_nil _).symm⟩

theorem Fits.nil (c : Contents) : Fits c [] := by
  refine ⟨List.nodup_nil, ?_, ?_, ?_, List.nodup_nil, ?_⟩
  all_goals exact fun _ h => absurd h List.not_mem_nil

theorem mem_sold {orders : List Order} {i : Item} :
    i ∈ sold orders ↔ ∃ o ∈ orders, i ∈ o.items := List.mem_flatMap

/-- **A sale that fits and is covered goes through**, one bulk change after the other. -/
theorem sale_of_fits {orders : List Order} {ds : List Decrement} (hfit : Fits c orders)
    (hcover : Covers c ds (sold orders)) :
    ∃ c₁, ds.foldlM decrement c = .ok c₁ ∧
      ∃ c₂, orders.foldlM insertOrder c₁ = .ok c₂ ∧
        ∃ c₃, (sold orders).foldlM insertItem c₂ = .ok c₃ ∧ Sale c orders c₃ := by
  obtain ⟨c₁, h₁, hheaders₁, hitems₁, hrest, hlisted⟩ :=
    decrements_ok hcover.products_nodup hcover.quantity_le
  have hheader₁ : ∀ id, c₁.header? id = c.header? id := by
    intro id
    unfold header?
    rw [hheaders₁]
  obtain ⟨c₂, h₂, hstock₂, hitems₂, hheader₂⟩ := insertOrders_ok (c := c₁) hfit.ids_nodup (by
    intro o ho
    rw [hheader₁]
    exact hfit.id_new o ho)
  obtain ⟨c₃, h₃, hstock₃, hheaders₃, hitems₃⟩ := insertItems_ok (c := c₂)
    (by
      intro i hi
      obtain ⟨o, ho, hio⟩ := mem_sold.mp hi
      rw [hheader₂, hfit.item_order o ho i hio, Option.isSome_or, Option.isSome_map,
        List.find?_isSome.mpr ⟨o, ho, decide_eq_true rfl⟩]
      rfl)
    hfit.itemIds_nodup
    (by
      rw [hitems₂, hitems₁]
      exact hfit.itemId_new)
  refine ⟨c₁, h₁, c₂, h₂, c₃, h₃, ?_, hcover.stocked, ?_, ?_⟩
  -- only the first change touches stock, and only where there is a decrement
  · intro p
    have hstock : c₃.stock? p = c₁.stock? p := by
      unfold stock?
      rw [hstock₃, hstock₂]
    rw [hstock]
    by_cases hp : p ∈ ds.map (·.product)
    · obtain ⟨d, hd, rfl⟩ := List.mem_map.mp hp
      rw [hlisted d hd]
      cases hq : c.stock? d.product with
      | none => rfl
      | some q =>
          have hle := UInt32.le_iff_toNat_le.mp (hcover.quantity_le d hd q hq)
          show some ((q - d.quantity).toNat + _) = some q.toNat
          rw [UInt32.toNat_sub_of_le _ _ (hcover.quantity_le d hd q hq), ← hcover.quantity_eq d hd,
            Nat.sub_add_cancel hle]
    · have hzero : pieces p (sold orders) = 0 := by
        refine pieces_eq_zero fun i hi heq => hp ?_
        rw [← heq]
        exact hcover.product_mem i hi
      rw [hrest p hp, hzero]
      rfl
  · intro id
    rw [← hheader₁, ← hheader₂]
    unfold header?
    rw [hheaders₃]
  · rw [hitems₃, hitems₂, hitems₁]

/-! ## Sound contents -/

/-- Headers are kept under their own identifiers and have items, items belong to orders that exist,
and no two items share an identifier. -/
structure Sound (c : Contents) : Prop where
  header_id : ∀ id h, c.header? id = some h → h.id = id
  header_item : ∀ id h, c.header? id = some h → ∃ i ∈ c.items, i.order = id
  item_header : ∀ i ∈ c.items, (c.header? i.order).isSome
  itemIds_nodup : (c.items.map (·.id)).Nodup

theorem Sound.of_no_orders (hheaders : c.headers = ∅) (hitems : c.items = []) : Sound c := by
  have hnone : ∀ id, c.header? id = none := by
    intro id
    unfold header?
    rw [hheaders]
    exact Std.ExtTreeMap.getElem?_empty
  refine ⟨?_, ?_, ?_, ?_⟩
  · intro id h heq
    rw [hnone] at heq
    cases heq
  · intro id h heq
    rw [hnone] at heq
    cases heq
  · rw [hitems]
    exact fun _ h => absurd h List.not_mem_nil
  · rw [hitems]
    exact List.nodup_nil

theorem Sound.empty : Sound empty := .of_no_orders rfl rfl

theorem Sound.setStock (h : Sound c) (product : ProductId) (quantity : UInt32) :
    Sound (c.setStock product quantity) :=
  ⟨h.header_id, h.header_item, h.item_header, h.itemIds_nodup⟩

/-- **A sale that fits keeps contents sound.** -/
theorem Sound.sale {orders : List Order} (h : Sound c) (hfit : Fits c orders)
    (hsale : Sale c orders c') : Sound c' := by
  -- a header is either that of a sold order or an old one
  have hcases : ∀ id hd, c'.header? id = some hd →
      (∃ o ∈ orders, o.id = id ∧ o.toHeader = hd) ∨ c.header? id = some hd := by
    intro id hd heq
    rw [hsale.header?, Option.or_eq_some_iff, Option.map_eq_some_iff] at heq
    rcases heq with ⟨o, ho, rfl⟩ | ⟨-, hold⟩
    · exact .inl ⟨o, List.mem_of_find?_eq_some ho, by simpa using List.find?_some ho, rfl⟩
    · exact .inr hold
  refine ⟨?_, ?_, ?_, ?_⟩
  · intro id hd heq
    rcases hcases id hd heq with ⟨o, -, hid, rfl⟩ | hold
    · exact hid
    · exact h.header_id id hd hold
  · intro id hd heq
    rw [hsale.items]
    rcases hcases id hd heq with ⟨o, ho, hid, -⟩ | hold
    · obtain ⟨i, hi⟩ := List.exists_mem_of_ne_nil _ (hfit.items_ne_nil o ho)
      refine ⟨i, List.mem_append_right _ (mem_sold.mpr ⟨o, ho, hi⟩), ?_⟩
      rw [hfit.item_order o ho i hi, hid]
    · obtain ⟨i, hi, hio⟩ := h.header_item id hd hold
      exact ⟨i, List.mem_append_left _ hi, hio⟩
  · intro i hi
    rw [hsale.items, List.mem_append] at hi
    rw [hsale.header?, Option.isSome_or, Bool.or_eq_true]
    rcases hi with hi | hi
    · exact .inr (h.item_header i hi)
    · obtain ⟨o, ho, hio⟩ := mem_sold.mp hi
      left
      rw [Option.isSome_map, hfit.item_order o ho i hio]
      exact List.find?_isSome.mpr ⟨o, ho, decide_eq_true rfl⟩
  · rw [hsale.items, List.map_append]
    refine List.nodup_append.mpr ⟨h.itemIds_nodup, hfit.itemIds_nodup, ?_⟩
    intro a ha b hb
    obtain ⟨j, hj, rfl⟩ := List.mem_map.mp ha
    obtain ⟨i, hi, rfl⟩ := List.mem_map.mp hb
    exact hfit.itemId_new i hi j hj

/-! ## Orders after a sale -/

theorem order?_eq_none_iff {id : OrderId} : c.order? id = none ↔ c.header? id = none := by
  unfold order?
  rw [Option.map_eq_none_iff]

/-- No item names an order that does not exist. -/
theorem Sound.filter_order_eq_nil (h : Sound c) {id : OrderId} (hid : c.header? id = none) :
    c.items.filter (·.order = id) = [] := by
  refine List.filter_eq_nil_iff.mpr fun i hi heq => ?_
  have hsome := h.item_header i hi
  rw [of_decide_eq_true heq, hid] at hsome
  cases hsome

theorem filter_sold_eq_nil {orders : List Order} {id : OrderId}
    (hown : ∀ o ∈ orders, ∀ i ∈ o.items, i.order = o.id) (hid : id ∉ orders.map (·.id)) :
    (sold orders).filter (·.order = id) = [] := by
  refine List.filter_eq_nil_iff.mpr fun i hi heq => ?_
  obtain ⟨o, ho, hio⟩ := mem_sold.mp hi
  apply hid
  rw [← of_decide_eq_true heq, hown o ho i hio]
  exact List.mem_map_of_mem ho

theorem filter_sold_eq_items {orders : List Order} (hnd : (orders.map (·.id)).Nodup)
    (hown : ∀ o ∈ orders, ∀ i ∈ o.items, i.order = o.id) {o : Order} (ho : o ∈ orders) :
    (sold orders).filter (·.order = o.id) = o.items := by
  induction orders with
  | nil => cases ho
  | cons p ps ih =>
      obtain ⟨hp, hnd⟩ := List.nodup_cons.mp hnd
      have hown' : ∀ q ∈ ps, ∀ i ∈ q.items, i.order = q.id :=
        fun q hq => hown q (List.mem_cons_of_mem _ hq)
      show ((p.items ++ sold ps).filter _) = _
      rw [List.filter_append]
      rcases List.mem_cons.mp ho with rfl | ho
      · rw [filter_sold_eq_nil hown' hp, List.append_nil]
        refine List.filter_eq_self.mpr fun i hi => ?_
        exact decide_eq_true (hown o List.mem_cons_self i hi)
      · rw [ih hnd hown' ho]
        have hnil : p.items.filter (·.order = o.id) = [] := by
          refine List.filter_eq_nil_iff.mpr fun i hi heq => hp ?_
          have hip := hown p List.mem_cons_self i hi
          exact List.mem_map.mpr ⟨o, ho, (of_decide_eq_true heq).symm.trans hip⟩
        rw [hnil, List.nil_append]

/-- **A sold order is in the store as it was given to it.** -/
theorem Sale.order?_of_mem {orders : List Order} (hsale : Sale c orders c') (h : Sound c)
    (hfit : Fits c orders) {o : Order} (ho : o ∈ orders) : c'.order? o.id = some o := by
  unfold order?
  rw [hsale.header?, Order.find?_of_mem hfit.ids_nodup ho, hsale.items, List.filter_append,
    h.filter_order_eq_nil (hfit.id_new o ho),
    filter_sold_eq_items hfit.ids_nodup hfit.item_order ho]
  rfl

/-- **All other orders stay as they are.** -/
theorem Sale.order?_of_not_mem {orders : List Order} (hsale : Sale c orders c')
    (hfit : Fits c orders) {id : OrderId} (hid : id ∉ orders.map (·.id)) :
    c'.order? id = c.order? id := by
  unfold order?
  rw [hsale.header?, Order.find?_of_not_mem hid, hsale.items, List.filter_append,
    filter_sold_eq_nil hfit.item_order hid, List.append_nil]
  rfl

end Contents

end Checkout
