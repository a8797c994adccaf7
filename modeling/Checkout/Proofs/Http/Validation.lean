import Checkout.Proofs.Decimal.Money
import Checkout.Proofs.Http.Body

/-!
# Which bodies are accepted

A body is accepted if it names no other user, has items, each at an accepted price and of one piece
at least, brings no identifier of an item twice, and has a total. The faults of a body are looked for
in several places; `Body.Refuses` has them in one sequence, and `Body.accepted_or_refused` says that
a body is refused just for the first that it has.

The shop adds identifiers where a body has none. They must not repeat each other or one of the body
(`Body.Supply.IsFresh`), or else a body without fault could be refused for one of them.
-/

namespace Checkout

/-! ## Items -/

namespace ItemBody

variable {i : ItemBody} {refusal : Refusal}

/-- The price is accepted, and there is at least one piece. -/
structure IsValid (i : ItemBody) : Prop where
  price : ∃ m, Money.new i.price = .ok m
  quantity : 1 ≤ i.quantity

/-- The first fault of an item: its price, then its quantity. -/
inductive Refuses (i : ItemBody) : Refusal → Prop
  | price {fault : MoneyFault} (hprice : Money.new i.price = .error fault) :
      Refuses i (.invalidValue fault)
  | quantity (hprice : ∃ m, Money.new i.price = .ok m) (hquantity : i.quantity = 0) :
      Refuses i .invalidQuantity

/-- The identifier that the item brings with it. -/
def given? (i : ItemBody) : Option ItemId := i.id.map (⟨·⟩)

/-- A fresh identifier, if the item brings none. -/
def added? (i : ItemBody) (fresh : ItemId) : Option ItemId := if i.id = none then some fresh else none

/-- What so many pieces come to. -/
def subtotal (i : ItemBody) : Except MoneyFault Money :=
  (Money.new i.price).bind (·.multiply i.quantity)

/-- The item is what the body asks for, in an order. -/
structure Becomes (order : OrderId) (b : ItemBody) (i : Item) : Prop where
  id : ∀ u, b.id = some u → i.id.uuid = u
  order : i.order = order
  product : i.product.uuid = b.product
  price : i.price.amount = b.price
  quantity : i.quantity = b.quantity

theorem isValid_or_refuses (i : ItemBody) : i.IsValid ∨ ∃ refusal, i.Refuses refusal := by
  cases hprice : Money.new i.price with
  | error fault => exact .inr ⟨_, .price hprice⟩
  | ok m =>
      by_cases hquantity : i.quantity = 0
      · exact .inr ⟨_, .quantity ⟨m, hprice⟩ hquantity⟩
      · refine .inl ⟨⟨m, hprice⟩, ?_⟩
        rw [UInt32.le_iff_toNat_le]
        exact Nat.one_le_iff_ne_zero.mpr fun hzero => hquantity (UInt32.toNat_inj.mp hzero)

theorem IsValid.exists_toItem (h : i.IsValid) (order : OrderId) (id : ItemId) :
    ∃ item, Body.toItem order id i = .ok item := by
  obtain ⟨m, hprice⟩ := h.price
  have hquantity : 0 < i.quantity :=
    UInt32.lt_iff_toNat_lt.mpr (UInt32.le_iff_toNat_le.mp h.quantity)
  unfold Body.toItem Item.new
  rw [hprice]
  exact ⟨_, dif_pos hquantity⟩

theorem Refuses.toItem_eq (h : i.Refuses refusal) (order : OrderId) (id : ItemId) :
    Body.toItem order id i = .error refusal := by
  unfold Body.toItem Item.new
  cases h with
  | price hprice => rw [hprice]
  | quantity hprice hquantity =>
      obtain ⟨m, hprice⟩ := hprice
      rw [hprice]
      exact dif_neg (by rw [hquantity]; decide)

theorem Gives.becomes {order : OrderId} {fresh : ItemId} {item : Item}
    (h : i.Gives order fresh item) : Becomes order i item where
  id u hu := by rw [h.id, hu]; rfl
  order := h.order
  product := congrArg Identifier.uuid h.product
  price := Money.amount_of_new h.price
  quantity := h.quantity

theorem Gives.subtotal_eq {order : OrderId} {fresh : ItemId} {item : Item}
    (h : i.Gives order fresh item) : item.subtotal = i.subtotal := by
  unfold Item.subtotal subtotal
  rw [h.price, h.quantity]
  rfl

end ItemBody

namespace Body

variable {b : Body} {user : UserId} {trace : Uuid} {supply : Supply} {refusal : Refusal}
  {bodies : List ItemBody} {items : List Item} {order : OrderId} {fresh : Nat → ItemId}
  {index : Nat}

/-! ## What is asked of a body -/

/-- The body names the user or nobody. -/
def IsOf (b : Body) (user : UserId) : Prop := b.user = none ∨ b.user = some user.uuid

/-- The identifiers that the items bring with them. -/
def givenIds (b : Body) : List ItemId := b.items.filterMap (·.given?)

/-- The identifiers that are added where the items bring none. -/
def addedIds (b : Body) (supply : Supply) : List ItemId :=
  b.items.zipIdx.filterMap fun (i, n) => i.added? (supply.item n)

/-- What the items come to, added up in sequence. -/
def total (b : Body) : Except MoneyFault Money :=
  b.items.foldlM (fun sum i => i.subtotal.bind sum.add) Money.zero

/-- Everything that is asked of a body. -/
structure IsAcceptable (b : Body) (user : UserId) : Prop where
  user : b.IsOf user
  items_ne_nil : b.items ≠ []
  items : ∀ i ∈ b.items, i.IsValid
  ids_nodup : b.givenIds.Nodup
  total : ∃ m, b.total = .ok m

/-- The first fault of a body: another user, then the first item that has a fault, then that there
are no items, then the first identifier that is repeated, then the total. -/
inductive Refuses (b : Body) (user : UserId) : Refusal → Prop
  | otherUser (huser : ¬ b.IsOf user) : Refuses b user (.invalidRequest .otherUser)
  | item {before after : List ItemBody} {i : ItemBody} {refusal : Refusal} (huser : b.IsOf user)
      (hitems : b.items = before ++ i :: after) (hbefore : ∀ j ∈ before, j.IsValid)
      (hitem : i.Refuses refusal) : Refuses b user refusal
  | noItems (huser : b.IsOf user) (hitems : b.items = []) :
      Refuses b user (.invalidRequest .noItems)
  | repeatedItem {before after : List ItemId} {id : ItemId} (huser : b.IsOf user)
      (hitems : ∀ i ∈ b.items, i.IsValid) (hids : b.givenIds = before ++ id :: after)
      (hbefore : before.Nodup) (hid : id ∈ before) :
      Refuses b user (.invalidRequest (.repeatedItem id))
  | total {fault : MoneyFault} (huser : b.IsOf user) (hne : b.items ≠ [])
      (hitems : ∀ i ∈ b.items, i.IsValid) (hids : b.givenIds.Nodup)
      (htotal : b.total = .error fault) : Refuses b user (.invalidValue fault)

/-- The identifiers that are added to a body repeat neither each other nor one of the body. -/
structure Supply.IsFresh (supply : Supply) (b : Body) : Prop where
  added_nodup : (b.addedIds supply).Nodup
  not_given : ∀ id ∈ b.addedIds supply, id ∉ b.givenIds

/-- The request is what the body asks for. -/
structure Yields (b : Body) (user : UserId) (trace : Uuid) (supply : Supply) (r : Request) :
    Prop where
  order : r.order = (b.id.map (⟨·⟩)).getD supply.order
  user : r.header.user = user
  createdAt : r.header.createdAt = b.createdAt.getD supply.now
  updatedAt : r.header.updatedAt = b.updatedAt.getD r.header.createdAt
  trace : r.trace = trace
  items : List.Forall₂ (ItemBody.Becomes r.order) b.items r.items

/-! ## All items -/

theorem toItems_cons (i : ItemBody) (is : List ItemBody) :
    toItems order fresh index (i :: is) =
      (toItem order (fresh index) i).bind fun item =>
        (toItems order fresh (index + 1) is).bind fun items => .ok (item :: items) := rfl

theorem exists_toItems (h : ∀ i ∈ bodies, i.IsValid) (order : OrderId) (fresh : Nat → ItemId)
    (index : Nat) : ∃ items, toItems order fresh index bodies = .ok items := by
  induction bodies generalizing index with
  | nil => exact ⟨[], rfl⟩
  | cons i is ih =>
      obtain ⟨item, hitem⟩ := (h i List.mem_cons_self).exists_toItem order (fresh index)
      obtain ⟨items, hitems⟩ := ih (fun j hj => h j (List.mem_cons_of_mem i hj)) (index + 1)
      rw [toItems_cons, hitem]
      exact ⟨item :: items, by rw [Except.bind, hitems]; rfl⟩

/-- Items are refused for the first that has a fault. -/
theorem toItems_of_refuses {before after : List ItemBody} {i : ItemBody}
    (hbefore : ∀ j ∈ before, j.IsValid) (h : i.Refuses refusal) :
    toItems order fresh index (before ++ i :: after) = .error refusal := by
  induction before generalizing index with
  | nil =>
      rw [List.nil_append, toItems_cons, h.toItem_eq]
      rfl
  | cons j before ih =>
      obtain ⟨item, hitem⟩ := (hbefore j List.mem_cons_self).exists_toItem order (fresh index)
      rw [List.cons_append, toItems_cons, hitem, Except.bind,
        ih fun k hk => hbefore k (List.mem_cons_of_mem j hk)]
      rfl

theorem isValid_or_exists_refuses (bodies : List ItemBody) :
    (∀ i ∈ bodies, i.IsValid) ∨ ∃ before i after refusal, bodies = before ++ i :: after ∧
      (∀ j ∈ before, ItemBody.IsValid j) ∧ i.Refuses refusal := by
  induction bodies with
  | nil => exact .inl (by simp)
  | cons i is ih =>
      rcases i.isValid_or_refuses with hi | ⟨refusal, hi⟩
      · rcases ih with his | ⟨before, j, after, refusal, rfl, hbefore, hj⟩
        · exact .inl (List.forall_mem_cons.mpr ⟨hi, his⟩)
        · exact .inr ⟨i :: before, j, after, refusal, rfl,
            List.forall_mem_cons.mpr ⟨hi, hbefore⟩, hj⟩
      · exact .inr ⟨[], i, is, refusal, rfl, by simp, hi⟩

theorem ne_nil_of_toItems (hne : bodies ≠ []) (h : toItems order fresh index bodies = .ok items) :
    items ≠ [] := by
  rw [← List.length_pos_iff, length_of_toItems h, List.length_pos_iff]
  exact hne

/-- Items are what is asked for, one by one. -/
theorem becomes_of_toItems (h : toItems order fresh index bodies = .ok items) :
    List.Forall₂ (ItemBody.Becomes order) bodies items := by
  have hgives := (forall₂_of_toItems h).imp fun _ _ hgive => hgive.becomes
  have hbodies : (bodies.zipIdx index).map Prod.fst = bodies := List.zipIdx_map_fst index bodies
  rw [← hbodies, List.forall₂_map_left_iff]
  exact hgives

theorem order_of_toItems (h : toItems order fresh index bodies = .ok items) :
    ∀ i ∈ items, i.order = order := by
  have hbecomes := becomes_of_toItems h
  clear h
  induction hbecomes with
  | nil => simp
  | cons hbecome _ ih => exact List.forall_mem_cons.mpr ⟨hbecome.order, ih⟩

/-- The induction behind `total_of_toItems`: from any sum. -/
theorem foldlM_of_gives {numbered : List (ItemBody × Nat)}
    (h : List.Forall₂ (fun b i => b.1.Gives order (fresh b.2) i) numbered items) (sum : Money) :
    items.foldlM (fun sum i => i.subtotal.bind sum.add) sum =
      (numbered.map Prod.fst).foldlM (fun sum i => i.subtotal.bind sum.add) sum := by
  induction h generalizing sum with
  | nil => rfl
  | cons hgive _ ih =>
      rw [List.map_cons, List.foldlM_cons, List.foldlM_cons, hgive.subtotal_eq]
      exact bind_congr ih

/-- The items come to what the body comes to. -/
theorem total_of_toItems (h : toItems order fresh 0 b.items = .ok items) :
    Item.total items = b.total := by
  have hfold := foldlM_of_gives (forall₂_of_toItems h) Money.zero
  rw [List.zipIdx_map_fst] at hfold
  exact hfold

/-! ## Identifiers of items -/

/-- The identifiers are those of the body, with those that are added in between. -/
theorem split_ids {keep : ItemId → Bool}
    (hgiven : ∀ id ∈ bodies.filterMap (·.given?), keep id = true)
    (hadded : ∀ id ∈ (bodies.zipIdx index).filterMap fun (i, n) => i.added? (fresh n),
      keep id = false)
    (h : List.Forall₂ (fun b i => b.1.Gives order (fresh b.2) i) (bodies.zipIdx index) items) :
    (items.map (·.id)).filter keep = bodies.filterMap (·.given?) ∧
      (items.map (·.id)).filter (!keep ·) =
        (bodies.zipIdx index).filterMap fun (i, n) => i.added? (fresh n) := by
  induction bodies generalizing index items with
  | nil =>
      cases h
      exact ⟨rfl, rfl⟩
  | cons b bs ih =>
      rw [List.zipIdx_cons] at h hadded ⊢
      obtain _ | ⟨hgive, hrest⟩ := h
      rw [List.filterMap_cons] at hgiven hadded
      rw [List.map_cons, List.filterMap_cons, List.filterMap_cons, hgive.id]
      cases hid : b.id with
      | some u =>
          simp only [ItemBody.given?, ItemBody.added?, hid] at hgiven hadded ⊢
          obtain ⟨hkeep, hgiven⟩ := List.forall_mem_cons.mp hgiven
          obtain ⟨hkept, hrest⟩ := ih hgiven hadded hrest
          refine ⟨(List.filter_cons_of_pos hkeep).trans (congrArg _ hkept), ?_⟩
          exact (List.filter_cons_of_neg (by simp [hkeep])).trans hrest
      | none =>
          simp only [ItemBody.given?, ItemBody.added?, hid] at hgiven hadded ⊢
          obtain ⟨hkeep, hadded⟩ := List.forall_mem_cons.mp hadded
          obtain ⟨hkept, hrest⟩ := ih hgiven hadded hrest
          refine ⟨(List.filter_cons_of_neg (by simp [hkeep])).trans hkept, ?_⟩
          exact (List.filter_cons_of_pos (by simp [hkeep])).trans (congrArg _ hrest)

/-- **Fresh identifiers do not matter** for which identifier is repeated. -/
theorem firstRepeated_of_toItems (hfresh : supply.IsFresh b)
    (h : toItems order supply.item 0 b.items = .ok items) :
    Request.firstRepeated ∅ (items.map (·.id)) = Request.firstRepeated ∅ b.givenIds := by
  have hgiven : ∀ id ∈ b.givenIds, decide (id ∈ b.givenIds) = true := fun _ => decide_eq_true
  have hnew : ∀ id ∈ b.addedIds supply, decide (id ∈ b.givenIds) = false := fun id hid =>
    decide_eq_false (hfresh.not_given id hid)
  obtain ⟨hkept, hadded⟩ := split_ids hgiven hnew (forall₂_of_toItems h)
  have hnodup := hfresh.added_nodup
  unfold addedIds at hnodup
  rw [← hadded] at hnodup
  calc Request.firstRepeated ∅ (items.map (·.id))
    _ = Request.firstRepeated ∅ ((items.map (·.id)).filter (decide <| · ∈ b.givenIds)) :=
        Request.firstRepeated_filter _ (fun _ _ => Iff.rfl) hnodup (by simp)
    _ = Request.firstRepeated ∅ b.givenIds := congrArg _ hkept

theorem nodup_of_toItems (hfresh : supply.IsFresh b) (hids : b.givenIds.Nodup)
    (h : toItems order supply.item 0 b.items = .ok items) : (items.map (·.id)).Nodup := by
  have hnone : Request.firstRepeated ∅ (items.map (·.id)) = none := by
    rw [firstRepeated_of_toItems hfresh h, Request.firstRepeated_eq_none_iff]
    exact ⟨hids, by simp⟩
  exact (Request.nodup_of_firstRepeated hnone).1

/-! ## Bodies -/

theorem any_user_iff : b.user.any (· ≠ user.uuid) = true ↔ ¬ b.IsOf user := by
  unfold IsOf
  cases b.user <;> simp

theorem toRequest_of_isOf (h : b.IsOf user) :
    b.toRequest user trace supply =
      (toItems (b.header user supply).id supply.item 0 b.items).bind fun items =>
        Request.new (b.header user supply) items trace := by
  unfold toRequest
  rw [if_neg fun hany => any_user_iff.mp hany h]
  rfl

/-- If no item has a fault, a request is made of them if they make one. -/
theorem exists_items (huser : b.IsOf user) (hitems : ∀ i ∈ b.items, i.IsValid) (trace : Uuid)
    (supply : Supply) :
    ∃ items, toItems (b.header user supply).id supply.item 0 b.items = .ok items ∧
      (∀ i ∈ items, i.order = (b.header user supply).id) ∧
      b.toRequest user trace supply = Request.new (b.header user supply) items trace := by
  obtain ⟨items, h⟩ := exists_toItems hitems (b.header user supply).id supply.item 0
  refine ⟨items, h, order_of_toItems h, ?_⟩
  rw [toRequest_of_isOf huser, h]
  rfl

/-- **A body with a fault is refused** for the first that it has. -/
theorem Refuses.toRequest_eq (h : b.Refuses user refusal) (hfresh : supply.IsFresh b)
    (trace : Uuid) : b.toRequest user trace supply = .error refusal := by
  cases h with
  | otherUser huser =>
      unfold toRequest
      rw [if_pos (any_user_iff.mpr huser)]
      rfl
  | item huser hitems hbefore hitem =>
      rw [toRequest_of_isOf huser, hitems, toItems_of_refuses hbefore hitem]
      rfl
  | noItems huser hitems =>
      rw [toRequest_of_isOf huser, hitems]
      exact Request.new_of_nil _ trace
  | repeatedItem huser hvalid hids hbefore hid =>
      obtain ⟨items, hitems, hown, hnew⟩ := exists_items huser hvalid trace supply
      rw [hnew]
      apply Request.new_of_repeated hown
      rw [firstRepeated_of_toItems hfresh hitems, Request.firstRepeated_eq_some_iff]
      exact ⟨_, _, hids, hbefore, by simp, .inr hid⟩
  | total huser hne hvalid hids htotal =>
      obtain ⟨items, hitems, hown, hnew⟩ := exists_items huser hvalid trace supply
      rw [hnew]
      exact Request.new_of_total_error hown (ne_nil_of_toItems hne hitems)
        (nodup_of_toItems hfresh hids hitems) ((total_of_toItems hitems).trans htotal) trace

/-- **A body without fault is accepted.** -/
theorem IsAcceptable.exists_toRequest (h : b.IsAcceptable user) (hfresh : supply.IsFresh b)
    (trace : Uuid) : ∃ r, b.toRequest user trace supply = .ok r := by
  obtain ⟨items, hitems, hown, hnew⟩ := exists_items h.user h.items trace supply
  obtain ⟨whole, htotal⟩ := h.total
  rw [hnew]
  exact Request.exists_new hown (ne_nil_of_toItems h.items_ne_nil hitems)
    (nodup_of_toItems hfresh h.ids_nodup hitems) ((total_of_toItems hitems).trans htotal) trace

/-- A body has all that is asked of it, or a first fault. -/
theorem isAcceptable_or_refuses (b : Body) (user : UserId) :
    b.IsAcceptable user ∨ ∃ refusal, b.Refuses user refusal := by
  by_cases huser : b.IsOf user
  case neg => exact .inr ⟨_, .otherUser huser⟩
  rcases isValid_or_exists_refuses b.items with hvalid | ⟨before, i, after, refusal, hfault⟩
  case inr => exact .inr ⟨refusal, .item huser hfault.1 hfault.2.1 hfault.2.2⟩
  by_cases hne : b.items = []
  case pos => exact .inr ⟨_, .noItems huser hne⟩
  cases hrepeated : Request.firstRepeated ∅ b.givenIds with
  | some id =>
      obtain ⟨before, after, hids, hbefore, -, hid⟩ :=
        Request.firstRepeated_eq_some_iff.mp hrepeated
      exact .inr ⟨_, .repeatedItem huser hvalid hids hbefore (hid.resolve_left (by simp))⟩
  | none =>
      have hids := (Request.nodup_of_firstRepeated hrepeated).1
      cases htotal : b.total with
      | error fault => exact .inr ⟨_, .total huser hne hvalid hids htotal⟩
      | ok m => exact .inl ⟨huser, hne, hvalid, hids, m, htotal⟩

theorem yields_of_toRequest {r : Request} (h : b.toRequest user trace supply = .ok r) :
    b.Yields user trace supply r := by
  have huser : b.IsOf user := by
    by_contra hother
    unfold toRequest at h
    rw [if_pos (any_user_iff.mpr hother)] at h
    cases h
  rw [toRequest_of_isOf huser] at h
  obtain ⟨items, hitems, hnew⟩ := ok_of_bind h
  obtain ⟨hheader, rfl, htrace⟩ := Request.eq_of_new hnew
  exact
    { order := congrArg Header.id hheader
      user := congrArg Header.user hheader
      createdAt := congrArg Header.createdAt hheader
      updatedAt := by rw [hheader]; rfl
      trace := htrace
      items := by
        rw [Request.order, hheader]
        exact becomes_of_toItems hitems }

/-- **A body is accepted or refused for its first fault.** It is accepted if it has all that is asked
of it, and only then; otherwise the refusal is the first fault that it has. The request of a body
that is accepted is what the body asks for. -/
theorem accepted_or_refused (b : Body) (user : UserId) (trace : Uuid) (supply : Supply)
    (hfresh : supply.IsFresh b) :
    ((∃ r, b.toRequest user trace supply = .ok r) ↔ b.IsAcceptable user) ∧
      (∀ refusal, b.toRequest user trace supply = .error refusal ↔ b.Refuses user refusal) ∧
      ∀ r, b.toRequest user trace supply = .ok r → b.Yields user trace supply r := by
  refine ⟨⟨?_, fun h => h.exists_toRequest hfresh trace⟩, fun refusal => ⟨?_, ?_⟩,
    fun r => yields_of_toRequest⟩
  · rintro ⟨r, hr⟩
    rcases b.isAcceptable_or_refuses user with h | ⟨refusal, h⟩
    · exact h
    · cases hr.symm.trans (h.toRequest_eq hfresh trace)
  · intro hrefusal
    rcases b.isAcceptable_or_refuses user with h | ⟨refusal', h⟩
    · obtain ⟨r, hr⟩ := h.exists_toRequest hfresh trace
      cases hr.symm.trans hrefusal
    · cases hrefusal.symm.trans (h.toRequest_eq hfresh trace)
      exact h
  · exact fun h => h.toRequest_eq hfresh trace

end Body

/-! A body of two items, of which only the first brings an identifier, and one that has several
faults: the price of its second item has a digit too many, its third item has no pieces, and all have
the same identifier. -/

namespace Sample

def numbered : Body.Supply where
  order := ⟨.zero⟩
  item n := ⟨⟨n % 16, Nat.lt_trans (Nat.mod_lt n (by decide)) (by decide)⟩⟩
  now := .epoch

/-- An item at a price of so many thousandths. -/
def itemOf (id : Option Uuid) (m : Fin 10000) (quantity : UInt32) : ItemBody :=
  ⟨id, .zero, ⟨false, m, 3, Nat.lt_trans m.isLt (by decide), by decide⟩, quantity⟩

def pair : Body where
  id := none
  user := some .zero
  items := [itemOf (some ⟨16, by decide⟩) 1500 2, itemOf none 0 1]
  createdAt := some .epoch
  updatedAt := none

def faulty : Body :=
  let id : Uuid := ⟨16, by decide⟩
  { pair with items := [itemOf (some id) 1500 2, itemOf (some id) 1005 1, itemOf (some id) 0 0] }

end Sample

namespace Body

theorem accepted_or_refused_sample :
    Sample.numbered.IsFresh Sample.pair ∧ Sample.numbered.IsFresh Sample.faulty ∧
      (∃ r, Sample.pair.toRequest ⟨.zero⟩ .zero Sample.numbered = .ok r ∧
        Sample.pair.Yields ⟨.zero⟩ .zero Sample.numbered r) ∧
      Sample.faulty.toRequest ⟨.zero⟩ .zero Sample.numbered =
        .error (.invalidValue (.tooFine (Sample.itemOf none 1005 1).price)) := by
  have hpair : Sample.numbered.IsFresh Sample.pair := ⟨by decide, by decide⟩
  have hfaulty : Sample.numbered.IsFresh Sample.faulty := ⟨by decide, by decide⟩
  refine ⟨hpair, hfaulty, ?_, ?_⟩
  · obtain ⟨haccepted, -, hyields⟩ :=
      accepted_or_refused Sample.pair ⟨.zero⟩ .zero Sample.numbered hpair
    have hvalid : ∀ i ∈ Sample.pair.items, i.IsValid :=
      List.forall_mem_cons.mpr ⟨⟨⟨_, rfl⟩, by decide⟩, List.forall_mem_singleton.mpr
        ⟨⟨_, rfl⟩, by decide⟩⟩
    obtain ⟨r, hr⟩ := haccepted.mpr ⟨.inr rfl, by decide, hvalid, by decide, _, rfl⟩
    exact ⟨r, hr, hyields r hr⟩
  · obtain ⟨-, hrefused, -⟩ :=
      accepted_or_refused Sample.faulty ⟨.zero⟩ .zero Sample.numbered hfaulty
    -- the first item is valid, and the second has a fault
    refine (hrefused _).mpr (.item (.inr rfl) (List.singleton_append).symm ?_ (.price rfl))
    exact List.forall_mem_singleton.mpr ⟨⟨_, rfl⟩, by decide⟩

end Body

end Checkout
