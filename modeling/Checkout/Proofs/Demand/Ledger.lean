import Checkout.Demand.Basic
import Mathlib.Algebra.Ring.Nat

/-!
# The merged ledger

The items of a batch arrive one after the other, request by request: `Arrival.ofBatch` lists them
with their positions. Merging the batch sorts this list by product. `merge_collects` says so: the
ledger has one demand for each product that is asked for, in ascending order, and each demand is
what `Demand.gather` picks out of the arrivals for its product.
-/

namespace Checkout

namespace Identifier

variable {kind : Kind} {a b c : Identifier kind}

theorem before_iff : a.before b = true ↔ a.uuid.value < b.uuid.value := decide_eq_true_iff

theorem before_irrefl : ¬ a.before a = true := by
  rw [before_iff]
  exact Nat.lt_irrefl _

theorem before_trans (hab : a.before b = true) (hbc : b.before c = true) : a.before c = true := by
  rw [before_iff] at hab hbc ⊢
  exact Nat.lt_trans hab hbc

/-- Of two different identifiers one comes before the other. -/
theorem before_of_not_before (hne : a ≠ b) (h : ¬ a.before b = true) : b.before a = true := by
  rw [before_iff] at h ⊢
  refine Nat.lt_of_le_of_ne (Nat.le_of_not_lt h) fun heq => hne ?_
  rcases a with ⟨⟨_, _⟩⟩
  rcases b with ⟨⟨_, _⟩⟩
  cases heq
  rfl

end Identifier

/-! ## Arrivals -/

/-- An item of a batch, and where it stands. -/
structure Arrival where
  position : Position
  item : Item

namespace Position

/-- Comes strictly before in the batch. -/
def before (p q : Position) : Prop :=
  p.request < q.request ∨ p.request = q.request ∧ p.item < q.item

theorem ne_of_before {p q : Position} (h : p.before q) : p ≠ q := by
  rintro rfl
  rcases h with h | ⟨-, h⟩ <;> exact Nat.lt_irrefl _ h

end Position

namespace Arrival

/-- What the item adds to the demand for its product. -/
def contribution (a : Arrival) : Contribution := ⟨a.position, a.item.quantity⟩

/-- The items of one request, numbered from `item` on. -/
def ofItems (request item : Nat) : List Item → List Arrival
  | [] => []
  | i :: is => ⟨⟨request, item⟩, i⟩ :: ofItems request (item + 1) is

/-- The items of the requests, numbered from `request` on. -/
def ofRequests (request : Nat) : List Request → List Arrival
  | [] => []
  | r :: rs => ofItems request 0 r.items ++ ofRequests (request + 1) rs

/-- The items of a batch. -/
def ofBatch (requests : List Request) : List Arrival := ofRequests 0 requests

@[simp] theorem map_item_ofItems (request item : Nat) (is : List Item) :
    (ofItems request item is).map (·.item) = is := by
  induction is generalizing item with
  | nil => rfl
  | cons i is ih => rw [ofItems, List.map_cons, ih]

@[simp] theorem map_item_ofRequests (request : Nat) (rs : List Request) :
    (ofRequests request rs).map (·.item) = rs.flatMap (·.items) := by
  induction rs generalizing request with
  | nil => rfl
  | cons r rs ih => rw [ofRequests, List.map_append, map_item_ofItems, ih, List.flatMap_cons]

theorem ofRequests_append (request : Nat) (rs later : List Request) :
    ofRequests request (rs ++ later) =
      ofRequests request rs ++ ofRequests (request + rs.length) later := by
  induction rs generalizing request with
  | nil => rfl
  | cons r rs ih =>
      rw [List.cons_append, ofRequests, ofRequests, ih, List.append_assoc, List.length_cons,
        Nat.add_right_comm, Nat.add_assoc]

/-- The items of a request are among the arrivals of its batch. -/
theorem mem_ofRequests {request index : Nat} {rs : List Request} {r : Request} {a : Arrival}
    (hr : (r, index) ∈ rs.zipIdx request) (ha : a ∈ ofItems index 0 r.items) :
    a ∈ ofRequests request rs := by
  induction rs generalizing request with
  | nil => cases hr
  | cons r' rs ih =>
      rw [List.zipIdx_cons] at hr
      rcases List.mem_cons.mp hr with heq | hr
      · cases heq
        exact List.mem_append_left _ ha
      · exact List.mem_append_right _ (ih hr)

theorem ofItems_split {is : List Item} {n : Nat} {i : Item} (request item : Nat)
    (h : is[n]? = some i) :
    ofItems request item is = ofItems request item (is.take n) ++
      ⟨⟨request, item + n⟩, i⟩ :: ofItems request (item + n + 1) (is.drop (n + 1)) := by
  induction is generalizing n item with
  | nil => cases h
  | cons i' is ih =>
      cases n with
      | zero =>
          cases h
          rfl
      | succ n =>
          have hrest := ih (item + 1) h
          rw [Nat.add_right_comm item 1 n] at hrest
          rw [ofItems, hrest]
          rfl

theorem ofRequests_split {rs : List Request} {n : Nat} {r : Request} (request : Nat)
    (h : rs[n]? = some r) :
    ofRequests request rs = ofRequests request (rs.take n) ++
      (ofItems (request + n) 0 r.items ++ ofRequests (request + n + 1) (rs.drop (n + 1))) := by
  induction rs generalizing n request with
  | nil => cases h
  | cons r' rs ih =>
      cases n with
      | zero =>
          cases h
          rfl
      | succ n =>
          have hrest := ih (request + 1) h
          rw [Nat.add_right_comm request 1 n] at hrest
          rw [ofRequests, hrest, List.take_succ_cons, ofRequests, List.append_assoc]
          rfl

/-- **What has arrived with an item**: the items of all requests before its own, and in its own
request those before it. -/
theorem ofBatch_split {requests : List Request} {r i : Nat} {request : Request} {item : Item}
    (hr : requests[r]? = some request) (hi : request.items[i]? = some item) :
    ∃ earlier later, ofBatch requests = earlier ++ ⟨⟨r, i⟩, item⟩ :: later ∧
      earlier.map (·.item) = (requests.take r).flatMap (·.items) ++ request.items.take i := by
  have hitems := ofItems_split r 0 hi
  have hrequests := ofRequests_split 0 hr
  rw [Nat.zero_add] at hitems hrequests
  rw [hitems, List.append_assoc, ← List.append_assoc] at hrequests
  exact ⟨_, _, hrequests, by simp⟩

theorem request_of_mem_ofItems {request item : Nat} {is : List Item} {a : Arrival}
    (h : a ∈ ofItems request item is) :
    a.position.request = request ∧ item ≤ a.position.item ∧ a.position.item < item + is.length := by
  induction is generalizing item with
  | nil => cases h
  | cons i is ih =>
      rcases List.mem_cons.mp h with rfl | h
      · exact ⟨rfl, Nat.le_refl _, by simp⟩
      · obtain ⟨hr, hle, hlt⟩ := ih h
        rw [List.length_cons]
        exact ⟨hr, by omega, by omega⟩

theorem request_of_mem_ofRequests {request : Nat} {rs : List Request} {a : Arrival}
    (h : a ∈ ofRequests request rs) :
    request ≤ a.position.request ∧
      ∃ r, rs[a.position.request - request]? = some r ∧ a.position.item < r.items.length := by
  induction rs generalizing request with
  | nil => cases h
  | cons r rs ih =>
      rcases List.mem_append.mp h with h | h
      · obtain ⟨hr, -, hlt⟩ := request_of_mem_ofItems h
        refine ⟨by omega, r, ?_, by omega⟩
        rw [hr, Nat.sub_self]
        rfl
      · obtain ⟨hle, r', hr', hlt⟩ := ih h
        refine ⟨by omega, r', ?_, hlt⟩
        rw [show a.position.request - request = a.position.request - (request + 1) + 1 by omega]
        exact hr'

theorem ofItems_ascending (request item : Nat) (is : List Item) :
    (ofItems request item is).Pairwise (fun a b => a.position.before b.position) := by
  induction is generalizing item with
  | nil => exact .nil
  | cons i is ih =>
      refine .cons ?_ (ih (item + 1))
      intro b hb
      obtain ⟨hr, hle, -⟩ := request_of_mem_ofItems hb
      exact .inr ⟨hr.symm, hle⟩

theorem ofRequests_ascending (request : Nat) (rs : List Request) :
    (ofRequests request rs).Pairwise (fun a b => a.position.before b.position) := by
  induction rs generalizing request with
  | nil => exact .nil
  | cons r rs ih =>
      refine List.pairwise_append.mpr ⟨ofItems_ascending _ _ _, ih _, ?_⟩
      intro a ha b hb
      have hr := (request_of_mem_ofItems ha).1
      have hle := (request_of_mem_ofRequests hb).1
      exact .inl (by omega)

/-- **The items of a batch arrive at strictly ascending positions.** -/
theorem ofBatch_ascending (requests : List Request) :
    (ofBatch requests).Pairwise (fun a b => a.position.before b.position) :=
  ofRequests_ascending 0 requests

theorem ofBatch_positions_nodup (requests : List Request) :
    ((ofBatch requests).map (·.position)).Nodup :=
  List.pairwise_map.mpr ((ofBatch_ascending requests).imp Position.ne_of_before)

/-- The arrivals that ask for a product. -/
def asking (product : ProductId) (as : List Arrival) : List Arrival :=
  as.filter (·.item.product = product)

theorem mem_asking {product : ProductId} {as : List Arrival} {a : Arrival} :
    a ∈ asking product as ↔ a ∈ as ∧ a.item.product = product := by
  simp [asking]

end Arrival

/-! ## Gathering the demand for a product -/

/-- So many pieces are contributed. -/
def total (cs : List Contribution) : Nat := (cs.map (·.quantity.toNat)).sum

@[simp] theorem total_nil : total [] = 0 := rfl

@[simp] theorem total_cons (c : Contribution) (cs : List Contribution) :
    total (c :: cs) = c.quantity.toNat + total cs := by
  simp [total]

@[simp] theorem total_append (cs ds : List Contribution) :
    total (cs ++ ds) = total cs + total ds := by
  simp [total]

@[simp] theorem total_reverse (cs : List Contribution) : total cs.reverse = total cs := by
  simp [total]

namespace Demand

open Arrival

/-- The demand for a product that a list of arrivals makes. -/
def gather (product : ProductId) (as : List Arrival) : Demand where
  product := product
  quantity := total ((asking product as).map contribution)
  newestFirst := ((asking product as).map contribution).reverse

theorem gather_eq_none {product : ProductId} {as : List Arrival}
    (h : product ∉ as.map (·.item.product)) : gather product as = none product := by
  have hnil : asking product as = [] := by
    apply List.filter_eq_nil_iff.mpr
    intro a ha heq
    exact h (List.mem_map.mpr ⟨a, ha, by simpa using heq⟩)
  simp [gather, hnil, none]

/-- One more arrival is pushed upon the demand for its own product. -/
theorem gather_append (a : Arrival) (as : List Arrival) :
    gather a.item.product (as ++ [a]) = (gather a.item.product as).push a.contribution := by
  simp [gather, asking, push, contribution]

theorem gather_append_of_ne {product : ProductId} {a : Arrival} (as : List Arrival)
    (h : a.item.product ≠ product) : gather product (as ++ [a]) = gather product as := by
  simp [gather, asking, h]

end Demand

/-! ## Recording arrivals one by one -/

namespace Ledger

open Demand

variable {product : ProductId} {c : Contribution} {as : List Arrival} {ds : List Demand}

/-- Each product is demanded once, and products ascend. -/
def Ascending (ds : List Demand) : Prop :=
  ds.Pairwise (fun d e => d.product.before e.product = true)

theorem Ascending.products_nodup (h : Ascending ds) : (ds.map (·.product)).Nodup := by
  refine List.pairwise_map.mpr (h.imp ?_)
  intro d e hde heq
  rw [heq] at hde
  exact Identifier.before_irrefl hde

theorem mem_products_record (p : ProductId) :
    p ∈ (record product c ds).map (·.product) ↔ p = product ∨ p ∈ ds.map (·.product) := by
  induction ds with
  | nil => simp [record, Demand.push, Demand.none]
  | cons d ds ih =>
      unfold record
      split
      next h => simp [Demand.push, h]
      next h =>
        split
        · simp [Demand.push, Demand.none]
        · rw [List.map_cons, List.mem_cons, ih, List.map_cons, List.mem_cons]
          exact or_left_comm

theorem Ascending.record (h : Ascending ds) : Ascending (record product c ds) := by
  induction ds with
  | nil => exact List.pairwise_singleton _ _
  | cons d ds ih =>
      obtain ⟨hd, hds⟩ := List.pairwise_cons.mp h
      unfold Ledger.record
      split
      next heq => exact List.pairwise_cons.mpr ⟨hd, hds⟩
      next hne =>
        split
        next hlt =>
          refine List.pairwise_cons.mpr ⟨?_, h⟩
          intro e he
          rcases List.mem_cons.mp he with rfl | he
          · exact hlt
          · exact Identifier.before_trans hlt (hd e he)
        next hge =>
          refine List.pairwise_cons.mpr ⟨?_, ih hds⟩
          intro e he
          have hmem := (mem_products_record e.product).mp (List.mem_map_of_mem he)
          rcases hmem with heq | hmem
          · rw [heq]
            exact Identifier.before_of_not_before hne hge
          -- `e` holds a product of the rest, where all products come after `d`
          · obtain ⟨e', he', heq⟩ := List.mem_map.mp hmem
            rw [← heq]
            exact hd e' he'

/-- What a recorded list of demands holds: for another product what it held before, for the product
itself one more contribution upon what there was. -/
theorem mem_record (h : Ascending ds) {e : Demand} (he : e ∈ record product c ds) :
    (e ∈ ds ∧ e.product ≠ product) ∨
      ∃ d, (d ∈ ds ∧ d.product = product ∨
        product ∉ ds.map (·.product) ∧ d = Demand.none product) ∧ e = d.push c := by
  induction ds with
  | nil =>
      obtain rfl := List.mem_singleton.mp he
      exact .inr ⟨_, .inr ⟨List.not_mem_nil, rfl⟩, rfl⟩
  | cons d ds ih =>
      obtain ⟨hd, hds⟩ := List.pairwise_cons.mp h
      unfold record at he
      split at he
      next heq =>
        rcases List.mem_cons.mp he with rfl | he
        · exact .inr ⟨d, .inl ⟨List.mem_cons_self, heq.symm⟩, rfl⟩
        · refine .inl ⟨List.mem_cons_of_mem _ he, fun hep => ?_⟩
          have := hd e he
          rw [hep, heq] at this
          exact Identifier.before_irrefl this
      next hne =>
        split at he
        next hlt =>
          -- all products of the list come after the new one
          have hafter : ∀ e ∈ d :: ds, product.before e.product = true := by
            intro e he
            rcases List.mem_cons.mp he with rfl | he
            · exact hlt
            · exact Identifier.before_trans hlt (hd e he)
          have hne' : ∀ e ∈ d :: ds, e.product ≠ product := by
            intro e he heq
            have := hafter e he
            rw [heq] at this
            exact Identifier.before_irrefl this
          rcases List.mem_cons.mp he with rfl | he
          · refine .inr ⟨_, .inr ⟨fun hmem => ?_, rfl⟩, rfl⟩
            obtain ⟨e, he, heq⟩ := List.mem_map.mp hmem
            exact hne' e he heq
          · exact .inl ⟨he, hne' e he⟩
        next hge =>
          rcases List.mem_cons.mp he with rfl | he
          · exact .inl ⟨List.mem_cons_self, fun heq => hne heq.symm⟩
          rcases ih hds he with ⟨hmem, hep⟩ | ⟨d', hd', rfl⟩
          · exact .inl ⟨List.mem_cons_of_mem _ hmem, hep⟩
          refine .inr ⟨d', ?_, rfl⟩
          rcases hd' with ⟨hmem, heq⟩ | ⟨hnot, heq⟩
          · exact .inl ⟨List.mem_cons_of_mem _ hmem, heq⟩
          · refine .inr ⟨?_, heq⟩
            rw [List.map_cons, List.mem_cons]
            rintro (heq | hmem)
            · exact hne heq
            · exact hnot hmem

/-- The demands are those that the arrivals make, product by product. -/
structure Collects (as : List Arrival) (ds : List Demand) : Prop where
  ascending : Ascending ds
  mem_products : ∀ p, p ∈ ds.map (·.product) ↔ p ∈ as.map (·.item.product)
  eq_gather : ∀ d ∈ ds, d = gather d.product as

theorem Collects.nil : Collects [] [] :=
  ⟨List.Pairwise.nil, fun _ => Iff.rfl, fun _ h => absurd h List.not_mem_nil⟩

/-- One more arrival is recorded. -/
theorem Collects.record (h : Collects as ds) (a : Arrival) :
    Collects (as ++ [a]) (record a.item.product a.contribution ds) where
  ascending := h.ascending.record
  mem_products p := by
    rw [mem_products_record, h.mem_products, List.map_append, List.mem_append, or_comm]
    simp
  eq_gather e he := by
    rcases mem_record h.ascending he with ⟨hmem, hne⟩ | ⟨d, hd, rfl⟩
    · rw [gather_append_of_ne _ hne.symm]
      exact h.eq_gather e hmem
    · have hold : d = gather a.item.product as := by
        rcases hd with ⟨hmem, heq⟩ | ⟨hnot, heq⟩
        · rw [← heq]
          exact h.eq_gather d hmem
        · rw [heq, gather_eq_none]
          rw [← h.mem_products]
          exact hnot
      rw [hold]
      exact (gather_append a as).symm

theorem Collects.recordItems (h : Collects as ds) (request item : Nat) (is : List Item) :
    Collects (as ++ Arrival.ofItems request item is) (recordItems request item ds is) := by
  induction is generalizing item as ds with
  | nil =>
      rw [Arrival.ofItems, List.append_nil]
      exact h
  | cons i is ih =>
      have hstep := ih (h.record ⟨⟨request, item⟩, i⟩) (item + 1)
      rw [List.append_assoc] at hstep
      exact hstep

theorem Collects.recordRequests (h : Collects as ds) (request : Nat) (rs : List Request) :
    Collects (as ++ Arrival.ofRequests request rs) (recordRequests request ds rs) := by
  induction rs generalizing request as ds with
  | nil =>
      rw [Arrival.ofRequests, List.append_nil]
      exact h
  | cons r rs ih =>
      have hstep := ih (h.recordItems request 0 r.items) (request + 1)
      rw [List.append_assoc] at hstep
      exact hstep

/-- **The ledger of a batch holds the demand that its arrivals make, product by product.** -/
theorem merge_collects (requests : List Request) :
    Collects (Arrival.ofBatch requests) (merge requests).demands :=
  Collects.nil.recordRequests 0 requests

end Ledger

end Checkout
