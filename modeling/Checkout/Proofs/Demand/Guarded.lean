import Checkout.Proofs.Demand.Partition
import Checkout.Proofs.Memory.History

/-!
# Merging and resolving under guard

A quantity is a word of 64 bits, and the items given up are marked in a table that has a row for each
request. So merging and resolving a batch could go wrong: a sum may not fit, more may be taken back
than there is, too much may be asked for where nobody asks, an item may be marked that has no place
in the table or is marked already. `Guarded.merge` and `Guarded.resolve` check all of this and stop
at the first `Mishap`.

They never stop (`meets_no_mishap`): unguarded merging and resolving come to the same.
-/

namespace Checkout

/-- What must not happen while a batch is merged and resolved. -/
inductive Mishap where
  /-- The demand for a product does not fit into 64 bits. -/
  | overflow (product : ProductId)
  /-- More is taken back from the demand for a product than was asked for. -/
  | underflow (product : ProductId)
  /-- Too much of a product is asked for, but nobody asks for it. -/
  | exhausted (product : ProductId)
  /-- The table has no such place. -/
  | outOfRange (position : Position)
  /-- The item is given up already. -/
  | givenUpTwice (position : Position)

/-- Which items survive: a row for each request, with an entry for each of its items. -/
structure Table where
  rows : List (List Bool)
  /-- How many items are given up. -/
  givenUp : Nat

namespace Table

/-- The table where all items survive. -/
def full (itemCounts : List Nat) : Table := ⟨itemCounts.map (List.replicate · true), 0⟩

/-- The entry at a position, if there is one. -/
def at? (t : Table) (p : Position) : Option Bool := t.rows[p.request]?.bind (·[p.item]?)

/-- Gives up the item at a position. -/
def giveUp (t : Table) (p : Position) : Except Mishap Table :=
  match t.at? p with
  | none => .error (.outOfRange p)
  | some false => .error (.givenUpTwice p)
  | some true => .ok ⟨t.rows.modify p.request (·.set p.item false), t.givenUp + 1⟩

/-- Gives up items one after the other. -/
def giveUpAll (t : Table) (ps : List Position) : Except Mishap Table := ps.foldlM giveUp t

theorem at?_full (itemCounts : List Nat) (p : Position) :
    (full itemCounts).at? p =
      if (itemCounts[p.request]?).any (p.item < ·) then some true else none := by
  unfold at? full
  rw [List.getElem?_map]
  cases itemCounts[p.request]? with
  | none => rfl
  | some count => simp [List.getElem?_replicate]

/-- An item that survives can be given up; nothing else changes. -/
theorem giveUp_ok {t : Table} {p : Position} (h : t.at? p = some true) :
    ∃ t', t.giveUp p = .ok t' ∧ t'.givenUp = t.givenUp + 1 ∧
      ∀ q, t'.at? q = if q = p then some false else t.at? q := by
  unfold giveUp
  rw [h]
  refine ⟨_, rfl, rfl, fun q => ?_⟩
  obtain ⟨row, hrow, hentry⟩ := Option.bind_eq_some_iff.mp h
  unfold at?
  dsimp only
  by_cases hrequest : p.request = q.request
  · rw [← hrequest, List.getElem?_modify_eq, hrow]
    show (row.set p.item false)[q.item]? = if q = p then some false else row[q.item]?
    by_cases hitem : p.item = q.item
    · obtain rfl : q = p := by
        cases p; cases q
        exact congr (congrArg Position.mk hrequest.symm) hitem.symm
      rw [if_pos rfl, List.getElem?_set_self (List.getElem?_eq_some_iff.mp hentry).1]
    · rw [List.getElem?_set_ne hitem, if_neg]
      rintro rfl
      exact hitem rfl
  · rw [List.getElem?_modify_ne _ _ hrequest, if_neg]
    rintro rfl
    exact hrequest rfl

/-- Different items that survive can all be given up, one after the other. -/
theorem giveUpAll_ok {t : Table} {ps : List Position} (hnodup : ps.Nodup)
    (h : ∀ p ∈ ps, t.at? p = some true) :
    ∃ t', t.giveUpAll ps = .ok t' ∧ t'.givenUp = t.givenUp + ps.length ∧
      ∀ q, t'.at? q = if q ∈ ps then some false else t.at? q := by
  induction ps generalizing t with
  | nil => exact ⟨t, rfl, rfl, fun q => (if_neg List.not_mem_nil).symm⟩
  | cons p ps ih =>
      obtain ⟨hp, hnodup⟩ := List.nodup_cons.mp hnodup
      obtain ⟨t₁, hgiven, hcount, hat⟩ := giveUp_ok (h p List.mem_cons_self)
      -- those behind `p` are others, so they still survive
      have hrest : ∀ q ∈ ps, t₁.at? q = some true := by
        intro q hq
        rw [hat, if_neg (ne_of_mem_of_not_mem hq hp)]
        exact h q (List.mem_cons_of_mem _ hq)
      obtain ⟨t₂, hgiven₂, hcount₂, hat₂⟩ := ih hnodup hrest
      refine ⟨t₂, ?_, by rw [hcount₂, hcount, List.length_cons]; omega, fun q => ?_⟩
      · show (t.giveUp p).bind (fun t => t.giveUpAll ps) = _
        rw [hgiven]
        exact hgiven₂
      · rw [hat₂, hat]
        by_cases hq : q = p
        · simp [hq]
        · simp [hq]

end Table

/-! ## Guarded merging -/

namespace Guarded

/-- One more item asks for the product; the sum must fit into 64 bits. -/
def push (d : Demand) (c : Contribution) : Except Mishap Demand :=
  if (d.push c).quantity < UInt64.size then .ok (d.push c) else .error (.overflow d.product)

/-- Adds a contribution to the demand for a product. -/
def record (product : ProductId) (c : Contribution) : List Demand → Except Mishap (List Demand)
  | [] => return [← push (.none product) c]
  | d :: ds => do
    if product = d.product then return (← push d c) :: ds
    else if product.before d.product then return (← push (.none product) c) :: d :: ds
    else return d :: (← record product c ds)

/-- Adds the items of one request, numbered from `item` on. -/
def recordItems (request : Nat) (item : Nat) (demands : List Demand) :
    List Item → Except Mishap (List Demand)
  | [] => .ok demands
  | i :: is => do
    recordItems request (item + 1) (← record i.product ⟨⟨request, item⟩, i.quantity⟩ demands) is

/-- Adds the items of the requests, numbered from `request` on. -/
def recordRequests (request : Nat) (demands : List Demand) :
    List Request → Except Mishap (List Demand)
  | [] => .ok demands
  | r :: rs => do recordRequests (request + 1) (← recordItems request 0 demands r.items) rs

/-- Collects the demand of a batch. -/
def merge (requests : List Request) : Except Mishap Ledger := do
  return ⟨← recordRequests 0 [] requests, requests.map (·.items.length)⟩

theorem push_eq {d : Demand} {c : Contribution} (h : (d.push c).quantity < UInt64.size) :
    push d c = .ok (d.push c) := if_pos h

theorem record_eq {product : ProductId} {c : Contribution} {ds : List Demand}
    (h : ∀ d ∈ Ledger.record product c ds, d.quantity < UInt64.size) :
    record product c ds = .ok (Ledger.record product c ds) := by
  induction ds with
  | nil =>
      unfold record
      rw [push_eq (h _ List.mem_cons_self)]
      rfl
  | cons d ds ih =>
      unfold Ledger.record at h ⊢
      unfold record
      split
      next heq =>
        rw [if_pos heq] at h
        rw [push_eq (h _ List.mem_cons_self)]
        rfl
      next hne =>
        rw [if_neg hne] at h
        split
        next hlt =>
          rw [if_pos hlt] at h
          rw [push_eq (h _ List.mem_cons_self)]
          rfl
        next hge =>
          rw [if_neg hge] at h
          rw [ih fun e he => h e (List.mem_cons_of_mem _ he)]
          rfl

theorem recordItems_eq {as : List Arrival} {ds : List Demand} (h : Ledger.Collects as ds)
    {request item : Nat} {is : List Item}
    (hlength : (as ++ Arrival.ofItems request item is).length < UInt32.size) :
    recordItems request item ds is = .ok (Ledger.recordItems request item ds is) := by
  induction is generalizing item as ds with
  | nil => rfl
  | cons i is ih =>
      have hnext := h.record ⟨⟨request, item⟩, i⟩
      rw [Arrival.ofItems, List.append_cons] at hlength
      have hfits := Nat.lt_of_le_of_lt (List.prefix_append ..).length_le hlength
      have hfirst : record i.product ⟨⟨request, item⟩, i.quantity⟩ ds = .ok _ :=
        record_eq fun _ => hnext.quantity_lt hfits
      unfold recordItems
      rw [hfirst]
      exact ih hnext hlength

theorem recordRequests_eq {as : List Arrival} {ds : List Demand} (h : Ledger.Collects as ds)
    {request : Nat} {rs : List Request}
    (hlength : (as ++ Arrival.ofRequests request rs).length < UInt32.size) :
    recordRequests request ds rs = .ok (Ledger.recordRequests request ds rs) := by
  induction rs generalizing request as ds with
  | nil => rfl
  | cons r rs ih =>
      rw [Arrival.ofRequests, ← List.append_assoc] at hlength
      have hfits := Nat.lt_of_le_of_lt (List.prefix_append ..).length_le hlength
      unfold recordRequests
      rw [recordItems_eq h hfits]
      exact ih (h.recordItems request 0 r.items) hlength

/-- Merging fits into 64 bits, if the batch has fewer items than 32 bits can count. -/
theorem merge_eq {requests : List Request}
    (h : (requests.flatMap (·.items)).length < UInt32.size) :
    merge requests = .ok (Ledger.merge requests) := by
  have hlength : ([] ++ Arrival.ofRequests 0 requests).length < UInt32.size :=
    Ledger.length_ofBatch requests ▸ h
  unfold merge
  rw [recordRequests_eq .nil hlength]
  rfl

/-! ## Guarded resolving -/

/-- Pops contributions until the demand fits, and gives up their items. -/
def shrinkWhile (available : Nat) (d : Demand) (t : Table) : Except Mishap (Demand × Table) :=
  if available < d.quantity then
    match _ : d.pop? with
    | none => .error (.exhausted d.product)
    | some (c, d') =>
      if c.quantity.toNat ≤ d.quantity then
        (t.giveUp c.position).bind (shrinkWhile available d')
      else .error (.underflow d.product)
  else .ok (d, t)
termination_by d.newestFirst.length
decreasing_by exact Demand.length_lt_of_pop? (by assumption)

/-- Fits the demand into the available stock, and gives up the items that do not fit. -/
def shrink (available : Nat) (d : Demand) (t : Table) : Except Mishap (Demand × Table) :=
  if available = 0 then (t.giveUpAll d.clear.1).map (d.clear.2, ·) else shrinkWhile available d t

/-- Fits demands into the stock one after the other. -/
def shrinkAll (stock : List StockRow) (t : Table) :
    List Demand → Except Mishap (List Demand × Table)
  | [] => .ok ([], t)
  | d :: ds => do
    let (d, t) ← shrink (available stock d.product).toNat d t
    let (ds, t) ← shrinkAll stock t ds
    return (d :: ds, t)

/-- Gives up items until every demand fits into the stock; what is left of the demands, and the
table of the items. -/
def resolve (l : Ledger) (stock : List StockRow) : Except Mishap (List Demand × Table) :=
  shrinkAll stock (.full l.itemCounts) l.demands

theorem giveUpAll_append (t : Table) (ps qs : List Position) :
    t.giveUpAll (ps ++ qs) = (t.giveUpAll ps).bind (·.giveUpAll qs) :=
  List.foldlM_append

/-- The guarded loop gives up what the loop gives up, where quantities are sums. -/
theorem shrinkWhile_eq {available : Nat} {d : Demand} (h : d.Tallied) (t : Table) :
    shrinkWhile available d t =
      (t.giveUpAll (Demand.shrinkFrom d.product available d.quantity d.newestFirst).1).map
        ((Demand.shrinkFrom d.product available d.quantity d.newestFirst).2, ·) := by
  obtain ⟨product, quantity, cs⟩ := d
  induction cs generalizing quantity t with
  | nil =>
      have hle : ¬ available < quantity := by
        rw [show quantity = 0 from h]
        exact Nat.not_lt_zero _
      rw [shrinkWhile, if_neg hle]
      rfl
  | cons c cs ih =>
      have hpop : Demand.pop? ⟨product, quantity, c :: cs⟩ =
          some (c, ⟨product, quantity - c.quantity.toNat, cs⟩) := rfl
      rw [shrinkWhile, Demand.shrinkFrom]
      split
      next hlt =>
        dsimp only [Demand.pop?]
        rw [if_pos (h.quantity_le_of_pop? hpop)]
        show (t.giveUp c.position).bind _ = ((t.giveUp c.position).bind _).map _
        cases t.giveUp c.position with
        | error mishap => rfl
        | ok t' => exact ih t' _ (h.pop? hpop)
      next hge => rfl

theorem shrink_eq (available : Nat) {d : Demand} (h : d.Tallied) (t : Table) :
    shrink available d t =
      (t.giveUpAll (d.shrink available).1).map ((d.shrink available).2, ·) := by
  unfold shrink Demand.shrink
  split
  · rfl
  · exact shrinkWhile_eq h t

theorem shrinkAll_eq (stock : List StockRow) {ds : List Demand} (h : ∀ d ∈ ds, d.Tallied)
    (t : Table) :
    shrinkAll stock t ds =
      (t.giveUpAll (ds.flatMap fun d => (d.shrink (available stock d.product).toNat).1)).map
        (ds.map fun d => (d.shrink (available stock d.product).toNat).2, ·) := by
  induction ds generalizing t with
  | nil => rfl
  | cons d ds ih =>
      obtain ⟨hd, hds⟩ := List.forall_mem_cons.mp h
      unfold shrinkAll
      rw [shrink_eq _ hd, List.flatMap_cons, giveUpAll_append]
      cases t.giveUpAll (d.shrink (available stock d.product).toNat).1 with
      | error mishap => rfl
      | ok t' =>
          show (shrinkAll stock t' ds).bind _ = (t'.giveUpAll _).map _
          rw [ih hds]
          cases t'.giveUpAll (ds.flatMap _) with
          | error mishap => rfl
          | ok t'' => rfl

open Resolution in
/-- Resolving a merged batch meets no mishap with any stock. The table says which items survive. -/
theorem resolve_merge (requests : List Request) (stock : List StockRow) :
    ∃ t, resolve (.merge requests) stock = .ok ((ofBatch requests stock).demands, t) ∧
      t.givenUp = (ofBatch requests stock).evictedItems ∧
      ∀ p, t.at? p = if (ofBatch requests stock).inRange p then
        some (!(ofBatch requests stock).isEvicted p) else none := by
  have hnodup := givenUp_nodup requests stock
  have hsurvives : ∀ p ∈ givenUp requests stock,
      (Table.full (Ledger.merge requests).itemCounts).at? p = some true := by
    intro p hp
    obtain ⟨d, hd, hmem⟩ := List.mem_flatMap.mp hp
    obtain ⟨a, ha, rfl⟩ := exists_asking_of_mem_shrink hd hmem
    rw [Table.at?_full]
    exact if_pos (inRange_of_mem (Arrival.mem_asking.mp ha).1 : (ofBatch requests stock).inRange _)
  obtain ⟨t, hgiven, hcount, hat⟩ := Table.giveUpAll_ok hnodup hsurvives
  refine ⟨t, ?_, ?_, fun p => ?_⟩
  · unfold resolve
    rw [shrinkAll_eq stock fun _ => (Ledger.merge_collects requests).tallied]
    show (Table.giveUpAll _ (givenUp requests stock)).map _ = _
    rw [hgiven]
    show Except.ok (_, t) = .ok (List.map _ (List.map _ _), t)
    rw [List.map_map]
    rfl
  · rw [hcount, evictedItems_eq]
    exact Nat.zero_add _
  · have hmem : p ∈ givenUp requests stock ↔ (ofBatch requests stock).evicted.contains p := by
      rw [Std.ExtTreeSet.contains_iff_mem, mem_evicted_iff]
    have hfull : (Table.full (Ledger.merge requests).itemCounts).at? p =
        if (ofBatch requests stock).inRange p then some true else none := Table.at?_full _ p
    rw [hat, hfull, isEvicted]
    cases hrange : (ofBatch requests stock).inRange p with
    | false =>
        have hp : p ∉ givenUp requests stock := by
          intro hp
          have hentry := hsurvives p hp
          rw [hfull, hrange] at hentry
          cases hentry
        rw [if_neg hp]
        rfl
    | true =>
        by_cases hp : p ∈ givenUp requests stock
        · rw [if_pos hp, hmem.mp hp]
          rfl
        · rw [if_neg hp, Bool.eq_false_iff.mpr fun hgiven => hp (hmem.mpr hgiven)]
          rfl

/-! ## No mishap -/

/-- **Merging and resolving meet no mishap.** A batch has fewer items than 32 bits can count. Merged,
it is parted into the demands for its products, and their quantities fit into 64 bits all the time.
Quantities stay what the contributions come to, whatever is pushed, popped or cleared. So with any
stock no more is taken back than was asked for, the loop always finds somebody who asks, every item
given up has its place in the table, and none is given up twice. -/
theorem meets_no_mishap (requests : List Request)
    (h : (requests.flatMap (·.items)).length < UInt32.size) :
    let ledger := Ledger.merge requests
    ledger.Partitions requests ∧ merge requests = .ok ledger ∧
      (∀ d : Demand, d.Tallied → (∀ c, (d.push c).Tallied) ∧
        (∀ c d', d.pop? = some (c, d') → c.quantity.toNat ≤ d.quantity ∧ d'.Tallied) ∧
        d.clear.2.Tallied) ∧
      ∀ stock,
        let resolution := ledger.resolve stock
        ∃ table, resolve ledger stock = .ok (resolution.demands, table) ∧
          table.givenUp = resolution.evictedItems ∧
          ∀ p, table.at? p =
            if resolution.inRange p then some (!resolution.isEvicted p) else none := by
  intro ledger
  refine ⟨Ledger.merge_partitions h, merge_eq h, fun d hd => ?_, resolve_merge requests⟩
  exact ⟨hd.push, fun c d' hpop => ⟨hd.quantity_le_of_pop? hpop, hd.pop? hpop⟩,
    Demand.tallied_clear d⟩

/-- Two requests ask for two pieces of product 1 each, and there are three. -/
theorem meets_no_mishap_sample :
    let requests := [Sample.first, Sample.second]
    (requests.flatMap (·.items)).length < UInt32.size ∧
      (Ledger.merge requests).Partitions requests ∧
      merge requests = .ok (.merge requests) ∧
      ∃ demands table, resolve (.merge requests)
          [⟨Sample.firstProduct, 3⟩, ⟨Sample.secondProduct, 1⟩] = .ok (demands, table) ∧
        demands.map (·.quantity) = [2, 1] ∧ table.givenUp = 1 ∧
        table.at? ⟨0, 0⟩ = some true ∧ table.at? ⟨1, 0⟩ = some false ∧ table.at? ⟨1, 1⟩ = none := by
  intro requests
  have hlength : (requests.flatMap (·.items)).length < UInt32.size := by decide
  obtain ⟨hpartitions, hmerge, -, hresolve⟩ := meets_no_mishap requests hlength
  obtain ⟨table, hok, hgivenUp, hat⟩ :=
    hresolve [⟨Sample.firstProduct, 3⟩, ⟨Sample.secondProduct, 1⟩]
  exact ⟨hlength, hpartitions, hmerge, _, table, hok, rfl, hgivenUp, hat _, hat _, hat _⟩

end Guarded

end Checkout
