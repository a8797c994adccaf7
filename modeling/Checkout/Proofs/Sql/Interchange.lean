import Checkout.Proofs.Sql.Ideal
import Checkout.Proofs.Sql.Limits
import Checkout.Proofs.Sql.Settling

/-!
# The two stores are interchangeable

If the tables of a relational server hold the contents of a store in memory, a batch that sends no
overlong statement is answered as it is in memory, and the tables then hold the contents that the
store in memory has (`process_idle`). So it goes on with every further batch (`inTurn_idle`,
`stores_interchangeable`).
-/

namespace Checkout

open Batch

variable {σ ρ : Type}

/-- Outcomes are the same if both are orders that are the same, prices compared by value, or both are
the same failure. -/
def Outcome.Same : Outcome → Outcome → Prop
  | .ok o, .ok o' => o.same o' = true
  | .error e, .error e' => e = e'
  | _, _ => False

/-- Deliveries are the same if they go to the same one and their outcomes are the same. -/
structure Delivery.Same {ρ : Type} (d d' : Delivery ρ) : Prop where
  responder : d.responder = d'.responder
  outcome : Outcome.Same d.outcome d'.outcome

namespace Batch

/-- Answers batches one after the other. -/
def inTurn (answer : List (Pending ρ) → StateM σ (List (Delivery ρ)))
    (batches : List (List (Pending ρ))) : StateM σ (List (List (Delivery ρ))) :=
  batches.mapM answer

theorem run_inTurn_cons (answer : List (Pending ρ) → StateM σ (List (Delivery ρ)))
    (batch : List (Pending ρ)) (batches : List (List (Pending ρ))) (s : σ) :
    (inTurn answer (batch :: batches)).run s =
      let first := (answer batch).run s
      let rest := (inTurn answer batches).run first.2
      (first.1 :: rest.1, rest.2) := by
  unfold inTurn
  rw [List.mapM_cons]
  rfl

end Batch

namespace Sql

open Connection

variable {π : Type} {db : Database π} {view : π → Server} {t : Tables} {orders : List Order}
  {m : Memory} {c : Connection (Recorded π)}

/-! ## What requests are told -/

/-- Whoever asks for an order gets the one that has been found. -/
theorem Found.outcome_same {found : List Order} (h : Found found orders)
    (hnd : (orders.map (·.id)).Nodup) (rejected : List (OrderId × CheckoutError)) (r : Request) :
    Outcome.Same (Settlement.outcome ⟨found, rejected⟩ r)
      (Settlement.outcome ⟨orders, rejected⟩ r) := by
  unfold Settlement.outcome
  dsimp only
  cases rejected.find? (·.1 = r.order) with
  | some clash => rfl
  | none =>
      dsimp only
      by_cases hid : r.order ∈ orders.map (·.id)
      · obtain ⟨o, ho, heq⟩ := List.mem_map.mp hid
        obtain ⟨o', ho', hsame⟩ := h.same o ho
        rw [← heq, Order.find?_of_mem hnd ho, ← Order.id_eq_of_same hsame,
          Order.find?_of_mem h.ids_nodup ho']
        exact hsame
      · have hnot : r.order ∉ found.map (·.id) := by
          intro hmem
          obtain ⟨o', ho', heq⟩ := List.mem_map.mp hmem
          exact hid (heq ▸ h.id_mem o' ho')
        rw [Order.find?_of_not_mem hid, Order.find?_of_not_mem hnot]
        rfl

/-! ## Batches -/

/-- **A batch is answered as in memory**, unless an overlong statement is sent. -/
theorem process_idle (hdb : Relational db view) (hm : m.Reachable) (hfailing : m.failing = [])
    {batch : List (Pending ρ)} (hkept : ∀ q ∈ batch, q.request.IsKept)
    (hidle : Idle view (·.Holds m.contents) c) :
    Overlong ((process (store db.recorded) batch).run c).2 ∨
      List.Forall₂ Delivery.Same ((process (store db.recorded) batch).run c).1
          (processInMemory batch m).1 ∧
        Idle view (·.Holds (processInMemory batch m).2.contents)
          ((process (store db.recorded) batch).run c).2 := by
  by_cases hnil : batch = []
  · subst hnil
    exact .inr ⟨.nil, hidle⟩
  obtain ⟨hdeliveries, hsale⟩ := processInMemory_committed hm.sound hfailing batch
  have hsub : ((screen ∅ ∅ batch).2.map (·.request)).Sublist (batch.map (·.request)) :=
    (screen_kept_sublist batch).map _
  have hrequests : ∀ r ∈ (screen ∅ ∅ batch).2.map (·.request), r.IsKept := by
    intro r hr
    obtain ⟨q, hq, rfl⟩ := List.mem_map.mp (hsub.subset hr)
    exact hkept q hq
  obtain ⟨hclosed, t, hview, hholds⟩ := hidle
  have hsettle : Yields view t (· = t) (settle (store db.recorded) _) _ :=
    (Yields.settle hdb hm.sound (kept_separate batch) hrequests hsale).mono fun t' ht => ht ▸ hholds
  have htransact := transact_yields hdb hsettle ⟨hclosed, t, hview, rfl⟩
  rw [hdeliveries, process_of_kept _ _ (screen_kept_ne_nil hnil)]
  dsimp only
  rcases hperform : StoreAction.perform (transact (store db.recorded)
    ((screen ∅ ∅ batch).2.map (·.request))) c with ⟨e | s, d⟩ <;> rw [hperform] at htransact ⊢
  · exact .inl htransact
  · refine htransact.imp_right ?_
    rintro ⟨hclosed', t', hview', hholds', hrejected, hfound⟩
    refine ⟨List.rel_append ?_ ?_, hclosed', t', hview', hholds'⟩
    -- whoever is turned away before the transaction is told the same failure
    · refine List.forall₂_same.mpr fun d hd => ⟨rfl, ?_⟩
      obtain ⟨e, he, -⟩ := screen_rejected hd
      rw [he]
      rfl
    · unfold Batch.tell
      rw [List.forall₂_map_left_iff, List.forall₂_map_right_iff]
      refine List.forall₂_same.mpr fun q _ => ⟨rfl, ?_⟩
      rcases s with ⟨persisted, rejected⟩
      obtain rfl : rejected = _ := hrejected
      exact hfound.outcome_same (Contents.fits_sales_admitted (kept_separate batch)).ids_nodup _ _

/-! ## Batches one after the other -/

/-- A batch of so few products and requests that none of its statements has more than `n`
parameters for them. -/
structure Moderate (n : Nat) (batch : List (Pending ρ)) : Prop where
  products : 3 * (Request.products (batch.map (·.request))).length ≤ n
  requests : batch.length ≤ n

/-- A run does the same on a database that keeps a record, and sends only what is allowed. -/
theorem inTurn_sends (db : Database π) {n : Nat} (hrows : 5 * rowsPerStatement ≤ n)
    {batches : List (List (Pending ρ))} (h : ∀ batch ∈ batches, Moderate n batch)
    (c : Connection π) (sent : List Statement) :
    ∃ new, (inTurn (process (store db.recorded)) batches).run (c.recording sent) =
        (((inTurn (process (store db)) batches).run c).1,
          ((inTurn (process (store db)) batches).run c).2.recording (sent ++ new)) ∧
      ∀ s ∈ new, Within n s := by
  induction batches generalizing c sent with
  | nil =>
      refine ⟨[], ?_, fun _ hs => absurd hs List.not_mem_nil⟩
      rw [List.append_nil]
      rfl
  | cons batch batches ih =>
      have hbatch := h batch List.mem_cons_self
      obtain ⟨first, hfirst, hwithin⟩ :=
        process_sends db hrows hbatch.products hbatch.requests c sent
      obtain ⟨rest, hrest, hwithin'⟩ := ih (fun b hb => h b (List.mem_cons_of_mem _ hb))
        ((process (store db) batch).run c).2 (sent ++ first)
      refine ⟨first ++ rest, ?_, ?_⟩
      · rw [run_inTurn_cons, run_inTurn_cons, hfirst]
        dsimp only
        rw [hrest, List.append_assoc]
      · intro s hs
        rcases List.mem_append.mp hs with hs | hs
        · exact hwithin s hs
        · exact hwithin' s hs

/-- There is a number of parameters that none of the batches exceeds. -/
theorem exists_bound (batches : List (List (Pending ρ))) :
    ∃ n, 5 * rowsPerStatement ≤ n ∧ ∀ batch ∈ batches, Moderate n batch := by
  induction batches with
  | nil => exact ⟨_, Nat.le_refl _, fun _ hb => absurd hb List.not_mem_nil⟩
  | cons batch batches ih =>
      obtain ⟨n, hrows, h⟩ := ih
      refine ⟨n + 3 * (Request.products (batch.map (·.request))).length + batch.length, by omega,
        fun b hb => ?_⟩
      rcases List.mem_cons.mp hb with rfl | hb
      · exact ⟨by omega, by omega⟩
      · obtain ⟨hproducts, hrequests⟩ := h b hb
        exact ⟨by omega, by omega⟩

/-- The statements that are sent for the batches, one after the other, to a database that has been
idle. -/
def statements (db : Database π) (batches : List (List (Pending ρ))) (p : π) : List Statement :=
  ((inTurn (process (store db.recorded)) batches).run ((new p).recording [])).2.remembered.sent

/-- Moderate batches send no statement with too many parameters. -/
theorem within_of_mem_statements {n : Nat} (hrows : 5 * rowsPerStatement ≤ n)
    {batches : List (List (Pending ρ))} (h : ∀ batch ∈ batches, Moderate n batch)
    {p : π} {s : Statement} (hs : s ∈ statements db batches p) : Within n s := by
  obtain ⟨sent, hrun, hwithin⟩ := inTurn_sends db hrows h (new p) []
  unfold statements at hs
  rw [hrun] at hs
  exact hwithin s hs

theorem overlong_inTurn (batches : List (List (Pending ρ))) (h : Overlong c) :
    Overlong ((inTurn (process (store db.recorded)) batches).run c).2 := by
  obtain ⟨n, hrows, hbound⟩ := exists_bound batches
  obtain ⟨new, hrun, -⟩ := inTurn_sends db hrows hbound ⟨c.remembered.inner, c.isOpen, c.isClosed⟩
    c.remembered.sent
  exact h.of_sent (congrArg (fun r => r.2.remembered.sent) hrun)

/-- **Batches are answered as in memory**, one after the other, unless an overlong statement is
sent. -/
theorem inTurn_idle (hdb : Relational db view) (hm : m.Reachable) (hfailing : m.failing = [])
    {batches : List (List (Pending ρ))} (hkept : ∀ batch ∈ batches, ∀ q ∈ batch, q.request.IsKept)
    (hidle : Idle view (·.Holds m.contents) c) :
    Overlong ((inTurn (process (store db.recorded)) batches).run c).2 ∨
      List.Forall₂ (List.Forall₂ Delivery.Same)
          ((inTurn (process (store db.recorded)) batches).run c).1
          ((inTurn processInMemory batches).run m).1 ∧
        Idle view (·.Holds ((inTurn processInMemory batches).run m).2.contents)
          ((inTurn (process (store db.recorded)) batches).run c).2 := by
  induction batches generalizing m c with
  | nil => exact .inr ⟨.nil, hidle⟩
  | cons batch batches ih =>
      rw [run_inTurn_cons, run_inTurn_cons]
      dsimp only
      rcases process_idle hdb hm hfailing (hkept batch List.mem_cons_self) hidle with
        hlong | ⟨hsame, hidle'⟩
      · exact .inl (overlong_inTurn batches hlong)
      · refine (ih (hm.step (.process batch)) ((failing_processInMemory hm.sound batch).trans hfailing)
          (fun batch' hbatch' => hkept batch' (List.mem_cons_of_mem _ hbatch')) hidle').imp_right ?_
        rintro ⟨hrest, hidle''⟩
        exact ⟨.cons hsame hrest, hidle''⟩

/-- **The store in a database and the store in memory are interchangeable.** At the other end of the
connection there is a relational server, its tables hold the contents that a store in memory has
come to, and no statement has too many parameters. Then batches are answered as by a store in
memory with these contents that is not told to fail, and afterwards the tables hold the contents of
that store. -/
theorem stores_interchangeable (hdb : Relational db view) (hm : m.Reachable) {p : π}
    (hidle : view p = ⟨t, none⟩) (hholds : t.Holds m.contents)
    {batches : List (List (Pending ρ))}
    (hkept : ∀ batch ∈ batches, ∀ q ∈ batch, q.request.IsKept)
    (hlimit : ∀ s ∈ statements db batches p, s.parameters.length ≤ parameterLimit) :
    let sql := (inTurn (process (store db)) batches).run (new p)
    let inMemory := (inTurn processInMemory batches).run m.clearFailures
    List.Forall₂ (List.Forall₂ Delivery.Same) sql.1 inMemory.1 ∧
      ∃ t', view sql.2.remembered = ⟨t', none⟩ ∧ t'.Holds inMemory.2.contents := by
  have hidle' : Idle view (·.Holds m.clearFailures.contents) ((new p).recording []) :=
    ⟨rfl, t, hidle, hholds⟩
  obtain ⟨n, hrows, hbound⟩ := exists_bound batches
  obtain ⟨sent, hrun, -⟩ := inTurn_sends db hrows hbound (new p) []
  have hm' : m.clearFailures.Reachable := hm.step (.clearFailures : Event ρ)
  have hshort : ¬ Overlong ((inTurn (process (store db.recorded)) batches).run
      ((new p).recording [])).2 := by
    rintro ⟨s, hs, hlong⟩
    exact Nat.not_lt.mpr (hlimit s hs) hlong
  have hrest := (inTurn_idle hdb hm' rfl hkept hidle').resolve_left hshort
  rw [hrun] at hrest
  obtain ⟨hsame, -, t', hview, hholds'⟩ := hrest
  exact ⟨hsame, t', hview, hholds'⟩

end Sql

/-! Twice the same batch, at the beginning of 2024. -/

namespace Sample

/-- The request, made at the beginning of 2024. -/
def dated (r : Request) : Request :=
  let time := newYear 2024 (by decide)
  { r with header := { r.header with createdAt := time, updatedAt := time } }

def batches : List (List (Pending Nat)) :=
  List.replicate 2 (batch.map fun p => { p with request := dated p.request })

end Sample

namespace Sql

theorem stores_interchangeable_sample :
    let sql := (inTurn (process (store ideal)) Sample.batches).run
      (.new ⟨.of Sample.store.contents, none⟩)
    let inMemory := (inTurn processInMemory Sample.batches).run Sample.store.clearFailures
    List.Forall₂ (List.Forall₂ Delivery.Same) sql.1 inMemory.1 ∧
      ∃ t', sql.2.remembered = ⟨t', none⟩ ∧ t'.Holds inMemory.2.contents := by
  have hholds : (Tables.of Sample.store.contents).Holds Sample.store.contents :=
    Tables.of_holds Sample.store_reachable.sound (fun _ _ hh => by cases hh) fun _ hi => by cases hi
  have htime : (Sample.newYear 2024 (by decide)).IsKept := ⟨⟨by decide, by decide⟩, rfl, by decide⟩
  have hfree : ∀ p ∈ Sample.batch, ∀ i ∈ p.request.items, i.price = .zero := by decide
  have hkept : ∀ batch ∈ Sample.batches, ∀ q ∈ batch, q.request.IsKept := by
    intro batch hbatch q hq
    rw [List.eq_of_mem_replicate hbatch] at hq
    obtain ⟨p, hp, rfl⟩ := List.mem_map.mp hq
    refine ⟨⟨htime, htime⟩, fun i hi => ⟨0, ?_, by decide⟩⟩
    rw [hfree p hp i hi]
    rfl
  have hmoderate : ∀ batch ∈ Sample.batches, Moderate parameterLimit batch := by
    intro batch hbatch
    rw [List.eq_of_mem_replicate hbatch]
    exact ⟨by decide, by decide⟩
  exact stores_interchangeable ideal_relational Sample.store_reachable rfl hholds hkept
    fun s hs => within_of_mem_statements (by decide) hmoderate hs

end Sql

end Checkout
