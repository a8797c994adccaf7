import Checkout.Http.Body
import Checkout.Http.Envelope
import Checkout.Proofs.Http.Receipt
import Checkout.Proofs.Json.Field
import Mathlib.Logic.Relation

/-!
# What is written can be read

A body is read from its own text, and from that of every object that says the same
(`Body.read_respelled`). An order that is shown is read from the text of its receipt
(`Receipt.read_shown`). What is read is what was written, with all digits of all decimals; only a
zero loses its sign.
-/

namespace Checkout

open Json (ReadFault RecordField Draft Symbol)
open Json.Draft
open Relation (ReflTransGen)

/-! ## Items of bodies -/

namespace ItemBody

/-- The item, with a price that has no sign if it is zero. -/
def unsigned (i : ItemBody) : ItemBody := { i with price := i.price.unsignZero }

theorem ofDraft_toJson (i : ItemBody) : ofDraft i.toJson.draft = .ok i.unsigned := by
  refine asRecord_object_eq_ok_iff.mpr
    ⟨⟨some i.id, some i.product, some i.price.unsignZero, some i.quantity.toNat⟩, ?_, ?_⟩
  · refine foldlM_cons_of_takes (.of rfl rfl (asOption_getD asUuid_toString i.id)) ?_
    refine foldlM_cons_of_takes (.of rfl rfl (asUuid_toString i.product)) ?_
    refine foldlM_cons_of_takes (.of rfl rfl (asDecimal_toString i.price)) ?_
    exact foldlM_cons_of_takes
      (.of rfl rfl (asNat_nat i.quantity.toNat_lt (by decide))) rfl
  · show some (ItemBody.mk i.id i.product i.price.unsignZero (UInt32.ofNat i.quantity.toNat)) = _
    rw [UInt32.ofNat_toNat]
    rfl

theorem lawful_fields : Lawful fields where
  marks := by
    simp only [fields, List.forall_mem_cons, List.not_mem_nil, false_implies, implies_true,
      and_true]
    refine ⟨?_, ?_, ?_, ?_⟩
    all_goals exact fun h => marks_of (fun _ _ => rfl) h
  apart := by
    simp only [fields, List.pairwise_cons, List.forall_mem_cons, List.not_mem_nil, false_implies,
      implies_true, List.Pairwise.nil, and_true]
    refine ⟨⟨?_, ?_, ?_⟩, ⟨?_, ?_⟩, ?_⟩
    all_goals exact .of (by decide) (fun _ _ _ => rfl) (fun _ _ => rfl) fun _ _ => rfl

theorem nullIsMissing_fields : ∀ f ∈ fields, NullIsMissing ofParts? f := by
  simp only [fields, List.forall_mem_cons, List.not_mem_nil, false_implies, implies_true, and_true]
  refine ⟨nullIsMissing_of_option fun r hr => ?_, nullIsMissing_of_error rfl,
    nullIsMissing_of_error rfl, nullIsMissing_of_error rfl⟩
  unfold ofParts?
  rw [hr]
  rfl

/-- Respells an item of a body. -/
def Respells : Json → Json → Prop :=
  Json.Respells (fields.map (·.name)) fun _ _ _ => False

theorem Respells.isProper {j j' : Json} (h : Respells j j') (hj : j.IsProper) : j'.IsProper :=
  Json.Respells.isProper (fun hfalse => hfalse.elim) h hj

theorem Respells.ofDraft {j j' : Json} (h : Respells j j') {i : ItemBody}
    (hread : ofDraft j.draft = .ok i) : ofDraft j'.draft = .ok i :=
  asRecord_respells lawful_fields nullIsMissing_fields (fun hfalse => hfalse.elim) h hread

theorem isProper_toJson (i : ItemBody) : i.toJson.IsProper := by
  refine ⟨?_, trivial, trivial, Json.Number.isProper_ofNat _, trivial⟩
  cases i.id <;> trivial

end ItemBody

/-! ## Bodies -/

namespace Body

/-- The body, with prices that have no sign if they are zero. -/
def unsigned (b : Body) : Body := { b with items := b.items.map ItemBody.unsigned }

theorem ofDraft_toJson (b : Body) : ofDraft b.toJson.draft = .ok b.unsigned := by
  refine asRecord_object_eq_ok_iff.mpr
    ⟨⟨some b.id, some b.user, some (b.items.map ItemBody.unsigned), some b.createdAt,
      some b.updatedAt⟩, ?_, rfl⟩
  refine foldlM_cons_of_takes (.of rfl rfl (asOption_getD asUuid_toString b.id)) ?_
  refine foldlM_cons_of_takes (.of rfl rfl (asOption_getD asUuid_toString b.user)) ?_
  refine foldlM_cons_of_takes
    (.of rfl rfl (asList_map fun i _ => ItemBody.ofDraft_toJson i)) ?_
  refine foldlM_cons_of_takes (.of rfl rfl (asOption_getD asTimestamp_toString b.createdAt)) ?_
  exact foldlM_cons_of_takes (.of rfl rfl (asOption_getD asTimestamp_toString b.updatedAt)) rfl

theorem lawful_fields : Lawful fields where
  marks := by
    simp only [fields, List.forall_mem_cons, List.not_mem_nil, false_implies, implies_true,
      and_true]
    refine ⟨?_, ?_, ?_, ?_, ?_⟩
    all_goals exact fun h => marks_of (fun _ _ => rfl) h
  apart := by
    simp only [fields, List.pairwise_cons, List.forall_mem_cons, List.not_mem_nil, false_implies,
      implies_true, List.Pairwise.nil, and_true]
    refine ⟨⟨?_, ?_, ?_, ?_⟩, ⟨?_, ?_, ?_⟩, ⟨?_, ?_⟩, ?_⟩
    all_goals exact .of (by decide) (fun _ _ _ => rfl) (fun _ _ => rfl) fun _ _ => rfl

theorem nullIsMissing_fields : ∀ f ∈ fields, NullIsMissing (some ∘ ofParts) f := by
  simp only [fields, List.forall_mem_cons, List.not_mem_nil, false_implies, implies_true, and_true]
  refine ⟨nullIsMissing_of_option ?_, nullIsMissing_of_option ?_, nullIsMissing_of_error rfl,
    nullIsMissing_of_option ?_, nullIsMissing_of_option ?_⟩
  all_goals
    intro r hr
    unfold Function.comp ofParts
    dsimp only
    rw [hr]
    rfl

/-- Respells a body, or an item of it. -/
def Respells : Json → Json → Prop :=
  Json.Respells (fields.map (·.name)) fun name value value' =>
    name = "order_items" ∧ ∃ before item item' after, ItemBody.Respells item item' ∧
      value = .array (before ++ item :: after) ∧ value' = .array (before ++ item' :: after)

theorem Respells.isProper {j j' : Json} (h : Respells j j') (hj : j.IsProper) : j'.IsProper := by
  refine Json.Respells.isProper ?_ h hj
  rintro _ _ _ ⟨-, before, item, item', after, hitem, rfl, rfl⟩ hitems
  have hall := Json.itemsProper_iff.mp hitems
  rw [List.forall_mem_append, List.forall_mem_cons] at hall
  exact Json.itemsProper_iff.mpr (List.forall_mem_append.mpr
    ⟨hall.1, List.forall_mem_cons.mpr ⟨hitem.isProper hall.2.1, hall.2.2⟩⟩)

theorem Respells.ofDraft {j j' : Json} (h : Respells j j') {b : Body}
    (hread : ofDraft j.draft = .ok b) : ofDraft j'.draft = .ok b := by
  refine asRecord_respells lawful_fields nullIsMissing_fields ?_ h hread
  rintro _ _ _ ⟨rfl, before, item, item', after, hitem, rfl, rfl⟩ f hfind r r' hread
  obtain rfl := Option.some.inj hfind
  obtain ⟨items, hitems, rfl⟩ := read_of_eq_ok.mp hread
  exact read_of_eq_ok.mpr ⟨items, asList_within hitem.ofDraft before after hitems, rfl⟩

theorem isProper_toJson (b : Body) : b.toJson.IsProper := by
  refine ⟨?_, ?_, ?_, ?_, ?_, trivial⟩
  · cases b.id <;> trivial
  · cases b.user <;> trivial
  · refine Json.itemsProper_iff.mpr fun j hj => ?_
    obtain ⟨i, -, rfl⟩ := List.mem_map.mp hj
    exact i.isProper_toJson
  · cases b.createdAt <;> trivial
  · cases b.updatedAt <;> trivial

variable {b : Body} {j : Json}

/-- What is respelled any number of times is still a body. -/
theorem ofDraft_respelled (h : ReflTransGen Respells b.toJson j) :
    j.IsProper ∧ ofDraft j.draft = .ok b.unsigned := by
  induction h with
  | refl => exact ⟨b.isProper_toJson, b.ofDraft_toJson⟩
  | tail _ hstep ih => exact ⟨hstep.isProper ih.1, hstep.ofDraft ih.2⟩

/-- **A body is read from every text that says the same as its own**, whether it must be the whole
text or only its beginning. -/
theorem read_respelled (h : ReflTransGen Respells b.toJson j) :
    ofWholeText (j.toString.toList.map some) = .ok b.unsigned ∧
      ofText (j.toString.toList.map some) = .ok b.unsigned := by
  obtain ⟨hproper, hread⟩ := ofDraft_respelled h
  refine ⟨readWhole_toString hproper hread, ?_⟩
  unfold ofText
  rw [read_toString hproper]
  exact hread

end Body

/-! ## Receipts -/

namespace ItemView

/-- The item as it is shown, with a price that has no sign if it is zero. -/
def unsigned (i : ItemView) : ItemView := { i with price := i.price.unsignZero }

theorem ofDraft_toJson {i : ItemView} (h : i.quantity < UInt32.size) :
    ofDraft i.toJson.draft = .ok i.unsigned := by
  refine asRecord_object_eq_ok_iff.mpr
    ⟨⟨some i.id, some i.order, some i.product, some i.price.unsignZero, some i.quantity⟩, ?_, rfl⟩
  refine foldlM_cons_of_takes (.of rfl rfl rfl) ?_
  refine foldlM_cons_of_takes (.of rfl rfl rfl) ?_
  refine foldlM_cons_of_takes (.of rfl rfl rfl) ?_
  refine foldlM_cons_of_takes (.of rfl rfl (asDecimal_toString i.price)) ?_
  exact foldlM_cons_of_takes (.of rfl rfl (asNat_nat h (by decide))) rfl

theorem isProper_toJson (i : ItemView) : i.toJson.IsProper :=
  ⟨trivial, trivial, trivial, trivial, Json.Number.isProper_ofNat _, trivial⟩

end ItemView

namespace OrderView

/-- The order as it is shown, with amounts that have no sign if they are zero. -/
def unsigned (o : OrderView) : OrderView :=
  { o with items := o.items.map ItemView.unsigned, total := o.total.unsignZero }

theorem ofDraft_toJson {o : OrderView} (h : ∀ i ∈ o.items, i.quantity < UInt32.size) :
    ofDraft o.toJson.draft = .ok o.unsigned := by
  refine asRecord_object_eq_ok_iff.mpr
    ⟨⟨some o.id, some o.user, some (o.items.map ItemView.unsigned), some o.total.unsignZero,
      some o.createdAt, some o.updatedAt⟩, ?_, rfl⟩
  refine foldlM_cons_of_takes (.of rfl rfl rfl) ?_
  refine foldlM_cons_of_takes (.of rfl rfl rfl) ?_
  refine foldlM_cons_of_takes
    (.of rfl rfl (asList_map fun i hi => ItemView.ofDraft_toJson (h i hi))) ?_
  refine foldlM_cons_of_takes (.of rfl rfl (asDecimal_toString o.total)) ?_
  refine foldlM_cons_of_takes (.of rfl rfl (asTimestamp_toString o.createdAt)) ?_
  exact foldlM_cons_of_takes (.of rfl rfl (asTimestamp_toString o.updatedAt)) rfl

theorem isProper_toJson (o : OrderView) : o.toJson.IsProper := by
  refine ⟨trivial, trivial, ?_, trivial, trivial, trivial, trivial⟩
  refine Json.itemsProper_iff.mpr fun j hj => ?_
  obtain ⟨i, -, rfl⟩ := List.mem_map.mp hj
  exact i.isProper_toJson

/-- Quantities are shown as they are. -/
theorem quantity_lt_of_ofOrder {o : Order} {view : OrderView} (h : ofOrder o = .ok view) :
    ∀ i ∈ view.items, i.quantity < UInt32.size := by
  obtain ⟨total, -, hview⟩ := ok_of_bind h
  cases hview
  intro i hi
  obtain ⟨item, -, rfl⟩ := List.mem_map.mp hi
  exact item.quantity.toNat_lt

end OrderView

namespace Receipt

/-- The receipt, with amounts that have no sign if they are zero. -/
def unsigned (r : Receipt) : Receipt := ⟨r.order.unsigned⟩

theorem ofDraft_toJson {r : Receipt} (h : ∀ i ∈ r.order.items, i.quantity < UInt32.size) :
    ofDraft r.toJson.draft = .ok r.unsigned :=
  asRecord_object_eq_ok_iff.mpr ⟨⟨some r.order.unsigned⟩,
    foldlM_cons_of_takes (.of rfl rfl (OrderView.ofDraft_toJson h)) rfl, rfl⟩

theorem isProper_toJson (r : Receipt) : r.toJson.IsProper := ⟨r.order.isProper_toJson, trivial⟩

end Receipt

/-- The envelope of a success is read if what is in it is. -/
theorem Success.ofDraft_toJson {α : Type} {readData : Draft → Except ReadFault α}
    {dataToJson : α → Json} (status : Status) {data data' : α}
    (h : readData (dataToJson data).draft = .ok data') :
    ofDraft readData ((new status data).toJson dataToJson).draft = .ok (new status data') := by
  have hstatus : status.code < UInt16.size := Nat.lt_trans status.code_range.2 (by decide)
  refine asRecord_object_eq_ok_iff.mpr ⟨⟨some "success", some status.code, some data'⟩, ?_, rfl⟩
  refine foldlM_cons_of_takes (.of rfl rfl rfl) ?_
  refine foldlM_cons_of_takes (.of rfl rfl (asNat_nat hstatus (by decide))) ?_
  exact foldlM_cons_of_takes (.of rfl rfl h) rfl

/-- **An order that is shown is read from the text of its receipt.** -/
theorem Receipt.read_shown {o : Order} {view : OrderView} (h : OrderView.ofOrder o = .ok view)
    (status : Status) :
    readWhole (Success.ofDraft ofDraft)
        (((Success.new status ⟨view⟩).toJson toJson).toString.toList.map some) =
      .ok (Success.new status ⟨view.unsigned⟩) := by
  have hproper : ((Success.new status ⟨view⟩).toJson toJson).IsProper :=
    ⟨trivial, Json.Number.isProper_ofNat _, isProper_toJson _, trivial⟩
  exact readWhole_toString hproper
    (Success.ofDraft_toJson status (ofDraft_toJson (OrderView.quantity_lt_of_ofOrder h)))

/-- **What is written can be read.** A body is read from its own text, and from that of every object
that says the same: members may be permuted in the body and in its items, those that are null may be
dropped, and others that nobody knows may be added. An order whose total can be computed is shown as
it is, and read from the text of its receipt. Amounts keep all their digits; only a zero loses its
sign. -/
theorem wire_round_trips :
    (∀ (b : Body) (j : Json), ReflTransGen Body.Respells b.toJson j →
      Body.ofWholeText (j.toString.toList.map some) = .ok b.unsigned ∧
        Body.ofText (j.toString.toList.map some) = .ok b.unsigned) ∧
      ∀ (o : Order) (total : Money) (status : Status), o.total = .ok total →
        ∃ view, OrderView.ofOrder o = .ok view ∧ view.Shows o ∧ view.total = total.amount ∧
          readWhole (Success.ofDraft Receipt.ofDraft)
              (((Success.new status ⟨view⟩).toJson Receipt.toJson).toString.toList.map some) =
            .ok (Success.new status ⟨view.unsigned⟩) := by
  refine ⟨fun b j h => Body.read_respelled h, fun o total status h => ?_⟩
  obtain ⟨view, hview, hshows, htotal⟩ := OrderView.ofOrder_of_total h
  exact ⟨view, hview, hshows, htotal, Receipt.read_shown hview status⟩

/-! ## A sample

A body with a price that is a negative zero and a time that is a leap second of the year 12345. Its
identifier is left to the shop, and so is that of its item; neither is mentioned in the other text,
where the members stand in another sequence and a remark has been added. The order shown has prices
with 28 digits behind the point, so its total is rounded. -/

namespace Sample

def late : Timestamp :=
  ⟨⟨12345, 6, 30, by decide, by decide, by decide⟩, 23, 59, 60, 500000000, by decide, by decide,
    by decide, by decide⟩

def free : ItemBody := ⟨none, .zero, { Decimal.zero with negative := true }, 3⟩

def remarkable : Body := ⟨none, some .zero, [free], some late, none⟩

/-- The item without its identifier. -/
def bareItem : Json :=
  .object
    [ ("product_id", .string free.product.toString),
      ("price", .string free.price.toString),
      ("quantity", .nat free.quantity.toNat) ]

/-- The members of the body without its identifier. -/
def others (item : Json) : List (String × Json) :=
  [ ("user_id", .string Uuid.zero.toString),
    ("order_items", .array [item]),
    ("created_at", .string late.toString),
    ("updated_at", .null) ]

def remark : Json := .array [.object [("of", .string "everything")], .bool true]

def remarked : Json := .object (("remark", remark) :: (others bareItem).reverse)

theorem respells_remarked : ReflTransGen Body.Respells remarkable.toJson remarked := by
  have hbody : Body.Respells remarkable.toJson (.object (others free.toJson)) := .drop "id" [] _
  have hitem : ItemBody.Respells free.toJson bareItem := .drop "id" [] _
  have hitems : Body.Respells (.object (others free.toJson)) (.object (others bareItem)) :=
    .within ⟨rfl, [], _, _, [], hitem, rfl, rfl⟩ [_] [_, _]
  have hperm : Body.Respells (.object (others bareItem)) (.object (others bareItem).reverse) :=
    .permute (List.reverse_perm _).symm
  have hproper : remark.IsProper := ⟨⟨trivial, trivial⟩, trivial, trivial⟩
  have hremark : Body.Respells (.object (others bareItem).reverse) remarked :=
    .add (by decide) hproper [] _
  exact (((ReflTransGen.single hbody).tail hitems).tail hperm).tail hremark

def lateOrder : Order := { precise.toOrder precise.items with createdAt := late }

end Sample

theorem wire_round_trips_sample :
    (ReflTransGen Body.Respells Sample.remarkable.toJson Sample.remarked ∧
      Body.ofWholeText (Sample.remarked.toString.toList.map some) =
        .ok Sample.remarkable.unsigned) ∧
      ∃ total, Sample.lateOrder.total = .ok total ∧
        ∃ view, OrderView.ofOrder Sample.lateOrder = .ok view ∧ view.Shows Sample.lateOrder ∧
          view.total = total.amount ∧
          readWhole (Success.ofDraft Receipt.ofDraft)
              (((Success.new .created ⟨view⟩).toJson Receipt.toJson).toString.toList.map some) =
            .ok (Success.new .created ⟨view.unsigned⟩) := by
  refine ⟨⟨Sample.respells_remarked, ?_⟩, _, rfl, ?_⟩
  · exact (wire_round_trips.1 _ _ Sample.respells_remarked).1
  · exact wire_round_trips.2 Sample.lateOrder _ .created rfl

end Checkout
