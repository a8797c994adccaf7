import Checkout.Http.Service
import Checkout.Proofs.Decimal.Exact
import Checkout.Proofs.Http.Body
import Checkout.Proofs.Http.Wire

/-!
# Requests and responses

What is asked for in a checkout is asked for by the user whom the request names, at prices that are
accepted, and there are no more items than the body has bytes, but for one (`of_checkout`). Totals
of so many items are exact (`total_of_sublist`), so that an order can always be shown, and be read
from the text that it is shown in (`ofOutcome_ok`). Where there is no checkout, the response is a
failure that lies with the caller (`failure_of_checkout`). Every response repeats its status in its
body (`RepeatsStatus`).
-/

namespace Checkout

/-! ## Responses -/

namespace HttpResponse

/-- The body has the status of the response. -/
def RepeatsStatus (response : HttpResponse) : Prop :=
  response.body.bind (·.member? "statusCode") = some (.nat response.status.code)

/-- The response is a receipt of the order: it shows the order as it is, with all its items in their
own sequence, and as the total what their prices and quantities come to. All of that is written in
the body, and is read from its text. -/
def IsReceiptOf (response : HttpResponse) (o : Order) : Prop :=
  ∃ (view : OrderView) (body : Json),
    response.body = some body ∧
    body = (Success.new .created (⟨view⟩ : Receipt)).toJson Receipt.toJson ∧
    Json.Draft.readWhole (Success.ofDraft Receipt.ofDraft) (body.toString.toList.map some) =
      .ok (Success.new .created ⟨view.unsigned⟩) ∧
    view.Shows o ∧ view.total.value = Item.worth o.items

/-- The fault lies with the caller. -/
def IsClientError (response : HttpResponse) : Prop :=
  400 ≤ response.status.code ∧ response.status.code < 500

theorem repeatsStatus_failure (status : Status) (message code : String) :
    (failure status message code).RepeatsStatus := rfl

theorem repeatsStatus_ofOutcome (outcome : Outcome) : (ofOutcome outcome).RepeatsStatus := by
  cases outcome with
  | error e => exact repeatsStatus_failure _ _ _
  | ok o =>
      unfold ofOutcome
      dsimp only
      split
      · rfl
      · exact repeatsStatus_failure _ _ _

/-- Only faults of the caller are reported as such. -/
theorem isClientError_of_ofError {e : CheckoutError} (h : (ofError e).IsClientError) :
    e.isClientError := by
  cases hclient : e.isClientError with
  | true => rfl
  | false =>
      have hstatus : (ofError e).status = .internalError := by
        show (if e.isClientError then _ else _) = _
        simp [hclient]
      unfold IsClientError at h
      rw [hstatus] at h
      exact absurd h.2 (by decide)

theorem ofError_ne_created (e : CheckoutError) : (ofError e).status ≠ .created := by
  show (if e.isClientError then _ else _) ≠ _
  split <;> decide

end HttpResponse

/-! ## Totals that can be shown -/

namespace Request

/-- The items of the request have prices that are accepted, and there are no more of them than fit
into a body. -/
structure IsBounded (r : Request) : Prop where
  priced : ∀ i ∈ r.items, i.IsPriced
  length_le : r.items.length ≤ HttpRequest.bodyLimit + 1

variable {r : Request}

/-- **The total of some of the items is exact.** -/
theorem IsBounded.total_of_sublist (h : r.IsBounded) {items : List Item}
    (hsub : items.Sublist r.items) :
    ∃ m, Item.total items = .ok m ∧ m.amount.value = Item.worth items := by
  apply Item.total_exact
  · intro i hi
    exact h.priced i (hsub.subset hi)
  · have hlength : items.length ≤ HttpRequest.bodyLimit + 1 := hsub.length_le.trans h.length_le
    exact Nat.lt_of_le_of_lt (Nat.mul_le_mul_right _ hlength) (by decide)

/-- **A part of the request can be shown** when it has become an order. -/
theorem IsBounded.ofOutcome_ok (h : r.IsBounded) {o : Order} (hsub : o.items.Sublist r.items) :
    (HttpResponse.ofOutcome (.ok o)).status = .created ∧
      (HttpResponse.ofOutcome (.ok o)).IsReceiptOf o := by
  obtain ⟨m, hm, hvalue⟩ := h.total_of_sublist hsub
  obtain ⟨view, hview, hshows, htotal⟩ := OrderView.ofOrder_of_total (o := o) hm
  unfold HttpResponse.ofOutcome
  simp only [hview]
  exact ⟨rfl, view, _, rfl, rfl, Receipt.read_shown hview .created, hshows, htotal ▸ hvalue⟩

end Request

/-! ## Requests -/

namespace HttpRequest

variable {r : HttpRequest} {trace : Uuid} {supply : Body.Supply} {request : Request}
  {response : HttpResponse}

/-- Some header that names users has a UUID for a value, white space around it left out. -/
def NamesUser (r : HttpRequest) : Prop :=
  ∃ h ∈ r.headers, h.1.toLower = "x-user-id" ∧
    (Uuid.ofString? (String.ofList (Text.trim h.2.toList))).isSome

theorem user?_of_not_namesUser (h : ¬ r.NamesUser) : r.user? = none := by
  unfold user? header?
  cases hfind : r.headers.find? (·.1.toLower = "x-user-id") with
  | none => rfl
  | some header =>
      have hname : header.1.toLower = "x-user-id" := by simpa using List.find?_some hfind
      have hvalue : Uuid.ofString? (String.ofList (Text.trim header.2.toList)) = none := by
        by_contra hsome
        exact h ⟨header, List.mem_of_find?_eq_some hfind, hname,
          Option.isSome_iff_ne_none.mpr hsome⟩
      dsimp only [Option.bind_some]
      split
      · simp [Identifier.ofString?, hvalue]
      · rfl

theorem checkout_of_user?_none (h : r.user? = none) :
    r.checkout trace supply = .error .unknownUser := by
  unfold checkout
  rw [h]
  rfl

/-- The items of a body are fewer than its bytes and one more. -/
theorem length_items_of_readBody {body : Body} (h : r.readBody = .ok body) :
    body.items.length ≤ bodyLimit + 1 := by
  unfold readBody at h
  split at h
  · cases h
  · split at h
    · cases h
    next hsize =>
      split at h
      next hread =>
        cases h
        have hitems := Body.length_items_le hread
        have hsymbols := Text.length_symbols_le r.body.toList
        rw [Text.length_toList] at hsymbols
        omega
      · cases h
      · cases h

theorem failure_of_readBody (h : r.readBody = .error response) :
    ∃ message, response = .unreadableBody message := by
  unfold readBody at h
  split at h
  · cases h
    exact ⟨_, rfl⟩
  · split at h
    · cases h
      exact ⟨_, rfl⟩
    · split at h
      · cases h
      · cases h
        exact ⟨_, rfl⟩
      · cases h
        exact ⟨_, rfl⟩

/-- **What is asked for** is asked for by the user whom the request names. -/
theorem of_checkout (h : r.checkout trace supply = .ok request) :
    r.user? = some request.header.user ∧ request.IsBounded := by
  unfold checkout at h
  cases huser : r.user? with
  | none =>
      rw [huser] at h
      cases h
  | some user =>
      simp only [huser] at h
      obtain ⟨body, hbody, h⟩ := ok_of_bind h
      cases hrequest : body.toRequest user trace supply with
      | error refusal =>
          rw [hrequest] at h
          cases h
      | ok request' =>
          rw [hrequest] at h
          cases h
          obtain ⟨hheader, hprices⟩ := Body.of_toRequest hrequest
          refine ⟨by rw [hheader]; rfl, ?_, ?_⟩
          · intro i hi
            obtain ⟨b, -, hprice⟩ := hprices i hi
            exact Item.isPriced_of_new hprice
          · obtain ⟨-, hitems⟩ := Body.toItems_of_toRequest hrequest
            rw [Body.length_of_toItems hitems]
            exact length_items_of_readBody hbody

/-- **Where nothing can be asked for**, that is the fault of the caller. -/
theorem failure_of_checkout (h : r.checkout trace supply = .error response) :
    ∃ status message code, response = .failure status message code ∧
      (status = .badRequest ∨ status = .unauthorized) := by
  unfold checkout at h
  cases huser : r.user? with
  | none =>
      rw [huser] at h
      cases h
      exact ⟨_, _, _, rfl, .inr rfl⟩
  | some user =>
      simp only [huser] at h
      cases hbody : r.readBody with
      | error response' =>
          rw [hbody] at h
          cases h
          obtain ⟨message, rfl⟩ := failure_of_readBody hbody
          exact ⟨_, _, _, rfl, .inl rfl⟩
      | ok body =>
          rw [hbody] at h
          cases hrequest : body.toRequest user trace supply with
          | error refusal =>
              simp only [hrequest, bind, Except.bind] at h
              cases h
              exact ⟨_, _, _, rfl, .inl rfl⟩
          | ok request' =>
              simp only [hrequest, bind, Except.bind] at h
              cases h

end HttpRequest

end Checkout
