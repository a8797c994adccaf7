import Checkout.Store.Basic

/-!
# Performing store actions

`StoreAction.perform` runs an action on what a store remembers and gives its answer together with
what the store remembers afterwards. Everything that is said about stores is said through it, so
each way of building an action has one lemma here.
-/

namespace Checkout

namespace StoreAction

variable {σ α β : Type}

/-- What an action answers, and what the store remembers afterwards. -/
def perform (action : StoreAction σ α) (s : σ) : Except StoreError α × σ := action.run.run s

@[simp] theorem perform_pure (a : α) (s : σ) :
    perform (pure a : StoreAction σ α) s = (.ok a, s) := rfl

@[simp] theorem perform_throw (e : StoreError) (s : σ) :
    perform (throw e : StoreAction σ α) s = (.error e, s) := rfl

@[simp] theorem perform_get (s : σ) : perform (get : StoreAction σ σ) s = (.ok s, s) := rfl

@[simp] theorem perform_modify (f : σ → σ) (s : σ) :
    perform (modify f : StoreAction σ Unit) s = (.ok (), f s) := rfl

@[simp] theorem perform_attempt (action : StoreAction σ α) (s : σ) :
    perform (attempt action) s = (.ok (perform action s).1, (perform action s).2) := rfl

theorem perform_bind (x : StoreAction σ α) (f : α → StoreAction σ β) (s : σ) :
    perform (x >>= f) s =
      match perform x s with
      | (.ok a, t) => perform (f a) t
      | (.error e, t) => (.error e, t) := by
  show (ExceptT.bindCont f (perform x s).1 : StateM σ (Except StoreError β)).run
    (perform x s).2 = _
  rcases perform x s with ⟨_ | _, _⟩ <;> rfl

/-- An action that starts by looking at the state goes on from that state. -/
theorem perform_get_bind (f : σ → StoreAction σ β) (s : σ) :
    perform (get >>= f) s = perform (f s) s := by
  rw [perform_bind, perform_get]

theorem perform_bind_of_ok {x : StoreAction σ α} {f : α → StoreAction σ β} {s t : σ} {a : α}
    (h : perform x s = (.ok a, t)) : perform (x >>= f) s = perform (f a) t := by
  rw [perform_bind, h]

theorem perform_bind_of_error {x : StoreAction σ α} {f : α → StoreAction σ β} {s t : σ}
    {e : StoreError} (h : perform x s = (.error e, t)) :
    perform (x >>= f) s = (.error e, t) := by
  rw [perform_bind, h]

end StoreAction

end Checkout
