import Checkout.Gateway.Basic

/-!
# Calls at the gateway

Whatever callers do at the gateway is one of a few moves (`Gateway.Moves`). A call goes forward
only: once it does not wait any more, it stays where it is (`Moves.leads`). Where a call stands is
always justified by what was accepted into the queue and by what was delivered
(`Gateway.Consistent`): a call that was turned away was never accepted, and one that was told an
outcome was accepted, and just this outcome was delivered to it.
-/

namespace Checkout

/-! ## Single calls -/

namespace Stage

@[simp] theorem isLive_blocked : blocked.isLive = true := rfl

@[simp] theorem isLive_accepted : accepted.isLive = true := rfl

@[simp] theorem isLive_answered (time : Nat) (outcome : Outcome) :
    (answered time outcome).isLive = false := rfl

@[simp] theorem isLive_abandoned : abandoned.isLive = false := rfl

end Stage

namespace Ticket

/-- A call goes on without an outcome: it stays where it is, gives up, or its caller goes away. -/
inductive GivesUp (t : Ticket) : Ticket → Prop
  | stays : GivesUp t t
  | unadmitted (time : Nat) (h : t.stage = .blocked) :
      GivesUp t { t with stage := .answered time (.error .admissionTimeout) }
  | unanswered (time : Nat) (h : t.stage = .accepted) :
      GivesUp t { t with stage := .answered time (.error .processingTimeout) }
  | leaves (h : t.stage.isLive) : GivesUp t { t with stage := .abandoned }

theorem givesUp_expire (t : Ticket) (time : Nat) : GivesUp t (t.expire time) := by
  obtain ⟨request, deadline, stage⟩ := t
  cases stage with
  | blocked => exact .unadmitted time rfl
  | accepted => exact .unanswered time rfl
  | answered time' outcome => exact .stays
  | abandoned => exact .stays

theorem givesUp_abandon (t : Ticket) : GivesUp t t.abandon := by
  unfold abandon
  split
  next h => exact .leaves h
  next => exact .stays

/-- A call goes from the one ticket to the other: its request is the same, and if it does not wait
any more, its stage is the same too. -/
structure Leads (t t' : Ticket) : Prop where
  request : t'.request = t.request
  stage : t.stage.isLive = false → t'.stage = t.stage

theorem Leads.refl (t : Ticket) : Leads t t := ⟨rfl, fun _ => rfl⟩

theorem Leads.trans {t t' t'' : Ticket} (h : Leads t t') (h' : Leads t' t'') : Leads t t'' := by
  refine ⟨h'.request.trans h.request, fun hlive => ?_⟩
  have hsame := h.stage hlive
  rw [h'.stage (by rw [hsame]; exact hlive), hsame]

/-- A call that still waits may come to anything. -/
theorem Leads.of_isLive {t : Ticket} (h : t.stage.isLive) (stage : Stage) :
    Leads t { t with stage } :=
  ⟨rfl, fun hlive => absurd (h.symm.trans hlive) (by decide)⟩

theorem GivesUp.leads {t t' : Ticket} (h : GivesUp t t') : Leads t t' := by
  cases h with
  | stays => exact .refl t
  | unadmitted time h => exact .of_isLive (by simp [h]) _
  | unanswered time h => exact .of_isLive (by simp [h]) _
  | leaves h => exact .of_isLive h _

theorem leads_answer (t : Ticket) (time : Nat) (outcome : Outcome) :
    Leads t (t.answer time outcome) := by
  unfold answer
  split
  next h => exact .of_isLive (by simp [h]) _
  next => exact .refl t

theorem leads_turnAway (t : Ticket) (time : Nat) (e : CheckoutError) :
    Leads t (t.turnAway time e) := by
  unfold turnAway
  split
  next h => exact .of_isLive (by simp [h]) _
  next => exact .refl t

end Ticket

/-! ## Moves of callers -/

namespace Gateway

variable {g g' g'' : Gateway}

theorem getElem?_append_singleton {tickets : List Ticket} {new t : Ticket} {n : Nat}
    (h : (tickets ++ [new])[n]? = some t) :
    tickets[n]? = some t ∨ n = tickets.length ∧ t = new := by
  rcases Nat.lt_trichotomy n tickets.length with hlt | rfl | hlt
  · rw [List.getElem?_append_left hlt] at h
    exact .inl h
  · rw [List.getElem?_concat_length] at h
    exact .inr ⟨rfl, (Option.some_inj.mp h).symm⟩
  · rw [List.getElem?_eq_none (by simp; omega)] at h
    cases h

theorem getElem?_onTicket (g : Gateway) (number : Nat) (change : Ticket → Ticket) (n : Nat) :
    (g.onTicket number change).tickets[n]? =
      (g.tickets[n]?).map fun t => if number = n then change t else t :=
  List.getElem?_modify ..

/-- What callers can do at the gateway. -/
inductive Moves (g : Gateway) : Gateway → Prop
  | stay : Moves g g
  /-- A new call is turned away. -/
  | refuse (t : Ticket) {time : Nat} (h : t.stage = .answered time (.error .shuttingDown)) :
      Moves g { g with tickets := g.tickets ++ [t] }
  /-- A new call has to wait for room. -/
  | wait (t : Ticket) (hopen : g.isOpen) (h : t.stage = .blocked) :
      Moves g { g with tickets := g.tickets ++ [t] }
  /-- A new call is accepted. -/
  | enter (t : Ticket) (hopen : g.isOpen) (h : t.stage = .accepted) :
      Moves g
        { g.enqueue ⟨t.request, g.tickets.length⟩ with tickets := g.tickets ++ [t] }
  /-- A call that waited for room is accepted. -/
  | letIn (number : Nat) (t : Ticket) (hopen : g.isOpen) (ht : g.tickets[number]? = some t)
      (h : t.stage = .blocked) :
      Moves g ((g.enqueue ⟨t.request, number⟩).onTicket number ({ · with stage := .accepted }))
  | giveUp (number : Nat) (change : Ticket → Ticket) (h : ∀ t : Ticket, t.GivesUp (change t)) :
      Moves g (g.onTicket number change)

theorem entry_cases (g : Gateway) (now : Nat) :
    g.entry now = .answered now (.error .shuttingDown) ∨
      g.isOpen ∧ (g.entry now = .accepted ∨ g.entry now = .blocked) := by
  unfold entry
  cases hopen : g.isOpen with
  | false => exact .inl rfl
  | true =>
      refine .inr ⟨rfl, ?_⟩
      by_cases hroom : g.hasRoom && g.firstBlocked?.isNone
      · exact .inl (by simp [hroom])
      · exact .inr (by simp [hroom])

theorem moves_call (g : Gateway) (now : Nat) (request : Request) :
    g.Moves (g.call now request) := by
  unfold call
  rcases g.entry_cases now with h | ⟨hopen, h | h⟩ <;> rw [h]
  · exact .refuse ⟨request, _, .answered now (.error .shuttingDown)⟩ rfl
  · exact .enter ⟨request, _, .accepted⟩ hopen rfl
  · exact .wait ⟨request, _, .blocked⟩ hopen rfl

theorem blocked_of_firstBlocked? {number : Nat} (h : g.firstBlocked? = some number) {t : Ticket}
    (ht : g.tickets[number]? = some t) : t.stage = .blocked := by
  obtain ⟨hlt, hblocked, -⟩ := List.findIdx?_eq_some_iff_getElem.mp h
  obtain ⟨-, rfl⟩ := List.getElem?_eq_some_iff.mp ht
  cases hstage : g.tickets[number].stage with
  | blocked => rfl
  | accepted => simp [hstage, Stage.isBlocked] at hblocked
  | answered time outcome => simp [hstage, Stage.isBlocked] at hblocked
  | abandoned => simp [hstage, Stage.isBlocked] at hblocked

theorem moves_letIn (g : Gateway) : g.Moves g.letIn := by
  unfold letIn
  split
  · exact .stay
  next number hfirst =>
    split
    · exact .stay
    next t ht =>
      split
      next hroom =>
        have hopen : g.isOpen = true := (Bool.and_eq_true_iff.mp hroom).1
        exact .letIn number t hopen ht (blocked_of_firstBlocked? hfirst ht)
      next => exact .stay

theorem moves_expire (g : Gateway) (now number : Nat) : g.Moves (g.expire now number) := by
  apply Moves.giveUp
  intro t
  split
  · exact t.givesUp_expire now
  · exact .stays

theorem moves_abandon (g : Gateway) (number : Nat) : g.Moves (g.abandon number) :=
  .giveUp number Ticket.abandon Ticket.givesUp_abandon

/-- Callers put requests behind those in the queue, and only if it is open. -/
theorem Moves.queue (h : g.Moves g') :
    ∃ new, g'.queue = g.queue ++ new ∧ g'.accepted = g.accepted ++ new ∧
      g'.isOpen = g.isOpen ∧ (g.isOpen = false → new = []) := by
  cases h with
  | stay => exact ⟨[], by simp⟩
  | refuse t h => exact ⟨[], by simp⟩
  | wait t hopen h => exact ⟨[], by simp⟩
  | enter t hopen h => exact ⟨[⟨t.request, g.tickets.length⟩], by simp [enqueue, hopen]⟩
  | letIn number t hopen ht h => exact ⟨[⟨t.request, number⟩], by simp [enqueue, onTicket, hopen]⟩
  | giveUp number change h => exact ⟨[], by simp [onTicket]⟩

/-! ## Calls go forward -/

/-- Every call of the one gateway is there in the other, and has gone forward. -/
def Leads (g g' : Gateway) : Prop :=
  ∀ (n : Nat) (t : Ticket), g.tickets[n]? = some t → ∃ t', g'.tickets[n]? = some t' ∧ t.Leads t'

theorem Leads.of_eq (h : g'.tickets = g.tickets) : Leads g g' := by
  intro n t ht
  exact ⟨t, by rw [h]; exact ht, .refl t⟩

theorem Leads.trans (h : Leads g g') (h' : Leads g' g'') : Leads g g'' := by
  intro n t ht
  obtain ⟨t', ht', hlead⟩ := h n t ht
  obtain ⟨t'', ht'', hlead'⟩ := h' n t' ht'
  exact ⟨t'', ht'', hlead.trans hlead'⟩

theorem Leads.append {new : Ticket} (h : g'.tickets = g.tickets ++ [new]) : Leads g g' := by
  intro n t ht
  obtain ⟨hlt, -⟩ := List.getElem?_eq_some_iff.mp ht
  exact ⟨t, by rw [h, List.getElem?_append_left hlt]; exact ht, .refl t⟩

theorem leads_onTicket (g : Gateway) (number : Nat) {change : Ticket → Ticket}
    (h : ∀ t : Ticket, g.tickets[number]? = some t → t.Leads (change t)) :
    Leads g (g.onTicket number change) := by
  intro n t ht
  rw [getElem?_onTicket, ht]
  refine ⟨_, rfl, ?_⟩
  split
  next heq =>
    subst heq
    exact h t ht
  next => exact .refl t

/-- **Callers go forward.** -/
theorem Moves.leads (h : g.Moves g') : Leads g g' := by
  cases h with
  | stay => exact .of_eq rfl
  | refuse t h => exact .append rfl
  | wait t hopen h => exact .append rfl
  | enter t hopen h => exact .append rfl
  | letIn number t hopen ht h =>
      apply leads_onTicket (g.enqueue _)
      intro t' ht'
      obtain rfl : t = t' := Option.some_inj.mp (ht.symm.trans ht')
      exact .of_isLive (by simp [h]) _
  | giveUp number change h => exact leads_onTicket g number fun t _ => (h t).leads

theorem leads_answer (g : Gateway) (now : Nat) (d : Delivery Nat) : Leads g (g.answer now d) :=
  leads_onTicket g d.responder fun t _ => t.leads_answer now d.outcome

theorem leads_close (g : Gateway) (now : Nat) : Leads g (g.close now) := by
  intro n t ht
  refine ⟨t.turnAway now .shuttingDown, ?_, t.leads_turnAway now _⟩
  show (g.tickets.map _)[n]? = _
  rw [List.getElem?_map, ht]
  rfl

end Gateway

/-! ## Where a call stands is justified -/

/-- What is behind the stage of a call with the request `p`, while `accepted` are the requests that
were accepted and `written` the outcomes that were delivered. -/
inductive Stage.Justified (isOpen : Bool) (accepted : List (Pending Nat))
    (written : List (Delivery Nat)) (p : Pending Nat) : Stage → Prop
  | blocked (hopen : isOpen) (hnew : p.responder ∉ accepted.map (·.responder)) :
      Justified isOpen accepted written p .blocked
  | accepted (hmem : p ∈ accepted) (hnone : p.responder ∉ written.map (·.responder)) :
      Justified isOpen accepted written p .accepted
  | turnedAway {time : Nat} {e : CheckoutError} (he : e = .admissionTimeout ∨ e = .shuttingDown)
      (hnew : p.responder ∉ accepted.map (·.responder)) :
      Justified isOpen accepted written p (.answered time (.error e))
  | gaveUp {time : Nat} (hmem : p ∈ accepted) :
      Justified isOpen accepted written p (.answered time (.error .processingTimeout))
  | told {time : Nat} {outcome : Outcome} (hmem : p ∈ accepted)
      (hwritten : ⟨p.responder, outcome⟩ ∈ written) :
      Justified isOpen accepted written p (.answered time outcome)
  | abandoned : Justified isOpen accepted written p .abandoned

namespace Stage.Justified

variable {isOpen : Bool} {accepted : List (Pending Nat)} {written : List (Delivery Nat)}
  {p : Pending Nat} {stage : Stage}

/-- Another request is accepted. -/
theorem enqueue (h : Justified isOpen accepted written p stage) {q : Pending Nat}
    (hne : p.responder ≠ q.responder) : Justified isOpen (accepted ++ [q]) written p stage := by
  have hnew : p.responder ∉ accepted.map (·.responder) →
      p.responder ∉ (accepted ++ [q]).map (·.responder) := by
    intro hnot hmem
    rw [List.map_append, List.mem_append] at hmem
    rcases hmem with hmem | hmem
    · exact hnot hmem
    · exact hne (List.mem_singleton.mp hmem)
  cases h with
  | blocked hopen hnot => exact .blocked hopen (hnew hnot)
  | accepted hmem hnone => exact .accepted (List.mem_append_left _ hmem) hnone
  | turnedAway he hnot => exact .turnedAway he (hnew hnot)
  | gaveUp hmem => exact .gaveUp (List.mem_append_left _ hmem)
  | told hmem hwritten => exact .told (List.mem_append_left _ hmem) hwritten
  | abandoned => exact .abandoned

/-- An outcome is delivered to somebody else, or to a call that does not wait for it. -/
theorem deliver (h : Justified isOpen accepted written p stage) {d : Delivery Nat}
    (hne : stage = .accepted → p.responder ≠ d.responder) :
    Justified isOpen accepted (written ++ [d]) p stage := by
  cases h with
  | blocked hopen hnot => exact .blocked hopen hnot
  | accepted hmem hnone =>
      refine .accepted hmem fun hmem' => ?_
      rw [List.map_append, List.mem_append] at hmem'
      rcases hmem' with hmem' | hmem'
      · exact hnone hmem'
      · exact hne rfl (List.mem_singleton.mp hmem')
  | turnedAway he hnot => exact .turnedAway he hnot
  | gaveUp hmem => exact .gaveUp hmem
  | told hmem hwritten => exact .told hmem (List.mem_append_left _ hwritten)
  | abandoned => exact .abandoned

theorem givesUp {t t' : Ticket} {number : Nat} (hgives : t.GivesUp t')
    (h : Justified isOpen accepted written ⟨t.request, number⟩ t.stage) :
    Justified isOpen accepted written ⟨t'.request, number⟩ t'.stage := by
  cases hgives with
  | stays => exact h
  | unadmitted time hstage =>
      rw [hstage] at h
      cases h with
      | blocked hopen hnew => exact .turnedAway (.inl rfl) hnew
  | unanswered time hstage =>
      rw [hstage] at h
      cases h with
      | accepted hmem hnone => exact .gaveUp hmem
  | leaves hlive => exact .abandoned

theorem turnAway {t : Ticket} {number : Nat}
    (h : Justified isOpen accepted written ⟨t.request, number⟩ t.stage) (time : Nat) :
    Justified false accepted written ⟨(t.turnAway time .shuttingDown).request, number⟩
      (t.turnAway time .shuttingDown).stage := by
  obtain ⟨request, deadline, stage⟩ := t
  cases h with
  | blocked hopen hnew => exact .turnedAway (.inr rfl) hnew
  | accepted hmem hnone => exact .accepted hmem hnone
  | turnedAway he hnew => exact .turnedAway he hnew
  | gaveUp hmem => exact .gaveUp hmem
  | told hmem hwritten => exact .told hmem hwritten
  | abandoned => exact .abandoned

end Stage.Justified

namespace Gateway

/-- All calls stand where they do for a reason. -/
structure Consistent (g : Gateway) (written : List (Delivery Nat)) : Prop where
  responders_nodup : (g.accepted.map (·.responder)).Nodup
  responder_lt : ∀ p ∈ g.accepted, p.responder < g.tickets.length
  written_accepted : ∀ d ∈ written, d.responder ∈ g.accepted.map (·.responder)
  justified : ∀ (n : Nat) (t : Ticket), g.tickets[n]? = some t →
    t.stage.Justified g.isOpen g.accepted written ⟨t.request, n⟩

namespace Consistent

variable {g g' : Gateway} {written : List (Delivery Nat)}

theorem new (capacity timeout : Nat) : Consistent (.new capacity timeout) [] where
  responders_nodup := List.nodup_nil
  responder_lt _ h := absurd h List.not_mem_nil
  written_accepted _ h := absurd h List.not_mem_nil
  justified n t ht := by cases ht

theorem not_written (h : g.Consistent written) {number : Nat}
    (hnew : number ∉ g.accepted.map (·.responder)) : number ∉ written.map (·.responder) := by
  intro hmem
  obtain ⟨d, hd, rfl⟩ := List.mem_map.mp hmem
  exact hnew (h.written_accepted d hd)

theorem length_not_accepted (h : g.Consistent written) :
    g.tickets.length ∉ g.accepted.map (·.responder) := by
  intro hmem
  obtain ⟨p, hp, heq⟩ := List.mem_map.mp hmem
  exact absurd (h.responder_lt p hp) (by omega)

/-- A new call does not disturb the others. -/
theorem append (h : g.Consistent written) {t : Ticket}
    (ht : t.stage.Justified g.isOpen g.accepted written ⟨t.request, g.tickets.length⟩) :
    Consistent { g with tickets := g.tickets ++ [t] } written where
  responders_nodup := h.responders_nodup
  responder_lt p hp := by
    have hlt := h.responder_lt p hp
    show p.responder < (g.tickets ++ [t]).length
    simp only [List.length_append, List.length_singleton]
    omega
  written_accepted := h.written_accepted
  justified n t' ht' := by
    rcases getElem?_append_singleton ht' with ht' | ⟨rfl, rfl⟩
    · exact h.justified n t' ht'
    · exact ht

/-- A call changes on its own. -/
theorem onTicket (h : g.Consistent written) (number : Nat) {change : Ticket → Ticket}
    (hchange : ∀ t : Ticket, t.stage.Justified g.isOpen g.accepted written ⟨t.request, number⟩ →
      (change t).stage.Justified g.isOpen g.accepted written ⟨(change t).request, number⟩) :
    (g.onTicket number change).Consistent written where
  responders_nodup := h.responders_nodup
  responder_lt p hp := by
    show p.responder < (g.tickets.modify number change).length
    rw [List.length_modify]
    exact h.responder_lt p hp
  written_accepted := h.written_accepted
  justified n t' ht' := by
    rw [getElem?_onTicket] at ht'
    obtain ⟨t, ht, rfl⟩ := Option.map_eq_some_iff.mp ht'
    have hjust := h.justified n t ht
    split
    next heq =>
      subst heq
      exact hchange t hjust
    next => exact hjust

/-- A call that is accepted was not accepted before, and the others are left alone. -/
theorem enqueue (h : g.Consistent written) {p : Pending Nat}
    (hnew : p.responder ∉ g.accepted.map (·.responder)) {tickets : List Ticket}
    (hlt : p.responder < tickets.length) (hlen : g.tickets.length ≤ tickets.length)
    (htickets : ∀ (n : Nat) (t : Ticket), tickets[n]? = some t →
      n ≠ p.responder ∧ g.tickets[n]? = some t ∨
        n = p.responder ∧ t.request = p.request ∧ t.stage = .accepted) :
    Consistent { g.enqueue p with tickets } written where
  responders_nodup := by
    show ((g.accepted ++ [p]).map _).Nodup
    rw [List.map_append]
    refine List.nodup_append.mpr ⟨h.responders_nodup, List.pairwise_singleton _ _, ?_⟩
    rintro a ha b hb rfl
    rw [List.map_singleton, List.mem_singleton] at hb
    exact hnew (hb ▸ ha)
  responder_lt q hq := by
    rcases List.mem_append.mp hq with hq | hq
    · exact Nat.lt_of_lt_of_le (h.responder_lt q hq) hlen
    · rw [List.mem_singleton.mp hq]
      exact hlt
  written_accepted d hd := by
    show d.responder ∈ (g.accepted ++ [p]).map _
    rw [List.map_append]
    exact List.mem_append_left _ (h.written_accepted d hd)
  justified n t ht := by
    rcases htickets n t ht with ⟨hne, ht⟩ | ⟨rfl, hrequest, hstage⟩
    · exact (h.justified n t ht).enqueue hne
    · rw [hstage, hrequest]
      exact .accepted (List.mem_append_right _ List.mem_cons_self) (h.not_written hnew)

/-- **Whatever callers do, calls stand where they do for a reason.** -/
theorem moves (h : g.Consistent written) (hmoves : g.Moves g') : g'.Consistent written := by
  cases hmoves with
  | stay => exact h
  | refuse t hstage =>
      apply h.append
      rw [hstage]
      exact .turnedAway (.inr rfl) h.length_not_accepted
  | wait t hopen hstage =>
      apply h.append
      rw [hstage]
      exact .blocked hopen h.length_not_accepted
  | enter t hopen hstage =>
      apply h.enqueue h.length_not_accepted
      · simp
      · simp
      intro n t' ht'
      rcases getElem?_append_singleton ht' with ht' | ⟨rfl, rfl⟩
      · obtain ⟨hlt, -⟩ := List.getElem?_eq_some_iff.mp ht'
        exact .inl ⟨Nat.ne_of_lt hlt, ht'⟩
      · exact .inr ⟨rfl, rfl, hstage⟩
  | letIn number t hopen ht hstage =>
      -- a call that waits for room has not been accepted before
      have hjust := h.justified number t ht
      rw [hstage] at hjust
      cases hjust with
      | blocked _ hnew =>
          obtain ⟨hlt, -⟩ := List.getElem?_eq_some_iff.mp ht
          apply h.enqueue (p := ⟨t.request, number⟩) hnew
          · rw [List.length_modify]
            exact hlt
          · rw [List.length_modify]
            exact Nat.le_refl _
          intro n t' ht'
          rw [List.getElem?_modify] at ht'
          obtain ⟨t'', ht'', rfl⟩ := Option.map_eq_some_iff.mp ht'
          by_cases heq : number = n
          · subst heq
            obtain rfl : t = t'' := Option.some_inj.mp (ht.symm.trans ht'')
            exact .inr ⟨rfl, by simp, by simp⟩
          · rw [if_neg heq]
            exact .inl ⟨Ne.symm heq, ht''⟩
  | giveUp number change hgives =>
      exact h.onTicket number fun t hjust => Stage.Justified.givesUp (hgives t) hjust

theorem take (h : g.Consistent written) (queue : List (Pending Nat)) :
    Consistent { g with queue } written := ⟨h.1, h.2, h.3, h.4⟩

/-- An outcome is delivered for a request that was accepted. -/
theorem answer (h : g.Consistent written) (now : Nat) {d : Delivery Nat}
    (hd : d.responder ∈ g.accepted.map (·.responder)) :
    (g.answer now d).Consistent (written ++ [d]) where
  responders_nodup := h.responders_nodup
  responder_lt p hp := by
    show p.responder < (g.tickets.modify d.responder _).length
    rw [List.length_modify]
    exact h.responder_lt p hp
  written_accepted d' hd' := by
    rcases List.mem_append.mp hd' with hd' | hd'
    · exact h.written_accepted d' hd'
    · rw [List.mem_singleton.mp hd']
      exact hd
  justified n t' ht' := by
    unfold Gateway.answer at ht'
    rw [getElem?_onTicket] at ht'
    obtain ⟨t, ht, rfl⟩ := Option.map_eq_some_iff.mp ht'
    have hjust := h.justified n t ht
    split
    next heq =>
      subst heq
      unfold Ticket.answer
      split
      next hstage =>
        rw [hstage] at hjust
        cases hjust with
        | accepted hmem hnone =>
            exact .told hmem (List.mem_append_right _ List.mem_cons_self)
      next hstage => exact hjust.deliver fun hacc => absurd hacc hstage
    next hne => exact hjust.deliver fun _ => Ne.symm hne

/-- Closing the queue turns away all that wait for room. -/
theorem close (h : g.Consistent written) (now : Nat) : (g.close now).Consistent written where
  responders_nodup := h.responders_nodup
  responder_lt p hp := by
    show p.responder < (g.tickets.map _).length
    rw [List.length_map]
    exact h.responder_lt p hp
  written_accepted := h.written_accepted
  justified n t' ht' := by
    have hmap : (g.tickets[n]?).map (·.turnAway now .shuttingDown) = some t' := by
      rw [← List.getElem?_map]
      exact ht'
    obtain ⟨t, ht, rfl⟩ := Option.map_eq_some_iff.mp hmap
    have hjust := h.justified n t ht
    exact hjust.turnAway now

end Consistent

end Gateway

end Checkout
