import WalletBudget.Proofs.Asking
import WalletBudget.Proofs.LedgerBalance

/-!
What a payment is charged when nobody reports its cost.

A payment is priced when it is reserved and charged when it has been made, and each time the
currencies are compared anew. The two agree, because a payment keeps the currency of the cycle that
its hold was placed on, also where it had been priced for another cycle before.
-/

namespace WalletBudget

open Service

variable {policy : HoldPolicy} {rule : World → Event → Prop} {steady final : Prop} {now : Instant}
  {s t : Service} {p q : Payment} {w : World} {path : List World}

/-- The share of a payment in a budget: an estimate, which is the amount sent where that is in the
currency of the budget, and a hold that covers it. -/
def Payment.Covered (p : Payment) : Prop :=
  p.cycle ≠ none → ∃ currency estimate hold, p.budgetCurrency = some currency ∧
    p.estimate = some estimate ∧ p.hold = some hold ∧ estimate ≤ hold ∧
    (p.sendingCurrency.same currency = true → estimate = p.sendingAmount)

namespace Payment.Covered

theorem of_unlinked (h : p.cycle = none) : p.Covered := fun hne => absurd h hne

theorem congr (h : p.Covered) (hcore : q.core = p.core) : q.Covered := by
  rw [Payment.fields_of_core hcore]
  exact h

theorem mark (h : p.Covered) (e : Ending) : (e.mark p now).Covered := by
  cases e <;> exact h

theorem placed {c : Cycle} {hold : Int} (hvalid : policy.validate = .ok ())
    (hp : Placed policy s c p hold t) (ht : t.FreshIds) : p.Covered := by
  intro _
  obtain ⟨estimate, hestimate, hhold, hnonneg⟩ := hp.priced
  refine ⟨c.currency, estimate, hold, hp.currency, hestimate, hp.held, ?_, fun hsame => ?_⟩
  · exact policy.estimate_le_hold hvalid hnonneg hhold
  · exact Option.some.inj (hestimate.symm.trans (hp.agreed ht hsame))

theorem fallbackCost (h : p.Covered) (hlinked : p.cycle ≠ none) :
    ∃ currency estimate hold, p.budgetCurrency = some currency ∧ p.estimate = some estimate ∧
      p.hold = some hold ∧ estimate ≤ hold ∧
      p.fallbackCost = (estimate, decide (p.sendingCurrency.code ≠ currency.code)) := by
  obtain ⟨currency, estimate, hold, hcurrency, hestimate, hhold, hle, hsame⟩ := h hlinked
  refine ⟨currency, estimate, hold, hcurrency, hestimate, hhold, hle, ?_⟩
  by_cases hcode : p.sendingCurrency.code = currency.code
  · simp [Payment.fallbackCost, hcurrency, hestimate, Currency.same, hcode,
      hsame (by simp [Currency.same, hcode])]
  · have hother : ¬ currency.code = p.sendingCurrency.code := fun h => hcode h.symm
    simp [Payment.fallbackCost, hcurrency, hestimate, Currency.same, hcode, hother]

end Payment.Covered

def Service.Covering (s : Service) : Prop := ∀ id p, s.store.payment? id = some p → p.Covered

namespace Service.Covering

theorem filePayment (h : Covering s) (hp : p.Covered)
    (ht : ∀ id, t.store.payment? id = if p.id = id then some p else s.store.payment? id) :
    Covering t := by
  intro id q hq
  rw [ht] at hq
  split at hq
  · obtain rfl := Option.some.inj hq
    exact hp
  · exact h id q hq

theorem stretch (hs : Coherent s) (h : Covering s) (hvalid : policy.validate = .ok ())
    (hst : Stretch policy final now s t) (ht : t.FreshIds) : Covering t := by
  refine hst.keeps hs ht h ?_ ?_ ?_
  · intro a b _ hw _ h
    cases hw with
    | record p _ _ hnone => exact h.filePayment (.of_unlinked hnone) fun id => by simp
    | complete e p _ _ hnone =>
      exact h.filePayment (p := e.mark p now) (.of_unlinked (by simpa using hnone))
        fun id => by simp
    | _ => exact h
  · intro m c p hold _ hp h
    exact h.filePayment (.placed hvalid hp ht) hp.payment?
  · intro m e c p c' _ hp h
    exact h.filePayment (p := e.mark p now) ((h p.id p hp.payment).mark e)
      fun id => by simpa using hp.payment? id

end Service.Covering

theorem reachable_covering (hvalid : policy.validate = .ok ())
    (run : Run policy rule (w :: path)) : Covering w.service := by
  refine run.holds False (fun _ _ _ h => h.elim) (by intro _ _ _ _ _ h; cases h) ?_
  intro s t hs ht hchange h
  cases hchange with
  | clock time _ htick =>
    subst htick
    exact h
  | work time _ hst => exact h.stretch hs hvalid hst ht

/-- The fallback cost of a payment with a cycle is its estimate, marked as such where the payment
was sent in another currency than the budget's, and the hold covers it. To settle the payment with
it moves the estimate from what is held in its cycle to what is spent and gives the rest of the hold
back, so that the two together do not grow. -/
theorem fallback_within_hold (hvalid : policy.validate = .ok ()) (run : Run policy rule (w :: path))
    (hp : p ∈ w.payments ∨ p ∈ w.service.store.payments) {cycle : CycleId}
    (hlinked : p.cycle = some cycle) :
    ∃ currency estimate hold, p.budgetCurrency = some currency ∧ p.estimate = some estimate ∧
      p.hold = some hold ∧ estimate ≤ hold ∧
      p.fallbackCost = (estimate, decide (p.sendingCurrency.code ≠ currency.code)) ∧
      ∃ c r t c', w.service.store.cycle? cycle = some c ∧
        finalizeSuccess p p.fallbackCost.1 w.service = .done r t ∧
        t.store.cycle? cycle = some c' ∧ c'.spent + c'.held ≤ c.spent + c.held ∧
        match r with
        | .ok _ => c' = { c with held := c.held - hold, spent := c.spent + estimate }
        | .error _ => t = w.service := by
  have hs := run.sound.coherent
  have hfiled : Filed w.service p :=
    hp.elim (run.sound.payments p) fun hp => hs.filed (hs.payments.get?_of_mem hp)
  obtain ⟨stored, hstored, hsame⟩ := id hfiled
  have hcovered : p.Covered := by
    have hcovered := reachable_covering hvalid run p.id stored hstored
    rcases hsame with hcore | ⟨rfl, -⟩
    · exact hcovered.congr (by rw [hcore]; rfl)
    · exact hcovered
  obtain ⟨currency, estimate, hold, hcurrency, hestimate, hhold, hle, hfallback⟩ :=
    hcovered.fallbackCost (by simp [hlinked])
  refine ⟨currency, estimate, hold, hcurrency, hestimate, hhold, hle, hfallback, ?_⟩
  obtain ⟨c, hc⟩ :=
    hs.paymentCycle p.id stored cycle hstored ((hfiled.cycle hstored).trans hlinked)
  obtain ⟨r, t, hrun, hfinal⟩ := finalizeSuccess_runs hs hfiled p.fallbackCost.1
  rw [hfallback] at hfinal
  cases r with
  | error a =>
    obtain rfl := hfinal.unchanged
    exact ⟨c, _, _, c, hc, hrun, hc, Int.le_refl _, rfl⟩
  | ok q =>
    obtain ⟨hold', hhold', -, hc'⟩ :=
      hfinal.charged hs (reachable_balanced hvalid run) hlinked hc
    obtain rfl : hold = hold' := Option.some.inj (hhold.symm.trans hhold')
    refine ⟨c, _, t, _, hc, hrun, hc', ?_, rfl⟩
    simp only [Ending.cost]
    omega

/-- A payment of five dollars is priced at 20 sats, and finds the limit changed to dollars then. It
is held in dollars on the new cycle, and its fallback cost is what is sent. -/
theorem fallback_within_hold_repriced : HoldPolicy.exact.validate = .ok () ∧
    ∃ w path p c r t c', Run HoldPolicy.exact (fun _ _ => True) (w :: path) ∧ p ∈ w.payments ∧
      p.cycle = some ⟨Uuid.ofNat 4⟩ ∧ p.fallbackCost = (5, false) ∧
      w.service.store.cycle? ⟨Uuid.ofNat 4⟩ = some c ∧
      finalizeSuccess p 5 w.service = .done r t ∧
      t.store.cycle? ⟨Uuid.ofNat 4⟩ = some c' ∧ c'.spent + c'.held ≤ c.spent + c.held := by
  have hvalid : HoldPolicy.exact.validate = .ok () := by decide
  obtain ⟨w, path, run, hf⟩ := Run.reaches .exact (fun _ _ => True) ⟨Sample.start, rfl⟩ Uuid.ofNat
    [ Sample.created,
      .call (.reserve Sample.connection Sample.request (Sample.intent Sample.dollar 5)),
      .call (.updateLimit Sample.connection.id
        ⟨true, some 40, some Sample.dollar, some .daily⟩ Sample.start),
      .converted 0 (.ok 20) ]
    (fun w _ => w.payments.head?.map fun p => (p.cycle, p.fallbackCost))
    (some (some ⟨Uuid.ofNat 4⟩, 5, false)) (by decide +kernel)
  obtain ⟨p, hp, hread⟩ := Option.map_eq_some_iff.mp hf
  simp only [Prod.mk.injEq] at hread
  obtain ⟨hcycle, hfallback⟩ := hread
  have hmem : p ∈ w.payments := List.mem_of_mem_head? hp
  obtain ⟨-, -, -, -, -, -, -, -, c, r, t, c', hc, hrun, hc', hle, -⟩ :=
    fallback_within_hold hvalid run (.inl hmem) hcycle
  rw [hfallback] at hrun
  exact ⟨hvalid, w, path, p, c, r, t, c', run, hmem, hcycle, hfallback, hc, hrun, hc', hle⟩

end WalletBudget
