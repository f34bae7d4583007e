import WalletBudget.Proofs.Reserve

/-!
Ending a payment with a record of it that was handed out, however old that is.
-/

namespace WalletBudget.Service

variable {policy : HoldPolicy} {s t : Service} {p q : Payment} {e : Ending} {now : Instant}

/-- A record of a payment as it was handed out: the first one, or the one that is final. -/
def Filed (s : Service) (p : Payment) : Prop :=
  ∃ q, s.store.payment? p.id = some q ∧ (p = q.core ∨ p = q ∧ q.status ≠ .pending)

theorem Coherent.filed (hs : Coherent s) (hp : s.store.payment? p.id = some p) : Filed s p := by
  refine ⟨p, hp, ?_⟩
  by_cases hpending : p.status = .pending
  · exact .inl (hs.pendingCore _ _ hp hpending)
  · exact .inr ⟨rfl, hpending⟩

theorem Filed.later (hp : Filed s p) (h : Later s t) : Filed t p := by
  obtain ⟨q, hq, hpq⟩ := hp
  obtain ⟨q', hq', hf⟩ := h.payments p.id q hq
  refine ⟨q', hq', ?_⟩
  rcases hpq with hcore | ⟨rfl, hfinal⟩
  · exact .inl (hcore.trans hf.core.symm)
  · rw [hf.final hfinal]
    exact .inr ⟨rfl, hfinal⟩

/-- While the stored record is pending, every record that was handed out is equal to it. -/
theorem Filed.pending (hs : Coherent s) (hp : Filed s p) (hq : s.store.payment? p.id = some q)
    (hpending : q.status = .pending) : p = q := by
  obtain ⟨q', hq', hpq⟩ := hp
  obtain rfl : q = q' := Option.some.inj (hq.symm.trans hq')
  rcases hpq with hcore | ⟨rfl, -⟩
  · rw [hcore, ← hs.pendingCore _ _ hq hpending]
  · rfl

/-- Handed-out records name the cycle that the stored one names. -/
theorem Filed.cycle (hp : Filed s p) (hq : s.store.payment? p.id = some q) :
    q.cycle = p.cycle := by
  obtain ⟨q', hq', hpq⟩ := hp
  obtain rfl : q = q' := Option.some.inj (hq.symm.trans hq')
  rcases hpq with rfl | ⟨rfl, -⟩ <;> rfl

theorem ensurePending_run (q : Payment) (s : Service) :
    ensurePending q s =
      if q.status = .pending then .done (.ok ()) s
      else .done (.error (.refused (.alreadyFinal q.id q.status))) s := by
  unfold ensurePending
  cases h : q.status <;> simp [PaymentStatus.isFinal]

theorem storedPayment_run (hq : s.outages = []) (id : PaymentId) :
    storedPayment id s =
      match s.store.payment? id with
      | some p => .done (.ok p) s
      | none => .done (.error (.refused (.paymentNotFound id))) s := by
  simp only [storedPayment, Task.bind_run, Task.ask_quiet hq, Progress.bind_ok]
  cases s.store.payment? id <;> rfl

/-- What ending a payment comes to: its record is written as final, with its cycle if it has one.
Otherwise nothing is written, because the cost is negative, because the stored record is final
already, or because the totals of the cycle leave the range of amounts. -/
inductive Finalized (e : Ending) (p : Payment) (s : Service) : Except Abort Payment → Service → Prop
  | unbudgeted (hp : s.store.payment? p.id = some p) (hpending : p.status = .pending)
      (hnone : p.cycle = none) (hcost : ∀ settled, e = .success settled → 0 ≤ settled) :
    Finalized e p s (.ok (e.mark p s.clock)) (s.write (s.store.filePayment (e.mark p s.clock)))
  | budgeted (c c' : Cycle) (q : Payment) (t : Service) (hq : s.store.payment? p.id = some q)
      (hpq : p = q) (hended : Ended e s.clock s c q c' t) :
    Finalized e p s (.ok (e.mark q s.clock)) t
  | invalid (settled : Int) (he : e = .success settled) (hneg : settled < 0) :
    Finalized e p s (.error (.refused (.validation (.settledAmount settled)))) s
  | final (q : Payment) (hq : s.store.payment? p.id = some q) (hfinal : q.status ≠ .pending) :
    Finalized e p s (.error (.refused (.alreadyFinal p.id q.status))) s
  | broken (d : Defect) (q : Payment) (hq : s.store.payment? p.id = some q)
      (hpending : q.status = .pending) (hpq : p = q) (c : Cycle)
      (hc : s.store.cycle? c.id = some c) (hlinked : q.cycle = some c.id)
      (hcost : ∀ settled, e = .success settled → 0 ≤ settled)
      (happly : e.apply c (q.hold.getD 0) = .error d) : Finalized e p s (.error (.broken d)) s

theorem completeUnbudgeted_runs (hs : Coherent s) (hp : Filed s p) (hnone : p.cycle = none)
    (e : Ending) (hcost : ∀ settled, e = .success settled → 0 ≤ settled) :
    ∃ r t, completeUnbudgeted e p s.clock s = .done r t ∧ Finalized e p s r t := by
  obtain ⟨q, hq, -⟩ := id hp
  simp only [completeUnbudgeted, Task.stored, Task.bind_run, Task.call_quiet hs.quiet,
    Store.completeUnbudgeted, mark_id, hq]
  by_cases hpending : q.status = .pending
  · obtain rfl := hp.pending hs hq hpending
    have hquiet : (s.write (s.store.filePayment (e.mark p s.clock))).outages = [] := hs.quiet
    simp only [hpending, if_true, Progress.bind_ok, Task.pure_run, Bool.not_true,
      Bool.false_eq_true, if_false]
    refine ⟨_, _, ?_, .unbudgeted hq hpending hnone hcost⟩
    exact (storedPayment_run hquiet p.id).trans (by simp)
  · simp only [hpending, if_false, Progress.bind_ok, Task.pure_run, Bool.not_false, if_true,
      Task.bind_run, write_same, storedPayment_run hs.quiet, hq, ensurePending_run,
      Store.payment?_id hq]
    exact ⟨_, _, rfl, .final q hq hpending⟩

theorem completeBudgeted_runs (hs : Coherent s) (hp : Filed s p) {cycle : CycleId}
    (hcycle : p.cycle = some cycle) (e : Ending)
    (hcost : ∀ settled, e = .success settled → 0 ≤ settled) :
    ∃ r t, completeBudgeted e cycle p.id s.clock s = .done r t ∧ Finalized e p s r t := by
  obtain ⟨q, hq, -⟩ := id hp
  have hlinked : q.cycle = some cycle := (hp.cycle hq).trans hcycle
  obtain ⟨c, hc⟩ := hs.paymentCycle _ q cycle hq hlinked
  obtain rfl : c.id = cycle := Store.cycle?_id hc
  simp only [completeBudgeted, Task.bind_run, Task.locked_quiet hs.quiet, Store.lockCycle, hc,
    Progress.bind_ok, Task.ask_quiet hs.quiet, hq, Task.found_some, ensurePending_run]
  by_cases hpending : q.status = .pending
  · simp only [hpending, if_true, Progress.bind_ok]
    cases happly : e.apply c (q.hold.getD 0) with
    | error d =>
      refine ⟨_, _, rfl, .broken d q hq hpending (hp.pending hs hq hpending) c hc hlinked hcost ?_⟩
      exact happly
    | ok c' =>
      simp only [Task.sound_ok, Progress.bind_ok, Task.tell_quiet hs.quiet, Store.commit_some,
        Task.pure_run]
      refine ⟨_, _, rfl, .budgeted c c' q _ hq (hp.pending hs hq hpending) ?_⟩
      exact {
        cycle := hc, payment := Store.payment?_id hq ▸ hq, linked := hlinked
        pending := hpending, cost := hcost, applied := happly, written := rfl }
  · simp only [hpending, if_false, Store.payment?_id hq]
    exact ⟨_, _, rfl, .final q hq hpending⟩

theorem finalize_runs (hs : Coherent s) (hp : Filed s p) (e : Ending)
    (hcost : ∀ settled, e = .success settled → 0 ≤ settled) :
    ∃ r t, finalize e p s = .done r t ∧ Finalized e p s r t := by
  simp only [finalize, Task.bind_run, Task.clock_run, Progress.bind_ok]
  cases hcycle : p.cycle with
  | none => exact completeUnbudgeted_runs hs hp hcycle e hcost
  | some cycle => exact completeBudgeted_runs hs hp hcycle e hcost

theorem finalizeSuccess_runs (hs : Coherent s) (hp : Filed s p) (settled : Int) :
    ∃ r t, finalizeSuccess p settled s = .done r t ∧ Finalized (.success settled) p s r t := by
  by_cases hneg : settled < 0
  · simp only [finalizeSuccess, hneg, if_true]
    exact ⟨_, _, rfl, .invalid settled rfl hneg⟩
  · simp only [finalizeSuccess, hneg, if_false]
    refine finalize_runs hs hp (.success settled) fun n hn => ?_
    obtain rfl : settled = n := Ending.success.inj hn
    omega

theorem finalizeFailure_runs (hs : Coherent s) (hp : Filed s p) :
    ∃ r t, finalizeFailure p s = .done r t ∧ Finalized .failure p s r t :=
  finalize_runs hs hp .failure (by simp)

/-- What is refused leaves nothing behind. -/
theorem Finalized.unchanged {a : Abort} (h : Finalized e p s (.error a) t) : t = s := by
  cases h <;> rfl

theorem Finalized.stretch {r : Except Abort Payment} (h : Finalized e p s r t) :
    Stretch policy True s.clock s t := by
  cases h with
  | unbudgeted hp hpending hnone hcost =>
    exact .quiet (.single (.complete e p hp hpending hnone hcost))
  | budgeted c c' q _ hq hpq hended => exact .ended s e c q c' .refl hended
  | invalid => exact .quiet .refl
  | final => exact .quiet .refl
  | broken => exact .quiet .refl

theorem Finalized.filed {r : Except Abort Payment} (h : Finalized e p s r t) (hr : r = .ok q) :
    Filed t q := by
  cases h with
  | unbudgeted hp hpending hnone =>
    obtain rfl := Except.ok.inj hr
    exact ⟨_, by simp, .inr ⟨rfl, mark_status e p s.clock⟩⟩
  | budgeted c c' q' _ hq hpq hended =>
    obtain rfl := Except.ok.inj hr
    exact ⟨e.mark q' s.clock, by simp [hended.written], .inr ⟨rfl, mark_status e q' s.clock⟩⟩
  | invalid => cases hr
  | final => cases hr
  | broken => cases hr

end WalletBudget.Service
