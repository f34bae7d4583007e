import WalletBudget.Proofs.Asking
import WalletBudget.Proofs.LedgerBalance

/-!
What becomes of a payment when its execution is answered.

Whatever happened since it was reserved, it has its end then and holds nothing any more. The one
exception is a success with a cost below zero: that is refused before anything is written, and the
payment stays pending with its hold.
-/

namespace WalletBudget

open Service

variable {policy : HoldPolicy} {rule : World → Event → Prop} {s t : Service} {w : World}
  {path : List World} {e : Ending} {p q : Payment}

def Progress.execution? {α : Type} : Progress α → Option Execution
  | .execute q _ _ => some q
  | _ => none

def Store.otherHolds (s : Store) (id : PaymentId) (cycle : CycleId) : Int :=
  ((s.payments.filter (fun p => p.id ≠ id)).map (·.holdOn cycle)).sum

theorem Store.otherHolds_eq {s : Store} {id : PaymentId} {cycle : CycleId}
    (h : ∀ p ∈ s.payments, p.id = id → p.holdOn cycle = 0) :
    s.otherHolds id cycle = s.pendingHolds cycle := by
  simp only [otherHolds, pendingHolds]
  generalize s.payments = ps at h
  induction ps with
  | nil => rfl
  | cons p ps ih =>
    have hrest := ih fun x hx => h x (List.mem_cons_of_mem _ hx)
    by_cases hid : p.id = id
    · simpa [hid, h p List.mem_cons_self hid] using hrest
    · simpa [hid] using hrest

theorem Service.Finalized.issued {r : Except Abort Payment} (h : Finalized e p s r t) :
    t.ids = s.ids ∧ t.issued = s.issued := by
  cases h with
  | unbudgeted => exact ⟨rfl, rfl⟩
  | budgeted c c' q _ _ _ hended =>
    have hwritten := hended.written
    subst hwritten
    exact ⟨rfl, rfl⟩
  | invalid => exact ⟨rfl, rfl⟩
  | final => exact ⟨rfl, rfl⟩
  | broken => exact ⟨rfl, rfl⟩

/-- An ending that may be charged comes to an end of the payment, or to a defect. -/
theorem Service.Finalized.last {r : Except Abort Payment} (h : Finalized e p s r t)
    (hcost : ∀ settled, e = .success settled → 0 ≤ settled)
    (hsound : ∀ d, r ≠ .error (.broken d)) :
    ∃ q, t.store.payment? p.id = some q ∧ q.status ≠ .pending := by
  cases h with
  | unbudgeted => exact ⟨e.mark p s.clock, by simp, mark_status e p _⟩
  | budgeted c c' q _ hq hpq hended =>
    subst hpq
    exact ⟨e.mark p s.clock, by simp [hended.written], mark_status e p _⟩
  | invalid settled he hneg => exact absurd (hcost settled he) (by omega)
  | final q hq hfinal => exact ⟨q, hq, hfinal⟩
  | broken d => exact absurd rfl (hsound d)

theorem Balanced.released (hs : Coherent s) (h : Balanced s) {c : Cycle}
    (hc : s.store.cycle? c.id = some c) (hq : s.store.payment? p.id = some q)
    (hfinal : q.status ≠ .pending) : c.held = s.store.otherHolds p.id c.id := by
  rw [h.held c.id c hc, Store.otherHolds_eq]
  intro x hx hid
  obtain rfl : x = q := Option.some.inj ((hs.payments.get?_of_mem hx).symm.trans (hid ▸ hq))
  simp [Payment.holdOn, hfinal]

/-- The answer of a flow, after the end of its payment. -/
def receipt (answer : Except PeerError PaymentOutcome) : Except Abort Payment → Except Abort Reply
  | .error a => .error a
  | .ok q => match answer with
    | .ok outcome => .ok (.receipt ⟨q, outcome.preimage⟩)
    | .error e => .error (.refused (.execution e))

theorem flowEnd_run {answer : Except PeerError PaymentOutcome} {r : Except Abort Payment}
    (h : finish (.ofAnswer p answer) p s = .done r t) :
    flowEnd p answer s = .done (receipt answer r) t := by
  simp only [flowEnd, concluded, Task.bind_run, h]
  cases r with
  | error a => rfl
  | ok q => cases answer <;> rfl

theorem ofAnswer_cost {answer : Except PeerError PaymentOutcome} (hfallback : 0 ≤ p.fallbackCost.1)
    (hcost : ∀ outcome settled, answer = .ok outcome → outcome.settled = some settled →
      0 ≤ settled) : ∀ settled, Ending.ofAnswer p answer = .success settled → 0 ≤ settled := by
  intro settled he
  cases answer with
  | error e => cases he
  | ok outcome =>
    obtain rfl := Ending.success.inj he
    cases hsettled : outcome.settled with
    | none => exact hfallback
    | some n => exact hcost outcome n rfl hsettled

/-- When the executor of a payment has answered, the payment has an end and its hold is released. A
success with a cost below zero is the exception: it is refused, and nothing is written. -/
theorem flow_concluded (run : Run policy rule (w :: path)) {n : Nat} {q : Execution}
    {resume : Except PeerError PaymentOutcome → Service → Progress Reply}
    (hn : w.waiting[n]? = some (.execute q s resume))
    (answer : Except PeerError PaymentOutcome) :
    ∃ p r t, Executing p q s resume ∧ resume answer w.service = .done r t ∧
      (∀ outcome settled, answer = .ok outcome → outcome.settled = some settled → settled < 0 →
        r = .error (.refused (.validation (.settledAmount settled))) ∧ t = w.service) ∧
      ((∀ outcome settled, answer = .ok outcome → outcome.settled = some settled → 0 ≤ settled) →
        (∀ d, r ≠ .error (.broken d)) → ∃ last, t.store.payment? p.id = some last ∧
          last.status ≠ .pending ∧ (policy.validate = .ok () → ∀ c, p.cycle = some c.id →
            t.store.cycle? c.id = some c → c.held = t.store.otherHolds p.id c.id)) := by
  obtain ⟨p, hexecuting, hp⟩ := run.executing (List.mem_of_getElem? hn)
  have hs := run.sound.coherent
  obtain ⟨r, t, hrun, hfinalized⟩ := finish_runs hs hp (.ofAnswer p answer)
  refine ⟨p, receipt answer r, t, hexecuting, by rw [hexecuting.resume, flowEnd_run hrun], ?_, ?_⟩
  · rintro outcome settled rfl hsettled hneg
    have hrefused : finish (.ofAnswer p (.ok outcome)) p w.service =
        .done (.error (.refused (.validation (.settledAmount settled)))) w.service := by
      simp only [Ending.ofAnswer, hsettled, Option.getD_some, finish, finalizeSuccess, hneg,
        if_true, Task.refuse_run]
    rw [hrefused] at hrun
    cases hrun
    exact ⟨rfl, rfl⟩
  · intro hcost hsound
    have hcharged := ofAnswer_cost hexecuting.fallback hcost
    obtain ⟨last, hlast, hfinal⟩ := hfinalized.last hcharged fun d hd => hsound d (by rw [hd]; rfl)
    refine ⟨last, hlast, hfinal, fun hvalid c _ hc => ?_⟩
    have hfresh : t.FreshIds := by
      intro i hi j hj he
      rw [hfinalized.issued.1] at he
      rw [hfinalized.issued.2] at hi hj
      exact run.sound.fresh i hi j hj he
    have hstretch : Stretch policy True w.service.clock w.service t := hfinalized.stretch
    have hbalanced := (reachable_balanced hvalid run).stretch hs hvalid hstretch hfresh
    exact hbalanced.released ((hstretch.rows hs hfresh).coherent hs) hc hlast hfinal

/-- An executor reports a cost of -5. The payment of 30 sats stays pending and goes on to hold
them. -/
theorem flow_concluded_negative :
    ∃ w path q s resume r t, Run .exact (fun _ _ => True) (w :: path) ∧
      w.waiting[0]? = some (.execute q s resume) ∧
      resume (.ok ⟨none, some (-5)⟩) w.service = .done r t ∧
      r = .error (.refused (.validation (.settledAmount (-5)))) ∧
      t.store.payments = [Sample.payment 30] ∧ t.store.cycles.map (·.held) = [30] := by
  obtain ⟨w, path, run, hf⟩ := Run.reaches .exact (fun _ _ => True) ⟨Sample.start, rfl⟩ Uuid.ofNat
    [ Sample.created,
      .call (.pay Sample.connection Sample.request (.payInvoice "lnbc1" 30000)) ]
    (fun w _ => (w.waiting[0]?.bind Progress.execution?, w.service.store.payments,
      w.service.store.cycles.map (·.held)))
    (some ⟨.payInvoice "lnbc1" 30000, some .sat⟩, [Sample.payment 30], [30]) (by decide +kernel)
  simp only [Prod.mk.injEq] at hf
  obtain ⟨hwaiting, hpayments, hheld⟩ := hf
  obtain ⟨p, hp, hexecution⟩ := Option.bind_eq_some_iff.mp hwaiting
  cases p with
  | execute q s resume =>
    obtain ⟨-, r, t, -, hrun, hnegative, -⟩ := flow_concluded run hp (.ok ⟨none, some (-5)⟩)
    obtain ⟨hr, rfl⟩ := hnegative _ (-5) rfl rfl (by decide)
    exact ⟨w, path, q, s, resume, r, _, run, hp, hrun, hr, hpayments, hheld⟩
  | _ => cases hexecution

end WalletBudget
