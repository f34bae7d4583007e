import WalletBudget.Proofs.Asking

/-!
Payments are never taken back, and each is ended once at most.

A payment is ended by its caller, or by the flow that has reserved it. All of them may have records
of it that are older than its end; it is the stored record that refuses them.
-/

namespace WalletBudget

open Service

variable {policy : HoldPolicy} {rule : World → Event → Prop} {s t : Service} {w w' v v' : World}
  {event : Event} {path before : List World} {e : Ending} {p q : Payment}

/-- The calls that end a payment: of a caller with a record of it, or of the flow that waits for its
execution. -/
inductive Finalizes (w : World) : Event → Ending → Payment → Prop
  | success (p : Payment) (settled : Int) (hp : p ∈ w.payments) :
    Finalizes w (.call (.finalizeSuccess p settled)) (.success settled) p
  | failure (p : Payment) (hp : p ∈ w.payments) :
    Finalizes w (.call (.finalizeFailure p)) .failure p
  | flow (n : Nat) (q : Execution) (s : Service)
      (resume : Except PeerError PaymentOutcome → Service → Progress Reply) (p : Payment)
      (answer : Except PeerError PaymentOutcome)
      (hn : w.waiting[n]? = some (.execute q s resume)) (hp : Executing p q s resume) :
    Finalizes w (.executed n answer) (.ofAnswer p answer) p

theorem Finalizes.filed (h : Finalizes w event e p) (run : Run policy rule (w :: path)) :
    Filed w.service p := by
  cases h with
  | success p settled hp => exact run.sound.payments p hp
  | failure p hp => exact run.sound.payments p hp
  | flow n q s resume p answer hn hp =>
    exact hp.filed.later (run.attends.executions q s resume (List.mem_of_getElem? hn)).1

/-- Such a call is all that is done to the service in its event. -/
theorem Finalizes.service (h : Finalizes w event e p) (run : Run policy rule (w :: path))
    (hstep : w.step policy event = some w') : w'.service = (finish e p w.service).service := by
  have hends : ∀ {t : Task Payment} {f : Payment → Service → Progress Reply},
      (∃ r u, t w.service = .done r u) → (∀ q u, (f q u).service = u) →
        ((t w.service).bind f).service = (t w.service).service := by
    rintro t f ⟨r, u, hrun⟩ hf
    rw [hrun]
    cases r with
    | error a => rfl
    | ok q => exact hf q u
  obtain ⟨r, u, hrun, -⟩ := finish_runs run.sound.coherent (h.filed run) e
  have hdone : ∃ r u, finish e p w.service = .done r u := ⟨r, u, hrun⟩
  cases h with
  | success p settled hp =>
    have htaken : w.take ((Operation.finalizeSuccess p settled).task policy w.service) = w' := by
      simpa [World.step, World.admits, hp] using hstep
    rw [← htaken, World.take_service]
    exact hends hdone fun _ _ => rfl
  | failure p hp =>
    have htaken : w.take ((Operation.finalizeFailure p).task policy w.service) = w' := by
      simpa [World.step, World.admits, hp] using hstep
    rw [← htaken, World.take_service]
    exact hends hdone fun _ _ => rfl
  | flow n q s resume p answer hn hp =>
    have htaken : (w.answered n).take (flowEnd p answer w.service) = w' := by
      simpa [World.step, hn, hp.resume] using hstep
    rw [← htaken, World.take_service]
    simp only [flowEnd, concluded, Task.bind_run, Progress.bind_assoc]
    exact hends hdone fun _ _ => by cases answer <;> rfl

/-- The answer of any executor ends a payment. -/
theorem Run.finalizes (run : Run policy rule (w :: path)) {n : Nat}
    {answer : Except PeerError PaymentOutcome}
    (hstep : w.step policy (.executed n answer) = some w') :
    ∃ p, Finalizes w (.executed n answer) (.ofAnswer p answer) p := by
  cases World.step_cases hstep with
  | executed n answer q s resume hn =>
    obtain ⟨p, hp, -⟩ := run.executing (List.mem_of_getElem? hn)
    exact ⟨p, .flow n q s resume p answer hn hp⟩

/-- An answer is the record that is stored then, and that is final. -/
theorem Service.Finalized.ended (h : Finalized e p s (.ok q) t) :
    q.id = p.id ∧ t.store.payment? q.id = some q ∧ q.status ≠ .pending := by
  cases h with
  | unbudgeted => exact ⟨mark_id e p _, by simp, mark_status e p _⟩
  | budgeted c c' q' _ hq _ hended =>
    refine ⟨?_, by simp [hended.written], mark_status e q' _⟩
    simpa using Store.payment?_id hq

/-- A payment that is stored as final is not ended again. -/
theorem Service.Finalized.refused {r : Except Abort Payment} (h : Finalized e p s r t)
    (hq : s.store.payment? p.id = some q) (hfinal : q.status ≠ .pending) :
    t = s ∧ (r = .error (.refused (.alreadyFinal p.id q.status)) ∨
      ∃ settled, e = .success settled ∧ settled < 0 ∧
        r = .error (.refused (.validation (.settledAmount settled)))) := by
  cases h with
  | unbudgeted hp hpending =>
    obtain rfl : p = q := Option.some.inj (hp.symm.trans hq)
    exact absurd hpending hfinal
  | budgeted c c' q' _ hq' _ hended =>
    obtain rfl : q' = q := Option.some.inj (hq'.symm.trans hq)
    exact absurd hended.pending hfinal
  | invalid settled he hneg => exact ⟨rfl, .inr ⟨settled, he, hneg, rfl⟩⟩
  | final q' hq' =>
    obtain rfl : q' = q := Option.some.inj (hq'.symm.trans hq)
    exact ⟨rfl, .inl rfl⟩
  | broken d q' hq' hpending =>
    obtain rfl : q' = q := Option.some.inj (hq'.symm.trans hq)
    exact absurd hpending hfinal

/-- What a later record of a payment may differ in, and that only once. -/
theorem Payment.Follows.fields (h : p.Follows q) (hs : p.status = .pending → p = p.core)
    (ht : q.status = .pending → q = q.core) :
    q = { p with status := q.status, settled := q.settled, updatedAt := q.updatedAt } ∧
      (q = p ∨ p.status = .pending ∧ q.status ≠ .pending) := by
  constructor
  · exact Payment.fields_of_core h.core
  · by_cases hp : p.status = .pending
    · by_cases hq : q.status = .pending
      · left
        rw [ht hq, h.core, ← hs hp]
      · exact .inr ⟨hp, hq⟩
    · exact .inl (h.final hp)

/-- A payment that is stored with an end, and that no call ends again. -/
structure Shut (w : World) (q : Payment) : Prop where
  stored : w.service.store.payment? q.id = some q
  final : q.status ≠ .pending
  refused : ∀ event e p, Finalizes w event e p → p.id = q.id →
    (∀ settled, e = .success settled → 0 ≤ settled) →
      finish e p w.service = .done (.error (.refused (.alreadyFinal q.id q.status))) w.service
  unanswered : ∀ event e p, Finalizes w event e p → p.id = q.id →
    ∃ error, finish e p w.service = .done (.error error) w.service

theorem Run.shut (run : Run policy rule (w :: path)) (hq : w.service.store.payment? q.id = some q)
    (hfinal : q.status ≠ .pending) : Shut w q := by
  have hends : ∀ event e p, Finalizes w event e p → p.id = q.id → ∃ r,
      finish e p w.service = .done r w.service ∧
        (r = .error (.refused (.alreadyFinal q.id q.status)) ∨
          ∃ settled, e = .success settled ∧ settled < 0 ∧
            r = .error (.refused (.validation (.settledAmount settled)))) := by
    intro event e p h hid
    obtain ⟨r, u, hrun, hfinalized⟩ := finish_runs run.sound.coherent (h.filed run) e
    obtain ⟨rfl, hr⟩ := hfinalized.refused (hid ▸ hq) hfinal
    exact ⟨r, hrun, hid ▸ hr⟩
  refine ⟨hq, hfinal, fun event e p h hid hcost => ?_, fun event e p h hid => ?_⟩
  · obtain ⟨r, hrun, rfl | ⟨settled, he, hneg, -⟩⟩ := hends event e p h hid
    · exact hrun
    · exact absurd (hcost settled he) (by omega)
  · obtain ⟨r, hrun, rfl | ⟨settled, -, -, rfl⟩⟩ := hends event e p h hid <;> exact ⟨_, hrun⟩

/-- Payments stay, with all that was fixed when they were recorded, and change once at most: from
pending to an end. A call that ends one and is answered is the last such call for it that is; every
later one is refused with the status that is stored, and changes nothing. -/
theorem payment_finalized_once (run : Run policy rule (w :: path)) :
    (∀ v ∈ path, ∀ p ∈ v.service.store.payments, ∃ q, w.service.store.payment? p.id = some q ∧
      q = { p with status := q.status, settled := q.settled, updatedAt := q.updatedAt } ∧
      (q = p ∨ p.status = .pending ∧ q.status ≠ .pending)) ∧
    (∀ v' v before event e p q t, v' :: v :: before <:+ w :: path →
      v.step policy event = some v' → Finalizes v event e p →
      finish e p v.service = .done (.ok q) t → q.id = p.id ∧ Shut w q) ∧
    ∀ n answer w', w.step policy (.executed n answer) = some w' →
      ∃ p, Finalizes w (.executed n answer) (.ofAnswer p answer) p := by
  refine ⟨fun v hv p hp => ?_, ?_, fun n answer w' => run.finalizes⟩
  · obtain ⟨past, hpast, -⟩ := run.upTo (List.mem_cons_of_mem w hv)
    have hstored := hpast.sound.coherent.payments.get?_of_mem hp
    obtain ⟨q, hq, hfollows⟩ := (run.later (List.mem_cons_of_mem w hv)).payments p.id p hstored
    exact ⟨q, hq, hfollows.fields (hpast.sound.coherent.pendingCore p.id p hstored)
      (run.sound.coherent.pendingCore p.id q hq)⟩
  · intro v' v before event e p q t hsuffix hstep h hanswer
    have hmem := hsuffix.subset (List.mem_cons_of_mem v' List.mem_cons_self)
    obtain ⟨past, hpast, -⟩ := run.upTo hmem
    obtain ⟨r, u, hrun, hfinalized⟩ := finish_runs hpast.sound.coherent (h.filed hpast) e
    obtain ⟨rfl, rfl⟩ : r = .ok q ∧ u = t := by simpa [hrun] using hanswer
    obtain ⟨hid, hq, hfinal⟩ := hfinalized.ended
    have hservice := h.service hpast hstep
    rw [hrun] at hservice
    have hv' : v' ∈ w :: path := hsuffix.subset List.mem_cons_self
    obtain ⟨q', hq', hfollows⟩ := (run.later hv').payments q.id q (by rw [hservice]; exact hq)
    rw [hfollows.final hfinal] at hq'
    exact ⟨hid, run.shut hq' hfinal⟩

/-- A payment that was settled is not released with the record of it from before. -/
theorem payment_finalized_once_settled :
    ∃ w path q, Run .exact (fun _ _ => True) (w :: path) ∧ q.status = .succeeded ∧ Shut w q ∧
      finish .failure (Sample.payment 30) w.service =
        .done (.error (.refused (.alreadyFinal q.id q.status))) w.service := by
  obtain ⟨v, before, run, hf⟩ := Run.reaches .exact (fun _ _ => True) ⟨Sample.start, rfl⟩ Uuid.ofNat
    [ Sample.created,
      .call (.reserve Sample.connection Sample.request (Sample.intent .sat 30)) ]
    (fun v _ => (decide (Sample.payment 30 ∈ v.payments),
      (v.step .exact (.call (.finalizeSuccess (Sample.payment 30) 25))).map
        fun v' : World => decide (v'.service.FreshIds ∧ Sample.payment 30 ∈ v'.payments),
      (finish (.success 25) (Sample.payment 30) v.service).answer?.map
        fun a : Payment × Service => a.1))
    (true, some true, some ((Sample.payment 30).succeed 25 Sample.start)) (by decide +kernel)
  simp only [Prod.mk.injEq, decide_eq_true_eq] at hf
  obtain ⟨hp, hstep, hanswer⟩ := hf
  obtain ⟨v', hstep, hv'⟩ := Option.map_eq_some_iff.mp hstep
  obtain ⟨hfresh, hp'⟩ := of_decide_eq_true hv'
  obtain ⟨⟨q, t⟩, hrun, rfl⟩ := Option.map_eq_some_iff.mp hanswer
  have run' := run.step trivial hstep hfresh
  obtain ⟨-, hshut⟩ := (payment_finalized_once run').2.1 v' v before _ _ _ _ t List.suffix_rfl hstep
    (.success (Sample.payment 30) 25 hp) (Progress.answer?_some hrun)
  exact ⟨v', _, _, run', rfl, hshut,
    hshut.refused _ _ _ (.failure (Sample.payment 30) hp') rfl (by simp)⟩

end WalletBudget
