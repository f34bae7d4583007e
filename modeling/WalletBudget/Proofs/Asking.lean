import WalletBudget.Proofs.Conversions
import WalletBudget.Proofs.Sound

/-!
What the operations that wait for a peer do in each of their stretches.

They leave connections and limits alone. An execution is only asked for by the flow of a payment,
right behind its reservation, and all that is left to do then is to end that payment.
-/

namespace WalletBudget

open Service

variable {α β : Type}

namespace Progress

/-- What holds of every stretch of a task: of the service it began with and of how far it came.
Between a question and its answer nothing is taken back. -/
def Always (stretch : Service → Progress α → Prop) : Service → Progress α → Prop
  | b, .done r s => stretch b (.done r s)
  | b, .convert q s resume => stretch b (.convert q s resume) ∧
    ∀ answer t, Rely Coherent s t → (resume answer t).Always stretch t
  | b, .execute q s resume => stretch b (.execute q s resume) ∧
    ∀ answer t, Rely Coherent s t → (resume answer t).Always stretch t

/-- What holds of every stretch that a task has still before it, from now on. -/
def Still (stretch : Service → Progress α → Prop) (now : Service) : Progress α → Prop
  | .done _ _ => True
  | .convert _ _ resume => ∀ answer t, Rely Coherent now t → (resume answer t).Always stretch t
  | .execute _ _ resume => ∀ answer t, Rely Coherent now t → (resume answer t).Always stretch t

variable {stretch : Service → Progress α → Prop} {p : Progress α} {b s t : Service}

theorem Always.first (h : p.Always stretch b) : stretch b p := by
  cases p with
  | done r s => exact h
  | convert q s resume => exact h.1
  | execute q s resume => exact h.1

theorem Always.still (h : p.Always stretch b) : p.Still stretch p.service := by
  cases p with
  | done r s => trivial
  | convert q s resume => exact h.2
  | execute q s resume => exact h.2

theorem Still.later (h : p.Still stretch s) (hst : Later s t) : p.Still stretch t := by
  cases p with
  | done r s => trivial
  | convert q s resume => exact fun answer u hu => h answer u ⟨hst.trans hu.1, hu.2⟩
  | execute q s resume => exact fun answer u hu => h answer u ⟨hst.trans hu.1, hu.2⟩

/-- The stretches of a task that converts, and of what follows on its answer. -/
theorem Goes.always {hands : Service → Service → Prop}
    {post : Service → Except Abort β → Service → Prop} {p : Progress β}
    {f : β → Service → Progress α} (h : p.Goes hands (Rely Coherent) post b) (hc : p.Converts)
    (hasks : ∀ b q s resume, hands b s → stretch b (.convert q s resume))
    (hanswers : ∀ b a s, post b (.ok a) s → (f a s).Always stretch b)
    (hstops : ∀ b e s, post b (.error e) s → stretch b (.done (.error e) s)) :
    (p.bind f).Always stretch b := by
  induction p generalizing b with
  | done r s => cases r with
    | ok a => exact hanswers b a s h
    | error e => exact hstops b e s h
  | convert q s resume ih =>
    exact ⟨hasks b q s _ h.1, fun answer t ht => ih answer t (h.2 answer t ht) (hc answer t)⟩
  | execute q s resume => exact hc.elim

end Progress

variable {policy : HoldPolicy} {rule : World → Event → Prop} {b s t : Service} {w w' : World}
  {e : Event} {path : List World} {p : Payment}

namespace Service

def finish (e : Ending) (p : Payment) : Task Payment :=
  match e with
  | .success settled => finalizeSuccess p settled
  | .failure => finalizeFailure p

def Ending.ofAnswer (p : Payment) : Except PeerError PaymentOutcome → Ending
  | .ok outcome => .success (outcome.settled.getD p.fallbackCost.1)
  | .error _ => .failure

/-- What the flow of a payment does with the answer of the executor. -/
def concluded (p : Payment) (answer : Except PeerError PaymentOutcome) : Task PaymentReceipt := do
  let q ← finish (.ofAnswer p answer) p
  match answer with
  | .ok outcome => return ⟨q, outcome.preimage⟩
  | .error e => Task.refuse (.execution e)

/-- The flow of a payment is its reservation, the question to the executor and the end. -/
theorem pay_eq (policy : HoldPolicy) (k : Connection) (id : RequestId) (request : PaymentRequest) :
    pay policy k id request = (do
      let intent ← Task.valid request.intent
      let p ← reserve policy k id intent
      concluded p (← Task.execute ⟨request, p.budgetCurrency⟩)) := by
  unfold pay
  congr 1
  funext intent
  congr 1
  funext p
  congr 1
  funext answer
  cases answer <;> rfl

theorem finish_runs (hs : Coherent s) (hp : Filed s p) (e : Ending) :
    ∃ r t, finish e p s = .done r t ∧ Finalized e p s r t := by
  cases e with
  | success settled => exact finalizeSuccess_runs hs hp settled
  | failure => exact finalizeFailure_runs hs hp

end Service

/-- What is left of the flow of a payment behind the question to the executor. -/
def flowEnd (p : Payment) (answer : Except PeerError PaymentOutcome) (s : Service) :
    Progress Reply :=
  (concluded p answer s).bind fun receipt t => .done (.ok (.receipt receipt)) t

/-- A question for the execution of a payment that was just recorded, with its end to come. -/
structure Executing (p : Payment) (q : Execution) (s : Service)
    (resume : Except PeerError PaymentOutcome → Service → Progress Reply) : Prop where
  question : q.budgetCurrency = p.budgetCurrency
  stored : s.store.payment? p.id = some p
  pending : p.status = .pending
  core : p = p.core
  fallback : 0 ≤ p.fallbackCost.1
  resume : resume = flowEnd p

theorem Executing.filed {q : Execution}
    {resume : Except PeerError PaymentOutcome → Service → Progress Reply}
    (h : Executing p q s resume) : Filed s p :=
  ⟨p, h.stored, .inl h.core⟩

structure Spares (s t : Service) : Prop where
  connections : t.store.connections = s.store.connections
  limits : t.store.limits = s.store.limits

theorem Service.Opening.spares (h : Opening b s) : Spares b s := ⟨h.connections, h.limits⟩

theorem Service.Reserved.spares {P : Service → Prop} {k : Connection} {request : RequestId}
    {intent : Intent} {r : Except Abort Payment}
    (h : Reserved policy P s k request intent b r t) : Spares b t := by
  cases h with
  | held _ _ _ c p _ hold m _ _ _ _ hm hplaced =>
    have hwritten := hplaced.written
    subst hwritten
    exact ⟨hm.connections, hm.limits⟩
  | unbudgeted _ m p _ _ _ hm => exact ⟨hm.connections, hm.limits⟩
  | short _ _ _ _ _ _ _ _ _ _ hm => exact hm.spares
  | failed _ _ hm => exact hm.spares

theorem Service.Finalized.spares {r : Except Abort Payment} {e : Ending}
    (h : Finalized e p s r t) : Spares s t := by
  cases h with
  | unbudgeted => exact ⟨rfl, rfl⟩
  | budgeted c c' q _ _ _ hended =>
    have hwritten := hended.written
    subst hwritten
    exact ⟨rfl, rfl⟩
  | invalid => exact ⟨rfl, rfl⟩
  | final => exact ⟨rfl, rfl⟩
  | broken => exact ⟨rfl, rfl⟩

theorem Service.Found.spares {l : Limit} {now : Instant} {r : Except Abort Cycle}
    (h : Found l now s r t) : Spares s t := by
  cases h <;> exact ⟨rfl, rfl⟩

theorem Service.Found.payments {l : Limit} {now : Instant} {r : Except Abort Cycle}
    (h : Found l now s r t) : t.store.payments = s.store.payments := by
  cases h <;> rfl

theorem Payment.fallback_nonneg (hamount : 0 ≤ p.sendingAmount)
    (hestimate : ∀ n, p.estimate = some n → 0 ≤ n) : 0 ≤ p.fallbackCost.1 := by
  unfold fallbackCost
  split
  · split
    · exact hamount
    · rename_i n _ hn _
      exact hestimate n hn
  · exact hamount

theorem Service.Reserved.executing {P : Service → Prop} {k : Connection} {request : RequestId}
    {intent : Intent} (h : Reserved policy P s k request intent b (.ok p) t)
    (r : PaymentRequest) : Executing p ⟨r, p.budgetCurrency⟩ t (flowEnd p) := by
  cases h with
  | held _ _ _ c _ _ hold m _ _ _ _ _ hplaced _ hp =>
    have hamount : 0 ≤ p.sendingAmount := by
      rw [hp]
      exact Int.le_of_lt intent.amount_pos
    obtain ⟨estimate, hestimate, -, hnonneg⟩ := hplaced.priced
    exact {
      question := rfl, stored := by simp [hplaced.written], pending := hplaced.pending
      core := hplaced.core, resume := rfl
      fallback := Payment.fallback_nonneg hamount (by simpa [hestimate] using hnonneg) }
  | unbudgeted _ m _ _ _ _ _ hp =>
    have hamount : 0 ≤ p.sendingAmount := by
      rw [hp]
      exact Int.le_of_lt intent.amount_pos
    exact {
      question := rfl, stored := by simp, pending := by rw [hp]; rfl, core := by rw [hp]; rfl
      resume := rfl, fallback := Payment.fallback_nonneg hamount (by simp [hp, Payment.pending]) }

/-- A stretch that leaves connections and limits alone, and asks for an execution only as the flow
of a payment does. -/
structure Asking (b : Service) (p : Progress Reply) : Prop where
  spares : Spares b p.service
  execution : ∀ q s resume, p = .execute q s resume → ∃ payment, Executing payment q s resume

theorem Spares.asking (h : Spares b s) {p : Progress Reply} (hp : p.service = s)
    (hexecutes : ∀ q t resume, p ≠ .execute q t resume) : Asking b p where
  spares := hp ▸ h
  execution q t resume he := absurd he (hexecutes q t resume)

/-- A task that opens cycles and converts, and what follows on its answer. -/
theorem Progress.Goes.asking {α : Type} {post : Service → Except Abort α → Service → Prop}
    {p : Progress α} {f : α → Service → Progress Reply}
    (h : p.Goes Opening (Rely Coherent) post b) (hc : p.Converts)
    (hspares : ∀ b r s, post b r s → Spares b s)
    (hanswers : ∀ b a s, post b (.ok a) s → (f a s).Always Asking b) :
    (p.bind f).Always Asking b :=
  h.always hc (fun _ _ _ _ h => h.spares.asking rfl (by simp)) hanswers
    fun b _ s h => (hspares b _ s h).asking rfl (by simp)

theorem Service.Finalized.asking {e : Ending} {t : Task Payment}
    (h : ∃ r u, t s = .done r u ∧ Finalized e p s r u) {f : Payment → Service → Progress Reply}
    (hf : ∀ q u, ∃ r, f q u = .done r u) : ((t s).bind f).Always Asking s := by
  obtain ⟨r, u, hrun, hfinal⟩ := h
  rw [hrun]
  cases r with
  | error a => exact hfinal.spares.asking rfl (by simp)
  | ok q =>
    obtain ⟨r, hr⟩ := hf q u
    rw [Progress.bind_ok, hr]
    exact hfinal.spares.asking rfl (by simp)

theorem flowEnd_asking (hs : Coherent s) (hp : Filed s p)
    (answer : Except PeerError PaymentOutcome) : (flowEnd p answer s).Always Asking s := by
  simp only [flowEnd, concluded, Task.bind_run, Progress.bind_assoc]
  refine Finalized.asking (finish_runs hs hp _) fun q u => ?_
  cases answer <;> exact ⟨_, rfl⟩

def Operation.setsLimits : Operation → Bool
  | .createConnection _ _ _ _ => true
  | .updateLimit _ _ _ => true
  | _ => false

/-- What such an operation comes to. -/
inductive SetsLimits (s : Service) : Operation → Service → Prop
  | connected (currency : Currency) (token : Option String) (limit : Option LimitUpdate)
      (now : Instant) (r : Except Abort Connection) (t : Service)
      (h : Connected currency token limit now s r t) :
    SetsLimits s (.createConnection currency token limit now) t
  | updated (id : ConnectionId) (u : LimitUpdate) (now : Instant) (k : Connection)
      (r : Except Abort LimitChange) (t : Service) (hk : s.store.connection? id = some k)
      (h : Updated k u now s r t) : SetsLimits s (.updateLimit id u now) t
  | unknown (id : ConnectionId) (u : LimitUpdate) (now : Instant)
      (hk : s.store.connection? id = none) : SetsLimits s (.updateLimit id u now) s

theorem Service.Started.payments {k : Connection} {currency : Currency} {amount : Int}
    {frequency : Frequency} {now : Instant} {r : Except Abort Limit}
    (h : Started k currency amount frequency now s r t) :
    t.store.payments = s.store.payments := by
  cases h <;> rfl

theorem Service.Updated.payments {k : Connection} {u : LimitUpdate} {now : Instant}
    {r : Except Abort LimitChange} (h : Updated k u now s r t) :
    t.store.payments = s.store.payments := by
  have hretired : ∀ l, (s.retired l now).store.payments = s.store.payments := by
    intro l
    simp [retired, Store.fileLimit]
  cases h with
  | unlimited => rfl
  | disabled l => exact hretired l
  | invalid => rfl
  | created _ _ _ _ _ _ hstarted => exact hstarted.payments
  | unchanged => rfl
  | amountChanged => simp [Store.fileLimit]
  | replaced l _ _ _ _ _ _ _ hstarted => exact hstarted.payments.trans (hretired l)

/-- Setting limits leaves payments alone. -/
theorem SetsLimits.payments {op : Operation} (h : SetsLimits s op t) :
    t.store.payments = s.store.payments := by
  cases h with
  | connected _ _ _ _ _ _ h =>
    cases h with
    | plain => rfl
    | limited _ _ _ _ _ _ _ _ hupdated => exact hupdated.payments
    | failed _ _ _ _ _ _ _ hupdated => exact hupdated.payments
  | updated _ _ _ _ _ _ _ h => exact h.payments
  | unknown => rfl

theorem Service.Ends.run {α : Type} {now : Instant} {q : Progress α} {f : α → Reply}
    {post : Except Abort α → Service → Prop} (h : Ends now s q post) (hs : Coherent s) :
    ∃ r t, (q.bind fun a t => .done (.ok (f a)) t) = .done r t ∧
      (t.FreshIds → ∃ r, post r t) := by
  obtain ⟨r, t, rfl, -, -, hpost⟩ := h
  have hends : t.FreshIds → ∃ r, post r t := fun hf => ⟨r, (hpost hs hf).2⟩
  cases r <;> exact ⟨_, t, rfl, hends⟩

/-- It asks nothing. -/
theorem Operation.setsLimits_run {op : Operation} (hop : op.setsLimits = true)
    (hs : Coherent s) :
    ∃ r t, op.task policy s = .done r t ∧ (t.FreshIds → SetsLimits s op t) := by
  cases op with
  | createConnection currency token limit now =>
    obtain ⟨r, t, hrun, hends⟩ := (createConnection_ends hs.quiet currency token limit now).run hs
    refine ⟨r, t, hrun, fun hf => ?_⟩
    obtain ⟨r, h, -⟩ := hends hf
    exact .connected _ _ _ _ r t h
  | updateLimit id u now =>
    obtain ⟨r, t, hrun, hends⟩ := (updateLimit_ends hs.quiet id u now).run hs
    refine ⟨r, t, hrun, fun hf => ?_⟩
    obtain ⟨r, ⟨hk, -, rfl⟩ | ⟨k, hk, h⟩⟩ := hends hf
    · exact .unknown id u now hk
    · exact .updated id u now k r t hk h
  | _ => cases hop

def Operation.reads : Operation → Bool
  | .connection _ => true
  | .limitHistory _ => true
  | .payments _ _ => true
  | _ => false

theorem Operation.reads_run {op : Operation} (hop : op.reads = true) (hq : s.outages = []) :
    ∃ r, op.task policy s = .done r s := by
  cases op with
  | connection id =>
    simp only [Operation.task, Task.bind_run, connection_run hq]
    cases s.store.connection? id <;> exact ⟨_, rfl⟩
  | limitHistory id =>
    simp only [Operation.task, Task.bind_run, limitHistory_run hq]
    cases s.store.connection? id <;> exact ⟨_, rfl⟩
  | payments id most =>
    simp only [Operation.task, Task.bind_run, payments_run hq]
    cases s.store.connection? id <;> exact ⟨_, rfl⟩
  | _ => cases hop

theorem World.Sound.asking (hw : w.Sound policy) {op : Operation} (hadmits : w.admits op)
    (hop : op.setsLimits = false) : (op.task policy w.service).Always Asking w.service := by
  have hs := hw.coherent
  have hP : ∀ t, Coherent t → Coherent t := fun _ => id
  have hreads : op.reads = true → (op.task policy w.service).Always Asking w.service := by
    intro hreads
    obtain ⟨r, hrun⟩ : ∃ r, op.task policy w.service = .done r w.service :=
      Operation.reads_run hreads hs.quiet
    rw [hrun]
    exact (Opening.refl _).spares.asking rfl (by simp)
  cases op with
  | createConnection currency token limit now => cases hop
  | updateLimit id u now => cases hop
  | connection id => exact hreads rfl
  | reserve k request intent =>
    refine (reserve_goes hP hs (hw.connections k hadmits)).asking (reserve_converts ..)
      (fun _ _ _ h => h.spares) fun b p s h => ?_
    exact h.spares.asking rfl (by simp)
  | finalizeSuccess p settled =>
    exact Finalized.asking (finalizeSuccess_runs hs (hw.payments p hadmits) settled) (by simp)
  | finalizeFailure p =>
    exact Finalized.asking (finalizeFailure_runs hs (hw.payments p hadmits)) (by simp)
  | pay k id request =>
    simp only [Operation.task, pay_eq, Task.bind_run]
    cases hintent : request.intent with
    | error e => exact (Opening.refl _).spares.asking rfl (by simp)
    | ok intent =>
      simp only [Task.valid_ok, Progress.bind_ok, Progress.bind_assoc]
      refine (reserve_goes hP hs (hw.connections k hadmits)).asking (reserve_converts ..)
        (fun _ _ _ h => h.spares) fun b p s h => ?_
      have hexecuting := h.executing request
      refine ⟨⟨h.spares, ?_⟩, fun answer t ht => ?_⟩
      · rintro q s resume he
        cases he
        exact ⟨p, hexecuting⟩
      · exact flowEnd_asking ht.2 (hexecuting.filed.later ht.1) answer
  | budgetView k =>
    refine (budgetView_goes hP hs (hw.connections k hadmits)).asking (budgetView_converts k _)
      (fun _ _ _ h => h.opening.spares) fun b v s h => ?_
    exact h.opening.spares.asking rfl (by simp)
  | limitHistory id => exact hreads rfl
  | payments id most => exact hreads rfl
  | currentCycle l now =>
    obtain ⟨r, t, hrun, hfound⟩ := Operation.currentCycle_run hs.quiet l now
    rw [hrun]
    exact hfound.spares.asking rfl (by simp)

/-- What is known of the operations that wait: what they have still before them, and which payments
they end when they wait for an execution. -/
structure World.Attends (w : World) : Prop where
  still : ∀ p ∈ w.waiting, p.Still Asking w.service
  executions : ∀ q s resume, .execute q s resume ∈ w.waiting →
    Later s w.service ∧ ∃ payment, Executing payment q s resume

namespace World.Attends

theorem later (h : w.Attends) (hlater : Later w.service s) :
    ({ w with service := s } : World).Attends where
  still p hp := (h.still p hp).later hlater
  executions q t resume hp := by
    obtain ⟨hlater', hexecuting⟩ := h.executions q t resume hp
    exact ⟨hlater'.trans hlater, hexecuting⟩

theorem answered (h : w.Attends) (n : Nat) : (w.answered n).Attends where
  still p hp := h.still p (List.mem_of_mem_eraseIdx hp)
  executions q s resume hp := h.executions q s resume (List.mem_of_mem_eraseIdx hp)

theorem done (h : w.Attends) {r : Except Abort Reply} (hlater : Later w.service s) :
    (w.take (.done r s)).Attends := by
  have hnext := h.later hlater
  cases r <;> exact ⟨hnext.still, hnext.executions⟩

theorem take (h : w.Attends) {p : Progress Reply} (hp : p.Always Asking w.service)
    (hlater : Later w.service p.service) : (w.take p).Attends := by
  have hnext := h.later hlater
  cases p with
  | done r s => exact h.done hlater
  | convert q s resume =>
    refine ⟨List.forall_mem_cons.mpr ⟨hp.still, hnext.still⟩, fun q' s' resume' hmem => ?_⟩
    rcases List.mem_cons.mp hmem with he | hmem
    · cases he
    · exact hnext.executions q' s' resume' hmem
  | execute q s resume =>
    refine ⟨List.forall_mem_cons.mpr ⟨hp.still, hnext.still⟩, fun q' s' resume' hmem => ?_⟩
    rcases List.mem_cons.mp hmem with he | hmem
    · exact ⟨by cases he; exact .refl _, hp.first.execution q' s' resume' he.symm⟩
    · exact hnext.executions q' s' resume' hmem

/-- An event leaves connections and limits alone, or it calls an operation that sets limits. -/
theorem step (hw : w.Sound policy) (h : w.Attends) (hstep : w.step policy e = some w')
    (hf : w'.service.FreshIds) : w'.Attends ∧ (Spares w.service w'.service ∨
      ∃ op, e = .call op ∧ SetsLimits w.service op w'.service) := by
  have hlater := (hw.step hstep hf).2.later hw.coherent hf
  have htake : ∀ {v : World} {p : Progress Reply}, v.Attends → v.service = w.service →
      p.Always Asking w.service → v.take p = w' →
        w'.Attends ∧ (Spares w.service w'.service ∨
          ∃ op, e = .call op ∧ SetsLimits w.service op w'.service) := by
    rintro v p hv hservice hp rfl
    rw [World.take_service] at hlater
    refine ⟨hv.take (hservice ▸ hp) (hservice ▸ hlater), .inl ?_⟩
    rw [World.take_service]
    exact hp.first.spares
  cases step_cases hstep with
  | called op hop =>
    cases hsets : op.setsLimits with
    | false => exact htake h rfl (hw.asking hop hsets) rfl
    | true =>
      -- It is done within its event, so nothing new waits.
      obtain ⟨r, t, hrun, hends⟩ := Operation.setsLimits_run hsets hw.coherent
      rw [hrun] at hlater hf ⊢
      rw [World.take_service] at hlater hf ⊢
      exact ⟨h.done hlater, .inr ⟨op, rfl, hends hf⟩⟩
  | converted n answer q s resume hn =>
    refine htake (h.answered n) rfl ?_ rfl
    exact h.still _ (List.mem_of_getElem? hn) answer w.service ⟨.refl _, hw.coherent⟩
  | executed n answer q s resume hn =>
    refine htake (h.answered n) rfl ?_ rfl
    exact h.still _ (List.mem_of_getElem? hn) answer w.service ⟨.refl _, hw.coherent⟩
  | clock now => exact ⟨h.later hlater, .inl ⟨rfl, rfl⟩⟩

end World.Attends

theorem Run.attends (run : Run policy rule (w :: path)) : w.Attends := by
  induction run using Run.lastInduction with
  | start clock ids scan =>
    exact {
      still := by intro p hp; cases hp
      executions := by intro q s resume hp; cases hp }
  | step run hrule hstep hfresh ih => exact (ih.step run.sound hstep hfresh).1

/-- An operation that waits for an execution ends the payment it has reserved. -/
theorem Run.executing (run : Run policy rule (w :: path)) {q : Execution}
    {resume : Except PeerError PaymentOutcome → Service → Progress Reply}
    (h : .execute q s resume ∈ w.waiting) : ∃ p, Executing p q s resume ∧ Filed w.service p := by
  obtain ⟨hlater, p, hexecuting⟩ := run.attends.executions q s resume h
  exact ⟨p, hexecuting, hexecuting.filed.later hlater⟩

end WalletBudget
