import WalletBudget.Proofs.AmountRange
import WalletBudget.Proofs.FlowEnd

/-!
The flow of a payment turn by turn: what it asks the executor, and what it reports.

A flow is its reservation, one question to the executor and the end of the payment. Anything may
happen while it waits, so the cycle of its payment may have ended by then, or have another amount.
It is still that cycle which is charged.
-/

namespace WalletBudget

open Service

variable {α β : Type} {policy : HoldPolicy} {rule others : World → Event → Prop}
  {Q : Service → Prop} {s t u : Service} {w v : World} {past path before : List World}
  {turns : List Turn} {e : Ending} {p q : Payment}

def Turn.executes : Turn → Bool
  | .executed _ => true
  | _ => false

def executions (turns : List Turn) : Nat := turns.countP Turn.executes

theorem executions_append (first second : List Turn) :
    executions (first ++ second) = executions first + executions second :=
  List.countP_append ..

theorem executions_other (events : List Event) : executions (events.map .other) = 0 := by
  simp [executions, List.countP_eq_zero, Turn.executes]

/-- What comes behind a task does not belong to its last stretch, where it asks at once. -/
theorem Progress.bind_service {f : α → Service → Progress β} (hf : ∀ a s, (f a s).service = s)
    (p : Progress α) : (p.bind f).service = p.service := by
  cases p with
  | done r s => cases r with
    | ok a => exact hf a s
    | error e => rfl
  | convert q s resume => rfl
  | execute q s resume => rfl

namespace World

/-- What one turn of a task that waits comes to. -/
inductive Turned (policy : HoldPolicy) (others : World → Event → Prop) (w : World) :
    Progress α → Turn → World → Progress α → Prop
  | other (e : Event) (w' : World) (p : Progress α) (hasks : p.asks = true) (hrule : others w e)
      (hstep : w.step policy e = some w') (hfresh : w'.service.FreshIds) :
    Turned policy others w p (.other e) w' p
  | converted (answer : Except PeerError Int) (q : Conversion) (s : Service)
      (resume : Except PeerError Int → Service → Progress α)
      (hfresh : (resume answer w.service).service.FreshIds) :
    Turned policy others w (.convert q s resume) (.converted answer)
      { w with service := (resume answer w.service).service } (resume answer w.service)
  | executed (answer : Except PeerError PaymentOutcome) (q : Execution) (s : Service)
      (resume : Except PeerError PaymentOutcome → Service → Progress α)
      (hfresh : (resume answer w.service).service.FreshIds) :
    Turned policy others w (.execute q s resume) (.executed answer)
      { w with service := (resume answer w.service).service } (resume answer w.service)

/-- A turn of a task and of what comes behind it is a turn of the task alone. -/
theorem Turned.bind {f : α → Service → Progress β} (hf : ∀ a s, (f a s).service = s)
    {p : Progress α} {turn : Turn} {q : Progress β} (hp : p.asks = true)
    (h : Turned policy others w (p.bind f) turn v q) :
    ∃ p', Turned policy others w p turn v p' ∧ q = p'.bind f ∧
      (p'.service = v.service ∨ p'.asks = true) := by
  cases p with
  | done r s => cases hp
  | convert question s resume =>
    cases h with
    | other e _ _ _ hrule hstep hfresh =>
      exact ⟨_, .other e v _ rfl hrule hstep hfresh, rfl, .inr rfl⟩
    | converted answer _ _ _ hfresh =>
      rw [Progress.bind_service hf] at hfresh ⊢
      exact ⟨_, .converted answer question s resume hfresh, rfl, .inl rfl⟩
  | execute question s resume =>
    cases h with
    | other e _ _ _ hrule hstep hfresh =>
      exact ⟨_, .other e v _ rfl hrule hstep hfresh, rfl, .inr rfl⟩
    | executed answer _ _ _ hfresh =>
      rw [Progress.bind_service hf] at hfresh ⊢
      exact ⟨_, .executed answer question s resume hfresh, rfl, .inl rfl⟩

variable [∀ w e, Decidable (others w e)]

theorem attend_cons {p p' : Progress α} {turn : Turn} :
    w.attend policy others before p (turn :: turns) = some (path, p') ↔
      ∃ v q, Turned policy others w p turn v q ∧
        v.attend policy others (w :: before) q turns = some (path, p') := by
  constructor
  · intro h
    cases turn with
    | other e =>
      simp only [attend] at h
      split at h
      · rename_i hkept
        split at h
        · rename_i v hstep
          split at h
          · rename_i hfresh
            exact ⟨v, p, .other e v p hkept.1 hkept.2 hstep hfresh, h⟩
          · cases h
        · cases h
      · cases h
    | converted answer =>
      cases p with
      | convert q s resume =>
        simp only [attend] at h
        split at h
        · rename_i hfresh
          exact ⟨_, _, .converted answer q s resume hfresh, h⟩
        · cases h
      | _ => simp [attend] at h
    | executed answer =>
      cases p with
      | execute q s resume =>
        simp only [attend] at h
        split at h
        · rename_i hfresh
          exact ⟨_, _, .executed answer q s resume hfresh, h⟩
        · cases h
      | _ => simp [attend] at h
  · rintro ⟨v, q, hturn, h⟩
    cases hturn with
    | other e _ _ hasks hrule hstep hfresh => simp [attend, hasks, hrule, hstep, hfresh, h]
    | converted answer q s resume hfresh => simp [attend, hfresh, h]
    | executed answer q s resume hfresh => simp [attend, hfresh, h]

theorem attend_done {r : Except Abort α} {p : Progress α}
    (h : w.attend policy others before (.done r s) turns = some (path, p)) :
    turns = [] ∧ path = w :: before ∧ p = .done r s := by
  cases turns with
  | nil => simpa [attend, eq_comm] using h
  | cons turn rest =>
    obtain ⟨v, q, hturn, -⟩ := attend_cons.mp h
    cases hturn with
    | other e _ _ hasks => cases hasks

/-- A task that only converts has no execution among its turns. -/
theorem attend_converts {p q : Progress α} (hp : p.Converts)
    (h : w.attend policy others before p turns = some (path, q)) : executions turns = 0 := by
  induction turns generalizing w before p with
  | nil => rfl
  | cons turn rest ih =>
    obtain ⟨v, p', hturn, hrest⟩ := attend_cons.mp h
    cases hturn with
    | other => exact ih hp hrest
    | converted answer _ _ _ => exact ih (hp answer w.service) hrest
    | executed => exact hp.elim

/-- The turns of a task and of what comes behind it, where that asks at once: either the task stops
without an answer in them, or it has its answer after the first ones. -/
theorem attend_bind {f : α → Service → Progress β} (hf : ∀ a s, (f a s).service = s)
    {p : Progress α} {r : Except Abort β} (hw : p.service = w.service ∨ p.asks = true)
    (h : w.attend policy others before (p.bind f) turns = some (path, .done r s)) :
    (∃ a, w.attend policy others before p turns = some (path, .done (.error a) s) ∧
      r = .error a) ∨
    ∃ first second a v earlier, turns = first ++ second ∧
      w.attend policy others before p first = some (v :: earlier, .done (.ok a) v.service) ∧
      w.attend policy others before (p.bind f) first = some (v :: earlier, f a v.service) ∧
      v.attend policy others earlier (f a v.service) second = some (path, .done r s) := by
  induction turns generalizing w before p with
  | nil =>
    cases p with
    | done r' s' =>
      obtain rfl : s' = w.service := hw.resolve_right (by simp [Progress.asks])
      cases r' with
      | ok a => exact .inr ⟨[], [], a, w, before, rfl, rfl, rfl, h⟩
      | error a =>
        obtain ⟨-, rfl, he⟩ := attend_done h
        cases he
        exact .inl ⟨a, rfl, rfl⟩
    | convert q s' resume => simp [Progress.bind, attend] at h
    | execute q s' resume => simp [Progress.bind, attend] at h
  | cons turn rest ih =>
    cases hasks : p.asks with
    | true =>
      obtain ⟨v, q, hturn, hrest⟩ := attend_cons.mp h
      obtain ⟨p', hturn', rfl, hv⟩ := hturn.bind hf hasks
      rcases ih hv hrest with ⟨a, hstop, hr⟩ |
        ⟨first, second, a, v', earlier, hsplit, hfirst, hbind, hsecond⟩
      · exact .inl ⟨a, attend_cons.mpr ⟨v, p', hturn', hstop⟩, hr⟩
      · exact .inr ⟨turn :: first, second, a, v', earlier, by rw [hsplit, List.cons_append],
          attend_cons.mpr ⟨v, p', hturn', hfirst⟩, attend_cons.mpr ⟨v, _, hturn, hbind⟩, hsecond⟩
    | false =>
      cases p with
      | done r' s' =>
        obtain rfl : s' = w.service := hw.resolve_right (by simp [Progress.asks])
        cases r' with
        | ok a => exact .inr ⟨[], turn :: rest, a, w, before, rfl, rfl, rfl, h⟩
        | error a =>
          obtain ⟨hnil, -⟩ := attend_done h
          cases hnil
      | convert => cases hasks
      | execute => cases hasks

theorem during_converts {task : Task α} {q : Progress α} (htask : (task w.service).Converts)
    (h : w.during policy others task turns = some (path, q)) : executions turns = 0 := by
  simp only [during] at h
  split at h
  · exact attend_converts htask h
  · cases h

theorem during_bind {task : Task α} {f : α → Task β} (hf : ∀ a s, (f a s).service = s)
    {r : Except Abort β} (h : w.during policy others (task >>= f) turns = some (path, .done r s)) :
    (∃ a, w.during policy others task turns = some (path, .done (.error a) s) ∧ r = .error a) ∨
    ∃ first second a v earlier, turns = first ++ second ∧
      w.during policy others task first = some (v :: earlier, .done (.ok a) v.service) ∧
      w.during policy others (task >>= f) first = some (v :: earlier, f a v.service) ∧
      v.attend policy others earlier (f a v.service) second = some (path, .done r s) := by
  simp only [during, Task.bind_run, Progress.bind_service hf] at h ⊢
  split at h
  · rename_i hfresh
    simp only [hfresh, if_true]
    exact attend_bind hf (.inl rfl) h
  · cases h

/-- The turns of a task that waits for an execution and is at its end with the answer: other events,
which keep what nothing breaks, and the answer. -/
theorem Sound.awaits {question : Execution}
    {resume : Except PeerError PaymentOutcome → Service → Progress α} {r : Except Abort α}
    (hw : w.Sound policy) (hQ : Q w.service)
    (hkeep : ∀ s t, Coherent s → t.FreshIds → Changed policy False s t → Q s → Q t)
    (hends : ∀ answer s, Coherent s → Q s → ∃ r t, resume answer s = .done r t)
    (h : w.attend policy others before (.execute question s resume) turns =
      some (path, .done r t)) :
    ∃ (meanwhile : List Event) (answer : Except PeerError PaymentOutcome) (v : World)
      (earlier : List World), turns = meanwhile.map .other ++ [.executed answer] ∧
      Coherent v.service ∧ Q v.service ∧ resume answer v.service = .done r t ∧
      path = { v with service := t } :: v :: earlier := by
  induction turns generalizing w before with
  | nil => simp [attend] at h
  | cons turn rest ih =>
    obtain ⟨v, p, hturn, hrest⟩ := attend_cons.mp h
    cases hturn with
    | other e _ _ _ _ hstep hfresh =>
      obtain ⟨hsound, hchanged⟩ := hw.step hstep hfresh
      obtain ⟨meanwhile, answer, v', earlier, rfl, hv'⟩ := ih hsound
        (hkeep _ _ hw.coherent hfresh (hchanged.imp False.elim) hQ) hrest
      exact ⟨e :: meanwhile, answer, v', earlier, rfl, hv'⟩
    | executed answer =>
      obtain ⟨r', t', hrun⟩ := hends answer w.service hw.coherent hQ
      rw [hrun] at hrest
      obtain ⟨rfl, rfl, he⟩ := attend_done hrest
      cases he
      exact ⟨[], answer, w, before, rfl, hw.coherent, hQ, hrun, rfl⟩

end World

namespace Service

/-- What a flow answers when its payment has its end. -/
def concluding (answer : Except PeerError PaymentOutcome) (q : Payment) :
    Except Abort PaymentReceipt :=
  match answer with
  | .ok outcome => .ok ⟨q, outcome.preimage⟩
  | .error e => .error (.refused (.execution e))

theorem concluded_runs (hs : Coherent s) (hp : Filed s p)
    (answer : Except PeerError PaymentOutcome) :
    ∃ r t, Finalized (.ofAnswer p answer) p s r t ∧
      concluded p answer s = .done (r.bind (concluding answer)) t := by
  obtain ⟨r, t, hrun, hfinal⟩ := finish_runs hs hp (.ofAnswer p answer)
  refine ⟨r, t, hfinal, ?_⟩
  simp only [concluded, Task.bind_run, hrun]
  cases r with
  | error a => rfl
  | ok q => cases answer <;> rfl

/-- The end of a payment in the ledger: its record is final, and in its own cycle the hold is
released and the cost is charged. No other cycle is touched. -/
structure Accounted (e : Ending) (p q : Payment) (s t : Service) : Prop where
  record : q = e.mark p s.clock
  stored : t.store.payment? p.id = some q
  cycle : ∀ id, p.cycle = some id → ∃ c hold, s.store.cycle? id = some c ∧ p.hold = some hold ∧
    t.store.cycle? id = some { c with held := c.held - hold, spent := c.spent + e.cost }
  others : ∀ id, p.cycle ≠ some id → t.store.cycle? id = s.store.cycle? id

theorem Finalized.accounted (hs : Coherent s) (hbalanced : Balanced s)
    (h : Finalized e p s (.ok q) t) : Accounted e p q s t := by
  have hcycle : ∀ id, p.cycle = some id → ∃ c hold, s.store.cycle? id = some c ∧
      p.hold = some hold ∧
      t.store.cycle? id = some { c with held := c.held - hold, spent := c.spent + e.cost } := by
    intro id hlinked
    have hp : s.store.payment? p.id = some p := by
      cases h with
      | unbudgeted hp => exact hp
      | budgeted c c' q t hq hpq => exact hpq ▸ hq
    obtain ⟨c, hc⟩ := hs.paymentCycle p.id p id hp hlinked
    obtain ⟨hold, hhold, -, hc'⟩ := h.charged hs hbalanced hlinked hc
    exact ⟨c, hold, hc, hhold, hc'⟩
  cases h with
  | unbudgeted => exact ⟨rfl, by simp, hcycle, fun _ _ => rfl⟩
  | budgeted c c' q t _ hpq hended =>
    subst hpq
    refine ⟨rfl, by simp [hended.written], hcycle, fun id hid => ?_⟩
    rw [hended.cycle?, if_neg fun he => hid (hended.linked.trans (congrArg some he))]

/-- What a flow reports of its payment `p`, answered in `s`, and what the ledger says of it then. -/
structure Reported (p : Payment) (answer : Except PeerError PaymentOutcome) (s : Service)
    (r : Except Abort PaymentReceipt) (t : Service) : Prop where
  paid : ∀ receipt, r = .ok receipt → ∃ outcome, answer = .ok outcome ∧
    receipt.preimage = outcome.preimage ∧ receipt.payment.status = .succeeded ∧
    receipt.payment.settled = some (outcome.settled.getD p.fallbackCost.1) ∧
    Accounted (.success (outcome.settled.getD p.fallbackCost.1)) p receipt.payment s t
  unpaid : ∀ e, r = .error (.refused (.execution e)) → answer = .error e ∧
    ∃ q, q.status = .failed ∧ q.settled = none ∧ Accounted .failure p q s t
  /-- There is no other report while nobody else has ended the payment and its cost can be added. -/
  other : ∀ q, s.store.payment? p.id = some q → q.status = .pending →
    (∀ outcome settled, answer = .ok outcome → outcome.settled = some settled → 0 ≤ settled) →
    (∀ c, p.cycle = some c.id → s.store.cycle? c.id = some c →
      c.spent + (Ending.ofAnswer p answer).cost ≤ largestAmount) →
    (∃ receipt, r = .ok receipt) ∨ ∃ e, r = .error (.refused (.execution e))

theorem Finalized.reported (hs : Coherent s) (hbalanced : Balanced s) (hranged : Ranged s)
    (hsettled : p.settled = none) (hfallback : 0 ≤ p.fallbackCost.1)
    {answer : Except PeerError PaymentOutcome} {r : Except Abort Payment}
    (h : Finalized (.ofAnswer p answer) p s r t) :
    Reported p answer s (r.bind (concluding answer)) t := by
  cases r with
  | ok q =>
    have haccounted := h.accounted hs hbalanced
    cases answer with
    | ok outcome =>
      refine ⟨?_, by simp [Except.bind, concluding], fun _ _ _ _ _ => .inl ⟨_, rfl⟩⟩
      intro receipt he
      obtain rfl := Except.ok.inj he
      refine ⟨outcome, rfl, rfl, ?_, ?_, haccounted⟩ <;> simp only [haccounted.record] <;> rfl
    | error e =>
      refine ⟨by simp [Except.bind, concluding], ?_, fun _ _ _ _ _ => .inr ⟨e, rfl⟩⟩
      intro e' he
      cases he
      refine ⟨rfl, q, ?_, ?_, haccounted⟩ <;> simp only [haccounted.record]
      · rfl
      · exact hsettled
  | error a =>
    refine ⟨by simp [Except.bind], ?_, ?_⟩
    · intro e he
      cases he
      cases h
    · intro q hq hpending hreported hfits
      have hfinal := h
      cases h with
      | invalid settled he hneg =>
        exact absurd (ofAnswer_cost hfallback hreported settled he) (by omega)
      | final q' hq' hended =>
        obtain rfl : q = q' := Option.some.inj (hq.symm.trans hq')
        exact absurd hpending hended
      | broken d =>
        obtain ⟨c, settled, he, hlinked, hc, -, -, hlarge⟩ := hfinal.overflow hs hbalanced hranged
        have hle := hfits c hlinked hc
        rw [he, Ending.cost] at hle
        omega

theorem Reserved.unasked {P : Service → Prop} {called b : Service} {k : Connection}
    {id : RequestId} {intent : Intent} {a : Abort}
    (h : Reserved policy P called k id intent b (.error a) t) :
    ∀ e, a ≠ .refused (.execution e) := by
  cases h with
  | short => simp
  | failed _ _ _ _ _ hunasked => exact hunasked

/-- The books of a service are in order: the totals of the cycles add up, within the range of
amounts. -/
structure Kept (s : Service) : Prop where
  balanced : Balanced s
  ranged : Ranged s

theorem Kept.changed {steady : Prop} (hs : Coherent s) (h : Kept s)
    (hvalid : policy.validate = .ok ()) (hst : Changed policy steady s t) (ht : t.FreshIds) :
    Kept t :=
  ⟨h.balanced.changed hs hvalid hst ht, h.ranged.changed hs hvalid hst ht⟩

theorem pay_invalid {k : Connection} {id : RequestId} {request : PaymentRequest}
    {e : ValidationError} (h : request.intent = .error e) :
    pay policy k id request s = .done (.error (.refused (.validation e))) s := by
  simp only [pay, Task.bind_run, h]
  rfl

/-- Behind a valid intent the flow is its reservation and the question to the executor. -/
theorem pay_intent {k : Connection} {id : RequestId} {request : PaymentRequest} {intent : Intent}
    (h : request.intent = .ok intent) : pay policy k id request = reserve policy k id intent >>=
      fun p => Task.execute ⟨request, p.budgetCurrency⟩ >>= concluded p := by
  rw [pay_eq, h]
  rfl

end Service

/-- The books stay in order while a call works and waits. -/
theorem Course.kept {task : Task α} {p : Progress α}
    {post : Service → Except Abort α → Service → Prop} (hvalid : policy.validate = .ok ())
    (hw : w.Sound policy) (h : Kept w.service) (course : Course policy others task w path p)
    (hgoes : (task w.service).Goes (Works policy) (Rely (Moment Kept)) post w.service) :
    Stands policy Kept (Works policy) post path p := by
  refine course.follows hw h (fun _ _ => id) ?_ ?_ hgoes
  · intro v u _ hv hf hworks h
    exact h.changed hv hvalid (.work _ False.elim (hworks.imp False.elim)) hf
  · intro v v' e _ hv _ hstep hf h
    exact h.changed hv.coherent hvalid (hv.step hstep hf).2 hf

variable [∀ w e, Decidable (others w e)]

/-- A flow asks the executor once, for the payment that it has reserved, or not at all where the
intent or the reservation fails. While it waits anything may happen. The report of an execution is
what the ledger says then: the receipt has the payment as it is stored, at the reported cost or the
fallback one, and that is what its cycle is charged; behind a failure the payment has failed, and
its cycle has only the hold back. -/
theorem flow_reported (hvalid : policy.validate = .ok ()) (run : Run policy rule (w :: past))
    {k : Connection} (hk : k ∈ w.connections) {id : RequestId} {request : PaymentRequest}
    {r : Except Abort PaymentReceipt}
    (h : w.during policy others (pay policy k id request) turns = some (path, .done r s)) :
    match request.intent with
    | .error e => executions turns = 0 ∧ r = .error (.refused (.validation e)) ∧ s = w.service
    | .ok intent =>
      (∃ a, w.during policy others (reserve policy k id intent) turns =
          some (path, .done (.error a) s) ∧
        executions turns = 0 ∧ r = .error a ∧ ∀ e, a ≠ .refused (.execution e)) ∨
      ∃ (before : List Turn) (meanwhile : List Event) (answer : Except PeerError PaymentOutcome)
        (p : Payment) (u : Service) (resume : _) (earlier : List World) (v : World)
        (rest : List World), turns = before ++ (meanwhile.map .other ++ [.executed answer]) ∧
        executions turns = 1 ∧
        w.during policy others (reserve policy k id intent) before =
          some (earlier, .done (.ok p) u) ∧
        w.during policy others (pay policy k id request) before =
          some (earlier, .execute ⟨request, p.budgetCurrency⟩ u resume) ∧
        path = { v with service := s } :: v :: rest ∧ Reported p answer v.service r s := by
  have hw := run.sound
  have hs := hw.coherent
  have hkept : Kept w.service := ⟨reachable_balanced hvalid run, reachable_ranged hvalid run⟩
  have hmoment : ∀ t, Moment Kept t → Coherent t := fun _ h => h.1
  have hknown := hw.connections k hk
  cases hintent : request.intent with
  | error e =>
    simp only [World.during, pay_invalid hintent] at h
    split at h
    · obtain ⟨rfl, -, he⟩ := World.attend_done h
      cases he
      exact ⟨rfl, rfl, rfl⟩
    · cases h
  | ok intent =>
    have hreserve : (reserve policy k id intent w.service).Goes (Works policy)
        (Rely (Moment Kept)) (Reserved policy (Moment Kept) w.service k id intent) w.service :=
      (reserve_goes hmoment ⟨hs, hkept⟩ hknown).weaken fun _ _ => Opening.works
    have hpay := h
    rw [pay_intent hintent] at h
    rcases World.during_bind (fun _ _ => rfl) h with ⟨a, hstop, rfl⟩ |
      ⟨before, second, p, v, earlier, rfl, hreserved, hasks, hrest⟩
    · obtain ⟨_, _, -, -, -, hpost⟩ := (Course.of_during hstop).kept hvalid hw hkept hreserve
      exact .inl ⟨a, hstop, World.during_converts (reserve_converts ..) hstop, rfl, hpost.unasked⟩
    · obtain ⟨b, _, -, -, -, hpost⟩ := (Course.of_during hreserved).kept hvalid hw hkept hreserve
      rw [← pay_intent hintent] at hasks
      obtain ⟨v', _, hpath, hv, hkeptv, -⟩ := (Course.of_during hasks).kept hvalid hw hkept
        (pay_works hmoment ⟨hs, hkept⟩ hknown request id)
      cases hpath
      have hexecuting := hpost.executing request
      have hends : ∀ answer t, Coherent t → Kept t ∧ Filed t p →
          ∃ r u, concluded p answer t = .done r u := by
        intro answer t ht h
        obtain ⟨r, u, -, hrun⟩ := concluded_runs ht h.2 answer
        exact ⟨_, u, hrun⟩
      obtain ⟨meanwhile, answer, v', rest, rfl, hv', ⟨hkept', hfiled⟩, hrun, rfl⟩ :=
        hv.awaits (Q := fun t => Kept t ∧ Filed t p) ⟨hkeptv, hexecuting.filed⟩
          (fun s t hs ht hst h => ⟨h.1.changed hs hvalid hst ht, h.2.later (hst.later hs ht)⟩)
          hends hrest
      obtain ⟨r', t, hfinal, hrun'⟩ := concluded_runs hv' hfiled answer
      obtain ⟨rfl, rfl⟩ := by simpa [hrun] using hrun'
      refine .inr ⟨before, meanwhile, answer, p, _, _, _, v', rest, rfl, ?_, hreserved, hasks, rfl,
        ?_⟩
      · rw [executions_append, executions_append, executions_other,
          World.during_converts (reserve_converts ..) hreserved]
        rfl
      · refine hfinal.reported hv' hkept'.balanced hkept'.ranged ?_ hexecuting.fallback
        rw [hexecuting.core]
        rfl

/-- While the executor pays 30 sats the limit is replaced, so that the cycle of the payment ends and
another one begins. The 40 sats that it reports are spent in the first cycle. -/
theorem flow_reported_replaced : HoldPolicy.exact.validate = .ok () ∧
    ∃ w past path receipt s, Run HoldPolicy.exact (fun _ _ => True) (w :: past) ∧
      Sample.connection ∈ w.connections ∧
      w.during .exact (fun _ _ => True) (pay .exact Sample.connection Sample.request
        (.payInvoice "lnbc1" 30000))
        [ .other (.call (.updateLimit Sample.connection.id
            ⟨true, some 50, none, some .weekly⟩ Sample.start)),
          .executed (.ok ⟨none, some 40⟩) ] = some (path, .done (.ok receipt) s) ∧
      s.store.cycles.map (fun c => (c.limitAmount, c.spent, c.held)) =
        [(100, 40, 0), (50, 0, 0)] ∧
      s.store.payment? receipt.payment.id = some receipt.payment ∧
      receipt.payment.status = .succeeded ∧ receipt.payment.settled = some 40 := by
  have hvalid : HoldPolicy.exact.validate = .ok () := by decide
  obtain ⟨w, past, run, hf⟩ := Run.reaches .exact (fun _ _ => True) ⟨Sample.start, rfl⟩ Uuid.ofNat
    [Sample.created]
    (fun w _ => (decide (Sample.connection ∈ w.connections),
      (w.during .exact (fun _ _ => True) (pay .exact Sample.connection Sample.request
        (.payInvoice "lnbc1" 30000))
        [ .other (.call (.updateLimit Sample.connection.id
            ⟨true, some 50, none, some .weekly⟩ Sample.start)),
          .executed (.ok ⟨none, some 40⟩) ]).bind fun c => c.2.answer?.map fun a =>
            a.2.store.cycles.map (fun c => (c.limitAmount, c.spent, c.held))))
    (true, some [(100, 40, 0), (50, 0, 0)]) (by decide +kernel)
  simp only [Prod.mk.injEq, decide_eq_true_eq] at hf
  obtain ⟨hk, hread⟩ := hf
  obtain ⟨⟨path, q⟩, hduring, hread⟩ := Option.bind_eq_some_iff.mp hread
  obtain ⟨⟨receipt, s⟩, hanswer, hcycles⟩ := Option.map_eq_some_iff.mp hread
  obtain rfl : q = .done (.ok receipt) s := Progress.answer?_some hanswer
  refine ⟨hvalid, w, past, path, receipt, s, run, hk, hduring, hcycles, ?_⟩
  rcases flow_reported hvalid run hk hduring with ⟨a, -, -, he, -⟩ |
    ⟨before, meanwhile, answer, p, u, resume, earlier, v, rest, hturns, -, -, -, -, hreported⟩
  · cases he
  · obtain ⟨outcome, rfl, -, hstatus, hsettled, haccounted⟩ := hreported.paid receipt rfl
    have hanswered := congrArg List.getLast? hturns
    simp only [← List.append_assoc, List.getLast?_concat] at hanswered
    cases hanswered
    have hid : receipt.payment.id = p.id := by rw [haccounted.record, mark_id]
    exact ⟨hid ▸ haccounted.stored, hstatus, hsettled⟩

end WalletBudget
