import WalletBudget.Proofs.Asking
import WalletBudget.Proofs.CycleTimes
import WalletBudget.Proofs.HoldPolicy

/-!
Payments as they are recorded, in runs whose clock never goes back.

A payment with a budget is created at the time its attempt began, which may be long before it is
recorded. The cycle had been found by then, and is still running when the hold is placed.
-/

namespace WalletBudget

open Service

variable {policy : HoldPolicy} {b m s t u : Service} {k : Connection} {request : RequestId}
  {intent : Intent} {p : Payment} {c : Cycle} {l : Limit} {w w' : World} {e : Event}

namespace Service

structure Since (b t : Service) : Prop where
  clock : b.clock ≤ t.clock
  coherent : Coherent t
  timely : Timely t

/-- What others keep while a task waits. -/
def Onward (s t : Service) : Prop := Rely (Since s) s t

theorem Onward.refl (hs : Coherent s) (h : Timely s) : Onward s s :=
  ⟨.refl s, Instant.le_refl _, hs, h⟩

theorem Onward.trans (hst : Onward s t) (htu : Onward t u) : Onward s u :=
  ⟨hst.1.trans htu.1, Instant.le_trans hst.2.clock htu.2.clock, htu.2.coherent, htu.2.timely⟩

theorem Onward.since (h : Onward s t) (hle : u.clock ≤ s.clock) : Rely (Since u) s t :=
  ⟨h.1, Instant.le_trans hle h.2.clock, h.2.coherent, h.2.timely⟩

end Service

/-- A task that relies on all moments being later than its first one. -/
theorem Progress.Goes.onward {α : Type} {post : Service → Except Abort α → Service → Prop}
    {p : Progress α} (h : p.Goes Opening (Rely (Since u)) post b) (hle : u.clock ≤ b.clock) :
    p.Goes Opening Onward post b := by
  induction p generalizing b with
  | done r s => exact h
  | convert q s resume ih =>
    refine ⟨h.1, fun answer t ht => ?_⟩
    have hsince := ht.since (h.1.clock.symm ▸ hle)
    exact ih answer t (h.2 answer t hsince) hsince.2.clock
  | execute q s resume ih =>
    refine ⟨h.1, fun answer t ht => ?_⟩
    have hsince := ht.since (h.1.clock.symm ▸ hle)
    exact ih answer t (h.2 answer t hsince) hsince.2.clock

/-- A payment with a share in a cycle, which was running when the payment was created. -/
structure Payment.Linked (s : Service) (p : Payment) (c : Cycle) : Prop where
  cycle : s.store.cycle? c.id = some c
  link : p.cycle = some c.id
  owner : ∃ l, s.store.limit? c.limit = some l ∧ l.connection = p.connection
  currency : p.budgetCurrency = some c.currency
  priced : ∃ estimate hold, p.estimate = some estimate ∧ p.hold = some hold ∧ 0 ≤ estimate ∧
    estimate ≤ hold
  begun : c.start ≤ p.createdAt
  running : ∀ finish, c.finish = some finish → p.createdAt ≤ finish

/-- What is true of a payment ever since it was recorded. -/
structure Payment.Recorded (s : Service) (p : Payment) : Prop where
  created : p.createdAt ≤ s.clock
  linked : ∀ id, p.cycle = some id → ∃ c, p.Linked s c
  unlinked : p.cycle = none → p.budgetCurrency = none ∧ p.estimate = none ∧ p.hold = none

namespace Service

/-- Every payment that a stretch was the first to record. -/
def Records (b s : Service) : Prop :=
  s.FreshIds → ∀ id p, s.store.payment? id = some p → b.store.payment? id = none → p.Recorded s

theorem Records.of_ids (h : ∀ id p, s.store.payment? id = some p →
    ∃ q, b.store.payment? id = some q) : Records b s := by
  intro _ id p hp hnone
  obtain ⟨q, hq⟩ := h id p hp
  rw [hq] at hnone
  cases hnone

theorem Records.of_payments (h : s.store.payments = b.store.payments) : Records b s :=
  .of_ids fun id p hp => ⟨p, by rwa [Store.payment?, ← h]⟩

theorem Opening.payment? (h : Opening b m) (id : PaymentId) :
    m.store.payment? id = b.store.payment? id := by
  simp only [Store.payment?, h.payments]

theorem Opening.records (h : Opening b m) : Records b m := .of_payments h.payments

/-- A payment that is held on a cycle was created while the cycle was running: it began before the
attempt did, since it was found then, and it had not ended when the hold was placed. -/
theorem Placed.linkedIn {estimate hold : Int} (hvalid : policy.validate = .ok ())
    (hu : Coherent u) (htimely : Timely u) (hb : Since u b) (hm : Opening b m)
    (h : Placed policy m c p hold t) (hf : t.FreshIds) (hc : Sought u l m c)
    (hp : p = (Payment.pending p.id request k.id intent u.clock).reserved c.id c.currency
      estimate hold) : p.Linked t { c with held := c.held + hold } := by
  obtain ⟨v, d, hv, hvf, hd, hdc, -⟩ := hc.found
  have hstart : d.start ≤ u.clock := by
    rw [← hv.clock]
    exact (htimely.writes hu hv.writes hvf).start_le (hv.coherent hu hvf) hd
  obtain ⟨estimate', hestimate, hhold, hnonneg⟩ := h.priced
  have hcreated : p.createdAt = u.clock := by rw [hp]; rfl
  constructor
  · simp [h.written]
  · exact h.linked
  · rw [h.moved.limits]
    exact h.owner hf
  · exact h.currency
  · exact ⟨estimate', hold, hestimate, h.held, hnonneg,
      policy.estimate_le_hold hvalid hnonneg hhold⟩
  · rw [hcreated, hdc.start]
    exact hstart
  · intro finish hfinish
    rw [hcreated]
    refine Instant.le_trans hb.clock (Instant.le_of_lt (Instant.not_le.mp fun hle => ?_))
    have hended : c.hasEnded m.clock = true :=
      Cycle.hasEnded_iff.mpr ⟨finish, hfinish, hm.clock ▸ hle⟩
    rw [h.live] at hended
    cases hended

theorem Tried.records (hvalid : policy.validate = .ok ()) (hu : Coherent u) (htimely : Timely u)
    {r : Except Abort (Option Payment)}
    (h : Tried policy (Since u) k request intent u b r t) : Records b t := by
  cases h with
  | held l c p estimate hold m _ hb hl hm hplaced hc hp =>
    intro hf id q hq hnone
    rw [hplaced.payment?] at hq
    split at hq
    · obtain rfl : p = q := Option.some.inj hq
      have hcreated : p.createdAt = u.clock := by rw [hp]; rfl
      have hclock : t.clock = b.clock := by rw [hplaced.written]; exact hm.clock
      have hlinked := hplaced.linkedIn hvalid hu htimely hb hm hf (hc hf) hp
      constructor
      · rw [hcreated, hclock]
        exact hb.clock
      · exact fun _ _ => ⟨_, hlinked⟩
      · intro hunlinked
        rw [hplaced.linked] at hunlinked
        cases hunlinked
    · rw [hm.payment?, hnone] at hq
      cases hq
  | unbudgeted m p hb hu hnone hm hp =>
    intro hf id q hq hnew
    by_cases hid : p.id = id
    · obtain rfl : p = q := by simpa [hid] using hq
      constructor
      · have hcreated : p.createdAt = b.clock := by rw [hp]; rfl
        rw [hcreated, ← hm.clock]
        exact Instant.le_refl _
      · intro id hlinked
        rw [hp] at hlinked
        cases hlinked
      · intro _
        rw [hp]
        exact ⟨rfl, rfl, rfl⟩
    · have hstored : m.store.payment? id = some q := by simpa [hid] using hq
      rw [hm.payment?, hnew] at hstored
      cases hstored
  | ended _ _ _ _ hm => exact hm.records
  | short _ _ _ _ _ _ _ hm => exact hm.records
  | failed _ _ hm => exact hm.records

theorem Tried.filed {r : Except Abort (Option Payment)} {P : Service → Prop}
    (h : Tried policy P k request intent u b r t) (hr : r = .ok (some p)) : Filed t p := by
  cases h with
  | held _ _ _ _ _ m _ _ _ _ hplaced =>
    obtain rfl := Option.some.inj (Except.ok.inj hr)
    exact ⟨_, by simp [hplaced.written], .inl hplaced.core⟩
  | unbudgeted m q _ _ _ _ hp =>
    obtain rfl : q = p := Option.some.inj (Except.ok.inj hr)
    exact ⟨q, by simp, .inl (by rw [hp]; rfl)⟩
  | ended => cases hr
  | short => cases hr
  | failed => cases hr

/-- A reservation records at most one payment, whichever attempt it is of. -/
theorem reserveWithin_records (hvalid : policy.validate = .ok ()) (n : Nat) (hb : Coherent b)
    (htimely : Timely b) (hk : Known b k) (hs : Opening b s) :
    (reserveWithin policy request intent n k s).Goes Opening Onward
      (fun b r t => Records b t ∧ ∀ p, r = .ok p → Filed t p) b := by
  induction n generalizing b s k with
  | zero => exact ⟨hs.records, by simp⟩
  | succ n ih =>
    have hattempt : (tryReserve policy k request intent s).Goes Opening Onward
        (Tried policy (Since b) k request intent b) b :=
      (tryReserve_goes (fun _ h => h.coherent) ⟨Instant.le_refl _, hb, htimely⟩ hk hs).onward
        (Instant.le_refl _)
    simp only [reserveWithin, Task.bind_run]
    refine Progress.Goes.bind (hattempt.imp ?_)
    intro b' r t h
    have hrecords := h.records hvalid hb htimely
    cases r with
    | error a => exact ⟨hrecords, by simp⟩
    | ok answer =>
      cases answer with
      | some p =>
        refine ⟨hrecords, fun q hq => ?_⟩
        obtain rfl := Except.ok.inj hq
        exact h.filed rfl
      | none =>
        cases h with
        | ended l _ hsince hl hm =>
          have hq : t.outages = [] := hm.quiet.trans hsince.coherent.quiet
          simp only [Task.bind_run, connection_run hq, hm.connection?]
          cases hstored : b'.store.connection? k.id with
          | none => exact ⟨hrecords, by simp⟩
          | some stored =>
            exact ih hsince.coherent hsince.timely (hsince.coherent.known hstored) hm

/-- An end is written into a record that is there. -/
theorem Finalized.records {r : Except Abort Payment} {e : Ending} (h : Finalized e p s r t) :
    Records s t := by
  refine .of_ids fun id q hq => ?_
  cases h with
  | unbudgeted hp =>
    by_cases hid : p.id = id
    · exact ⟨p, hid ▸ hp⟩
    · exact ⟨q, by simpa [hid] using hq⟩
  | budgeted c c' stored _ _ _ hended =>
    rw [hended.payment?] at hq
    split at hq
    · rename_i hid
      exact ⟨stored, hid ▸ hended.payment⟩
    · exact ⟨q, hq⟩
  | invalid => exact ⟨q, hq⟩
  | final => exact ⟨q, hq⟩
  | broken => exact ⟨q, hq⟩

end Service

/-- A task in each of whose stretches payments are recorded as they have to be. -/
abbrev Progress.GoesRecording {α : Type} (b : Service) (p : Progress α) : Prop :=
  p.Goes Records Onward (fun b _ t => Records b t) b

theorem Service.reserve_records (hvalid : policy.validate = .ok ()) (hs : Coherent s)
    (htimely : Timely s) (hk : Known s k) :
    (reserve policy k request intent s).Goes Records Onward
      (fun b r t => Records b t ∧ ∀ p, r = .ok p → Filed t p) s :=
  (reserveWithin_records hvalid attempts hs htimely hk (.refl s)).weaken
    fun _ _ => Opening.records

theorem Service.finish_records {e : Ending} (hs : Coherent s) (hp : Filed s p) :
    (finish e p s).GoesRecording s := by
  obtain ⟨r, t, hrun, hfinal⟩ := finish_runs hs hp e
  rw [hrun]
  exact hfinal.records

/-- Behind the question to the executor the flow only ends the payment that it has reserved. -/
theorem Service.pay_records (hvalid : policy.validate = .ok ()) (hs : Coherent s)
    (htimely : Timely s) (hk : Known s k) (id : RequestId) (request : PaymentRequest) :
    (pay policy k id request s).GoesRecording s := by
  simp only [pay_eq, Task.bind_run]
  cases hintent : request.intent with
  | error e => exact .of_payments rfl
  | ok intent =>
    simp only [Task.valid_ok, Progress.bind_ok]
    refine .bind ((reserve_records hvalid hs htimely hk).imp ?_)
    rintro b r t ⟨hrecords, hfiled⟩
    cases r with
    | error a => exact hrecords
    | ok p =>
      refine ⟨hrecords, fun answer u hu => ?_⟩
      have hfinish := finish_records (e := .ofAnswer p answer) hu.2.coherent
        ((hfiled p rfl).later hu.1)
      simp only [Progress.bind_ok, concluded, Task.bind_run]
      refine .bind (hfinish.imp fun b r t hr => ?_)
      cases r with
      | error a => exact hr
      | ok q => cases answer <;> exact hr

namespace World

theorem Sound.records (hw : w.Sound policy) (htimely : Timely w.service)
    (hvalid : policy.validate = .ok ()) {op : Operation} (hop : w.admits op) :
    (op.task policy w.service).GoesRecording w.service := by
  have hs := hw.coherent
  have hsets : op.setsLimits = true → (op.task policy w.service).GoesRecording w.service := by
    intro hsets
    obtain ⟨r, t, hrun, hends⟩ : ∃ r t, op.task policy w.service = .done r t ∧
        (t.FreshIds → SetsLimits w.service op t) := Operation.setsLimits_run hsets hs
    rw [hrun]
    intro hf
    exact Records.of_payments (hends hf).payments hf
  have hreads : op.reads = true → (op.task policy w.service).GoesRecording w.service := by
    intro hreads
    obtain ⟨r, hrun⟩ : ∃ r, op.task policy w.service = .done r w.service :=
      Operation.reads_run hreads hs.quiet
    rw [hrun]
    exact .of_payments rfl
  cases op with
  | createConnection currency token limit now => exact hsets rfl
  | updateLimit id u now => exact hsets rfl
  | connection id => exact hreads rfl
  | reserve k request intent =>
    have hreserve : (Service.reserve policy k request intent w.service).GoesRecording w.service :=
      (reserve_records hvalid hs htimely (hw.connections k hop)).imp fun _ _ _ h => h.1
    exact hreserve.map
  | finalizeSuccess p settled =>
    exact (finish_records (e := .success settled) hs (hw.payments p hop)).map
  | finalizeFailure p => exact (finish_records (e := .failure) hs (hw.payments p hop)).map
  | pay k id request =>
    exact (pay_records hvalid hs htimely (hw.connections k hop) id request).map
  | budgetView k =>
    have hopening := (budgetView_goes (fun _ h => h.coherent) (P := Since w.service)
      ⟨Instant.le_refl _, hs, htimely⟩ (hw.connections k hop)).onward (Instant.le_refl _)
    have hview : (Service.budgetView k w.service).GoesRecording w.service :=
      (hopening.weaken fun _ _ => Opening.records).imp fun _ _ _ h => h.opening.records
    exact hview.map
  | limitHistory id => exact hreads rfl
  | payments id most => exact hreads rfl
  | currentCycle l now =>
    obtain ⟨r, t, hrun, hfound⟩ := Operation.currentCycle_run hs.quiet l now
    rw [hrun]
    exact .of_payments hfound.payments

/-- The operations that wait record payments as they have to be, in each stretch that is still
before them. -/
def Recording (w : World) : Prop :=
  ∀ p ∈ w.waiting, p.Ready Records Onward (fun b _ t => Records b t) w.service

theorem Recording.take (h : w.Recording) {p : Progress Reply} (hp : p.GoesRecording w.service)
    (honward : Onward w.service p.service) :
    (w.take p).Recording ∧ Records w.service p.service := by
  have hnext : ∀ q ∈ w.waiting, q.Ready Records Onward (fun b _ t => Records b t) p.service :=
    fun q hq => (h q hq).imp fun _ hu => honward.trans hu
  cases p with
  | done r s =>
    refine ⟨?_, hp⟩
    cases r <;> exact hnext
  | convert q s resume => exact ⟨List.forall_mem_cons.mpr ⟨hp.ready, hnext⟩, hp.1⟩
  | execute q s resume => exact ⟨List.forall_mem_cons.mpr ⟨hp.ready, hnext⟩, hp.1⟩

/-- In every event payments are recorded as they have to be. -/
theorem Recording.step (hw : w.Sound policy) (htimely : Timely w.service)
    (hvalid : policy.validate = .ok ()) (h : w.Recording) (hstep : w.step policy e = some w')
    (honward : Onward w.service w'.service) :
    w'.Recording ∧ Records w.service w'.service := by
  have htake : ∀ {v : World} {p : Progress Reply}, v.Recording → v.service = w.service →
      p.GoesRecording w.service → v.take p = w' →
        w'.Recording ∧ Records w.service w'.service := by
    rintro v p hv hservice hp rfl
    rw [take_service] at honward ⊢
    have hnext := hv.take (p := p) (hservice ▸ hp) (hservice ▸ honward)
    rwa [hservice] at hnext
  have hhere := Onward.refl hw.coherent htimely
  cases step_cases hstep with
  | called op hop => exact htake h rfl (hw.records htimely hvalid hop) rfl
  | converted n answer q s resume hn =>
    refine htake (v := w.answered n) (fun p hp => h p (List.mem_of_mem_eraseIdx hp)) rfl ?_ rfl
    exact h _ (List.mem_of_getElem? hn) answer w.service hhere
  | executed n answer q s resume hn =>
    refine htake (v := w.answered n) (fun p hp => h p (List.mem_of_mem_eraseIdx hp)) rfl ?_ rfl
    exact h _ (List.mem_of_getElem? hn) answer w.service hhere
  | clock now =>
    refine ⟨fun p hp => (h p hp).imp fun _ hu => honward.trans hu, .of_payments rfl⟩

end World

end WalletBudget
