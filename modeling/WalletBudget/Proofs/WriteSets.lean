import WalletBudget.Proofs.Asking
import WalletBudget.Proofs.Course
import WalletBudget.Proofs.LedgerBalance

/-!
What each operation may change in the store, while nothing but the clock goes on besides it.

Cycles and payments are always written back as whole rows. What is shown here is that such a row
differs from the stored one in no field but those the operation is meant to change.
-/

namespace WalletBudget

open Service

variable {α : Type} {policy : HoldPolicy} {rule : World → Event → Prop} {steady final : Prop}
  {now : Instant} {b m s t u : Service} {k : Connection} {request : RequestId} {intent : Intent}
  {p q : Payment} {l : Limit} {e : Ending} {task : Task α} {w v : World} {past path : List World}
  {progress : Progress α}

/-- No other operation is called or goes on. The clock may be set to any time. -/
def World.Alone (_ : World) : Event → Prop
  | .clock _ => True
  | _ => False

instance (w : World) : (e : Event) → Decidable (w.Alone e)
  | .call _ => .isFalse id
  | .converted _ _ => .isFalse id
  | .executed _ _ => .isFalse id
  | .clock _ => .isTrue trivial

def Operation.movesMoney : Operation → Bool
  | .reserve _ _ _ => true
  | .finalizeSuccess _ _ => true
  | .finalizeFailure _ => true
  | .pay _ _ _ => true
  | _ => false

/-- No payment is touched, and no total of a cycle that there was. -/
structure Frozen (s t : Service) : Prop where
  payments : t.store.payments = s.store.payments
  totals : ∀ id c, s.store.cycle? id = some c →
    ∃ d, t.store.cycle? id = some d ∧ d.spent = c.spent ∧ d.held = c.held

/-- One payment is added, and its hold to the cycle that it names. A cycle that was opened for it
has nothing else in its totals. -/
structure Adds (p : Payment) (s t : Service) : Prop where
  connections : t.store.connections = s.store.connections
  limits : t.store.limits = s.store.limits
  unknown : s.store.payment? p.id = none
  payments : t.store.payments = s.store.payments ++ [p]
  cycles : ∀ id c, s.store.cycle? id = some c →
    t.store.cycle? id = some { c with held := c.held + p.holdOn id }
  opened : ∀ id c, t.store.cycle? id = some c → s.store.cycle? id = none →
    c.spent = 0 ∧ c.held = p.holdOn id

/-- The record of a payment is ended, and the totals of its cycle are written if it has one.
`p` is any record of the payment, and `q` the one that is written. -/
structure Completes (p q : Payment) (s t : Service) : Prop where
  connections : t.store.connections = s.store.connections
  limits : t.store.limits = s.store.limits
  starts : t.store.cycleStarts = s.store.cycleStarts
  record : ∃ stored, s.store.payment? p.id = some stored ∧
    q = { stored with status := q.status, settled := q.settled, updatedAt := q.updatedAt }
  payments : ∀ id, t.store.payment? id = if p.id = id then some q else s.store.payment? id
  others : ∀ id, p.cycle ≠ some id → t.store.cycle? id = s.store.cycle? id
  cycle : ∀ id, p.cycle = some id → ∃ c d, s.store.cycle? id = some c ∧
    t.store.cycle? id = some d ∧ d = { c with spent := d.spent, held := d.held }

/-- Cycles are opened, with nothing in their totals. Every row that there was is as it was. -/
structure Opens (s t : Service) : Prop where
  connections : t.store.connections = s.store.connections
  limits : t.store.limits = s.store.limits
  payments : t.store.payments = s.store.payments
  cycles : ∀ id c, s.store.cycle? id = some c → t.store.cycle? id = some c
  opened : ∀ id c, t.store.cycle? id = some c → s.store.cycle? id = none →
    c.spent = 0 ∧ c.held = 0

namespace Opens

theorem of_store (h : t.store = s.store) : Opens s t := by
  constructor
  · rw [h]
  · rw [h]
  · rw [h]
  · intro id c hc
    rw [h]
    exact hc
  · intro id c hc hnone
    rw [h, hnone] at hc
    cases hc

theorem trans (hst : Opens s t) (htu : Opens t u) : Opens s u where
  connections := htu.connections.trans hst.connections
  limits := htu.limits.trans hst.limits
  payments := htu.payments.trans hst.payments
  cycles id c hc := htu.cycles id c (hst.cycles id c hc)
  opened id c hc hnone := by
    cases ht : t.store.cycle? id with
    | none => exact htu.opened id c hc ht
    | some d =>
      obtain rfl : d = c := Option.some.inj ((htu.cycles id d ht).symm.trans hc)
      exact hst.opened id d ht hnone

theorem of_opening (hb : Coherent b) (h : Opening b m) (hm : m.FreshIds) : Opens b m where
  connections := h.connections
  limits := h.limits
  payments := h.payments
  cycles := h.cycles hb hm
  opened id c hc hnone := by
    rcases (h.writes.neutral hb hm).cycles id c hc with ⟨d, hd, -, -⟩ | ⟨-, hheld, hspent⟩
    · rw [hnone] at hd
      cases hd
    · exact ⟨hspent, hheld⟩

/-- The search for a cycle opens one at most, for whatever limit it is asked. -/
theorem of_found {r : Except Abort Cycle} (hs : Coherent s) (h : Found l now s r t)
    (ht : t.FreshIds) : Opens s t := by
  cases h with
  | opened c start _ _ hc =>
    obtain ⟨finish, hfresh⟩ := createCycle_fresh hc
    have hnew : s.store.cycle? c.id = none := hs.newCycle ht (by rw [hfresh]; rfl)
    refine ⟨rfl, rfl, rfl, ?_, ?_⟩
    · intro id d hd
      have hne : c.id ≠ id := Store.cycle?_ne hnew hd
      simpa [hne] using hd
    · intro id d hd hnone
      by_cases hid : c.id = id
      · obtain rfl : c = d := by simpa [hid] using hd
        rw [hfresh]
        exact ⟨rfl, rfl⟩
      · have hd : s.store.cycle? id = some d := by simpa [hid] using hd
        rw [hnone] at hd
        cases hd
  | latest => exact of_store rfl
  | taken => exact of_store rfl
  | lost => exact of_store rfl
  | noPeriod => exact of_store rfl
  | noCycle => exact of_store rfl

theorem frozen (h : Opens s t) : Frozen s t where
  payments := h.payments
  totals id c hc := ⟨c, h.cycles id c hc, rfl, rfl⟩

theorem adds (h : Opens s m) (hadds : Adds p m t) : Adds p s t where
  connections := hadds.connections.trans h.connections
  limits := hadds.limits.trans h.limits
  unknown := by
    have hnone := hadds.unknown
    rwa [Store.payment?, h.payments] at hnone
  payments := by rw [hadds.payments, h.payments]
  cycles id c hc := hadds.cycles id c (h.cycles id c hc)
  opened id c hc hnone := by
    cases hm : m.store.cycle? id with
    | none => exact hadds.opened id c hc hm
    | some d =>
      obtain ⟨hspent, hheld⟩ := h.opened id d hm hnone
      obtain rfl := Option.some.inj ((hadds.cycles id d hm).symm.trans hc)
      refine ⟨hspent, ?_⟩
      dsimp only
      rw [hheld, Int.zero_add]

end Opens

theorem Frozen.trans (hst : Frozen s t) (htu : Frozen t u) : Frozen s u where
  payments := htu.payments.trans hst.payments
  totals id c hc := by
    obtain ⟨d, hd, hspent, hheld⟩ := hst.totals id c hc
    obtain ⟨f, hf, hspent', hheld'⟩ := htu.totals id d hd
    exact ⟨f, hf, hspent'.trans hspent, hheld'.trans hheld⟩

namespace Service

/-- What is written without moving money leaves the totals of every cycle as they were. -/
theorem Writes.frozen (hs : Coherent s) (h : Writes final now s t) (ht : t.FreshIds)
    (hpayments : t.store.payments = s.store.payments) : Frozen s t where
  payments := hpayments
  totals id c hc := by
    obtain ⟨d, hd, -⟩ := (Writes.rows hs h ht).later.cycles id c hc
    refine ⟨d, hd, ?_⟩
    rcases (Writes.neutral hs h ht).cycles id d hd with ⟨c', hc', hheld, hspent⟩ | ⟨hnone, -⟩
    · obtain rfl : c = c' := Option.some.inj (hc.symm.trans hc')
      exact ⟨hspent, hheld⟩
    · rw [hc] at hnone
      cases hnone

theorem Ends.frozen {progress : Progress α} {post : Except Abort α → Service → Prop}
    {f : α → Reply} {hands rely : Service → Service → Prop} (h : Service.Ends now s progress post)
    (hpayments : ∀ r t, post r t → t.store.payments = s.store.payments) :
    (progress.bind fun a t => .done (.ok (f a)) t).Goes hands rely
      (fun b _ t => Coherent b → t.FreshIds → Frozen b t) s := by
  obtain ⟨r, t, rfl, -, -, hends⟩ := h
  have hdone : (Progress.done r t).Goes hands rely
      (fun b _ t => Coherent b → t.FreshIds → Frozen b t) s := by
    intro hs ht
    obtain ⟨hwrites, hpost⟩ := hends hs ht
    exact Writes.frozen hs hwrites ht (hpayments r t hpost)
  exact hdone.map

theorem Opening.frozen (h : Opening b t) (hb : Coherent b) (ht : t.FreshIds) : Frozen b t :=
  (Opens.of_opening hb h ht).frozen

/-- A payment that is filed under a new identifier, with its hold on a cycle. -/
theorem Placed.adds {c : Cycle} {hold : Int} (hs : Coherent s) (h : Placed policy s c p hold t)
    (ht : t.FreshIds) : Adds p s t := by
  have hnew : s.store.payment? p.id = none :=
    hs.newPayment (ht.before (by simp [h.written])) h.id
  constructor
  · rw [h.written]
    rfl
  · rw [h.written]
    rfl
  · exact hnew
  · rw [h.written]
    exact Table.put_new hnew
  · intro id d hd
    rw [h.cycle?, h.holdOn]
    by_cases hid : c.id = id
    · obtain rfl : c = d := Option.some.inj ((hid ▸ h.cycle).symm.trans hd)
      simp only [hid, if_true]
    · simp only [hid, if_false, Int.add_zero]
      exact hd
  · intro id d hd hnone
    have hne : c.id ≠ id := (Store.cycle?_ne hnone h.cycle).symm
    rw [h.cycle?, if_neg hne, hnone] at hd
    cases hd

theorem adds_unbudgeted (hs : Coherent s) (hid : p.id = ⟨s.next⟩) (hnone : p.cycle = none)
    (ht : s.issue.FreshIds) : Adds p s (s.issue.write (s.store.filePayment p)) := by
  have hnew : s.store.payment? p.id = none := hs.newPayment ht hid
  have hhold : ∀ id, p.holdOn id = 0 := fun id => Payment.holdOn_other (by simp [hnone])
  refine ⟨rfl, rfl, hnew, Table.put_new hnew, ?_, ?_⟩
  · intro id c hc
    rw [hhold, Int.add_zero]
    exact hc
  · intro id c hc hunknown
    have hc : s.store.cycle? id = some c := hc
    rw [hunknown] at hc
    cases hc

/-- A reservation that succeeds does all that it does in its last stretch, but for the opening of
cycles. -/
theorem Reserved.adds {P : Service → Prop} {called : Service} (hb : Coherent b)
    (h : Reserved policy P called k request intent b (.ok p) t) (ht : t.FreshIds) : Adds p b t := by
  cases h with
  | held _ _ _ c _ _ hold m _ _ _ _ hm hplaced =>
    have hmf : m.FreshIds := ht.before (by simp [hplaced.written])
    exact (Opens.of_opening hb hm hmf).adds (hplaced.adds (hm.coherent hb hmf) ht)
  | unbudgeted _ m _ _ _ _ hm hp =>
    have hmf : m.FreshIds := ht.before (by simp)
    refine (Opens.of_opening hb hm hmf).adds ?_
    exact adds_unbudgeted (hm.coherent hb hmf) (by rw [hp]; rfl) (by rw [hp]; rfl) ht

/-- The caller's record is only written where it is equal to the stored one. -/
theorem Finalized.completes (h : Finalized e p s (.ok q) t) : Completes p q s t := by
  cases h with
  | unbudgeted hp hpending hnone =>
    have hfields := Payment.fields_of_core (mark_follows e hpending s.clock).core
    refine ⟨rfl, rfl, rfl, ⟨p, hp, hfields⟩, ?_, fun _ _ => rfl, ?_⟩
    · intro id
      simp
    · intro id hid
      rw [hnone] at hid
      cases hid
  | budgeted c c' stored _ hp hpq hended =>
    subst hpq
    have hfields := Payment.fields_of_core (mark_follows e hended.pending s.clock).core
    refine ⟨?_, ?_, ?_, ⟨p, hp, hfields⟩, hended.payment?, ?_, ?_⟩
    · rw [hended.written]
      rfl
    · rw [hended.written]
      rfl
    · rw [hended.written]
      rfl
    · intro id hne
      have hother : c.id ≠ id := by
        rintro rfl
        exact hne hended.linked
      rw [hended.cycle?, if_neg hother]
    · intro id hid
      obtain rfl : c.id = id := Option.some.inj (hended.linked.symm.trans hid)
      refine ⟨c, c', hended.cycle, ?_, hended.moved.totals⟩
      rw [hended.cycle?, if_pos rfl]

end Service

/-- The stretches of a task open cycles at most, but for the last one, which leaves payments and
totals alone. -/
abbrev Progress.Freezes (s : Service) (progress : Progress α) : Prop :=
  progress.Goes Opening (Rely (Moment (Opens s)))
    (fun b _ t => Coherent b → t.FreshIds → Frozen b t) s

/-- Before the end of a call that is alone, cycles were opened at most. -/
theorem Course.opens {post : Service → Except Abort α → Service → Prop} (hw : w.Sound policy)
    (course : Course policy World.Alone task w path progress)
    (hgoes : (task w.service).Goes Opening (Rely (Moment (Opens w.service))) post w.service) :
    Stands policy (Opens w.service) Opening post path progress := by
  refine course.follows hw (.of_store rfl) (fun _ _ => Opening.works) ?_ ?_ hgoes
  · intro v s _ hv hf hopening hopens
    exact hopens.trans (.of_opening hv hopening hf)
  · intro v v' e _ _ hrule hstep _ hopens
    cases e with
    | clock time =>
      cases hstep
      exact hopens.trans (.of_store rfl)
    | call op => exact hrule.elim
    | converted n answer => exact hrule.elim
    | executed n answer => exact hrule.elim

theorem Course.frozen (hw : w.Sound policy)
    (course : Course policy World.Alone task w (v :: path) progress)
    (hgoes : (task w.service).Freezes w.service) : Frozen w.service v.service := by
  have hstands := course.opens hw hgoes
  cases progress with
  | done r s =>
    obtain ⟨u, before, hpath, hf, ⟨hcoherent, hopens⟩, hfrozen⟩ := hstands
    cases hpath
    exact hopens.frozen.trans (hfrozen hcoherent hf)
  | convert q s resume =>
    obtain ⟨u, before, hpath, -, hopens, -⟩ := hstands
    cases hpath
    exact hopens.frozen
  | execute q s resume =>
    obtain ⟨u, before, hpath, -, hopens, -⟩ := hstands
    cases hpath
    exact hopens.frozen

/-- A task that asks nothing is at its end when it is called. -/
theorem Course.atOnce {r : Except Abort α} (course : Course policy rule task w path progress)
    (hrun : task w.service = .done r t) :
    path = [{ w with service := t }, w] ∧ progress = .done r t := by
  induction course with
  | called hfresh =>
    rw [hrun]
    exact ⟨rfl, rfl⟩
  | meanwhile h hasks _ _ _ ih =>
    obtain ⟨-, rfl⟩ := ih
    cases hasks
  | converted answer h hfresh ih =>
    obtain ⟨-, he⟩ := ih
    cases he
  | executed answer h hfresh ih =>
    obtain ⟨-, he⟩ := ih
    cases he

/-- The operations that do not move money, stretch by stretch. -/
theorem World.Sound.freezes (hw : w.Sound policy) {op : Operation} (hop : op.movesMoney = false)
    (hadmits : w.admits op) :
    (op.task policy w.service).Freezes w.service := by
  have hs := hw.coherent
  have hreads : op.reads = true → (op.task policy w.service).Freezes w.service := by
    intro hreads
    obtain ⟨r, hrun⟩ : ∃ r, op.task policy w.service = .done r w.service :=
      Operation.reads_run hreads hs.quiet
    rw [hrun]
    exact (Opening.refl _).frozen
  cases op with
  | createConnection currency token limit now =>
    refine (createConnection_ends hs.quiet currency token limit now).frozen fun r t h => ?_
    exact (SetsLimits.connected currency token limit now r t h.1).payments
  | updateLimit id u now =>
    refine (updateLimit_ends hs.quiet id u now).frozen fun r t h => ?_
    rcases h with ⟨-, -, rfl⟩ | ⟨k, -, hupdated⟩
    · rfl
    · exact hupdated.payments
  | budgetView k =>
    have hview : (Service.budgetView k w.service).Freezes w.service :=
      (budgetView_goes (fun _ h => h.1) ⟨hs, .of_store rfl⟩ (hw.connections k hadmits)).imp
        fun _ _ _ h => h.opening.frozen
    exact hview.map
  | connection id => exact hreads rfl
  | limitHistory id => exact hreads rfl
  | payments id most => exact hreads rfl
  | currentCycle l now =>
    obtain ⟨r, t, hrun, hfound⟩ := Operation.currentCycle_run hs.quiet l now
    rw [hrun]
    exact fun _ ht => (Opens.of_found hs hfound ht).frozen
  | _ => cases hop

/-- Operations that do not move money, and the search for the cycle of any limit, leave all payments
and the totals of all cycles alone, at every moment up to their end. A reservation that succeeds
adds one payment and its hold. Ending a payment with any record of it that was handed out writes its
status, its cost and the time, and the two totals of its cycle, whatever has become of that cycle
and its limit. -/
theorem write_sets (run : Run policy rule (w :: past)) :
    (∀ op v before progress, op.movesMoney = false → w.admits op →
      Course policy World.Alone (op.task policy) w (v :: before) progress →
        Frozen w.service v.service) ∧
    (∀ l now v before progress,
      Course policy World.Alone (currentCycle l now) w (v :: before) progress →
        Frozen w.service v.service) ∧
    (∀ k ∈ w.connections, ∀ request intent path p s,
      Course policy World.Alone (reserve policy k request intent) w path (.done (.ok p) s) →
        Adds p w.service s) ∧
    ∀ p ∈ w.payments, ∀ e path q s,
      Course policy World.Alone (finish e p) w path (.done (.ok q) s) →
        Completes p q w.service s := by
  have hw := run.sound
  have hs := hw.coherent
  refine ⟨?_, ?_, ?_, ?_⟩
  · intro op v before progress hop hadmits course
    exact course.frozen hw (hw.freezes hop hadmits)
  · intro l now v before progress course
    refine course.frozen hw ?_
    obtain ⟨r, t, hrun, hfound⟩ := currentCycle_found hs.quiet l now
    rw [hrun]
    intro _ ht
    exact (Opens.of_found hs hfound ht).frozen
  · intro k hk request intent path p s course
    have hgoes : (reserve policy k request intent w.service).Goes Opening
        (Rely (Moment (Opens w.service)))
        (Reserved policy (Moment (Opens w.service)) w.service k request intent) w.service :=
      reserve_goes (fun _ h => h.1) ⟨hs, .of_store rfl⟩ (hw.connections k hk)
    obtain ⟨v, before, -, hf, ⟨hcoherent, hopens⟩, hreserved⟩ := course.opens hw hgoes
    exact hopens.adds (hreserved.adds hcoherent hf)
  · intro p hp e path q s course
    obtain ⟨r, t, hrun, hfinal⟩ := finish_runs hs (hw.payments p hp) e
    obtain ⟨-, he⟩ := course.atOnce hrun
    cases he
    exact hfinal.completes

/-- A payment of 30 sats comes to cost 40 when its cycle was ended with the limit, and a new limit
of 50 has a cycle of its own. The record is the one from the reservation. -/
theorem write_sets_ended_cycle :
    ∃ w past path q s c, Run .exact World.Steady (w :: past) ∧
      Course .exact World.Alone (finish (.success 40) (Sample.payment 30)) w path
        (.done (.ok q) s) ∧
      w.service.store.cycle? c.id = some c ∧ c.hasEnded w.service.clock = true ∧
      (w.service.store.limitOf? Sample.connection.id).map (·.amount) = some 50 ∧
      s.store.cycle? c.id = some { c with spent := 40, held := 0 } ∧
      ∀ id, c.id ≠ id → s.store.cycle? id = w.service.store.cycle? id := by
  obtain ⟨w, past, path, q, s, run, course, hf⟩ := Course.reachesBy .exact World.Steady World.Alone
    ⟨Sample.start, rfl⟩ Uuid.ofNat
    [ Sample.created,
      .call (.reserve Sample.connection Sample.request (Sample.intent .sat 30)),
      .call (.updateLimit Sample.connection.id .disable Sample.start),
      .clock ⟨Sample.secondDay, rfl⟩,
      .call (.updateLimit Sample.connection.id ⟨true, some 50, none, some .daily⟩
        Sample.secondDay) ]
    (finish (.success 40) (Sample.payment 30)) []
    (fun w _ _ _ s => (decide (Sample.payment 30 ∈ w.payments),
      (w.service.store.limitOf? Sample.connection.id).map (·.amount),
      (w.service.store.cycle? ⟨Uuid.ofNat 2⟩).map (·.hasEnded w.service.clock),
      (s.store.cycle? ⟨Uuid.ofNat 2⟩).map fun d => (d.spent, d.held)))
    (true, some 50, some true, some (40, 0)) (by decide +kernel)
  simp only [Prod.mk.injEq, decide_eq_true_eq] at hf
  obtain ⟨hp, hlimit, hended, htotals⟩ := hf
  obtain ⟨c, hc, hended⟩ := Option.map_eq_some_iff.mp hended
  obtain ⟨-, -, -, hfinish⟩ := write_sets run
  have hcompletes := hfinish (Sample.payment 30) hp (.success 40) path q s course
  have hid : c.id = ⟨Uuid.ofNat 2⟩ := Store.cycle?_id hc
  obtain ⟨c', d, hc', hd, hfields⟩ := hcompletes.cycle ⟨Uuid.ofNat 2⟩ rfl
  obtain rfl : c = c' := Option.some.inj (hc.symm.trans hc')
  obtain ⟨hspent, hheld⟩ : d.spent = 40 ∧ d.held = 0 := by simpa [hd] using htotals
  rw [hspent, hheld] at hfields
  refine ⟨w, past, path, q, s, c, run, course, hid ▸ hc, hended, hlimit, ?_, ?_⟩
  · exact (congrArg s.store.cycle? hid).trans (hd.trans (congrArg some hfields))
  · intro id hne
    refine hcompletes.others id fun hlinked => hne ?_
    rw [hid]
    exact Option.some.inj hlinked

end WalletBudget
