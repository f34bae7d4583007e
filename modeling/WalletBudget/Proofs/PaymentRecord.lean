import WalletBudget.Proofs.Recording

/-!
The records of payments, and the cycles and limits they refer to, in runs whose clock never goes
back.

A record never changes its share in a budget. Its cycle may be ended early, but not before the
payment was created, since a limit is ended at the time of the clock.
-/

namespace WalletBudget

open Service

variable {policy : HoldPolicy} {rule : World → Event → Prop} {final : Prop} {now time : Instant}
  {s t : Service} {p q : Payment} {c d : Cycle} {w : World} {path : List World}

/-- A payment has a cost if it succeeded, and none otherwise. -/
def Payment.Settled (p : Payment) : Prop :=
  match p.status with
  | .succeeded => ∃ settled, p.settled = some settled ∧ 0 ≤ settled
  | _ => p.settled = none

theorem Payment.settled_of_core (h : p = p.core) : p.Settled := by
  rw [h]
  rfl

theorem Payment.settled_mark {e : Ending} (h : p.Settled) (hpending : p.status = .pending)
    (hcost : ∀ settled, e = .success settled → 0 ≤ settled) : (e.mark p now).Settled := by
  cases e with
  | success settled => exact ⟨settled, rfl, hcost settled rfl⟩
  | failure =>
    simp only [Payment.Settled, hpending] at h
    exact h

/-- Ended early, a cycle does not end before any time up to now. -/
theorem Cycle.le_endAt (h : ∀ finish, c.finish = some finish → time ≤ finish) (hle : time ≤ now) :
    ∀ finish, (c.endAt now).finish = some finish → time ≤ finish := by
  intro finish hfinish
  rcases c.endAt_cases now with hsame | ⟨hstop, -⟩
  · exact h finish (hsame ▸ hfinish)
  · obtain rfl := Option.some.inj (hstop.symm.trans hfinish)
    exact Instant.le_trans hle (Instant.later_le_iff.mp (Instant.le_refl _)).1

namespace Service

def Costed (s : Service) : Prop := ∀ id p, s.store.payment? id = some p → p.Settled

namespace Costed

theorem filePayment (h : Costed s) (hp : p.Settled)
    (ht : ∀ id, t.store.payment? id = if p.id = id then some p else s.store.payment? id) :
    Costed t := by
  intro id q hq
  rw [ht] at hq
  split at hq
  · obtain rfl := Option.some.inj hq
    exact hp
  · exact h id q hq

theorem changed {steady : Prop} (hs : Coherent s) (h : Costed s)
    (hst : Changed policy steady s t) (ht : t.FreshIds) : Costed t := by
  cases hst with
  | clock time _ htick =>
    subst htick
    exact h
  | work time _ hst =>
    refine hst.keeps hs ht h ?_ ?_ ?_
    · intro a b _ hw _ h
      cases hw with
      | record p _ _ _ hcore =>
        exact h.filePayment (Payment.settled_of_core hcore) fun id => by simp
      | complete e p hp hpending _ hcost =>
        exact h.filePayment (p := e.mark p time)
          (Payment.settled_mark (h p.id p hp) hpending hcost) fun id => by simp
      | _ => exact h
    · intro m c p hold _ hp h
      exact h.filePayment (Payment.settled_of_core hp.core) hp.payment?
    · intro m e c p c' _ hp h
      exact h.filePayment (p := e.mark p time)
        (Payment.settled_mark (h p.id p hp.payment) hp.pending hp.cost)
        fun id => by simpa using hp.payment? id

end Costed

/-- A cycle that is there and does not end before a time. -/
def Lasts (s : Service) (id : CycleId) (time : Instant) : Prop :=
  ∃ c, s.store.cycle? id = some c ∧ ∀ finish, c.finish = some finish → time ≤ finish

namespace Lasts

variable {id : CycleId}

/-- A stored cycle may be written again if that does not end it before the time. -/
theorem rewrite (h : s.Lasts id time) (hc : s.store.cycle? d.id = some c)
    (hd : (∀ finish, c.finish = some finish → time ≤ finish) →
      ∀ finish, d.finish = some finish → time ≤ finish)
    (ht : ∀ id, t.store.cycle? id = if d.id = id then some d else s.store.cycle? id) :
    t.Lasts id time := by
  obtain ⟨e, he, hlasts⟩ := h
  by_cases hid : d.id = id
  · obtain rfl : c = e := Option.some.inj (hc.symm.trans (hid ▸ he))
    exact ⟨d, by simp [ht, hid], hd hlasts⟩
  · exact ⟨e, by simp [ht, hid, he], hlasts⟩

theorem write (hs : Coherent s) (hw : Write final s.clock s t) (ht : t.FreshIds)
    (hle : time ≤ s.clock) (h : s.Lasts id time) : t.Lasts id time := by
  cases hw with
  | repriceLive l c amount _ _ _ hc =>
    exact h.rewrite (d := { c with limitAmount := amount }) (hs.latest hc).1
      (fun hlasts => hlasts) fun id => by simp
  | close l c _ _ hc =>
    refine h.rewrite (d := c.endAt s.clock) (c := c) ?_ (fun hlasts => Cycle.le_endAt hlasts hle)
      fun id => by simp
    simpa using (hs.latest hc).1
  | opened l c start _ _ _ _ hc =>
    obtain ⟨finish, hfresh⟩ := createCycle_fresh hc
    have hnew : s.store.cycle? c.id = none := hs.newCycle ht (by rw [hfresh]; rfl)
    obtain ⟨d, hd, hlasts⟩ := h
    have hne : c.id ≠ id := Store.cycle?_ne hnew hd
    exact ⟨d, by simpa [hne] using hd, hlasts⟩
  | _ => exact h

theorem stretch (hs : Coherent s) (hst : Stretch policy final s.clock s t) (ht : t.FreshIds)
    (hle : time ≤ s.clock) (h : s.Lasts id time) : t.clock = s.clock ∧ t.Lasts id time := by
  refine hst.keepsMoved (I := fun u => u.clock = s.clock ∧ u.Lasts id time) hs ht ⟨rfl, h⟩ ?_ ?_
  · rintro a b ha hw hb ⟨hclock, h⟩
    exact ⟨hw.clock.trans hclock, h.write ha (hclock ▸ hw) hb (hclock ▸ hle)⟩
  · rintro m c d hm ⟨hclock, h⟩
    have hid : d.id = c.id := by rw [hm.totals]
    refine ⟨hm.clock.trans hclock, h.rewrite (hid ▸ hm.stored) ?_ fun id => ?_⟩
    · rw [show d.finish = c.finish by rw [hm.totals]]
      exact fun hlasts => hlasts
    · rw [hid, hm.cycles]

end Lasts

end Service

theorem Changed.clock_le (hs : Coherent s) (hst : Changed policy True s t) (ht : t.FreshIds) :
    s.clock ≤ t.clock := by
  cases hst with
  | clock time hsteady htick =>
    subst htick
    exact hsteady trivial
  | work time _ hst =>
    have hclock : t.clock = s.clock := by
      refine hst.keepsMoved (I := fun u => u.clock = s.clock) hs ht rfl ?_ ?_
      · intro a b _ hw _ hclock
        exact hw.clock.trans hclock
      · intro m c d hm hclock
        exact hm.clock.trans hclock
    rw [hclock]
    exact Instant.le_refl _

theorem Changed.lasts {id : CycleId} (hs : Coherent s) (hst : Changed policy True s t)
    (ht : t.FreshIds) (hle : time ≤ s.clock) (h : s.Lasts id time) : t.Lasts id time := by
  cases hst with
  | clock now _ htick =>
    subst htick
    exact h
  | work now hsteady hst =>
    obtain rfl := hsteady trivial
    exact (h.stretch hs hst ht hle).2

namespace Payment.Recorded

/-- What was true of a payment when it was recorded stays true. -/
theorem changed (hs : Coherent s) (h : p.Recorded s) (hst : Changed policy True s t)
    (ht : t.FreshIds) : p.Recorded t where
  created := Instant.le_trans h.created (hst.clock_le hs ht)
  unlinked := h.unlinked
  linked id hid := by
    obtain ⟨c, hlinked⟩ := h.linked id hid
    obtain ⟨l, hl, howner⟩ := hlinked.owner
    have hlater := hst.later hs ht
    obtain ⟨c', hc', hfollows⟩ := hlater.cycles c.id c hlinked.cycle
    obtain ⟨l', hl', hfollows'⟩ := hlater.limits c.limit l hl
    obtain ⟨d, hd, hlasts⟩ := hst.lasts hs ht h.created ⟨c, hlinked.cycle, hlinked.running⟩
    obtain rfl : c' = d := Option.some.inj (hc'.symm.trans hd)
    have hsame : c'.id = c.id := Store.cycle?_id hc'
    refine ⟨c', ?_, ?_, ?_, ?_, hlinked.priced, ?_, hlasts⟩
    · exact hsame ▸ hc'
    · exact hsame ▸ hlinked.link
    · exact ⟨l', hfollows.limit ▸ hl', hfollows'.connection.trans howner⟩
    · rw [hfollows.currency]
      exact hlinked.currency
    · rw [hfollows.start]
      exact hlinked.begun

/-- It is true of every later record of the payment. -/
theorem congr (h : p.Recorded s) (hcore : q.core = p.core) : q.Recorded s := by
  rw [Payment.fields_of_core hcore]
  constructor
  · exact h.created
  · intro id hid
    obtain ⟨c, hlinked⟩ := h.linked id hid
    exact ⟨c, hlinked.cycle, hlinked.link, hlinked.owner, hlinked.currency, hlinked.priced,
      hlinked.begun, hlinked.running⟩
  · exact h.unlinked

end Payment.Recorded

theorem reachable_costed (run : Run policy rule (w :: path)) : Costed w.service :=
  run.holds False (fun _ _ _ h => h.elim) (by intro _ _ _ _ _ h; cases h)
    fun _ _ hs ht hst h => h.changed hs hst ht

/-- All payments are recorded as they have to be, and those that operations are about to record
will be. -/
theorem reachable_recorded (hvalid : policy.validate = .ok ())
    (run : Run policy World.Steady (w :: path)) :
    w.Recording ∧ ∀ id p, w.service.store.payment? id = some p → p.Recorded w.service := by
  induction run using Run.lastInduction with
  | start clock ids scan =>
    constructor
    · intro p hp
      cases hp
    · intro id p hp
      cases hp
  | @step w w' path e run hrule hstep hfresh ih =>
    obtain ⟨hrecording, hrecorded⟩ := ih
    have hs := run.sound.coherent
    have htimely := reachable_timely run
    have htimely' := reachable_timely (run.step hrule hstep hfresh)
    obtain ⟨hsound, hchanged⟩ := run.sound.step hstep hfresh
    have hchanged : Changed policy True w.service w'.service := hchanged.imp fun _ => hrule
    have honward : Onward w.service w'.service :=
      ⟨hchanged.later hs hfresh, hchanged.clock_le hs hfresh, hsound.coherent, htimely'⟩
    obtain ⟨hrecording', hrecords⟩ := hrecording.step run.sound htimely hvalid hstep honward
    refine ⟨hrecording', fun id p hp => ?_⟩
    cases hold : w.service.store.payment? id with
    | none => exact hrecords hfresh id p hp hold
    | some q =>
      obtain ⟨p', hp', hfollows⟩ := honward.1.payments id q hold
      obtain rfl : p = p' := Option.some.inj (hp.symm.trans hp')
      exact ((hrecorded id q hold).changed hs hchanged hfresh).congr hfollows.core

/-- A payment with a cycle refers to one that is stored, of a limit of its own connection, with the
currency it is priced in; it was created while that cycle was running, and holds no less than its
estimate. A payment without a cycle has no share in a budget. A payment has a cost if and only if it
succeeded. -/
theorem payment_record_sound (hvalid : policy.validate = .ok ())
    (run : Run policy World.Steady (w :: path)) :
    ∀ p ∈ w.service.store.payments,
      (match p.cycle with
      | some id => ∃ c l estimate hold, w.service.store.cycle? id = some c ∧
        w.service.store.limit? c.limit = some l ∧ l.connection = p.connection ∧
        p.budgetCurrency = some c.currency ∧ p.estimate = some estimate ∧ p.hold = some hold ∧
        0 ≤ estimate ∧ estimate ≤ hold ∧ c.start ≤ p.createdAt ∧
        ∀ finish, c.finish = some finish → p.createdAt ≤ finish
      | none => p.budgetCurrency = none ∧ p.estimate = none ∧ p.hold = none) ∧
      match p.status with
      | .succeeded => ∃ settled, p.settled = some settled ∧ 0 ≤ settled
      | _ => p.settled = none := by
  intro p hp
  have hstored := run.sound.coherent.payments.get?_of_mem hp
  have hrecorded := (reachable_recorded hvalid run).2 p.id p hstored
  refine ⟨?_, reachable_costed run p.id p hstored⟩
  cases hcycle : p.cycle with
  | none => exact hrecorded.unlinked hcycle
  | some id =>
    obtain ⟨c, hlinked⟩ := hrecorded.linked id hcycle
    obtain rfl : c.id = id := Option.some.inj (hlinked.link.symm.trans hcycle)
    obtain ⟨l, hl, howner⟩ := hlinked.owner
    obtain ⟨estimate, hold, hestimate, hhold, hnonneg, hle⟩ := hlinked.priced
    exact ⟨c, l, estimate, hold, hlinked.cycle, hl, howner, hlinked.currency, hestimate, hhold,
      hnonneg, hle, hlinked.begun, hlinked.running⟩

/-- A payment of five dollars that was priced at 20 sats in an hour, and cost 25. -/
def Sample.priced : Payment :=
  (Payment.pending ⟨Uuid.ofNat 3⟩ Sample.request Sample.connection.id
    (Sample.intent Sample.dollar 5) Sample.start).reserved ⟨Uuid.ofNat 2⟩ .sat 20 20

/-- While the payment is priced and before it is settled an hour passes each. In between the limit
is disabled, which ends the cycle. -/
theorem payment_record_sound_cut :
    ∃ w path p c, Run .exact World.Steady (w :: path) ∧ p ∈ w.service.store.payments ∧
      p.cycle = some c.id ∧ p.settled = some 25 ∧ c.hasEnded w.service.clock = true ∧
      w.service.store.cycle? c.id = some c ∧ c.start ≤ p.createdAt ∧
      ∀ finish, c.finish = some finish → p.createdAt ≤ finish := by
  let one : Reading := ⟨⟨1704070800, 0, by decide, by decide, by decide⟩, rfl⟩
  let two : Reading := ⟨⟨1704074400, 0, by decide, by decide, by decide⟩, rfl⟩
  obtain ⟨w, path, run, hf⟩ := Run.reaches .exact World.Steady ⟨Sample.start, rfl⟩ Uuid.ofNat
    [ Sample.created,
      .call (.reserve Sample.connection Sample.request (Sample.intent Sample.dollar 5)),
      .clock one,
      .converted 0 (.ok 20),
      .call (.updateLimit Sample.connection.id .disable one.clock),
      .clock two,
      .call (.finalizeSuccess Sample.priced 25) ]
    (fun w _ => (w.service.store.payments.head?.map fun p => (p.cycle, p.settled),
      (w.service.store.cycle? ⟨Uuid.ofNat 2⟩).map (·.hasEnded w.service.clock)))
    (some (some ⟨Uuid.ofNat 2⟩, some 25), some true) (by decide +kernel)
  simp only [Prod.mk.injEq] at hf
  obtain ⟨hpayment, hended⟩ := hf
  obtain ⟨p, hp, hread⟩ := Option.map_eq_some_iff.mp hpayment
  obtain ⟨c, hc, hended⟩ := Option.map_eq_some_iff.mp hended
  simp only [Prod.mk.injEq] at hread
  obtain ⟨hcycle, hsettled⟩ := hread
  have hmem : p ∈ w.service.store.payments := List.mem_of_mem_head? hp
  have hrecord := (payment_record_sound rfl run p hmem).1
  rw [hcycle] at hrecord
  obtain ⟨c', l, estimate, hold, hc', -, -, -, -, -, -, -, hbegun, hrunning⟩ := hrecord
  obtain rfl : c = c' := Option.some.inj (hc.symm.trans hc')
  have hid : c.id = ⟨Uuid.ofNat 2⟩ := Store.cycle?_id hc
  exact ⟨w, path, p, c, run, hmem, hid ▸ hcycle, hsettled, hended, hid ▸ hc, hbegun, hrunning⟩

end WalletBudget
