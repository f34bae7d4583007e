import WalletBudget.Proofs.Write

/-!
What the writes of a stretch do to the totals of cycles and to sums over payments.

Every sum here is over all payments, of a weight that payments without a cycle do not have. Only the
placing of a hold and the end of a payment with a cycle move such a sum.
-/

namespace WalletBudget

/-- A sum over the payments moves by the payment that is written, less the one it replaces. -/
theorem Store.sum_filePayment (s : Store) (p : Payment) (f : Payment → Int) :
    ((s.filePayment p).payments.map f).sum =
      (s.payments.map f).sum - ((s.payment? p.id).map f).getD 0 + f p :=
  Table.sum_put Payment.id f p s.payments

namespace Service

variable {policy : HoldPolicy} {steady : Prop} {now : Instant} {s t u : Service} {c c' : Cycle}
  {p : Payment} {hold : Int} {e : Ending}

/-- No money is moved: cycles keep their totals, new ones have none, and payments with a cycle are
as they were. -/
structure Neutral (s t : Service) : Prop where
  cycles : ∀ id c, t.store.cycle? id = some c →
    (∃ d, s.store.cycle? id = some d ∧ c.held = d.held ∧ c.spent = d.spent) ∨
    s.store.cycle? id = none ∧ c.held = 0 ∧ c.spent = 0
  sums : ∀ f : Payment → Int, (∀ p, p.cycle = none → f p = 0) →
    (t.store.payments.map f).sum = (s.store.payments.map f).sum
  linked : ∀ id p, t.store.payment? id = some p → p.cycle ≠ none → s.store.payment? id = some p

theorem Neutral.of_cycles (hpayments : t.store.payments = s.store.payments)
    (hcycles : ∀ id c, t.store.cycle? id = some c →
      (∃ d, s.store.cycle? id = some d ∧ c.held = d.held ∧ c.spent = d.spent) ∨
      s.store.cycle? id = none ∧ c.held = 0 ∧ c.spent = 0) : Neutral s t where
  cycles := hcycles
  sums f _ := by rw [hpayments]
  linked id p hp _ := by simpa [Store.payment?, hpayments] using hp

theorem Neutral.refl (s : Service) : Neutral s s :=
  .of_cycles rfl fun _ c hc => .inl ⟨c, hc, rfl, rfl⟩

theorem Neutral.of_payment (hnone : p.cycle = none)
    (hold : ∀ q, s.store.payment? p.id = some q → q.cycle = none)
    (ht : t.store = s.store.filePayment p) : Neutral s t where
  cycles id c hc := .inl ⟨c, by simpa [ht] using hc, rfl, rfl⟩
  sums f hf := by
    rw [ht, Store.sum_filePayment, hf p hnone]
    cases hq : s.store.payment? p.id with
    | none => simp
    | some q => simp [hf q (hold q hq)]
  linked id q hq hcycle := by
    by_cases hid : p.id = id
    · obtain rfl : p = q := by simpa [ht, hid] using hq
      exact absurd hnone hcycle
    · simpa [ht, hid] using hq

theorem Neutral.of_rewrite {d : Cycle} (hd : s.store.cycle? d.id = some c) (hheld : d.held = c.held)
    (hspent : d.spent = c.spent) (hpayments : t.store.payments = s.store.payments)
    (ht : ∀ id, t.store.cycle? id = if d.id = id then some d else s.store.cycle? id) :
    Neutral s t := by
  refine .of_cycles hpayments fun id f hf => ?_
  rw [ht] at hf
  by_cases hid : d.id = id
  · obtain rfl : d = f := by simpa [hid] using hf
    exact .inl ⟨c, hid ▸ hd, hheld, hspent⟩
  · exact .inl ⟨f, by simpa [hid] using hf, rfl, rfl⟩

theorem Neutral.trans (hlater : Later s t) (hst : Neutral s t) (htu : Neutral t u) :
    Neutral s u where
  cycles id c hc := by
    rcases htu.cycles id c hc with ⟨d, hd, hheld, hspent⟩ | ⟨hnone, hheld, hspent⟩
    · rcases hst.cycles id d hd with ⟨e, he, hheld', hspent'⟩ | ⟨hnone, hheld', hspent'⟩
      · exact .inl ⟨e, he, hheld.trans hheld', hspent.trans hspent'⟩
      · exact .inr ⟨hnone, hheld.trans hheld', hspent.trans hspent'⟩
    · refine .inr ⟨?_, hheld, hspent⟩
      cases hs : s.store.cycle? id with
      | none => rfl
      | some e =>
        obtain ⟨e', he', -⟩ := hlater.cycles id e hs
        rw [show t.store.cycle? id = some e' from he'] at hnone
        cases hnone
  sums f hf := (htu.sums f hf).trans (hst.sums f hf)
  linked id p hp hcycle := hst.linked id p (htu.linked id p hp hcycle) hcycle

theorem Write.neutral (hs : Coherent s) (h : Write final now s t) (ht : t.FreshIds) :
    Neutral s t := by
  cases h with
  | issue => exact .of_cycles rfl (Neutral.refl s).cycles
  | connect => exact .of_cycles rfl (Neutral.refl s).cycles
  | point => exact .of_cycles rfl (Neutral.refl s).cycles
  | begin => exact .of_cycles rfl (Neutral.refl s).cycles
  | reprice => exact .of_cycles rfl (Neutral.refl s).cycles
  | repriceLive l c amount _ _ _ hc =>
    exact .of_rewrite (d := { c with limitAmount := amount }) (hs.latest hc).1 rfl rfl rfl
      fun id => by simp
  | retire => exact .of_cycles rfl (Neutral.refl s).cycles
  | close l c _ _ hc =>
    refine .of_rewrite (c := c) (d := c.endAt now) ?_ ?_ ?_ rfl fun id => by simp
    · simpa using (hs.latest hc).1
    · rw [Cycle.endAt_fields]
    · rw [Cycle.endAt_fields]
  | opened l c start _ _ _ _ hc =>
    obtain ⟨finish, hfresh⟩ := createCycle_fresh hc
    have hnew : s.store.cycle? c.id = none := hs.newCycle ht (by rw [hfresh]; rfl)
    refine .of_cycles rfl fun id d hd => ?_
    by_cases hid : c.id = id
    · obtain rfl : c = d := by simpa [hid] using hd
      exact .inr ⟨hid ▸ hnew, by rw [hfresh]; rfl, by rw [hfresh]; rfl⟩
    · exact .inl ⟨d, by simpa [hid] using hd, rfl, rfl⟩
  | record p hid _ hnone =>
    refine .of_payment hnone (fun q hq => ?_) rfl
    rw [hs.newPayment ht hid] at hq
    cases hq
  | complete e p hp _ hnone =>
    refine .of_payment (p := e.mark p now) (by simpa using hnone) (fun q hq => ?_) rfl
    obtain rfl : p = q := Option.some.inj (hp.symm.trans (by simpa using hq))
    exact hnone

theorem Writes.neutral (hs : Coherent s) (h : Writes final now s t) (ht : t.FreshIds) :
    Neutral s t := by
  induction h with
  | refl => exact .refl s
  | tail hprev hstep ih =>
    have hmid := ht.before hstep.issued
    have hrows := Writes.rows hs hprev hmid
    exact (ih hmid).trans hrows.later (hstep.neutral (hrows.coherent hs) ht)

theorem Placed.cycle? (h : Placed policy s c p hold t) (id : CycleId) :
    t.store.cycle? id =
      if c.id = id then some { c with held := c.held + hold } else s.store.cycle? id := by
  simp [h.written]

theorem Placed.payment? (h : Placed policy s c p hold t) (id : PaymentId) :
    t.store.payment? id = if p.id = id then some p else s.store.payment? id := by
  simp [h.written]

theorem Placed.sum (hs : Coherent s) (h : Placed policy s c p hold t) (ht : t.FreshIds)
    (f : Payment → Int) :
    (t.store.payments.map f).sum = (s.store.payments.map f).sum + f p := by
  have hnew : s.store.payment? p.id = none :=
    hs.newPayment (ht.before (by simp [h.written])) h.id
  rw [h.written, write_store, Store.sum_filePayment, Store.payment?_fileCycle, hnew]
  simp [Store.fileCycle]

theorem Ended.cycle? (h : Ended e now s c p c' t) (id : CycleId) :
    t.store.cycle? id = if c.id = id then some c' else s.store.cycle? id := by
  have hid : c'.id = c.id := by rw [apply_ok h.applied]
  simp [h.written, hid]

theorem Ended.payment? (h : Ended e now s c p c' t) (id : PaymentId) :
    t.store.payment? id = if p.id = id then some (e.mark p now) else s.store.payment? id := by
  simp [h.written]

theorem Ended.sum (h : Ended e now s c p c' t) (f : Payment → Int) :
    (t.store.payments.map f).sum = (s.store.payments.map f).sum - f p + f (e.mark p now) := by
  rw [h.written, write_store, Store.sum_filePayment, Store.payment?_fileCycle, mark_id, h.payment]
  simp [Store.fileCycle]

/-- What stays when money moves in a cycle: everything but its totals, and payments. -/
structure Moved (s t : Service) (c d : Cycle) : Prop where
  clock : t.clock = s.clock
  limits : t.store.limit? = s.store.limit?
  stored : s.store.cycle? c.id = some c
  totals : d = { c with spent := d.spent, held := d.held }
  cycles : ∀ id, t.store.cycle? id = if c.id = id then some d else s.store.cycle? id

theorem Placed.moved (h : Placed policy s c p hold t) :
    Moved s t c { c with held := c.held + hold } where
  clock := by rw [h.written]; rfl
  limits := by rw [h.written]; rfl
  stored := h.cycle
  totals := rfl
  cycles := h.cycle?

theorem Ended.moved (h : Ended e now s c p c' t) : Moved s t c c' where
  clock := by rw [h.written]; rfl
  limits := by rw [h.written]; rfl
  stored := h.cycle
  totals := by rw [apply_ok h.applied]
  cycles := h.cycle?

/-- What neither a write nor money that moves breaks, a stretch does not break. -/
theorem Stretch.keepsMoved {I : Service → Prop} (hs : Coherent s)
    (h : Stretch policy final now s t) (ht : t.FreshIds) (hI : I s)
    (hwrite : ∀ a b, Coherent a → Write final now a b → b.FreshIds → I a → I b)
    (hmoved : ∀ m c d, Moved m t c d → I m → I t) : I t :=
  h.keeps hs ht hI hwrite (fun m _ _ _ _ hp => hmoved m _ _ hp.moved)
    fun m _ _ _ _ _ hp => hmoved m _ _ hp.moved

end Service

end WalletBudget
