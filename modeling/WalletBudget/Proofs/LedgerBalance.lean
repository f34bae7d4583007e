import WalletBudget.Proofs.HoldPolicy
import WalletBudget.Proofs.Sound
import WalletBudget.Proofs.Totals
import Mathlib.Algebra.Order.BigOperators.Group.List

/-!
The totals of a cycle are sums over the payments that are linked to it.

Every operation writes a cycle and its payments in another way. What is to be shown of each is only
that the totals of the one cycle it touches move by as much as the one payment it writes.
-/

namespace WalletBudget

namespace Payment

variable {cycle : CycleId} {p : Payment}

def holdOn (cycle : CycleId) (p : Payment) : Int :=
  if p.status = .pending ∧ p.cycle = some cycle then p.hold.getD 0 else 0

def spentIn (cycle : CycleId) (p : Payment) : Int :=
  if p.status = .succeeded ∧ p.cycle = some cycle then p.settled.getD 0 else 0

theorem holdOn_other (h : p.cycle ≠ some cycle) : p.holdOn cycle = 0 := by
  simp [holdOn, h]

theorem spentIn_other (h : p.cycle ≠ some cycle) : p.spentIn cycle = 0 := by
  simp [spentIn, h]

end Payment

namespace Store

def pendingHolds (s : Store) (cycle : CycleId) : Int := (s.payments.map (·.holdOn cycle)).sum

def settledSpends (s : Store) (cycle : CycleId) : Int := (s.payments.map (·.spentIn cycle)).sum

end Store

open Service

variable {policy : HoldPolicy} {rule : World → Event → Prop} {steady final : Prop} {now : Instant}
  {s t : Service} {c c' : Cycle} {p : Payment} {hold : Int} {e : Ending} {w : World}
  {path : List World}

theorem Service.Placed.holdOn (h : Placed policy s c p hold t) (id : CycleId) :
    p.holdOn id = if c.id = id then hold else 0 := by
  simp [Payment.holdOn, h.pending, h.linked, h.held]

/-- The totals of every cycle are those of its payments, and no pending payment holds less than
nothing. -/
structure Balanced (s : Service) : Prop where
  held : ∀ id c, s.store.cycle? id = some c → c.held = s.store.pendingHolds id
  spent : ∀ id c, s.store.cycle? id = some c → c.spent = s.store.settledSpends id
  hold : ∀ id p, s.store.payment? id = some p → p.status = .pending → p.cycle ≠ none →
    ∃ hold, p.hold = some hold ∧ 0 ≤ hold

/-- Nothing is held or spent in a cycle that is not stored. -/
theorem Service.Coherent.unlinked (hs : Coherent s) {id : CycleId} (h : s.store.cycle? id = none)
    (f : Payment → Int) (hf : ∀ p, p.cycle ≠ some id → f p = 0) :
    (s.store.payments.map f).sum = 0 := by
  refine List.sum_eq_zero fun n hn => ?_
  obtain ⟨p, hp, rfl⟩ := List.mem_map.mp hn
  refine hf p fun hc => ?_
  obtain ⟨c, hstored⟩ := hs.paymentCycle p.id p id (hs.payments.get?_of_mem hp) hc
  rw [h] at hstored
  cases hstored

namespace Balanced

theorem neutral (hs : Coherent s) (h : Balanced s) (hst : Neutral s t) : Balanced t where
  held id c hc := by
    rw [Store.pendingHolds, hst.sums _ fun p hp => Payment.holdOn_other (by simp [hp])]
    rcases hst.cycles id c hc with ⟨d, hd, hheld, -⟩ | ⟨hnew, hheld, -⟩
    · exact hheld.trans (h.held id d hd)
    · rw [hheld, hs.unlinked hnew _ fun p => Payment.holdOn_other]
  spent id c hc := by
    rw [Store.settledSpends, hst.sums _ fun p hp => Payment.spentIn_other (by simp [hp])]
    rcases hst.cycles id c hc with ⟨d, hd, -, hspent⟩ | ⟨hnew, -, hspent⟩
    · exact hspent.trans (h.spent id d hd)
    · rw [hspent, hs.unlinked hnew _ fun p => Payment.spentIn_other]
  hold id p hp hpending hcycle := h.hold id p (hst.linked id p hp hcycle) hpending hcycle

/-- A placed hold goes to the cycle and to the payment alike. -/
theorem placed (hs : Coherent s) (h : Balanced s) (hvalid : policy.validate = .ok ())
    (hp : Placed policy s c p hold t) (ht : t.FreshIds) : Balanced t where
  held id d hd := by
    rw [Store.pendingHolds, hp.sum hs ht, hp.holdOn]
    rw [hp.cycle?] at hd
    split at hd
    · rename_i hid
      cases hd
      simp only [hid, if_true]
      rw [h.held id c (hid ▸ hp.cycle), Store.pendingHolds]
    · rename_i hid
      simp only [hid, if_false, Int.add_zero]
      exact h.held id d hd
  spent id d hd := by
    have hweight : p.spentIn id = 0 := by simp [Payment.spentIn, hp.pending]
    rw [Store.settledSpends, hp.sum hs ht, hweight, Int.add_zero]
    rw [hp.cycle?] at hd
    split at hd
    · rename_i hid
      cases hd
      exact h.spent id c (hid ▸ hp.cycle)
    · exact h.spent id d hd
  hold id q hq hpending hcycle := by
    rw [hp.payment?] at hq
    split at hq
    · cases hq
      obtain ⟨estimate, -, hhold, hestimate⟩ := hp.priced
      exact ⟨hold, hp.held, policy.hold_nonneg hvalid hestimate hhold⟩
    · exact h.hold id q hq hpending hcycle

/-- A cycle holds at least what one of its pending payments holds. -/
theorem hold_le (hs : Coherent s) (h : Balanced s) (hc : s.store.cycle? c.id = some c)
    (hp : s.store.payment? p.id = some p) (hpending : p.status = .pending)
    (hlinked : p.cycle = some c.id) : ∃ hold, p.hold = some hold ∧ 0 ≤ hold ∧ hold ≤ c.held := by
  obtain ⟨hold, hhold, hnonneg⟩ := h.hold p.id p hp hpending (by simp [hlinked])
  refine ⟨hold, hhold, hnonneg, ?_⟩
  have hweight : p.holdOn c.id = hold := by simp [Payment.holdOn, hpending, hlinked, hhold]
  rw [h.held c.id c hc, ← hweight]
  refine List.single_le_sum (fun n hn => ?_) _ (List.mem_map.mpr ⟨p, Table.mem_of_get? hp, rfl⟩)
  obtain ⟨q, hq, rfl⟩ := List.mem_map.mp hn
  by_cases hlinked' : q.status = .pending ∧ q.cycle = some c.id
  · obtain ⟨other, hother, hle⟩ :=
      h.hold q.id q (hs.payments.get?_of_mem hq) hlinked'.1 (by simp [hlinked'.2])
    simpa [Payment.holdOn, hlinked', hother] using hle
  · simp [Payment.holdOn, hlinked']

/-- The end of a payment takes its hold from the cycle, and no more than that is released. -/
theorem ended_totals (hs : Coherent s) (h : Balanced s) (hp : Ended e now s c p c' t) :
    ∃ hold, p.hold = some hold ∧ 0 ≤ hold ∧ c'.held = c.held - hold ∧
      c'.spent = c.spent + e.cost := by
  obtain ⟨hold, hhold, hnonneg, hle⟩ := h.hold_le hs hp.cycle hp.payment hp.pending hp.linked
  have hfields := apply_ok hp.applied
  refine ⟨hold, hhold, hnonneg, ?_, by rw [hfields]⟩
  simp only [hfields, hhold, Option.getD_some]
  omega

theorem ended (hs : Coherent s) (h : Balanced s) (hp : Ended e now s c p c' t) : Balanced t := by
  obtain ⟨hold, hhold, -, hheld, hspent⟩ := h.ended_totals hs hp
  have hlinked : ∀ id, p.cycle = some id ↔ c.id = id := by simp [hp.linked]
  constructor
  · intro id d hd
    have hbefore : p.holdOn id = if c.id = id then hold else 0 := by
      simp [Payment.holdOn, hp.pending, hlinked, hhold]
    have hafter : (e.mark p now).holdOn id = 0 := by
      simp [Payment.holdOn, mark_status e p now]
    rw [Store.pendingHolds, hp.sum, hbefore, hafter, Int.add_zero]
    rw [hp.cycle?] at hd
    split at hd
    · rename_i hid
      cases hd
      simp only [hid, if_true]
      rw [hheld, h.held id c (hid ▸ hp.cycle), Store.pendingHolds]
    · rename_i hid
      simp only [hid, if_false, Int.sub_zero]
      exact h.held id d hd
  · intro id d hd
    have hbefore : p.spentIn id = 0 := by simp [Payment.spentIn, hp.pending]
    have hafter : (e.mark p now).spentIn id = if c.id = id then e.cost else 0 := by
      cases e <;>
        simp [Payment.spentIn, Ending.mark, Payment.succeed, Payment.fail, Ending.cost, hlinked]
    rw [Store.settledSpends, hp.sum, hbefore, hafter, Int.sub_zero]
    rw [hp.cycle?] at hd
    split at hd
    · rename_i hid
      cases hd
      simp only [hid, if_true]
      rw [hspent, h.spent id c (hid ▸ hp.cycle), Store.settledSpends]
    · rename_i hid
      simp only [hid, if_false, Int.add_zero]
      exact h.spent id d hd
  · intro id q hq hpending hcycle
    rw [hp.payment?] at hq
    split at hq
    · cases hq
      exact absurd hpending (mark_status e p now)
    · exact h.hold id q hq hpending hcycle

/-- No stretch of work breaks the balance. -/
theorem stretch (hs : Coherent s) (h : Balanced s) (hvalid : policy.validate = .ok ())
    (hst : Stretch policy final now s t) (ht : t.FreshIds) : Balanced t := by
  refine hst.keeps hs ht h ?_ ?_ ?_
  · intro a b ha hw hb hbalanced
    exact hbalanced.neutral ha (hw.neutral ha hb)
  · intro m c p hold hm hp hbalanced
    exact hbalanced.placed hm hvalid hp ht
  · intro m e c p c' hm hp hbalanced
    exact hbalanced.ended hm hp

theorem changed (hs : Coherent s) (h : Balanced s)
    (hvalid : policy.validate = .ok ()) (hst : Changed policy steady s t) (ht : t.FreshIds) :
    Balanced t := by
  cases hst with
  | clock time _ htick =>
    rw [htick]
    exact ⟨h.held, h.spent, h.hold⟩
  | work time _ hst => exact h.stretch hs hvalid hst ht

end Balanced

/-- A payment that was ended with a cycle has its hold taken from that cycle and its cost added to
it, whatever else the cycle has become since the payment was reserved. -/
theorem Service.Finalized.charged {q : Payment} (hs : Coherent s) (hbalanced : Balanced s)
    (h : Finalized e p s (.ok q) t) {id : CycleId} (hlinked : p.cycle = some id)
    (hc : s.store.cycle? id = some c) :
    ∃ hold, p.hold = some hold ∧ 0 ≤ hold ∧
      t.store.cycle? id = some { c with held := c.held - hold, spent := c.spent + e.cost } := by
  cases h with
  | unbudgeted _ _ hnone =>
    rw [hnone] at hlinked
    cases hlinked
  | budgeted d d' q _ _ hpq hended =>
    subst hpq
    obtain rfl : d.id = id := Option.some.inj (hended.linked.symm.trans hlinked)
    obtain rfl : d = c := Option.some.inj (hended.cycle.symm.trans hc)
    obtain ⟨hold, hhold, hnonneg, hheld, hspent⟩ := hbalanced.ended_totals hs hended
    refine ⟨hold, hhold, hnonneg, ?_⟩
    rw [hended.cycle?, if_pos rfl, hended.moved.totals, hheld, hspent]

theorem reachable_balanced (hvalid : policy.validate = .ok ())
    (run : Run policy rule (w :: path)) : Balanced w.service := by
  refine run.holds False (fun _ _ _ h => h.elim) ?_ ?_
  · intro clock ids scan
    exact {
      held := by intro _ _ h; cases h
      spent := by intro _ _ h; cases h
      hold := by intro _ _ h; cases h }
  · intro s t hs ht hchange h
    exact h.changed hs hvalid hchange ht

/-- In every state of every run the two totals of a cycle are the holds of its pending payments and
the spends of its succeeded ones. What is released was held, so a release is never cut to zero. -/
theorem totals_conserved (hvalid : policy.validate = .ok ()) (run : Run policy rule (w :: path)) :
    (∀ c ∈ w.service.store.cycles,
      c.held = w.service.store.pendingHolds c.id ∧ c.spent = w.service.store.settledSpends c.id ∧
      ∀ p ∈ w.service.store.payments, p.status = .pending → p.cycle = some c.id →
        ∃ hold, p.hold = some hold ∧ 0 ≤ hold ∧ c.releaseHold hold =
          (fun held => { c with held }) <$> checkedAmount (c.held - hold)) ∧
    ∀ p ∈ w.payments, ∃ q, w.service.store.payment? p.id = some q ∧ q.cycle = p.cycle := by
  have hs := run.sound.coherent
  have h := reachable_balanced hvalid run
  refine ⟨fun c hc => ?_, fun p hp => ?_⟩
  · have hstored := hs.cycles.get?_of_mem hc
    refine ⟨h.held c.id c hstored, h.spent c.id c hstored, fun p hp hpending hlinked => ?_⟩
    obtain ⟨hold, hhold, hnonneg, hle⟩ :=
      h.hold_le hs hstored (hs.payments.get?_of_mem hp) hpending hlinked
    refine ⟨hold, hhold, hnonneg, ?_⟩
    have hrest : max (c.held - hold) 0 = c.held - hold := by omega
    cases hrange : inRange (c.held - hold) <;>
      simp [Cycle.releaseHold, checkedAmount, hrange, hrest, bind, Except.bind, pure,
        Except.pure, Functor.map, Except.map]
  · obtain ⟨q, hq, -⟩ := run.sound.payments p hp
    exact ⟨q, hq, Filed.cycle (run.sound.payments p hp) hq⟩

/-- One payment of 30 sats came to cost 40, and another one still holds 20. -/
theorem totals_conserved_paid : HoldPolicy.exact.validate = .ok () ∧
    ∃ w path, Run HoldPolicy.exact (fun _ _ => True) (w :: path) ∧
      w.service.store.cycles.map (fun c => (c.spent, c.held)) = [(40, 20)] ∧
      ∀ c ∈ w.service.store.cycles, c.held = w.service.store.pendingHolds c.id ∧
        c.spent = w.service.store.settledSpends c.id := by
  have hvalid : HoldPolicy.exact.validate = .ok () := by decide
  obtain ⟨w, path, run, hcycles⟩ := Run.reaches .exact (fun _ _ => True) ⟨Sample.start, rfl⟩
    Uuid.ofNat
    [ Sample.created,
      .call (.reserve Sample.connection Sample.request (Sample.intent .sat 30)),
      .call (.finalizeSuccess (Sample.payment 30) 40),
      .call (.reserve Sample.connection Sample.request (Sample.intent Sample.dollar 5)),
      .converted 0 (.ok 20) ]
    (fun w _ => w.service.store.cycles.map (fun c => (c.spent, c.held))) [(40, 20)]
    (by decide +kernel)
  refine ⟨hvalid, w, path, run, hcycles, fun c hc => ?_⟩
  obtain ⟨hheld, hspent, -⟩ := (totals_conserved hvalid run).1 c hc
  exact ⟨hheld, hspent⟩

end WalletBudget
