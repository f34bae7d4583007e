import WalletBudget.Proofs.Course
import WalletBudget.Proofs.Overspending

/-!
Where the arithmetic of a cycle leaves the range of amounts.

The two totals never leave it, and a hold is placed and released within it. Settlements are not
bounded by anything: one of them may be too large to be added, and together with a lower amount of
the limit they may leave less than the least amount.
-/

namespace WalletBudget

/-- A sum or difference is computed or not as it is in range. -/
theorem checkedAmount_eq (n : Int) : checkedAmount n =
    if leastAmount ≤ n ∧ n ≤ largestAmount then .ok n else .error .amountRange := by
  simp [checkedAmount, inRange]

namespace Cycle

variable {c c' : Cycle} {hold left settled : Int} {e : Service.Ending}

structure InRange (c : Cycle) : Prop where
  spent : 0 ≤ c.spent
  spent_le : c.spent ≤ largestAmount
  held : 0 ≤ c.held
  held_le : c.held ≤ largestAmount

/-- There is always an answer to what is left but where that is below the least amount. -/
theorem InRange.available (h : c.InRange) (hpositive : 0 < c.limitAmount)
    (hamount : c.limitAmount ≤ largestAmount) : c.available =
      if leastAmount ≤ c.limitAmount - c.spent - c.held then
        .ok (c.limitAmount - c.spent - c.held)
      else .error .amountRange := by
  obtain ⟨hspent, hspentLe, hheld, -⟩ := h
  have hfirst : checkedAmount (c.limitAmount - c.spent) = .ok (c.limitAmount - c.spent) := by
    rw [checkedAmount_eq, if_pos]
    simp only [leastAmount, largestAmount] at *
    omega
  have hlargest : c.limitAmount - c.spent - c.held ≤ largestAmount := by omega
  simp only [Cycle.available, hfirst, bind, Except.bind, checkedAmount_eq, hlargest, and_true]

/-- What fits is placed: together with what is held it is no more than the amount less the spends.
-/
theorem InRange.placeHold (h : c.InRange) (hleft : c.available = .ok left) (hnonneg : 0 ≤ hold)
    (hfits : hold ≤ left) : c.placeHold hold = .ok { c with held := c.held + hold } := by
  have hfirst : c.limitAmount - c.spent ≤ largestAmount := by
    simp only [Cycle.available, bind, Except.bind] at hleft
    split at hleft
    · cases hleft
    · rename_i hfirst
      exact (inRange_iff.mp (checkedAmount_range hfirst)).2
  have hsum : checkedAmount (c.held + hold) = .ok (c.held + hold) := by
    have hheld := h.held
    have hle := available_ok hleft
    rw [checkedAmount_eq, if_pos]
    simp only [leastAmount, largestAmount] at *
    omega
  simp only [Cycle.placeHold, hsum, bind, Except.bind, pure, Except.pure]

theorem InRange.releaseHold (h : c.InRange) (hnonneg : 0 ≤ hold) (hle : hold ≤ c.held) :
    c.releaseHold hold = .ok { c with held := c.held - hold } := by
  have hrest : checkedAmount (c.held - hold) = .ok (c.held - hold) := by
    have hheld := h.held_le
    rw [checkedAmount_eq, if_pos]
    simp only [leastAmount, largestAmount] at *
    omega
  have hmax : max (c.held - hold) 0 = c.held - hold := by omega
  simp only [Cycle.releaseHold, hrest, bind, Except.bind, pure, Except.pure, hmax]

/-- Only the sum of the spends can be too large. -/
theorem InRange.settle (h : c.InRange) (hnonneg : 0 ≤ hold) (hle : hold ≤ c.held)
    (hcost : 0 ≤ settled) : c.settle hold settled =
      if c.spent + settled ≤ largestAmount then
        .ok { c with held := c.held - hold, spent := c.spent + settled }
      else .error .amountRange := by
  have hleast : leastAmount ≤ c.spent + settled := by
    have hspent := h.spent
    simp only [leastAmount]
    omega
  by_cases hfits : c.spent + settled ≤ largestAmount <;>
    simp only [Cycle.settle, h.releaseHold hnonneg hle, bind, Except.bind, pure, Except.pure,
      checkedAmount_eq, hleast, hfits, true_and, if_true, if_false]

theorem InRange.apply (h : c.InRange) (hcost : ∀ settled, e = .success settled → 0 ≤ settled)
    (happly : e.apply c hold = .ok c') : c'.InRange := by
  have hrelease : ∀ {d}, c.releaseHold hold = .ok d →
      d.spent = c.spent ∧ 0 ≤ d.held ∧ d.held ≤ largestAmount := by
    intro d hd
    obtain rfl := releaseHold_ok hd
    simp only [Cycle.releaseHold, bind, Except.bind] at hd
    split at hd
    · cases hd
    · rename_i hrest
      have hrange := (inRange_iff.mp (checkedAmount_range hrest)).2
      refine ⟨rfl, ?_, ?_⟩ <;> simp only [largestAmount] at * <;> omega
  cases e with
  | failure =>
    obtain ⟨hspent, hnonneg, hle⟩ := hrelease happly
    exact ⟨hspent ▸ h.spent, hspent ▸ h.spent_le, hnonneg, hle⟩
  | success settled =>
    simp only [Service.Ending.apply, Cycle.settle, bind, Except.bind] at happly
    split at happly
    · cases happly
    · rename_i d hd
      obtain ⟨hspent, hnonneg, hle⟩ := hrelease hd
      split at happly
      · cases happly
      · rename_i sum hsum
        cases happly
        have hrange := (inRange_iff.mp (checkedAmount_range hsum)).2
        have hsettled := hcost settled rfl
        have hbefore := h.spent
        obtain rfl := checkedAmount_ok hsum
        exact ⟨by dsimp only; omega, hrange, hnonneg, hle⟩

end Cycle

open Service

variable {policy : HoldPolicy} {rule during : World → Event → Prop} {steady final : Prop}
  {now : Instant} {s t : Service} {c : Cycle} {p : Payment} {e : Ending} {w : World}
  {path : List World}

namespace Service

def Ranged (s : Service) : Prop := ∀ id c, s.store.cycle? id = some c → c.InRange

namespace Ranged

theorem neutral (h : Ranged s) (hst : Neutral s t) : Ranged t := by
  intro id c hc
  rcases hst.cycles id c hc with ⟨d, hd, hheld, hspent⟩ | ⟨-, hheld, hspent⟩
  · obtain ⟨hspent', hspentLe, hheld', hheldLe⟩ := h id d hd
    constructor <;> omega
  · constructor <;> simp [hheld, hspent, largestAmount]

theorem rewrite {d : Cycle} (h : Ranged s) (hd : d.InRange)
    (ht : ∀ id, t.store.cycle? id = if c.id = id then some d else s.store.cycle? id) :
    Ranged t := by
  intro id c' hc'
  rw [ht] at hc'
  split at hc'
  · obtain rfl := Option.some.inj hc'
    exact hd
  · exact h id c' hc'

theorem stretch (hs : Coherent s) (h : Ranged s) (hvalid : policy.validate = .ok ())
    (hst : Stretch policy final now s t) (ht : t.FreshIds) : Ranged t := by
  refine hst.keeps hs ht h ?_ ?_ ?_
  · intro a b ha hw hb h
    exact h.neutral (hw.neutral ha hb)
  · intro m c p hold _ hp h
    obtain ⟨estimate, -, hhold, hnonneg⟩ := hp.priced
    have hnonneg := policy.hold_nonneg hvalid hnonneg hhold
    obtain ⟨hspent, hspentLe, hheld, -⟩ := h c.id c hp.cycle
    refine h.rewrite (d := { c with held := c.held + hold })
      ⟨hspent, hspentLe, ?_, (inRange_iff.mp hp.range).2⟩ hp.cycle?
    dsimp only
    omega
  · intro m e c p c' _ hp h
    exact h.rewrite ((h c.id c hp.cycle).apply hp.cost hp.applied) hp.cycle?

theorem changed (hs : Coherent s) (h : Ranged s) (hvalid : policy.validate = .ok ())
    (hst : Changed policy steady s t) (ht : t.FreshIds) : Ranged t := by
  cases hst with
  | clock time _ htick =>
    subst htick
    exact h
  | work time _ hst => exact h.stretch hs hvalid hst ht

theorem opening (hs : Coherent s) (h : Ranged s) (hst : Opening s t) (ht : t.FreshIds) :
    Ranged t :=
  h.neutral (hst.writes.neutral hs ht)

theorem found {l : Limit} (hs : Coherent s) (h : Ranged s) (hc : Found l now s (.ok c) t) :
    c.InRange := by
  cases hc with
  | latest c hc => exact h c.id c (hs.latest hc).1
  | opened c start _ _ hc =>
    obtain ⟨finish, rfl⟩ := createCycle_fresh hc
    constructor <;> simp [Cycle.fresh, largestAmount]
  | taken c start x _ _ _ hc => exact h x.cycle c hc

end Ranged

/-- An end is only broken by a cost that is too large to be added to what is spent. -/
theorem Finalized.overflow {d : Defect} (hs : Coherent s) (hbalanced : Balanced s) (h : Ranged s)
    (hfinal : Finalized e p s (.error (.broken d)) t) :
    ∃ c settled, e = .success settled ∧ p.cycle = some c.id ∧ s.store.cycle? c.id = some c ∧
      s.store.payment? p.id = some p ∧ p.status = .pending ∧
      largestAmount < c.spent + settled := by
  cases hfinal with
  | broken _ q hq hpending hpq c hc hlinked hcost happly =>
    subst hpq
    obtain ⟨hold, hhold, hnonneg, hle⟩ := hbalanced.hold_le hs hc hq hpending hlinked
    rw [hhold, Option.getD_some] at happly
    cases e with
    | failure =>
      have hreleased := (h c.id c hc).releaseHold hnonneg hle
      rw [Ending.apply, hreleased] at happly
      cases happly
    | success settled =>
      have hsettled := (h c.id c hc).settle hnonneg hle (hcost settled rfl)
      rw [Ending.apply, hsettled] at happly
      split at happly
      · cases happly
      · exact ⟨c, settled, rfl, hlinked, hc, hq, hpending, by omega⟩

/-- Such a cost does break it. -/
theorem Finalized.breaks {settled : Int} {r : Except Abort Payment} (hs : Coherent s)
    (hbalanced : Balanced s) (h : Ranged s) (hfinal : Finalized (.success settled) p s r t)
    (hcost : 0 ≤ settled) (hp : s.store.payment? p.id = some p) (hpending : p.status = .pending)
    (hlinked : p.cycle = some c.id) (hc : s.store.cycle? c.id = some c)
    (hlarge : largestAmount < c.spent + settled) : ∃ d, r = .error (.broken d) := by
  cases hfinal with
  | unbudgeted _ _ hnone =>
    rw [hnone] at hlinked
    cases hlinked
  | budgeted c₁ c' q _ _ hpq hended =>
    subst hpq
    obtain ⟨hold, hhold, hnonneg, hle⟩ := hbalanced.hold_le hs hc hp hpending hlinked
    have hid : c₁.id = c.id := Option.some.inj (hended.linked.symm.trans hlinked)
    obtain rfl : c₁ = c := Option.some.inj ((hid ▸ hended.cycle).symm.trans hc)
    have happlied := hended.applied
    rw [hhold, Option.getD_some, Ending.apply, (h c₁.id c₁ hc).settle hnonneg hle hcost,
      if_neg (by omega)] at happlied
    cases happlied
  | invalid settled' he hneg =>
    obtain rfl := Ending.success.inj he
    omega
  | final q hq hfinal =>
    obtain rfl : p = q := Option.some.inj (hp.symm.trans hq)
    exact absurd hpending hfinal
  | broken d => exact ⟨d, rfl⟩

end Service

theorem reachable_ranged (hvalid : policy.validate = .ok ()) (run : Run policy rule (w :: path)) :
    Ranged w.service :=
  run.holds False (fun _ _ _ h => h.elim) (by intro _ _ _ _ _ h; cases h)
    fun _ _ hs ht hst h => h.changed hs hvalid hst ht

/-- The totals of all cycles stay in range while a call opens cycles and waits. -/
theorem Course.ranged {α : Type} {task : Task α} {r : Except Abort α}
    {post : Service → Except Abort α → Service → Prop} (hvalid : policy.validate = .ok ())
    (hw : w.Sound policy) (h : Ranged w.service)
    (course : Course policy during task w path (.done r s))
    (hgoes : (task w.service).Goes Opening (Rely (Moment Ranged)) post w.service) :
    ∃ v, s.FreshIds ∧ Coherent v ∧ Ranged v ∧ post v r s := by
  obtain ⟨v, past, -, hf, ⟨hs, hv⟩, hpost⟩ :
      Stands policy Ranged Opening post path (.done r s) := by
    refine course.follows hw h (fun _ _ => Opening.works) ?_ ?_ hgoes
    · exact fun v u _ hv hf hopening h => h.opening hv hopening hf
    · intro v v' e _ hv _ hstep hf h
      exact h.changed hv.coherent hvalid (hv.step hstep hf).2 hf
  exact ⟨v.service, hf, hs, hv, hpost⟩

/-- A settlement of a handed-out record is broken by amounts exactly where it is to be charged and
the spends of the cycle add up to more than the largest amount. -/
theorem finalizeSuccess_broken_iff (hvalid : policy.validate = .ok ())
    (run : Run policy rule (w :: path)) (hp : p ∈ w.payments) {settled : Int}
    (hcost : 0 ≤ settled) :
    (∃ d s, finalizeSuccess p settled w.service = .done (.error (.broken d)) s) ↔
      ∃ c, w.service.store.payment? p.id = some p ∧ p.status = .pending ∧
        p.cycle = some c.id ∧ w.service.store.cycle? c.id = some c ∧
        largestAmount < c.spent + settled := by
  have hs := run.sound.coherent
  have hbalanced := reachable_balanced hvalid run
  have hranged := reachable_ranged hvalid run
  obtain ⟨r, t, hrun, hfinal⟩ := finalizeSuccess_runs hs (run.sound.payments p hp) settled
  constructor
  · rintro ⟨d, s, hbroken⟩
    obtain ⟨rfl, rfl⟩ : r = _ ∧ t = s := by simpa [hrun] using hbroken
    obtain ⟨c, settled', he, hlinked, hc, hq, hpending, hlarge⟩ :=
      hfinal.overflow hs hbalanced hranged
    obtain rfl := Ending.success.inj he
    exact ⟨c, hq, hpending, hlinked, hc, hlarge⟩
  · rintro ⟨c, hq, hpending, hlinked, hc, hlarge⟩
    obtain ⟨d, rfl⟩ := hfinal.breaks hs hbalanced hranged hcost hq hpending hlinked hc hlarge
    exact ⟨d, t, hrun⟩

theorem finalizeFailure_unbroken (hvalid : policy.validate = .ok ())
    (run : Run policy rule (w :: path)) (hp : p ∈ w.payments) (d : Defect) (s : Service) :
    finalizeFailure p w.service ≠ .done (.error (.broken d)) s := by
  intro hbroken
  have hs := run.sound.coherent
  obtain ⟨r, t, hrun, hfinal⟩ := finalizeFailure_runs hs (run.sound.payments p hp)
  obtain ⟨rfl, rfl⟩ : r = _ ∧ t = s := by simpa [hrun] using hbroken
  obtain ⟨c, settled, he, -⟩ :=
    hfinal.overflow hs (reachable_balanced hvalid run) (reachable_ranged hvalid run)
  cases he

/-- The hold that a reservation places fits, so that only what is left of the cycle can be out of
range. -/
theorem Course.reserve_broken (hvalid : policy.validate = .ok ())
    (run : Run policy rule (w :: path)) {k : Connection} (hk : k ∈ w.connections)
    {request : RequestId} {intent : Intent} {later : List World}
    (course : Course policy during (reserve policy k request intent) w later
      (.done (.error (.broken .amountRange)) s)) :
    ∃ c ∈ s.store.cycles, c.available = .error .amountRange := by
  have hranged := reachable_ranged hvalid run
  obtain ⟨v, hf, hv, hvr, hreserved⟩ := course.ranged hvalid run.sound hranged
    (reserve_goes (fun _ h => h.1) ⟨run.sound.coherent, hranged⟩ (run.sound.connections k hk))
  cases hreserved with
  | failed _ _ hm _ hbroken =>
    cases hbroken rfl hf with
    | left c hc hleft => exact ⟨c, Store.cycle?_mem hc, hleft⟩
    | hold c left estimate hold hc havailable hfits hestimate hhold hplace =>
      have hnonneg := policy.hold_nonneg hvalid hestimate hhold
      have hrange := hvr.opening hv hm hf c.id c hc
      rw [hrange.placeHold havailable hnonneg hfits] at hplace
      cases hplace

theorem Course.budgetView_broken (hvalid : policy.validate = .ok ())
    (run : Run policy rule (w :: path)) {k : Connection} (hk : k ∈ w.connections)
    {later : List World} (course : Course policy during (budgetView k) w later
      (.done (.error (.broken .amountRange)) s)) :
    ∃ c ∈ s.store.cycles, c.available = .error .amountRange := by
  have hranged := reachable_ranged hvalid run
  obtain ⟨v, -, -, -, hview⟩ := course.ranged hvalid run.sound hranged
    (budgetView_goes (fun _ h => h.1) ⟨run.sound.coherent, hranged⟩ (run.sound.connections k hk))
  obtain ⟨c, hc, hleft⟩ := hview.broken rfl
  exact ⟨c, Store.cycle?_mem hc, hleft⟩

/-- In no state does the placing of a hold that fits, or its release, leave the range of amounts. A
settlement does where the spends add up to more than the largest amount, and what is left of a cycle
where it is below the least one. An operation is only broken by amounts at such a settlement, or at
a cycle that is overdrawn so far. -/
theorem overflow_confined (hvalid : policy.validate = .ok ()) (run : Run policy rule (w :: path)) :
    (∀ c ∈ w.service.store.cycles, c.InRange ∧
      (c.limitAmount ≤ largestAmount → c.available =
        if leastAmount ≤ c.limitAmount - c.spent - c.held then
          .ok (c.limitAmount - c.spent - c.held)
        else .error .amountRange) ∧
      (∀ left hold, c.available = .ok left → 0 ≤ hold → hold ≤ left →
        c.placeHold hold = .ok { c with held := c.held + hold }) ∧
      ∀ p ∈ w.service.store.payments, p.status = .pending → p.cycle = some c.id →
        ∃ hold, p.hold = some hold ∧
          c.releaseHold hold = .ok { c with held := c.held - hold } ∧
          ∀ settled, 0 ≤ settled → c.settle hold settled =
            if c.spent + settled ≤ largestAmount then
              .ok { c with held := c.held - hold, spent := c.spent + settled }
            else .error .amountRange) ∧
    (∀ p ∈ w.payments, (∀ d s, finalizeFailure p w.service ≠ .done (.error (.broken d)) s) ∧
      ∀ settled, 0 ≤ settled →
        ((∃ d s, finalizeSuccess p settled w.service = .done (.error (.broken d)) s) ↔
          ∃ c, w.service.store.payment? p.id = some p ∧ p.status = .pending ∧
            p.cycle = some c.id ∧ w.service.store.cycle? c.id = some c ∧
            largestAmount < c.spent + settled)) ∧
    (∀ k ∈ w.connections, ∀ request intent path s,
      Course policy during (reserve policy k request intent) w path
        (.done (.error (.broken .amountRange)) s) →
      ∃ c ∈ s.store.cycles, c.available = .error .amountRange) ∧
    ∀ k ∈ w.connections, ∀ path s,
      Course policy during (budgetView k) w path (.done (.error (.broken .amountRange)) s) →
      ∃ c ∈ s.store.cycles, c.available = .error .amountRange := by
  refine ⟨fun c hc => ?_, fun p hp => ⟨finalizeFailure_unbroken hvalid run hp, ?_⟩, ?_, ?_⟩
  · have hs := run.sound.coherent
    have hstored := hs.cycles.get?_of_mem hc
    have hrange := reachable_ranged hvalid run c.id c hstored
    refine ⟨hrange, hrange.available ((reachable_positive run).cycles c.id c hstored),
      fun _ _ => hrange.placeHold, fun p hp hpending hlinked => ?_⟩
    obtain ⟨hold, hhold, hnonneg, hle⟩ := (reachable_balanced hvalid run).hold_le hs hstored
      (hs.payments.get?_of_mem hp) hpending hlinked
    exact ⟨hold, hhold, hrange.releaseHold hnonneg hle, fun _ => hrange.settle hnonneg hle⟩
  · exact fun _ => finalizeSuccess_broken_iff hvalid run hp
  · exact fun k hk _ _ _ _ course => course.reserve_broken hvalid run hk
  · exact fun k hk _ _ course => course.budgetView_broken hvalid run hk

/-- Of holds of 60 and 40 sats the first one comes to cost the largest amount, and then the limit is
lowered to one. The view is broken by what is left, and so would be another settlement, but not the
release of the second hold. -/
theorem overflow_confined_lowered : HoldPolicy.exact.validate = .ok () ∧
    ∃ w path c p s, Run HoldPolicy.exact (fun _ _ => True) (w :: path) ∧
      c ∈ w.service.store.cycles ∧ (c.limitAmount, c.spent, c.held) = (1, largestAmount, 40) ∧
      c.available = .error .amountRange ∧ p ∈ w.service.store.payments ∧
      c.settle 40 1 = .error .amountRange ∧ c.releaseHold 40 = .ok { c with held := 0 } ∧
      budgetView Sample.connection w.service = .done (.error (.broken .amountRange)) s ∧
      ∃ c ∈ s.store.cycles, c.available = .error .amountRange := by
  have hvalid : HoldPolicy.exact.validate = .ok () := by decide
  obtain ⟨w, path, run, hf⟩ := Run.reaches .exact (fun _ _ => True) ⟨Sample.start, rfl⟩ Uuid.ofNat
    [ Sample.created,
      .call (.reserve Sample.connection Sample.request (Sample.intent .sat 60)),
      .call (.reserve Sample.connection Sample.request (Sample.intent .sat 40)),
      .call (.finalizeSuccess (Sample.payment 60) largestAmount),
      .call (.updateLimit Sample.connection.id ⟨true, some 1, none, some .daily⟩ Sample.start) ]
    (fun w _ => ((w.service.store.cycle? ⟨Uuid.ofNat 2⟩).map fun c =>
        (c.limitAmount, c.spent, c.held),
      (budgetView Sample.connection w.service).abort?,
      decide (Sample.connection ∈ w.connections ∧
        { Sample.payment 40 with id := ⟨Uuid.ofNat 4⟩ } ∈ w.service.store.payments ∧
        (budgetView Sample.connection w.service).service.FreshIds)))
    (some (1, largestAmount, 40), some (.broken .amountRange), true) (by decide +kernel)
  simp only [Prod.mk.injEq, decide_eq_true_eq] at hf
  obtain ⟨hcycle, habort, hk, hpayment, hfresh⟩ := hf
  obtain ⟨c, hc, hread⟩ := Option.map_eq_some_iff.mp hcycle
  simp only [Prod.mk.injEq] at hread
  obtain ⟨hamount, hspent, hheld⟩ := hread
  have hid : c.id = ⟨Uuid.ofNat 2⟩ := Store.cycle?_id hc
  have hmem : c ∈ w.service.store.cycles := Store.cycle?_mem hc
  obtain ⟨s, hview⟩ := Progress.abort?_some habort
  have course : Course HoldPolicy.exact (fun _ _ => True) (budgetView Sample.connection) w _ _ :=
    .called hfresh
  rw [hview] at course
  obtain ⟨hcycles, -, -, hviews⟩ := overflow_confined hvalid run
  obtain ⟨-, havailable, -, hends⟩ := hcycles c hmem
  obtain ⟨hold, hhold, hrelease, hsettle⟩ := hends _ hpayment rfl (by rw [hid]; rfl)
  obtain rfl : 40 = hold := Option.some.inj hhold
  have hleft := havailable (by simp [hamount, largestAmount])
  have hcharged := hsettle 1 (by decide)
  rw [hamount, hspent, hheld] at hleft
  rw [hspent] at hcharged
  rw [hheld] at hrelease
  exact ⟨hvalid, w, path, c, _, s, run, hmem, by rw [hamount, hspent, hheld], hleft, hpayment,
    hcharged, hrelease, hview, hviews Sample.connection hk _ s course⟩

end WalletBudget
