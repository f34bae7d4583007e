import WalletBudget.Proofs.LedgerBalance

/-!
How far a cycle may be overdrawn.

A hold is only placed where the amount of the cycle has room for it. What takes the totals beyond
the amount of a cycle afterwards is a settlement above its hold, or a lower amount of the limit.
-/

namespace WalletBudget

namespace Payment

/-- What a payment cost beyond what was held for it. -/
def overrunIn (cycle : CycleId) (p : Payment) : Int :=
  if p.status = .succeeded ∧ p.cycle = some cycle then
    max 0 (p.settled.getD 0 - p.hold.getD 0)
  else 0

theorem overrunIn_nonneg (cycle : CycleId) (p : Payment) : 0 ≤ p.overrunIn cycle := by
  simp only [overrunIn]
  split <;> omega

theorem overrunIn_pending {cycle : CycleId} {p : Payment} (h : p.status = .pending) :
    p.overrunIn cycle = 0 := by
  simp [overrunIn, h]

end Payment

namespace Store

def overruns (s : Store) (cycle : CycleId) : Int := (s.payments.map (·.overrunIn cycle)).sum

theorem overruns_nonneg (s : Store) (cycle : CycleId) : 0 ≤ s.overruns cycle := by
  refine List.sum_nonneg fun n hn => ?_
  obtain ⟨p, -, rfl⟩ := List.mem_map.mp hn
  exact p.overrunIn_nonneg cycle

end Store

def amounts (path : List World) (cycle : CycleId) : List Int :=
  path.filterMap (fun w => (w.service.store.cycle? cycle).map Cycle.limitAmount)

open Service

variable {policy : HoldPolicy} {rule : World → Event → Prop} {steady final : Prop} {now : Instant}
  {s t : Service} {c c' : Cycle} {p : Payment} {hold : Int} {e : Ending} {w : World}
  {path : List World}
  {had : CycleId → Int → Prop}

structure Positive (s : Service) : Prop where
  limits : ∀ id l, s.store.limit? id = some l → 0 < l.amount
  cycles : ∀ id c, s.store.cycle? id = some c → 0 < c.limitAmount

namespace Positive

theorem write (hs : Coherent s) (h : Positive s) (hw : Write final now s t) : Positive t := by
  cases hw with
  | begin l _ _ _ hamount => exact ⟨Store.forall_fileLimit h.limits hamount, h.cycles⟩
  | reprice l amount _ _ hamount => exact ⟨Store.forall_fileLimit h.limits hamount, h.cycles⟩
  | repriceLive l c amount _ _ hamount =>
    exact ⟨Store.forall_fileLimit h.limits hamount, Store.forall_fileCycle h.cycles hamount⟩
  | retire l hl =>
    have hamount : 0 < (l.deactivate now).amount := deactivate_amount l now ▸ h.limits l.id l hl
    exact ⟨Store.forall_fileLimit h.limits hamount, h.cycles⟩
  | close l c hl _ hc =>
    have hamount : 0 < (l.deactivate now).amount := deactivate_amount l now ▸ h.limits l.id l hl
    refine ⟨Store.forall_fileLimit h.limits hamount, Store.forall_fileCycle h.cycles ?_⟩
    rw [Cycle.endAt_fields]
    exact h.cycles c.id c (hs.latest hc).1
  | opened l c start hl _ _ _ hc =>
    obtain ⟨finish, rfl⟩ := createCycle_fresh hc
    exact ⟨h.limits, Store.forall_fileCycle h.cycles (h.limits l.id l hl)⟩
  | _ => exact ⟨h.limits, h.cycles⟩

theorem stretch (hs : Coherent s) (h : Positive s) (hst : Stretch policy final now s t)
    (ht : t.FreshIds) : Positive t := by
  refine hst.keeps hs ht h ?_ ?_ ?_
  · intro a b ha hw _ hpositive
    exact hpositive.write ha hw
  · intro m c p hold _ hp hpositive
    rw [hp.written]
    exact ⟨hpositive.limits,
      Store.forall_fileCycle hpositive.cycles (hpositive.cycles c.id c hp.cycle)⟩
  · intro m e c p c' _ hp hpositive
    rw [hp.written]
    refine ⟨hpositive.limits, Store.forall_fileCycle hpositive.cycles ?_⟩
    rw [apply_ok hp.applied]
    exact hpositive.cycles c.id c hp.cycle

end Positive

theorem reachable_positive (run : Run policy rule (w :: path)) : Positive w.service := by
  refine run.holds False (fun _ _ _ h => h.elim) ?_ ?_
  · intro clock ids scan
    exact {
      limits := by intro _ _ h; cases h
      cycles := by intro _ _ h; cases h }
  · intro s t hs ht hchange h
    cases hchange with
    | clock time _ htick =>
      rw [htick]
      exact ⟨h.limits, h.cycles⟩
    | work time _ hst => exact h.stretch hs hst ht

/-- Every cycle is overdrawn by its overruns at most, against one of the amounts it has had. A cycle
in which nothing was placed yet is measured against nothing. -/
def Within (had : CycleId → Int → Prop) (s : Service) : Prop :=
  ∀ id c, s.store.cycle? id = some c →
    ∃ m, (m = 0 ∨ had id m) ∧ c.spent + c.held ≤ m + s.store.overruns id

namespace Within

theorem neutral (h : Within had s) (hst : Neutral s t) : Within had t := by
  intro id c hc
  rw [Store.overruns, hst.sums _ fun p hp => by simp [Payment.overrunIn, hp]]
  rcases hst.cycles id c hc with ⟨d, hd, hheld, hspent⟩ | ⟨-, hheld, hspent⟩
  · obtain ⟨m, hm, hle⟩ := h id d hd
    exact ⟨m, hm, by rw [hheld, hspent]; exact hle⟩
  · have hnonneg := s.store.overruns_nonneg id
    simp only [Store.overruns] at hnonneg
    exact ⟨0, .inl rfl, by omega⟩

/-- A hold that fits is measured against the amount of its cycle at that moment. -/
theorem placed (hs : Coherent s) (h : Within had s) (hp : Placed policy s c p hold t)
    (hhad : had c.id c.limitAmount) (ht : t.FreshIds) : Within had t := by
  intro id d hd
  rw [Store.overruns, hp.sum hs ht, Payment.overrunIn_pending hp.pending, Int.add_zero]
  rw [hp.cycle?] at hd
  split at hd
  · rename_i hid
    cases hd
    have hnonneg := s.store.overruns_nonneg id
    have hroom := hp.room
    simp only [Store.overruns] at hnonneg
    exact ⟨c.limitAmount, .inr (hid ▸ hhad), by dsimp only; omega⟩
  · exact h id d hd

/-- A settlement adds to the overruns what it adds to the totals. -/
theorem ended (hs : Coherent s) (hbalanced : Balanced s) (h : Within had s)
    (hp : Ended e now s c p c' t) : Within had t := by
  obtain ⟨hold, hhold, hnonneg, hheld, hspent⟩ := hbalanced.ended_totals hs hp
  intro id d hd
  have hafter : (e.mark p now).overrunIn id =
      if c.id = id then (match e with | .success n => max 0 (n - hold) | .failure => 0) else 0 := by
    cases e <;> simp [Payment.overrunIn, Ending.mark, Payment.succeed, Payment.fail, hp.linked,
      hhold]
  rw [Store.overruns, hp.sum, Payment.overrunIn_pending hp.pending, hafter, Int.sub_zero]
  rw [hp.cycle?] at hd
  split at hd
  · rename_i hid
    cases hd
    obtain ⟨m, hm, hle⟩ := h id c (hid ▸ hp.cycle)
    simp only [Store.overruns] at hle
    refine ⟨m, hm, ?_⟩
    simp only [hid, if_true, hheld, hspent]
    cases e <;> simp only [Ending.cost] <;> omega
  · rename_i hid
    simp only [hid, if_false, Int.add_zero]
    exact h id d hd

theorem stretch (hs : Coherent s) (hbalanced : Balanced s) (h : Within had s)
    (hst : Stretch policy final now s t) (ht : t.FreshIds)
    (hhad : ∀ id c, t.store.cycle? id = some c → had id c.limitAmount) : Within had t := by
  cases hst with
  | quiet hw => exact h.neutral (hw.neutral hs ht)
  | placed m c p hold hw hp =>
    have hm : m.FreshIds := ht.before (by simp [hp.written])
    refine (h.neutral (hw.neutral hs hm)).placed ((hw.rows hs hm).coherent hs) hp ?_ ht
    exact hhad c.id { c with held := c.held + hold } (by simp [hp.cycle?])
  | ended m e c p c' hw hp =>
    have hm : m.FreshIds := ht.before (by simp [hp.written])
    have hneutral := hw.neutral hs hm
    exact (h.neutral hneutral).ended ((hw.rows hs hm).coherent hs)
      (hbalanced.neutral hs hneutral) hp

end Within

theorem mem_amounts_head {id : CycleId} (hc : w.service.store.cycle? id = some c) :
    c.limitAmount ∈ amounts (w :: path) id :=
  List.mem_filterMap.mpr ⟨w, List.mem_cons_self, by simp [hc]⟩

theorem mem_amounts_cons {id : CycleId} {m : Int} (h : m ∈ amounts path id) :
    m ∈ amounts (w :: path) id := by
  obtain ⟨v, hv, hm⟩ := List.mem_filterMap.mp h
  exact List.mem_filterMap.mpr ⟨v, List.mem_cons_of_mem w hv, hm⟩

theorem reachable_within (hvalid : policy.validate = .ok ()) (run : Run policy rule (w :: path)) :
    Within (fun id m => m ∈ amounts (w :: path) id) w.service := by
  induction run using Run.lastInduction with
  | start clock ids scan =>
    intro _ _ h
    cases h
  | @step v w' past e run hrule hstep hfresh ih =>
    have hmono : ∀ {s : Service}, Within (fun id m => m ∈ amounts (v :: past) id) s →
        Within (fun id m => m ∈ amounts (w' :: v :: past) id) s := by
      intro s h id c hc
      obtain ⟨m, hm, hle⟩ := h id c hc
      exact ⟨m, hm.imp_right mem_amounts_cons, hle⟩
    have hbefore := hmono ih
    cases (run.sound.step hstep hfresh).2 with
    | clock time _ htick =>
      rw [htick]
      exact hbefore
    | work time _ hst =>
      exact hbefore.stretch run.sound.coherent (reachable_balanced hvalid run) hst hfresh
        fun id c hc => mem_amounts_head hc

/-- Spends and holds of a cycle never exceed the largest amount it has had by more than its
settlements exceeded their holds. Without such settlements, and if its amount was never lowered,
they stay within its amount. -/
theorem overspending_bounded (hvalid : policy.validate = .ok ())
    (run : Run policy rule (w :: path)) :
    ∀ c ∈ w.service.store.cycles,
      (∃ m, (amounts (w :: path) c.id).max? = some m ∧
        c.spent + c.held ≤ m + w.service.store.overruns c.id) ∧
      ((∀ p ∈ w.service.store.payments, p.status = .succeeded → p.cycle = some c.id →
          p.settled.getD 0 ≤ p.hold.getD 0) →
        (amounts (w :: path) c.id).Pairwise (· ≥ ·) → c.spent + c.held ≤ c.limitAmount) := by
  intro c hc
  have hstored := run.sound.coherent.cycles.get?_of_mem hc
  have hpositive := (reachable_positive run).cycles c.id c hstored
  have hhead : c.limitAmount ∈ amounts (w :: path) c.id := mem_amounts_head hstored
  -- Nothing is less than the amount of any cycle, so it is a bound that needs no name of its own.
  obtain ⟨n, hn, hle⟩ : ∃ n ∈ amounts (w :: path) c.id,
      c.spent + c.held ≤ n + w.service.store.overruns c.id := by
    obtain ⟨m, hm, hle⟩ := reachable_within hvalid run c.id c hstored
    rcases hm with rfl | hm
    · exact ⟨c.limitAmount, hhead, by omega⟩
    · exact ⟨m, hm, hle⟩
  constructor
  · obtain ⟨m, hm⟩ : ∃ m, (amounts (w :: path) c.id).max? = some m :=
      Option.ne_none_iff_exists'.mp fun h => by simp [List.max?_eq_none_iff.mp h] at hhead
    have hmax := (List.max?_eq_some_iff.mp hm).2 n hn
    exact ⟨m, hm, by omega⟩
  · intro hsettled hraised
    have hzero : w.service.store.overruns c.id = 0 := by
      refine List.sum_eq_zero fun k hk => ?_
      obtain ⟨p, hp, rfl⟩ := List.mem_map.mp hk
      simp only [Payment.overrunIn]
      split
      · rename_i h
        have := hsettled p hp h.1 h.2
        omega
      · rfl
    have hcons : amounts (w :: path) c.id = c.limitAmount :: amounts path c.id := by
      have : w.service.store.cycle? c.id = some c := hstored
      simp [amounts, this]
    rw [hcons] at hraised hn
    rcases List.mem_cons.mp hn with rfl | hn
    · omega
    · have := List.rel_of_pairwise_cons hraised hn
      omega

/-- A settlement of 40 against a hold of 30, behind a change of the amount from 100 to 50. In
another run the amount was raised to 150, and what was settled for 25 had 30 on hold. -/
theorem overspending_bounded_lowered : HoldPolicy.exact.validate = .ok () ∧
    (∃ w path, Run HoldPolicy.exact (fun _ _ => True) (w :: path) ∧
      w.service.store.cycles.map (fun c => (c.limitAmount, c.spent, c.held)) = [(50, 40, 20)] ∧
      ∀ c ∈ w.service.store.cycles, ∃ m, (amounts (w :: path) c.id).max? = some m ∧
        c.spent + c.held ≤ m + w.service.store.overruns c.id) ∧
    ∃ w path, Run HoldPolicy.exact (fun _ _ => True) (w :: path) ∧
      w.service.store.cycles.map (fun c => (c.limitAmount, c.spent, c.held)) = [(150, 25, 20)] ∧
      ∀ c ∈ w.service.store.cycles, c.spent + c.held ≤ c.limitAmount := by
  have hvalid : HoldPolicy.exact.validate = .ok () := by decide
  obtain ⟨w, path, run, hcycles⟩ := Run.reaches .exact (fun _ _ => True) ⟨Sample.start, rfl⟩
    Uuid.ofNat
    [ Sample.created,
      .call (.reserve Sample.connection Sample.request (Sample.intent .sat 30)),
      .call (.reserve Sample.connection Sample.request (Sample.intent .sat 20)),
      .call (.updateLimit Sample.connection.id ⟨true, some 50, none, some .daily⟩ Sample.start),
      .call (.finalizeSuccess (Sample.payment 30) 40) ]
    (fun w _ => w.service.store.cycles.map (fun c => (c.limitAmount, c.spent, c.held)))
    [(50, 40, 20)] (by decide +kernel)
  obtain ⟨v, before, run', hf⟩ := Run.reaches .exact (fun _ _ => True) ⟨Sample.start, rfl⟩
    Uuid.ofNat
    [ Sample.created,
      .call (.reserve Sample.connection Sample.request (Sample.intent .sat 30)),
      .call (.reserve Sample.connection Sample.request (Sample.intent .sat 20)),
      .call (.updateLimit Sample.connection.id ⟨true, some 150, none, some .daily⟩ Sample.start),
      .call (.finalizeSuccess (Sample.payment 30) 25) ]
    (fun v before => (v.service.store.cycles.map (fun c => (c.limitAmount, c.spent, c.held)),
      decide (∀ c ∈ v.service.store.cycles,
        (∀ p ∈ v.service.store.payments, p.status = .succeeded → p.cycle = some c.id →
          p.settled.getD 0 ≤ p.hold.getD 0) ∧
        (amounts (v :: before) c.id).Pairwise (· ≥ ·))))
    ([(150, 25, 20)], true) (by decide +kernel)
  simp only [Prod.mk.injEq, decide_eq_true_eq] at hf
  obtain ⟨hcycles', hkept⟩ := hf
  refine ⟨hvalid, ⟨w, path, run, hcycles, ?_⟩, v, before, run', hcycles', ?_⟩
  · intro c hc
    exact (overspending_bounded hvalid run c hc).1
  · intro c hc
    obtain ⟨hsettled, hraised⟩ := hkept c hc
    exact (overspending_bounded hvalid run' c hc).2 hsettled hraised

end WalletBudget
