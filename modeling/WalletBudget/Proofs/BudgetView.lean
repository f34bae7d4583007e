import WalletBudget.Proofs.BudgetShare
import WalletBudget.Proofs.LiveCycle
import WalletBudget.Proofs.AmountRange
import WalletBudget.Proofs.ReservationAttempts

/-!
The budget that is displayed.

The total comes from the limit and what remains from its cycle. In a steady run the two agree on the
amount, so what remains is between nothing and the total, in whatever currency it is shown. The sign
of a price is not looked at: where the converter answers with an amount below zero, a total below
zero is displayed.
-/

namespace WalletBudget

open Service

variable {policy : HoldPolicy} {others rule : World → Event → Prop} {k : Connection}
  {s t : Service} {l : Limit} {c : Cycle} {left : Int} {log : List Exchange} {w : World}
  {past path : List World} {v : BudgetView} {r : Except Abort BudgetView}

namespace BudgetView

structure Consistent (v : BudgetView) : Prop where
  msats : ∃ total remaining, v.totalMsats = some total ∧ v.remainingMsats = some remaining ∧
    0 ≤ remaining ∧ remaining ≤ total
  currency : ∀ b, v.currency = some b → 0 ≤ b.remaining ∧ b.remaining ≤ b.total

def inSats (l : Limit) (c : Cycle) (remaining : Int) : BudgetView :=
  ⟨some (msats l.amount), some (msats remaining), c.finish.map (·.secs), none⟩

/-- A budget in another currency, whose whole and whose rest have these prices. -/
def inCurrency (l : Limit) (c : Cycle) (remaining sats share : Int) : BudgetView :=
  ⟨some (msats sats), some (msats share), c.finish.map (·.secs),
    some ⟨l.currency.code, l.currency.symbol, l.currency.name, l.currency.decimals, l.amount,
      remaining⟩⟩

/-- What the converter's answer makes of a budget in another currency. -/
inductive Priced (l : Limit) (c : Cycle) (remaining : Int) :
    Except PeerError Int → Except Abort BudgetView → Prop
  | refused (e : PeerError) : Priced l c remaining (.error e) (.error (.refused (.conversion e)))
  | unpriced (sats : Int) (h : share? sats remaining l.amount = none) :
    Priced l c remaining (.ok sats) (.error (.refused (.conversion (shareFault sats))))
  | priced (sats share : Int) (h : share? sats remaining l.amount = some share) :
    Priced l c remaining (.ok sats) (.ok (inCurrency l c remaining sats share))

end BudgetView

/-- What the view of a connection comes to, with what passed between it and the converter. -/
inductive Displays (k : Connection) (s : Service) :
    List Exchange → Except Abort BudgetView → Prop
  | unlimited (hnone : s.store.activeLimit? k = none) : Displays k s [] (.ok .empty)
  | failed (a : Abort) : Displays k s [] (.error a)
  | sats (l : Limit) (c : Cycle) (m : Service) (left : Int) (hl : s.store.activeLimit? k = some l)
      (hc : currentCycle l s.clock s = .done (.ok c) m) (hleft : c.available = .ok left)
      (hsat : l.currency.isSat = true) :
    Displays k s [] (.ok (.inSats l c (max left 0)))
  | priced (l : Limit) (c : Cycle) (m : Service) (left : Int)
      (hl : s.store.activeLimit? k = some l)
      (hc : currentCycle l s.clock s = .done (.ok c) m) (hleft : c.available = .ok left)
      (hother : l.currency.isSat = false) (answer : Except PeerError Int) (t : Service)
      (r : Except Abort BudgetView) (hr : BudgetView.Priced l c (max left 0) answer r) :
    Displays k s [⟨⟨l.currency, l.amount, .sat⟩, some (answer, t)⟩] r

theorem Service.budgetView_displays (hq : s.outages = [])
    (h : (budgetView k s).Hears log (.done r t)) : Displays k s log r := by
  have hfailed : ∀ {a : Abort} {u : Service}, (Progress.done (.error a) u).Hears log (.done r t) →
      Displays k s log r := by
    intro a u h
    obtain ⟨rfl, rfl⟩ := h.ended
    exact .failed a
  simp only [budgetView, Task.bind_run] at h
  rcases activeLimit_run hq k with hactive | ⟨limit, -, -, hactive⟩ <;> rw [hactive] at h
  swap
  · exact hfailed h
  rw [Progress.bind_ok] at h
  cases hl : s.store.activeLimit? k with
  | none =>
    rw [hl] at h
    obtain ⟨rfl, rfl⟩ := h.ended
    exact .unlimited hl
  | some l =>
    obtain ⟨found, m, hrun, -⟩ := currentCycle_found hq l s.clock
    simp only [hl, Task.bind_run, Task.clock_run, Progress.bind_ok, hrun] at h
    cases found with
    | error a => exact hfailed h
    | ok c =>
      simp only [Progress.bind_ok] at h
      cases hleft : c.available with
      | error d =>
        rw [hleft] at h
        exact hfailed h
      | ok left =>
        simp only [hleft, Task.sound_ok, Progress.bind_ok] at h
        cases hsat : l.currency.isSat with
        | true =>
          simp only [hsat, if_true] at h
          obtain ⟨rfl, rfl⟩ := h.ended
          exact .sats l c m left hl hrun hleft hsat
        | false =>
          simp only [hsat, Bool.false_eq_true, if_false, Task.bind_run, Task.convert,
            Progress.bind] at h
          cases h with
          | @converted _ _ u _ answer log _ hu h =>
            cases answer with
            | error e =>
              obtain ⟨rfl, rfl⟩ := h.ended
              exact .priced l c m left hl hrun hleft hsat _ u _ (.refused e)
            | ok sats =>
              dsimp only at h
              cases hshare : BudgetView.share? sats (max left 0) l.amount with
              | none =>
                rw [hshare] at h
                obtain ⟨rfl, rfl⟩ := h.ended
                exact .priced l c m left hl hrun hleft hsat _ u _ (.unpriced sats hshare)
              | some share =>
                rw [hshare] at h
                obtain ⟨rfl, rfl⟩ := h.ended
                exact .priced l c m left hl hrun hleft hsat _ u _ (.priced sats share hshare)

/-- A view that has come to its end. -/
theorem Conversation.displays (hw : w.Sound policy) (hk : k ∈ w.connections)
    (h : Conversation policy others (budgetView k) w log path (.done r s)) :
    Displays k w.service log r :=
  budgetView_displays hw.coherent.quiet (h.hears hw (fun _ _ => Opening.works)
    (budgetView_goes (fun _ h => h.1) ⟨hw.coherent, trivial⟩ (hw.connections k hk)))

/-- In a steady run, where the latest cycle of an active limit has ended, the period of the clock
has no cycle yet. -/
theorem startOf?_idle (run : Run policy World.Steady (w :: past))
    (hl : w.service.store.limit? l.id = some l) (hactive : l.isActive = true) {start : Instant}
    (hidle : ∀ d, w.service.store.latestCycle? l.id = some d →
      d.hasEnded w.service.clock = true)
    (hstart : l.periodStart w.service.clock = .ok start) :
    w.service.store.startOf? l.id start = none := by
  have hs := run.sound.coherent
  have htimely := reachable_timely run
  obtain hnone | ⟨x, hx⟩ := Option.eq_none_or_eq_some (w.service.store.startOf? l.id start)
  · exact hnone
  · -- A cycle with that start would be over, and then a later period had begun.
    obtain ⟨d, hd, howner, rfl⟩ := hs.indexCycle l.id start x hx
    have hfits := reachable_aligned run x.cycle d l hd (howner ▸ hl)
    have hended := htimely.allEnded hs hidle hd howner
    have hlater := hfits.start_lt_periodStart hactive (htimely.limits l.id l hl).1 hended hstart
    exact absurd (Instant.le_refl d.start) (Instant.not_le.mpr hlater)

/-- In a steady run, the cycle that is found for an active limit enforces the limit's amount. -/
theorem found_amount (run : Run policy World.Steady (w :: past))
    (hl : w.service.store.limit? l.id = some l) (hactive : l.isActive = true)
    (hc : Found l w.service.clock w.service (.ok c) t) : c.limitAmount = l.amount := by
  have hs := run.sound.coherent
  cases hc with
  | latest c hc hlive =>
    obtain ⟨hstored, howner, -⟩ := hs.latest hc
    exact reachable_enforced run c.id c l hstored (howner ▸ hl) hactive hlive
  | opened c start _ _ hc => exact (Limit.createCycle_fields hc).amount
  | taken c start x hidle hstart hx =>
    rw [startOf?_idle run hl hactive hidle hstart] at hx
    cases hx

/-- With a valid factor, no more is left of that cycle than the limit's amount. -/
theorem left_le_amount (hvalid : policy.validate = .ok ())
    (run : Run policy World.Steady (w :: past)) (hl : w.service.store.activeLimit? k = some l)
    (hc : currentCycle l w.service.clock w.service = .done (.ok c) t)
    (hleft : c.available = .ok left) : left ≤ l.amount := by
  have hs := run.sound.coherent
  obtain ⟨-, hstored, hactive⟩ := Store.activeLimit?_stored hl
  obtain ⟨r, u, hrun, hfound⟩ := currentCycle_found hs.quiet l w.service.clock
  obtain ⟨rfl, rfl⟩ := Progress.done.inj (hc.symm.trans hrun)
  have hamount := found_amount run hstored hactive hfound
  obtain ⟨hspent, -, hheld, -⟩ := (reachable_ranged hvalid run).found hs hfound
  have hrest := Cycle.available_ok hleft
  omega

namespace BudgetView

variable {remaining : Int}

theorem consistent_inSats (hremaining : 0 ≤ remaining) (hle : remaining ≤ l.amount) :
    (inSats l c remaining).Consistent where
  msats := ⟨_, _, rfl, rfl, msats_le hremaining, msats_le hle⟩
  currency := by simp [inSats]

theorem consistent_inCurrency {sats share : Int} (hsats : 0 ≤ sats) (hpositive : 0 < l.amount)
    (hremaining : 0 ≤ remaining) (hle : remaining ≤ l.amount)
    (h : share? sats remaining l.amount = some share) :
    (inCurrency l c remaining sats share).Consistent := by
  obtain ⟨hround, -⟩ := share?_some hpositive hremaining h
  have hnonneg := hround.sign.1 hsats
  have hsize := hround.natAbs_le hpositive hremaining hle
  refine ⟨⟨_, _, rfl, rfl, msats_le hnonneg, msats_le (by omega)⟩, ?_⟩
  rintro b ⟨⟩
  exact ⟨hremaining, hle⟩

end BudgetView

/-- In a steady run with a valid factor, where the converter says no amount below zero, what remains
is displayed as no less than nothing and no more than the total, in sats and in the currency of the
limit. -/
theorem view_consistent (hvalid : policy.validate = .ok ())
    (run : Run policy World.Steady (w :: past)) (hk : k ∈ w.connections)
    (hl : w.service.store.activeLimit? k = some l)
    (h : Conversation policy others (budgetView k) w log path (.done (.ok v) s))
    (hanswers : ∀ x ∈ log, ∀ n, x.reply? = some (.ok n) → 0 ≤ n) : v.Consistent := by
  have hpositive : 0 < l.amount :=
    (reachable_positive run).limits l.id l (Store.activeLimit?_stored hl).2.1
  have hmost : ∀ {c m left}, currentCycle l w.service.clock w.service = .done (.ok c) m →
      c.available = .ok left → max left 0 ≤ l.amount := fun hc hleft => by
    have hle := left_le_amount hvalid run hl hc hleft
    omega
  cases h.displays run.sound hk with
  | unlimited hnone =>
    rw [hl] at hnone
    cases hnone
  | sats l' c m left hl' hc hleft =>
    obtain rfl : l = l' := Option.some.inj (hl.symm.trans hl')
    exact BudgetView.consistent_inSats (Int.le_max_right ..) (hmost hc hleft)
  | priced l' c m left hl' hc hleft _ answer t r hr =>
    obtain rfl : l = l' := Option.some.inj (hl.symm.trans hl')
    cases hr with
    | priced sats share hshare =>
      have hsats : 0 ≤ sats := hanswers _ List.mem_cons_self sats rfl
      exact BudgetView.consistent_inCurrency hsats hpositive (Int.le_max_right ..)
        (hmost hc hleft) hshare

/-- A daily limit of a hundred dollars. -/
def Sample.createdInDollars : Event :=
  .call (.createConnection .sat none (some ⟨true, some 100, some Sample.dollar, some .daily⟩)
    Sample.start)

/-- Of a hundred dollars thirty are held, and then there are only fifty. At seven sats for them the
rest of twenty is worth three. -/
theorem view_consistent_lowered : HoldPolicy.exact.validate = .ok () ∧
    ∃ w past l log path v s, Run .exact World.Steady (w :: past) ∧
      Sample.connection ∈ w.connections ∧
      w.service.store.activeLimit? Sample.connection = some l ∧
      Conversation .exact World.Steady (budgetView Sample.connection) w log path
        (.done (.ok v) s) ∧
      log.map Exchange.reply? = [some (.ok 7)] ∧ v.Consistent ∧
      v = ⟨some 7000, some 3000, some 1704153600,
        some ⟨"USD", "$", "US Dollar", 2, 50, 20⟩⟩ := by
  have hvalid : HoldPolicy.exact.validate = .ok () := by decide
  obtain ⟨w, past, log, path, v, s, run, h, hreplies, hf⟩ := Conversation.reachesBy .exact
    World.Steady World.Steady ⟨Sample.start, rfl⟩ Uuid.ofNat
    [ Sample.createdInDollars,
      .call (.reserve Sample.connection Sample.request (Sample.intent Sample.dollar 30)),
      .call (.updateLimit Sample.connection.id ⟨true, some 50, none, some .daily⟩ Sample.start) ]
    (budgetView Sample.connection) [.converted (.ok 7)]
    (fun w _ _ v _ => (decide (Sample.connection ∈ w.connections),
      (w.service.store.activeLimit? Sample.connection).isSome, v))
    (true, true, ⟨some 7000, some 3000, some 1704153600,
      some ⟨"USD", "$", "US Dollar", 2, 50, 20⟩⟩) (by decide +kernel)
  simp only [Prod.mk.injEq, decide_eq_true_eq] at hf
  obtain ⟨hk, hl, hshown⟩ := hf
  obtain ⟨l, hl⟩ := Option.isSome_iff_exists.mp hl
  have hanswers : ∀ x ∈ log, ∀ n, x.reply? = some (.ok n) → 0 ≤ n := by
    intro x hx n hn
    have hmem : x.reply? ∈ log.map Exchange.reply? := List.mem_map_of_mem hx
    rw [hreplies, hn] at hmem
    obtain rfl : n = 7 := by simpa [Turn.reply?] using hmem
    decide
  exact ⟨hvalid, w, past, l, log, path, v, s, run, hk, hl, h, hreplies,
    view_consistent hvalid run hk hl h hanswers, hshown⟩

theorem BudgetView.not_consistent {total remaining : Int} (htotal : v.totalMsats = some total)
    (hremaining : v.remainingMsats = some remaining) (hlt : total < remaining) :
    ¬ v.Consistent := by
  rintro ⟨⟨a, b, ha, hb, -, hle⟩, -⟩
  obtain rfl := Option.some.inj (ha.symm.trans htotal)
  obtain rfl := Option.some.inj (hb.symm.trans hremaining)
  omega

/-- With a factor below zero, what is held adds to what remains. -/
theorem view_beyond_total :
    ∃ w past l path v s, Run ⟨⟨true, 1, 0, by decide, by decide⟩⟩ World.Steady (w :: past) ∧
      Sample.connection ∈ w.connections ∧
      w.service.store.activeLimit? Sample.connection = some l ∧
      Conversation ⟨⟨true, 1, 0, by decide, by decide⟩⟩ World.Steady
        (budgetView Sample.connection) w [] path (.done (.ok v) s) ∧
      v.totalMsats = some 100000 ∧ v.remainingMsats = some 130000 ∧ ¬ v.Consistent := by
  obtain ⟨w, past, log, path, v, s, run, h, hreplies, hf⟩ := Conversation.reachesBy
    ⟨⟨true, 1, 0, by decide, by decide⟩⟩ World.Steady World.Steady ⟨Sample.start, rfl⟩ Uuid.ofNat
    [ Sample.created,
      .call (.reserve Sample.connection Sample.request (Sample.intent .sat 30)) ]
    (budgetView Sample.connection) []
    (fun w _ _ v _ => (decide (Sample.connection ∈ w.connections),
      (w.service.store.activeLimit? Sample.connection).isSome, v.totalMsats, v.remainingMsats))
    (true, true, some 100000, some 130000) (by decide +kernel)
  simp only [Prod.mk.injEq, decide_eq_true_eq] at hf
  obtain ⟨hk, hl, htotal, hremaining⟩ := hf
  obtain ⟨l, hl⟩ := Option.isSome_iff_exists.mp hl
  obtain rfl := List.map_eq_nil_iff.mp hreplies
  exact ⟨w, past, l, path, v, s, run, hk, hl, h, htotal, hremaining,
    BudgetView.not_consistent htotal hremaining (by decide)⟩

/-- The sign of the displayed total is that of the answer, and nothing is displayed as missing but
for such an answer. -/
theorem Displays.negative (hpositive : ∀ l, s.store.activeLimit? k = some l → 0 < l.amount)
    (h : Displays k s log (.ok v)) :
    ((∃ total, v.totalMsats = some total ∧ total < 0) ↔
        ∃ x ∈ log, ∃ n, n < 0 ∧ x.reply? = some (.ok n)) ∧
      ((∃ remaining, v.remainingMsats = some remaining ∧ remaining < 0) →
        ∃ total, v.totalMsats = some total ∧ total < 0) := by
  cases h with
  | unlimited => simp [BudgetView.empty]
  | sats l c m left hl =>
    have hamount := hpositive l hl
    simp only [BudgetView.inSats, Option.some.injEq, exists_eq_left', BudgetView.msats_neg_iff,
      List.not_mem_nil, false_and, exists_false, iff_false]
    omega
  | priced l c m left hl _ _ _ answer t _ hr =>
    cases hr with
    | priced sats share hshare =>
      have hsign := (BudgetView.share?_some (hpositive l hl) (Int.le_max_right ..) hshare).1.sign
      refine ⟨⟨?_, ?_⟩, ?_⟩
      · rintro ⟨_, ⟨⟩, hneg⟩
        exact ⟨_, List.mem_cons_self, sats, BudgetView.msats_neg_iff.mp hneg, rfl⟩
      · rintro ⟨x, hx, n, hneg, hreply⟩
        obtain rfl := List.mem_singleton.mp hx
        cases hreply
        exact ⟨_, rfl, BudgetView.msats_neg_iff.mpr hneg⟩
      · rintro ⟨_, ⟨⟩, hneg⟩
        have hshort := BudgetView.msats_neg_iff.mp hneg
        exact ⟨_, rfl, BudgetView.msats_neg_iff.mpr (by omega)⟩

/-- An answer below zero is displayed, unless its share leaves the range of the decimals. -/
theorem Displays.answered {n : Int} {x : Exchange} (h : Displays k s log r)
    (hpositive : ∀ l, s.store.activeLimit? k = some l → 0 < l.amount) (hx : x ∈ log)
    (hreply : x.reply? = some (.ok n)) :
    ∃ l c left, s.store.activeLimit? k = some l ∧ Finds k s c ∧ c.available = .ok left ∧
      ((∃ v, r = .ok v) ∨ r = .error (.refused (.conversion (BudgetView.shareFault n)))) ∧
      (inRange n = true → inRange l.amount = true → left ≤ l.amount →
        ((∃ v, r = .ok v) ↔ n.natAbs * left.toNat < Decimal.mantissaBound)) := by
  cases h with
  | unlimited => cases hx
  | failed => cases hx
  | sats => cases hx
  | priced l c m left hl hc hleft _ answer t _ hr =>
    obtain rfl := List.mem_singleton.mp hx
    obtain rfl : answer = .ok n := by simpa [Exchange.reply?] using hreply
    refine ⟨l, c, left, hl, ⟨l, m, hl, hc⟩, hleft, ?_, fun hn hamount hle => ?_⟩
    · cases hr with
      | unpriced => exact .inr rfl
      | priced => exact .inl ⟨_, rfl⟩
    · have hsome := BudgetView.share?_isSome hn hamount (hpositive l hl)
        (Int.le_max_right left 0) (by have := hpositive l hl; omega)
      rw [show (max left 0).natAbs = left.toNat by omega] at hsome
      rw [← hsome]
      cases hr with
      | unpriced _ hshare => simp [hshare]
      | priced _ share hshare => simp [hshare]

/-- The total that is displayed is below zero if and only if the converter answered with an amount
below zero, and what remains is below zero in no other case. Such an answer is displayed, unless its
product with what remains leaves the range of the decimals. A reservation refuses every one. -/
theorem view_negative (run : Run policy rule (w :: past)) (hk : k ∈ w.connections) :
    (∀ log path v s, Conversation policy others (budgetView k) w log path (.done (.ok v) s) →
      ((∃ total, v.totalMsats = some total ∧ total < 0) ↔
        ∃ x ∈ log, ∃ n, n < 0 ∧ x.reply? = some (.ok n)) ∧
      ((∃ remaining, v.remainingMsats = some remaining ∧ remaining < 0) →
        ∃ total, v.totalMsats = some total ∧ total < 0)) ∧
    (∀ log path r s, Conversation policy others (budgetView k) w log path (.done r s) →
      ∀ x ∈ log, ∀ n, n < 0 → x.reply? = some (.ok n) →
        ∃ l c left, w.service.store.activeLimit? k = some l ∧ Finds k w.service c ∧
          c.available = .ok left ∧
          ((∃ v, r = .ok v) ∨ r = .error (.refused (.conversion (BudgetView.shareFault n)))) ∧
          (inRange n = true → inRange l.amount = true → left ≤ l.amount →
            ((∃ v, r = .ok v) ↔ n.natAbs * left.toNat < Decimal.mantissaBound))) ∧
    ∀ request intent log path p,
      Conversation policy others (reserve policy k request intent) w log path p →
      ∀ x ∈ log, ∀ n, n < 0 → x.reply? = some (.ok n) →
        ∃ s, p = .done (.error (negativeEstimate n)) s := by
  have hw := run.sound
  have hpositive : ∀ l, w.service.store.activeLimit? k = some l → 0 < l.amount := fun l hl =>
    (reachable_positive run).limits l.id l (Store.activeLimit?_stored hl).2.1
  refine ⟨?_, ?_, ?_⟩
  · intro log path v s h
    exact (h.displays hw hk).negative hpositive
  · intro log path r s h x hx n _ hreply
    exact (h.displays hw hk).answered hpositive hx hreply
  · intro request intent log path p h x hx n hneg hreply
    obtain ⟨tries, htries⟩ := h.attempts hw hk
    exact htries.refused hx hreply hneg

/-- Minus five sats are displayed for a hundred dollars, and not taken as the price of a payment. -/
theorem view_negative_answer :
    ∃ w past log path v s log' path' s', Run .exact World.Steady (w :: past) ∧
      Sample.connection ∈ w.connections ∧
      Conversation .exact World.Steady (budgetView Sample.connection) w log path
        (.done (.ok v) s) ∧
      log.map Exchange.reply? = [some (.ok (-5))] ∧
      v = ⟨some (-5000), some (-5000), some 1704153600,
        some ⟨"USD", "$", "US Dollar", 2, 100, 100⟩⟩ ∧
      Conversation .exact World.Steady (reserve .exact Sample.connection Sample.request
        (Sample.intent .sat 30)) w log' path' (.done (.error (negativeEstimate (-5))) s') ∧
      log'.map Exchange.reply? = [some (.ok (-5))] := by
  obtain ⟨w, past, log, path, v, s, run, h, hreplies, hf⟩ := Conversation.reachesBy .exact
    World.Steady World.Steady ⟨Sample.start, rfl⟩ Uuid.ofNat [Sample.createdInDollars]
    (budgetView Sample.connection) [.converted (.ok (-5))]
    (fun w _ _ v _ => (decide (Sample.connection ∈ w.connections), v,
      (w.during .exact World.Steady (reserve .exact Sample.connection Sample.request
        (Sample.intent .sat 30)) [.converted (.ok (-5))]).isSome))
    (true, ⟨some (-5000), some (-5000), some 1704153600,
      some ⟨"USD", "$", "US Dollar", 2, 100, 100⟩⟩, true) (by decide +kernel)
  simp only [Prod.mk.injEq, decide_eq_true_eq] at hf
  obtain ⟨hk, hshown, hduring⟩ := hf
  obtain ⟨⟨path', p⟩, hduring⟩ := Option.isSome_iff_exists.mp hduring
  obtain ⟨log', h', hreplies'⟩ := Conversation.of_during hduring
  obtain ⟨x, hx, hreply⟩ : ∃ x ∈ log', x.reply? = some (.ok (-5)) :=
    List.mem_map.mp (by rw [hreplies']; simp [Turn.reply?])
  obtain ⟨s', rfl⟩ :=
    (view_negative run hk).2.2 _ _ log' path' p h' x hx (-5) (by decide) hreply
  exact ⟨w, past, log, path, v, s, log', path', s', run, hk, h, hreplies, hshown, h', hreplies'⟩

end WalletBudget
