import WalletBudget.Proofs.BudgetView
import WalletBudget.Proofs.CycleSearch
import WalletBudget.Proofs.ReservationMoment

/-!
What is displayed and what may be reserved.

The view clamps what is left of a cycle and scales it, and a reservation compares it with the hold.
Either may be the one that opens the cycle, and the other one finds that cycle, so with nothing in
between the two agree: a payment in sats is let through if and only if its hold is displayed to be
left.
-/

namespace WalletBudget

open Service

variable {policy : HoldPolicy} {k : Connection} {request : RequestId} {intent : Intent}
  {s t m : Service} {l : Limit} {c : Cycle} {left hold : Int} {now start : Instant} {a : Abort}
  {w : World} {past : List World}

theorem Currency.same_of_isSat {x y : Currency} (hx : x.isSat = true) (hy : y.isSat = true) :
    x.same y = true := by
  simp only [isSat, decide_eq_true_eq] at hx hy
  simp [same, hx, hy]

theorem BudgetView.msats_eq {sats : Int} (hsats : 0 ≤ sats) (hle : sats ≤ largestAmount / 1000) :
    msats sats = 1000 * sats := by
  simp only [msats, saturate, msatsPerSat, largestAmount, leastAmount] at *
  omega

namespace Service

/-! ### The view of a budget in sats -/

/-- A record that leads to an active limit is answered with it. -/
theorem activeLimit_active (hq : s.outages = []) (hl : s.store.activeLimit? k = some l) :
    activeLimit k s = .done (.ok (some l)) s := by
  obtain ⟨hp, hstored, -⟩ := Store.activeLimit?_stored hl
  rw [activeLimit_stored hq fun id hid => ?_, hl]
  exact ⟨l, by rw [← Option.some.inj (hp.symm.trans hid), hstored]⟩

theorem budgetView_sats (hq : s.outages = []) (hl : s.store.activeLimit? k = some l)
    (hsat : l.currency.isSat = true) {found : Except Abort Cycle}
    (hrun : currentCycle l s.clock s = .done found m) :
    budgetView k s = .done (match found with
      | .error a => .error a
      | .ok c => match c.available with
        | .error d => .error (.broken d)
        | .ok left => .ok (.inSats l c (max left 0))) m := by
  simp only [budgetView, Task.bind_run, activeLimit_active hq hl, Progress.bind_ok, Task.clock_run,
    hrun]
  cases found with
  | error a => rfl
  | ok c =>
    cases hleft : c.available with
    | error d => simp [hleft]
    | ok left => simp [hleft, hsat, BudgetView.inSats]

/-! ### The reservation of sats -/

/-- A payment in the currency of a cycle that is found and has not ended goes through if and only if
something is left in the cycle and its hold fits. -/
theorem reserve_found (policy : HoldPolicy) (request : RequestId) (hq : s.outages = [])
    (hl : s.store.activeLimit? k = some l)
    (hrun : currentCycle l s.clock s = .done (.ok c) m) (hm : m.outages = [])
    (hclock : m.clock = s.clock) (hstored : m.store.cycle? c.id = some c)
    (hlive : c.hasEnded s.clock = false) (hsame : intent.currency.same c.currency = true) :
    ∃ r t, reserve policy k request intent s = .done r t ∧ ((∃ p, r = .ok p) ↔
      ∃ left hold placed, c.available = .ok left ∧ 0 < left ∧
        policy.holdFor intent.amount = .ok (.ok hold) ∧ hold ≤ left ∧
        c.placeHold hold = .ok placed) := by
  have hissued : m.issue.outages = [] := hm
  simp only [reserve, attempts, reserveWithin, tryReserve, Task.bind_run, Task.clock_run,
    Progress.bind_ok, activeLimit_active hq hl, hrun]
  cases hleft : c.available with
  | error d => exact ⟨_, _, rfl, by simp⟩
  | ok left =>
    simp only [Task.sound_ok, Progress.bind_ok]
    by_cases hempty : left ≤ 0
    · simp only [hempty, if_true]
      refine ⟨_, _, rfl, ?_⟩
      simp
      omega
    simp only [hempty, if_false, Task.bind_run, price_same hsame, Progress.bind_ok]
    cases hhold : policy.holdFor intent.amount with
    | error d => exact ⟨_, _, rfl, by simp⟩
    | ok valid =>
      cases valid with
      | error e => exact ⟨_, _, rfl, by simp⟩
      | ok hold =>
        simp only [Task.sound_ok, Progress.bind_ok, Task.valid_ok, placeHold, Task.bind_run,
          Task.locked_quiet hm, Store.lockCycle, hstored, Task.clock_run, hclock, hlive,
          Bool.false_eq_true, if_false, hleft]
        by_cases hshort : left < hold
        · simp only [hshort, if_true]
          refine ⟨_, _, rfl, ?_⟩
          simp
          omega
        simp only [hshort, if_false, Task.bind_run, Task.newId_run, Progress.bind_ok]
        cases hplaced : c.placeHold hold with
        | error d => exact ⟨_, _, rfl, by simp [hplaced]⟩
        | ok placed =>
          simp only [Task.sound_ok, Progress.bind_ok, Task.tell_quiet hissued]
          refine ⟨_, _, rfl, ?_⟩
          simp [hplaced]
          omega

theorem reserve_failed (hq : s.outages = []) (hl : s.store.activeLimit? k = some l)
    (hrun : currentCycle l s.clock s = .done (.error a) m) :
    reserve policy k request intent s = .done (.error a) m := by
  simp only [reserve, attempts, reserveWithin, tryReserve, Task.bind_run, Task.clock_run,
    Progress.bind_ok, activeLimit_active hq hl, hrun]
  rfl

/-! ### The second search -/

/-- Whether a cycle can begin at a start does not depend on its identifier. -/
theorem createCycle_error {d : Defect} {id id' : CycleId} (h : l.createCycle id start = .error d) :
    l.createCycle id' start = .error d := by
  simp only [Limit.createCycle, bind, Except.bind, pure, Except.pure] at h ⊢
  repeat' split at h
  all_goals simp_all

theorem currentCycle_idle (hq : s.outages = [])
    (hidle : ∀ d, s.store.latestCycle? l.id = some d → d.hasEnded now = true)
    (hstart : l.periodStart now = .ok start) : currentCycle l now s = openCycle l start s := by
  simp only [currentCycle, Task.bind_run, Task.ask_quiet hq, Progress.bind_ok, hstart]
  cases hlatest : s.store.latestCycle? l.id with
  | none => rfl
  | some d =>
    simp only [hidle d hlatest, if_true]
    rfl

/-- A search that fails has written nothing, and fails again. -/
theorem currentCycle_failed (hs : Coherent s) (hrun : currentCycle l now s = .done (.error a) m) :
    m.store = s.store ∧ m.clock = s.clock ∧ m.outages = [] ∧
      ∃ u, currentCycle l now m = .done (.error a) u := by
  have hq := hs.quiet
  obtain ⟨r, t, hrun', hfound⟩ := currentCycle_found hq l now
  obtain ⟨rfl, rfl⟩ := Progress.done.inj (hrun'.symm.trans hrun)
  cases hfound with
  | lost start x hx hc =>
    obtain ⟨c, hstored, -⟩ := hs.indexCycle l.id start x hx
    rw [hc] at hstored
    cases hstored
  | noPeriod d => exact ⟨rfl, rfl, hq, _, hrun⟩
  | noCycle d start hstart hc =>
    have hidle : ∀ d, s.store.latestCycle? l.id = some d → d.hasEnded now = true := by
      intro d hd
      cases hlive : d.hasEnded now with
      | true => rfl
      | false =>
        rw [currentCycle_live hq hd hlive] at hrun
        cases hrun
    refine ⟨rfl, rfl, hq, s.issue.issue, ?_⟩
    have hquiet : s.issue.outages = [] := hq
    rw [currentCycle_idle hquiet hidle hstart]
    simp only [openCycle, Task.bind_run, Task.newId_run, Progress.bind_ok, createCycle_error hc]
    rfl

end Service

/-- What a search for an active limit has found in a steady run is a cycle in the limit's currency
that has not ended, and a second search at the same time finds it again. -/
theorem found_again (run : Run policy World.Steady (w :: past)) (hknown : Known w.service k)
    (hl : w.service.store.activeLimit? k = some l)
    (hfound : Found l w.service.clock w.service (.ok c) t) (ht : t.FreshIds) :
    c.currency = l.currency ∧ c.hasEnded w.service.clock = false ∧
      t.store.cycle? c.id = some c ∧
      currentCycle l w.service.clock t = .done (.ok c) t := by
  have hs := run.sound.coherent
  have htimely := reachable_timely run
  obtain ⟨-, hstored, hactive⟩ := Store.activeLimit?_stored hl
  obtain ⟨hleap, -⟩ := htimely.limits l.id l hstored
  have hopening := (Opening.refl w.service).found hknown hl hfound
  obtain ⟨htimely', hs'⟩ := htimely.opening hs hopening ht
  obtain ⟨hcycle, howner⟩ := hfound.cycle hs
  have hterms : c.currency = l.currency ∧ c.hasEnded w.service.clock = false := by
    cases hfound with
    | latest c hc hlive =>
      obtain ⟨hold, -⟩ := hs.latest hc
      exact ⟨(reachable_aligned run c.id c l hold (howner ▸ hstored)).currency, hlive⟩
    | opened c start _ hstart hc =>
      have hfields := Limit.createCycle_fields hc
      obtain ⟨finish, hfresh⟩ := createCycle_fresh hc
      refine ⟨by rw [hfresh]; rfl, Limit.live_at_start hleap w.service.plain ?_ ?_⟩
      · rw [hfields.start, hstart]
      · rw [hfields.start, hfields.finish]
    | taken c start x hidle hstart hx =>
      rw [startOf?_idle run hstored hactive hidle hstart] at hx
      cases hx
  obtain ⟨hcurrency, hlive⟩ := hterms
  have hlatest := htimely'.latest hs' hcycle (by rw [hopening.clock]; exact hlive)
  rw [howner] at hlatest
  exact ⟨hcurrency, hlive, hcycle, currentCycle_live hs'.quiet hlatest hlive⟩

/-- What fits a cycle is what is displayed to be left of it. A hold is never empty, so the gate for
cycles that are used up makes no difference. -/
theorem fits_as_displayed (hvalid : policy.validate = .ok ()) (hrange : c.InRange)
    (hleft : c.available = .ok left) (hmost : left ≤ largestAmount / 1000) {estimate : Int}
    (hpositive : 0 < estimate) :
    (∃ hold placed, 0 < left ∧ policy.holdFor estimate = .ok (.ok hold) ∧ hold ≤ left ∧
      c.placeHold hold = .ok placed) ↔
    ∃ hold, policy.holdFor estimate = .ok (.ok hold) ∧
      1000 * hold ≤ BudgetView.msats (max left 0) := by
  have hshown : BudgetView.msats (max left 0) = 1000 * max left 0 := by
    refine BudgetView.msats_eq (Int.le_max_right ..) ?_
    simp only [largestAmount] at hmost ⊢
    omega
  rw [hshown]
  constructor
  · rintro ⟨hold, placed, hsome, hhold, hfits, -⟩
    exact ⟨hold, hhold, by omega⟩
  · rintro ⟨hold, hhold, hfits⟩
    have hge := policy.estimate_le_hold hvalid (Int.le_of_lt hpositive) hhold
    have hle : hold ≤ left := by omega
    exact ⟨hold, _, by omega, hhold, hle, hrange.placeHold hleft (by omega) hle⟩

/-- In a steady run with a valid factor, a payment in sats on a budget in sats goes through behind
the view if and only if there is a hold for it and the view shows no less than that to remain. The
view answers but where what is left of a cycle is out of range, or
where the instants are too late for a period. -/
theorem gate_as_displayed (hvalid : policy.validate = .ok ())
    (run : Run policy World.Steady (w :: past))
    (hk : w.service.store.connection? k.id = some k)
    (hl : w.service.store.activeLimit? k = some l) (hsat : l.currency.isSat = true)
    (hamount : l.amount ≤ largestAmount / 1000) (request : RequestId)
    (hintent : intent.currency.isSat = true) :
    ∃ r s, budgetView k w.service = .done r s ∧
      (l.start.Readable → w.service.clock.Readable →
        (∃ v, r = .ok v) ∨ ∃ c ∈ s.store.cycles, c.available = .error .amountRange) ∧
      (s.FreshIds → ∃ r' t, reserve policy k request intent s = .done r' t ∧
        ((∃ p, r' = .ok p) ↔ ∃ v remaining hold, r = .ok v ∧
          v.remainingMsats = some remaining ∧
          policy.holdFor intent.amount = .ok (.ok hold) ∧ 1000 * hold ≤ remaining)) := by
  have hs := run.sound.coherent
  have htimely := reachable_timely run
  have hknown := hs.known hk
  obtain ⟨-, hstored, hactive⟩ := Store.activeLimit?_stored hl
  obtain ⟨hleap, -⟩ := htimely.limits l.id l hstored
  obtain ⟨found, m, hrun, hfound⟩ := currentCycle_found hs.quiet l w.service.clock
  have hopening := (Opening.refl w.service).found hknown hl hfound
  have hm : m.store.activeLimit? k = some l := by rw [hopening.activeLimit?, hl]
  have hquiet : m.outages = [] := hopening.quiet.trans hs.quiet
  refine ⟨_, m, budgetView_sats hs.quiet hl hsat hrun, fun hstart hread => ?_, fun hfresh => ?_⟩
  · obtain ⟨start, hsearch⟩ := run.searchable hstored hleap hstart w.service.plain hread
    obtain ⟨c, rfl⟩ := hsearch.answered hfound
    cases hleft : c.available with
    | ok left =>
      simp only [hleft]
      exact .inl ⟨_, rfl⟩
    | error d =>
      obtain rfl := Cycle.available_error hleft
      exact .inr ⟨c, Store.cycle?_mem (hfound.cycle hs).1, hleft⟩
  cases found with
  | error a =>
    obtain ⟨-, hclock, -, u, hagain⟩ := currentCycle_failed hs hrun
    exact ⟨.error a, u, reserve_failed hquiet hm (hclock ▸ hagain), by simp⟩
  | ok c =>
    obtain ⟨hcurrency, hlive, hcycle, hagain⟩ := found_again run hknown hl hfound hfresh
    rw [← hopening.clock] at hagain hlive
    obtain ⟨r, t, hreserve, hgate⟩ := reserve_found policy request hquiet hm hagain hquiet rfl
      hcycle hlive (Currency.same_of_isSat hintent (hcurrency ▸ hsat))
    refine ⟨r, t, hreserve, hgate.trans ?_⟩
    cases hleft : c.available with
    | error d => simp [hleft]
    | ok left =>
      have hmost := left_le_amount hvalid run hl hrun hleft
      have hrange := (reachable_ranged hvalid run).found hs hfound
      have hfits := fits_as_displayed hvalid hrange hleft (by omega) intent.amount_pos
      simpa [hleft, BudgetView.inSats] using hfits

/-- Of a hundred sats thirty were spent and ten are held, and then there are only sixty. Twenty are
shown to remain, which is room for a payment of twenty and not for one of twenty-one. -/
theorem gate_as_displayed_lowered : HoldPolicy.exact.validate = .ok () ∧
    ∃ w past l v s p t, Run .exact World.Steady (w :: past) ∧
      w.service.store.connection? Sample.connection.id = some Sample.connection ∧
      w.service.store.activeLimit? Sample.connection = some l ∧ l.currency.isSat = true ∧
      l.amount ≤ largestAmount / 1000 ∧
      budgetView Sample.connection w.service = .done (.ok v) s ∧
      v.remainingMsats = some 20000 ∧
      reserve .exact Sample.connection Sample.request (Sample.intent .sat 20) s =
        .done (.ok p) t ∧
      ∀ p t, reserve .exact Sample.connection Sample.request (Sample.intent .sat 21) s ≠
        .done (.ok p) t := by
  have hvalid : HoldPolicy.exact.validate = .ok () := by decide
  obtain ⟨w, past, run, hf⟩ := Run.reaches .exact World.Steady ⟨Sample.start, rfl⟩ Uuid.ofNat
    [ Sample.created,
      .call (.reserve Sample.connection Sample.request (Sample.intent .sat 30)),
      .call (.finalizeSuccess (Sample.payment 30) 30),
      .call (.reserve Sample.connection Sample.request (Sample.intent .sat 10)),
      .call (.updateLimit Sample.connection.id ⟨true, some 60, none, some .daily⟩ Sample.start) ]
    (fun w _ => (
      decide (w.service.store.connection? Sample.connection.id = some Sample.connection),
      (w.service.store.activeLimit? Sample.connection).map fun l : Limit =>
        (l.currency.isSat, decide (l.amount ≤ largestAmount / 1000)),
      (budgetView Sample.connection w.service).answer?.map fun a : BudgetView × Service =>
        (a.1.remainingMsats, decide a.2.FreshIds)))
    (true, some (true, true), some (some 20000, true))
    (by decide +kernel)
  simp only [Prod.mk.injEq, decide_eq_true_eq] at hf
  obtain ⟨hk, hlimit, hview⟩ := hf
  obtain ⟨l, hl, hterms⟩ := Option.map_eq_some_iff.mp hlimit
  obtain ⟨⟨v, s⟩, hanswer, hshown⟩ := Option.map_eq_some_iff.mp hview
  simp only [Prod.mk.injEq, decide_eq_true_eq] at hterms hshown
  obtain ⟨hsat, hamount⟩ := hterms
  obtain ⟨hremaining, hfresh⟩ := hshown
  have hrun := Progress.answer?_some hanswer
  have hgate : ∀ (n : Nat) [NeZero n], ∃ r t,
      reserve .exact Sample.connection Sample.request (Sample.intent .sat n) s = .done r t ∧
      ((∃ p, r = .ok p) ↔ ∃ hold, HoldPolicy.exact.holdFor n = .ok (.ok hold) ∧
        1000 * hold ≤ 20000) := by
    intro n _
    have hsats : (Sample.intent .sat n).currency.isSat = true := rfl
    obtain ⟨r, s', hrun', -, hgate⟩ :=
      gate_as_displayed hvalid run hk hl hsat hamount Sample.request hsats
    obtain ⟨rfl, rfl⟩ := Progress.done.inj (hrun'.symm.trans hrun)
    obtain ⟨r, t, hreserve, hiff⟩ := hgate hfresh
    refine ⟨r, t, hreserve, hiff.trans ?_⟩
    simp [hremaining, Sample.intent]
  obtain ⟨r, t, hreserve, hroom⟩ := hgate 20
  obtain ⟨p, rfl⟩ := hroom.mpr ⟨20, by decide +kernel, by decide⟩
  refine ⟨hvalid, w, past, l, v, s, p, t, run, hk, hl, hsat, hamount, hrun, hremaining,
    hreserve, fun q u hreserved => ?_⟩
  obtain ⟨r, t, hreserve, hroom⟩ := hgate 21
  rw [hreserved] at hreserve
  obtain ⟨rfl, rfl⟩ := Progress.done.inj hreserve
  obtain ⟨hold, hhold, hle⟩ := hroom.mp ⟨q, rfl⟩
  have hexact : HoldPolicy.exact.holdFor 21 = .ok (.ok 21) := by decide +kernel
  obtain rfl : 21 = hold := Except.ok.inj (Except.ok.inj (hexact.symm.trans hhold))
  omega

end WalletBudget
