import WalletBudget.Proofs.LiveCycle
import WalletBudget.Proofs.Periods
import WalletBudget.Proofs.RetiredLimit

/-!
The search for the cycle of a limit that an instant lies in.

Outside leap seconds it always comes to an answer, and the answer is the latest cycle of the limit
from then on, so a second search at the same instant ends with it and writes nothing. Where the
latest cycle has ended, no cycle starts behind the period of the instant: the period has no cycle
yet, or the latest cycle is the one of that period and was ended early.
-/

namespace WalletBudget

open Service

variable {policy : HoldPolicy} {rule : World → Event → Prop} {final : Prop} {now start u : Instant}
  {s t : Service} {l : Limit} {c d : Cycle} {w : World} {past : List World}

namespace Limit

theorem Starts.not_leap (hl : l.start.isLeap = false) (h : l.Starts start) :
    start.isLeap = false := by
  cases h with
  | first => exact hl
  | later period k _ _ _ hadd => exact Instant.add?_seconds_not_leap hl hadd

theorem Starts.limit_le (hl : l.start.isLeap = false) (h : l.Starts start) :
    l.start ≤ start := by
  cases h with
  | first => exact Instant.le_refl _
  | later period k _ hperiod _ hadd => exact start_le_boundary hl (period_pos hperiod) ⟨k, hadd⟩

/-- Every start of a cycle is the start of its own period. -/
theorem Starts.periodStart (hl : l.start.isLeap = false) (h : l.Starts start) :
    l.periodStart start = .ok start := by
  cases h with
  | first => exact l.periodStart_start
  | later period k _ hperiod _ hadd => exact periodStart_boundary hperiod hl ⟨k, hadd⟩

/-- A whole period from the start of the period of an instant on is not over at the instant. -/
theorem live_at_start (hl : l.start.isLeap = false) (hn : now.isLeap = false)
    (hstart : l.periodStart now = .ok c.start) (hfinish : c.finish = l.stop? c.start) :
    c.hasEnded now = false := by
  apply Bool.eq_false_iff.mpr
  intro hended
  obtain ⟨stop, hstop, hle⟩ := Cycle.hasEnded_iff.mp hended
  obtain ⟨period, hperiod, hadd⟩ := Option.bind_eq_some_iff.mp (hfinish.symm.trans hstop)
  exact Instant.not_le.mpr (before_next hperiod hl hn hstart hadd) hle

/-- A cycle that is over at an instant starts no later than the period of the instant. -/
theorem ended_start_le (hl : l.start.isLeap = false) (hn : now.isLeap = false) (hc : c.Fits l)
    (hended : c.hasEnded now = true) (hstart : l.periodStart now = .ok start) :
    c.start ≤ start := by
  obtain ⟨finish, hfinish, hle⟩ := Cycle.hasEnded_iff.mp hended
  have hbefore : c.start ≤ now := Instant.le_trans (hc.ordered finish hfinish) hle
  exact periodStart_mono hl (hc.starts.not_leap hl) hn hbefore (hc.starts.periodStart hl) hstart

end Limit

theorem Cycle.Fits.live_before (h : c.Fits l) (hlt : now < c.start) : c.hasEnded now = false := by
  apply Bool.eq_false_iff.mpr
  intro hended
  obtain ⟨finish, hfinish, hle⟩ := Cycle.hasEnded_iff.mp hended
  exact Instant.not_le.mpr hlt (Instant.le_trans (h.ordered finish hfinish) hle)

namespace Store

def opened (s : Store) (c : Cycle) : Store :=
  { s with
    cycles := s.cycles ++ [c]
    cycleStarts := s.cycleStarts ++ [⟨c.limit, c.start, c.id⟩] }

/-- A cycle that is added is the latest one unless another one starts behind it. -/
theorem latestCycle?_opened {s : Store}
    (h : ∀ d, s.latestCycle? c.limit = some d → d.start ≤ c.start) :
    (s.opened c).latestCycle? c.limit = some c := by
  unfold latestCycle? at h ⊢
  simp only [opened, List.filter_append, List.foldl_append, List.filter_cons, decide_true, if_true,
    List.filter_nil, List.foldl_cons, List.foldl_nil]
  cases hlatest : (s.cycles.filter fun d => d.limit = c.limit).foldl laterCycle none with
  | none => rfl
  | some d => simp only [laterCycle, h d hlatest, if_true]

end Store

namespace Service

/-- A latest cycle that has not ended is the answer, and nothing is written. -/
theorem currentCycle_live (hq : s.outages = []) (hc : s.store.latestCycle? l.id = some c)
    (hlive : c.hasEnded now = false) : currentCycle l now s = .done (.ok c) s := by
  simp only [currentCycle, Task.bind_run, Task.ask_quiet hq, Progress.bind_ok, hc, hlive,
    Bool.false_eq_true, if_false]
  rfl

/-- A stored limit and an instant, both outside leap seconds, with the start of the period of the
instant, where a cycle can begin. -/
structure Searchable (l : Limit) (now start : Instant) (s : Service) : Prop where
  coherent : Coherent s
  aligned : Aligned s
  stored : s.store.limit? l.id = some l
  limitCalm : l.start.isLeap = false
  nowCalm : now.isLeap = false
  period : l.periodStart now = .ok start
  creates : ∀ id, ∃ c, l.createCycle id start = .ok c

/-- What a search has come to with its answer. -/
structure Settles (l : Limit) (now : Instant) (s : Service) (c : Cycle) (t : Service) : Prop where
  /-- The answer is the only row that may be new. -/
  writes : t.store = s.store ∨ t.store = s.store.opened c ∧ s.store.cycle? c.id = none
  latest : t.store.latestCycle? l.id = some c
  /-- A second search has the same answer and writes nothing. -/
  again : ∃ v, currentCycle l now t = .done (.ok c) v ∧ v.store = t.store

def Ahead (s : Service) (l : Limit) (now : Instant) : Prop :=
  ∃ id d, s.store.cycle? id = some d ∧ d.limit = l.id ∧ now < d.start

namespace Searchable

theorem issue (h : Searchable l now start s) : Searchable l now start s.issue where
  coherent := h.coherent.issue
  aligned := h.aligned
  stored := h.stored
  limitCalm := h.limitCalm
  nowCalm := h.nowCalm
  period := h.period
  creates := h.creates

theorem answered (h : Searchable l now start s) {r : Except Abort Cycle}
    (hfound : Found l now s r t) : ∃ c, r = .ok c := by
  cases hfound with
  | latest c => exact ⟨c, rfl⟩
  | opened c => exact ⟨c, rfl⟩
  | taken c => exact ⟨c, rfl⟩
  | lost first x hx hc =>
    obtain ⟨c, hstored, -⟩ := h.coherent.indexCycle l.id first x hx
    rw [hc] at hstored
    cases hstored
  | noPeriod e he =>
    rw [h.period] at he
    cases he
  | noCycle e first hfirst he =>
    obtain rfl : start = first := Except.ok.inj (h.period.symm.trans hfirst)
    obtain ⟨c, hc⟩ := h.creates ⟨s.next⟩
    rw [hc] at he
    cases he

/-- Where the latest cycle has ended, none starts behind the period. -/
theorem latest_le (h : Searchable l now start s)
    (hidle : ∀ d, s.store.latestCycle? l.id = some d → d.hasEnded now = true)
    (hd : s.store.latestCycle? l.id = some d) : d.start ≤ start := by
  obtain ⟨hstored, howner, -⟩ := h.coherent.latest hd
  have hfits := h.aligned d.id d l hstored (howner ▸ h.stored)
  exact Limit.ended_start_le h.limitCalm h.nowCalm hfits (hidle d hd) h.period

/-- A cycle that is opened is the latest one from then on, and it has not ended. -/
theorem opened (h : Searchable l now start s)
    (hidle : ∀ d, s.store.latestCycle? l.id = some d → d.hasEnded now = true)
    (hc : l.createCycle ⟨s.next⟩ start = .ok c) (hfree : s.store.startOf? l.id start = none)
    (ht : s.issue.FreshIds) :
    Settles l now s c (s.issue.write ((s.store.indexCycle c).fileCycle c)) := by
  obtain ⟨hid, hlimit, hbegin, hfinish, -⟩ := Limit.createCycle_fields hc
  have hnew : s.store.cycle? c.id = none := h.coherent.newCycle ht hid
  have hopened : (s.store.indexCycle c).fileCycle c = s.store.opened c :=
    Store.openCycle_new hnew (by rw [hlimit, hbegin, hfree])
  have hlatest : (s.store.opened c).latestCycle? l.id = some c := by
    rw [← hlimit]
    apply Store.latestCycle?_opened
    intro d hd
    rw [hlimit] at hd
    rw [hbegin]
    exact h.latest_le hidle hd
  have hlive : c.hasEnded now = false :=
    Limit.live_at_start h.limitCalm h.nowCalm (hbegin ▸ h.period) (hbegin ▸ hfinish)
  have hquiet : (s.issue.write (s.store.opened c)).outages = [] := h.coherent.quiet
  rw [hopened]
  exact ⟨.inr ⟨rfl, hnew⟩, hlatest, _, currentCycle_live hquiet hlatest hlive, rfl⟩

/-- A cycle of the period that was ended early is the latest one of the limit. -/
theorem taken_latest (h : Searchable l now start s)
    (hidle : ∀ d, s.store.latestCycle? l.id = some d → d.hasEnded now = true) {x : CycleStart}
    (hx : s.store.startOf? l.id start = some x) (hc : s.store.cycle? x.cycle = some c) :
    s.store.latestCycle? l.id = some c := by
  obtain ⟨c', hc', howner, hbegin⟩ := h.coherent.indexCycle l.id start x hx
  obtain rfl : c = c' := Option.some.inj (hc.symm.trans hc')
  cases hlatest : s.store.latestCycle? l.id with
  | none => exact absurd howner (Store.latestCycle?_none hlatest c (Store.cycle?_mem hc))
  | some d =>
    obtain ⟨hstored, hlimit, hlast⟩ := h.coherent.latest hlatest
    have hle := h.latest_le hidle hlatest
    have hsame : d.start = c.start :=
      Instant.le_antisymm (hbegin ▸ hle) (hlast x.cycle c hc howner)
    have hmem := Store.cycle?_mem hstored
    rw [h.coherent.cycle_eq hmem (Store.cycle?_mem hc) (hlimit.trans howner.symm) hsame]

/-- A second search comes to the same cycle by the same way. -/
theorem taken (h : Searchable l now start s)
    (hidle : ∀ d, s.store.latestCycle? l.id = some d → d.hasEnded now = true) {x : CycleStart}
    (hx : s.store.startOf? l.id start = some x) (hc : s.store.cycle? x.cycle = some c) :
    Settles l now s c s.issue := by
  have hlatest := h.taken_latest hidle hx hc
  obtain ⟨r, v, hrun, hfound⟩ := currentCycle_found h.issue.coherent.quiet l now
  obtain ⟨e, rfl⟩ := h.issue.answered hfound
  refine ⟨.inl rfl, hlatest, v, ?_⟩
  rw [hrun]
  cases hfound with
  | latest _ he =>
    obtain rfl : e = c := Option.some.inj (he.symm.trans hlatest)
    exact ⟨rfl, rfl⟩
  | opened _ first _ hfirst _ hfree =>
    obtain rfl : start = first := Except.ok.inj (h.period.symm.trans hfirst)
    rw [issue_store, hx] at hfree
    cases hfree
  | taken _ first y _ hfirst hy he =>
    obtain rfl : start = first := Except.ok.inj (h.period.symm.trans hfirst)
    obtain rfl : x = y := Option.some.inj (hx.symm.trans hy)
    obtain rfl : e = c := Option.some.inj (he.symm.trans hc)
    exact ⟨rfl, rfl⟩

/-- Where the latest cycle has ended, no cycle starts behind the instant. -/
theorem not_ahead (h : Searchable l now start s)
    (hidle : ∀ d, s.store.latestCycle? l.id = some d → d.hasEnded now = true) :
    ¬ s.Ahead l now := by
  rintro ⟨id, d, hd, howner, hlt⟩
  cases hlatest : s.store.latestCycle? l.id with
  | none => exact Store.latestCycle?_none hlatest d (Store.cycle?_mem hd) howner
  | some e =>
    obtain ⟨hstored, hlimit, hlast⟩ := h.coherent.latest hlatest
    have hfits := h.aligned e.id e l hstored (hlimit ▸ h.stored)
    have hbehind : now < e.start := Instant.lt_of_lt_of_le hlt (hlast id d hd howner)
    have hended := hidle e hlatest
    rw [hfits.live_before hbehind] at hended
    cases hended

/-- The answer of a search for an active limit has not ended. It starts behind the instant only
where the limit does, or a cycle that was there before. -/
theorem current (h : Searchable l now start s) (hactive : l.isActive = true)
    (hfound : Found l now s (.ok c) t) :
    c.hasEnded now = false ∧ (now < c.start ↔ now < l.start ∨ s.Ahead l now) := by
  have hcalm := h.limitCalm
  have hn := h.nowCalm
  -- The answer is the cycle of the period, where the latest one has ended.
  have hperiod : (∀ d, s.store.latestCycle? l.id = some d → d.hasEnded now = true) →
      c.start = start → c.finish = l.stop? start →
        c.hasEnded now = false ∧ (now < c.start ↔ now < l.start ∨ s.Ahead l now) := by
    intro hidle hbegin hfinish
    refine ⟨Limit.live_at_start hcalm hn (hbegin ▸ h.period) (hbegin ▸ hfinish), ?_⟩
    rw [hbegin]
    constructor
    · intro hlt
      refine .inl (Instant.not_le.mp fun hbegun => Instant.not_le.mpr hlt ?_)
      rw [← Instant.later_eq hbegun]
      exact (Limit.periodStart_le hcalm hn h.period).2
    · intro hbehind
      have hlt := hbehind.resolve_right (h.not_ahead hidle)
      rw [← Except.ok.inj ((Limit.periodStart_early hlt).symm.trans h.period)]
      exact hlt
  cases hfound with
  | latest _ hc hlive =>
    obtain ⟨hstored, howner, hlast⟩ := h.coherent.latest hc
    have hfits := h.aligned c.id c l hstored (howner ▸ h.stored)
    refine ⟨hlive, fun hlt => .inr ⟨c.id, c, hstored, howner, hlt⟩, ?_⟩
    rintro (hlt | ⟨id, d, hd, hlimit, hlt⟩)
    · exact Instant.lt_of_lt_of_le hlt (hfits.starts.limit_le hcalm)
    · exact Instant.lt_of_lt_of_le hlt (hlast id d hd hlimit)
  | opened _ first hidle hfirst hc =>
    obtain rfl : start = first := Except.ok.inj (h.period.symm.trans hfirst)
    have hfields := Limit.createCycle_fields hc
    exact hperiod hidle hfields.start hfields.finish
  | taken _ first x hidle hfirst hx hc =>
    obtain rfl : start = first := Except.ok.inj (h.period.symm.trans hfirst)
    obtain ⟨c', hc', howner, hbegin⟩ := h.coherent.indexCycle l.id start x hx
    obtain rfl : c = c' := Option.some.inj (hc.symm.trans hc')
    have hfits := h.aligned x.cycle c l hc (howner ▸ h.stored)
    exact hperiod hidle hbegin (hbegin ▸ hfits.whole hactive)

/-- An answered search has settled which cycle is the current one. -/
theorem settles (h : Searchable l now start s) (hfound : Found l now s (.ok c) t)
    (ht : t.FreshIds) : Settles l now s c t := by
  cases hfound with
  | latest _ hc hlive =>
    exact ⟨.inl rfl, hc, s, currentCycle_live h.coherent.quiet hc hlive, rfl⟩
  | opened _ first hidle hfirst hc hfree =>
    obtain rfl : start = first := Except.ok.inj (h.period.symm.trans hfirst)
    exact h.opened hidle hc hfree ht
  | taken _ first x hidle hfirst hx hc =>
    obtain rfl : start = first := Except.ok.inj (h.period.symm.trans hfirst)
    exact h.taken hidle hx hc

end Searchable

/-- No limit and no cycle starts behind an instant, where a leap second counts as the first part of
the next second. -/
structure Begun (now : Instant) (s : Service) : Prop where
  limits : ∀ id l, s.store.limit? id = some l → l.start.count ≤ now.count
  cycles : ∀ id c, s.store.cycle? id = some c → c.start.count ≤ now.count

end Service

/-- Seen from outside leap seconds a duration is never longer than what is counted. -/
theorem Instant.since_le {a b : Instant} (hb : b.isLeap = false) :
    a.since b ≤ a.count - b.count := by
  have hcast : ((nanosPerSecond : Nat) : Int) = 1000000000 := rfl
  simp only [since, hb, count, hcast, Bool.false_eq_true, if_false]
  repeat' split
  all_goals omega

/-- A cycle starts no later, as counted, than it is opened, unless it starts with its limit. -/
theorem Limit.start_counted (hstart : l.periodStart u = .ok start) (hstarts : l.Starts start)
    (hl : l.start.count ≤ now.count) (hu : u.count ≤ now.count) : start.count ≤ now.count := by
  by_cases hfirst : start = l.start
  · rw [hfirst]
    exact hl
  have hcalm : l.start.isLeap = false := hstarts.leap.resolve_left hfirst
  unfold periodStart at hstart
  cases hperiod : l.frequency.period? with
  | none =>
    simp only [hperiod] at hstart
    exact absurd (Except.ok.inj hstart).symm hfirst
  | some period =>
    simp only [hperiod] at hstart
    by_cases hlt : l.start < u
    · rw [if_pos hlt] at hstart
      obtain ⟨hsecs, hnanos⟩ := Instant.add?_seconds hcalm (orDefect_ok hstart)
      have hpos := period_pos hperiod
      have hpassed : 0 ≤ u.since l.start := by
        simpa using Instant.le_since (m := 0) (t := l.start) hcalm rfl (Int.add_zero _).symm rfl
          (Instant.le_of_lt hlt)
      have hmost := Instant.since_le (a := u) hcalm
      rw [Instant.wholeSeconds_of_nonneg hpassed,
        Int.tdiv_eq_ediv_of_nonneg (Int.ediv_nonneg hpassed (by decide))] at hsecs
      have hfloor := Int.ediv_mul_le (u.since l.start / 1000000000) (Int.ne_of_gt hpos)
      simp only [Instant.count, hsecs, hnanos] at hmost hu ⊢
      omega
    · rw [if_neg hlt] at hstart
      exact absurd (Except.ok.inj hstart).symm hfirst

namespace Service.Begun

theorem write (hs : Coherent s) (h : Begun now s) (hw : Write final u s t)
    (hu : u.count ≤ now.count) : Begun now t := by
  cases hw with
  | begin l _ _ hstart =>
    refine ⟨Store.forall_fileLimit h.limits ?_, h.cycles⟩
    rw [hstart]
    exact hu
  | reprice l amount hl => exact ⟨Store.forall_fileLimit h.limits (h.limits l.id l hl), h.cycles⟩
  | repriceLive l c amount hl _ _ hc =>
    obtain ⟨hstored, -⟩ := hs.latest hc
    exact ⟨Store.forall_fileLimit h.limits (h.limits l.id l hl),
      Store.forall_fileCycle h.cycles (h.cycles c.id c hstored)⟩
  | retire l hl =>
    refine ⟨Store.forall_fileLimit h.limits ?_, h.cycles⟩
    rw [(deactivate_follows l u).start]
    exact h.limits l.id l hl
  | close l c hl _ hc =>
    obtain ⟨hstored, -⟩ := hs.latest hc
    constructor
    · apply Store.forall_fileLimit h.limits
      rw [(deactivate_follows l u).start]
      exact h.limits l.id l hl
    · apply Store.forall_fileCycle (s := s.store.fileLimit (l.deactivate u)) h.cycles
      rw [(endAt_follows c u).start]
      exact h.cycles c.id c hstored
  | opened l c start hl _ _ hstart hc =>
    refine ⟨h.limits, Store.forall_fileCycle h.cycles ?_⟩
    rw [(Limit.createCycle_fields hc).start]
    exact Limit.start_counted hstart (Limit.starts_of_createCycle hstart hc)
      (h.limits l.id l hl) hu
  | issue => exact ⟨h.limits, h.cycles⟩
  | connect => exact ⟨h.limits, h.cycles⟩
  | point => exact ⟨h.limits, h.cycles⟩
  | record => exact ⟨h.limits, h.cycles⟩
  | complete => exact ⟨h.limits, h.cycles⟩

theorem moved (h : Begun now s) (hm : Moved s t c d) : Begun now t where
  limits id l hl := h.limits id l (by rwa [hm.limits] at hl)
  cycles id e he := by
    rw [hm.cycles] at he
    split at he
    · obtain rfl := Option.some.inj he
      rw [hm.totals]
      exact h.cycles c.id c hm.stored
    · exact h.cycles id e he

/-- Neither the limit nor a cycle of it starts behind the instant then. -/
theorem not_behind (h : Begun now s) (hsearch : Searchable l now start s) :
    ¬ (now < l.start ∨ s.Ahead l now) := by
  have hcalm := hsearch.limitCalm
  have hn := hsearch.nowCalm
  rintro (hlt | ⟨id, d, hd, howner, hlt⟩)
  · have hle := (Instant.le_iff_count hcalm hn).mpr (h.limits l.id l hsearch.stored)
    exact Instant.not_le.mpr hlt hle
  · have hfits := hsearch.aligned id d l hd (howner ▸ hsearch.stored)
    have hle := (Instant.le_iff_count (hfits.starts.not_leap hcalm) hn).mpr (h.cycles id d hd)
    exact Instant.not_le.mpr hlt hle

end Service.Begun

/-- An event that writes anything takes an instant for now that counts as no later than this one. -/
def World.Until (policy : HoldPolicy) (now : Instant) (w : World) (e : Event) : Prop :=
  ∀ w', w.step policy e = some w' → w'.service.store ≠ w.service.store →
    (w.now e).count ≤ now.count

theorem reachable_begun (run : Run policy rule (w :: past))
    (hrule : ∀ v e, rule v e → v.Until policy now e) : Begun now w.service := by
  induction run using Run.lastInduction with
  | start clock ids scan =>
    constructor
    · intro _ _ h
      cases h
    · intro _ _ h
      cases h
  | @step v w past e run hkept hstep hfresh ih =>
    by_cases hsame : w.service.store = v.service.store
    · exact ⟨hsame ▸ ih.limits, hsame ▸ ih.cycles⟩
    · have hcounted := hrule v e hkept w hstep hsame
      obtain ⟨-, ⟨time, -, htick⟩ | hstretch⟩ := run.sound.advance hstep hfresh
      · exact absurd (congrArg Service.store htick) hsame
      · exact hstretch.keepsMoved run.sound.coherent hfresh ih
          (fun a b ha hw _ h => h.write ha hw hcounted) fun m c d hm h => h.moved hm

theorem Run.searchable (run : Run policy rule (w :: past))
    (hl : w.service.store.limit? l.id = some l) (hcalm : l.start.isLeap = false)
    (hstart : l.start.Readable) (hn : now.isLeap = false) (hread : now.Readable) :
    ∃ start, Searchable l now start w.service := by
  obtain ⟨start, hperiod⟩ := Limit.periodStart_total hcalm hn hread
  exact ⟨start, run.sound.coherent, reachable_aligned run, hl, hcalm, hn, hperiod,
    Limit.createCycle_periodStart hcalm hstart hn hread hperiod⟩

/-- The search for the cycle of a stored limit, active or not, comes to an answer. It adds one cycle
at most, and a second search at the same instant has the same answer and writes nothing. The cycle
of an active limit has not ended then. It has started unless the limit or a cycle of it starts
behind the instant, and none does where no event that wrote anything was behind the instant. -/
theorem current_cycle_settled (run : Run policy rule (w :: past))
    (hl : w.service.store.limit? l.id = some l) (hcalm : l.start.isLeap = false)
    (hstart : l.start.Readable) (hn : now.isLeap = false) (hread : now.Readable) :
    ∃ c t, currentCycle l now w.service = .done (.ok c) t ∧ (t.FreshIds →
      Settles l now w.service c t ∧
      (l.isActive = true → c.hasEnded now = false ∧
        (now < c.start ↔ now < l.start ∨ w.service.Ahead l now) ∧
        ((∀ v e, rule v e → v.Until policy now e) → c.start ≤ now))) := by
  obtain ⟨start, hsearch⟩ := run.searchable hl hcalm hstart hn hread
  obtain ⟨r, t, hrun, hfound⟩ := currentCycle_found hsearch.coherent.quiet l now
  obtain ⟨c, rfl⟩ := hsearch.answered hfound
  refine ⟨c, t, hrun, fun ht => ⟨hsearch.settles hfound ht, ?_⟩⟩
  intro hactive
  obtain ⟨hlive, hbehind⟩ := hsearch.current hactive hfound
  refine ⟨hlive, hbehind, fun hrule => Instant.not_lt.mp fun hlt => ?_⟩
  exact (reachable_begun run hrule).not_behind hsearch (hbehind.mp hlt)

/-- Three tenths of a second into the first day, inside the last second of the fifth, one tenth of a
second into the sixth, and its noon. -/
def Sample.lateStart : Instant :=
  { Sample.start with nanos := 300000000, nanos_lt := by decide }

def Sample.leapSecond : Instant := ⟨1704499199, 1500000000, by decide, by decide, by decide⟩

def Sample.sixthDay : Instant := ⟨1704499200, 100000000, by decide, by decide, by decide⟩

def Sample.sixthNoon : Instant :=
  { Sample.start with secs := 1704542400, first_le := by decide, le_last := by decide }

/-- A search inside the leap second before the sixth day opens the cycle of that day. The first
tenth of a second of the day is behind the leap second and before that cycle, which is still what a
search finds there. At noon the cycle has started. -/
theorem current_cycle_settled_ahead :
    ∃ w past c t c' t', Run .exact (fun v e => v.now e ≤ Sample.sixthDay ∧
        (v.now e).count ≤ Sample.sixthNoon.count) (w :: past) ∧
      w.service.store.limit? ⟨Uuid.ofNat 1⟩ = some (Sample.daily Sample.lateStart) ∧
      currentCycle (Sample.daily Sample.lateStart) Sample.sixthDay w.service = .done (.ok c) t ∧
      Settles (Sample.daily Sample.lateStart) Sample.sixthDay w.service c t ∧
      Sample.sixthDay < c.start ∧
      currentCycle (Sample.daily Sample.lateStart) Sample.sixthNoon w.service =
        .done (.ok c') t' ∧
      c'.start ≤ Sample.sixthNoon ∧ c'.hasEnded Sample.sixthNoon = false := by
  obtain ⟨w, past, run, hf⟩ := Run.reaches .exact
    (fun v e => v.now e ≤ Sample.sixthDay ∧ (v.now e).count ≤ Sample.sixthNoon.count)
    ⟨Sample.lateStart, rfl⟩ Uuid.ofNat
    [ .call (.createConnection .sat none (some ⟨true, some 100, none, some .daily⟩)
        Sample.lateStart),
      .call (.currentCycle (Sample.daily Sample.lateStart) Sample.leapSecond) ]
    (fun w _ => decide (
      w.service.store.limit? ⟨Uuid.ofNat 1⟩ = some (Sample.daily Sample.lateStart) ∧
      (w.service.store.cycle? ⟨Uuid.ofNat 3⟩).map (fun d =>
        decide (d.limit = ⟨Uuid.ofNat 1⟩ ∧ Sample.sixthDay < d.start)) = some true ∧
      (currentCycle (Sample.daily Sample.lateStart) Sample.sixthDay w.service).service.FreshIds ∧
      (currentCycle (Sample.daily Sample.lateStart) Sample.sixthNoon w.service).service.FreshIds))
    true (by decide +kernel)
  obtain ⟨hl, hahead, hfresh, hfresh'⟩ := of_decide_eq_true hf
  obtain ⟨d, hd, hahead⟩ := Option.map_eq_some_iff.mp hahead
  obtain ⟨howner, hlt⟩ := of_decide_eq_true hahead
  have hstart : Sample.lateStart.Readable := ⟨"2024-01-01T00:00:00.3Z", by decide +kernel⟩
  have hday : Sample.sixthDay.Readable := ⟨"2024-01-06T00:00:00.1Z", by decide +kernel⟩
  have hnoon : Sample.sixthNoon.Readable := ⟨"2024-01-06T12:00:00Z", by decide +kernel⟩
  obtain ⟨c, t, hrun, hsettled⟩ :=
    current_cycle_settled (l := Sample.daily Sample.lateStart) run hl rfl hstart rfl hday
  obtain ⟨c', t', hrun', hsettled'⟩ :=
    current_cycle_settled (l := Sample.daily Sample.lateStart) run hl rfl hstart rfl hnoon
  rw [hrun] at hfresh
  rw [hrun'] at hfresh'
  obtain ⟨hsettles, hcurrent⟩ := hsettled hfresh
  obtain ⟨-, hcurrent'⟩ := hsettled' hfresh'
  obtain ⟨-, hbehind, -⟩ := hcurrent rfl
  obtain ⟨hlive, -, hbegun⟩ := hcurrent' rfl
  exact ⟨w, past, c, t, c', t', run, hl, hrun, hsettles, hbehind.mpr (.inr ⟨_, d, hd, howner, hlt⟩),
    hrun', hbegun fun _ _ hkept _ _ _ => hkept.2, hlive⟩

end WalletBudget
