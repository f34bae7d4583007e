import WalletBudget.Proofs.RowWrite
import WalletBudget.Service.Finalize
import WalletBudget.Service.LimitChange
import WalletBudget.Service.Reserve

/-!
The writes of the operations, each with all that was checked before it.

A stretch of work writes limits, cycles, connections and payments without a budget. At its end it
may move money once: place a hold, or end a payment that has one.
-/

namespace WalletBudget

theorem checkedAmount_ok {n m : Int} (h : checkedAmount n = .ok m) : m = n := by
  simp only [checkedAmount] at h
  split at h
  · cases h
    rfl
  · cases h

theorem checkedAmount_range {n m : Int} (h : checkedAmount n = .ok m) : inRange n = true := by
  simp only [checkedAmount] at h
  split at h
  · assumption
  · cases h

theorem checkedAmount_error {n : Int} {d : Defect} (h : checkedAmount n = .error d) :
    d = .amountRange := by
  simp only [checkedAmount] at h
  split at h
  · cases h
  · cases h
    rfl

namespace Cycle

variable {c c' : Cycle} {hold settled left : Int} {d : Defect}

theorem available_ok (h : c.available = .ok left) : left = c.limitAmount - c.spent - c.held := by
  simp only [available, bind, Except.bind] at h
  split at h
  · cases h
  · rename_i first hfirst
    rw [checkedAmount_ok h, checkedAmount_ok hfirst]

theorem placeHold_ok (h : c.placeHold hold = .ok c') : c' = { c with held := c.held + hold } := by
  simp only [placeHold, bind, Except.bind] at h
  split at h
  · cases h
  · rename_i sum hsum
    cases h
    rw [checkedAmount_ok hsum]

theorem available_error (h : c.available = .error d) : d = .amountRange := by
  simp only [available, bind, Except.bind] at h
  split at h
  · rename_i hfirst
    cases h
    exact checkedAmount_error hfirst
  · exact checkedAmount_error h

theorem placeHold_range (h : c.placeHold hold = .ok c') : inRange (c.held + hold) = true := by
  simp only [placeHold, bind, Except.bind] at h
  split at h
  · cases h
  · rename_i hsum
    exact checkedAmount_range hsum

theorem placeHold_error (h : c.placeHold hold = .error d) : d = .amountRange := by
  simp only [placeHold, bind, Except.bind] at h
  split at h
  · rename_i hsum
    cases h
    exact checkedAmount_error hsum
  · cases h

theorem releaseHold_ok (h : c.releaseHold hold = .ok c') :
    c' = { c with held := max (c.held - hold) 0 } := by
  simp only [releaseHold, bind, Except.bind] at h
  split at h
  · cases h
  · rename_i rest hrest
    cases h
    rw [checkedAmount_ok hrest]

theorem settle_ok (h : c.settle hold settled = .ok c') :
    c' = { c with held := max (c.held - hold) 0, spent := c.spent + settled } := by
  simp only [settle, bind, Except.bind] at h
  split at h
  · cases h
  · rename_i released hreleased
    split at h
    · cases h
    · rename_i sum hsum
      cases h
      rw [checkedAmount_ok hsum, releaseHold_ok hreleased]

end Cycle

namespace Service

variable {policy : HoldPolicy} {final : Prop} {now : Instant} {s t u : Service}

/-- What is written without moving money. Times in it are what the operation takes for now. Where
ended limits are final none of them is given another cycle. -/
inductive Write (final : Prop) (now : Instant) (s : Service) : Service → Prop
  | issue : Write final now s s.issue
  | connect (k : Connection) (hid : k.id = ⟨s.next⟩) (hnone : k.limit = none) :
    Write final now s (s.issue.write (s.store.saveConnection k))
  | point (k : Connection) (limit : Option LimitId) (hk : s.store.connection? k.id = some k)
      (htarget : ∀ id, limit = some id → ∃ l, s.store.limit? id = some l ∧ l.connection = k.id)
      (hleft : ∀ id l, k.limit = some id → s.store.limit? id = some l → l.isActive = false) :
    Write final now s (s.write (s.store.saveConnection { k with limit }))
  | begin (l : Limit) (hid : l.id = ⟨s.next⟩) (hactive : l.isActive = true) (hstart : l.start = now)
      (hamount : 0 < l.amount) : Write final now s (s.issue.write (s.store.fileLimit l))
  | reprice (l : Limit) (amount : Int) (hl : s.store.limit? l.id = some l)
      (hactive : l.isActive = true) (hamount : 0 < amount)
      (hidle : ∀ c, s.store.latestCycle? l.id = some c → c.hasEnded now = true) :
    Write final now s (s.write (s.store.fileLimit { l with amount }))
  | repriceLive (l : Limit) (c : Cycle) (amount : Int) (hl : s.store.limit? l.id = some l)
      (hactive : l.isActive = true) (hamount : 0 < amount)
      (hc : s.store.latestCycle? l.id = some c) (hlive : c.hasEnded now = false) :
    Write final now s (s.write
      ((s.store.fileCycle { c with limitAmount := amount }).fileLimit { l with amount }))
  | retire (l : Limit) (hl : s.store.limit? l.id = some l) (hactive : l.isActive = true)
      (hidle : ∀ c, s.store.latestCycle? l.id = some c → c.hasEnded now = true) :
    Write final now s (s.write (s.store.fileLimit (l.deactivate now)))
  | close (l : Limit) (c : Cycle) (hl : s.store.limit? l.id = some l) (hactive : l.isActive = true)
      (hc : s.store.latestCycle? l.id = some c) (hlive : c.hasEnded now = false) :
    Write final now s (s.write ((s.store.fileLimit (l.deactivate now)).fileCycle (c.endAt now)))
  | opened (l : Limit) (c : Cycle) (start : Instant) (hl : s.store.limit? l.id = some l)
      (hactive : final → l.isActive = true)
      (hidle : ∀ d, s.store.latestCycle? l.id = some d → d.hasEnded now = true)
      (hstart : l.periodStart now = .ok start) (hc : l.createCycle ⟨s.next⟩ start = .ok c)
      (hfree : s.store.startOf? l.id start = none) :
    Write final now s (s.issue.write ((s.store.indexCycle c).fileCycle c))
  | record (p : Payment) (hid : p.id = ⟨s.next⟩) (hpending : p.status = .pending)
      (hnone : p.cycle = none) (hcore : p = p.core) :
    Write final now s (s.issue.write (s.store.filePayment p))
  | complete (e : Ending) (p : Payment) (hp : s.store.payment? p.id = some p)
      (hpending : p.status = .pending) (hnone : p.cycle = none)
      (hcost : ∀ settled, e = .success settled → 0 ≤ settled) :
    Write final now s (s.write (s.store.filePayment (e.mark p now)))

/-- A hold of a new payment on a cycle that had not ended at the clock and had room for it. -/
structure Placed (policy : HoldPolicy) (s : Service) (c : Cycle) (p : Payment) (hold : Int)
    (t : Service) : Prop where
  cycle : s.store.cycle? c.id = some c
  live : c.hasEnded s.clock = false
  room : hold ≤ c.limitAmount - c.spent - c.held
  id : p.id = ⟨s.next⟩
  pending : p.status = .pending
  core : p = p.core
  linked : p.cycle = some c.id
  held : p.hold = some hold
  priced : ∃ estimate, p.estimate = some estimate ∧ policy.holdFor estimate = .ok (.ok hold) ∧
    0 ≤ estimate
  positive : 0 < p.sendingAmount
  written : t = s.issue.write
    ((s.store.fileCycle { c with held := c.held + hold }).filePayment p)
  range : inRange (c.held + hold) = true
  currency : p.budgetCurrency = some c.currency
  agreed : t.FreshIds → p.sendingCurrency.same c.currency = true →
    p.estimate = some p.sendingAmount
  owner : t.FreshIds → ∃ l, s.store.limit? c.limit = some l ∧ l.connection = p.connection

/-- The end of a pending payment, with its share in its cycle. -/
structure Ended (e : Ending) (now : Instant) (s : Service) (c : Cycle) (p : Payment) (c' : Cycle)
    (t : Service) : Prop where
  cycle : s.store.cycle? c.id = some c
  payment : s.store.payment? p.id = some p
  linked : p.cycle = some c.id
  pending : p.status = .pending
  cost : ∀ settled, e = .success settled → 0 ≤ settled
  applied : e.apply c (p.hold.getD 0) = .ok c'
  written : t = s.write ((s.store.fileCycle c').filePayment (e.mark p now))

abbrev Writes (final : Prop) (now : Instant) : Service → Service → Prop :=
  Relation.ReflTransGen (Write final now)

/-- What one stretch of work does to the service, money last. -/
inductive Stretch (policy : HoldPolicy) (final : Prop) (now : Instant) (s t : Service) : Prop
  | quiet (h : Writes final now s t)
  | placed (m : Service) (c : Cycle) (p : Payment) (hold : Int) (h : Writes final now s m)
    (hplaced : Placed policy m c p hold t)
  | ended (m : Service) (e : Ending) (c : Cycle) (p : Payment) (c' : Cycle)
    (h : Writes final now s m) (hended : Ended e now m c p c' t)

theorem mark_follows (e : Ending) {p : Payment} (h : p.status = .pending) (now : Instant) :
    p.Follows (e.mark p now) := by
  cases e <;> exact ⟨by simp [Ending.mark, Payment.succeed, Payment.fail, Payment.core],
    fun hf => absurd h hf⟩

@[simp] theorem mark_id (e : Ending) (p : Payment) (now : Instant) : (e.mark p now).id = p.id := by
  cases e <;> rfl

@[simp] theorem mark_cycle (e : Ending) (p : Payment) (now : Instant) :
    (e.mark p now).cycle = p.cycle := by
  cases e <;> rfl

theorem mark_connection (e : Ending) (p : Payment) (now : Instant) :
    (e.mark p now).connection = p.connection := by
  cases e <;> rfl

theorem mark_status (e : Ending) (p : Payment) (now : Instant) :
    (e.mark p now).status ≠ .pending := by
  cases e <;> simp [Ending.mark, Payment.succeed, Payment.fail]

theorem deactivate_follows (l : Limit) (now : Instant) : l.Follows (l.deactivate now) := by
  cases h : l.isActive with
  | true => exact ⟨by simp [Limit.deactivate, h], by simp [Limit.deactivate, h],
      by simp [Limit.deactivate, h], by simp [Limit.deactivate, h], by simp [h]⟩
  | false => exact ⟨by simp [Limit.deactivate, h], by simp [Limit.deactivate, h],
      by simp [Limit.deactivate, h], by simp [Limit.deactivate, h], by simp [Limit.deactivate, h]⟩

@[simp] theorem deactivate_id (l : Limit) (now : Instant) : (l.deactivate now).id = l.id := by
  cases h : l.isActive <;> simp [Limit.deactivate, h]

theorem deactivate_amount (l : Limit) (now : Instant) : (l.deactivate now).amount = l.amount := by
  cases h : l.isActive <;> simp [Limit.deactivate, h]

theorem deactivate_inactive (l : Limit) (now : Instant) :
    (l.deactivate now).isActive = false := by
  cases h : l.isActive with
  | true =>
    simp only [Limit.deactivate, h]
    rfl
  | false => simp [Limit.deactivate, h]

/-- A limit that ends finds a cycle over that has ended by now, or by its own start. -/
theorem overWith_deactivate {l : Limit} {c : Cycle} (hactive : l.isActive = true)
    (h : c.hasEnded (now.later c.start) = true) : c.OverWith (l.deactivate now) := by
  refine ⟨now.later l.start, by simp [Limit.deactivate, hactive], Cycle.hasEnded_mono h ?_⟩
  obtain ⟨htime, hstart⟩ := Instant.later_le_iff.mp (Instant.le_refl
    ((now.later l.start).later c.start))
  exact Instant.later_le_iff.mpr ⟨(Instant.later_le_iff.mp htime).1, hstart⟩

theorem endAt_follows (c : Cycle) (now : Instant) : c.Follows (c.endAt now) := by
  have hfields := Cycle.endAt_fields c now
  refine ⟨by rw [hfields], by rw [hfields], by rw [hfields], fun time h => ?_⟩
  obtain ⟨finish, hfinish, hle⟩ := Cycle.hasEnded_iff.mp h
  rcases Cycle.endAt_cases c now with hsame | ⟨hstop, hbefore⟩
  · exact Cycle.hasEnded_iff.mpr ⟨finish, hsame.trans hfinish, hle⟩
  · exact Cycle.hasEnded_iff.mpr ⟨_, hstop, Instant.le_trans (hbefore finish hfinish) hle⟩

@[simp] theorem endAt_id (c : Cycle) (now : Instant) : (c.endAt now).id = c.id := by
  rw [Cycle.endAt_fields]

def Ending.cost : Ending → Int
  | .success settled => settled
  | .failure => 0

/-- An ending releases the hold and charges its cost, and changes nothing else in the cycle. -/
theorem apply_ok {e : Ending} {c c' : Cycle} {hold : Int} (h : e.apply c hold = .ok c') :
    c' = { c with held := max (c.held - hold) 0, spent := c.spent + e.cost } := by
  cases e with
  | success settled => exact Cycle.settle_ok h
  | failure =>
    rw [Cycle.releaseHold_ok h]
    simp [Ending.cost]

theorem createCycle_fresh {l : Limit} {id : CycleId} {start : Instant} {c : Cycle}
    (h : l.createCycle id start = .ok c) :
    ∃ finish, c = .fresh id l.id l.currency l.amount start finish := by
  simp only [Limit.createCycle, bind, Except.bind, pure, Except.pure] at h
  repeat' split at h
  all_goals cases h
  all_goals exact ⟨_, rfl⟩

/-- The latest cycle of a limit is stored, and no other of that limit starts later. -/
theorem Coherent.latest {limit : LimitId} {c : Cycle} (hs : Coherent s)
    (h : s.store.latestCycle? limit = some c) :
    s.store.cycle? c.id = some c ∧ c.limit = limit ∧
      ∀ id d, s.store.cycle? id = some d → d.limit = limit → d.start ≤ c.start := by
  obtain ⟨hmem, hlimit, hle⟩ := Store.latestCycle?_some h
  exact ⟨hs.cycles.get?_of_mem hmem, hlimit, fun id d hd => hle d (Store.cycle?_mem hd)⟩

/-- The index tells the cycles of a limit apart. -/
theorem Coherent.cycle_eq {c d : Cycle} (hs : Coherent s) (hc : c ∈ s.store.cycles)
    (hd : d ∈ s.store.cycles) (hlimit : c.limit = d.limit) (hstart : c.start = d.start) :
    c = d := by
  have hc := hs.cycles.get?_of_mem hc
  have hd := hs.cycles.get?_of_mem hd
  have hindexed := hs.cycleIndexed c.id c hc
  rw [hlimit, hstart, hs.cycleIndexed d.id d hd] at hindexed
  have hid : d.id = c.id := congrArg CycleStart.cycle (Option.some.inj hindexed)
  rw [hid, hc] at hd
  exact Option.some.inj hd

theorem Coherent.latest_of_last {id : CycleId} {c : Cycle} (hs : Coherent s)
    (hc : s.store.cycle? id = some c) (hlast : s.store.IsLast c) :
    s.store.latestCycle? c.limit = some c := by
  cases hlatest : s.store.latestCycle? c.limit with
  | none => exact absurd rfl (Store.latestCycle?_none hlatest c (Store.cycle?_mem hc))
  | some d =>
    obtain ⟨hd, hlimit, hle⟩ := hs.latest hlatest
    rw [hs.cycle_eq (Store.cycle?_mem hd) (Store.cycle?_mem hc) hlimit
      (Instant.le_antisymm (hlast d.id d hd hlimit) (hle id c hc rfl))]

theorem Write.imp {final' : Prop} (h : Write final now s t) (himp : final' → final) :
    Write final' now s t := by
  cases h with
  | issue => exact .issue
  | connect k hid hnone => exact .connect k hid hnone
  | point k limit hk htarget hleft => exact .point k limit hk htarget hleft
  | begin l hid hactive hstart hamount => exact .begin l hid hactive hstart hamount
  | reprice l amount hl hactive hamount hidle => exact .reprice l amount hl hactive hamount hidle
  | repriceLive l c amount hl hactive hamount hc hlive =>
    exact .repriceLive l c amount hl hactive hamount hc hlive
  | retire l hl hactive hidle => exact .retire l hl hactive hidle
  | close l c hl hactive hc hlive => exact .close l c hl hactive hc hlive
  | opened l c start hl hactive hidle hstart hc hfree =>
    exact .opened l c start hl (fun h => hactive (himp h)) hidle hstart hc hfree
  | record p hid hpending hnone hcore => exact .record p hid hpending hnone hcore
  | complete e p hp hpending hnone hcost => exact .complete e p hp hpending hnone hcost

theorem Writes.imp {final' : Prop} (h : Writes final now s t) (himp : final' → final) :
    Writes final' now s t := by
  induction h with
  | refl => exact .refl
  | tail _ hw ih => exact ih.tail (hw.imp himp)

theorem Stretch.imp {final' : Prop} (h : Stretch policy final now s t)
    (himp : final' → final) : Stretch policy final' now s t := by
  cases h with
  | quiet hw => exact .quiet (hw.imp himp)
  | placed m c p hold hw hp => exact .placed m c p hold (hw.imp himp) hp
  | ended m e c p c' hw hp => exact .ended m e c p c' (hw.imp himp) hp

section Rows

/-- No row stands under the identifier that is issued next. -/
theorem FreshIds.unused {α : Type} {row : Option α} (h : s.issue.FreshIds)
    (hissued : ∀ a, row = some a → s.Issued s.next) : row = none := by
  cases row with
  | none => rfl
  | some a => exact absurd (hissued a rfl) h.next

theorem Coherent.newConnection {k : Connection} (hs : Coherent s) (hfresh : s.issue.FreshIds)
    (hid : k.id = ⟨s.next⟩) : s.store.connection? k.id = none :=
  hfresh.unused fun old h => by simpa [hid] using hs.connectionIssued k.id old h

theorem Coherent.newLimit {l : Limit} (hs : Coherent s) (hfresh : s.issue.FreshIds)
    (hid : l.id = ⟨s.next⟩) : s.store.limit? l.id = none :=
  hfresh.unused fun old h => by simpa [hid] using hs.limitIssued l.id old h

theorem Coherent.newCycle {c : Cycle} (hs : Coherent s) (hfresh : s.issue.FreshIds)
    (hid : c.id = ⟨s.next⟩) : s.store.cycle? c.id = none :=
  hfresh.unused fun old h => by simpa [hid] using hs.cycleIssued c.id old h

theorem Coherent.newPayment {p : Payment} (hs : Coherent s) (hfresh : s.issue.FreshIds)
    (hid : p.id = ⟨s.next⟩) : s.store.payment? p.id = none :=
  hfresh.unused fun old h => by simpa [hid] using hs.paymentIssued p.id old h

/-- Where the latest cycle of a limit is over, or is closed before the limit ends, the last cycle of
the limit is over with it. -/
theorem Coherent.over_idle {l : Limit} (hs : Coherent s) (hactive : l.isActive = true)
    (hidle : ∀ c, s.store.latestCycle? l.id = some c → c.hasEnded (now.later c.start) = true)
    {id : CycleId} {c : Cycle} (hc : s.store.cycle? id = some c) (hlimit : c.limit = l.id)
    (hlast : s.store.IsLast c) : c.OverWith (l.deactivate now) :=
  overWith_deactivate hactive (hidle c (hlimit ▸ hs.latest_of_last hc hlast))

theorem Coherent.over_closed {l : Limit} {c : Cycle} (hs : Coherent s)
    (hactive : l.isActive = true) (hc : s.store.latestCycle? l.id = some c) {id : CycleId}
    {d : Cycle} (hd : (s.store.fileCycle (c.endAt now)).cycle? id = some d)
    (hlimit : d.limit = l.id) (hlast : (s.store.fileCycle (c.endAt now)).IsLast d) :
    d.OverWith (l.deactivate now) := by
  obtain ⟨hstored, hlimit', hle⟩ := hs.latest hc
  have hfollows := endAt_follows c now
  have hclosed : (s.store.fileCycle (c.endAt now)).cycle? c.id = some (c.endAt now) := by simp
  have hcoherent : Coherent (s.write (s.store.fileCycle (c.endAt now))) :=
    hs.rewrite ⟨c, by simpa using hstored, hfollows⟩
  refine hcoherent.over_idle hactive (fun e he => ?_) hd hlimit hlast
  have hlatest := hcoherent.latest_of_last hclosed fun other e he hel => ?_
  · rw [hfollows.limit, hlimit', he] at hlatest
    rw [Option.some.inj hlatest, hfollows.start]
    obtain ⟨finish, hfinish, hle⟩ := Cycle.endAt_finish c now
    exact Cycle.hasEnded_iff.mpr ⟨finish, hfinish, hle⟩
  · rw [hfollows.start]
    by_cases hid : c.id = other
    · obtain rfl : c.endAt now = e := by simpa [hid] using he
      exact hfollows.start ▸ Instant.le_refl _
    · exact hle other e (by simpa [hid] using he) (hel.trans (hfollows.limit.trans hlimit'))

theorem Write.rows (hs : Coherent s) (h : Write final now s t) (ht : t.FreshIds) :
    RowWrites s t := by
  cases h with
  | issue => exact .single .issue
  | connect k hid hnone =>
    refine .tail (.single .issue) (.save k ⟨hid ▸ s.next_issued, by simp [hnone], ?_⟩)
    intro old hold
    have hnew := hs.newConnection ht hid
    simp only [issue_store] at hold
    simp [hnew] at hold
  | point k limit hk htarget hleft =>
    refine .single (.save { k with limit } ⟨hs.connectionIssued _ _ hk, htarget, ?_⟩)
    intro old hold
    obtain rfl : k = old := Option.some.inj (hk.symm.trans hold)
    refine ⟨rfl, fun id l hp hl ha => ?_⟩
    rw [hleft id l hp hl] at ha
    cases ha
  | begin l hid =>
    refine .tail (.single .issue) (.file l ⟨hid ▸ s.next_issued, ?_⟩)
    intro old hold
    have hnew := hs.newLimit ht hid
    simp only [issue_store] at hold
    simp [hnew] at hold
  | reprice l amount hl hactive =>
    refine .single (.file { l with amount } ⟨hs.limitIssued _ _ hl, ?_⟩)
    intro old hold
    obtain rfl : l = old := Option.some.inj (hl.symm.trans hold)
    refine ⟨⟨rfl, rfl, rfl, rfl, fun h => by simp [hactive] at h⟩, fun _ hended => ?_⟩
    cases hactive.symm.trans hended
  | repriceLive l c amount hl hactive _ hc =>
    refine .tail (.single (.rewrite { c with limitAmount := amount } ?_))
      (.file { l with amount } ?_)
    · exact ⟨c, (hs.latest hc).1, .of_finish rfl rfl rfl rfl⟩
    · refine ⟨hs.limitIssued _ _ hl, fun old hold => ?_⟩
      obtain rfl : l = old := Option.some.inj (hl.symm.trans hold)
      refine ⟨⟨rfl, rfl, rfl, rfl, fun h => by simp [hactive] at h⟩, fun _ hended => ?_⟩
      cases hactive.symm.trans hended
  | retire l hl hactive hidle =>
    refine .single (.file (l.deactivate now) ⟨?_, fun old hold => ?_⟩)
    · simpa using hs.limitIssued _ _ hl
    · obtain rfl : l = old := Option.some.inj (hl.symm.trans (by simpa using hold))
      refine ⟨deactivate_follows l now, fun _ _ id c hc hlimit hlast => ?_⟩
      refine hs.over_idle hactive (fun d hd => ?_) hc (by simpa using hlimit) hlast
      exact Cycle.hasEnded_mono (hidle d hd) (Instant.later_le_iff.mp (Instant.le_refl _)).1
  | close l c hl hactive hc =>
    refine .tail (.single (.rewrite (c.endAt now) ⟨c, ?_, endAt_follows c now⟩))
      (.file (l.deactivate now) ⟨?_, fun old hold => ?_⟩)
    · simpa using (hs.latest hc).1
    · simpa using hs.limitIssued _ _ hl
    · obtain rfl : l = old := Option.some.inj (hl.symm.trans (by simpa using hold))
      exact ⟨deactivate_follows l now, fun _ _ id d hd hlimit hlast =>
        hs.over_closed hactive hc hd (by simpa using hlimit) hlast⟩
  | opened l c start hl _ _ _ hc hfree =>
    obtain ⟨finish, rfl⟩ := createCycle_fresh hc
    exact .tail (.single .issue) (.opened _ ⟨s.next_issued, hs.newCycle ht rfl, hfree, l, hl⟩)
  | record p hid hpending hnone hcore =>
    refine .tail (.single .issue) (.record p ⟨hid ▸ s.next_issued, ?_, by simp [hnone],
      fun _ => hcore⟩)
    intro old hold
    have hnew := hs.newPayment ht hid
    simp only [issue_store] at hold
    simp [hnew] at hold
  | complete e p hp hpending hnone =>
    refine .single (.record (e.mark p now) ⟨?_, fun old hold => ?_, by simp [hnone],
      fun h => absurd h (mark_status e p now)⟩)
    · simpa using hs.paymentIssued _ _ hp
    · obtain rfl : p = old := Option.some.inj (hp.symm.trans (by simpa using hold))
      exact mark_follows e hpending now

theorem Placed.rows {c : Cycle} {p : Payment} {hold : Int} (hs : Coherent s)
    (h : Placed policy s c p hold t) (ht : t.FreshIds) : RowWrites s t := by
  have hwritten := h.written
  subst hwritten
  refine .tail (.tail (.single .issue) (.rewrite { c with held := c.held + hold }
    ⟨c, h.cycle, .of_finish rfl rfl rfl rfl⟩))
    (.record p ⟨h.id ▸ s.next_issued, ?_, ?_, fun _ => h.core⟩)
  · intro old hold
    have hnew := hs.newPayment ht h.id
    simp only [write_store, issue_store, Store.payment?_fileCycle] at hold
    simp [hnew] at hold
  · intro cycle hc
    obtain rfl : c.id = cycle := Option.some.inj (h.linked.symm.trans hc)
    exact ⟨{ c with held := c.held + hold }, by simp⟩

theorem Ended.rows {e : Ending} {c c' : Cycle} {p : Payment} (hs : Coherent s)
    (h : Ended e now s c p c' t) : RowWrites s t := by
  have hwritten := h.written
  subst hwritten
  have hfields := apply_ok h.applied
  have hid : c'.id = c.id := by rw [hfields]
  refine .tail (.single (.rewrite c'
      ⟨c, hid ▸ h.cycle, by rw [hfields]; exact .of_finish rfl rfl rfl rfl⟩))
    (.record (e.mark p now) ⟨?_, fun old hold => ?_, fun cycle hc => ?_,
      fun hp => absurd hp (mark_status e p now)⟩)
  · simpa using hs.paymentIssued _ _ h.payment
  · obtain rfl : p = old := Option.some.inj (h.payment.symm.trans (by simpa using hold))
    exact mark_follows e h.pending now
  · obtain rfl : c.id = cycle := Option.some.inj (h.linked.symm.trans (by simpa using hc))
    exact ⟨c', by simp [hid]⟩

theorem Write.issued (h : Write final now s t) : t.ids = s.ids ∧ s.issued ≤ t.issued := by
  cases h <;> simp

theorem Write.clock (h : Write final now s t) : t.clock = s.clock := by
  cases h <;> rfl

theorem FreshIds.before (ht : t.FreshIds) (h : t.ids = s.ids ∧ s.issued ≤ t.issued) :
    s.FreshIds := by
  intro i hi j hj he
  refine ht i (Nat.lt_of_lt_of_le hi h.2) j (Nat.lt_of_lt_of_le hj h.2) ?_
  rw [h.1, he]

theorem Writes.rows (hs : Coherent s) (h : Writes final now s t) (ht : t.FreshIds) :
    RowWrites s t := by
  induction h with
  | refl => exact .refl
  | tail _ hstep ih =>
    have hrows := ih (ht.before hstep.issued)
    exact hrows.trans (hstep.rows (hrows.coherent hs) ht)

theorem Stretch.rows (hs : Coherent s) (h : Stretch policy final now s t) (ht : t.FreshIds) :
    RowWrites s t := by
  cases h with
  | quiet h => exact h.rows hs ht
  | placed m c p hold h hplaced =>
    have hissued : t.ids = m.ids ∧ m.issued ≤ t.issued := by simp [hplaced.written]
    have hrows := h.rows hs (ht.before hissued)
    exact hrows.trans (hplaced.rows (hrows.coherent hs) ht)
  | ended m e c p c' h hended =>
    have hissued : t.ids = m.ids ∧ m.issued ≤ t.issued := by simp [hended.written]
    have hrows := h.rows hs (ht.before hissued)
    exact hrows.trans (hended.rows (hrows.coherent hs))

end Rows

theorem Writes.keeps {I : Service → Prop} (hs : Coherent s) (h : Writes final now s t)
    (ht : t.FreshIds) (hI : I s)
    (hwrite : ∀ a b, Coherent a → Write final now a b → b.FreshIds → I a → I b) : I t := by
  induction h with
  | refl => exact hI
  | tail hprev hstep ih =>
    have hmid := ht.before hstep.issued
    exact hwrite _ _ ((Writes.rows hs hprev hmid).coherent hs) hstep ht (ih hmid)

/-- What no write, no placed hold and no end of a payment breaks, a stretch does not break. -/
theorem Stretch.keeps {I : Service → Prop} (hs : Coherent s) (h : Stretch policy final now s t)
    (ht : t.FreshIds) (hI : I s)
    (hwrite : ∀ a b, Coherent a → Write final now a b → b.FreshIds → I a → I b)
    (hplaced : ∀ m c p hold, Coherent m → Placed policy m c p hold t → I m → I t)
    (hended : ∀ m e c p c', Coherent m → Ended e now m c p c' t → I m → I t) : I t := by
  cases h with
  | quiet hw => exact hw.keeps hs ht hI hwrite
  | placed m c p hold hw hp =>
    have hm : m.FreshIds := ht.before (by simp [hp.written])
    exact hplaced m c p hold ((hw.rows hs hm).coherent hs) hp (hw.keeps hs hm hI hwrite)
  | ended m e c p c' hw hp =>
    have hm : m.FreshIds := ht.before (by simp [hp.written])
    exact hended m e c p c' ((hw.rows hs hm).coherent hs) hp (hw.keeps hs hm hI hwrite)

end Service

end WalletBudget
