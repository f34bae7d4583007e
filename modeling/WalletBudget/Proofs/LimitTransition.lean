import WalletBudget.Proofs.CycleTable
import WalletBudget.Proofs.LimitPointer
import WalletBudget.Proofs.RetiredLimit

/-!
What a change of a connection's limit does to the store, as its answer tells.

Each answer stands for one transition of the whole store: a limit ends with its live cycle, a limit
begins with its first cycle, one does and then the other, or a limit gets another amount. A refusal
stands for none.
-/

namespace WalletBudget

open Service

variable {policy : HoldPolicy} {rule : World → Event → Prop} {s t : Service} {w : World}
  {path past : List World} {k : Connection} {l : Limit} {c : Cycle} {u : LimitUpdate}
  {now : Instant}

/-- No two connections and no two limits have one identifier. -/
structure Store.Keyed (s : Store) : Prop where
  connections : Table.Distinct Connection.id s.connections
  limits : Table.Distinct Limit.id s.limits

theorem Service.RowWrites.keyed (h : RowWrites s t) (hs : s.store.Keyed) : t.store.Keyed := by
  induction h with
  | refl => exact hs
  | tail _ hstep ih =>
    cases hstep with
    | issue => exact ih
    | save k => exact ⟨ih.connections.put k, ih.limits⟩
    | file l => exact ⟨ih.connections, ih.limits.put l⟩
    | opened c => exact ⟨ih.connections, ih.limits⟩
    | rewrite c => exact ⟨ih.connections, ih.limits⟩
    | record p => exact ⟨ih.connections, ih.limits⟩

theorem reachable_keyed (run : Run policy rule (w :: path)) : w.service.store.Keyed := by
  refine run.holds (I := fun s => s.store.Keyed) False (fun _ _ _ h => h.elim)
    (fun _ _ _ => ⟨List.nodup_nil, List.nodup_nil⟩) fun s t hs ht hst hkeyed => ?_
  cases hst with
  | clock time _ htick =>
    rw [htick]
    exact hkeyed
  | work time _ hst => exact (hst.rows hs ht).keyed hkeyed

def Limit.firstCycle (l : Limit) (id : CycleId) : Cycle :=
  .fresh id l.id l.currency l.amount l.start (l.stop? l.start)

namespace Store

/-- The cycles of a limit that have not ended by an instant change. -/
def changeLive (s : Store) (limit : LimitId) (now : Instant) (change : Cycle → Cycle) : Store :=
  { s with cycles := s.cycles.map fun c =>
      if c.limit = limit ∧ c.hasEnded now = false then change c else c }

def changeLimit (s : Store) (id : LimitId) (change : Limit → Limit) : Store :=
  { s with limits := Table.change Limit.id id change s.limits }

def ended (s : Store) (id : LimitId) (now : Instant) : Store :=
  (s.changeLive id now fun c => { c with finish := some now }).changeLimit id
    fun l => { l with finish := some now }

def repriced (s : Store) (id : LimitId) (amount : Int) (now : Instant) : Store :=
  (s.changeLive id now fun c => { c with limitAmount := amount }).changeLimit id
    fun l => { l with amount }

def pointed (s : Store) (id : ConnectionId) (limit : Option LimitId) : Store :=
  { s with connections := Table.change Connection.id id (fun k => { k with limit }) s.connections }

/-- A limit is added, with its first cycle, and its connection points to it. -/
def begun (s : Store) (l : Limit) (cycle : CycleId) : Store :=
  { s.pointed l.connection (some l.id) with
    limits := s.limits ++ [l]
    cycles := s.cycles ++ [l.firstCycle cycle]
    cycleStarts := s.cycleStarts ++ [⟨l.id, l.start, cycle⟩] }

theorem changeLive_congr {s : Store} {limit : LimitId} {f g : Cycle → Cycle}
    (h : ∀ c ∈ s.cycles, c.limit = limit → c.hasEnded now = false → f c = g c) :
    s.changeLive limit now f = s.changeLive limit now g := by
  have hmap : (s.cycles.map fun c => if c.limit = limit ∧ c.hasEnded now = false then f c else c) =
      s.cycles.map fun c => if c.limit = limit ∧ c.hasEnded now = false then g c else c := by
    refine List.map_congr_left fun c hc => ?_
    by_cases hlive : c.limit = limit ∧ c.hasEnded now = false
    · simp only [hlive, and_self, if_true, h c hc hlive.1 hlive.2]
    · simp only [hlive, if_false]
  simp only [changeLive, hmap]

theorem rewriteLive_fileLimit (s : Store) (l : Limit) (limit : LimitId) (now : Instant)
    (change : Cycle → Cycle) :
    (s.fileLimit l).rewriteLive limit now change =
      (s.rewriteLive limit now change).fileLimit l := by
  simp only [rewriteLive, latestCycle?_fileLimit, cycle?_fileLimit]
  repeat' split
  all_goals rfl

/-- A change of a stored limit is made in its place. -/
theorem fileLimit_stored {s : Store} (hd : Table.Distinct Limit.id s.limits)
    (hl : s.limit? l.id = some l) {f : Limit → Limit} (hf : (f l).id = l.id) :
    s.fileLimit (f l) = s.changeLimit l.id f := by
  simp only [Store.fileLimit, changeLimit, hd.put_changed hl hf]

theorem saveConnection_stored {s : Store} (hd : Table.Distinct Connection.id s.connections)
    (hk : s.connection? k.id = some k) (limit : Option LimitId) :
    s.saveConnection { k with limit } = s.pointed k.id limit := by
  have hput := hd.put_changed (f := fun k => { k with limit }) hk rfl
  simp only [Store.saveConnection, pointed, hput]

@[simp] theorem limit?_pointed (s : Store) (id : ConnectionId) (limit : Option LimitId)
    (id' : LimitId) : (s.pointed id limit).limit? id' = s.limit? id' := rfl

theorem limit?_changeLimit (s : Store) {f : Limit → Limit} (hf : ∀ l, (f l).id = l.id)
    (id id' : LimitId) : (s.changeLimit id f).limit? id' =
      if id' = id then (s.limit? id').map f else s.limit? id' :=
  Table.get?_change hf ..

@[simp] theorem limit?_ended (s : Store) (id : LimitId) (now : Instant) (id' : LimitId) :
    (s.ended id now).limit? id' =
      if id' = id then (s.limit? id').map fun l => { l with finish := some now }
      else s.limit? id' :=
  limit?_changeLimit _ (f := fun l => { l with finish := some now }) (fun _ => rfl) ..

@[simp] theorem limit?_repriced (s : Store) (id : LimitId) (amount : Int) (now : Instant)
    (id' : LimitId) :
    (s.repriced id amount now).limit? id' =
      if id' = id then (s.limit? id').map fun l => { l with amount } else s.limit? id' :=
  limit?_changeLimit _ (f := fun l => { l with amount }) (fun _ => rfl) ..

@[simp] theorem connection?_begun (s : Store) (l : Limit) (cycle : CycleId) (id : ConnectionId) :
    (s.begun l cycle).connection? id =
      if id = l.connection then (s.connection? id).map fun k => { k with limit := some l.id }
      else s.connection? id :=
  Table.get?_change (f := fun k : Connection => { k with limit := some l.id }) (fun _ => rfl) ..

@[simp] theorem limit?_begun (s : Store) (l : Limit) (cycle : CycleId) (id : LimitId) :
    (s.begun l cycle).limit? id = (s.limit? id).or (if l.id = id then some l else none) := by
  by_cases hid : l.id = id <;> simp [limit?, begun, pointed, Table.get?, hid]

/-- The first cycle of a limit is its latest one then. -/
theorem latestCycle?_begun {s : Store} (h : s.latestCycle? l.id = none) (cycle : CycleId) :
    (s.begun l cycle).latestCycle? l.id = some (l.firstCycle cycle) := by
  have hlimit : (l.firstCycle cycle).limit = l.id := rfl
  unfold latestCycle? at h ⊢
  simp only [begun, List.filter_append, List.foldl_append, h, hlimit, List.filter_cons, decide_true,
    if_true, List.filter_nil, List.foldl_cons, List.foldl_nil, laterCycle]

end Store

/-- A cycle that has started by now and has not ended by now is ended now. -/
theorem Cycle.endAt_live (hstart : c.start ≤ now) (hlive : c.hasEnded now = false) :
    c.endAt now = { c with finish := some now } := by
  cases hfinish : c.finish with
  | none => simp [endAt, hfinish, Instant.later_eq hstart]
  | some finish =>
    have hlate : ¬ finish ≤ now := fun hle => by
      rw [Cycle.hasEnded_iff.mpr ⟨finish, hfinish, hle⟩] at hlive
      cases hlive
    simp [endAt, hfinish, Instant.later_eq hstart, hlate]

theorem Limit.deactivate_active (hactive : l.isActive = true) (hbegun : l.start ≤ now) :
    l.deactivate now = { l with finish := some now } := by
  simp [deactivate, hactive, Instant.later_eq hbegun]

/-- The only cycle of a limit that has not ended is its latest one. -/
theorem Timely.rewriteLive (hs : Coherent s) (h : Timely s) (limit : LimitId)
    {f : Cycle → Cycle} (hid : ∀ c, (f c).id = c.id) :
    s.store.rewriteLive limit s.clock f = s.store.changeLive limit s.clock f := by
  have hlatest : ∀ c ∈ s.store.cycles, c.limit = limit ∧ c.hasEnded s.clock = false →
      s.store.latestCycle? limit = some c := fun c hc hlive =>
    hlive.1 ▸ h.latest hs (hs.cycles.get?_of_mem hc) hlive.2
  rcases hs.rewriteLive limit s.clock f with ⟨hsame, hidle⟩ | ⟨c, hc, hlive, hchange⟩
  · have hnone : (s.store.cycles.map fun c =>
        if c.limit = limit ∧ c.hasEnded s.clock = false then f c else c) = s.store.cycles := by
      refine (List.map_congr_left fun c hc => if_neg fun hlive => ?_).trans (List.map_id _)
      have hended := hidle c (hlatest c hc hlive)
      rw [hlive.2] at hended
      cases hended
    simp only [hsame, Store.changeLive, hnone]
  · obtain ⟨hstored, hlimit, -⟩ := hs.latest hc
    have hput := hs.cycles.put_changed (f := f) hstored (hid c)
    have hone : Table.change Cycle.id c.id f s.store.cycles = s.store.cycles.map fun c =>
        if c.limit = limit ∧ c.hasEnded s.clock = false then f c else c := by
      refine List.map_congr_left fun d hd => if_congr ⟨fun he => ?_, fun hlive => ?_⟩ rfl rfl
      · obtain rfl : d = c :=
          Option.some.inj ((hs.cycles.get?_of_mem hd).symm.trans (he ▸ hstored))
        exact ⟨hlimit, hlive⟩
      · rw [Option.some.inj ((hlatest d hd hlive).symm.trans hc)]
    rw [hchange]
    simp only [Store.fileCycle, Store.changeLive, hput, hone]

namespace Service

/-- A limit that is ended now ends now with its live cycle. -/
theorem retired_ended (hs : Coherent s) (hkeyed : s.store.Keyed) (h : Timely s)
    (hl : s.store.limit? l.id = some l) (hactive : l.isActive = true) :
    (s.retired l s.clock).store = s.store.ended l.id s.clock := by
  have hlive : s.store.changeLive l.id s.clock (·.endAt s.clock) =
      s.store.changeLive l.id s.clock fun c => { c with finish := some s.clock } :=
    Store.changeLive_congr fun c hc _ hlive =>
      Cycle.endAt_live (h.start_le hs (hs.cycles.get?_of_mem hc)) hlive
  simp only [retired, write_store, Store.rewriteLive_fileLimit,
    h.rewriteLive hs l.id fun c => endAt_id c _, hlive,
    Limit.deactivate_active hactive (h.limits l.id l hl).2]
  exact Store.fileLimit_stored (s := s.store.changeLive l.id s.clock _)
    (f := fun l => { l with finish := some s.clock }) hkeyed.limits hl rfl

theorem rewriteLive_repriced (hs : Coherent s) (hkeyed : s.store.Keyed) (h : Timely s)
    (hl : s.store.limit? l.id = some l) (amount : Int) :
    (s.store.rewriteLive l.id s.clock fun c => { c with limitAmount := amount }).fileLimit
      { l with amount } = s.store.repriced l.id amount s.clock := by
  rw [h.rewriteLive (f := fun c => { c with limitAmount := amount }) hs l.id fun _ => rfl]
  exact Store.fileLimit_stored (s := s.store.changeLive l.id s.clock _)
    (f := fun l => { l with amount }) hkeyed.limits hl rfl

/-- A limit that is set up is added with its first cycle. -/
theorem Started.begun (hs : Coherent s) (hkeyed : s.store.Keyed)
    (hk : s.store.connection? k.id = some k) {currency : Currency} {amount : Int}
    {frequency : Frequency} (hst : Started k currency amount frequency now s (.ok l) t)
    (ht : t.FreshIds) :
    l = ⟨l.id, k.id, currency, amount, frequency, now, none⟩ ∧ s.store.limit? l.id = none ∧
      ∃ cycle, s.store.cycle? cycle = none ∧ t.store = s.store.begun l cycle := by
  cases hst with
  | started _ c hl hc =>
    have hfresh : s.issue.issue.FreshIds := ht
    have hlimit : s.store.limit? l.id = none :=
      hs.newLimit (hfresh.before ⟨rfl, Nat.le_succ _⟩) (by rw [hl])
    obtain ⟨-, hc', -⟩ := Limit.createCycle_ok hc
    have hstart : l.start = now := by rw [hl]
    have hfirst : c = l.firstCycle ⟨s.issue.next⟩ := by rw [hc', Limit.firstCycle, hstart]
    have hcycle : s.store.cycle? c.id = none := hs.issue.newCycle hfresh (by rw [hc']; rfl)
    have hfree : s.store.startOf? c.limit c.start = none := by
      rw [hc']
      exact (hs.noCycles hlimit).2 now
    have howner : l.connection = k.id := by rw [hl]
    have hsaved := Store.saveConnection_stored
      (s := ((s.store.fileLimit l).indexCycle c).fileCycle c) hkeyed.connections hk (some l.id)
    refine ⟨by rw [hl], hlimit, c.id, hcycle, ?_⟩
    rw [write_store, hsaved, Store.openCycle_new (s := s.store.fileLimit l) hcycle hfree,
      Store.fileLimit_new hlimit, hfirst]
    simp only [Store.begun, Store.pointed, Limit.firstCycle, Cycle.fresh, howner]

end Service

/-- The limit that an update sets up for a connection, in this currency unless it names one. -/
def LimitUpdate.limit (u : LimitUpdate) (id : LimitId) (k : ConnectionId) (currency : Currency)
    (amount : Int) (now : Instant) : Limit :=
  ⟨id, k, u.currency.getD currency, amount, u.frequency.getD .never, now, none⟩

/-- An update asks for a limit in another currency or of another frequency than this one. -/
def LimitUpdate.Replaces (u : LimitUpdate) (l : Limit) : Prop :=
  l.currency.code ≠ (u.currency.getD l.currency).code ∨ l.frequency ≠ u.frequency.getD .never

instance (u : LimitUpdate) (l : Limit) : Decidable (u.Replaces l) :=
  inferInstanceAs (Decidable (_ ∨ _))

theorem LimitUpdate.not_replaces : ¬ u.Replaces l ↔
    l.frequency = u.frequency.getD .never ∧ l.currency.same (u.currency.getD l.currency) := by
  simp only [Replaces, Currency.same, not_or, ne_eq, not_not, decide_eq_true_eq]
  exact and_comm

/-- What an answer to an update of a connection's limit tells of the store before it and after. -/
inductive Transition (k : Connection) (u : LimitUpdate) (now : Instant) (s : Store) :
    LimitChange → Store → Prop
  | unlimited (hu : u.enabled = false) (hnone : s.activeLimit? k = none) :
    Transition k u now s (.disabled none) s
  | disabled (l : Limit) (hu : u.enabled = false) (hl : s.activeLimit? k = some l) :
    Transition k u now s (.disabled (some { l with finish := some now }))
      ((s.ended l.id now).pointed k.id none)
  | created (id : LimitId) (cycle : CycleId) (amount : Int) (hu : u.enabled = true)
      (hamount : u.wantedAmount = .ok amount) (hnone : s.activeLimit? k = none)
      (hid : s.limit? id = none) (hcycle : s.cycle? cycle = none) :
    Transition k u now s (.created (u.limit id k.id k.budgetCurrency amount now))
      (s.begun (u.limit id k.id k.budgetCurrency amount now) cycle)
  | unchanged (l : Limit) (hu : u.enabled = true) (hamount : u.wantedAmount = .ok l.amount)
      (hl : s.activeLimit? k = some l) (hsame : ¬ u.Replaces l) : Transition k u now s .unchanged s
  | amountChanged (l : Limit) (amount : Int) (hu : u.enabled = true)
      (hamount : u.wantedAmount = .ok amount) (hl : s.activeLimit? k = some l)
      (hsame : ¬ u.Replaces l) (hne : l.amount ≠ amount) :
    Transition k u now s (.amountChanged { l with amount }) (s.repriced l.id amount now)
  | replaced (l : Limit) (id : LimitId) (cycle : CycleId) (amount : Int) (hu : u.enabled = true)
      (hamount : u.wantedAmount = .ok amount) (hl : s.activeLimit? k = some l)
      (hother : u.Replaces l) (hid : s.limit? id = none) (hcycle : s.cycle? cycle = none) :
    Transition k u now s
      (.replaced { l with finish := some now } (u.limit id k.id l.currency amount now))
      ((s.ended l.id now).begun (u.limit id k.id l.currency amount now) cycle)

namespace Transition

variable {before after : Store} {change : LimitChange}

/-- The limits in an answer are stored as they are told. -/
theorem stored (h : Transition k u now before change after)
    (hl : change.limit = some l ∨ change.previous = some l) : after.limit? l.id = some l := by
  cases h with
  | unlimited => simp [LimitChange.limit, LimitChange.previous] at hl
  | disabled old _ hold =>
    obtain rfl : { old with finish := some now } = l := by
      simpa [LimitChange.limit, LimitChange.previous] using hl
    obtain ⟨-, hstored, -⟩ := Store.activeLimit?_stored hold
    simp [hstored]
  | created id cycle amount _ _ _ hid =>
    obtain rfl : u.limit id k.id k.budgetCurrency amount now = l := by
      simpa [LimitChange.limit, LimitChange.previous] using hl
    have hid : before.limit? (u.limit id k.id k.budgetCurrency amount now).id = none := hid
    simp [hid]
  | unchanged => simp [LimitChange.limit, LimitChange.previous] at hl
  | amountChanged old amount _ _ hold =>
    obtain rfl : { old with amount } = l := by
      simpa [LimitChange.limit, LimitChange.previous] using hl
    obtain ⟨-, hstored, -⟩ := Store.activeLimit?_stored hold
    simp [hstored]
  | replaced old id cycle amount _ _ hold _ hid =>
    obtain ⟨-, hstored, -⟩ := Store.activeLimit?_stored hold
    have hid : before.limit? (u.limit id k.id old.currency amount now).id = none := hid
    rcases hl with hl | hl
    · obtain rfl : u.limit id k.id old.currency amount now = l := Option.some.inj hl
      have hne : (u.limit id k.id old.currency amount now).id ≠ old.id := fun he => by
        rw [he, hstored] at hid
        cases hid
      simp [hid, hne]
    · obtain rfl : { old with finish := some now } = l := Option.some.inj hl
      simp [hstored]

end Transition

namespace Service

/-- The service after the end of a limit is as sound as before it. -/
theorem retired_rows (hs : Coherent s) (hl : s.store.activeLimit? k = some l) (now : Instant)
    (hf : s.FreshIds) : RowWrites s (s.retired l now) := by
  obtain ⟨-, hstored, hactive⟩ := Store.activeLimit?_stored hl
  exact (retired_write hs hstored hactive).rows hs hf

/-- An answered update has done the transition that its answer tells of. -/
theorem Updated.transition (hs : Coherent s) (hkeyed : s.store.Keyed) (h : Timely s)
    (hk : s.store.connection? k.id = some k) {change : LimitChange}
    (hupdated : Updated k u s.clock s (.ok change) t) (ht : t.FreshIds) :
    Transition k u s.clock s.store change t.store := by
  have hs₀ : s.FreshIds := ht.before hupdated.issued
  have hended : ∀ {l : Limit}, s.store.activeLimit? k = some l →
      (s.retired l s.clock).store = s.store.ended l.id s.clock ∧
        l.deactivate s.clock = { l with finish := some s.clock } := by
    intro l hl
    obtain ⟨-, hstored, hactive⟩ := Store.activeLimit?_stored hl
    exact ⟨retired_ended hs hkeyed h hstored hactive,
      Limit.deactivate_active hactive (h.limits l.id l hstored).2⟩
  generalize hr : Except.ok change = r at hupdated
  cases hupdated with
  | unlimited hu hnone =>
    cases hr
    exact .unlimited hu hnone
  | disabled l hu hl =>
    cases hr
    have hrows := retired_rows hs hl s.clock hs₀
    obtain ⟨hstore, hlimit⟩ := hended hl
    rw [write_store, Store.saveConnection_stored (hrows.keyed hkeyed).connections (by simpa),
      hstore, hlimit]
    exact .disabled l hu hl
  | invalid => cases hr
  | created amount r t hu hamount hnone hstarted =>
    cases r with
    | error e => cases hr
    | ok l =>
      cases hr
      obtain ⟨hl, hid, cycle, hcycle, hstore⟩ := hstarted.begun hs hkeyed hk ht
      rw [hstore, hl]
      exact .created l.id cycle amount hu hamount hnone hid hcycle
  | unchanged l hu hamount hl hsame =>
    cases hr
    exact .unchanged l hu hamount hl fun hother => LimitUpdate.not_replaces.mpr hsame hother
  | amountChanged l amount hu hamount hl hsame hne =>
    cases hr
    obtain ⟨-, hstored, -⟩ := Store.activeLimit?_stored hl
    rw [write_store, rewriteLive_repriced hs hkeyed h hstored]
    exact .amountChanged l amount hu hamount hl (LimitUpdate.not_replaces.mpr hsame) hne
  | replaced l amount r t hu hamount hl hother hstarted =>
    cases r with
    | error e => cases hr
    | ok l' =>
      cases hr
      have hrows := retired_rows hs hl s.clock hs₀
      obtain ⟨hstore, hlimit⟩ := hended hl
      obtain ⟨hl', hid, cycle, hcycle, hbegun⟩ :=
        hstarted.begun (hrows.coherent hs) (hrows.keyed hkeyed) (by simpa) ht
      have hreplaces : u.Replaces l :=
        Decidable.byContradiction fun h => hother (LimitUpdate.not_replaces.mp h)
      have hcycle' : s.store.cycle? cycle = none := by
        cases hc : s.store.cycle? cycle with
        | none => rfl
        | some c =>
          obtain ⟨c', hc', -⟩ := hrows.later.cycles cycle c hc
          rw [show (s.retired l s.clock).store.cycle? cycle = some c' from hc'] at hcycle
          cases hcycle
      rw [hbegun, hstore, hlimit, hl']
      exact .replaced l l'.id cycle amount hu hamount hl hreplaces (retired_new hid) hcycle'

theorem Started.not_refused {currency : Currency} {amount : Int} {frequency : Frequency}
    {r : Except Abort Limit} (h : Started k currency amount frequency now s r t)
    (e : BudgetError) : r ≠ .error (.refused e) := by
  cases h <;> simp

/-- An update of a stored connection is refused for its amount only, before anything is written. -/
theorem Updated.refused {e : BudgetError} (h : Updated k u now s (.error (.refused e)) t) :
    t = s ∧ u.enabled = true ∧ ∃ v, u.wantedAmount = .error v ∧ e = .validation v := by
  generalize hr : Except.error (Abort.refused e) = r at h
  cases h with
  | invalid v hu hv =>
    cases hr
    exact ⟨rfl, hu, v, hv, rfl⟩
  | created amount r t _ _ _ hstarted =>
    cases r with
    | error a =>
      cases hr
      exact absurd rfl (hstarted.not_refused e)
    | ok l => cases hr
  | replaced l amount r t _ _ _ _ hstarted =>
    cases r with
    | error a =>
      cases hr
      exact absurd rfl (hstarted.not_refused e)
    | ok l => cases hr
  | _ => cases hr

theorem Updated.not_broken (hnow : now.Readable) {r : Except Abort LimitChange}
    (h : Updated k u now s r t) (d : Defect) : r ≠ .error (.broken d) := by
  cases h with
  | created _ _ _ _ _ _ hstarted =>
    obtain ⟨l, rfl⟩ := hstarted.answered hnow
    simp [Except.map]
  | replaced _ _ _ _ _ _ _ _ hstarted =>
    obtain ⟨l, rfl⟩ := hstarted.answered hnow
    simp [Except.map]
  | _ => simp

/-- A limit is replaced if and only if another one is asked for. -/
theorem Updated.replaced_iff {r : Except Abort LimitChange} (h : Updated k u now s r t)
    (hsound : ∀ d, r ≠ .error (.broken d)) :
    (∃ previous current, r = .ok (.replaced previous current)) ↔
      ∃ l amount, s.store.activeLimit? k = some l ∧ u.enabled = true ∧
        u.wantedAmount = .ok amount ∧ u.Replaces l := by
  cases h with
  | unlimited hu => simp [hu]
  | disabled l hu => simp [hu]
  | invalid e hu he => simp [he]
  | created amount r t hu hamount hnone hstarted =>
    cases hstarted with
    | started => simp [hnone, Except.map]
    | broken _ d => exact absurd rfl (hsound d)
  | unchanged l hu hamount hl hsame =>
    simpa [hl, hu, hamount] using LimitUpdate.not_replaces.mpr hsame
  | amountChanged l amount hu hamount hl hsame =>
    simpa [hl, hu, hamount] using LimitUpdate.not_replaces.mpr hsame
  | replaced l amount r t hu hamount hl hother hstarted =>
    have hreplaces : u.Replaces l :=
      Decidable.byContradiction fun h => hother (LimitUpdate.not_replaces.mp h)
    cases hstarted with
    | started => simp [hl, hu, hamount, hreplaces, Except.map]
    | broken _ d => exact absurd rfl (hsound d)

end Service

/-- An update of a limit is one transition of the whole store, as its answer tells, or nothing. It
is the replacement of a limit if and only if there is an active one and a valid update asks for
another currency or another frequency. The limits in the answer are those in the store. -/
theorem update_one_transition (run : Run policy World.Steady (w :: past)) (id : ConnectionId)
    (u : LimitUpdate) :
    ∃ r t, updateLimit id u w.service.clock w.service = .done r t ∧ (t.FreshIds →
      (∀ e, r = .error (.refused e) → t.store = w.service.store) ∧
      (∀ change, r = .ok change → ∃ k, w.service.store.connection? id = some k ∧
        Transition k u w.service.clock w.service.store change t.store ∧
        ∀ l, change.limit = some l ∨ change.previous = some l →
          t.store.limit? l.id = some l) ∧
      (w.service.clock.Readable → ∀ d, r ≠ .error (.broken d)) ∧
      ((∀ d, r ≠ .error (.broken d)) →
        ((∃ previous current, r = .ok (.replaced previous current)) ↔
          ∃ l amount, w.service.store.limitOf? id = some l ∧ u.enabled = true ∧
            u.wantedAmount = .ok amount ∧ u.Replaces l))) := by
  have hs := run.sound.coherent
  obtain ⟨r, t, hrun, -, -, hends⟩ := updateLimit_ends hs.quiet id u w.service.clock
  refine ⟨r, t, hrun, fun ht => ?_⟩
  rcases (hends hs ht).2 with ⟨hmissing, rfl, rfl⟩ | ⟨k, hk, hupdated⟩
  · simp [Store.limitOf?, hmissing]
  · obtain rfl : k.id = id := Store.connection?_id hk
    refine ⟨fun e he => ?_, fun change hchange => ⟨k, hk, ?_⟩, hupdated.not_broken,
      fun hsound => ?_⟩
    · subst he
      rw [hupdated.refused.1]
    · subst hchange
      have htransition := hupdated.transition hs (reachable_keyed run)
        (reachable_timely run) hk ht
      exact ⟨htransition, fun l => htransition.stored⟩
    · rw [Store.limitOf?_stored hk]
      exact hupdated.replaced_iff hsound

/-- On the second day the daily limit gives way to a weekly one. -/
theorem update_one_transition_weekly :
    ∃ w past k previous current t, Run .exact World.Steady (w :: past) ∧
      updateLimit Sample.connection.id ⟨true, some 50, none, some .weekly⟩ w.service.clock
        w.service = .done (.ok (.replaced previous current)) t ∧
      Transition k ⟨true, some 50, none, some .weekly⟩ w.service.clock w.service.store
        (.replaced previous current) t.store ∧
      t.store.limit? previous.id = some previous ∧ t.store.limit? current.id = some current := by
  obtain ⟨w, past, run, hf⟩ := Run.reaches .exact World.Steady ⟨Sample.start, rfl⟩ Uuid.ofNat
    [Sample.created, .clock ⟨Sample.secondDay, rfl⟩]
    (fun w _ => decide (
      (w.service.store.limitOf? Sample.connection.id).map (·.frequency) = some .daily ∧
      w.service.clock = Sample.secondDay ∧
      (updateLimit Sample.connection.id ⟨true, some 50, none, some .weekly⟩ w.service.clock
        w.service).service.FreshIds))
    true (by decide +kernel)
  obtain ⟨hdaily, hclock, hfresh⟩ := of_decide_eq_true hf
  obtain ⟨l, hl, hdaily⟩ := Option.map_eq_some_iff.mp hdaily
  have hreadable : w.service.clock.Readable := by
    rw [hclock]
    exact ⟨"2024-01-02T00:00:00Z", by decide +kernel⟩
  obtain ⟨r, t, hrun, hends⟩ := update_one_transition run Sample.connection.id
    ⟨true, some 50, none, some .weekly⟩
  rw [hrun] at hfresh
  obtain ⟨-, hanswered, hsound, hreplaced⟩ := hends hfresh
  obtain ⟨previous, current, rfl⟩ :=
    (hreplaced (hsound hreadable)).mpr ⟨l, 50, hl, rfl, rfl, .inr (by rw [hdaily]; decide)⟩
  obtain ⟨k, -, htransition, hstored⟩ := hanswered _ rfl
  exact ⟨w, past, k, previous, current, t, run, hrun, htransition,
    hstored previous (.inr rfl), hstored current (.inl rfl)⟩

end WalletBudget
