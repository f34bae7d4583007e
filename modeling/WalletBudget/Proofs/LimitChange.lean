import WalletBudget.Proofs.CurrentCycle

/-!
Operations on connections and limits as sequences of writes. They ask no peer, so each is one
stretch of work, whether it ends with an answer, with a refusal or at a defect.
-/

namespace WalletBudget

/-- Rewrites the row of the latest cycle of a limit if that has not ended. -/
def Store.rewriteLive (s : Store) (limit : LimitId) (now : Instant) (change : Cycle → Cycle) :
    Store :=
  match s.latestCycle? limit with
  | none => s
  | some latest =>
    if latest.hasEnded now then s
    else
      match s.cycle? latest.id with
      | some c => s.fileCycle (change c)
      | none => s

namespace Service

variable {now : Instant} {s t : Service} {l : Limit} {k : Connection}

theorem rewriteLiveCycle_run (hq : s.outages = []) (limit : LimitId) (now : Instant)
    (change : Cycle → Cycle) :
    rewriteLiveCycle limit now change s =
      .done (.ok ()) (s.write (s.store.rewriteLive limit now change)) := by
  simp only [rewriteLiveCycle, Store.rewriteLive, Task.bind_run, Task.ask_quiet hq,
    Progress.bind_ok]
  cases hlatest : s.store.latestCycle? limit with
  | none => rfl
  | some d =>
    cases hended : d.hasEnded now with
    | true => simp only [hended, if_true]; rfl
    | false =>
      simp only [hended, Bool.false_eq_true, if_false, Task.bind_run, Task.locked_quiet hq,
        Store.lockCycle]
      cases hc : s.store.cycle? d.id with
      | none =>
        have hne := Table.get?_eq_none_iff.mp hc d (Store.latestCycle?_some hlatest).1
        exact absurd rfl hne
      | some c => simp only [Progress.bind_ok, Task.tell_quiet hq, Store.commit_none]

theorem Coherent.rewriteLive (hs : Coherent s) (limit : LimitId) (now : Instant)
    (change : Cycle → Cycle) :
    (s.store.rewriteLive limit now change = s.store ∧
      ∀ c, s.store.latestCycle? limit = some c → c.hasEnded now = true) ∨
    ∃ c, s.store.latestCycle? limit = some c ∧ c.hasEnded now = false ∧
      s.store.rewriteLive limit now change = s.store.fileCycle (change c) := by
  simp only [Store.rewriteLive]
  cases hlatest : s.store.latestCycle? limit with
  | none => exact .inl ⟨rfl, by simp⟩
  | some c =>
    cases hended : c.hasEnded now with
    | true => exact .inl ⟨by simp [hended], by simpa using hended⟩
    | false => exact .inr ⟨c, rfl, hended, by simp [hended, (hs.latest hlatest).1]⟩

/-- The state after a limit was ended, whatever became of its cycle. -/
def retired (s : Service) (l : Limit) (now : Instant) : Service :=
  s.write ((s.store.fileLimit (l.deactivate now)).rewriteLive l.id now (·.endAt now))

theorem endLimit_run (hq : s.outages = []) (hl : s.store.limit? l.id = some l) (now : Instant) :
    endLimit l now s = .done (.ok (l.deactivate now)) (s.retired l now) := by
  have hq' : (s.write (s.store.fileLimit (l.deactivate now))).outages = [] := hq
  simp only [endLimit, Task.bind_run, Task.tell_quiet hq, Store.updateLimit_eq, deactivate_id, hl,
    Option.isSome_some, if_true, Progress.bind_ok, rewriteLiveCycle_run hq', Task.pure_run]
  rfl

theorem retired_write (hs : Coherent s) (hl : s.store.limit? l.id = some l)
    (ha : l.isActive = true) : Write True now s (s.retired l now) := by
  rcases hs.rewriteLive l.id now (·.endAt now) with ⟨hsame, hidle⟩ | ⟨c, hc, hlive, hchange⟩
  · have : (s.store.fileLimit (l.deactivate now)).rewriteLive l.id now (·.endAt now) =
        s.store.fileLimit (l.deactivate now) := by
      simp only [Store.rewriteLive, Store.latestCycle?_fileLimit]
      split
      · rfl
      · rename_i d hd
        simp [hidle d hd]
    rw [retired, this]
    exact .retire l hl ha hidle
  · have : (s.store.fileLimit (l.deactivate now)).rewriteLive l.id now (·.endAt now) =
        (s.store.fileLimit (l.deactivate now)).fileCycle (c.endAt now) := by
      simp [Store.rewriteLive, hc, hlive, (hs.latest hc).1]
    rw [retired, this]
    exact .close l c hl ha hc hlive

@[simp] theorem connection?_rewriteLive (s : Store) (limit : LimitId) (now : Instant)
    (change : Cycle → Cycle) (id : ConnectionId) :
    (s.rewriteLive limit now change).connection? id = s.connection? id := by
  simp only [Store.rewriteLive]
  repeat' split
  all_goals simp

@[simp] theorem limit?_rewriteLive (s : Store) (limit : LimitId) (now : Instant)
    (change : Cycle → Cycle) (id : LimitId) :
    (s.rewriteLive limit now change).limit? id = s.limit? id := by
  simp only [Store.rewriteLive]
  repeat' split
  all_goals simp

@[simp] theorem payments_rewriteLive (s : Store) (limit : LimitId) (now : Instant)
    (change : Cycle → Cycle) : (s.rewriteLive limit now change).payments = s.payments := by
  simp only [Store.rewriteLive]
  repeat' split
  all_goals rfl

/-- A change of the amount writes nothing, or the limit together with its live cycle. -/
theorem changeAmount_run (hq : s.outages = []) (hl : s.store.limit? l.id = some l) (amount : Int)
    (now : Instant) :
    changeAmount l amount now s =
      if l.amount = amount then .done (.ok .unchanged) s
      else .done (.ok (.amountChanged { l with amount })) (s.write ((s.store.rewriteLive l.id now
        (fun c => { c with limitAmount := amount })).fileLimit { l with amount })) := by
  by_cases he : l.amount = amount
  · simp only [changeAmount, he, if_true]
    rfl
  · have hq' : (s.write (s.store.rewriteLive l.id now
        (fun c => { c with limitAmount := amount }))).outages = [] := hq
    simp only [changeAmount, he, if_false, Task.bind_run, Task.pure_run, Progress.bind_ok,
      rewriteLiveCycle_run hq, Task.tell_quiet hq', Store.updateLimit_eq, write_store,
      limit?_rewriteLive, hl, Option.isSome_some, if_true]
    rfl

theorem changeAmount_write (hs : Coherent s) (hl : s.store.limit? l.id = some l)
    (ha : l.isActive = true) {amount : Int} (hpos : 0 < amount) :
    Write True now s (s.write ((s.store.rewriteLive l.id now
      (fun c => { c with limitAmount := amount })).fileLimit { l with amount })) := by
  rcases hs.rewriteLive l.id now (fun c => { c with limitAmount := amount }) with
    ⟨hsame, hidle⟩ | ⟨c, hc, hlive, hchange⟩
  · rw [hsame]
    exact .reprice l amount hl ha hpos hidle
  · rw [hchange]
    exact .repriceLive l c amount hl ha hpos hc hlive

/-- How an operation ends that asks no peer: what it wrote, if its identifiers were fresh and it
began with tables that fit together. -/
def Ends {α : Type} (now : Instant) (s : Service) (p : Progress α)
    (post : Except Abort α → Service → Prop) : Prop :=
  ∃ r t, p = .done r t ∧ (t.ids = s.ids ∧ s.issued ≤ t.issued) ∧ t.outages = [] ∧
    (Coherent s → t.FreshIds → Writes True now s t ∧ post r t)

namespace Ends

variable {α β : Type} {m : Service} {p : Progress α} {post : Except Abort α → Service → Prop}

/-- Nothing is written. -/
theorem stop (hq : s.outages = []) {r : Except Abort α} (h : post r s) :
    Ends now s (.done r s) post :=
  ⟨r, s, rfl, by simp, hq, fun _ _ => ⟨.refl, h⟩⟩

/-- One write, and what the operation does from there. -/
theorem behind (hids : m.ids = s.ids ∧ s.issued ≤ m.issued) (hw : Coherent s → Write True now s m)
    (h : Ends now m p post) : Ends now s p post := by
  obtain ⟨r, t, hrun, hids', hquiet, hends⟩ := h
  refine ⟨r, t, hrun, ⟨hids'.1.trans hids.1, Nat.le_trans hids.2 hids'.2⟩, hquiet, ?_⟩
  intro hs ht
  have hrows := (hw hs).rows hs (ht.before hids')
  obtain ⟨hwrites, hpost⟩ := hends (hrows.coherent hs) ht
  exact ⟨.head (hw hs) hwrites, hpost⟩

theorem imp {post' : Except Abort α → Service → Prop} (h : Ends now s p post)
    (himp : ∀ r t, post r t → post' r t) : Ends now s p post' := by
  obtain ⟨r, t, hrun, hids, hquiet, hends⟩ := h
  exact ⟨r, t, hrun, hids, hquiet, fun hs ht => (hends hs ht).imp_right (himp r t)⟩

/-- The answer becomes a part of another one. -/
theorem value {post' : Except Abort β → Service → Prop} (h : Ends now s p post) (f : α → β)
    (hpost : ∀ r t, post r t → post' (r.map f) t) :
    Ends now s (p.bind fun a t => .done (.ok (f a)) t) post' := by
  obtain ⟨r, t, rfl, hids, hquiet, hends⟩ := h
  cases r <;> exact ⟨_, t, rfl, hids, hquiet, fun hs ht => (hends hs ht).imp_right (hpost _ t)⟩

end Ends

/-- A connection may be pointed to a limit that was just filed, if it leads to no active one. -/
theorem pointer_write (hs : Coherent s) (hk : s.store.connection? k.id = some k)
    (hnone : s.store.activeLimit? k = none) (hnew : s.store.limit? l.id = none)
    (hconnection : l.connection = k.id) (hconnections : t.store.connection? = s.store.connection?)
    (hlimits : t.store.limit? = (s.store.fileLimit l).limit?) :
    Write True now t (t.write (t.store.saveConnection { k with limit := some l.id })) := by
  refine .point k (some l.id) (by rw [hconnections, hk]) ?_ ?_
  · intro id hid
    obtain rfl : l.id = id := Option.some.inj hid
    exact ⟨l, by simp [hlimits], hconnection⟩
  · intro id l' hp hl'
    have hne : l.id ≠ id := by
      rintro rfl
      obtain ⟨old, hold, -⟩ := hs.pointer _ k hk _ hp
      rw [hnew] at hold
      cases hold
    exact Store.activeLimit?_none hnone hp (by simpa [hlimits, hne] using hl')

/-- What the setting up of a limit comes to: the limit, its first cycle and the pointer to it, or
the limit alone where its first period would end behind the last instant. -/
inductive Started (k : Connection) (currency : Currency) (amount : Int) (frequency : Frequency)
    (now : Instant) (s : Service) : Except Abort Limit → Service → Prop
  | started (l : Limit) (c : Cycle)
      (hl : l = ⟨⟨s.next⟩, k.id, currency, amount, frequency, now, none⟩)
      (hc : l.createCycle ⟨s.issue.next⟩ now = .ok c) :
    Started k currency amount frequency now s (.ok l) (s.issue.issue.write
      ((((s.store.fileLimit l).indexCycle c).fileCycle c).saveConnection
        { k with limit := some l.id }))
  | broken (l : Limit) (d : Defect)
      (hl : l = ⟨⟨s.next⟩, k.id, currency, amount, frequency, now, none⟩)
      (hc : l.createCycle ⟨s.issue.next⟩ now = .error d) :
    Started k currency amount frequency now s (.error (.broken d))
      (s.issue.issue.write (s.store.fileLimit l))

/-- A limit that is not stored has no cycles. -/
theorem Coherent.noCycles (hs : Coherent s) {id : LimitId} (hnew : s.store.limit? id = none) :
    s.store.latestCycle? id = none ∧ ∀ start, s.store.startOf? id start = none := by
  have hnone : ∀ cycle c, s.store.cycle? cycle = some c → c.limit ≠ id := by
    rintro cycle c hc rfl
    obtain ⟨l, hl⟩ := hs.cycleLimit cycle c hc
    rw [hnew] at hl
    cases hl
  constructor
  · cases hlatest : s.store.latestCycle? id with
    | none => rfl
    | some c =>
      obtain ⟨hc, hlimit, -⟩ := hs.latest hlatest
      exact absurd hlimit (hnone c.id c hc)
  · intro start
    cases hx : s.store.startOf? id start with
    | none => rfl
    | some x =>
      obtain ⟨c, hc, hlimit, -⟩ := hs.indexCycle id start x hx
      exact absurd hlimit (hnone _ c hc)

theorem startLimit_ends (hq : s.outages = []) (hk : s.store.connection? k.id = some k)
    (hnone : s.store.activeLimit? k = none) (currency : Currency) {amount : Int}
    (hpos : 0 < amount) (frequency : Frequency) (now : Instant) :
    Ends now s (startLimit k currency amount frequency now s)
      (Started k currency amount frequency now s) := by
  obtain ⟨l, hl⟩ : ∃ l : Limit, l = ⟨⟨s.next⟩, k.id, currency, amount, frequency, now, none⟩ :=
    ⟨_, rfl⟩
  have hcreate : Limit.create ⟨s.next⟩ k.id currency amount frequency now = .ok l := by
    have : ¬ amount ≤ 0 := by omega
    simp only [Limit.create, checkLimitAmount, this, if_false, hl]
    rfl
  have hstart : l.start = now := by rw [hl]
  have hq₁ : s.issue.outages = [] := hq
  simp only [startLimit, Task.bind_run, Task.newId_run, Progress.bind_ok, hcreate, Task.valid_ok,
    Task.tell_quiet hq₁, Store.insertLimit_eq, issue_store]
  obtain hnew | ⟨old, hold⟩ := Option.eq_none_or_eq_some (s.store.limit? l.id)
  · obtain ⟨s₁, hs₁⟩ : ∃ s₁, s₁ = s.issue.write (s.store.fileLimit l) := ⟨_, rfl⟩
    have hq₂ : s₁.outages = [] := by rw [hs₁]; exact hq
    have hbegin : Write True now s s₁ := by
      rw [hs₁]
      exact .begin l (by rw [hl]) (by rw [hl]; rfl) hstart (by rw [hl]; exact hpos)
    obtain ⟨r, t, hrun, hfound⟩ := currentCycle_found hq₂ l now
    simp only [hnew, Option.isSome_none, Bool.false_eq_true, if_false, Progress.bind_ok, ← hs₁,
      hrun]
    cases hfound with
    | latest c hc hlive =>
      simp only [Progress.bind_ok, Task.tell_quiet hq₂, Task.pure_run]
      refine ⟨_, _, rfl, by simp [hs₁], hq₂, fun hs _ => ?_⟩
      have hno := (hs.noCycles hnew).1
      simp [hs₁, hno] at hc
    | opened c start hidle hbegins hc hfree =>
      obtain rfl : now = start :=
        Except.ok.inj ((hstart ▸ l.periodStart_start).symm.trans hbegins)
      have hq₃ : (s₁.issue.write ((s₁.store.indexCycle c).fileCycle c)).outages = [] := hq₂
      simp only [Progress.bind_ok, Task.tell_quiet hq₃, Task.pure_run]
      refine ⟨_, _, rfl, by simp [hs₁, Nat.le_add_right_of_le], hq₂, fun hs _ => ⟨?_, ?_⟩⟩
      · have hopen : Write True now s₁
            (s₁.issue.write ((s₁.store.indexCycle c).fileCycle c)) :=
          .opened l c now (by simp [hs₁]) (fun _ => by rw [hl]; rfl) hidle hbegins hc hfree
        refine .tail (.tail (.single hbegin) hopen) ?_
        exact pointer_write hs hk hnone hnew (by rw [hl]) (by rw [hs₁]; rfl) (by rw [hs₁]; rfl)
      · rw [hs₁] at hc ⊢
        exact .started l c hl hc
    | taken c start x hidle hbegins hx hc =>
      have hq₃ : s₁.issue.outages = [] := hq₂
      simp only [Progress.bind_ok, Task.tell_quiet hq₃, Task.pure_run]
      refine ⟨_, _, rfl, by simp [hs₁, Nat.le_add_right_of_le], hq₂, fun hs _ => ?_⟩
      have hno := (hs.noCycles hnew).2 start
      simp [hs₁, hno] at hx
    | lost start x hx hc e =>
      refine ⟨_, _, rfl, by simp [hs₁, Nat.le_add_right_of_le], hq₂, fun hs _ => ?_⟩
      have hno := (hs.noCycles hnew).2 start
      simp [hs₁, hno] at hx
    | noPeriod d hbegins =>
      rw [← hstart, l.periodStart_start] at hbegins
      cases hbegins
    | noCycle d start hbegins hc =>
      obtain rfl : now = start :=
        Except.ok.inj ((hstart ▸ l.periodStart_start).symm.trans hbegins)
      refine ⟨_, _, rfl, by simp [hs₁, Nat.le_add_right_of_le], hq₂, fun _ _ => ⟨?_, ?_⟩⟩
      · exact .tail (.single hbegin) .issue
      · rw [hs₁] at hc ⊢
        exact .broken l d hl hc
  · simp only [hold, Option.isSome_some, if_true]
    refine ⟨_, _, rfl, by simp, hq, fun hs ht => ?_⟩
    have hno := hs.newLimit (l := l) ht (by rw [hl])
    rw [hold] at hno
    cases hno

theorem wantedAmount_pos {u : LimitUpdate} {amount : Int} (h : u.wantedAmount = .ok amount) :
    0 < amount := by
  simp only [LimitUpdate.wantedAmount, checkLimitAmount, bind, Except.bind, pure,
    Except.pure] at h
  split at h
  · cases h
  · split at h
    · cases h
    · rename_i hcheck
      cases h
      split at hcheck
      · cases hcheck
      · omega

/-- What leads from a record to its active limit leads to an ended one when that is retired. -/
theorem retired_inactive (hl : s.store.activeLimit? k = some l) (now : Instant) {id : LimitId}
    {l' : Limit} (hp : k.limit = some id) (hl' : (s.retired l now).store.limit? id = some l') :
    l'.isActive = false := by
  obtain ⟨hp', -⟩ := Store.activeLimit?_stored hl
  obtain rfl : l.id = id := Option.some.inj (hp'.symm.trans hp)
  obtain rfl : l.deactivate now = l' := by simpa [retired] using hl'
  exact deactivate_inactive l now

/-- What a change of the limit of a stored connection comes to. -/
inductive Updated (k : Connection) (u : LimitUpdate) (now : Instant) (s : Service) :
    Except Abort LimitChange → Service → Prop
  | unlimited (hu : u.enabled = false) (hnone : s.store.activeLimit? k = none) :
    Updated k u now s (.ok (.disabled none)) s
  | disabled (l : Limit) (hu : u.enabled = false) (hl : s.store.activeLimit? k = some l) :
    Updated k u now s (.ok (.disabled (some (l.deactivate now))))
      ((s.retired l now).write ((s.retired l now).store.saveConnection { k with limit := none }))
  | invalid (e : ValidationError) (hu : u.enabled = true) (he : u.wantedAmount = .error e) :
    Updated k u now s (.error (.refused (.validation e))) s
  | created (amount : Int) (r : Except Abort Limit) (t : Service) (hu : u.enabled = true)
      (hamount : u.wantedAmount = .ok amount) (hnone : s.store.activeLimit? k = none)
      (hstarted : Started k (u.currency.getD k.budgetCurrency) amount (u.frequency.getD .never) now
        s r t) : Updated k u now s (r.map .created) t
  | unchanged (l : Limit) (hu : u.enabled = true) (hamount : u.wantedAmount = .ok l.amount)
      (hl : s.store.activeLimit? k = some l)
      (hsame : l.frequency = u.frequency.getD .never ∧
        l.currency.same (u.currency.getD l.currency)) : Updated k u now s (.ok .unchanged) s
  | amountChanged (l : Limit) (amount : Int) (hu : u.enabled = true)
      (hamount : u.wantedAmount = .ok amount) (hl : s.store.activeLimit? k = some l)
      (hsame : l.frequency = u.frequency.getD .never ∧
        l.currency.same (u.currency.getD l.currency)) (hne : l.amount ≠ amount) :
    Updated k u now s (.ok (.amountChanged { l with amount })) (s.write ((s.store.rewriteLive l.id
      now (fun c => { c with limitAmount := amount })).fileLimit { l with amount }))
  | replaced (l : Limit) (amount : Int) (r : Except Abort Limit) (t : Service)
      (hu : u.enabled = true) (hamount : u.wantedAmount = .ok amount)
      (hl : s.store.activeLimit? k = some l)
      (hother : ¬ (l.frequency = u.frequency.getD .never ∧
        l.currency.same (u.currency.getD l.currency)))
      (hstarted : Started k (u.currency.getD l.currency) amount (u.frequency.getD .never) now
        (s.retired l now) r t) :
    Updated k u now s (r.map (.replaced (l.deactivate now))) t

theorem enableLimit_ends (hq : s.outages = []) (hk : s.store.connection? k.id = some k)
    {u : LimitUpdate} (hu : u.enabled = true) (now : Instant) :
    Ends now s (enableLimit k (s.store.activeLimit? k) u now s) (Updated k u now s) := by
  simp only [enableLimit, Task.bind_run]
  cases hamount : u.wantedAmount with
  | error e => exact .stop hq (.invalid e hu hamount)
  | ok amount =>
    have hpos := wantedAmount_pos hamount
    simp only [Task.valid_ok, Progress.bind_ok]
    cases hlimit : s.store.activeLimit? k with
    | none =>
      exact (startLimit_ends hq hk hlimit _ hpos _ now).value _ fun r t h =>
        .created amount r t hu hamount hlimit h
    | some l =>
      obtain ⟨-, hl, ha⟩ := Store.activeLimit?_stored hlimit
      dsimp only
      split
      · rename_i hsame
        rw [changeAmount_run hq hl]
        split
        · rename_i he
          subst he
          exact .stop hq (.unchanged l hu hamount hlimit hsame)
        · rename_i hne
          have hchanged : (s.write ((s.store.rewriteLive l.id now
              (fun c => { c with limitAmount := amount })).fileLimit { l with amount })).outages =
                [] := hq
          refine .behind (by simp) (fun hs => changeAmount_write hs hl ha hpos) ?_
          exact .stop hchanged (.amountChanged l amount hu hamount hlimit hsame hne)
      · rename_i hother
        have hretired : (s.retired l now).outages = [] := hq
        have hsaved : (s.retired l now).store.connection? k.id = some k := by
          simpa [retired] using hk
        have hnone : (s.retired l now).store.activeLimit? k = none := by
          cases h : (s.retired l now).store.activeLimit? k with
          | none => rfl
          | some l' =>
            obtain ⟨id, hp', hl', ha'⟩ := Store.activeLimit?_some.mp h
            rw [retired_inactive hlimit now hp' hl'] at ha'
            cases ha'
        simp only [Task.bind_run, endLimit_run hq hl, Progress.bind_ok]
        refine .behind (by simp [retired]) (fun hs => retired_write hs hl ha) ?_
        exact (startLimit_ends hretired hsaved hnone _ hpos _ now).value _ fun r t h =>
          .replaced l amount r t hu hamount hlimit hother h

theorem disableLimit_ends (hq : s.outages = []) (hk : s.store.connection? k.id = some k)
    {u : LimitUpdate} (hu : u.enabled = false) (now : Instant) :
    Ends now s (disableLimit k (s.store.activeLimit? k) now s) (Updated k u now s) := by
  cases hlimit : s.store.activeLimit? k with
  | none => exact .stop hq (.unlimited hu hlimit)
  | some l =>
    obtain ⟨-, hl, ha⟩ := Store.activeLimit?_stored hlimit
    have hretired : (s.retired l now).outages = [] := hq
    have hsaved : (s.retired l now).store.connection? k.id = some k := by simpa [retired] using hk
    have hunpointed : ((s.retired l now).write
        ((s.retired l now).store.saveConnection { k with limit := none })).outages = [] := hq
    simp only [disableLimit, Task.bind_run, endLimit_run hq hl, Progress.bind_ok,
      Task.tell_quiet hretired, Task.pure_run]
    refine .behind (by simp [retired]) (fun hs => retired_write hs hl ha) ?_
    refine .behind (by simp) (fun _ => .point k none hsaved (by simp) ?_) ?_
    · exact fun _ _ hp hl' => retired_inactive hlimit now hp hl'
    · exact .stop hunpointed (.disabled l hu hlimit)

theorem updateLimit_ends (hq : s.outages = []) (id : ConnectionId) (u : LimitUpdate)
    (now : Instant) : Ends now s (updateLimit id u now s) (fun r t =>
      s.store.connection? id = none ∧ r = .error (.refused (.connectionNotFound id)) ∧ t = s ∨
      ∃ k, s.store.connection? id = some k ∧ Updated k u now s r t) := by
  simp only [updateLimit, Task.bind_run, connection_run hq]
  cases hk : s.store.connection? id with
  | none => exact .stop hq (.inl ⟨rfl, rfl, rfl⟩)
  | some k =>
    obtain rfl : k.id = id := Store.connection?_id hk
    simp only [Progress.bind_ok]
    rcases activeLimit_run hq k with hactive | ⟨limit, hp, hmissing, hactive⟩
    · rw [hactive, Progress.bind_ok]
      cases hu : u.enabled with
      | true => exact (enableLimit_ends hq hk hu now).imp fun r t h => .inr ⟨k, rfl, h⟩
      | false => exact (disableLimit_ends hq hk hu now).imp fun r t h => .inr ⟨k, rfl, h⟩
    · rw [hactive]
      refine ⟨_, s, rfl, by simp, hq, fun hs _ => ?_⟩
      obtain ⟨l, hl, -⟩ := hs.pointer _ k hk limit hp
      rw [hmissing] at hl
      cases hl

/-- What a caller's copy of a connection still tells: where it points to an active limit, so does
the stored record. -/
def Known (s : Service) (k : Connection) : Prop :=
  ∀ limit, k.limit = some limit → ∃ l, s.store.limit? limit = some l ∧ l.connection = k.id ∧
    (l.isActive = true → ∃ k', s.store.connection? k.id = some k' ∧ k'.limit = some limit)

theorem Coherent.known (hs : Coherent s) {id : ConnectionId}
    (hk : s.store.connection? id = some k) : Known s k := by
  intro limit hp
  obtain rfl : k.id = id := Store.connection?_id hk
  obtain ⟨l, hl, hc⟩ := hs.pointer _ k hk limit hp
  exact ⟨l, hl, hc, fun _ => ⟨k, hk, hp⟩⟩

theorem Known.later (hk : Known s k) (h : Later s t) : Known t k := by
  intro limit hp
  obtain ⟨l, hl, hc, hpointed⟩ := hk limit hp
  obtain ⟨l', hl', hf⟩ := h.limits limit l hl
  refine ⟨l', hl', hf.connection.trans hc, fun ha => ?_⟩
  obtain ⟨k', hk', hp'⟩ := hpointed (hf.active ha)
  exact h.pointers k.id k' limit l l' hk' hp' hl hl' ha

/-- What the setting up of a connection comes to: the connection alone, or with the outcome of the
change of its limit. -/
inductive Connected (currency : Currency) (token : Option String) (limit : Option LimitUpdate)
    (now : Instant) (s : Service) : Except Abort Connection → Service → Prop
  | plain (k : Connection) (hk : k = Connection.create ⟨s.next⟩ currency token now)
      (hplain : ∀ u, limit = some u → u.enabled = false) :
    Connected currency token limit now s (.ok k) (s.issue.write (s.store.saveConnection k))
  | limited (k k' : Connection) (u : LimitUpdate) (change : LimitChange) (t : Service)
      (hk : k = Connection.create ⟨s.next⟩ currency token now) (hlimit : limit = some u)
      (hu : u.enabled = true)
      (hupdated : Updated k u now (s.issue.write (s.store.saveConnection k)) (.ok change) t)
      (hk' : t.store.connection? k.id = some k') : Connected currency token limit now s (.ok k') t
  | failed (k : Connection) (u : LimitUpdate) (a : Abort) (t : Service)
      (hk : k = Connection.create ⟨s.next⟩ currency token now) (hlimit : limit = some u)
      (hu : u.enabled = true)
      (hupdated : Updated k u now (s.issue.write (s.store.saveConnection k)) (.error a) t) :
    Connected currency token limit now s (.error a) t

theorem createConnection_ends (hq : s.outages = []) (currency : Currency) (token : Option String)
    (limit : Option LimitUpdate) (now : Instant) :
    Ends now s (createConnection currency token limit now s) (fun r t =>
      Connected currency token limit now s r t ∧ ∀ k, r = .ok k → Known t k) := by
  obtain ⟨k, hk⟩ : ∃ k, k = Connection.create ⟨s.next⟩ currency token now := ⟨_, rfl⟩
  have hq₁ : s.issue.outages = [] := hq
  obtain ⟨s₁, hs₁⟩ : ∃ s₁, s₁ = s.issue.write (s.store.saveConnection k) := ⟨_, rfl⟩
  have hq₂ : s₁.outages = [] := by rw [hs₁]; exact hq
  have hsaved : s₁.store.connection? k.id = some k := by simp [hs₁]
  have hconnect : Write True now s s₁ := by
    rw [hs₁]
    exact .connect k (by rw [hk]; rfl) (by rw [hk]; rfl)
  simp only [createConnection, Task.bind_run, Task.newId_run, Progress.bind_ok, ← hk,
    Task.tell_quiet hq₁, issue_store, ← hs₁]
  refine .behind hconnect.issued (fun _ => hconnect) ?_
  have hstop (hplain : ∀ u, limit = some u → u.enabled = false) :
      Ends now s₁ (.done (.ok k) s₁) (fun r t =>
        Connected currency token limit now s r t ∧ ∀ k, r = .ok k → Known t k) := by
    refine .stop hq₂ ⟨by rw [hs₁]; exact .plain k hk hplain, fun k' he limit hp => ?_⟩
    obtain rfl : k = k' := Except.ok.inj he
    rw [hk] at hp
    cases hp
  cases limit with
  | none => exact hstop (by simp)
  | some u =>
    cases hu : u.enabled with
    | false =>
      simp only [hu, Bool.false_eq_true, if_false]
      exact hstop (by simpa using hu)
    | true =>
      obtain ⟨r, t, hrun, hids, hquiet, hends⟩ := updateLimit_ends hq₂ k.id u now
      have hupdated (hs : Coherent s₁) (ht : t.FreshIds) : Updated k u now s₁ r t := by
        rcases (hends hs ht).2 with ⟨hmissing, -⟩ | ⟨k', hk', hupdated⟩
        · rw [hsaved] at hmissing
          cases hmissing
        · obtain rfl : k = k' := Option.some.inj (hsaved.symm.trans hk')
          exact hupdated
      simp only [hu, if_true, Task.bind_run, hrun]
      cases r with
      | error e =>
        refine ⟨_, t, rfl, hids, hquiet, fun hs ht => ⟨(hends hs ht).1, ?_, by simp⟩⟩
        exact .failed k u e t hk rfl hu (hs₁ ▸ hupdated hs ht)
      | ok change =>
        simp only [Progress.bind_ok, connection_run hquiet]
        cases hk' : t.store.connection? k.id with
        | none =>
          refine ⟨_, t, rfl, hids, hquiet, fun hs ht => ?_⟩
          obtain ⟨k', hk'', -⟩ := ((hends hs ht).1.rows hs ht).later.connections k.id k hsaved
          rw [show t.store.connection? k.id = some k' from hk''] at hk'
          cases hk'
        | some k' =>
          refine ⟨_, t, rfl, hids, hquiet, fun hs ht => ⟨(hends hs ht).1, ?_, ?_⟩⟩
          · exact .limited k k' u change t hk rfl hu (hs₁ ▸ hupdated hs ht) hk'
          · intro k'' he
            obtain rfl : k' = k'' := Except.ok.inj he
            exact (((hends hs ht).1.rows hs ht).coherent hs).known hk'

end Service

end WalletBudget
