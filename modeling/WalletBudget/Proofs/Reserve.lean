import WalletBudget.Proofs.HoldPolicy
import WalletBudget.Proofs.LimitChange

/-!
Reserving budget, stretch by stretch.

Before the question to the converter a reservation opens a cycle at most. Behind it, either a hold
is placed on the cycle as it is stored by then, or nothing is written and the search begins again
from the stored connection.
-/

namespace WalletBudget.Service

variable {policy : HoldPolicy} {P : Service → Prop} {b m s t u : Service} {k : Connection}
  {request : RequestId} {intent : Intent} {l : Limit} {now : Instant}

/-- The part of a stretch that has opened cycles at most. Every row that there was is as it was. -/
structure Opening (b m : Service) : Prop where
  writes : Writes True b.clock b m
  clock : m.clock = b.clock
  quiet : m.outages = b.outages
  connections : m.store.connections = b.store.connections
  limits : m.store.limits = b.store.limits
  payments : m.store.payments = b.store.payments
  cycles : Coherent b → m.FreshIds → ∀ id c, b.store.cycle? id = some c →
    m.store.cycle? id = some c

theorem Opening.refl (b : Service) : Opening b b :=
  ⟨.refl, rfl, rfl, rfl, rfl, rfl, fun _ _ _ _ hc => hc⟩

theorem Opening.issue (h : Opening b m) : Opening b m.issue :=
  { h with
    writes := .tail h.writes .issue
    cycles := fun hb hm => h.cycles hb (hm.before ⟨rfl, Nat.le_succ _⟩) }

theorem Opening.activeLimit? (h : Opening b m) (k : Connection) :
    m.store.activeLimit? k = b.store.activeLimit? k := by
  have hlimit : m.store.limit? = b.store.limit? := by
    funext id
    simp only [Store.limit?, h.limits]
  simp only [Store.activeLimit?, hlimit]

theorem Opening.connection? (h : Opening b m) (id : ConnectionId) :
    m.store.connection? id = b.store.connection? id := by
  simp only [Store.connection?, h.connections]

theorem Opening.limit? (h : Opening b m) (id : LimitId) :
    m.store.limit? id = b.store.limit? id := by
  simp only [Store.limit?, h.limits]

theorem Opening.coherent (hb : Coherent b) (h : Opening b m) (hm : m.FreshIds) : Coherent m :=
  (h.writes.rows hb hm).coherent hb

/-- The active limit that a known record leads to is stored and pointed to. -/
theorem Known.limit (hk : Known s k) (hl : s.store.activeLimit? k = some l) :
    s.store.limit? l.id = some l ∧ l.isActive = true ∧ l.connection = k.id ∧
      ∃ k', s.store.connection? l.connection = some k' ∧ k'.limit = some l.id := by
  obtain ⟨hp, hl, ha⟩ := Store.activeLimit?_stored hl
  obtain ⟨l', hl', hc, hpointed⟩ := hk l.id hp
  obtain rfl : l = l' := Option.some.inj (hl.symm.trans hl')
  exact ⟨hl, ha, hc, by rw [hc]; exact hpointed ha⟩

/-- The search for the cycle of an active limit opens one cycle at most. -/
theorem Opening.found {r : Except Abort Cycle} (hs : Opening b s) (hk : Known b k)
    (hl : b.store.activeLimit? k = some l) (h : Found l b.clock s r t) : Opening b t := by
  obtain ⟨hstored, ha, -⟩ := hk.limit hl
  cases h with
  | latest => exact hs
  | opened c start hidle hstart hc hfree =>
    refine { hs with writes := ?_, cycles := fun hb hm id d hd => ?_ }
    · refine .tail hs.writes (.opened l c start ?_ (fun _ => ha) hidle hstart hc hfree)
      rw [hs.limit?, hstored]
    · have hfresh : s.FreshIds := hm.before ⟨rfl, Nat.le_succ _⟩
      obtain ⟨finish, hfields⟩ := createCycle_fresh hc
      have hold := hs.cycles hb hfresh id d hd
      have hnew : s.store.cycle? c.id = none :=
        (hs.coherent hb hfresh).newCycle hm (by rw [hfields]; rfl)
      by_cases hid : c.id = id
      · rw [hid, hold] at hnew
        cases hnew
      · simpa [hid] using hold
  | taken => exact hs.issue
  | lost => exact hs.issue
  | noPeriod => exact hs
  | noCycle => exact hs.issue

/-- What is found is a stored cycle of that limit. -/
theorem Found.cycle {c : Cycle} (hs : Coherent s) (h : Found l now s (.ok c) t) :
    t.store.cycle? c.id = some c ∧ c.limit = l.id := by
  cases h with
  | latest _ hc =>
    obtain ⟨hstored, hlimit, -⟩ := hs.latest hc
    exact ⟨hstored, hlimit⟩
  | opened _ start _ _ hc =>
    obtain ⟨finish, rfl⟩ := createCycle_fresh hc
    exact ⟨by simp, rfl⟩
  | taken _ start x _ _ hx hc =>
    obtain ⟨c', hc', hlimit, -⟩ := hs.indexCycle _ _ x hx
    obtain rfl : c = c' := Option.some.inj (hc.symm.trans hc')
    exact ⟨by simpa [Store.cycle?_id hc] using hc, hlimit⟩

/-- Between a question and its answer nothing is taken back, and the answer comes at a moment with
the property `P`. -/
def Rely (P : Service → Prop) (s t : Service) : Prop := Later s t ∧ P t

/-- A cycle of a limit as it stands in `m`, which a search that began in `u` had found before. -/
structure Sought (u : Service) (l : Limit) (m : Service) (c : Cycle) : Prop where
  later : Later u m
  limit : c.limit = l.id
  found : ∃ v d, Opening u v ∧ v.FreshIds ∧ v.store.cycle? c.id = some d ∧ d.Follows c ∧
    Later v m

/-- Its limit is of the connection that the search was for. -/
theorem Sought.owner {c : Cycle} (h : Sought u l m c) (hk : Known u k)
    (hl : u.store.activeLimit? k = some l) :
    ∃ l', m.store.limit? c.limit = some l' ∧ l'.connection = k.id := by
  obtain ⟨hstored, -, howner, -⟩ := hk.limit hl
  obtain ⟨l', hl', hfollows⟩ := h.later.limits l.id l hstored
  exact ⟨l', h.limit ▸ hl', hfollows.connection.trans howner⟩

/-- A stored cycle whose amounts leave their range: in what is left of it, or under a hold that
still fits. -/
inductive Strained (policy : HoldPolicy) (m : Service) : Prop
  | left (c : Cycle) (hc : m.store.cycle? c.id = some c) (h : c.available = .error .amountRange)
  | hold (c : Cycle) (left estimate hold : Int) (hc : m.store.cycle? c.id = some c)
      (havailable : c.available = .ok left) (hfits : hold ≤ left)
      (hestimate : 0 ≤ estimate)
      (hhold : policy.holdFor estimate = .ok (.ok hold))
      (h : c.placeHold hold = .error .amountRange)

/-- What the last stretch of an attempt comes to, for an attempt that looked for the limit in `u`
and whose stretch began in `b`. -/
inductive Tried (policy : HoldPolicy) (P : Service → Prop) (k : Connection) (request : RequestId)
    (intent : Intent) (u b : Service) : Except Abort (Option Payment) → Service → Prop
  | held (l : Limit) (c : Cycle) (p : Payment) (estimate hold : Int) (m t : Service) (hb : P b)
      (hl : u.store.activeLimit? k = some l) (hm : Opening b m)
      (hplaced : Placed policy m c p hold t) (hc : t.FreshIds → Sought u l m c)
      (hp : p = (Payment.pending p.id request k.id intent u.clock).reserved c.id c.currency
        estimate hold) : Tried policy P k request intent u b (.ok (some p)) t
  | unbudgeted (m : Service) (p : Payment) (hb : P b) (hu : b = u)
      (hnone : b.store.activeLimit? k = none) (hm : Opening b m)
      (hp : p = Payment.pending ⟨m.next⟩ request k.id intent b.clock) :
    Tried policy P k request intent u b (.ok (some p)) (m.issue.write (m.store.filePayment p))
  | ended (l : Limit) (m : Service) (hb : P b) (hl : u.store.activeLimit? k = some l)
      (hm : Opening b m) : Tried policy P k request intent u b (.ok none) m
  | short (l : Limit) (c : Cycle) (left hold : Int) (m : Service) (hb : P b)
      (hl : u.store.activeLimit? k = some l) (hm : Opening b m)
      (hstored : m.store.cycle? c.id = some c) (hlive : c.hasEnded m.clock = false)
      (hc : m.FreshIds → Sought u l m c) (havailable : c.available = .ok left)
      (hshort : left < hold) :
    Tried policy P k request intent u b
      (.error (.refused (.insufficientBudget (some hold) (max left 0)))) m
  | failed (a : Abort) (m : Service) (hm : Opening b m)
      (hne : ∀ hold left, a ≠ .refused (.insufficientBudget (some hold) left))
      (hbroken : a = .broken .amountRange → m.FreshIds → Strained policy m)
      (hunasked : ∀ e, a ≠ .refused (.execution e)) :
    Tried policy P k request intent u b (.error a) m

theorem recordUnbudgeted_tried (policy : HoldPolicy) (request : RequestId) (intent : Intent)
    (hb : P b) (hs : Opening b s) (hq : b.outages = [])
    (hnone : b.store.activeLimit? k = none) :
    ∃ r t, recordUnbudgeted k.id request intent b.clock s = .done r t ∧
      Tried policy P k request intent b b (some <$> r) t := by
  have hq' : s.issue.outages = [] := hs.quiet.trans hq
  simp only [recordUnbudgeted, Task.bind_run, Task.newId_run, Progress.bind_ok,
    Task.tell_quiet hq', Store.insertPayment_eq, issue_store]
  obtain hnew | ⟨old, hold⟩ := Option.eq_none_or_eq_some (s.store.payment? ⟨s.next⟩)
  · simp only [Payment.pending, hnew, Option.isSome_none, Bool.false_eq_true, if_false]
    exact ⟨_, _, rfl, .unbudgeted s _ hb rfl hnone hs rfl⟩
  · simp only [Payment.pending, hold, Option.isSome_some, if_true]
    exact ⟨_, _, rfl, .failed _ _ hs.issue (by simp) (by simp) (by simp)⟩

/-- The locked part of an attempt: the hold is measured on the cycle as it is stored now. -/
theorem placeHold_tried (request : RequestId) (intent : Intent) (hb : P b) (hm : Opening b m)
    (hq : b.outages = []) (hk : Known u k) (hl : u.store.activeLimit? k = some l) {id : CycleId}
    {estimate hold : Int} (hc : ∀ c, m.FreshIds → m.store.cycle? id = some c → Sought u l m c)
    (hestimate : 0 ≤ estimate)
    (hagreed : ∀ c, m.FreshIds → m.store.cycle? id = some c →
      intent.currency.same c.currency = true → estimate = intent.amount)
    (hhold : policy.holdFor estimate = .ok (.ok hold)) :
    ∃ r t, placeHold id k.id request intent estimate hold u.clock m = .done r t ∧
      Tried policy P k request intent u b r t := by
  have hqm : m.outages = [] := hm.quiet.trans hq
  simp only [placeHold, Task.bind_run, Task.locked_quiet hqm, Store.lockCycle]
  cases hstored : m.store.cycle? id with
  | none => exact ⟨_, _, rfl, .failed _ _ hm (by simp) (by simp) (by simp)⟩
  | some c =>
    obtain rfl : c.id = id := Store.cycle?_id hstored
    simp only [Progress.bind_ok, Task.clock_run]
    cases hlive : c.hasEnded m.clock with
    | true => exact ⟨_, _, rfl, .ended l m hb hl hm⟩
    | false =>
      simp only [Bool.false_eq_true, if_false, Task.bind_run]
      cases havailable : c.available with
      | error d =>
        refine ⟨_, _, rfl, .failed _ _ hm (by simp) (fun _ _ => .left c hstored ?_) (by simp)⟩
        rw [havailable, Cycle.available_error havailable]
      | ok left =>
        simp only [Task.sound_ok, Progress.bind_ok]
        by_cases hshort : left < hold
        · simp only [hshort, if_true, Task.refuse_run]
          exact ⟨_, _, rfl, .short l c left hold m hb hl hm hstored hlive
            (fun hf => hc c hf hstored) havailable hshort⟩
        · have hroom : hold ≤ c.limitAmount - c.spent - c.held := by
            have := Cycle.available_ok havailable
            omega
          have hqi : m.issue.outages = [] := hqm
          simp only [hshort, if_false, Task.bind_run, Task.newId_run, Progress.bind_ok]
          cases hplaced : c.placeHold hold with
          | error d =>
            refine ⟨_, _, rfl, .failed _ _ hm.issue (by simp) (fun _ _ => ?_) (by simp)⟩
            refine .hold c left estimate hold hstored havailable (by omega) hestimate hhold ?_
            rw [hplaced, Cycle.placeHold_error hplaced]
          | ok c' =>
            have hrange := Cycle.placeHold_range hplaced
            obtain rfl := Cycle.placeHold_ok hplaced
            simp only [Task.sound_ok, Progress.bind_ok, Task.tell_quiet hqi, Store.commit_some]
            refine ⟨_, _, rfl, .held l c _ estimate hold m _ hb hl hm ?_ ?_ rfl⟩
            · exact {
                cycle := hstored, live := hlive, room := hroom, id := rfl, pending := rfl
                core := rfl, linked := rfl, held := rfl
                priced := ⟨estimate, rfl, hhold, hestimate⟩, positive := intent.amount_pos
                written := rfl, range := hrange, currency := rfl
                agreed := fun hf hsame =>
                  congrArg some (hagreed c (hf.before ⟨rfl, Nat.le_succ _⟩) hstored hsame)
                owner := fun hf => (hc c (hf.before ⟨rfl, Nat.le_succ _⟩) hstored).owner hk hl }
            · intro hfresh
              exact hc c (hfresh.before ⟨rfl, Nat.le_succ _⟩) hstored

/-- The part of an attempt behind its estimate. -/
theorem hold_goes (hb : P b) (hm : Opening b m) (hq : b.outages = []) (hk : Known u k)
    (hl : u.store.activeLimit? k = some l) {id : CycleId} {estimate : Int}
    (hc : ∀ c, m.FreshIds → m.store.cycle? id = some c → Sought u l m c)
    (hestimate : 0 ≤ estimate)
    (hagreed : ∀ c, m.FreshIds → m.store.cycle? id = some c →
      intent.currency.same c.currency = true → estimate = intent.amount) :
    Progress.Goes Opening (Rely P) (Tried policy P k request intent u) b
      ((do
        let hold ← Task.valid (← Task.sound (policy.holdFor estimate))
        placeHold id k.id request intent estimate hold u.clock : Task (Option Payment)) m) := by
  simp only [Task.bind_run]
  cases hhold : policy.holdFor estimate with
  | error d =>
    exact .failed _ m hm (by simp) (by simp [HoldPolicy.holdFor_error hhold]) (by simp)
  | ok valid =>
    cases valid with
    | error e => exact .failed _ m hm (by simp) (by simp) (by simp)
    | ok hold =>
      obtain ⟨r, t, hrun, htried⟩ := placeHold_tried request intent
        hb hm hq hk hl hc hestimate hagreed hhold
      simp only [Task.sound_ok, Progress.bind_ok, Task.valid_ok, hrun]
      exact htried

def negativeEstimate (n : Int) : Abort :=
  .refused (.conversion (.invalidResponse "currency converter"
    ("negative estimate " ++ Digits.signed n)))

/-- What a price is made of: no error and no amount below zero. -/
def priceOf : Except PeerError Int → Except Abort Int
  | .error e => .error (.refused (.conversion e))
  | .ok n => if n < 0 then .error (negativeEstimate n) else .ok n

theorem priceOf_negative {n : Int} (h : n < 0) : priceOf (.ok n) = .error (negativeEstimate n) :=
  if_pos h

theorem priceOf_nonneg {n : Int} (h : 0 ≤ n) : priceOf (.ok n) = .ok n :=
  if_neg (Int.not_lt.mpr h)

theorem priceOf_ok {answer : Except PeerError Int} {n : Int} (h : priceOf answer = .ok n) :
    answer = .ok n ∧ 0 ≤ n := by
  cases answer with
  | error f => cases h
  | ok m =>
    simp only [priceOf] at h
    split at h
    · cases h
    · cases h
      exact ⟨rfl, by omega⟩

theorem priceOf_error {answer : Except PeerError Int} {a : Abort} (h : priceOf answer = .error a) :
    ∃ e, a = .refused (.conversion e) := by
  cases answer with
  | error f =>
    cases h
    exact ⟨f, rfl⟩
  | ok n =>
    simp only [priceOf] at h
    split at h
    · cases h
      exact ⟨_, rfl⟩
    · cases h

theorem price_same {c : Cycle} (h : intent.currency.same c.currency = true) (s : Service) :
    price c intent s = .done (.ok intent.amount) s := by
  simp only [price, h, if_true, Task.pure_run]

theorem price_converted {c : Cycle} (h : intent.currency.same c.currency = false) (s : Service) :
    price c intent s = .convert ⟨intent.currency, intent.amount, c.currency⟩ s
      fun answer t => .done (priceOf answer) t := by
  simp only [price, h, Bool.false_eq_true, if_false, Task.bind_run, Task.convert, Progress.bind]
  congr 1
  funext answer t
  cases answer with
  | error f => rfl
  | ok n => by_cases hneg : n < 0 <;> simp [priceOf, negativeEstimate, hneg]

/-- What the pricing of an intent for a cycle comes to, when it began in `m`. -/
structure Priced (P : Service → Prop) (c : Cycle) (intent : Intent) (m b : Service)
    (r : Except Abort Int) (s : Service) : Prop where
  moment : P b
  opening : Opening b s
  later : Later m s
  nonneg : ∀ n, r = .ok n → 0 ≤ n
  agreed : ∀ n, r = .ok n → intent.currency.same c.currency = true → n = intent.amount
  fits : ∀ hold left, r ≠ .error (.refused (.insufficientBudget (some hold) left))
  sound : ∀ d, r ≠ .error (.broken d)
  unasked : ∀ e, r ≠ .error (.refused (.execution e))

/-- A price is the amount itself, or the answer of the converter if that is not negative. -/
theorem price_goes (hb : P b) (hm : Opening b m) (c : Cycle) (intent : Intent) :
    (price c intent m).Goes Opening (Rely P) (Priced P c intent m) b := by
  cases hsame : intent.currency.same c.currency with
  | true =>
    rw [price_same hsame]
    refine ⟨hb, hm, .refl m, fun n hn => ?_, fun n hn _ => (Except.ok.inj hn).symm, by simp,
      by simp, by simp⟩
    obtain rfl : intent.amount = n := Except.ok.inj hn
    exact Int.le_of_lt intent.amount_pos
  | false =>
    rw [price_converted hsame]
    exact ⟨hm, fun answer t ht =>
      { moment := ht.2
        opening := .refl t
        later := ht.1
        nonneg n hn := (priceOf_ok hn).2
        agreed n _ hagreed := by simp [hsame] at hagreed
        fits hold left h := by simpa using priceOf_error h
        sound d h := by simpa using priceOf_error h
        unasked e h := by simpa using priceOf_error h }⟩

theorem tryReserve_goes (hP : ∀ t, P t → Coherent t) (hb : P b) (hk : Known b k)
    (hs : Opening b s) :
    (tryReserve policy k request intent s).Goes Opening (Rely P)
      (Tried policy P k request intent b) b := by
  have hcoherent := hP b hb
  have hq := hcoherent.quiet
  have hqs : s.outages = [] := hs.quiet.trans hq
  have hactive : activeLimit k s = .done (.ok (s.store.activeLimit? k)) s :=
    activeLimit_stored hqs fun id hp => (hk id hp).imp fun _ hl => (hs.limit? id).trans hl.1
  simp only [tryReserve, Task.bind_run, Task.clock_run, Progress.bind_ok]
  rw [hactive, hs.activeLimit?, Progress.bind_ok, hs.clock]
  cases hl : b.store.activeLimit? k with
  | none =>
    obtain ⟨r, t, hrun, htried⟩ := recordUnbudgeted_tried policy request intent hb hs hq hl
    simp only [Task.bind_run, hrun]
    cases r <;> exact htried
  | some l =>
    obtain ⟨r, m, hrun, hfound⟩ := currentCycle_found hqs l b.clock
    have hm := hs.found hk hl hfound
    simp only [Task.bind_run, hrun]
    cases r with
    | error a =>
      refine .failed a m hm ?_
        (fun ha => absurd (congrArg Except.error ha) hfound.not_amountRange) ?_ <;>
        cases hfound <;> simp
    | ok c =>
      have hstored : m.FreshIds → m.store.cycle? c.id = some c ∧ c.limit = l.id := fun hf =>
        hfound.cycle (hs.coherent hcoherent (hf.before hfound.issued))
      simp only [Progress.bind_ok]
      cases havailable : c.available with
      | error d =>
        refine .failed _ m hm (by simp) (fun _ hf => .left c (hstored hf).1 ?_) (by simp)
        rw [havailable, Cycle.available_error havailable]
      | ok left =>
        simp only [Task.sound_ok, Progress.bind_ok]
        by_cases hleft : left ≤ 0
        · simp only [hleft, if_true]
          exact .failed _ m hm (by simp) (by simp) (by simp)
        · simp only [hleft, if_false, Task.bind_run]
          refine Progress.Goes.bind ((price_goes hb hm c intent).imp ?_)
          rintro b' r s' ⟨hb', hs', hlater, hn, hagreed, hne, hsound, hunasked⟩
          cases r with
          | error a =>
            exact .failed a s' hs' (fun hold left he => hne hold left (by rw [he]))
              (fun ha => absurd (congrArg Except.error ha) (hsound _))
              fun e he => hunasked e (by rw [he])
          | ok n =>
            have hfollows : ∀ c', s'.FreshIds → s'.store.cycle? c.id = some c' → c.Follows c' := by
              intro c' hf hc'
              obtain ⟨c'', hc'', hfollows⟩ := hlater.cycles c.id c (hstored (hlater.fresh hf)).1
              obtain rfl : c' = c'' := Option.some.inj (hc'.symm.trans hc'')
              exact hfollows
            refine hold_goes hb' hs' (hP b' hb').quiet hk hl ?_ (hn n rfl) fun c' hf hc' hsame =>
              hagreed n rfl ((hfollows c' hf hc').currency ▸ hsame)
            intro c' hf hc'
            obtain ⟨hc, hlimit⟩ := hstored (hlater.fresh hf)
            have hfollows := hfollows c' hf hc'
            have hbefore : Later b m := (hm.writes.rows hcoherent (hlater.fresh hf)).later
            exact {
              later := hbefore.trans hlater, limit := hfollows.limit.trans hlimit
              found := ⟨m, c, hm, hlater.fresh hf, Store.cycle?_id hc' ▸ hc, hfollows, hlater⟩ }

/-- A record that an attempt may begin from: the caller's, in the state of the call, or the stored
one at a later moment. There is a second attempt only if the caller's record led to a limit. -/
inductive Source (P : Service → Prop) (called : Service) (k : Connection) :
    Service → Connection → Prop
  | caller : Source P called k called k
  | stored (u : Service) (k' : Connection) (hu : P u) (hk : u.store.connection? k.id = some k')
      (hfirst : ∃ l, called.store.activeLimit? k = some l) : Source P called k u k'

theorem Source.first {called : Service} {k' : Connection} (h : Source P called k u k')
    (hl : u.store.activeLimit? k' = some l) : ∃ l, called.store.activeLimit? k = some l := by
  cases h with
  | caller => exact ⟨l, hl⟩
  | stored _ _ _ _ hfirst => exact hfirst

theorem Source.known (hP : ∀ t, P t → Coherent t) {called : Service} {k' : Connection}
    (hk : Known called k) (h : Source P called k u k') : Known u k' ∧ k'.id = k.id := by
  cases h with
  | caller => exact ⟨hk, rfl⟩
  | stored _ _ hu hk' => exact ⟨(hP u hu).known hk', Store.connection?_id hk'⟩

/-- What the last stretch of a reservation comes to. -/
inductive Reserved (policy : HoldPolicy) (P : Service → Prop) (called : Service) (k : Connection)
    (request : RequestId) (intent : Intent) (b : Service) : Except Abort Payment → Service → Prop
  | held (u : Service) (k' : Connection) (l : Limit) (c : Cycle) (p : Payment)
      (estimate hold : Int) (m t : Service) (hb : P b) (hsource : Source P called k u k')
      (hl : u.store.activeLimit? k' = some l) (hm : Opening b m)
      (hplaced : Placed policy m c p hold t) (hc : t.FreshIds → Sought u l m c)
      (hp : p = (Payment.pending p.id request k.id intent u.clock).reserved c.id c.currency
        estimate hold) : Reserved policy P called k request intent b (.ok p) t
  | unbudgeted (k' : Connection) (m : Service) (p : Payment) (hb : P b)
      (hsource : Source P called k b k') (hnone : b.store.activeLimit? k' = none)
      (hm : Opening b m) (hp : p = Payment.pending ⟨m.next⟩ request k.id intent b.clock) :
    Reserved policy P called k request intent b (.ok p)
      (m.issue.write (m.store.filePayment p))
  | short (u : Service) (k' : Connection) (l : Limit) (c : Cycle) (left hold : Int) (m : Service)
      (hb : P b) (hsource : Source P called k u k') (hl : u.store.activeLimit? k' = some l)
      (hm : Opening b m) (hstored : m.store.cycle? c.id = some c)
      (hlive : c.hasEnded m.clock = false) (hc : m.FreshIds → Sought u l m c)
      (havailable : c.available = .ok left) (hshort : left < hold) :
    Reserved policy P called k request intent b
      (.error (.refused (.insufficientBudget (some hold) (max left 0)))) m
  | failed (a : Abort) (m : Service) (hm : Opening b m)
      (hne : ∀ hold left, a ≠ .refused (.insufficientBudget (some hold) left))
      (hbroken : a = .broken .amountRange → m.FreshIds → Strained policy m)
      (hunasked : ∀ e, a ≠ .refused (.execution e)) :
    Reserved policy P called k request intent b (.error a) m

theorem reserveWithin_goes (hP : ∀ t, P t → Coherent t) {called : Service} (hk : Known called k)
    (n : Nat) {k' : Connection} (hb : P b) (hs : Opening b s)
    (hsource : Source P called k b k') :
    (reserveWithin policy request intent n k' s).Goes Opening (Rely P)
      (Reserved policy P called k request intent) b := by
  induction n generalizing b s k' with
  | zero => exact .failed _ s hs (by simp) (by simp) (by simp)
  | succ n ih =>
    obtain ⟨hknown, hid⟩ := hsource.known hP hk
    simp only [reserveWithin, Task.bind_run]
    refine Progress.Goes.bind ((tryReserve_goes hP hb hknown hs).imp ?_)
    intro b' r t h
    cases h with
    | held l c p estimate hold m _ hb' hl hm hplaced hc hp =>
      rw [hid] at hp
      exact .held b k' l c p estimate hold m t hb' hsource hl hm hplaced hc hp
    | unbudgeted m p hb' hu hnone hm hp =>
      subst hu
      rw [hid] at hp
      exact .unbudgeted k' m p hb' hsource hnone hm hp
    | ended l _ hb' hl hm =>
      have hq : t.outages = [] := hm.quiet.trans (hP b' hb').quiet
      simp only [Task.bind_run, connection_run hq, hm.connection?, hid]
      cases hstored : b'.store.connection? k.id with
      | none => exact .failed _ t hm (by simp) (by simp) (by simp)
      | some stored => exact ih hb' hm (.stored b' stored hb' hstored (hsource.first hl))
    | short l c left hold _ hb' hl hm hstored hlive hc havailable hshort =>
      exact .short b k' l c left hold t hb' hsource hl hm hstored hlive hc havailable hshort
    | failed a _ hm hne hbroken hunasked => exact .failed a t hm hne hbroken hunasked

/-- A reservation is decided by its last stretch, on what the store holds by then. -/
theorem reserve_goes (hP : ∀ t, P t → Coherent t) (hs : P s) (hk : Known s k) :
    (reserve policy k request intent s).Goes Opening (Rely P)
      (Reserved policy P s k request intent) s :=
  reserveWithin_goes hP hk attempts hs (.refl s) .caller

end WalletBudget.Service
