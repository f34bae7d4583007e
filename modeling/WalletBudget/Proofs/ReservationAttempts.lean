import WalletBudget.Proofs.RefusedReservation

/-!
The attempts of a reservation, and what each of them asks the converter.

An attempt looks for a cycle on its own and asks for a price in the currency of that cycle, or asks
nothing. Another attempt follows only where the cycle of the one before had ended when it was
locked, and it begins again from the stored record, so no estimate is used for two cycles.
-/

namespace WalletBudget

open Service

variable {policy : HoldPolicy} {rule : World → Event → Prop} {k : Connection} {request : RequestId}
  {intent : Intent} {s t u : Service} {c : Cycle} {e : Option Exchange} {log : List Exchange}
  {p : Progress Payment}

/-- One attempt of a reservation: the record and the service that it began with, what passed between
it and the converter, and how it ended if it is over. -/
structure Attempt where
  record : Connection
  began : Service
  exchange : Option Exchange
  outcome : Option (Except Abort (Option Payment) × Service)

/-- The search for a cycle from a record ends with this one: the current cycle of the active limit
that the record leads to. -/
def Finds (k : Connection) (s : Service) (c : Cycle) : Prop :=
  ∃ l m, s.store.activeLimit? k = some l ∧ currentCycle l s.clock s = .done (.ok c) m

/-- There is something left in the cycle that is found, and it is not in the currency to be sent. -/
def Needs (k : Connection) (s : Service) (intent : Intent) : Prop :=
  ∃ c left, Finds k s c ∧ c.available = .ok left ∧ 0 < left ∧
    intent.currency.same c.currency = false

/-- What an attempt with this exchange estimates an intent to cost in the currency of a cycle. -/
inductive Estimates (intent : Intent) (c : Cycle) : Option Exchange → Int → Prop
  | same (h : intent.currency.same c.currency = true) : Estimates intent c none intent.amount
  | converted (q : Conversion) (n : Int) (t : Service)
      (h : intent.currency.same c.currency = false) :
    Estimates intent c (some ⟨q, some (.ok n, t)⟩) n

/-- How an attempt ends that found its cycle from the record `k` in `s` and had the exchange `e`. -/
structure Attempt.Ends (policy : HoldPolicy) (intent : Intent) (k : Connection) (s : Service)
    (e : Option Exchange) (r : Except Abort (Option Payment)) (u : Service) : Prop where
  quiet : u.outages = []
  /-- It comes to nothing only where its cycle has ended by the time it is locked. -/
  again : r = .ok none → ∃ c d, Finds k s c ∧ u.store.cycle? c.id = some d ∧
    d.hasEnded u.clock = true
  /-- A hold is computed from the estimate of the attempt itself, for the cycle it found. -/
  held : ∀ p, r = .ok (some p) → p.cycle = none ∧ s.store.activeLimit? k = none ∨
    ∃ c estimate hold, Finds k s c ∧ Estimates intent c e estimate ∧
      policy.holdFor estimate = .ok (.ok hold) ∧ p.cycle = some c.id ∧
      p.estimate = some estimate ∧ p.hold = some hold

/-- How an attempt runs. It asks for the price of the intent in the currency of the cycle it found
if it needs a conversion, and asks nothing otherwise. A price below zero is refused. -/
inductive Attempt.Runs (policy : HoldPolicy) (intent : Intent) (k : Connection) (s : Service) :
    Progress (Option Payment) → Prop
  | alone {r : Except Abort (Option Payment)} {u : Service} (hneeds : ¬ Needs k s intent)
      (hends : Attempt.Ends policy intent k s none r u) : Runs policy intent k s (.done r u)
  | asks {c : Cycle} {m : Service}
      {resume : Except PeerError Int → Service → Progress (Option Payment)} (hc : Finds k s c)
      (hneeds : Needs k s intent)
      (hends : ∀ answer t, t.outages = [] → ∃ r u, resume answer t = .done r u ∧
        (∀ n, answer = .ok n → n < 0 → r = .error (negativeEstimate n)) ∧
        Attempt.Ends policy intent k s
          (some ⟨⟨intent.currency, intent.amount, c.currency⟩, some (answer, t)⟩) r u) :
    Runs policy intent k s (.convert ⟨intent.currency, intent.amount, c.currency⟩ m resume)

theorem Finds.unique {d : Cycle} (hc : Finds k s c) (hd : Finds k s d) : c = d := by
  obtain ⟨l, m, hl, hm⟩ := hc
  obtain ⟨l', m', hl', hm'⟩ := hd
  obtain rfl : l = l' := Option.some.inj (hl.symm.trans hl')
  rw [hm] at hm'
  cases hm'
  rfl

namespace Service

theorem recordUnbudgeted_ends (policy : HoldPolicy) (request : RequestId) (intent : Intent)
    (hq : s.outages = []) (hnone : s.store.activeLimit? k = none) :
    ∃ r u, recordUnbudgeted k.id request intent s.clock s = .done r u ∧
      Attempt.Ends policy intent k s none (some <$> r) u := by
  have hq' : s.issue.outages = [] := hq
  simp only [recordUnbudgeted, Task.bind_run, Task.newId_run, Progress.bind_ok,
    Task.tell_quiet hq', Store.insertPayment_eq, issue_store]
  split
  · exact ⟨_, _, rfl, hq, by simp [Functor.map, Except.map], by simp [Functor.map, Except.map]⟩
  · refine ⟨_, _, rfl, hq, by simp [Functor.map, Except.map], fun p hp => .inl ⟨?_, hnone⟩⟩
    cases hp
    rfl

/-- The locked part of an attempt, with the cycle it found and its estimate behind it. -/
theorem placeHold_ends (hq : t.outages = []) (hc : Finds k s c) {estimate hold : Int}
    (hestimate : Estimates intent c e estimate) (hhold : policy.holdFor estimate = .ok (.ok hold))
    (now : Instant) :
    ∃ r u, placeHold c.id k.id request intent estimate hold now t = .done r u ∧
      Attempt.Ends policy intent k s e r u := by
  have hq' : t.issue.outages = [] := hq
  simp only [placeHold, Task.bind_run, Task.locked_quiet hq, Store.lockCycle]
  cases hstored : t.store.cycle? c.id with
  | none => exact ⟨_, _, rfl, hq, by simp, by simp⟩
  | some d =>
    simp only [Progress.bind_ok, Task.clock_run]
    cases hended : d.hasEnded t.clock with
    | true => exact ⟨_, _, rfl, hq, fun _ => ⟨c, d, hc, hstored, hended⟩, by simp⟩
    | false =>
      simp only [Bool.false_eq_true, if_false, Task.bind_run]
      cases d.available with
      | error f => exact ⟨_, _, rfl, hq, by simp, by simp⟩
      | ok left =>
        simp only [Task.sound_ok, Progress.bind_ok]
        split
        · exact ⟨_, _, rfl, hq, by simp, by simp⟩
        · simp only [Task.bind_run, Task.newId_run, Progress.bind_ok]
          cases d.placeHold hold with
          | error f => exact ⟨_, _, rfl, hq, by simp, by simp⟩
          | ok placed =>
            simp only [Task.sound_ok, Progress.bind_ok, Task.tell_quiet hq']
            refine ⟨_, _, rfl, hq, by simp, fun p hp => .inr ?_⟩
            cases hp
            exact ⟨c, estimate, hold, hc, hestimate, hhold, rfl, rfl, rfl⟩

/-- The part of an attempt behind its estimate. -/
theorem estimated_ends (policy : HoldPolicy) (request : RequestId) (hq : t.outages = [])
    (hc : Finds k s c) {estimate : Int} (hestimate : Estimates intent c e estimate)
    (now : Instant) :
    ∃ r u, (do
        let hold ← Task.valid (← Task.sound (policy.holdFor estimate))
        placeHold c.id k.id request intent estimate hold now : Task (Option Payment)) t =
          .done r u ∧ Attempt.Ends policy intent k s e r u := by
  simp only [Task.bind_run]
  cases hhold : policy.holdFor estimate with
  | error d => exact ⟨_, _, rfl, hq, by simp, by simp⟩
  | ok valid =>
    cases valid with
    | error f => exact ⟨_, _, rfl, hq, by simp, by simp⟩
    | ok hold =>
      obtain ⟨r, u, hrun, hends⟩ := placeHold_ends hq hc hestimate hhold now
      exact ⟨r, u, hrun, hends⟩

/-- An attempt goes on from the cycle it has found. -/
theorem foundCycle_runs (hq : t.outages = []) (hc : Finds k s c) (now : Instant) :
    Attempt.Runs policy intent k s
      ((do
        let left ← Task.sound c.available
        if left ≤ 0 then Task.refuse (.insufficientBudget none (max left 0))
        else do
          let estimate ← price c intent
          let hold ← Task.valid (← Task.sound (policy.holdFor estimate))
          placeHold c.id k.id request intent estimate hold now : Task (Option Payment)) t) := by
  have hneeds : Needs k s intent ↔ ∃ left, c.available = .ok left ∧ 0 < left ∧
      intent.currency.same c.currency = false := by
    constructor
    · rintro ⟨d, left, hd, h⟩
      obtain rfl := hc.unique hd
      exact ⟨left, h⟩
    · rintro ⟨left, h⟩
      exact ⟨c, left, hc, h⟩
  simp only [Task.bind_run]
  cases hleft : c.available with
  | error d => exact .alone (by simp [hneeds, hleft]) ⟨hq, by simp, by simp⟩
  | ok left =>
    simp only [hleft, Except.ok.injEq, exists_eq_left'] at hneeds
    simp only [Task.sound_ok, Progress.bind_ok]
    by_cases hempty : left ≤ 0
    · simp only [hempty, if_true]
      exact .alone (by rw [hneeds]; omega) ⟨hq, by simp, by simp⟩
    · simp only [hempty, if_false, Task.bind_run]
      cases hsame : intent.currency.same c.currency with
      | true =>
        obtain ⟨r, u, hrun, hends⟩ := estimated_ends policy request hq hc (.same hsame) now
        simp only [Task.bind_run] at hrun
        rw [price_same hsame, Progress.bind_ok, hrun]
        exact .alone (by simp [hneeds, hsame]) hends
      | false =>
        rw [price_converted hsame]
        refine .asks hc (hneeds.mpr ⟨by omega, hsame⟩) fun answer u hu => ?_
        dsimp only
        cases hprice : priceOf answer with
        | error a =>
          refine ⟨_, _, rfl, fun n hanswer hneg => ?_, hu, by simp, by simp⟩
          rw [hanswer, priceOf_negative hneg] at hprice
          rw [Except.error.inj hprice]
        | ok n =>
          obtain ⟨rfl, hnonneg⟩ := priceOf_ok hprice
          obtain ⟨r, v, hrun, hends⟩ := estimated_ends policy request hu hc
            (.converted _ n u hsame) now
          refine ⟨r, v, hrun, fun m hanswer hneg => ?_, hends⟩
          cases hanswer
          omega

theorem tryReserve_runs (policy : HoldPolicy) (k : Connection) (request : RequestId)
    (intent : Intent) (hq : s.outages = []) :
    Attempt.Runs policy intent k s (tryReserve policy k request intent s) := by
  have hnot : s.store.activeLimit? k = none → ¬ Needs k s intent := by
    rintro hnone ⟨c, left, ⟨l, m, hl, -⟩, -⟩
    rw [hnone] at hl
    cases hl
  simp only [tryReserve, Task.bind_run, Task.clock_run, Progress.bind_ok]
  rcases activeLimit_run hq k with hactive | ⟨limit, hp, hmissing, hactive⟩ <;> rw [hactive]
  swap
  · refine .alone (hnot ?_) ⟨hq, by simp, by simp⟩
    simp [Store.activeLimit?, hp, hmissing]
  simp only [Progress.bind_ok]
  cases hl : s.store.activeLimit? k with
  | none =>
    obtain ⟨r, u, hrun, hends⟩ := recordUnbudgeted_ends policy request intent hq hl
    simp only [Task.bind_run, hrun]
    cases r <;> exact .alone (hnot hl) hends
  | some l =>
    obtain ⟨r, m, hrun, hfound⟩ := currentCycle_found hq l s.clock
    have hm : m.outages = [] := hfound.outages.trans hq
    simp only [Task.bind_run, hrun]
    cases r with
    | error a =>
      refine .alone ?_ ⟨hm, by simp, by simp⟩
      rintro ⟨c, left, ⟨l', m', hl', hrun'⟩, -⟩
      obtain rfl : l = l' := Option.some.inj (hl.symm.trans hl')
      rw [hrun] at hrun'
      cases hrun'
    | ok c => exact foundCycle_runs hm ⟨l, m, hl, hrun⟩ s.clock

end Service

namespace Attempt

/-- An attempt that the service makes, as far as it has come. -/
inductive Made (policy : HoldPolicy) (request : RequestId) (intent : Intent) : Attempt → Prop
  | alone {k : Connection} {s u : Service} {r : Except Abort (Option Payment)}
      (h : tryReserve policy k request intent s = .done r u) :
    Made policy request intent ⟨k, s, none, some (r, u)⟩
  | waiting {k : Connection} {s m : Service} {q : Conversion}
      {resume : Except PeerError Int → Service → Progress (Option Payment)}
      (h : tryReserve policy k request intent s = .convert q m resume) :
    Made policy request intent ⟨k, s, some ⟨q, none⟩, none⟩
  | answered {k : Connection} {s m t u : Service} {q : Conversion}
      {resume : Except PeerError Int → Service → Progress (Option Payment)}
      {answer : Except PeerError Int} {r : Except Abort (Option Payment)}
      (h : tryReserve policy k request intent s = .convert q m resume)
      (hr : resume answer t = .done r u) :
    Made policy request intent ⟨k, s, some ⟨q, some (answer, t)⟩, some (r, u)⟩

/-- What is known of every attempt: it asks if and only if it needs a conversion, and then for the
intent in the currency of its own cycle. -/
structure Fair (policy : HoldPolicy) (request : RequestId) (intent : Intent) (a : Attempt) :
    Prop where
  made : a.Made policy request intent
  asks : a.exchange.isSome ↔ Needs a.record a.began intent
  question : ∀ x, a.exchange = some x → ∃ c, Finds a.record a.began c ∧
    x.question = ⟨intent.currency, intent.amount, c.currency⟩
  ends : ∀ r u, a.outcome = some (r, u) →
    Attempt.Ends policy intent a.record a.began a.exchange r u
  refuses : ∀ x n r u, a.exchange = some x → x.reply? = some (.ok n) → n < 0 →
    a.outcome = some (r, u) → r = .error (negativeEstimate n)

/-- An attempt follows one that came to nothing, as the cycle it had found was over. It begins from
the record of the connection that is stored by then. -/
def Again (a b : Attempt) : Prop :=
  ∃ u c d, a.outcome = some (.ok none, u) ∧ Finds a.record a.began c ∧
    u.store.cycle? c.id = some d ∧ d.hasEnded u.clock = true ∧
    u.store.connection? a.record.id = some b.record ∧ b.began = u

/-- The attempts of a reservation that may make `n` of them from a record on, with all that it says
to the converter. -/
structure Sequence (policy : HoldPolicy) (request : RequestId) (intent : Intent) (n : Nat)
    (k : Connection) (s : Service) (log : List Exchange) (p : Progress Payment)
    (attempts : List Attempt) : Prop where
  count : attempts.length ≤ n
  nonempty : 0 < n → attempts ≠ []
  first : ∀ a ∈ attempts.head?, a.record = k ∧ a.began = s
  fair : ∀ a ∈ attempts, a.Fair policy request intent
  again : attempts.IsChain Again
  calls : attempts.filterMap Attempt.exchange = log ++ p.open?.toList
  /-- A payment that is reserved comes from the last attempt. -/
  last : ∀ payment u, p = .done (.ok payment) u →
    ∃ a ∈ attempts.getLast?, a.outcome = some (.ok (some payment), u)
  /-- An attempt that is refused is the last one, and so is the reservation. -/
  failed : ∀ a ∈ attempts, ∀ f u, a.outcome = some (.error f, u) → p = .done (.error f) u

variable {n : Nat} {a : Attempt} {attempts : List Attempt}

theorem Sequence.single (ha : a.Fair policy request intent)
    (hcalls : a.exchange.toList = log ++ p.open?.toList)
    (hlast : ∀ payment u, p = .done (.ok payment) u →
      a.outcome = some (.ok (some payment), u))
    (hfailed : ∀ f u, a.outcome = some (.error f, u) → p = .done (.error f) u) :
    Sequence policy request intent (n + 1) a.record a.began log p [a] where
  count := by simp
  nonempty _ := by simp
  first b hb := by
    obtain rfl : a = b := by simpa using hb
    exact ⟨rfl, rfl⟩
  fair b hb := by
    obtain rfl := List.mem_singleton.mp hb
    exact ha
  again := .singleton a
  calls := by
    rw [← hcalls]
    cases h : a.exchange <;> simp [h]
  last payment u hp := ⟨a, rfl, hlast payment u hp⟩
  failed b hb := by
    obtain rfl := List.mem_singleton.mp hb
    exact hfailed

theorem Sequence.cons (ha : a.Fair policy request intent)
    (hnone : a.outcome = some (.ok none, u))
    (hk : u.store.connection? a.record.id = some k)
    (h : Sequence policy request intent n k u log p attempts) :
    Sequence policy request intent (n + 1) a.record a.began (a.exchange.toList ++ log) p
      (a :: attempts) where
  count := Nat.succ_le_succ h.count
  nonempty _ := by simp
  first b hb := by
    obtain rfl : a = b := by simpa using hb
    exact ⟨rfl, rfl⟩
  fair b hb := by
    rcases List.mem_cons.mp hb with rfl | hb
    · exact ha
    · exact h.fair b hb
  again := by
    cases attempts with
    | nil => exact .singleton a
    | cons b rest =>
      obtain ⟨rfl, rfl⟩ := h.first b rfl
      obtain ⟨c, d, hc, hd, hended⟩ := (ha.ends _ _ hnone).again rfl
      exact .cons_cons ⟨b.began, c, d, hnone, hc, hd, hended, hk, rfl⟩ h.again
  calls := by
    rw [List.append_assoc, ← h.calls]
    cases hx : a.exchange <;> simp [hx]
  last payment t hp := by
    obtain ⟨b, hb, houtcome⟩ := h.last payment t hp
    cases attempts with
    | nil => cases hb
    | cons c rest => exact ⟨b, by simpa using hb, houtcome⟩
  failed b hb f t houtcome := by
    rcases List.mem_cons.mp hb with rfl | hb
    · rw [hnone] at houtcome
      cases houtcome
    · exact h.failed b hb f t houtcome

/-- A reservation goes on behind an attempt: with another one from the stored record, if it came to
nothing. -/
theorem Sequence.goes (ih : ∀ {k s log p}, s.outages = [] →
      (reserveWithin policy request intent n k s).Hears log p →
      ∃ attempts, Sequence policy request intent n k s log p attempts)
    {r : Except Abort (Option Payment)} (hq : u.outages = [])
    (ha : Fair policy request intent ⟨k, s, e, some (r, u)⟩)
    (h : Progress.Hears ((Progress.done r u).bind fun x t => (match x with
      | some payment => return payment
      | none => do reserveWithin policy request intent n (← connection k.id) : Task Payment) t)
        log p) :
    ∃ attempts, Sequence policy request intent (n + 1) k s (e.toList ++ log) p attempts := by
  have hstop : ∀ {r' : Except Abort Payment},
      (∀ payment, r' = .ok payment → r = .ok (some payment)) →
      (∀ f, r = .error f → r' = .error f) → (Progress.done r' u).Hears log p →
      ∃ attempts, Sequence policy request intent (n + 1) k s (e.toList ++ log) p attempts := by
    intro r' hr hf h
    obtain ⟨rfl, rfl⟩ := h.done
    refine ⟨_, .single ha (by simp [Progress.open?]) (fun payment t hp => ?_) fun f t hp => ?_⟩
    · obtain ⟨rfl, rfl⟩ := Progress.done.inj hp
      rw [hr payment rfl]
    · obtain ⟨hr', rfl⟩ := Prod.mk.inj (Option.some.inj hp)
      rw [hf f hr']
  cases r with
  | error a => exact hstop (by simp) (by simp) h
  | ok payment =>
    cases payment with
    | some payment => exact hstop (by simp) (by simp) h
    | none =>
      simp only [Progress.bind_ok, Task.bind_run, connection_run hq] at h
      cases hk : u.store.connection? k.id with
      | none =>
        rw [hk] at h
        exact hstop (by simp) (by simp) h
      | some stored =>
        rw [hk] at h
        obtain ⟨attempts, hattempts⟩ := ih hq h
        exact ⟨_, .cons ha rfl hk hattempts⟩

/-- An estimate below zero ends a reservation. -/
theorem Sequence.refused {x : Exchange} {m : Int}
    (h : Sequence policy request intent n k s log p attempts) (hx : x ∈ log)
    (hreply : x.reply? = some (.ok m)) (hneg : m < 0) :
    ∃ u, p = .done (.error (negativeEstimate m)) u := by
  have hcalled : x ∈ attempts.filterMap Attempt.exchange := by
    rw [h.calls]
    exact List.mem_append_left _ hx
  obtain ⟨a, ha, hexchange⟩ := List.mem_filterMap.mp hcalled
  have hfair := h.fair a ha
  obtain ⟨r, u, houtcome⟩ : ∃ r u, a.outcome = some (r, u) := by
    cases hfair.made with
    | alone => cases hexchange
    | waiting =>
      cases hexchange
      cases hreply
    | answered => exact ⟨_, _, rfl⟩
  obtain rfl := hfair.refuses x m r u hexchange hreply hneg houtcome
  exact ⟨u, h.failed a ha _ u houtcome⟩

end Attempt

/-- As many attempts are made as are left, at most. -/
theorem Service.reserveWithin_attempts (n : Nat) (hq : s.outages = [])
    (h : (reserveWithin policy request intent n k s).Hears log p) :
    ∃ attempts, Attempt.Sequence policy request intent n k s log p attempts := by
  induction n generalizing k s log p with
  | zero =>
    obtain ⟨rfl, rfl⟩ := h.done
    exact ⟨[], by simp, by simp, by simp, by simp, .nil, by simp [Progress.open?], by simp, by simp⟩
  | succ n ih =>
    simp only [reserveWithin, Task.bind_run] at h
    have hruns := tryReserve_runs policy k request intent hq
    generalize htry : tryReserve policy k request intent s = attempt at h hruns
    cases hruns with
    | alone hneeds hends =>
      refine Attempt.Sequence.goes (e := none) ih hends.quiet ⟨.alone htry, ?_, ?_, ?_, ?_⟩ h
      · simpa using hneeds
      · simp
      · rintro r u ⟨⟩
        exact hends
      · simp
    | @asks c m resume hc hneeds hends =>
      have hquestion : ∀ {x : Exchange},
          x.question = ⟨intent.currency, intent.amount, c.currency⟩ →
          ∀ y, some x = some y → ∃ c, Finds k s c ∧
            y.question = ⟨intent.currency, intent.amount, c.currency⟩ := by
        rintro x hx y ⟨⟩
        exact ⟨c, hc, hx⟩
      cases h with
      | nothing =>
        exact ⟨_, .single ⟨.waiting htry, by simpa using hneeds, hquestion rfl, by simp, by simp⟩
          rfl (by simp [Progress.bind]) (by simp)⟩
      | @converted _ _ t _ answer log _ ht h =>
        obtain ⟨r, u, hr, hrefused, hended⟩ := hends answer t ht
        dsimp only at h
        rw [hr] at h
        refine Attempt.Sequence.goes ih hended.quiet
          ⟨.answered htry hr, by simpa using hneeds, hquestion rfl, ?_, ?_⟩ h
        · rintro r u ⟨⟩
          exact hended
        · rintro x n r u ⟨⟩ hreply hneg ⟨⟩
          exact hrefused n (by simpa [Exchange.reply?] using hreply) hneg

/-- The attempts of a reservation with a record that was handed out. -/
theorem Conversation.attempts {w : World} {path : List World} {others : World → Event → Prop}
    (hw : w.Sound policy) (hk : k ∈ w.connections)
    (h : Conversation policy others (reserve policy k request intent) w log path p) :
    ∃ tries, Attempt.Sequence policy request intent 2 k w.service log p tries :=
  reserveWithin_attempts 2 hw.coherent.quiet (h.hears hw (fun _ _ => Opening.works)
    (reserve_goes (fun _ h => h.1) ⟨hw.coherent, trivial⟩ (hw.connections k hk)))

/-- In one reservation the converter is called twice at most, and once at most by each attempt. An
attempt calls it if and only if it needs a conversion, with the intent and the currency of its own
cycle. Another attempt follows only where the cycle of the first one had ended when it was locked,
and each hold is computed from the answer that its own attempt had. -/
theorem conversions_by_attempt {w : World} {past path : List World}
    {others : World → Event → Prop} (run : Run policy rule (w :: past)) (hk : k ∈ w.connections)
    (h : Conversation policy others (reserve policy k request intent) w log path p) :
    (log ++ p.open?.toList).length ≤ 2 ∧
      ∃ tries, Attempt.Sequence policy request intent 2 k w.service log p tries := by
  obtain ⟨tries, htries⟩ := h.attempts run.sound hk
  refine ⟨?_, tries, htries⟩
  rw [← htries.calls]
  exact (List.length_filterMap_le _ _).trans htries.count

def Sample.euro : Currency := ⟨"EUR", "€", "Euro", 2⟩

/-- Five dollars are priced for a limit in sats, which a limit in euros replaces meanwhile. They are
priced again, and only the second answer is held. -/
theorem conversions_by_attempt_replaced :
    ∃ w past path log tries p s, Run .exact World.Steady (w :: past) ∧
      Sample.connection ∈ w.connections ∧
      Conversation .exact World.Steady (reserve .exact Sample.connection Sample.request
        (Sample.intent Sample.dollar 5)) w log path (.done (.ok p) s) ∧
      log.map Exchange.reply? = [some (.ok 20), some (.ok 4)] ∧
      Attempt.Sequence .exact Sample.request (Sample.intent Sample.dollar 5) 2 Sample.connection
        w.service log (.done (.ok p) s) tries ∧ p.hold = some 4 := by
  obtain ⟨w, past, log, path, p, s, run, h, hreplies, hf⟩ := Conversation.reachesBy .exact
    World.Steady World.Steady ⟨Sample.start, rfl⟩ Uuid.ofNat [Sample.created]
    (reserve .exact Sample.connection Sample.request (Sample.intent Sample.dollar 5))
    [ .other (.call (.updateLimit Sample.connection.id
        ⟨true, some 50, some Sample.euro, some .daily⟩ Sample.start)),
      .converted (.ok 20), .converted (.ok 4) ]
    (fun w _ _ p _ => (decide (Sample.connection ∈ w.connections), p.hold)) (true, some 4)
    (by decide +kernel)
  simp only [Prod.mk.injEq, decide_eq_true_eq] at hf
  obtain ⟨hk, hhold⟩ := hf
  obtain ⟨-, tries, htries⟩ := conversions_by_attempt run hk h
  exact ⟨w, past, path, log, tries, p, s, run, hk, h, hreplies, htries, hhold⟩

end WalletBudget
