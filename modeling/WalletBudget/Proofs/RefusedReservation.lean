import WalletBudget.Proofs.WriteSets

/-!
What a reservation leaves behind that comes to no answer.

Each stretch of such a reservation puts new cycles behind the others, with nothing in their totals,
and writes nothing else. They are counted over all stretches of the call, whatever other operations
do between them: an attempt opens one cycle at most.
-/

namespace WalletBudget

open Service

variable {α β : Type} {policy : HoldPolicy} {rule : World → Event → Prop} {task : Task α}
  {w v : World} {path past : List World} {progress : Progress α}

section Store

variable {s t u : Store} {c : Cycle} {old new : List Cycle}

/-- Cycles are added, each with its start and with nothing in its totals, and nothing else is
written. -/
structure Appends (new : List Cycle) (s t : Store) : Prop where
  written : t = { s with
    cycles := s.cycles ++ new
    cycleStarts := s.cycleStarts ++ new.map fun c => ⟨c.limit, c.start, c.id⟩ }
  unknown : ∀ c ∈ new, s.cycle? c.id = none
  empty : ∀ c ∈ new, c.spent = 0 ∧ c.held = 0

namespace Appends

theorem refl (s : Store) : Appends [] s s :=
  ⟨by simp, by simp, by simp⟩

theorem single (hnew : s.cycle? c.id = none) (hfree : s.startOf? c.limit c.start = none)
    (hempty : c.spent = 0 ∧ c.held = 0) : Appends [c] s ((s.indexCycle c).fileCycle c) where
  written := Store.openCycle_new hnew hfree
  unknown d hd := by
    obtain rfl := List.mem_singleton.mp hd
    exact hnew
  empty d hd := by
    obtain rfl := List.mem_singleton.mp hd
    exact hempty

theorem trans (hst : Appends old s t) (htu : Appends new t u) : Appends (old ++ new) s u where
  written := by rw [htu.written, hst.written]; simp
  unknown c hc := by
    rcases List.mem_append.mp hc with hc | hc
    · exact hst.unknown c hc
    · have hnone := htu.unknown c hc
      simp only [Store.cycle?, hst.written, Table.get?, List.find?_append] at hnone
      exact (Option.or_eq_none_iff.mp hnone).1
  empty c hc := (List.mem_append.mp hc).elim (hst.empty c) (htu.empty c)

end Appends

end Store

namespace Service

variable {b s t m : Service} {k : Connection} {request : RequestId} {intent : Intent} {l : Limit}
  {c : Cycle} {new : List Cycle} {n rest : Nat}

/-- The part of a stretch that has opened these cycles, one behind the other, and written nothing
else. -/
inductive Opened (b : Service) : List Cycle → Service → Prop
  | nothing : Opened b [] b
  | issue {new : List Cycle} {s : Service} (h : Opened b new s) : Opened b new s.issue
  | cycle {new : List Cycle} {s : Service} (h : Opened b new s) (c : Cycle)
      (hid : c.id = ⟨s.next⟩) (hfree : s.store.startOf? c.limit c.start = none)
      (hempty : c.spent = 0 ∧ c.held = 0) :
    Opened b (new ++ [c]) (s.issue.write ((s.store.indexCycle c).fileCycle c))

/-- The cycles that were opened are new rows if their identifiers are fresh. -/
theorem Opened.appends (hb : Coherent b) (h : Opened b new s) (hs : s.FreshIds) :
    Appends new b.store s.store ∧ ∀ id c, s.store.cycle? id = some c → s.Issued id.uuid := by
  induction h with
  | nothing => exact ⟨.refl _, hb.cycleIssued⟩
  | @issue new s h ih =>
    obtain ⟨happends, hissued⟩ := ih (hs.before ⟨rfl, Nat.le_succ _⟩)
    exact ⟨happends, fun id c hc => RowWrite.issue.later.wasIssued (hissued id c hc)⟩
  | @cycle new s h c hid hfree hempty ih =>
    have hfresh : s.issue.FreshIds := hs
    obtain ⟨happends, hissued⟩ := ih (hfresh.before ⟨rfl, Nat.le_succ _⟩)
    have hnew : s.store.cycle? c.id = none :=
      hfresh.unused fun d hd => by simpa [hid] using hissued c.id d hd
    refine ⟨happends.trans (.single hnew hfree hempty), fun id d hd => ?_⟩
    by_cases hsame : c.id = id
    · rw [← hsame, hid]
      exact s.next_issued
    · exact RowWrite.issue.later.wasIssued (hissued id d (by simpa [hsame] using hd))

theorem Found.outages {r : Except Abort Cycle} {now : Instant} (h : Found l now s r t) :
    t.outages = s.outages := by
  cases h <;> rfl

/-- Of the `n` cycles that may be opened from `b` on, `rest` are left. -/
structure Spared (b : Service) (n rest : Nat) (s : Service) : Prop where
  quiet : s.outages = []
  opened : ∃ new, Opened b new s ∧ new.length + rest ≤ n

theorem Spared.begin (hb : Coherent b) (n : Nat) : Spared b n n b :=
  ⟨hb.quiet, [], .nothing, by simp⟩

theorem Spared.le (h : Spared b n rest s) {rest' : Nat} (hle : rest' ≤ rest) :
    Spared b n rest' s := by
  obtain ⟨hq, new, hnew, hlength⟩ := h
  exact ⟨hq, new, hnew, by omega⟩

theorem Spared.issue (h : Spared b n rest s) : Spared b n rest s.issue := by
  obtain ⟨hq, new, hnew, hlength⟩ := h
  exact ⟨hq, new, hnew.issue, hlength⟩

/-- The search for the cycle of a limit takes one at most of those that are left. -/
theorem Spared.found {r : Except Abort Cycle} {now : Instant} (h : Spared b n (rest + 1) s)
    (hfound : Found l now s r t) : Spared b n rest t := by
  cases hfound with
  | opened c start _ _ hc hfree =>
    obtain ⟨hq, new, hnew, hlength⟩ := h
    obtain ⟨finish, rfl⟩ := createCycle_fresh hc
    exact ⟨hq, _, hnew.cycle _ rfl hfree ⟨rfl, rfl⟩, by simp; omega⟩
  | latest => exact h.le (Nat.le_succ _)
  | taken => exact h.issue.le (Nat.le_succ _)
  | lost => exact h.issue.le (Nat.le_succ _)
  | noPeriod => exact h.le (Nat.le_succ _)
  | noCycle => exact h.issue.le (Nat.le_succ _)

end Service

namespace Progress

/-- A task that opens cycles, of which it may open `n` from the service `b` on, until it ends in a
way that `post` allows. At each question it is told how many are left for the stretches behind. -/
def Sparing (post : Service → Nat → Except Abort α → Service → Prop) :
    Service → Nat → Progress α → Prop
  | b, n, .done r s => post b n r s
  | b, n, .convert _ s resume => ∃ rest, Spared b n rest s ∧
    ∀ answer t, Coherent t → (resume answer t).Sparing post t rest
  | b, n, .execute _ s resume => ∃ rest, Spared b n rest s ∧
    ∀ answer t, Coherent t → (resume answer t).Sparing post t rest

variable {post : Service → Nat → Except Abort α → Service → Prop} {b : Service} {n : Nat}

theorem Sparing.imp {post' : Service → Nat → Except Abort α → Service → Prop} {p : Progress α}
    (h : p.Sparing post b n) (himp : ∀ b n r s, post b n r s → post' b n r s) :
    p.Sparing post' b n := by
  induction p generalizing b n with
  | done r s => exact himp _ _ _ _ h
  | convert q s resume ih =>
    obtain ⟨rest, hspared, hresume⟩ := h
    exact ⟨rest, hspared, fun answer t ht => ih answer t (hresume answer t ht)⟩
  | execute q s resume ih =>
    obtain ⟨rest, hspared, hresume⟩ := h
    exact ⟨rest, hspared, fun answer t ht => ih answer t (hresume answer t ht)⟩

theorem Sparing.bind {post : Service → Nat → Except Abort β → Service → Prop} {p : Progress α}
    {f : α → Service → Progress β}
    (h : p.Sparing (fun b n r s => match r with
      | .ok a => (f a s).Sparing post b n
      | .error e => post b n (.error e) s) b n) : (p.bind f).Sparing post b n := by
  induction p generalizing b n with
  | done r s => cases r <;> exact h
  | convert q s resume ih =>
    obtain ⟨rest, hspared, hresume⟩ := h
    exact ⟨rest, hspared, fun answer t ht => ih answer t (hresume answer t ht)⟩
  | execute q s resume ih =>
    obtain ⟨rest, hspared, hresume⟩ := h
    exact ⟨rest, hspared, fun answer t ht => ih answer t (hresume answer t ht)⟩

end Progress

namespace Service

variable {b s t m : Service} {k : Connection} {request : RequestId} {intent : Intent} {l : Limit}
  {c : Cycle} {n rest : Nat}

/-- How an attempt ends, with `rest` attempts behind it. -/
def Attempted (rest : Nat) (b : Service) (n : Nat) (r : Except Abort (Option Payment))
    (s : Service) : Prop :=
  (∃ p, r = .ok (some p)) ∨ Spared b n rest s

def Concluded (b : Service) (n : Nat) (r : Except Abort Payment) (s : Service) : Prop :=
  (∃ p, r = .ok p) ∨ Spared b n 0 s

theorem recordUnbudgeted_spared (h : Spared b n rest s) (id : ConnectionId) (request : RequestId)
    (intent : Intent) (now : Instant) :
    ∃ r t, recordUnbudgeted id request intent now s = .done r t ∧
      ((∃ p, r = .ok p) ∨ Spared b n rest t) := by
  have hq : s.issue.outages = [] := h.quiet
  simp only [recordUnbudgeted, Task.bind_run, Task.newId_run, Progress.bind_ok,
    Task.tell_quiet hq, Store.insertPayment_eq, issue_store]
  split
  · exact ⟨_, _, rfl, .inr h.issue⟩
  · exact ⟨_, _, rfl, .inl ⟨_, rfl⟩⟩

/-- A hold that is not placed is not written. -/
theorem placeHold_sparing (h : Spared b n rest s) (cycle : CycleId) (id : ConnectionId)
    (estimate hold : Int) (now : Instant) :
    (placeHold cycle id request intent estimate hold now s).Sparing (Attempted rest) b n := by
  have hq : s.issue.outages = [] := h.quiet
  simp only [placeHold, Task.bind_run, Task.locked_quiet h.quiet, Store.lockCycle]
  cases s.store.cycle? cycle with
  | none => exact .inr h
  | some c =>
    simp only [Progress.bind_ok, Task.clock_run]
    cases c.hasEnded s.clock with
    | true => exact .inr h
    | false =>
      simp only [Bool.false_eq_true, if_false, Task.bind_run]
      cases c.available with
      | error d => exact .inr h
      | ok left =>
        simp only [Task.sound_ok, Progress.bind_ok]
        split
        · exact .inr h
        · simp only [Task.bind_run, Task.newId_run, Progress.bind_ok]
          cases c.placeHold hold with
          | error d => exact .inr h.issue
          | ok placed =>
            simp only [Task.sound_ok, Progress.bind_ok, Task.tell_quiet hq]
            exact .inl ⟨_, rfl⟩

/-- The question for a price is asked, if at all, with all that is left for what comes behind. -/
theorem price_sparing (h : Spared b n rest s) (c : Cycle) :
    (price c intent s).Sparing (fun b n _ t => Spared b n rest t) b n := by
  cases hsame : intent.currency.same c.currency with
  | true =>
    rw [price_same hsame]
    exact h
  | false =>
    rw [price_converted hsame]
    exact ⟨rest, h, fun answer t ht => .begin ht rest⟩

/-- An attempt that records no payment has opened one cycle at most. -/
theorem tryReserve_sparing (h : Spared b n (rest + 1) s) :
    (tryReserve policy k request intent s).Sparing (Attempted rest) b n := by
  have hnone := h.le (Nat.le_succ rest)
  simp only [tryReserve, Task.bind_run, Task.clock_run, Progress.bind_ok]
  rcases activeLimit_run h.quiet k with hactive | ⟨limit, -, -, hactive⟩ <;> rw [hactive]
  swap
  · exact .inr hnone
  simp only [Progress.bind_ok]
  cases s.store.activeLimit? k with
  | none =>
    obtain ⟨r, t, hrun, hrecorded⟩ := recordUnbudgeted_spared hnone k.id request intent s.clock
    simp only [Task.bind_run, hrun]
    cases r with
    | error e => exact .inr (hrecorded.resolve_left (by simp))
    | ok p => exact .inl ⟨p, rfl⟩
  | some l =>
    obtain ⟨r, m, hrun, hfound⟩ := currentCycle_found h.quiet l s.clock
    have hm : Spared b n rest m := h.found hfound
    simp only [Task.bind_run, hrun]
    cases r with
    | error e => exact .inr hm
    | ok c =>
      simp only [Progress.bind_ok]
      cases c.available with
      | error d => exact .inr hm
      | ok left =>
        simp only [Task.sound_ok, Progress.bind_ok]
        split
        · exact .inr hm
        · refine .bind ((price_sparing hm c).imp fun b' n' r t ht => ?_)
          cases r with
          | error e => exact .inr ht
          | ok estimate =>
            simp only [Task.bind_run]
            cases policy.holdFor estimate with
            | error d => exact .inr ht
            | ok valid =>
              cases valid with
              | error e => exact .inr ht
              | ok hold => exact placeHold_sparing ht c.id k.id estimate hold s.clock

theorem reserveWithin_sparing (h : Spared b n rest s) :
    (reserveWithin policy request intent rest k s).Sparing Concluded b n := by
  induction rest generalizing b n s k with
  | zero => exact .inr h
  | succ rest ih =>
    simp only [reserveWithin, Task.bind_run]
    refine .bind ((tryReserve_sparing h).imp fun b' n' r t ht => ?_)
    rcases ht with ⟨p, rfl⟩ | ht
    · exact .inl ⟨p, rfl⟩
    · have hnone := ht.le (Nat.zero_le rest)
      cases r with
      | error e => exact .inr hnone
      | ok payment =>
        cases payment with
        | some p => exact .inl ⟨p, rfl⟩
        | none =>
          simp only [Task.bind_run, connection_run ht.quiet]
          cases t.store.connection? k.id with
          | none => exact .inr hnone
          | some stored => exact ih ht

/-- A reservation opens no more cycles than it makes attempts, until it is answered. -/
theorem reserve_sparing (hs : Coherent s) :
    (reserve policy k request intent s).Sparing Concluded s attempts :=
  reserveWithin_sparing (.begin hs attempts)

end Service

/-- One stretch of work of a call: the service that it began with and the one that it left. -/
structure Deed where
  began : Service
  left : Service

/-- What a call has done itself in its course, the last stretch first. All else in its worlds was
done by other events. -/
inductive Deeds (policy : HoldPolicy) (rule : World → Event → Prop) (task : Task α) (w : World) :
    List Deed → List World → Progress α → Prop
  | called (hfresh : (task w.service).service.FreshIds) :
    Deeds policy rule task w [⟨w.service, (task w.service).service⟩]
      [{ w with service := (task w.service).service }, w] (task w.service)
  | meanwhile {deeds : List Deed} {v v' : World} {path : List World} {p : Progress α} {e : Event}
      (h : Deeds policy rule task w deeds (v :: path) p) (hasks : p.asks = true) (hrule : rule v e)
      (hstep : v.step policy e = some v') (hfresh : v'.service.FreshIds) :
    Deeds policy rule task w deeds (v' :: v :: path) p
  | converted {deeds : List Deed} {v : World} {path : List World} {q : Conversion} {s : Service}
      {resume : Except PeerError Int → Service → Progress α} (answer : Except PeerError Int)
      (h : Deeds policy rule task w deeds (v :: path) (.convert q s resume))
      (hfresh : (resume answer v.service).service.FreshIds) :
    Deeds policy rule task w (⟨v.service, (resume answer v.service).service⟩ :: deeds)
      ({ v with service := (resume answer v.service).service } :: v :: path)
      (resume answer v.service)
  | executed {deeds : List Deed} {v : World} {path : List World} {q : Execution} {s : Service}
      {resume : Except PeerError PaymentOutcome → Service → Progress α}
      (answer : Except PeerError PaymentOutcome)
      (h : Deeds policy rule task w deeds (v :: path) (.execute q s resume))
      (hfresh : (resume answer v.service).service.FreshIds) :
    Deeds policy rule task w (⟨v.service, (resume answer v.service).service⟩ :: deeds)
      ({ v with service := (resume answer v.service).service } :: v :: path)
      (resume answer v.service)

variable {deeds : List Deed} {n : Nat}
  {post : Service → Nat → Except Abort α → Service → Prop}

theorem Deeds.course (h : Deeds policy rule task w deeds path progress) :
    Course policy rule task w path progress := by
  induction h with
  | called hfresh => exact .called hfresh
  | meanwhile _ hasks hrule hstep hfresh ih => exact ih.meanwhile hasks hrule hstep hfresh
  | converted answer _ hfresh ih => exact ih.converted answer hfresh
  | executed answer _ hfresh ih => exact ih.executed answer hfresh

theorem Course.exists_deeds (course : Course policy rule task w path progress) :
    ∃ deeds, Deeds policy rule task w deeds path progress := by
  induction course with
  | called hfresh => exact ⟨_, .called hfresh⟩
  | meanwhile _ hasks hrule hstep hfresh ih =>
    obtain ⟨deeds, h⟩ := ih
    exact ⟨deeds, h.meanwhile hasks hrule hstep hfresh⟩
  | converted answer _ hfresh ih =>
    obtain ⟨deeds, h⟩ := ih
    exact ⟨_, h.converted answer hfresh⟩
  | executed answer _ hfresh ih =>
    obtain ⟨deeds, h⟩ := ih
    exact ⟨_, h.executed answer hfresh⟩

/-- At its end a call has left the last world behind. -/
theorem Course.last {r : Except Abort α} {s : Service}
    (course : Course policy rule task w path (.done r s)) :
    ∃ v before, path = v :: before ∧ v.service = s := by
  generalize hdone : Progress.done r s = p at course
  cases course with
  | called hfresh => exact ⟨_, _, rfl, by rw [← hdone]; rfl⟩
  | meanwhile _ hasks =>
    subst hdone
    cases hasks
  | converted answer _ hfresh => exact ⟨_, _, rfl, by rw [← hdone]; rfl⟩
  | executed answer _ hfresh => exact ⟨_, _, rfl, by rw [← hdone]; rfl⟩

/-- Each deed adds cycles of its own and does nothing else, and all of them together add `total` at
most. -/
def Sparse (deeds : List Deed) (total : Nat) : Prop :=
  ∃ opened, List.Forall₂ (fun d new => Appends new d.began.store d.left.store) deeds opened ∧
    opened.flatten.length ≤ total

/-- How the deeds of a call stand that may open `n` cycles until it is answered. -/
def Counted (post : Service → Nat → Except Abort α → Service → Prop) (n : Nat)
    (deeds : List Deed) : Progress α → Prop
  | .done (.ok _) _ => True
  | .done (.error _) _ => Sparse deeds n
  | .convert _ _ resume => ∃ rest ≤ n, Sparse deeds (n - rest) ∧
    ∀ answer t, Coherent t → (resume answer t).Sparing post t rest
  | .execute _ _ resume => ∃ rest ≤ n, Sparse deeds (n - rest) ∧
    ∀ answer t, Coherent t → (resume answer t).Sparing post t rest

theorem Sparse.stretch {total m rest : Nat} {b s : Service} (h : Sparse deeds total)
    (hb : Coherent b) (hs : s.FreshIds) (hspared : Spared b m rest s) :
    Sparse (⟨b, s⟩ :: deeds) (total + (m - rest)) := by
  obtain ⟨opened, hopened, htotal⟩ := h
  obtain ⟨-, new, hnew, hlength⟩ := hspared
  refine ⟨new :: opened, .cons (hnew.appends hb hs).1 hopened, ?_⟩
  simp only [List.flatten_cons, List.length_append]
  omega

theorem Counted.stretch {m : Nat} {b : Service}
    (hpost : ∀ b n e s, post b n (.error e) s → Spared b n 0 s) (hm : m ≤ n)
    (h : Sparse deeds (n - m)) (hb : Coherent b) (hs : progress.service.FreshIds)
    (hgoes : progress.Sparing post b m) :
    Counted post n (⟨b, progress.service⟩ :: deeds) progress := by
  have hless : ∀ {rest s}, progress.service = s → Spared b m rest s →
      rest ≤ m ∧ Sparse (⟨b, s⟩ :: deeds) (n - rest) := by
    rintro rest s rfl hspared
    have hrest : rest ≤ m := by
      obtain ⟨-, new, -, hlength⟩ := hspared
      omega
    have hsparse := h.stretch hb hs hspared
    rw [show n - m + (m - rest) = n - rest by omega] at hsparse
    exact ⟨hrest, hsparse⟩
  cases progress with
  | done r s =>
    cases r with
    | ok a => trivial
    | error e => exact (hless rfl (hpost b m e s hgoes)).2
  | convert q s resume =>
    obtain ⟨rest, hspared, hresume⟩ := hgoes
    obtain ⟨hrest, hsparse⟩ := hless rfl hspared
    exact ⟨rest, hrest.trans hm, hsparse, hresume⟩
  | execute q s resume =>
    obtain ⟨rest, hspared, hresume⟩ := hgoes
    obtain ⟨hrest, hsparse⟩ := hless rfl hspared
    exact ⟨rest, hrest.trans hm, hsparse, hresume⟩

/-- What the deeds of a call open is counted along its course, with anything between them. -/
theorem Deeds.counted {post' : Service → Except Abort α → Service → Prop}
    (h : Deeds policy rule task w deeds path progress) (hw : w.Sound policy)
    (hgoes : (task w.service).Goes Opening (Rely (Moment fun _ => True)) post' w.service)
    (hpost : ∀ b n e s, post b n (.error e) s → Spared b n 0 s)
    (hsparing : (task w.service).Sparing post w.service n) : Counted post n deeds progress := by
  have hmoment : ∀ {v : World} {path : List World} {p : Progress α}, p.asks = true →
      Course policy rule task w (v :: path) p → Coherent v.service := fun hasks course =>
    (course.waits hasks hw (fun _ _ => Opening.works) hgoes).coherent
  induction h with
  | called hfresh =>
    refine .stretch hpost (Nat.le_refl n) ⟨[], .nil, ?_⟩ hw.coherent hfresh hsparing
    simp
  | @meanwhile deeds v v' path p e h hasks hrule hstep hfresh ih => exact ih
  | @converted deeds v path q s resume answer h hfresh ih =>
    obtain ⟨rest, hrest, hsparse, hresume⟩ := ih
    have hv := hmoment rfl h.course
    exact .stretch hpost hrest hsparse hv hfresh (hresume answer v.service hv)
  | @executed deeds v path q s resume answer h hfresh ih =>
    obtain ⟨rest, hrest, hsparse, hresume⟩ := ih
    have hv := hmoment rfl h.course
    exact .stretch hpost hrest hsparse hv hfresh (hresume answer v.service hv)

/-- Without other operations, the deeds of a call are all that is done. -/
theorem Deeds.alone (h : Deeds policy World.Alone task w deeds (v :: past) progress)
    {opened : List (List Cycle)}
    (hopened : List.Forall₂ (fun d new => Appends new d.began.store d.left.store) deeds opened) :
    Appends opened.reverse.flatten w.service.store v.service.store := by
  generalize hpath : v :: past = path at h
  induction h generalizing v past opened with
  | called hfresh =>
    cases hpath
    cases hopened with
    | cons hfirst hnone =>
      cases hnone
      simpa using hfirst
  | @meanwhile deeds v' v'' path p e h hasks hrule hstep hfresh ih =>
    cases hpath
    cases e with
    | clock time =>
      cases hstep
      have hbefore : Appends opened.reverse.flatten w.service.store v'.service.store :=
        ih hopened rfl
      exact hbefore
    | call op => exact hrule.elim
    | converted n answer => exact hrule.elim
    | executed n answer => exact hrule.elim
  | converted answer h hfresh ih =>
    cases hpath
    cases hopened with
    | cons hlast hbefore =>
      simpa using (ih hbefore rfl).trans hlast
  | executed answer h hfresh ih =>
    cases hpath
    cases hopened with
    | cons hlast hbefore =>
      simpa using (ih hbefore rfl).trans hlast

/-- A reservation that is refused or broken leaves no trace but new cycles without anything in their
totals, two at most. That is all that its own stretches of work write, whatever other operations do
while it waits for estimates, and so all that changes if there are none. -/
theorem refused_reservation (run : Run policy rule (w :: past)) {k : Connection}
    (hk : k ∈ w.connections) (request : RequestId) (intent : Intent) :
    (∀ others path a s,
      Course policy others (reserve policy k request intent) w path (.done (.error a) s) →
        ∃ deeds, Deeds policy others (reserve policy k request intent) w deeds path
          (.done (.error a) s)) ∧
    (∀ others deeds path a s,
      Deeds policy others (reserve policy k request intent) w deeds path (.done (.error a) s) →
        ∃ opened, List.Forall₂ (fun d new => Appends new d.began.store d.left.store)
          deeds opened ∧ opened.flatten.length ≤ 2) ∧
    ∀ path a s,
      Course policy World.Alone (reserve policy k request intent) w path (.done (.error a) s) →
        ∃ new, Appends new w.service.store s.store ∧ new.length ≤ 2 := by
  have hw := run.sound
  have hsparse : ∀ others deeds path a s,
      Deeds policy others (reserve policy k request intent) w deeds path (.done (.error a) s) →
        Sparse deeds attempts := by
    intro others deeds path a s h
    refine h.counted hw (reserve_goes (fun _ h => h.1) ⟨hw.coherent, trivial⟩
      (hw.connections k hk)) ?_ (reserve_sparing hw.coherent)
    intro b n e t hended
    exact hended.resolve_left (by simp)
  refine ⟨fun others path a s course => course.exists_deeds, hsparse, fun path a s course => ?_⟩
  obtain ⟨deeds, h⟩ := course.exists_deeds
  obtain ⟨opened, hopened, hlength⟩ := hsparse _ _ _ _ _ h
  obtain ⟨v, before, rfl, rfl⟩ := course.last
  refine ⟨opened.reverse.flatten, h.alone hopened, ?_⟩
  simpa [attempts] using hlength

/-- A payment in dollars is never priced. Each of its two attempts opens a cycle, as two days pass;
what is held on the first one then is another payment's. -/
theorem refused_reservation_unpriced :
    ∃ w past deeds path s opened, Run .exact World.Steady (w :: past) ∧
      Deeds .exact World.Steady (reserve .exact Sample.connection Sample.request
        (Sample.intent Sample.dollar 30)) w deeds path
        (.done (.error (.refused (.conversion (.unavailable "converter" "down")))) s) ∧
      List.Forall₂ (fun d new => Appends new d.began.store d.left.store) deeds opened ∧
      opened.flatten.length ≤ 2 ∧ w.service.store.cycles.map (·.held) = [0] ∧
      s.store.cycles.map (·.held) = [0, 20, 0] := by
  obtain ⟨w, past, run, hf⟩ := Run.reaches .exact World.Steady ⟨Sample.start, rfl⟩ Uuid.ofNat
    [Sample.created, .clock ⟨Sample.secondDay, rfl⟩]
    (fun w _ => (decide (Sample.connection ∈ w.connections),
      w.service.store.cycles.map (·.held),
      (w.during .exact World.Steady (reserve .exact Sample.connection Sample.request
          (Sample.intent Sample.dollar 30))
        [ .other (.call (.reserve Sample.connection Sample.request (Sample.intent .sat 20))),
          .other (.clock ⟨Sample.thirdDay, rfl⟩), .converted (.ok 30),
          .converted (.error (.unavailable "converter" "down")) ]).map fun c =>
        (c.2.abort?, c.2.service.store.cycles.map (·.held))))
    (true, [0], some (some (.refused (.conversion (.unavailable "converter" "down"))),
      [0, 20, 0])) (by decide +kernel)
  simp only [Prod.mk.injEq, decide_eq_true_eq] at hf
  obtain ⟨hk, hbefore, hduring⟩ := hf
  obtain ⟨⟨path, p⟩, hduring, hended⟩ := Option.map_eq_some_iff.mp hduring
  simp only [Prod.mk.injEq] at hended
  obtain ⟨s, rfl⟩ := Progress.abort?_some hended.1
  obtain ⟨hdeeds, hsparse, -⟩ := refused_reservation run hk Sample.request
    (Sample.intent Sample.dollar 30)
  obtain ⟨deeds, h⟩ := hdeeds _ _ _ _ (.of_during hduring)
  obtain ⟨opened, hopened, hlength⟩ := hsparse _ _ _ _ _ h
  exact ⟨w, past, deeds, path, s, opened, run, h, hopened, hlength, hbefore, hended.2⟩

end WalletBudget
