import WalletBudget.Proofs.Flow

/-!
Runs of the service: any operations in any order, each with records that the service handed out
before, and any number of them waiting for a peer at once.

A run starts from an empty store and never hands out one identifier twice. What a peer answers, when
it answers, what the clock reads and in which order the tables hand out their rows are free.
-/

namespace WalletBudget

inductive Reply where
  | connection (k : Connection)
  | change (c : LimitChange)
  | payment (p : Payment)
  | receipt (r : PaymentReceipt)
  | view (v : BudgetView)
  | limits (ls : List Limit)
  | payments (ps : List Payment)
  | cycle (c : Cycle)

namespace Reply

/-- Records of connections that the caller has from then on. -/
def connections : Reply → List Connection
  | .connection k => [k]
  | _ => []

def paymentRecords : Reply → List Payment
  | .payment p => [p]
  | .receipt r => [r.payment]
  | .payments ps => ps
  | _ => []

end Reply

inductive Operation where
  | createConnection (currency : Currency) (token : Option String) (limit : Option LimitUpdate)
      (now : Instant)
  | connection (id : ConnectionId)
  | updateLimit (id : ConnectionId) (update : LimitUpdate) (now : Instant)
  | reserve (k : Connection) (request : RequestId) (intent : Intent)
  | finalizeSuccess (p : Payment) (settled : Int)
  | finalizeFailure (p : Payment)
  | pay (k : Connection) (id : RequestId) (request : PaymentRequest)
  | budgetView (k : Connection)
  | limitHistory (id : ConnectionId)
  | payments (id : ConnectionId) (most : Nat)
  | currentCycle (l : Limit) (now : Instant)

namespace Operation

def task (policy : HoldPolicy) : Operation → Task Reply
  | .createConnection currency token limit now =>
    return .connection (← Service.createConnection currency token limit now)
  | .connection id => return .connection (← Service.connection id)
  | .updateLimit id u now => return .change (← Service.updateLimit id u now)
  | .reserve k request intent => return .payment (← Service.reserve policy k request intent)
  | .finalizeSuccess p settled => return .payment (← Service.finalizeSuccess p settled)
  | .finalizeFailure p => return .payment (← Service.finalizeFailure p)
  | .pay k id request => return .receipt (← Service.pay policy k id request)
  | .budgetView k => return .view (← Service.budgetView k)
  | .limitHistory id => return .limits (← Service.limitHistory id)
  | .payments id most => return .payments (← Service.payments id most)
  | .currentCycle l now => return .cycle (← Service.currentCycle l now)

def now : Operation → Instant → Instant
  | .createConnection _ _ _ now, _ => now
  | .updateLimit _ _ now, _ => now
  | .currentCycle _ now, _ => now
  | _, clock => clock

/-- Asks for a cycle of a limit that has ended. -/
def revives : Operation → Bool
  | .currentCycle l _ => !l.isActive
  | _ => false

end Operation

inductive Event where
  | call (op : Operation)
  | converted (n : Nat) (answer : Except PeerError Int)
  | executed (n : Nat) (answer : Except PeerError PaymentOutcome)
  | clock (now : Reading)

def Event.revives : Event → Bool
  | .call op => op.revives
  | _ => false

/-- The service with the operations that wait for a peer, and the records its callers have. -/
structure World where
  service : Service
  waiting : List (Progress Reply)
  connections : List Connection
  payments : List Payment

namespace World

def start (clock : Reading) (ids : Nat → Uuid) (scan : Scan) : World :=
  ⟨.start clock ids scan, [], [], []⟩

/-- Callers pass connections and payments that they were given, old or new, and limits as they are
stored. -/
def admits (w : World) : Operation → Prop
  | .reserve k _ _ => k ∈ w.connections
  | .pay k _ _ => k ∈ w.connections
  | .budgetView k => k ∈ w.connections
  | .finalizeSuccess p _ => p ∈ w.payments
  | .finalizeFailure p => p ∈ w.payments
  | .currentCycle l _ => w.service.store.limit? l.id = some l
  | _ => True

instance (w : World) : (op : Operation) → Decidable (w.admits op)
  | .reserve k _ _ => inferInstanceAs (Decidable (k ∈ w.connections))
  | .pay k _ _ => inferInstanceAs (Decidable (k ∈ w.connections))
  | .budgetView k => inferInstanceAs (Decidable (k ∈ w.connections))
  | .finalizeSuccess p _ => inferInstanceAs (Decidable (p ∈ w.payments))
  | .finalizeFailure p => inferInstanceAs (Decidable (p ∈ w.payments))
  | .currentCycle l _ => inferInstanceAs (Decidable (w.service.store.limit? l.id = some l))
  | .createConnection _ _ _ _ => .isTrue trivial
  | .connection _ => .isTrue trivial
  | .updateLimit _ _ _ => .isTrue trivial
  | .limitHistory _ => .isTrue trivial
  | .payments _ _ => .isTrue trivial

/-- Takes over what a stretch of an operation came to. -/
def take (w : World) : Progress Reply → World
  | .done (.ok reply) s =>
    { w with
      service := s
      connections := reply.connections ++ w.connections
      payments := reply.paymentRecords ++ w.payments }
  | .done (.error _) s => { w with service := s }
  | .convert q s resume => { w with service := s, waiting := .convert q s resume :: w.waiting }
  | .execute q s resume => { w with service := s, waiting := .execute q s resume :: w.waiting }

def answered (w : World) (n : Nat) : World := { w with waiting := w.waiting.eraseIdx n }

def step (policy : HoldPolicy) (w : World) : Event → Option World
  | .call op => if w.admits op then some (w.take (op.task policy w.service)) else none
  | .converted n answer =>
    match w.waiting[n]? with
    | some (.convert _ _ resume) => some ((w.answered n).take (resume answer w.service))
    | _ => none
  | .executed n answer =>
    match w.waiting[n]? with
    | some (.execute _ _ resume) => some ((w.answered n).take (resume answer w.service))
    | _ => none
  | .clock now => some { w with service := w.service.tick now }

/-- What an event comes to in a world that allows it. -/
inductive Stepped (policy : HoldPolicy) (w : World) : Event → World → Prop
  | called (op : Operation) (hop : w.admits op) :
    Stepped policy w (.call op) (w.take (op.task policy w.service))
  | converted (n : Nat) (answer : Except PeerError Int) (q : Conversion) (s : Service)
      (resume : Except PeerError Int → Service → Progress Reply)
      (hn : w.waiting[n]? = some (.convert q s resume)) :
    Stepped policy w (.converted n answer) ((w.answered n).take (resume answer w.service))
  | executed (n : Nat) (answer : Except PeerError PaymentOutcome) (q : Execution) (s : Service)
      (resume : Except PeerError PaymentOutcome → Service → Progress Reply)
      (hn : w.waiting[n]? = some (.execute q s resume)) :
    Stepped policy w (.executed n answer) ((w.answered n).take (resume answer w.service))
  | clock (now : Reading) : Stepped policy w (.clock now) { w with service := w.service.tick now }

theorem step_cases {policy : HoldPolicy} {w w' : World} {e : Event}
    (h : w.step policy e = some w') : w.Stepped policy e w' := by
  cases e with
  | call op =>
    simp only [step] at h
    split at h
    · cases h
      exact .called op ‹_›
    · cases h
  | converted n answer =>
    simp only [step] at h
    split at h
    · cases h
      exact .converted n answer _ _ _ ‹_›
    · cases h
  | executed n answer =>
    simp only [step] at h
    split at h
    · cases h
      exact .executed n answer _ _ _ ‹_›
    · cases h
  | clock now =>
    cases h
    exact .clock now

@[simp] theorem take_service (w : World) (p : Progress Reply) :
    (w.take p).service = p.service := by
  cases p with
  | done r s => cases r <;> rfl
  | convert q s resume => rfl
  | execute q s resume => rfl

def now (w : World) : Event → Instant
  | .call op => op.now w.service.clock
  | _ => w.service.clock

/-- The clock does not go back, and operations take it for now. -/
def Steady (w : World) : Event → Prop
  | .call op => op.now w.service.clock = w.service.clock
  | .clock now => w.service.clock ≤ now.clock
  | _ => True

instance (w : World) : (e : Event) → Decidable (w.Steady e)
  | .call op => inferInstanceAs (Decidable (op.now w.service.clock = w.service.clock))
  | .clock now => inferInstanceAs (Decidable (w.service.clock ≤ now.clock))
  | .converted _ _ => .isTrue trivial
  | .executed _ _ => .isTrue trivial

end World

/-- The worlds of a run, the last one first, where every event keeps to a rule. -/
inductive Run (policy : HoldPolicy) (rule : World → Event → Prop) : List World → Prop
  | start (clock : Reading) (ids : Nat → Uuid) (scan : Scan) :
    Run policy rule [World.start clock ids scan]
  | step {w w' : World} {path : List World} {e : Event} (run : Run policy rule (w :: path))
      (hrule : rule w e) (hstep : w.step policy e = some w') (hfresh : w'.service.FreshIds) :
    Run policy rule (w' :: w :: path)

/-- What holds at a start and is kept by every event holds at the end of a run. -/
@[elab_as_elim]
theorem Run.lastInduction {policy : HoldPolicy} {rule : World → Event → Prop}
    {motive : (w : World) → (path : List World) → Run policy rule (w :: path) → Prop}
    (start : ∀ clock ids scan, motive (World.start clock ids scan) [] (.start clock ids scan))
    (step : ∀ {w w' : World} {path : List World} {e : Event} (run : Run policy rule (w :: path))
      (hrule : rule w e) (hstep : w.step policy e = some w') (hfresh : w'.service.FreshIds),
      motive w path run → motive w' (w :: path) (run.step hrule hstep hfresh))
    {w : World} {path : List World} (run : Run policy rule (w :: path)) : motive w path run := by
  induction path generalizing w with
  | nil =>
    cases run with
    | start clock ids scan => exact start clock ids scan
  | cons v path ih =>
    cases run with
    | step run hrule hstep hfresh => exact step run hrule hstep hfresh (ih run)

theorem Run.before {policy : HoldPolicy} {rule : World → Event → Prop} {w w' : World}
    {path : List World} (run : Run policy rule (w' :: w :: path)) :
    Run policy rule (w :: path) := by
  cases run with
  | step run => exact run

theorem Run.imp {policy : HoldPolicy} {rule rule' : World → Event → Prop} {path : List World}
    (run : Run policy rule path) (himp : ∀ w e, rule w e → rule' w e) : Run policy rule' path := by
  induction run with
  | start clock ids scan => exact .start clock ids scan
  | step _ hrule hstep hfresh ih => exact ih.step (himp _ _ hrule) hstep hfresh

/-- Every world that a run has seen is the last one of a run. -/
theorem Run.upTo {policy : HoldPolicy} {rule : World → Event → Prop} {w v : World}
    {path : List World} (run : Run policy rule (w :: path)) (hv : v ∈ w :: path) :
    ∃ past, Run policy rule (v :: past) ∧ v :: past <:+ w :: path := by
  induction path generalizing w with
  | nil =>
    obtain rfl := List.mem_singleton.mp hv
    exact ⟨[], run, List.suffix_rfl⟩
  | cons w₀ path ih =>
    rcases List.mem_cons.mp hv with rfl | hv
    · exact ⟨_, run, List.suffix_rfl⟩
    obtain ⟨past, hpast, hsuffix⟩ := ih run.before hv
    exact ⟨past, hpast, hsuffix.trans (List.suffix_cons _ _)⟩

/-- The worlds that given events lead through, if each of them keeps to the rule. -/
def World.follow (policy : HoldPolicy) (rule : World → Event → Prop)
    [∀ w e, Decidable (rule w e)] (w : World) (path : List World) :
    List Event → Option (World × List World)
  | [] => some (w, path)
  | e :: rest =>
    if rule w e then
      match w.step policy e with
      | some w' => if w'.service.FreshIds then follow policy rule w' (w :: path) rest else none
      | none => none
    else none

theorem Run.follow {policy : HoldPolicy} {rule : World → Event → Prop}
    [∀ w e, Decidable (rule w e)] {w v : World} {path past : List World} {events : List Event}
    (run : Run policy rule (w :: path))
    (h : w.follow policy rule path events = some (v, past)) : Run policy rule (v :: past) := by
  induction events generalizing w path with
  | nil =>
    cases h
    exact run
  | cons e rest ih =>
    simp only [World.follow] at h
    split at h
    · rename_i hrule
      split at h
      · rename_i w' hstep
        split at h
        · rename_i hfresh
          exact ih (run.step hrule hstep hfresh) h
        · cases h
      · cases h
    · cases h

/-- Events that keep to a rule and what can be read of the world that they lead to. -/
theorem Run.reaches (policy : HoldPolicy) (rule : World → Event → Prop)
    [∀ w e, Decidable (rule w e)] (clock : Reading) (ids : Nat → Uuid) (events : List Event)
    {α : Type} (f : World → List World → α) (a : α)
    (h : ((World.start clock ids .written).follow policy rule [] events).map
      (fun r => f r.1 r.2) = some a) :
    ∃ w path, Run policy rule (w :: path) ∧ f w path = a := by
  obtain ⟨⟨w, path⟩, hfollow, hf⟩ := Option.map_eq_some_iff.mp h
  exact ⟨w, path, Run.follow (.start clock ids .written) hfollow, hf⟩

/-- The worlds during one call, the last one first, and how far the call has come. Between a
question of its and the answer anything else may happen. -/
inductive Course {α : Type} (policy : HoldPolicy) (rule : World → Event → Prop) (t : Task α)
    (w : World) : List World → Progress α → Prop
  | called (hfresh : (t w.service).service.FreshIds) :
    Course policy rule t w [{ w with service := (t w.service).service }, w] (t w.service)
  | meanwhile {v v' : World} {path : List World} {p : Progress α} {e : Event}
      (h : Course policy rule t w (v :: path) p) (hasks : p.asks = true) (hrule : rule v e)
      (hstep : v.step policy e = some v') (hfresh : v'.service.FreshIds) :
    Course policy rule t w (v' :: v :: path) p
  | converted {v : World} {path : List World} {q : Conversion} {s : Service}
      {resume : Except PeerError Int → Service → Progress α} (answer : Except PeerError Int)
      (h : Course policy rule t w (v :: path) (.convert q s resume))
      (hfresh : (resume answer v.service).service.FreshIds) :
    Course policy rule t w
      ({ v with service := (resume answer v.service).service } :: v :: path)
      (resume answer v.service)
  | executed {v : World} {path : List World} {q : Execution} {s : Service}
      {resume : Except PeerError PaymentOutcome → Service → Progress α}
      (answer : Except PeerError PaymentOutcome)
      (h : Course policy rule t w (v :: path) (.execute q s resume))
      (hfresh : (resume answer v.service).service.FreshIds) :
    Course policy rule t w
      ({ v with service := (resume answer v.service).service } :: v :: path)
      (resume answer v.service)

/-- A question to the converter and, once it has come, the answer and the service at that moment. -/
structure Exchange where
  question : Conversion
  answer : Option (Except PeerError Int × Service)

def Exchange.reply? (e : Exchange) : Option (Except PeerError Int) := e.answer.map Prod.fst

/-- The course of a call with the exchanges that are over, the first one first. -/
inductive Conversation {α : Type} (policy : HoldPolicy) (rule : World → Event → Prop)
    (task : Task α) (w : World) : List Exchange → List World → Progress α → Prop
  | called (hfresh : (task w.service).service.FreshIds) :
    Conversation policy rule task w [] [{ w with service := (task w.service).service }, w]
      (task w.service)
  | meanwhile {log : List Exchange} {v v' : World} {path : List World} {p : Progress α} {e : Event}
      (h : Conversation policy rule task w log (v :: path) p) (hasks : p.asks = true)
      (hrule : rule v e) (hstep : v.step policy e = some v') (hfresh : v'.service.FreshIds) :
    Conversation policy rule task w log (v' :: v :: path) p
  | converted {log : List Exchange} {v : World} {path : List World} {q : Conversion} {s : Service}
      {resume : Except PeerError Int → Service → Progress α} (answer : Except PeerError Int)
      (h : Conversation policy rule task w log (v :: path) (.convert q s resume))
      (hfresh : (resume answer v.service).service.FreshIds) :
    Conversation policy rule task w (log ++ [⟨q, some (answer, v.service)⟩])
      ({ v with service := (resume answer v.service).service } :: v :: path)
      (resume answer v.service)
  | executed {log : List Exchange} {v : World} {path : List World} {q : Execution} {s : Service}
      {resume : Except PeerError PaymentOutcome → Service → Progress α}
      (answer : Except PeerError PaymentOutcome)
      (h : Conversation policy rule task w log (v :: path) (.execute q s resume))
      (hfresh : (resume answer v.service).service.FreshIds) :
    Conversation policy rule task w log
      ({ v with service := (resume answer v.service).service } :: v :: path)
      (resume answer v.service)

/-- What comes next while a call waits: something else, or the answer to its question. -/
inductive Turn where
  | other (e : Event)
  | converted (answer : Except PeerError Int)
  | executed (answer : Except PeerError PaymentOutcome)

/-- The worlds of a call that waits, through given turns. -/
def World.attend {α : Type} (policy : HoldPolicy) (rule : World → Event → Prop)
    [∀ w e, Decidable (rule w e)] :
    World → List World → Progress α → List Turn → Option (List World × Progress α)
  | w, path, p, [] => some (w :: path, p)
  | w, path, p, .other e :: turns =>
    if p.asks ∧ rule w e then
      match w.step policy e with
      | some w' =>
        if w'.service.FreshIds then attend policy rule w' (w :: path) p turns else none
      | none => none
    else none
  | w, path, .convert _ _ resume, .converted answer :: turns =>
    let p := resume answer w.service
    if p.service.FreshIds then
      attend policy rule { w with service := p.service } (w :: path) p turns
    else none
  | w, path, .execute _ _ resume, .executed answer :: turns =>
    let p := resume answer w.service
    if p.service.FreshIds then
      attend policy rule { w with service := p.service } (w :: path) p turns
    else none
  | _, _, _, _ => none

/-- The worlds of a call from the moment it is made, through given turns. -/
def World.during {α : Type} (policy : HoldPolicy) (rule : World → Event → Prop)
    [∀ w e, Decidable (rule w e)] (w : World) (t : Task α) (turns : List Turn) :
    Option (List World × Progress α) :=
  let p := t w.service
  if p.service.FreshIds then
    attend policy rule { w with service := p.service } [w] p turns
  else none

def Turn.reply? : Turn → Option (Except PeerError Int)
  | .converted answer => some answer
  | _ => none

section

variable {α : Type} {policy : HoldPolicy} {rule : World → Event → Prop} {task : Task α} {w : World}
  {path : List World} {log : List Exchange} {p q : Progress α}

theorem Conversation.course (h : Conversation policy rule task w log path p) :
    Course policy rule task w path p := by
  induction h with
  | called hfresh => exact .called hfresh
  | meanwhile _ hasks hrule hstep hfresh ih => exact ih.meanwhile hasks hrule hstep hfresh
  | converted answer _ hfresh ih => exact ih.converted answer hfresh
  | executed answer _ hfresh ih => exact ih.executed answer hfresh

/-- Through given turns the converter says what the turns say. -/
theorem Conversation.attend [∀ w e, Decidable (rule w e)] {v : World} {past : List World}
    {turns : List Turn}
    (h : Conversation policy rule task w log (v :: past) p)
    (hattend : v.attend policy rule past p turns = some (path, q)) :
    ∃ new, Conversation policy rule task w (log ++ new) path q ∧
      new.map Exchange.reply? = (turns.filterMap Turn.reply?).map some := by
  induction turns generalizing v past p log with
  | nil =>
    obtain ⟨rfl, rfl⟩ : v :: past = path ∧ p = q := by simpa [World.attend] using hattend
    exact ⟨[], by simpa using h, rfl⟩
  | cons turn rest ih =>
    cases turn with
    | other e =>
      simp only [World.attend] at hattend
      split at hattend
      · rename_i hkept
        split at hattend
        · rename_i v' hstep
          split at hattend
          · rename_i hfresh
            exact ih (h.meanwhile hkept.1 hkept.2 hstep hfresh) hattend
          · cases hattend
        · cases hattend
      · cases hattend
    | converted answer =>
      cases p with
      | convert question s resume =>
        simp only [World.attend] at hattend
        split at hattend
        · rename_i hfresh
          obtain ⟨new, hnew, hreplies⟩ := ih (h.converted answer hfresh) hattend
          refine ⟨⟨question, some (answer, v.service)⟩ :: new, by simpa using hnew, ?_⟩
          simpa [Exchange.reply?, Turn.reply?] using hreplies
        · cases hattend
      | _ => simp [World.attend] at hattend
    | executed answer =>
      cases p with
      | execute question s resume =>
        simp only [World.attend] at hattend
        split at hattend
        · rename_i hfresh
          exact ih (h.executed answer hfresh) hattend
        · cases hattend
      | _ => simp [World.attend] at hattend

theorem Conversation.of_during [∀ w e, Decidable (rule w e)] {turns : List Turn}
    (h : w.during policy rule task turns = some (path, p)) :
    ∃ log, Conversation policy rule task w log path p ∧
      log.map Exchange.reply? = (turns.filterMap Turn.reply?).map some := by
  simp only [World.during] at h
  split at h
  · rename_i hfresh
    simpa using (Conversation.called hfresh).attend h
  · cases h

theorem Course.of_during [∀ w e, Decidable (rule w e)] {turns : List Turn}
    (h : w.during policy rule task turns = some (path, p)) : Course policy rule task w path p := by
  obtain ⟨log, hconversation, -⟩ := Conversation.of_during h
  exact hconversation.course

end

def Progress.answer? {α : Type} : Progress α → Option (α × Service)
  | .done (.ok a) s => some (a, s)
  | _ => none

theorem Progress.answer?_some {α : Type} {p : Progress α} {a : α} {s : Service}
    (h : p.answer? = some (a, s)) : p = .done (.ok a) s := by
  cases p with
  | done r t => cases r <;> simp_all [answer?]
  | convert q t resume => cases h
  | execute q t resume => cases h

def Progress.abort? {α : Type} : Progress α → Option Abort
  | .done (.error a) _ => some a
  | _ => none

theorem Progress.abort?_some {α : Type} {p : Progress α} {a : Abort} (h : p.abort? = some a) :
    ∃ s, p = .done (.error a) s := by
  cases p with
  | done r s => cases r <;> simp_all [abort?]
  | convert q s resume => cases h
  | execute q s resume => cases h

/-- Events that lead from an empty store to a call, and turns that lead to its answer. -/
theorem Conversation.reachesBy (policy : HoldPolicy) (rule during : World → Event → Prop)
    [∀ w e, Decidable (rule w e)] [∀ w e, Decidable (during w e)] (clock : Reading)
    (ids : Nat → Uuid) (events : List Event) {α : Type} (t : Task α) (turns : List Turn) {β : Type}
    (f : World → List World → List World → α → Service → β) (b : β)
    (h : ((World.start clock ids .written).follow policy rule [] events).bind (fun r =>
      (r.1.during policy during t turns).bind fun c =>
        c.2.answer?.map fun a => f r.1 r.2 c.1 a.1 a.2) = some b) :
    ∃ w past log path a s, Run policy rule (w :: past) ∧
      Conversation policy during t w log path (.done (.ok a) s) ∧
      log.map Exchange.reply? = (turns.filterMap Turn.reply?).map some ∧ f w past path a s = b := by
  obtain ⟨⟨w, past⟩, hfollow, h⟩ := Option.bind_eq_some_iff.mp h
  obtain ⟨⟨path, p⟩, hduring, h⟩ := Option.bind_eq_some_iff.mp h
  obtain ⟨⟨a, s⟩, hanswer, hf⟩ := Option.map_eq_some_iff.mp h
  obtain rfl : p = .done (.ok a) s := Progress.answer?_some hanswer
  obtain ⟨log, hconversation, hreplies⟩ := Conversation.of_during hduring
  exact ⟨w, past, log, path, a, s, Run.follow (.start clock ids .written) hfollow, hconversation,
    hreplies, hf⟩

theorem Course.reachesBy (policy : HoldPolicy) (rule during : World → Event → Prop)
    [∀ w e, Decidable (rule w e)] [∀ w e, Decidable (during w e)] (clock : Reading)
    (ids : Nat → Uuid) (events : List Event) {α : Type} (t : Task α) (turns : List Turn) {β : Type}
    (f : World → List World → List World → α → Service → β) (b : β)
    (h : ((World.start clock ids .written).follow policy rule [] events).bind (fun r =>
      (r.1.during policy during t turns).bind fun c =>
        c.2.answer?.map fun a => f r.1 r.2 c.1 a.1 a.2) = some b) :
    ∃ w past path a s, Run policy rule (w :: past) ∧
      Course policy during t w path (.done (.ok a) s) ∧ f w past path a s = b := by
  obtain ⟨w, past, log, path, a, s, run, h, -, hf⟩ :=
    Conversation.reachesBy policy rule during clock ids events t turns f b h
  exact ⟨w, past, path, a, s, run, h.course, hf⟩

theorem Course.reaches (policy : HoldPolicy) (rule : World → Event → Prop)
    [∀ w e, Decidable (rule w e)] (clock : Reading) (ids : Nat → Uuid) (events : List Event)
    {α : Type} (t : Task α) (turns : List Turn) {β : Type}
    (f : World → List World → List World → α → Service → β) (b : β)
    (h : ((World.start clock ids .written).follow policy rule [] events).bind (fun r =>
      (r.1.during policy rule t turns).bind fun c =>
        c.2.answer?.map fun a => f r.1 r.2 c.1 a.1 a.2) = some b) :
    ∃ w past path a s, Run policy rule (w :: past) ∧
      Course policy rule t w path (.done (.ok a) s) ∧ f w past path a s = b :=
  Course.reachesBy policy rule rule clock ids events t turns f b h

/-! Records of one connection with a daily limit of 100 sats, for runs written out. -/

namespace Sample

def start : Instant := ⟨1704067200, 0, by decide, by decide, by decide⟩

def secondDay : Instant :=
  { start with secs := 1704153600, first_le := by decide, le_last := by decide }

def thirdDay : Instant :=
  { start with secs := 1704240000, first_le := by decide, le_last := by decide }

def dollar : Currency := ⟨"USD", "$", "US Dollar", 2⟩

def created : Event :=
  .call (.createConnection .sat none (some ⟨true, some 100, none, some .daily⟩) start)

def connection : Connection := ⟨⟨Uuid.ofNat 0⟩, .sat, some ⟨Uuid.ofNat 1⟩, none, start⟩

def request : RequestId := ⟨Uuid.ofNat 9⟩

def intent (currency : Currency) (amount : Nat) [NeZero amount] : Intent :=
  ⟨"lnbc1", .invoice, currency, amount, none, Int.natCast_pos.mpr (NeZero.pos amount)⟩

/-- The record of a first payment in sats, with as much held as is sent. -/
def payment (sats : Nat) [NeZero sats] : Payment :=
  (Payment.pending ⟨Uuid.ofNat 3⟩ request connection.id (intent .sat sats) start).reserved
    ⟨Uuid.ofNat 2⟩ .sat sats sats

end Sample

end WalletBudget
