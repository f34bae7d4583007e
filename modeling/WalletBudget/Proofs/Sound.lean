import WalletBudget.Proofs.World

/-!
What holds in every world of every run: the tables fit together, records that were handed out still
tell the truth they told, and operations that wait are ready for any answer at any later moment.
-/

namespace WalletBudget

open Service

variable {policy : HoldPolicy} {steady final : Prop} {rule : World → Event → Prop} {s t : Service}
  {w w' : World} {e : Event} {path : List World}

/-- Records in an answer are true of the service it came from. -/
def Reply.True (r : Reply) (s : Service) : Prop :=
  (∀ k ∈ r.connections, Known s k) ∧ ∀ p ∈ r.paymentRecords, Filed s p

/-- What every stretch of an operation that asks comes to. -/
def Answers (policy : HoldPolicy) (b : Service) (r : Except Abort Reply) (t : Service) : Prop :=
  Works policy b t ∧ ∀ reply, r = .ok reply → reply.True t

/-- An operation that waits is ready for any answer at any later moment. -/
def Waits (policy : HoldPolicy) (s : Service) (p : Progress Reply) : Prop :=
  p.Ready (Works policy) (Rely Coherent) (Answers policy) s

theorem Waits.later {p : Progress Reply} (h : Waits policy s p) (hst : Later s t) :
    Waits policy t p :=
  Progress.Ready.imp h fun _ hu => ⟨hst.trans hu.1, hu.2⟩

/-- What a stretch leaves behind for the world. -/
def Leaves (policy : HoldPolicy) (final : Prop) (now : Instant) (s : Service) :
    Progress Reply → Prop
  | .done r t =>
    t.FreshIds → Stretch policy final now s t ∧ ∀ reply, r = .ok reply → reply.True t
  | .convert q t resume => Stretch policy final now s t ∧ Waits policy t (.convert q t resume)
  | .execute q t resume => Stretch policy final now s t ∧ Waits policy t (.execute q t resume)

theorem Leaves.imp {final' : Prop} {now : Instant} {p : Progress Reply}
    (h : Leaves policy final now s p) (himp : final' → final) :
    Leaves policy final' now s p := by
  cases p with
  | done r t => exact fun hf => (h hf).imp_left fun hst => hst.imp himp
  | convert q t resume => exact h.imp_left fun hst => hst.imp himp
  | execute q t resume => exact h.imp_left fun hst => hst.imp himp

theorem Leaves.of_goes {p : Progress Reply}
    (h : p.Goes (Works policy) (Rely Coherent) (Answers policy) s) :
    Leaves policy True s.clock s p := by
  cases p with
  | done r t => exact fun _ => h
  | convert q t resume => exact h
  | execute q t resume => exact h

theorem Leaves.of_ends {α : Type} {now : Instant} {p : Progress α} {f : α → Reply}
    {post : Except Abort α → Service → Prop} (hs : Coherent s) (h : Ends now s p post)
    (hpost : ∀ a t, post (.ok a) t → (f a).True t) :
    Leaves policy True now s (p.bind fun a t => .done (.ok (f a)) t) := by
  obtain ⟨r, t, rfl, -, -, hends⟩ := h
  cases r with
  | error a => exact fun hf => ⟨.quiet (hends hs hf).1, by simp⟩
  | ok a =>
    refine fun hf => ⟨.quiet (hends hs hf).1, fun reply he => ?_⟩
    obtain rfl := Except.ok.inj he
    exact hpost a t (hends hs hf).2

theorem Progress.Goes.reply {α : Type} {p : Progress α} {f : α → Reply}
    {post : Service → Except Abort α → Service → Prop}
    (h : p.Goes (Works policy) (Rely Coherent) post s)
    (hworks : ∀ b r t, post b r t → Works policy b t)
    (hpost : ∀ b a t, post b (.ok a) t → (f a).True t) :
    (p.bind fun a t => .done (.ok (f a)) t).Goes (Works policy) (Rely Coherent)
      (Answers policy) s := by
  refine .bind (h.imp fun b r t hr => ?_)
  cases r with
  | error a => exact ⟨hworks b _ t hr, by simp⟩
  | ok a =>
    refine ⟨hworks b _ t hr, fun reply he => ?_⟩
    obtain rfl := Except.ok.inj he
    exact hpost b a t hr

structure World.Sound (policy : HoldPolicy) (w : World) : Prop where
  coherent : Coherent w.service
  fresh : w.service.FreshIds
  waiting : ∀ p ∈ w.waiting, Waits policy w.service p
  connections : ∀ k ∈ w.connections, Known w.service k
  payments : ∀ p ∈ w.payments, Filed w.service p

theorem Finalized.leaves {p : Payment} {e : Ending} {t : Task Payment}
    (h : ∃ r u, t s = .done r u ∧ Finalized e p s r u) :
    Leaves policy True s.clock s ((t s).bind fun q u => .done (.ok (.payment q)) u) := by
  obtain ⟨r, u, hrun, hfinal⟩ := h
  rw [hrun]
  cases r with
  | error a => exact fun _ => ⟨hfinal.stretch, by simp⟩
  | ok q =>
    refine fun _ => ⟨hfinal.stretch, fun reply he => ?_⟩
    obtain rfl := Except.ok.inj he
    exact ⟨by simp [Reply.connections], by simpa [Reply.paymentRecords] using hfinal.filed rfl⟩

theorem Operation.currentCycle_run (hq : s.outages = []) (l : Limit) (now : Instant) :
    ∃ r t, (Operation.currentCycle l now).task policy s = .done (r.map Reply.cycle) t ∧
      Found l now s r t := by
  obtain ⟨r, t, hrun, hfound⟩ := Service.currentCycle_found hq l now
  refine ⟨r, t, ?_, hfound⟩
  simp only [Operation.task, Task.bind_run, hrun]
  cases r <;> rfl

/-- A search for the cycle of a stored limit writes one cycle at most. -/
theorem Service.Found.writes {l : Limit} {now : Instant} {r : Except Abort Cycle}
    (h : Found l now s r t) (hl : s.store.limit? l.id = some l)
    (hactive : final → l.isActive = true) : Writes final now s t := by
  cases h with
  | latest => exact .refl
  | opened c start hidle hstart hc hfree =>
    exact .single (.opened l c start hl hactive hidle hstart hc hfree)
  | taken => exact .single .issue
  | lost => exact .single .issue
  | noPeriod => exact .refl
  | noCycle => exact .single .issue

/-- Every operation, called with records that were handed out, does one stretch of work and is then
at its end or ready for any answer. -/
theorem World.Sound.call (hw : w.Sound policy) {op : Operation} (hop : w.admits op) :
    Leaves policy (op.revives = false) (op.now w.service.clock) w.service
      (op.task policy w.service) := by
  have hs := hw.coherent
  have hP : ∀ t, Coherent t → Coherent t := fun _ => id
  -- All but a search on its own leave ended limits alone.
  have hfinal : ∀ {now p}, Leaves policy True now w.service p →
      Leaves policy (op.revives = false) now w.service p := fun h => h.imp fun _ => trivial
  cases op with
  | createConnection currency token limit now =>
    exact hfinal (.of_ends hs (createConnection_ends hs.quiet currency token limit now)
      fun k t hk => ⟨by simpa [Reply.connections] using hk.2 k rfl, by simp [Reply.paymentRecords]⟩)
  | connection id =>
    simp only [Operation.task, Task.bind_run, connection_run hs.quiet]
    cases hk : w.service.store.connection? id with
    | none => exact fun _ => ⟨.quiet .refl, by simp⟩
    | some k =>
      refine fun _ => ⟨.quiet .refl, fun reply he => ?_⟩
      obtain rfl := Except.ok.inj he
      exact ⟨by simpa [Reply.connections] using hs.known hk, by simp [Reply.paymentRecords]⟩
  | updateLimit id u now =>
    exact hfinal (.of_ends hs (updateLimit_ends hs.quiet id u now) fun _ _ _ =>
      ⟨by simp [Reply.connections], by simp [Reply.paymentRecords]⟩)
  | reserve k request intent =>
    refine hfinal (.of_goes ((reserve_works hP hs (hw.connections k hop)).reply
      (fun _ _ _ h => h.1) fun _ p _ h => ?_))
    exact ⟨by simp [Reply.connections], by simpa [Reply.paymentRecords] using h.2 p rfl⟩
  | finalizeSuccess p settled =>
    exact hfinal (Finalized.leaves (finalizeSuccess_runs hs (hw.payments p hop) settled))
  | finalizeFailure p =>
    exact hfinal (Finalized.leaves (finalizeFailure_runs hs (hw.payments p hop)))
  | pay k id request =>
    refine hfinal (.of_goes ((pay_works hP hs (hw.connections k hop) request id).reply
      (fun _ _ _ h => h.1) fun _ receipt _ h => ?_))
    exact ⟨by simp [Reply.connections], by simpa [Reply.paymentRecords] using h.2 receipt rfl⟩
  | budgetView k =>
    exact hfinal (.of_goes ((budgetView_works hP hs (hw.connections k hop)).reply
      (fun _ _ _ h => h) fun _ _ _ _ => ⟨by simp [Reply.connections],
        by simp [Reply.paymentRecords]⟩))
  | limitHistory id =>
    simp only [Operation.task, Task.bind_run, limitHistory_run hs.quiet]
    cases w.service.store.connection? id with
    | none => exact fun _ => ⟨.quiet .refl, by simp⟩
    | some k =>
      refine fun _ => ⟨.quiet .refl, fun reply he => ?_⟩
      obtain rfl := Except.ok.inj he
      exact ⟨by simp [Reply.connections], by simp [Reply.paymentRecords]⟩
  | payments id most =>
    simp only [Operation.task, Task.bind_run, payments_run hs.quiet]
    cases w.service.store.connection? id with
    | none => exact fun _ => ⟨.quiet .refl, by simp⟩
    | some k =>
      refine fun _ => ⟨.quiet .refl, fun reply he => ?_⟩
      obtain rfl := Except.ok.inj he
      exact ⟨by simp [Reply.connections], payments_filed hs _ id most⟩
  | currentCycle l now =>
    obtain ⟨r, t, hrun, hfound⟩ := Operation.currentCycle_run hs.quiet l now
    have hwrites : Writes (Operation.revives (.currentCycle l now) = false) now w.service t :=
      hfound.writes hop (by simp [Operation.revives])
    rw [hrun]
    cases r with
    | error a => exact fun _ => ⟨.quiet hwrites, by simp [Except.map]⟩
    | ok c =>
      refine fun _ => ⟨.quiet hwrites, fun reply he => ?_⟩
      obtain rfl := Except.ok.inj he
      exact ⟨by simp [Reply.connections], by simp [Reply.paymentRecords]⟩

namespace World.Sound

theorem later (hw : w.Sound policy) (hs : Coherent s) (hf : s.FreshIds)
    (h : Later w.service s) : ({ w with service := s } : World).Sound policy where
  coherent := hs
  fresh := hf
  waiting p hp := (hw.waiting p hp).later h
  connections k hk := (hw.connections k hk).later h
  payments p hp := (hw.payments p hp).later h

theorem answered (hw : w.Sound policy) (n : Nat) : (w.answered n).Sound policy :=
  { hw with waiting := fun p hp => hw.waiting p (List.mem_of_mem_eraseIdx hp) }

/-- A world that takes over what a stretch of work left is sound again. -/
theorem take (hw : w.Sound policy) {now : Instant} {p : Progress Reply}
    (h : Leaves policy final now w.service p) (hf : (w.take p).service.FreshIds) :
    (w.take p).Sound policy ∧ Stretch policy final now w.service (w.take p).service := by
  have hnext : ∀ {t : Service}, Stretch policy final now w.service t → t.FreshIds →
      ({ w with service := t } : World).Sound policy := by
    intro t ht hf
    have hrows := ht.rows hw.coherent hf
    exact hw.later (hrows.coherent hw.coherent) hf hrows.later
  cases p with
  | done r t =>
    cases r with
    | error a => exact ⟨hnext (h hf).1 hf, (h hf).1⟩
    | ok reply =>
      obtain ⟨hstretch, htrue⟩ := h hf
      have hsound := hnext hstretch hf
      refine ⟨{ hsound with connections := ?_, payments := ?_ }, hstretch⟩
      · intro k hk
        exact (List.mem_append.mp hk).elim ((htrue reply rfl).1 k) (hsound.connections k)
      · intro p hp
        exact (List.mem_append.mp hp).elim ((htrue reply rfl).2 p) (hsound.payments p)
  | convert q t resume =>
    have hsound := hnext h.1 hf
    refine ⟨{ hsound with waiting := ?_ }, h.1⟩
    exact List.forall_mem_cons.mpr ⟨h.2, hsound.waiting⟩
  | execute q t resume =>
    have hsound := hnext h.1 hf
    refine ⟨{ hsound with waiting := ?_ }, h.1⟩
    exact List.forall_mem_cons.mpr ⟨h.2, hsound.waiting⟩

end World.Sound

/-- What one event does to the service: the clock is set, or one stretch of work is done. -/
inductive Changed (policy : HoldPolicy) (steady : Prop) (s t : Service) : Prop
  | clock (now : Reading) (hsteady : steady → s.clock ≤ now.clock) (ht : t = s.tick now)
  | work (now : Instant) (hsteady : steady → now = s.clock) (ht : Stretch policy False now s t)

theorem Changed.imp {steady' : Prop} (h : Changed policy steady s t)
    (himp : steady' → steady) : Changed policy steady' s t := by
  cases h with
  | clock now hsteady ht => exact .clock now (fun h => hsteady (himp h)) ht
  | work now hsteady ht => exact .work now (fun h => hsteady (himp h)) ht

theorem Service.tick_later (s : Service) (now : Reading) : Later s (s.tick now) :=
  { Later.refl s with }

theorem Service.Coherent.tick (hs : Coherent s) (now : Reading) : Coherent (s.tick now) :=
  { hs with }

theorem Changed.later (hs : Coherent s) (h : Changed policy steady s t)
    (ht : t.FreshIds) : Later s t := by
  cases h with
  | clock now _ htick =>
    rw [htick]
    exact s.tick_later now
  | work now _ hst => exact (hst.rows hs ht).later

/-- One event sets the clock, or does one stretch of work at what it takes for now. -/
theorem World.Sound.advance (hw : w.Sound policy) (h : w.step policy e = some w')
    (hf : w'.service.FreshIds) :
    w'.Sound policy ∧ ((∃ time, e = .clock time ∧ w'.service = w.service.tick time) ∨
      Stretch policy (e.revives = false) (w.now e) w.service w'.service) := by
  have hresume : ∀ {v : World} {p : Progress Reply}, v.Sound policy → v.service = w.service →
      p.Goes (Works policy) (Rely Coherent) (Answers policy) v.service →
      (v.take p).service.FreshIds →
      (v.take p).Sound policy ∧
        Stretch policy True w.service.clock w.service (v.take p).service := by
    intro v p hv hservice hgoes hf
    obtain ⟨hsound, hstretch⟩ := hv.take (.of_goes hgoes) hf
    rw [hservice] at hstretch
    exact ⟨hsound, hstretch⟩
  cases step_cases h with
  | called op hop =>
    exact (hw.take (hw.call hop) hf).imp_right .inr
  | converted n answer q s resume hn =>
    refine (hresume (hw.answered n) rfl ?_ hf).imp_right fun h => .inr (h.imp fun _ => trivial)
    exact hw.waiting _ (List.mem_of_getElem? hn) answer w.service ⟨.refl _, hw.coherent⟩
  | executed n answer q s resume hn =>
    refine (hresume (hw.answered n) rfl ?_ hf).imp_right fun h => .inr (h.imp fun _ => trivial)
    exact hw.waiting _ (List.mem_of_getElem? hn) answer w.service ⟨.refl _, hw.coherent⟩
  | clock time =>
    refine ⟨hw.later (hw.coherent.tick time) hf (w.service.tick_later time), ?_⟩
    exact .inl ⟨time, rfl, rfl⟩

theorem World.Sound.step (hw : w.Sound policy) (h : w.step policy e = some w')
    (hf : w'.service.FreshIds) :
    w'.Sound policy ∧ Changed policy (w.Steady e) w.service w'.service := by
  obtain ⟨hsound, ⟨time, rfl, htick⟩ | hstretch⟩ := hw.advance h hf
  · exact ⟨hsound, .clock time id htick⟩
  · refine ⟨hsound, .work _ ?_ (hstretch.imp False.elim)⟩
    cases e with
    | call op => exact id
    | _ => exact fun _ => rfl

theorem World.start_sound (clock : Reading) (ids : Nat → Uuid) (scan : Scan) :
    (World.start clock ids scan).Sound policy where
  coherent := {
    quiet := rfl, cycles := List.nodup_nil, payments := List.nodup_nil
    connectionIssued := by intro _ _ h; cases h
    limitIssued := by intro _ _ h; cases h
    cycleIssued := by intro _ _ h; cases h
    paymentIssued := by intro _ _ h; cases h
    cycleLimit := by intro _ _ h; cases h
    cycleIndexed := by intro _ _ h; cases h
    indexCycle := by intro _ _ _ h; cases h
    pointer := by intro _ _ h; cases h
    paymentCycle := by intro _ _ _ h; cases h
    pendingCore := by intro _ _ h; cases h }
  fresh := fun i hi => absurd hi (Nat.not_lt_zero i)
  waiting := by intro p hp; cases hp
  connections := by intro k hk; cases hk
  payments := by intro p hp; cases hp

/-- Every world of a run is sound. -/
theorem Run.sound (run : Run policy rule (w :: path)) : w.Sound policy := by
  induction run using Run.lastInduction with
  | start clock ids scan => exact World.start_sound clock ids scan
  | step run hrule hstep hfresh ih => exact (ih.step hstep hfresh).1

theorem Run.changed (run : Run policy rule (w' :: w :: path)) :
    ∃ e, rule w e ∧ w.step policy e = some w' ∧
      Changed policy (w.Steady e) w.service w'.service := by
  cases run with
  | step run hrule hstep hfresh => exact ⟨_, hrule, hstep, (run.sound.step hstep hfresh).2⟩

theorem Run.later (run : Run policy rule (w :: path)) {v : World} (hv : v ∈ w :: path) :
    Later v.service w.service := by
  induction path generalizing w with
  | nil =>
    obtain rfl := List.mem_singleton.mp hv
    exact .refl _
  | cons w₀ path ih =>
    rcases List.mem_cons.mp hv with rfl | hv
    · exact .refl _
    obtain ⟨e, -, -, hchanged⟩ := run.changed
    exact (ih run.before hv).trans (hchanged.later run.before.sound.coherent run.sound.fresh)

/-- A property of the service holds in every world of a run if it holds at the start and no event
breaks it. -/
theorem Run.holds {I : Service → Prop} (run : Run policy rule (w :: path)) (steady : Prop)
    (hrule : ∀ v e, rule v e → steady → v.Steady e)
    (hstart : ∀ clock ids scan, I (Service.start clock ids scan))
    (hchange : ∀ s t, Coherent s → t.FreshIds → Changed policy steady s t → I s → I t) :
    I w.service := by
  induction run using Run.lastInduction with
  | start clock ids scan => exact hstart clock ids scan
  | step run hkept hstep hfresh ih =>
    have hchanged := (run.sound.step hstep hfresh).2
    exact hchange _ _ run.sound.coherent hfresh (hchanged.imp (hrule _ _ hkept)) ih

end WalletBudget
