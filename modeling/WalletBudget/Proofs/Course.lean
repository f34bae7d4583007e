import WalletBudget.Proofs.Sound

/-!
What is known of a single call when it comes to its end, whatever went on around it.

The course of a call says which worlds it has seen. What others did in them does not enter what
passes between the call and the converter, so how far it has come is told by its own steps, from one
answer to the next.
-/

namespace WalletBudget

open Service

variable {α : Type} {policy : HoldPolicy} {rule : World → Event → Prop}
  {hands : Service → Service → Prop} {post : Service → Except Abort α → Service → Prop}
  {Q : Service → Prop} {R : World → Prop} {t : Task α} {w : World} {path : List World}
  {p q : Progress α}

/-- A call sees the world it is made in. -/
theorem Course.mem (course : Course policy rule t w path p) : w ∈ path := by
  induction course <;> simp_all

def Moment (Q : Service → Prop) (s : Service) : Prop := Coherent s ∧ Q s

/-- How a call stands at the end of the worlds it has seen. While it waits the world is sound and
the call is ready; at its end its last stretch is known. -/
def Stands (policy : HoldPolicy) (Q : Service → Prop) (hands : Service → Service → Prop)
    (post : Service → Except Abort α → Service → Prop) (path : List World) (p : Progress α) :
    Prop :=
  match p with
  | .done r s => ∃ v past, path = { v with service := s } :: v :: past ∧ s.FreshIds ∧
    Moment Q v.service ∧ post v.service r s
  | p => ∃ v past, path = v :: past ∧ v.Sound policy ∧ Q v.service ∧
    p.Ready hands (Rely (Moment Q)) post v.service

/-- A stretch of the call itself, from a sound world on. -/
theorem Stands.goes {v : World} {past : List World} (hv : v.Sound policy) (hQ : Q v.service)
    (hhands : ∀ b s, hands b s → Works policy b s)
    (hkeep : hands v.service p.service → Q p.service)
    (hgoes : p.Goes hands (Rely (Moment Q)) post v.service) (hf : p.service.FreshIds) :
    Stands policy Q hands post ({ v with service := p.service } :: v :: past) p := by
  have hasks : ∀ s, p.service = s → hands v.service s →
      ({ v with service := s } : World).Sound policy ∧ Q s := by
    rintro s rfl hs
    have hrows := (hhands _ _ hs).rows hv.coherent hf
    exact ⟨hv.later (hrows.coherent hv.coherent) hf hrows.later, hkeep hs⟩
  cases p with
  | done r s => exact ⟨v, past, rfl, hf, ⟨hv.coherent, hQ⟩, hgoes⟩
  | convert q s resume =>
    obtain ⟨hsound, hQs⟩ := hasks s rfl hgoes.1
    exact ⟨_, _, rfl, hsound, hQs, hgoes.2⟩
  | execute q s resume =>
    obtain ⟨hsound, hQs⟩ := hasks s rfl hgoes.1
    exact ⟨_, _, rfl, hsound, hQs, hgoes.2⟩

/-- A call that follows its rely and its guarantee comes to a known end, if neither its own
stretches nor the events between break the property that it relies on. -/
theorem Course.follows (course : Course policy rule t w path p) (hw : w.Sound policy)
    (hQ : Q w.service) (hhands : ∀ b s, hands b s → Works policy b s)
    (hown : ∀ (v : World) s, { v with service := s } ∈ path → Coherent v.service → s.FreshIds →
      hands v.service s → Q v.service → Q s)
    (hothers : ∀ (v v' : World) e, v' ∈ path → v.Sound policy → rule v e →
      v.step policy e = some v' → v'.service.FreshIds → Q v.service → Q v'.service)
    (hgoes : (t w.service).Goes hands (Rely (Moment Q)) post w.service) :
    Stands policy Q hands post path p := by
  induction course with
  | called hfresh =>
    refine .goes hw hQ hhands (fun hs => ?_) hgoes hfresh
    exact hown w _ List.mem_cons_self hw.coherent hfresh hs hQ
  | @meanwhile v v' past p e h hasks hkept hstep hfresh ih =>
    have hready : ∃ u past', v :: past = u :: past' ∧ u.Sound policy ∧ Q u.service ∧
        p.Ready hands (Rely (Moment Q)) post u.service := by
      have hstands := ih (fun u s hu => hown u s (List.mem_cons_of_mem _ hu))
        fun u u' e hu => hothers u u' e (List.mem_cons_of_mem _ hu)
      cases p with
      | done r s => cases hasks
      | convert q s resume => exact hstands
      | execute q s resume => exact hstands
    obtain ⟨u, past', hpath, hsound, hQu, hready⟩ := hready
    cases hpath
    obtain ⟨hsound', hchanged⟩ := hsound.step hstep hfresh
    have hlater := hchanged.later hsound.coherent hfresh
    have hQ' := hothers v v' e List.mem_cons_self hsound hkept hstep hfresh hQu
    have hready' : p.Ready hands (Rely (Moment Q)) post v'.service :=
      hready.imp fun u hu => ⟨hlater.trans hu.1, hu.2⟩
    cases p with
    | done r s => cases hasks
    | convert q s resume => exact ⟨v', _, rfl, hsound', hQ', hready'⟩
    | execute q s resume => exact ⟨v', _, rfl, hsound', hQ', hready'⟩
  | @converted v past q s resume answer h hfresh ih =>
    obtain ⟨u, past', hpath, hsound, hQu, hready⟩ :=
      ih (fun u s hu => hown u s (List.mem_cons_of_mem _ hu))
        fun u u' e hu => hothers u u' e (List.mem_cons_of_mem _ hu)
    cases hpath
    refine .goes hsound hQu hhands (fun hs => ?_)
      (hready answer v.service ⟨.refl _, hsound.coherent, hQu⟩) hfresh
    exact hown v _ List.mem_cons_self hsound.coherent hfresh hs hQu
  | @executed v past q s resume answer h hfresh ih =>
    obtain ⟨u, past', hpath, hsound, hQu, hready⟩ :=
      ih (fun u s hu => hown u s (List.mem_cons_of_mem _ hu))
        fun u u' e hu => hothers u u' e (List.mem_cons_of_mem _ hu)
    cases hpath
    refine .goes hsound hQu hhands (fun hs => ?_)
      (hready answer v.service ⟨.refl _, hsound.coherent, hQu⟩) hfresh
    exact hown v _ List.mem_cons_self hsound.coherent hfresh hs hQu

/-- It is enough that no change of the service breaks that property. -/
theorem Course.stands (course : Course policy rule t w path p) (steady : Prop)
    (hw : w.Sound policy)
    (hrule : ∀ v e, rule v e → steady → v.Steady e) (hR : ∀ v ∈ path, R v) (hQ : Q w.service)
    (hhands : ∀ b s, hands b s → Works policy b s)
    (hkeep : ∀ s v, R v → Coherent s → Changed policy steady s v.service →
      v.service.FreshIds → Q s → Q v.service)
    (hgoes : (t w.service).Goes hands (Rely (Moment Q)) post w.service) :
    Stands policy Q hands post path p := by
  refine course.follows hw hQ hhands ?_ ?_ hgoes
  · intro v s hmem hv hf hs
    exact hkeep v.service _ (hR _ hmem) hv (.work _ (fun _ => rfl)
      ((hhands _ _ hs).imp False.elim)) hf
  · intro v v' e hmem hv hkept hstep hf
    obtain ⟨-, hchanged⟩ := hv.step hstep hf
    exact hkeep v.service v' (hR _ hmem) hv.coherent (hchanged.imp (hrule v e hkept)) hf

/-- A call that waits does so in a sound world. -/
theorem Course.waits {v : World} (course : Course policy rule t w (v :: path) p)
    (hasks : p.asks = true) (hw : w.Sound policy) (hhands : ∀ b s, hands b s → Works policy b s)
    (hgoes : (t w.service).Goes hands (Rely (Moment fun _ => True)) post w.service) :
    v.Sound policy := by
  have hstands := course.stands (R := fun _ => True) False hw (fun _ _ _ h => h.elim)
    (fun _ _ => trivial) trivial hhands (fun _ _ _ _ _ _ _ => trivial) hgoes
  cases p with
  | done r s => cases hasks
  | convert q s resume =>
    obtain ⟨u, before, hpath, hsound, -⟩ := hstands
    cases hpath
    exact hsound
  | execute q s resume =>
    obtain ⟨u, before, hpath, hsound, -⟩ := hstands
    cases hpath
    exact hsound

def Progress.open? : Progress α → Option Exchange
  | .convert q _ _ => some ⟨q, none⟩
  | _ => none

/-- A call comes this far by these exchanges, each answered in a service whose store is reached. -/
inductive Progress.Hears : Progress α → List Exchange → Progress α → Prop
  | nothing (p : Progress α) : Hears p [] p
  | converted {q : Conversion} {s u : Service}
      {resume : Except PeerError Int → Service → Progress α} {answer : Except PeerError Int}
      {log : List Exchange} {p : Progress α} (hq : u.outages = [])
      (h : Hears (resume answer u) log p) :
    Hears (.convert q s resume) (⟨q, some (answer, u)⟩ :: log) p
  | executed {q : Execution} {s u : Service}
      {resume : Except PeerError PaymentOutcome → Service → Progress α}
      {answer : Except PeerError PaymentOutcome} {log : List Exchange} {p : Progress α}
      (hq : u.outages = []) (h : Hears (resume answer u) log p) : Hears (.execute q s resume) log p

namespace Progress.Hears

variable {log log' : List Exchange} {r : Except Abort α} {s : Service}

theorem trans {p' : Progress α} (h : Hears p log q) (h' : Hears q log' p') :
    Hears p (log ++ log') p' := by
  induction h with
  | nothing => exact h'
  | converted hq _ ih => exact .converted hq (ih h')
  | executed hq _ ih => exact .executed hq (ih h')

/-- A call that is done hears nothing more. -/
theorem done (h : Hears (.done r s) log p) : log = [] ∧ p = .done r s := by
  cases h
  exact ⟨rfl, rfl⟩

theorem ended {r' : Except Abort α} {u : Service} (h : Hears (.done r s) log (.done r' u)) :
    log = [] ∧ r' = r := by
  obtain ⟨hlog, hdone⟩ := h.done
  exact ⟨hlog, (Progress.done.inj hdone).1⟩

end Progress.Hears

/-- A call has come as far as its exchanges have brought it. -/
theorem Conversation.hears {log : List Exchange} (h : Conversation policy rule t w log path p)
    (hw : w.Sound policy) (hhands : ∀ b s, hands b s → Works policy b s)
    (hgoes : (t w.service).Goes hands (Rely (Moment fun _ => True)) post w.service) :
    (t w.service).Hears log p := by
  have hquiet : ∀ {v : World} {path : List World} {p : Progress α}, p.asks = true →
      Course policy rule t w (v :: path) p → v.service.outages = [] := fun hasks course =>
    (course.waits hasks hw hhands hgoes).coherent.quiet
  induction h with
  | called hfresh => exact .nothing _
  | meanwhile _ _ _ _ _ ih => exact ih
  | converted answer h hfresh ih =>
    exact ih.trans (.converted (hquiet rfl h.course) (.nothing _))
  | executed answer h hfresh ih =>
    simpa using ih.trans (.executed (hquiet rfl h.course) (.nothing _))

end WalletBudget
