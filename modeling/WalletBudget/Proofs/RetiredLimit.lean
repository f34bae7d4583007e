import WalletBudget.Proofs.CycleTimes
import WalletBudget.Proofs.LedgerBalance

/-!
A limit that has ended is final: neither its record nor the set of its cycles changes any more, and
no hold is placed on one of them. What is left is to end the payments that were pending on them.
Only a caller that searches for the cycle of an ended limit on its own may be given a new one.

A reservation that was priced for such a limit may still be under way. Its cycle is over by then, at
the instant of the end itself too, so the reservation finds no place for its hold.
-/

namespace WalletBudget

open Service

variable {policy : HoldPolicy} {final : Prop} {now time : Instant} {s t : Service} {l : Limit}
  {c c' : Cycle} {p : Payment} {w w' v : World} {path : List World}

theorem Instant.later_eq {a b : Instant} (h : b ≤ a) : a.later b = a := by
  simp only [later]
  split
  · rename_i hle
    exact le_antisymm h hle
  · rfl

theorem Limit.isActive_finish (h : l.finish = some time) : l.isActive = false := by
  simp [isActive, h]

/-- A limit that has begun ends at the time it is ended at. -/
theorem Limit.deactivate_finish (hactive : l.isActive = true) (hbegun : l.start ≤ now)
    (h : (l.deactivate now).finish = some time) : time = now := by
  simpa [deactivate, hactive, Instant.later_eq hbegun, eq_comm] using h

/-- A limit that ends keeps its record, or an active one is retired. -/
theorem Service.Write.retires (h : Write final now s t) {id : LimitId}
    (hl : t.store.limit? id = some l) (hended : l.isActive = false) : s.store.limit? id = some l ∨
      ∃ l₀, s.store.limit? id = some l₀ ∧ l₀.isActive = true ∧ l = l₀.deactivate now := by
  have hfiled : ∀ {m : Limit}, (s.store.fileLimit m).limit? id = some l → m.isActive = true →
      s.store.limit? id = some l := by
    intro m hl ha
    by_cases hid : m.id = id
    · obtain rfl : m = l := by simpa [hid] using hl
      rw [ha] at hended
      cases hended
    · simpa [hid] using hl
  have hretired : ∀ {l₀ : Limit}, s.store.limit? l₀.id = some l₀ → l₀.isActive = true →
      (s.store.fileLimit (l₀.deactivate now)).limit? id = some l → s.store.limit? id = some l ∨
        ∃ l₀, s.store.limit? id = some l₀ ∧ l₀.isActive = true ∧ l = l₀.deactivate now := by
    intro l₀ hl₀ ha hl
    by_cases hid : l₀.id = id
    · exact .inr ⟨l₀, hid ▸ hl₀, ha, by simpa [hid, eq_comm] using hl⟩
    · exact .inl (by simpa [hid] using hl)
  cases h with
  | begin l₀ _ ha => exact .inl (hfiled hl ha)
  | reprice l₀ amount _ ha => exact .inl (hfiled (m := { l₀ with amount }) hl ha)
  | repriceLive l₀ c amount _ ha => exact .inl (hfiled (m := { l₀ with amount }) hl ha)
  | retire l₀ hl₀ ha => exact hretired hl₀ ha hl
  | close l₀ c hl₀ ha => exact hretired hl₀ ha hl
  | _ => exact .inl hl

/-- Nothing is written to a cycle of a limit that has ended, and none is opened. -/
theorem Service.Write.retired (hs : Coherent s) (h : Write True now s t)
    (hl : s.store.limit? l.id = some l) (hended : l.isActive = false) {id : CycleId}
    (hc : t.store.cycle? id = some c) (hlimit : c.limit = l.id) : s.store.cycle? id = some c := by
  have hother : ∀ {l₀ : Limit}, s.store.limit? l₀.id = some l₀ → l₀.isActive = true →
      l₀.id ≠ l.id := by
    intro l₀ hl₀ ha he
    obtain rfl : l₀ = l := Option.some.inj ((he ▸ hl₀).symm.trans hl)
    rw [ha] at hended
    cases hended
  have hfiled : ∀ {d : Cycle} {l₀ : Limit}, d.limit = l₀.id → s.store.limit? l₀.id = some l₀ →
      l₀.isActive = true → (s.store.fileCycle d).cycle? id = some c →
        s.store.cycle? id = some c := by
    intro d l₀ hd hl₀ ha hc
    by_cases hid : d.id = id
    · obtain rfl : d = c := by simpa [hid] using hc
      exact absurd (hd.symm.trans hlimit) (hother hl₀ ha)
    · simpa [hid] using hc
  cases h with
  | repriceLive l₀ d amount hl₀ ha _ hd =>
    exact hfiled (d := { d with limitAmount := amount }) (hs.latest hd).2.1 hl₀ ha hc
  | close l₀ d hl₀ ha hd =>
    exact hfiled ((endAt_follows d now).limit.trans (hs.latest hd).2.1) hl₀ ha hc
  | opened l₀ d start hl₀ ha _ _ hd =>
    obtain ⟨finish, hfresh⟩ := createCycle_fresh hd
    exact hfiled (by rw [hfresh]; rfl) hl₀ (ha trivial) hc
  | _ => exact hc

/-- The record of a limit that has ended stays as it is. -/
theorem Service.Later.retired (h : Later s t) (hl : s.store.limit? l.id = some l)
    (hended : l.isActive = false) : t.store.limit? l.id = some l := by
  obtain ⟨l', hl', hfollows⟩ := h.limits l.id l hl
  rw [hfollows.ended hended] at hl'
  exact hl'

theorem Service.Writes.retired (hs : Coherent s) (h : Writes True now s t) (ht : t.FreshIds)
    (hl : s.store.limit? l.id = some l) (hended : l.isActive = false) {id : CycleId}
    (hc : t.store.cycle? id = some c) (hlimit : c.limit = l.id) : s.store.cycle? id = some c := by
  have hkept : t.store.limit? l.id = some l ∧ ∀ id c, t.store.cycle? id = some c →
      c.limit = l.id → s.store.cycle? id = some c := by
    refine h.keeps (I := fun u => u.store.limit? l.id = some l ∧ ∀ id c,
      u.store.cycle? id = some c → c.limit = l.id → s.store.cycle? id = some c) hs ht
      ⟨hl, fun _ _ hc _ => hc⟩ ?_
    rintro a b ha hw hb ⟨hla, hcycles⟩
    refine ⟨(hw.rows ha hb).later.retired hla hended, fun id c hc hlimit => ?_⟩
    exact hcycles id c (hw.retired ha hla hended hc hlimit) hlimit
  exact hkept.2 id c hc hlimit

/-- A cycle that is new is of a limit that is active. -/
theorem Service.Write.opens (hs : Coherent s) (h : Write True now s t) {id : CycleId}
    (hc : t.store.cycle? id = some c) (hl : t.store.limit? c.limit = some l)
    (hended : l.isActive = false) : ∃ c₀, s.store.cycle? id = some c₀ ∧ c₀.limit = c.limit := by
  have hfiled : ∀ {d e : Cycle}, s.store.cycle? d.id = some d → e.id = d.id →
      e.limit = d.limit → (s.store.fileCycle e).cycle? id = some c →
        ∃ c₀, s.store.cycle? id = some c₀ ∧ c₀.limit = c.limit := by
    intro d e hd hid hlimit hc
    by_cases hsame : e.id = id
    · obtain rfl : e = c := by simpa [hsame] using hc
      exact ⟨d, hsame ▸ hid ▸ hd, hlimit.symm⟩
    · exact ⟨c, by simpa [hsame] using hc, rfl⟩
  cases h with
  | repriceLive l₀ d amount _ _ _ hd =>
    exact hfiled (e := { d with limitAmount := amount }) (hs.latest hd).1 rfl rfl hc
  | close l₀ d _ _ hd =>
    exact hfiled (hs.latest hd).1 (endAt_id d now) (endAt_follows d now).limit hc
  | opened l₀ d start hl₀ ha _ _ hd =>
    by_cases hsame : d.id = id
    · obtain rfl : d = c := by simpa [hsame] using hc
      have hl : s.store.limit? d.limit = some l := hl
      obtain ⟨finish, hfresh⟩ := createCycle_fresh hd
      rw [show d.limit = l₀.id by rw [hfresh]; rfl, hl₀] at hl
      rw [← Option.some.inj hl, ha trivial] at hended
      cases hended
    · exact ⟨c, by simpa [hsame] using hc, rfl⟩
  | _ => exact ⟨c, hc, rfl⟩

/-- The cycles of a limit with an end are over at that end. -/
def Closed (s : Service) : Prop :=
  ∀ id c l time, s.store.cycle? id = some c → s.store.limit? c.limit = some l →
    l.finish = some time → c.hasEnded time = true

namespace Closed

theorem ended (h : Closed s) (htimely : Timely s) {id : CycleId} (hc : s.store.cycle? id = some c)
    (hl : s.store.limit? c.limit = some l) (hended : l.isActive = false) :
    c.hasEnded s.clock = true := by
  obtain ⟨time, hfinish⟩ : ∃ time, l.finish = some time := by
    cases hfinish : l.finish with
    | none => simp [Limit.isActive, hfinish] at hended
    | some time => exact ⟨time, rfl⟩
  exact Cycle.hasEnded_mono (h id c l time hc hl hfinish) (htimely.ends c.limit l time hl hfinish)

/-- A limit ends at the time of the write that retires it, and its cycles are over by then. -/
theorem write (hs : Coherent s) (htimely : Timely s) (h : Closed s) (hw : Write True s.clock s t)
    (ht : t.FreshIds) : Closed t := by
  intro id c l time hc hl hfinish
  have hended := Limit.isActive_finish hfinish
  rcases hw.retires hl hended with hl₀ | ⟨l₀, hl₀, hactive, rfl⟩
  · have hlimit : c.limit = l.id := (Store.limit?_id hl₀).symm
    exact h id c l time (hw.retired hs (hlimit ▸ hl₀) hended hc hlimit) hl₀ hfinish
  · obtain ⟨c₀, hc₀, hlimit⟩ := hw.opens hs hc hl hended
    have hrows := hw.rows hs ht
    rw [Limit.deactivate_finish hactive (htimely.limits _ l₀ hl₀).2 hfinish, ← hw.clock]
    exact (htimely.write hs hw ht).ended (hrows.coherent hs) hrows.later hc₀ (hlimit ▸ hl₀) hactive
      hc (hlimit ▸ hl) hended

/-- Moving money in a cycle leaves its times as they are. -/
theorem moved (h : Closed s) (hm : Moved s t c c') : Closed t := by
  have hfields := hm.totals
  intro id f l time hf hl hfinish
  rw [hm.limits] at hl
  rw [hm.cycles] at hf
  split at hf
  · obtain rfl := Option.some.inj hf
    rw [hfields] at hl
    rw [Cycle.hasEnded_congr (show c'.finish = c.finish by rw [hfields])]
    exact h c.id c l time hm.stored hl hfinish
  · exact h id f l time hf hl hfinish

theorem writes (hs : Coherent s) (htimely : Timely s) (h : Closed s)
    (hw : Writes True s.clock s t) (ht : t.FreshIds) : Closed t := by
  have hkept : (t.clock = s.clock ∧ Timely t) ∧ Closed t := by
    refine hw.keeps (I := fun u => (u.clock = s.clock ∧ Timely u) ∧ Closed u) hs ht
      ⟨⟨rfl, htimely⟩, h⟩ ?_
    rintro a b ha hw hb ⟨⟨hclock, htimely⟩, hclosed⟩
    exact ⟨htimely.writeAt ha hclock hw hb, hclosed.write ha htimely (hclock ▸ hw) hb⟩
  exact hkept.2

theorem stretch (hs : Coherent s) (htimely : Timely s) (h : Closed s)
    (hst : Stretch policy True s.clock s t) (ht : t.FreshIds) : Closed t := by
  cases hst with
  | quiet hw => exact h.writes hs htimely hw ht
  | placed m c p hold hw hp =>
    exact (h.writes hs htimely hw (ht.before (by simp [hp.written]))).moved hp.moved
  | ended m e c p c' hw hp =>
    exact (h.writes hs htimely hw (ht.before (by simp [hp.written]))).moved hp.moved

end Closed

/-- The end of a payment that is pending on a cycle, as far as the cycle and the payment go. -/
structure Discharged (e : Ending) (p : Payment) (c c' : Cycle) (s t : Service) : Prop where
  pending : p.status = .pending
  linked : p.cycle = some c.id
  before : s.store.payment? p.id = some p
  after : t.store.payment? p.id = some (e.mark p s.clock)
  applied : e.apply c (p.hold.getD 0) = .ok c'

/-- What a step leaves of a limit that has ended. -/
structure Settling (l : Limit) (s t : Service) : Prop where
  limit : t.store.limit? l.id = some l
  cycles : ∀ id c', t.store.cycle? id = some c' → c'.limit = l.id → ∃ c,
    s.store.cycle? id = some c ∧ c.limit = l.id ∧ (c' = c ∨ ∃ e p, Discharged e p c c' s t)
  pending : ∀ id p cycle c, t.store.payment? id = some p → p.status = .pending →
    p.cycle = some cycle → t.store.cycle? cycle = some c → c.limit = l.id →
      s.store.payment? id = some p

theorem Service.Stretch.settling (hs : Coherent s) (htimely : Timely s) (hclosed : Closed s)
    (h : Stretch policy True s.clock s t) (ht : t.FreshIds) (hl : s.store.limit? l.id = some l)
    (hended : l.isActive = false) : Settling l s t := by
  have hlater := (h.rows hs ht).later
  cases h with
  | quiet hw =>
    refine ⟨hlater.retired hl hended, fun id c hc hlimit => ?_, fun id p cycle c hp _ hlinked _ _ =>
      (hw.neutral hs ht).linked id p hp (by simp [hlinked])⟩
    exact ⟨c, hw.retired hs ht hl hended hc hlimit, hlimit, .inl rfl⟩
  | placed m c p hold hw hp =>
    have hm : m.FreshIds := ht.before (by simp [hp.written])
    have hrows := hw.rows hs hm
    have hcoherent := hrows.coherent hs
    have hlm := hrows.later.retired hl hended
    -- The cycle is live at the clock, so it is not one of this limit.
    have hother : c.limit ≠ l.id := by
      intro he
      have hover := (hclosed.writes hs htimely hw hm).ended (htimely.writes hs hw hm) hp.cycle
        (he ▸ hlm) hended
      rw [hp.live] at hover
      cases hover
    have hstored : ∀ id d, t.store.cycle? id = some d → d.limit = l.id →
        m.store.cycle? id = some d := by
      intro id d hd hlimit
      rw [hp.cycle?] at hd
      split at hd
      · cases hd
        exact absurd hlimit hother
      · exact hd
    refine ⟨hlater.retired hl hended, fun id d hd hlimit => ?_, ?_⟩
    · exact ⟨d, hw.retired hs hm hl hended (hstored id d hd hlimit) hlimit, hlimit, .inl rfl⟩
    · intro id q cycle d hq hpending hlinked hd hlimit
      rw [hp.payment?] at hq
      split at hq
      · cases hq
        obtain rfl : c.id = cycle := Option.some.inj (hp.linked.symm.trans hlinked)
        have hc := hstored c.id d hd hlimit
        obtain rfl : c = d := Option.some.inj (hp.cycle.symm.trans hc)
        exact absurd hlimit hother
      · exact (hw.neutral hs hm).linked id q hq (by simp [hlinked])
  | ended m e c p c' hw hp =>
    have hm : m.FreshIds := ht.before (by simp [hp.written])
    have hneutral := hw.neutral hs hm
    have hfields := apply_ok hp.applied
    refine ⟨hlater.retired hl hended, fun id d hd hlimit => ?_, ?_⟩
    · rw [hp.cycle?] at hd
      split at hd
      · rename_i hid
        cases hd
        have hlimit' : c.limit = l.id := by rw [hfields] at hlimit; exact hlimit
        refine ⟨c, hw.retired hs hm hl hended (hid ▸ hp.cycle) hlimit', hlimit', .inr ⟨e, p, ?_⟩⟩
        exact {
          pending := hp.pending, linked := hp.linked, applied := hp.applied
          before := hneutral.linked p.id p hp.payment (by simp [hp.linked])
          after := by simp [hp.payment?] }
      · exact ⟨d, hw.retired hs hm hl hended hd hlimit, hlimit, .inl rfl⟩
    · intro id q cycle d hq hpending hlinked _ _
      rw [hp.payment?] at hq
      split at hq
      · cases hq
        exact absurd hpending (mark_status e p s.clock)
      · exact hneutral.linked id q hq (by simp [hlinked])

/-- The events of a steady run in which nobody asks for a cycle of a limit that has ended. -/
def World.Rests (w : World) (e : Event) : Prop := w.Steady e ∧ e.revives = false

instance (w : World) (e : Event) : Decidable (w.Rests e) :=
  inferInstanceAs (Decidable (_ ∧ _))

theorem Run.steady (run : Run policy World.Rests path) : Run policy World.Steady path :=
  run.imp fun _ _ => And.left

/-- Such an event moves the clock on, or it does a stretch of work now that leaves ended limits as
they are. -/
theorem Run.rests (run : Run policy World.Rests (w' :: w :: path)) :
    (∃ now : Reading, w.service.clock ≤ now.clock ∧ w'.service = w.service.tick now) ∨
      Stretch policy True w.service.clock w.service w'.service := by
  cases run with
  | @step _ _ _ e run hrule hstep hfresh =>
    obtain ⟨hsteady, hrevives⟩ := hrule
    obtain ⟨-, ⟨now, rfl, htick⟩ | hstretch⟩ := run.sound.advance hstep hfresh
    · exact .inl ⟨now, hsteady, htick⟩
    · have hnow : w.now e = w.service.clock := by
        cases e with
        | call op => exact hsteady
        | _ => rfl
      exact .inr (hnow ▸ hstretch.imp fun _ => hrevives)

theorem reachable_closed (run : Run policy World.Rests (w :: path)) : Closed w.service := by
  induction path generalizing w with
  | nil =>
    cases run with
    | start =>
      intro _ _ _ _ h
      cases h
  | cons v path ih =>
    have hclosed := ih run.before
    rcases run.rests with ⟨now, -, htick⟩ | hstretch
    · rw [htick]
      exact hclosed
    · exact hclosed.stretch run.before.sound.coherent (reachable_timely run.before.steady) hstretch
        run.sound.fresh

/-- What any number of steps leaves of a limit that has ended. -/
structure Ceased (l : Limit) (s t : Service) : Prop where
  limit : t.store.limit? l.id = some l
  cycles : ∀ id c', t.store.cycle? id = some c' → c'.limit = l.id →
    ∃ c, s.store.cycle? id = some c ∧ c.limit = l.id
  pending : ∀ id p cycle c, t.store.payment? id = some p → p.status = .pending →
    p.cycle = some cycle → t.store.cycle? cycle = some c → c.limit = l.id →
      s.store.payment? id = some p

theorem Ceased.refl (hl : s.store.limit? l.id = some l) : Ceased l s s where
  limit := hl
  cycles _ c hc hlimit := ⟨c, hc, hlimit⟩
  pending _ _ _ _ hp _ _ _ _ := hp

theorem Ceased.tail {u : Service} (h : Ceased l s t) (htu : Settling l t u) : Ceased l s u where
  limit := htu.limit
  cycles id c hc hlimit := by
    obtain ⟨c₀, hc₀, hlimit₀, -⟩ := htu.cycles id c hc hlimit
    exact h.cycles id c₀ hc₀ hlimit₀
  pending id p cycle c hp hpending hlinked hc hlimit := by
    obtain ⟨c₀, hc₀, hlimit₀, -⟩ := htu.cycles cycle c hc hlimit
    have hbefore := htu.pending id p cycle c hp hpending hlinked hc hlimit
    exact h.pending id p cycle c₀ hbefore hpending hlinked hc₀ hlimit₀

theorem Run.settling (run : Run policy World.Rests (w' :: w :: path))
    (hl : w.service.store.limit? l.id = some l) (hended : l.isActive = false) :
    Settling l w.service w'.service := by
  rcases run.rests with ⟨now, -, htick⟩ | hstretch
  · rw [htick]
    exact ⟨hl, fun _ c hc hlimit => ⟨c, hc, hlimit, .inl rfl⟩, fun _ _ _ _ hp _ _ _ _ => hp⟩
  · exact hstretch.settling run.before.sound.coherent (reachable_timely run.before.steady)
      (reachable_closed run.before) run.sound.fresh hl hended

theorem Run.ceased (run : Run policy World.Rests (w :: path)) (hv : v ∈ w :: path)
    (hl : v.service.store.limit? l.id = some l) (hended : l.isActive = false) :
    Ceased l v.service w.service := by
  induction path generalizing w with
  | nil =>
    obtain rfl := List.mem_singleton.mp hv
    exact .refl hl
  | cons w₀ path ih =>
    rcases List.mem_cons.mp hv with rfl | hv
    · exact .refl hl
    have hceased := ih run.before hv
    exact hceased.tail (run.settling hceased.limit hended)

/-- Once a limit has ended, its record stays as it is and its cycles are those it had then, over by
that end. Every step leaves such a cycle as it is, or settles or releases a payment
that was pending on it when the limit ended; nothing more is ever held on it. -/
theorem retired_limit_final (run : Run policy World.Rests (w' :: w :: path))
    (hv : v ∈ w :: path) (hl : v.service.store.limit? l.id = some l)
    (hfinish : l.finish = some time) :
    time ≤ v.service.clock ∧ w'.service.store.limit? l.id = some l ∧
    (∀ id c, v.service.store.cycle? id = some c → c.limit = l.id → c.hasEnded time = true) ∧
    ∀ id c', w'.service.store.cycle? id = some c' → c'.limit = l.id →
      c'.hasEnded time = true ∧
      (∃ c₀, v.service.store.cycle? id = some c₀ ∧ c₀.limit = l.id) ∧
      ∃ c, w.service.store.cycle? id = some c ∧ c.limit = l.id ∧
        (c' = c ∨ ∃ e p, v.service.store.payment? p.id = some p ∧
          Discharged e p c c' w.service w'.service) ∧
        (policy.validate = .ok () → c'.held ≤ c.held) := by
  have hended := Limit.isActive_finish hfinish
  have hceased := run.before.ceased hv hl hended
  have hsettling := run.settling hceased.limit hended
  obtain ⟨past, before, -⟩ := run.before.upTo hv
  refine ⟨(reachable_timely before.steady).ends l.id l time hl hfinish, hsettling.limit,
    fun id c hc hlimit => ?_, fun id c' hc' hlimit => ?_⟩
  · exact reachable_closed before id c l time hc (hlimit ▸ hl) hfinish
  · obtain ⟨c, hc, hlimit₀, hdischarged⟩ := hsettling.cycles id c' hc' hlimit
    refine ⟨reachable_closed run id c' l time hc' (hlimit ▸ hsettling.limit) hfinish,
      hceased.cycles id c hc hlimit₀, c, hc, hlimit₀, ?_⟩
    rcases hdischarged with rfl | ⟨e, p, hd⟩
    · exact ⟨.inl rfl, fun _ => Int.le_refl _⟩
    · have hid : w.service.store.cycle? c.id = some c := (Store.cycle?_id hc).symm ▸ hc
      have hwas := hceased.pending p.id p c.id c hd.before hd.pending hd.linked hid hlimit₀
      refine ⟨.inr ⟨e, p, hwas, hd⟩, fun hvalid => ?_⟩
      obtain ⟨hold, hhold, hnonneg, hle⟩ := (reachable_balanced hvalid run.before).hold_le
        run.before.sound.coherent hid hd.before hd.pending hd.linked
      rw [apply_ok hd.applied, hhold]
      simp only [Option.getD_some]
      omega

def Sample.retired (time : Instant) : Limit :=
  ⟨⟨Uuid.ofNat 1⟩, Sample.connection.id, .sat, 100, .daily, Sample.start, some time⟩

/-- The first cycle of the sample connection, cut short where it starts. -/
def Sample.cut (spent held : Int) : Cycle :=
  ⟨⟨Uuid.ofNat 2⟩, ⟨Uuid.ofNat 1⟩, .sat, 100, Sample.start, some Sample.start, spent, held⟩

/-- A payment of 30 sats is settled after the limit was disabled. -/
theorem retired_limit_final_settled :
    ∃ w' w path v, Run .exact World.Rests (w' :: w :: path) ∧ v ∈ w :: path ∧
      v.service.store.limit? ⟨Uuid.ofNat 1⟩ = some (Sample.retired Sample.start) ∧
      w'.service.store.limit? ⟨Uuid.ofNat 1⟩ = some (Sample.retired Sample.start) ∧
      w.service.store.cycle? ⟨Uuid.ofNat 2⟩ = some (Sample.cut 0 30) ∧
      w'.service.store.cycle? ⟨Uuid.ofNat 2⟩ = some (Sample.cut 25 0) ∧
      (Sample.cut 25 0).hasEnded Sample.start = true ∧
      ∃ e p, v.service.store.payment? p.id = some p ∧
        Discharged e p (Sample.cut 0 30) (Sample.cut 25 0) w.service w'.service := by
  obtain ⟨w', path, run, hf⟩ := Run.reaches .exact World.Rests ⟨Sample.start, rfl⟩ Uuid.ofNat
    [ Sample.created,
      .call (.reserve Sample.connection Sample.request (Sample.intent .sat 30)),
      .call (.updateLimit Sample.connection.id .disable Sample.start),
      .clock ⟨⟨1704070800, 0, by decide, by decide, by decide⟩, rfl⟩,
      .call (.finalizeSuccess (Sample.payment 30) 25) ]
    (fun w path => (path[1]?.bind (·.service.store.limit? ⟨Uuid.ofNat 1⟩),
      path.head?.bind (·.service.store.cycle? ⟨Uuid.ofNat 2⟩),
      w.service.store.cycle? ⟨Uuid.ofNat 2⟩))
    (some (Sample.retired Sample.start), some (Sample.cut 0 30), some (Sample.cut 25 0))
    (by decide +kernel)
  simp only [Prod.mk.injEq] at hf
  obtain ⟨hretired, hbefore, hafter⟩ := hf
  obtain ⟨v, hv, hl⟩ := Option.bind_eq_some_iff.mp hretired
  cases path with
  | nil => cases hv
  | cons w path =>
    have hv := List.mem_of_getElem? hv
    obtain ⟨-, hlw, -, hcycles⟩ :=
      retired_limit_final run hv (l := Sample.retired Sample.start) hl rfl
    obtain ⟨hended, -, c, hc, -, hdischarged, -⟩ := hcycles _ (Sample.cut 25 0) hafter rfl
    obtain rfl : Sample.cut 0 30 = c := Option.some.inj (hbefore.symm.trans hc)
    rcases hdischarged with heq | hdischarged
    · exact absurd heq (by decide)
    · exact ⟨w', w, path, v, run, hv, hl, hlw, hc, hafter, hended, hdischarged⟩

/-- With a factor below zero holds are negative: the release of a payment that was pending when its
limit was disabled raises what the cycle of that limit holds. -/
theorem held_on_retired_limit :
    ∃ w' w path l time, Run ⟨⟨true, 1, 0, by decide, by decide⟩⟩ World.Rests (w' :: w :: path) ∧
      w.service.store.limit? l.id = some l ∧ l.finish = some time ∧
      ∃ c c', w.service.store.cycle? c.id = some c ∧ c.limit = l.id ∧
        w'.service.store.cycle? c.id = some c' ∧ c.held < c'.held := by
  obtain ⟨w', path, run, hf⟩ := Run.reaches ⟨⟨true, 1, 0, by decide, by decide⟩⟩ World.Rests
    ⟨Sample.start, rfl⟩ Uuid.ofNat
    [ Sample.created,
      .call (.reserve Sample.connection Sample.request (Sample.intent .sat 30)),
      .call (.updateLimit Sample.connection.id .disable Sample.start),
      .call (.finalizeFailure ((Payment.pending ⟨Uuid.ofNat 3⟩ Sample.request
        Sample.connection.id (Sample.intent .sat 30) Sample.start).reserved
          ⟨Uuid.ofNat 2⟩ .sat 30 (-30))) ]
    (fun w path => (path.head?.bind (·.service.store.limit? ⟨Uuid.ofNat 1⟩),
      path.head?.bind (·.service.store.cycle? ⟨Uuid.ofNat 2⟩),
      w.service.store.cycle? ⟨Uuid.ofNat 2⟩))
    (some (Sample.retired Sample.start), some (Sample.cut 0 (-30)), some (Sample.cut 0 0))
    (by decide +kernel)
  simp only [Prod.mk.injEq] at hf
  obtain ⟨hl, hc, hc'⟩ := hf
  cases path with
  | nil => cases hl
  | cons w path =>
    exact ⟨w', w, path, Sample.retired Sample.start, Sample.start, run, hl, rfl,
      Sample.cut 0 (-30), Sample.cut 0 0, hc, rfl, hc', by decide⟩

end WalletBudget
