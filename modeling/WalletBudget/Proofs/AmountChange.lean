import WalletBudget.Proofs.LimitTransition

/-!
A change of the amount of a limit alone.

An update that leaves the frequency out asks for a limit that never renews. Such a limit is changed
in its place then, and its one cycle counts on against the new amount. A limit that renews is ended,
and nothing that was spent or held counts in the cycle of the limit that comes in its place.
-/

namespace WalletBudget

open Service

variable {policy : HoldPolicy} {rule : World → Event → Prop} {s t : Service} {w : World}
  {path past : List World} {k : Connection} {l : Limit} {c d : Cycle} {amount : Int}
  {frequency : Option Frequency} {steady final : Prop} {now : Instant}

/-- The one cycle of an active limit that never renews is its latest one and has no end. -/
theorem Service.Aligned.endless (hs : Coherent s) (h : Aligned s)
    (hl : s.store.limit? l.id = some l) (hactive : l.isActive = true)
    (hnever : l.frequency = .never) {id : CycleId} (hc : s.store.cycle? id = some c)
    (hlimit : c.limit = l.id) : c.finish = none ∧ s.store.latestCycle? l.id = some c := by
  have hperiod : l.frequency.period? = none := by
    rw [hnever]
    rfl
  have hfits := h id c l hc (hlimit ▸ hl)
  constructor
  · rw [hfits.whole hactive, Limit.stop?, hperiod]
    rfl
  · rw [← hlimit]
    refine hs.latest_of_last hc fun id' d hd hdl => ?_
    rw [(h id' d l hd (by rw [hdl, hlimit, hl])).starts.never hperiod, hfits.starts.never hperiod]
    exact Instant.le_refl _

/-- The cycles of active limits that never renew are of the amounts that the limits have. -/
def Service.Endless (s : Service) : Prop :=
  ∀ id c l, s.store.cycle? id = some c → s.store.limit? c.limit = some l → l.isActive = true →
    l.frequency = .never → c.limitAmount = l.amount

namespace Service.Endless

theorem retained (h : Endless s) (hold : Retains s t) : Endless t := by
  intro id c l hc hl hactive hnever
  obtain ⟨hc', hl'⟩ := hold id c l hc hl hactive
  exact h id c l hc' hl' hactive hnever

/-- The cycle of such a limit has not ended, so it gets every new amount of the limit. -/
theorem reprice (hs : Coherent s) (ha : Aligned s) (h : Endless s)
    (hl : s.store.limit? l.id = some l) (hactive : l.isActive = true) (amount : Int)
    (hidle : ∀ c, s.store.latestCycle? l.id = some c → c.hasEnded now = true) :
    Endless (s.write (s.store.fileLimit { l with amount })) := by
  intro id c m hc hm hactive' hnever
  by_cases hid : l.id = c.limit
  · obtain rfl : { l with amount } = m := by simpa [hid] using hm
    obtain ⟨hfinish, hlatest⟩ := ha.endless hs hl hactive hnever hc hid.symm
    have hended := hidle c hlatest
    rw [Cycle.hasEnded, hfinish] at hended
    cases hended
  · exact h id c m hc (by simpa [hid] using hm) hactive' hnever

theorem repriceLive (hs : Coherent s) (ha : Aligned s) (h : Endless s)
    (hl : s.store.limit? l.id = some l) (hactive : l.isActive = true) (amount : Int)
    (hc : s.store.latestCycle? l.id = some c) :
    Endless (s.write
      ((s.store.fileCycle { c with limitAmount := amount }).fileLimit { l with amount })) := by
  obtain ⟨hstored, hlimit, -⟩ := hs.latest hc
  intro id d m hd hm hactive' hnever
  by_cases hid : c.id = id
  · obtain rfl : { c with limitAmount := amount } = d := by simpa [hid] using hd
    obtain rfl : { l with amount } = m := by simpa [hlimit] using hm
    rfl
  · have hd : s.store.cycle? id = some d := by simpa [hid] using hd
    by_cases hother : l.id = d.limit
    · obtain rfl : { l with amount } = m := by simpa [hother] using hm
      obtain ⟨-, hlatest⟩ := ha.endless hs hl hactive hnever hd hother.symm
      obtain rfl := Option.some.inj (hc.symm.trans hlatest)
      exact absurd (Store.cycle?_id hd) hid
    · exact h id d m hd (by simpa [hother] using hm) hactive' hnever

theorem write (hs : Coherent s) (ha : Aligned s) (h : Endless s) (hw : Write final now s t)
    (ht : t.FreshIds) : Endless t := by
  cases hw with
  | begin l hid => exact h.retained (hs.retains_begin ht hid)
  | reprice l amount hl hactive _ hidle => exact h.reprice hs ha hl hactive amount hidle
  | repriceLive l c amount hl hactive _ hc => exact h.repriceLive hs ha hl hactive amount hc
  | retire l => exact h.retained (retains_retire s l now)
  | close l c _ _ hc => exact h.retained (retains_close s (hs.latest hc).2.1 now)
  | opened l c start hl _ _ _ hc =>
    obtain ⟨-, hlimit, -, -, hamount⟩ := Limit.createCycle_fields hc
    intro id d m hd hm hactive' hnever
    by_cases hid : c.id = id
    · obtain rfl : c = d := by simpa [hid] using hd
      obtain rfl : l = m := Option.some.inj (hl.symm.trans (hlimit ▸ hm))
      exact hamount
    · exact h id d m (by simpa [hid] using hd) hm hactive' hnever
  | issue => exact h
  | connect => exact h
  | point => exact h
  | record => exact h
  | complete => exact h

theorem moved (h : Endless s) (hm : Moved s t c d) : Endless t := by
  intro id e l he hl hactive hnever
  rw [hm.limits] at hl
  rw [hm.cycles] at he
  split at he
  · obtain rfl := Option.some.inj he
    rw [hm.totals] at hl ⊢
    exact h c.id c l hm.stored hl hactive hnever
  · exact h id e l he hl hactive hnever

theorem changed {steady : Prop} (hs : Coherent s) (ha : Aligned s) (h : Endless s)
    (hst : Changed policy steady s t) (ht : t.FreshIds) : Aligned t ∧ Endless t := by
  cases hst with
  | clock time _ htick =>
    subst htick
    exact ⟨ha, h⟩
  | work time _ hst =>
    refine hst.keepsMoved (I := fun u => Aligned u ∧ Endless u) hs ht ⟨ha, h⟩ ?_ ?_
    · rintro a b hcoherent hw hb ⟨ha, h⟩
      exact ⟨ha.write hcoherent hw hb, h.write hcoherent ha hw hb⟩
    · rintro m c d hm ⟨ha, h⟩
      exact ⟨ha.moved hm, h.moved hm⟩

end Service.Endless

theorem reachable_endless (run : Run policy rule (w :: path)) : Endless w.service := by
  have hkept : Aligned w.service ∧ Endless w.service := by
    apply run.holds (I := fun s => Aligned s ∧ Endless s) False
    · exact fun _ _ _ h => h.elim
    · intro clock ids scan
      constructor <;> intro _ _ _ h <;> cases h
    · exact fun s t hs ht hst h => h.2.changed hs h.1 hst ht
  exact hkept.2

/-- A limit that a connection points to has a cycle. -/
def Service.Cycled (s : Service) : Prop :=
  ∀ id k limit, s.store.connection? id = some k → k.limit = some limit →
    ∃ cycle c, s.store.cycle? cycle = some c ∧ c.limit = limit

/-! Where the pointer of a connection comes from: it is as before, leads nowhere, or leads to a
limit that has a cycle. -/

namespace Service

variable {u : LimitUpdate} {id : ConnectionId} {k' : Connection}

theorem Started.pointer {currency : Currency} {frequency : Frequency} {r : Except Abort Limit}
    (h : Started k currency amount frequency now s r t) (hk : t.store.connection? id = some k') :
    s.store.connection? id = some k' ∨
      ∃ cycle c, t.store.cycle? cycle = some c ∧ k'.limit = some c.limit := by
  cases h with
  | broken => exact .inl hk
  | started l c hl hc =>
    by_cases hid : k.id = id
    · obtain rfl : { k with limit := some l.id } = k' := by simpa [hid] using hk
      exact .inr ⟨c.id, c, by simp, congrArg some (Limit.createCycle_fields hc).limit.symm⟩
    · exact .inl (by simpa [hid] using hk)

theorem Updated.pointer {r : Except Abort LimitChange} (h : Updated k u now s r t)
    (hk : t.store.connection? id = some k') :
    s.store.connection? id = some k' ∨ k'.limit = none ∨
      ∃ cycle c, t.store.cycle? cycle = some c ∧ k'.limit = some c.limit := by
  cases h with
  | unlimited => exact .inl hk
  | disabled l =>
    by_cases hid : k.id = id
    · obtain rfl : { k with limit := none } = k' := by simpa [hid] using hk
      exact .inr (.inl rfl)
    · exact .inl (by simpa [hid] using hk)
  | invalid => exact .inl hk
  | created amount r t _ _ _ hstarted => exact (hstarted.pointer hk).imp_right .inr
  | unchanged => exact .inl hk
  | amountChanged l amount => exact .inl (by simpa using hk)
  | replaced l amount r t _ _ _ _ hstarted =>
    have hpointer := hstarted.pointer hk
    rw [retired_connection?] at hpointer
    exact hpointer.imp_right .inr

end Service

theorem SetsLimits.pointer {op : Operation} (h : SetsLimits s op t) {id : ConnectionId}
    {k' : Connection} (hk : t.store.connection? id = some k') :
    s.store.connection? id = some k' ∨ k'.limit = none ∨
      ∃ cycle c, t.store.cycle? cycle = some c ∧ k'.limit = some c.limit := by
  -- A connection that was just written points nowhere.
  have hcreated : ∀ {k : Connection}, k.limit = none →
      (s.issue.write (s.store.saveConnection k)).store.connection? id = some k' →
        s.store.connection? id = some k' ∨ k'.limit = none := by
    intro k hnone hk
    by_cases hid : k.id = id
    · obtain rfl : k = k' := by simpa [hid] using hk
      exact .inr hnone
    · exact .inl (by simpa [hid] using hk)
  have hlimited : ∀ {k : Connection} {u : LimitUpdate} {now : Instant}
      {r : Except Abort LimitChange}, k.limit = none →
      Updated k u now (s.issue.write (s.store.saveConnection k)) r t →
        s.store.connection? id = some k' ∨ k'.limit = none ∨
          ∃ cycle c, t.store.cycle? cycle = some c ∧ k'.limit = some c.limit := by
    intro k u now r hnone hupdated
    rcases hupdated.pointer hk with hbefore | hafter
    · exact (hcreated hnone hbefore).imp_right .inl
    · exact .inr hafter
  cases h with
  | connected _ _ _ _ _ _ h =>
    cases h with
    | plain k hnew => exact (hcreated (by rw [hnew]; rfl) hk).imp_right .inl
    | limited k _ u change _ hnew _ _ hupdated => exact hlimited (by rw [hnew]; rfl) hupdated
    | failed k u a _ hnew _ _ hupdated => exact hlimited (by rw [hnew]; rfl) hupdated
  | updated _ _ _ _ _ _ _ h => exact h.pointer hk
  | unknown => exact .inl hk

theorem reachable_cycled (run : Run policy rule (w :: path)) : Cycled w.service := by
  induction run using Run.lastInduction with
  | start clock ids scan =>
    intro _ _ _ h
    cases h
  | @step v w past e run hrule hstep hfresh ih =>
    have hlater := (run.sound.step hstep hfresh).2.later run.sound.coherent hfresh
    intro id k limit hk hp
    have hpointer : v.service.store.connection? id = some k ∨ k.limit = none ∨
        ∃ cycle c, w.service.store.cycle? cycle = some c ∧ k.limit = some c.limit := by
      rcases (run.attends.step run.sound hstep hfresh).2 with hspares | ⟨op, rfl, hsets⟩
      · exact .inl (by simpa only [Store.connection?, hspares.connections] using hk)
      · exact hsets.pointer hk
    rcases hpointer with hbefore | hnone | ⟨cycle, c, hc, hlimit⟩
    · obtain ⟨cycle, c, hc, hlimit⟩ := ih id k limit hbefore hp
      obtain ⟨c', hc', hfollows⟩ := hlater.cycles cycle c hc
      exact ⟨cycle, c', hc', hfollows.limit.trans hlimit⟩
    · rw [hnone] at hp
      cases hp
    · exact ⟨cycle, c, hc, Option.some.inj (hlimit.symm.trans hp)⟩

/-- A cycle that is written again with its limit and its start stays the latest one. -/
theorem Service.Coherent.latest_rewritten (hs : Coherent s) (ht : Coherent t)
    (hc : s.store.latestCycle? l.id = some c) (hd : t.store.cycle? c.id = some d)
    (hfollows : c.Follows d)
    (hothers : ∀ id, id ≠ c.id → t.store.cycle? id = s.store.cycle? id) :
    t.store.latestCycle? l.id = some d := by
  obtain ⟨hstored, hlimit, hlast⟩ := hs.latest hc
  rw [← hlimit, ← hfollows.limit]
  refine ht.latest_of_last hd fun id e he hel => ?_
  rw [hfollows.start]
  by_cases hid : id = c.id
  · obtain rfl : d = e := Option.some.inj (hd.symm.trans (hid ▸ he))
    exact hfollows.start ▸ Instant.le_refl _
  · rw [hothers id hid] at he
    exact hlast id e he (hel.trans (hfollows.limit.trans hlimit))

/-- In the place of a limit stands the same limit with another amount. Its latest cycle counts on
against that amount, if it has not ended. -/
structure Continues (l : Limit) (amount : Int) (now : Instant) (id : ConnectionId)
    (s t : Store) : Prop where
  limit : t.limitOf? id = some { l with amount }
  cycle : ∀ c, s.latestCycle? l.id = some c → t.latestCycle? l.id =
    some (if c.hasEnded now then c else { c with limitAmount := amount })

/-- A limit has ended, and in its place stands a new one that never renews. Nothing is spent or held
in the cycle of that. -/
structure Restarts (l l' : Limit) (amount : Int) (now : Instant) (id : ConnectionId)
    (s t : Store) : Prop where
  ended : t.limit? l.id = some (l.deactivate now)
  new : s.limit? l'.id = none
  begun : l' = ⟨l'.id, id, l.currency, amount, .never, now, none⟩
  limit : t.limitOf? id = some l'
  cycle : ∃ c, t.latestCycle? l'.id = some c ∧ c.limitAmount = amount ∧ c.spent = 0 ∧ c.held = 0 ∧
    c.finish = none

/-- An update may ask for the amount that the limit has. -/
theorem Continues.unchanged {s : Store} {id : ConnectionId} (hl : s.limitOf? id = some l)
    (hamount : ∀ c, s.latestCycle? l.id = some c → c.hasEnded now = false →
      c.limitAmount = l.amount) : Continues l l.amount now id s s where
  limit := hl
  cycle c hc := by
    cases hlive : c.hasEnded now with
    | true => exact hc
    | false =>
      rw [if_neg Bool.false_ne_true, ← hamount c hc hlive]
      exact hc

namespace Service

/-- An update finds a stored connection. -/
theorem updateLimit_updated (hs : Coherent s) (hk : s.store.connection? k.id = some k)
    (u : LimitUpdate) (now : Instant) : ∃ r t, updateLimit k.id u now s = .done r t ∧
      (t.FreshIds → Coherent t ∧ Updated k u now s r t) := by
  obtain ⟨r, t, hrun, -, -, hends⟩ := updateLimit_ends hs.quiet k.id u now
  refine ⟨r, t, hrun, fun ht => ?_⟩
  obtain ⟨hwrites, hpost⟩ := hends hs ht
  refine ⟨(hwrites.rows hs ht).coherent hs, ?_⟩
  rcases hpost with ⟨hmissing, -⟩ | ⟨k', hk', hupdated⟩
  · rw [hk] at hmissing
    cases hmissing
  · obtain rfl : k = k' := Option.some.inj (hk.symm.trans hk')
    exact hupdated

theorem wantedAmount_of_pos (hpos : 0 < amount) (frequency : Option Frequency) :
    LimitUpdate.wantedAmount ⟨true, some amount, none, frequency⟩ = .ok amount := by
  have hle : ¬ amount ≤ 0 := Int.not_le.mpr hpos
  simp only [LimitUpdate.wantedAmount, checkLimitAmount, hle, if_false]
  rfl

/-- What an update without a currency comes to for an active limit. -/
theorem Updated.amountOnly (hl : s.store.activeLimit? k = some l) (hpos : 0 < amount)
    {r : Except Abort LimitChange} (h : Updated k ⟨true, some amount, none, frequency⟩ now s r t) :
    (l.frequency = frequency.getD .never ∧
      (amount = l.amount ∧ r = .ok .unchanged ∧ t = s ∨
        amount ≠ l.amount ∧ r = .ok (.amountChanged { l with amount }) ∧
          t = s.write ((s.store.rewriteLive l.id now
            (fun c => { c with limitAmount := amount })).fileLimit { l with amount }))) ∨
    l.frequency ≠ frequency.getD .never ∧ ∃ r', r = r'.map (.replaced (l.deactivate now)) ∧
      Started k l.currency amount (frequency.getD .never) now (s.retired l now) r' t := by
  have hwanted := wantedAmount_of_pos hpos frequency
  have hsame : l.currency.same ((none : Option Currency).getD l.currency) = true := by
    simp [Currency.same]
  cases h with
  | unlimited hu => cases hu
  | disabled _ hu => cases hu
  | invalid e _ he => simp [hwanted] at he
  | created _ _ _ _ _ hnone => simp [hl] at hnone
  | unchanged m _ hamount hm heq =>
    obtain rfl : l = m := Option.some.inj (hl.symm.trans hm)
    refine .inl ⟨heq.1, .inl ⟨?_, rfl, rfl⟩⟩
    exact Except.ok.inj (hwanted.symm.trans hamount)
  | amountChanged m amount' _ hamount hm heq hne =>
    obtain rfl : l = m := Option.some.inj (hl.symm.trans hm)
    obtain rfl : amount = amount' := Except.ok.inj (hwanted.symm.trans hamount)
    exact .inl ⟨heq.1, .inr ⟨hne.symm, rfl, rfl⟩⟩
  | replaced m amount' r' t _ hamount hm hother hstarted =>
    obtain rfl : l = m := Option.some.inj (hl.symm.trans hm)
    obtain rfl : amount = amount' := Except.ok.inj (hwanted.symm.trans hamount)
    exact .inr ⟨fun heq => hother ⟨heq, hsame⟩, r', rfl, hstarted⟩

/-- A limit that goes on with another amount is found where it was, and so is its latest cycle. -/
theorem Coherent.continues (hs : Coherent s) (ht : Coherent t)
    (hk : s.store.connection? k.id = some k) (hl : s.store.activeLimit? k = some l)
    (hstore : t.store = (s.store.rewriteLive l.id now
      (fun c => { c with limitAmount := amount })).fileLimit { l with amount }) :
    Continues l amount now k.id s.store t.store := by
  obtain ⟨hp, -, hactive⟩ := Store.activeLimit?_stored hl
  constructor
  · rw [Store.limitOf?_stored (k := k) (by simpa [hstore] using hk)]
    exact Store.activeLimit?_some.mpr ⟨l.id, hp, by simp [hstore], hactive⟩
  · intro c hc
    rcases hs.rewriteLive l.id now (fun c => { c with limitAmount := amount }) with
      ⟨hsame, hidle⟩ | ⟨d, hd, hlive, hchange⟩
    · rw [hidle c hc, if_pos rfl, hstore, hsame]
      exact hc
    · obtain rfl : c = d := Option.some.inj (hc.symm.trans hd)
      rw [hlive, if_neg Bool.false_ne_true]
      rw [hchange] at hstore
      refine hs.latest_rewritten ht hc (by simp [hstore]) (.of_finish rfl rfl rfl rfl)
        fun id hne => ?_
      simp [hstore, hne.symm]

/-- An update that asks for the frequency that the limit has changes it in its place. -/
theorem Updated.inPlace (hs : Coherent s) (ht : Coherent t)
    (hk : s.store.connection? k.id = some k) (hl : s.store.activeLimit? k = some l)
    (hpos : 0 < amount) {r : Except Abort LimitChange}
    (h : Updated k ⟨true, some amount, none, frequency⟩ now s r t)
    (hsame : l.frequency = frequency.getD .never) :
    amount = l.amount ∧ r = .ok .unchanged ∧ t = s ∨
      amount ≠ l.amount ∧ r = .ok (.amountChanged { l with amount }) ∧
        Continues l amount now k.id s.store t.store := by
  rcases h.amountOnly hl hpos with ⟨-, hunchanged | ⟨hne, hr, hwritten⟩⟩ | ⟨hother, -⟩
  · exact .inl hunchanged
  · exact .inr ⟨hne, hr, hs.continues ht hk hl (by rw [hwritten]; rfl)⟩
  · exact absurd hsame hother

/-- A limit that never renews can be set up at every instant. -/
theorem Started.endless {currency : Currency} {r : Except Abort Limit}
    (h : Started k currency amount .never now s r t) : ∃ l, r = .ok l := by
  cases h with
  | started l => exact ⟨l, rfl⟩
  | broken l d hl hc =>
    have hfirst : ¬ now < now := fun h => Instant.not_le.mpr h (Instant.le_refl _)
    rw [hl] at hc
    simp only [Limit.createCycle, hfirst, if_false] at hc
    cases hc

/-- A limit that was set up is the active limit of its connection, as it was asked for. -/
theorem Started.limitOf? {currency : Currency} {amount : Int} {frequency : Frequency}
    (h : Started k currency amount frequency now s (.ok l) t) :
    t.store.limitOf? k.id = some l ∧
      l = ⟨⟨s.next⟩, k.id, currency, amount, frequency, now, none⟩ := by
  cases h with
  | started _ c hl hc =>
    refine ⟨?_, hl⟩
    rw [Store.limitOf?_stored (k := { k with limit := some l.id }) (by simp)]
    exact Store.activeLimit?_some.mpr ⟨l.id, rfl, by simp, by rw [hl]; rfl⟩

theorem Started.restarts (hs : Coherent s) (hkeyed : s.store.Keyed)
    (hk : s.store.connection? k.id = some k) (hl : s.store.activeLimit? k = some l)
    {r : Except Abort Limit}
    (h : Started k l.currency amount .never now (s.retired l now) r t) (ht : t.FreshIds) :
    ∃ l', r = .ok l' ∧ Restarts l l' amount now k.id s.store t.store := by
  obtain ⟨-, hstored, -⟩ := Store.activeLimit?_stored hl
  obtain ⟨l', rfl⟩ := h.endless
  have hrows := retired_rows hs hl now (ht.before h.issued)
  obtain ⟨hl', hid, cycle, -, hstore⟩ :=
    h.begun (hrows.coherent hs) (hrows.keyed hkeyed) (by simpa) ht
  have hnone := ((hrows.coherent hs).noCycles hid).1
  refine ⟨l', rfl, ?_, retired_new hid, hl', ?_, ?_⟩
  · simp [hstore]
  · exact h.limitOf?.1
  · refine ⟨l'.firstCycle cycle, ?_, by rw [hl']; rfl, rfl, rfl, by rw [hl']; rfl⟩
    rw [hstore]
    exact Store.latestCycle?_begun hnone cycle

end Service

/-- An update of the amount alone changes an active limit in its place if and only if that never
renews: its one cycle has no end and counts on against the new amount. An active limit that renews
ends, and another one that never does begins with nothing spent or held. If the update names the
frequency of the limit, the limit is changed in its place whatever that is. -/
theorem amount_change_restarts (run : Run policy rule (w :: past)) {id : ConnectionId} {l : Limit}
    (hl : w.service.store.limitOf? id = some l) {amount : Int} (hpos : 0 < amount)
    (now : Instant) :
    (∃ r t, updateLimit id ⟨true, some amount, none, none⟩ now w.service = .done r t ∧
      (t.FreshIds →
        (l.frequency = .never →
          (amount = l.amount ∧ r = .ok .unchanged ∨
            amount ≠ l.amount ∧ r = .ok (.amountChanged { l with amount })) ∧
          Continues l amount now id w.service.store t.store ∧
          ∃ c, w.service.store.latestCycle? l.id = some c ∧ c.finish = none) ∧
        (l.frequency ≠ .never → ∃ l', r = .ok (.replaced (l.deactivate now) l') ∧
          Restarts l l' amount now id w.service.store t.store))) ∧
    ∃ r t, updateLimit id ⟨true, some amount, none, some l.frequency⟩ now w.service = .done r t ∧
      (t.FreshIds →
        (amount = l.amount → r = .ok .unchanged ∧ t = w.service) ∧
        (amount ≠ l.amount → r = .ok (.amountChanged { l with amount }) ∧
          Continues l amount now id w.service.store t.store)) := by
  have hs := run.sound.coherent
  obtain ⟨k, hk, hlimit⟩ := Option.bind_eq_some_iff.mp hl
  obtain rfl : k.id = id := Store.connection?_id hk
  obtain ⟨hp, hstored, hactive⟩ := Store.activeLimit?_stored hlimit
  constructor
  · obtain ⟨r, t, hrun, hpost⟩ := updateLimit_updated hs hk ⟨true, some amount, none, none⟩ now
    refine ⟨r, t, hrun, fun ht => ?_⟩
    obtain ⟨hcoherent, hupdated⟩ := hpost ht
    constructor
    · intro hnever
      obtain ⟨cycle, c, hc, howner⟩ := reachable_cycled run k.id k l.id hk hp
      obtain ⟨hfinish, hlatest⟩ :=
        (reachable_aligned run).endless hs hstored hactive hnever hc howner
      rcases hupdated.inPlace hs hcoherent hk hlimit hpos hnever with
        ⟨rfl, rfl, rfl⟩ | ⟨hne, rfl, hcontinues⟩
      · refine ⟨.inl ⟨rfl, rfl⟩, .unchanged hl fun d hd _ => ?_, c, hlatest, hfinish⟩
        obtain rfl : c = d := Option.some.inj (hlatest.symm.trans hd)
        exact reachable_endless run cycle c l hc (howner ▸ hstored) hactive hnever
      · exact ⟨.inr ⟨hne, rfl⟩, hcontinues, c, hlatest, hfinish⟩
    · intro hrenews
      rcases hupdated.amountOnly hlimit hpos with ⟨hnever, -⟩ | ⟨-, r', rfl, hstarted⟩
      · exact absurd hnever hrenews
      · obtain ⟨l', rfl, hrestarts⟩ := hstarted.restarts hs (reachable_keyed run) hk hlimit ht
        exact ⟨l', rfl, hrestarts⟩
  · obtain ⟨r, t, hrun, hpost⟩ :=
      updateLimit_updated hs hk ⟨true, some amount, none, some l.frequency⟩ now
    refine ⟨r, t, hrun, fun ht => ?_⟩
    obtain ⟨hcoherent, hupdated⟩ := hpost ht
    rcases hupdated.inPlace hs hcoherent hk hlimit hpos rfl with ⟨heq, hsame⟩ | ⟨hne, hchanged⟩
    · exact ⟨fun _ => hsame, fun hne => absurd heq hne⟩
    · exact ⟨fun heq => absurd heq hne, fun _ => hchanged⟩

/-- Thirty of the hundred sats of a day are held. Behind an update to fifty sats nothing is held in
the cycle that the connection has then, and it has no end. -/
theorem amount_change_restarts_held :
    ∃ w past l c l' c' t, Run .exact World.Steady (w :: past) ∧
      w.service.store.limitOf? Sample.connection.id = some l ∧ l.frequency = .daily ∧
      w.service.store.latestCycle? l.id = some c ∧ c.held = 30 ∧
      updateLimit Sample.connection.id ⟨true, some 50, none, none⟩ Sample.start w.service =
        .done (.ok (.replaced (l.deactivate Sample.start) l')) t ∧
      t.store.limitOf? Sample.connection.id = some l' ∧ l'.frequency = .never ∧
      t.store.latestCycle? l'.id = some c' ∧ c'.held = 0 ∧ c'.finish = none := by
  obtain ⟨w, past, run, hf⟩ := Run.reaches .exact World.Steady ⟨Sample.start, rfl⟩ Uuid.ofNat
    [Sample.created,
      .call (.reserve Sample.connection Sample.request (Sample.intent .sat 30))]
    (fun w _ => decide (((w.service.store.limitOf? Sample.connection.id).bind fun l =>
        (w.service.store.latestCycle? l.id).map fun c => (l.frequency, c.held)) =
          some (.daily, 30) ∧
      (updateLimit Sample.connection.id ⟨true, some 50, none, none⟩ Sample.start
        w.service).service.FreshIds))
    true (by decide +kernel)
  obtain ⟨hheld, hfresh⟩ := of_decide_eq_true hf
  obtain ⟨l, hl, hheld⟩ := Option.bind_eq_some_iff.mp hheld
  obtain ⟨c, hc, hheld⟩ := Option.map_eq_some_iff.mp hheld
  obtain ⟨hdaily, hheld⟩ := Prod.mk.inj hheld
  obtain ⟨⟨r, t, hrun, hends⟩, -⟩ :=
    amount_change_restarts run hl (show (0 : Int) < 50 by decide) Sample.start
  rw [hrun] at hfresh
  obtain ⟨l', rfl, hrestarts⟩ := (hends hfresh).2 (by rw [hdaily]; decide)
  obtain ⟨c', hc', -, -, hfree, hfinish⟩ := hrestarts.cycle
  exact ⟨w, past, l, c, l', c', t, run, hl, hdaily, hc, hheld, hrun, hrestarts.limit,
    by rw [hrestarts.begun], hc', hfree, hfinish⟩

end WalletBudget
