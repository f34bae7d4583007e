import WalletBudget.Proofs.Course
import WalletBudget.Proofs.CycleTimes

/-!
What a reservation is decided on: the store as it stands when the cycle is locked, and not as it
stood when the payment was priced.

Behind its last question a reservation reads everything again. That the cycle it priced for has not
ended is enough to know that no change of the limit came between.
-/

namespace WalletBudget

open Service

variable {policy : HoldPolicy} {w : World} {past path : List World} {k : Connection}
  {request : RequestId} {intent : Intent} {s u : Service} {c : Cycle} {l : Limit}

/-- A stored cycle that has not ended at the clock, of the active limit that the stored record of
the connection leads to. -/
structure Current (s : Service) (id : ConnectionId) (c : Cycle) : Prop where
  stored : s.store.cycle? c.id = some c
  live : c.hasEnded s.clock = false
  limit : ∃ l, s.store.limitOf? id = some l ∧ l.id = c.limit

/-- If the cycle that an attempt found has not ended, its limit is still active, and then the
connection points to that limit. -/
theorem Timely.current {P : Service → Prop} {called : Service} {k' : Connection} (hs : Coherent s)
    (h : Timely s) (hP : ∀ t, P t → Coherent t) (hk : Known called k)
    (hsource : Source P called k u k') (hl : u.store.activeLimit? k' = some l)
    (hc : Sought u l s c) (hstored : s.store.cycle? c.id = some c)
    (hlive : c.hasEnded s.clock = false) : Current s k.id c := by
  obtain ⟨hknown, hid⟩ := hsource.known hP hk
  obtain ⟨hp, hlimit, hactive⟩ := Store.activeLimit?_stored hl
  obtain ⟨l', hl', -, hpointed⟩ := hknown.later hc.later l.id hp
  obtain ⟨v, d, hopening, -, hd, hfollows, hlater⟩ := hc.found
  have hdl : d.limit = l.id := hfollows.limit.symm.trans hc.limit
  have hactive' : l'.isActive = true := by
    cases ha : l'.isActive with
    | true => rfl
    | false =>
      have hbefore : v.store.limit? d.limit = some l := by rw [hdl, hopening.limit?, hlimit]
      rw [h.ended hs hlater hd hbefore hactive hstored (hdl ▸ hl') ha] at hlive
      cases hlive
  obtain ⟨k'', hk'', hp'⟩ := hpointed hactive'
  refine ⟨hstored, hlive, l', ?_, (Store.limit?_id hl').trans hc.limit.symm⟩
  rw [Store.limitOf?_stored (hid ▸ hk'')]
  exact Store.activeLimit?_some.mpr ⟨l.id, hp', hl', hactive'⟩

/-- An attempt from a record that was stored at the call begins from a stored record. -/
theorem Service.Source.isStored {P : Service → Prop} {called : Service} {k' : Connection}
    (h : Source P called k u k') (hk : called.store.connection? k.id = some k) :
    u.store.connection? k.id = some k' := by
  cases h with
  | caller => exact hk
  | stored _ _ _ hk' => exact hk'

theorem Timely.opening (hs : Coherent s) (h : Timely s) {m : Service} (hm : Opening s m)
    (hf : m.FreshIds) : Timely m ∧ Coherent m :=
  ⟨h.writes hs hm.writes hf, hm.coherent hs hf⟩

theorem Course.timely {r : Except Abort Payment} (run : Run policy World.Steady (w :: past))
    (course : Course policy World.Steady (reserve policy k request intent) w path (.done r s))
    (hk : w.service.store.connection? k.id = some k) :
    Stands policy Timely Opening
      (Reserved policy (Moment Timely) w.service k request intent) path (.done r s) := by
  have hw := run.sound
  have htimely := reachable_timely run
  refine course.stands True hw (fun _ _ h _ => h) (R := fun _ => True) (fun _ _ => trivial)
    htimely (fun _ _ => Opening.works) ?_ ?_
  · intro s v _ hs hchanged hf h
    exact h.changed hs hchanged hf
  · exact reserve_goes (fun _ h => h.1) ⟨hw.coherent, htimely⟩ (hw.coherent.known hk)

/-- A reservation is decided in one state `m`, which differs from the last state that others left
by a cycle the reservation opened at most. A hold goes to a cycle that is current in `m` and has
room for it; a refusal names what that cycle has left; and a payment without a budget is recorded
only where no limit is active. -/
theorem reservation_decided {r : Except Abort Payment}
    (run : Run policy World.Steady (w :: past))
    (hk : w.service.store.connection? k.id = some k)
    (course : Course policy World.Steady (reserve policy k request intent) w path (.done r s)) :
    ∃ v before m, path = { v with service := s } :: v :: before ∧ Opening v.service m ∧
      (∀ p id, r = .ok p → p.cycle = some id → ∃ c hold, c.id = id ∧ p.hold = some hold ∧
        Current m k.id c ∧ hold ≤ c.limitAmount - c.spent - c.held ∧
        s.store.cycle? id = some { c with held := c.held + hold }) ∧
      (∀ hold left, r = .error (.refused (.insufficientBudget (some hold) left)) →
        ∃ c, Current m k.id c ∧ c.limitAmount - c.spent - c.held < hold ∧
          left = max 0 (c.limitAmount - c.spent - c.held)) ∧
      (∀ p, r = .ok p → p.cycle = none → m.store.limitOf? k.id = none) := by
  obtain ⟨v, before, hpath, hf, ⟨hcoherent, htimely⟩, hreserved⟩ := course.timely run hk
  have hP : ∀ t, Moment Timely t → Coherent t := fun _ h => h.1
  have hknown := run.sound.coherent.known hk
  cases hreserved with
  | held u k' l c p estimate hold m _ _ hsource hl hm hplaced hc hp =>
    obtain ⟨htm, hcm⟩ := htimely.opening hcoherent hm (hf.before (by simp [hplaced.written]))
    have hcurrent : Current m k.id c :=
      htm.current hcm hP hknown hsource hl (hc hf) hplaced.cycle hplaced.live
    refine ⟨v, before, m, hpath, hm, ?_, by simp, ?_⟩
    · rintro q id hq hid
      obtain rfl := Except.ok.inj hq
      obtain rfl : c.id = id := Option.some.inj (hplaced.linked.symm.trans hid)
      exact ⟨c, hold, rfl, hplaced.held, hcurrent, hplaced.room, by simp [hplaced.written]⟩
    · rintro q hq hnone
      obtain rfl := Except.ok.inj hq
      rw [hplaced.linked] at hnone
      cases hnone
  | unbudgeted k' m p _ hsource hnone hm hp =>
    refine ⟨v, before, m, hpath, hm, ?_, by simp, ?_⟩
    · rintro q id hq hid
      obtain rfl := Except.ok.inj hq
      rw [hp] at hid
      cases hid
    · intro _ _ _
      have hstored := hsource.isStored hk
      rw [← hm.connection?] at hstored
      rw [Store.limitOf?_stored hstored, hm.activeLimit?]
      exact hnone
  | short u k' l c left hold _ _ hsource hl hm hstored hlive hc havailable hshort =>
    obtain ⟨htm, hcm⟩ := htimely.opening hcoherent hm hf
    have hcurrent : Current s k.id c := htm.current hcm hP hknown hsource hl (hc hf) hstored hlive
    have hleft := Cycle.available_ok havailable
    refine ⟨v, before, s, hpath, hm, by simp, ?_, by simp⟩
    intro hold' left' he
    cases he
    exact ⟨c, hcurrent, by omega, by omega⟩
  | failed a _ hm hne =>
    refine ⟨v, before, s, hpath, hm, by simp, ?_, by simp⟩
    intro hold left he
    exact absurd (Except.error.inj he) (hne hold left)

/-- Five dollars are priced at 20 sats while another reservation takes 30 of the 100. -/
theorem reservation_decided_meanwhile :
    ∃ w past path p s, Run .exact World.Steady (w :: past) ∧
      Course .exact World.Steady (reserve .exact Sample.connection Sample.request
        (Sample.intent Sample.dollar 5)) w path (.done (.ok p) s) ∧ p.hold = some 20 ∧
      ∃ v before m c, path = { v with service := s } :: v :: before ∧ Opening v.service m ∧
        Current m Sample.connection.id c ∧ 20 ≤ c.limitAmount - c.spent - c.held := by
  obtain ⟨w, past, path, p, s, run, course, hf⟩ := Course.reaches .exact World.Steady
    ⟨Sample.start, rfl⟩ Uuid.ofNat [Sample.created]
    (reserve .exact Sample.connection Sample.request (Sample.intent Sample.dollar 5))
    [ .other (.call (.reserve Sample.connection Sample.request (Sample.intent .sat 30))),
      .converted (.ok 20) ]
    (fun w _ _ p _ => (w.service.store.connection? Sample.connection.id, p.cycle, p.hold))
    (some Sample.connection, some ⟨Uuid.ofNat 2⟩, some 20) (by decide +kernel)
  simp only [Prod.mk.injEq] at hf
  obtain ⟨hk, hcycle, hhold⟩ := hf
  obtain ⟨v, before, m, hpath, hm, hheld, -⟩ := reservation_decided run hk course
  obtain ⟨c, hold, -, hp, hcurrent, hroom, -⟩ := hheld p _ rfl hcycle
  obtain rfl : 20 = hold := Option.some.inj (hhold.symm.trans hp)
  exact ⟨w, past, path, p, s, run, course, hhold, v, before, m, c, hpath, hm, hcurrent, hroom⟩

end WalletBudget
