import WalletBudget.Proofs.Course

/-!
Which payments an active limit applies to.

A reservation begins from the record that its caller passes. A record that was handed out before the
limit was set up or replaced leads to no active limit, and the payment is recorded without a budget
although the stored record has one.
-/

namespace WalletBudget

open Service

variable {policy : HoldPolicy} {rule : World → Event → Prop} {w : World} {past path : List World}
  {k : Connection} {request : RequestId} {intent : Intent} {s u : Service} {p : Payment}

/-- A record that was handed out leads to an active limit only where the stored record leads to the
same one. -/
theorem Service.Known.limitOf? {l : Limit} (hk : Known u k) (hl : u.store.activeLimit? k = some l) :
    u.store.limitOf? k.id = some l ∧
      ∀ stored, u.store.connection? k.id = some stored → stored.limit = k.limit := by
  obtain ⟨hlimit, hactive, hconnection, k', hk', hp⟩ := hk.limit hl
  rw [hconnection] at hk'
  obtain ⟨hid, -⟩ := Store.activeLimit?_stored hl
  refine ⟨?_, fun stored hstored => ?_⟩
  · rw [Store.limitOf?_stored hk']
    exact Store.activeLimit?_some.mpr ⟨l.id, hp, hlimit, hactive⟩
  · obtain rfl : k' = stored := Option.some.inj (hk'.symm.trans hstored)
    rw [hp, hid]

theorem Course.moments {r : Except Abort Payment} (run : Run policy rule (w :: past))
    (hk : k ∈ w.connections)
    (course : Course policy rule (reserve policy k request intent) w path (.done r s)) :
    Stands policy (fun s => ∃ v ∈ path, v.service = s) Opening
      (Reserved policy (Moment fun s => ∃ v ∈ path, v.service = s) w.service k request intent)
      path (.done r s) := by
  have hw := run.sound
  have hfirst : w ∈ path := course.mem
  refine course.stands False hw (fun _ _ _ h => h.elim) (R := fun v => v ∈ path) (fun _ hv => hv)
    ⟨w, hfirst, rfl⟩ (fun _ _ => Opening.works) ?_ ?_
  · intro _ v hv _ _ _ _
    exact ⟨v, hv, rfl⟩
  · exact reserve_goes (fun _ h => h.1) ⟨hw.coherent, w, hfirst, rfl⟩ (hw.connections k hk)

/-- While the stored record of a connection leads to an active limit, a payment that is reserved
with a record handed out before is held on a cycle of that limit if the record points where the
stored one did at the call. Otherwise it is recorded without a budget. -/
theorem reserved_by_pointer (run : Run policy rule (w :: past)) (hk : k ∈ w.connections)
    (course : Course policy rule (reserve policy k request intent) w path (.done (.ok p) s))
    (hactive : ∀ v ∈ path, (v.service.store.limitOf? k.id).isSome = true) :
    ∃ stored, w.service.store.connection? k.id = some stored ∧
      (k.limit = stored.limit ∧ (∃ v ∈ path, ∃ l c, v.service.store.limitOf? k.id = some l ∧
        s.store.cycle? c.id = some c ∧ c.limit = l.id ∧ p.cycle = some c.id ∧
        p.hold.isSome = true) ∨
      k.limit ≠ stored.limit ∧ p.cycle = none ∧ p.hold = none) := by
  have hknown := run.sound.connections k hk
  have hfirst : w ∈ path := course.mem
  obtain ⟨stored, hstored⟩ : ∃ stored, w.service.store.connection? k.id = some stored := by
    have := hactive w hfirst
    cases h : w.service.store.connection? k.id with
    | none => simp [Store.limitOf?, h] at this
    | some stored => exact ⟨stored, rfl⟩
  refine ⟨stored, hstored, ?_⟩
  obtain ⟨v, before, hpath, hf, ⟨hcoherent, v', hv', hmoment⟩, hreserved⟩ := course.moments run hk
  cases hreserved with
  | held u k' l c _ estimate hold m _ _ hsource hl hm hplaced hc hp =>
    obtain ⟨l₀, hl₀⟩ := hsource.first hl
    refine .inl ⟨((hknown.limitOf? hl₀).2 stored hstored).symm, ?_⟩
    have hlimit : ∃ v ∈ path, v.service.store.limitOf? k.id = some l := by
      cases hsource with
      | caller => exact ⟨w, hfirst, (hknown.limitOf? hl).1⟩
      | stored _ _ hu hk' =>
        obtain ⟨-, x, hx, rfl⟩ := hu
        exact ⟨x, hx, by rw [Store.limitOf?_stored hk', hl]⟩
    obtain ⟨x, hx, hl⟩ := hlimit
    refine ⟨x, hx, l, { c with held := c.held + hold }, hl, by simp [hplaced.written],
      (hc hf).2, hplaced.linked, by simp [hplaced.held]⟩
  | unbudgeted k' m _ _ hsource hnone hm hp =>
    right
    refine ⟨fun hsame => ?_, by rw [hp]; rfl, by rw [hp]; rfl⟩
    have hleads : (v.service.store.limitOf? k.id).isSome = true := by
      rw [← hmoment]
      exact hactive v' hv'
    generalize hb : v.service = b at hsource hnone hleads
    cases hsource with
    | caller =>
      rw [Store.limitOf?_stored hstored] at hleads
      simp only [Store.activeLimit?, hsame] at hnone hleads
      rw [hnone] at hleads
      cases hleads
    | stored _ _ _ hk' =>
      rw [Store.limitOf?_stored hk', hnone] at hleads
      cases hleads

/-- The record from before the limit was set up. -/
theorem reserved_by_pointer_stale :
    ∃ w past path p s, Run .exact World.Steady (w :: past) ∧
      Course .exact World.Steady (reserve .exact { Sample.connection with limit := none }
        Sample.request (Sample.intent .sat 30)) w path (.done (.ok p) s) ∧
      (∀ v ∈ path, (v.service.store.limitOf? Sample.connection.id).isSome = true) ∧
      p.cycle = none ∧ p.hold = none := by
  obtain ⟨w, past, path, p, s, run, course, hf⟩ := Course.reaches .exact World.Steady
    ⟨Sample.start, rfl⟩ Uuid.ofNat
    [ .call (.createConnection .sat none none Sample.start),
      .call (.updateLimit Sample.connection.id ⟨true, some 100, none, some .daily⟩ Sample.start) ]
    (reserve .exact { Sample.connection with limit := none } Sample.request
      (Sample.intent .sat 30)) []
    (fun w _ path _ _ => (decide ({ Sample.connection with limit := none } ∈ w.connections),
      w.service.store.connection? Sample.connection.id,
      decide (∀ v ∈ path, (v.service.store.limitOf? Sample.connection.id).isSome = true)))
    (true, some Sample.connection, true) (by decide +kernel)
  simp only [Prod.mk.injEq, decide_eq_true_eq] at hf
  obtain ⟨hk, hstored, hactive⟩ := hf
  obtain ⟨stored, hstored', h⟩ := reserved_by_pointer run hk course hactive
  obtain rfl : Sample.connection = stored := Option.some.inj (hstored.symm.trans hstored')
  rcases h with ⟨hsame, -⟩ | ⟨-, hcycle, hhold⟩
  · cases hsame
  · exact ⟨w, past, path, p, s, run, course, hactive, hcycle, hhold⟩

end WalletBudget
