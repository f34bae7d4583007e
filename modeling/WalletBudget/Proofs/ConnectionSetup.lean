import WalletBudget.Proofs.LimitTransition

/-!
What the setting up of a connection leaves in the store.

The connection is written before the update of its limit is looked at. A limit that is refused
leaves a connection behind that no answer tells of.
-/

namespace WalletBudget

open Service

variable {policy : HoldPolicy} {rule : World → Event → Prop} {s t : Service} {w : World}
  {past : List World} {k created : Connection} {u : LimitUpdate} {now : Instant}
  {currency : Currency} {token : Option String} {limit : Option LimitUpdate}

def Store.added (s : Store) (k : Connection) : Store :=
  { s with connections := s.connections ++ [k] }

theorem Store.connection?_added {s : Store} (hnew : s.connection? k.id = none) :
    (s.added k).connection? k.id = some k := by
  have hnew : Table.get? Connection.id k.id s.connections = none := hnew
  simp only [Store.connection?, Store.added, Table.get?, List.find?_append] at hnew ⊢
  simp [hnew]

/-- What is stored behind an answer: the connection that was created, alone or with the limit that
was asked for. -/
inductive SetUp (currency : Currency) (limit : Option LimitUpdate) (now : Instant)
    (created : Connection) (s : Store) : Connection → Store → Prop
  | plain (hplain : ∀ u, limit = some u → u.enabled = false) :
    SetUp currency limit now created s created (s.added created)
  | limited (u : LimitUpdate) (id : LimitId) (cycle : CycleId) (amount : Int)
      (hlimit : limit = some u) (hu : u.enabled = true) (hamount : u.wantedAmount = .ok amount)
      (hid : s.limit? id = none) (hcycle : s.cycle? cycle = none) :
    SetUp currency limit now created s { created with limit := some id }
      ((s.added created).begun (u.limit id created.id currency amount now) cycle)

namespace SetUp

variable {before after : Store}

/-- The connection in the answer is the stored one. -/
theorem stored (h : SetUp currency limit now created before k after)
    (hnew : before.connection? created.id = none) : after.connection? k.id = some k := by
  have hadded := Store.connection?_added hnew
  cases h with
  | plain => exact hadded
  | limited u id cycle amount =>
    simp [hadded, LimitUpdate.limit]

/-- It has an active limit if and only if one was asked for. -/
theorem limited_iff (h : SetUp currency limit now created before k after)
    (hplain : created.limit = none) : (∃ l, after.activeLimit? k = some l) ↔
      ∃ u, limit = some u ∧ u.enabled = true := by
  cases h with
  | plain hdisabled =>
    have hnone : (before.added k).activeLimit? k = none := by
      simp [Store.activeLimit?, hplain]
    constructor
    · rintro ⟨l, hl⟩
      rw [hnone] at hl
      cases hl
    · rintro ⟨u, hlimit, hu⟩
      rw [hdisabled u hlimit] at hu
      cases hu
  | limited u id cycle amount hlimit hu _ hid =>
    have hid : (before.added created).limit? id = none := hid
    constructor
    · exact fun _ => ⟨u, hlimit, hu⟩
    · intro _
      refine ⟨u.limit id created.id currency amount now, Store.activeLimit?_some.mpr ?_⟩
      exact ⟨id, rfl, by simp [hid, LimitUpdate.limit], rfl⟩

end SetUp

namespace Service

/-- A connection that was just written has no limit to change yet. -/
theorem Updated.first (hnone : s.store.activeLimit? k = none) (hu : u.enabled = true)
    {change : LimitChange} (h : Updated k u now s (.ok change) t) :
    ∃ amount l, u.wantedAmount = .ok amount ∧ Started k (u.currency.getD k.budgetCurrency) amount
      (u.frequency.getD .never) now s (.ok l) t := by
  generalize hr : Except.ok change = r at h
  cases h with
  | created amount r t _ hamount _ hstarted =>
    cases r with
    | error a => cases hr
    | ok l => exact ⟨amount, l, hamount, hstarted⟩
  | unlimited hdisabled => simp [hu] at hdisabled
  | disabled l hdisabled => simp [hu] at hdisabled
  | invalid => cases hr
  | unchanged l _ _ hl => simp [hnone] at hl
  | amountChanged l amount _ _ hl => simp [hnone] at hl
  | replaced l amount r t _ _ hl => simp [hnone] at hl

theorem Connected.issued {r : Except Abort Connection}
    (h : Connected currency token limit now s r t) :
    t.ids = s.ids ∧ s.issue.issued ≤ t.issued := by
  cases h with
  | plain => simp
  | limited _ _ _ _ _ _ _ _ hupdated => exact hupdated.issued
  | failed _ _ _ _ _ _ _ hupdated => exact hupdated.issued

/-- The connection is a new one. -/
theorem Connected.new (hs : Coherent s) {r : Except Abort Connection}
    (h : Connected currency token limit now s r t) (ht : t.FreshIds) :
    s.store.connection? (Connection.create ⟨s.next⟩ currency token now).id = none :=
  hs.newConnection (ht.before h.issued) rfl

/-- Behind an answer the connection is set up. -/
theorem Connected.setUp (hs : Coherent s) (hkeyed : s.store.Keyed)
    (h : Connected currency token limit now s (.ok k) t) (ht : t.FreshIds) :
    SetUp currency limit now (.create ⟨s.next⟩ currency token now) s.store k t.store := by
  have hnew := h.new hs ht
  generalize hr : Except.ok k = r at h
  cases h with
  | plain k hk hplain =>
    cases hr
    rw [← hk] at hnew ⊢
    rw [write_store, Store.saveConnection_new hnew]
    exact .plain hplain
  | limited created k' u change _ hk hlimit hu hupdated hk' =>
    cases hr
    rw [← hk] at hnew
    have hadded := Store.saveConnection_new hnew
    have hwrite : Write True now s (s.issue.write (s.store.saveConnection created)) :=
      .connect created (by rw [hk]; rfl) (by rw [hk]; rfl)
    have hrows := hwrite.rows hs (ht.before hupdated.issued)
    have hnone : (s.issue.write (s.store.saveConnection created)).store.activeLimit? created =
        none := by
      simp [Store.activeLimit?, hk, Connection.create]
    obtain ⟨amount, l, hamount, hstarted⟩ := hupdated.first hnone hu
    obtain ⟨hl, hid, cycle, hcycle, hstore⟩ :=
      hstarted.begun (hrows.coherent hs) (hrows.keyed hkeyed) (by simp) ht
    have hstore : t.store = (s.store.added created).begun l cycle := by
      rw [hstore, write_store, hadded]
      rfl
    have hl : l = u.limit l.id created.id currency amount now :=
      hl.trans (by simp [LimitUpdate.limit, hk, Connection.create])
    have hk' : { created with limit := some l.id } = k := by
      have howner : created.id = l.connection := by rw [hl]; rfl
      rw [hstore, Store.connection?_begun, if_pos howner, Store.connection?_added hnew] at hk'
      exact Option.some.inj hk'
    have hset : SetUp currency limit now created s.store { created with limit := some l.id }
        ((s.store.added created).begun (u.limit l.id created.id currency amount now) cycle) :=
      .limited u l.id cycle amount hlimit hu hamount hid hcycle
    rw [← hl, hk', ← hstore, hk] at hset
    exact hset
  | failed => cases hr

/-- A limit is refused for its amount and for nothing else. -/
theorem Updated.refused_iff {r : Except Abort LimitChange} (h : Updated k u now s r t)
    (hu : u.enabled = true) (e : BudgetError) : r = .error (.refused e) ↔
      ∃ v, u.wantedAmount = .error v ∧ e = .validation v := by
  constructor
  · rintro rfl
    exact h.refused.2.2
  rintro ⟨v, hv, he⟩
  cases h with
  | unlimited hdisabled => simp [hu] at hdisabled
  | disabled l hdisabled => simp [hu] at hdisabled
  | invalid v' _ hv' =>
    obtain rfl : v' = v := Except.error.inj (hv'.symm.trans hv)
    rw [he]
  | created amount _ _ _ hamount => simp [hamount] at hv
  | unchanged l _ hamount => simp [hamount] at hv
  | amountChanged l amount _ hamount => simp [hamount] at hv
  | replaced l amount _ _ _ hamount => simp [hamount] at hv

theorem Connected.refused_iff {r : Except Abort Connection}
    (h : Connected currency token limit now s r t) (e : BudgetError) :
    r = .error (.refused e) ↔
      ∃ u v, limit = some u ∧ u.enabled = true ∧ u.wantedAmount = .error v ∧ e = .validation v := by
  cases h with
  | plain k _ hplain =>
    constructor
    · rintro ⟨⟩
    · rintro ⟨u, v, hlimit, hu, -⟩
      rw [hplain u hlimit] at hu
      cases hu
  | limited _ _ u _ _ _ hlimit hu hupdated =>
    simpa [hlimit, hu] using hupdated.refused_iff hu e
  | failed _ u _ _ _ hlimit hu hupdated =>
    simpa [hlimit, hu] using hupdated.refused_iff hu e

/-- A refusal leaves the connection behind. -/
theorem Connected.refused (hs : Coherent s) {e : BudgetError}
    (h : Connected currency token limit now s (.error (.refused e)) t) (ht : t.FreshIds) :
    t.store = s.store.added (.create ⟨s.next⟩ currency token now) := by
  have hnew := h.new hs ht
  generalize hr : Except.error (Abort.refused e) = r at h
  cases h with
  | plain => cases hr
  | limited => cases hr
  | failed k u a _ hk hlimit hu hupdated =>
    cases hr
    obtain ⟨rfl, -⟩ := hupdated.refused
    rw [← hk] at hnew ⊢
    exact Store.saveConnection_new hnew

theorem Connected.not_broken (hnow : now.Readable) {r : Except Abort Connection}
    (h : Connected currency token limit now s r t) (d : Defect) : r ≠ .error (.broken d) := by
  cases h with
  | failed k u a t _ _ _ hupdated => simpa using hupdated.not_broken hnow d
  | _ => simp

end Service

/-- The set-up of a connection is refused for the amount of its limit and for nothing else. The
connection is in the store then, without a limit. An answer is the stored connection, and it has
an active limit if and only if one was asked for. -/
theorem connection_set_up (run : Run policy rule (w :: past)) (currency : Currency)
    (token : Option String) (limit : Option LimitUpdate) (now : Instant) :
    ∃ r t, createConnection currency token limit now w.service = .done r t ∧ (t.FreshIds →
      (∀ e, r = .error (.refused e) ↔ ∃ u v, limit = some u ∧ u.enabled = true ∧
        u.wantedAmount = .error v ∧ e = .validation v) ∧
      (∀ e, r = .error (.refused e) → t.store =
        w.service.store.added (.create ⟨w.service.next⟩ currency token now)) ∧
      (∀ k, r = .ok k →
        SetUp currency limit now (.create ⟨w.service.next⟩ currency token now) w.service.store k
          t.store ∧
        t.store.connection? k.id = some k ∧
        ((∃ l, t.store.limitOf? k.id = some l) ↔ ∃ u, limit = some u ∧ u.enabled = true)) ∧
      (now.Readable → ∀ d, r ≠ .error (.broken d))) := by
  have hs := run.sound.coherent
  obtain ⟨r, t, hrun, -, -, hends⟩ := createConnection_ends hs.quiet currency token limit now
  refine ⟨r, t, hrun, fun ht => ?_⟩
  obtain ⟨-, hconnected, -⟩ := hends hs ht
  refine ⟨hconnected.refused_iff, fun e he => ?_, fun k hk => ?_, hconnected.not_broken⟩
  · subst he
    exact hconnected.refused hs ht
  · subst hk
    have hset := hconnected.setUp hs (reachable_keyed run) ht
    have hstored := hset.stored (hconnected.new hs ht)
    rw [Store.limitOf?_stored hstored]
    exact ⟨hset, hstored, hset.limited_iff rfl⟩

/-- A limit of zero sats is refused on the second day. The connection that was to have it is the
second one in the store. -/
theorem connection_set_up_refused :
    ∃ w past v t, Run .exact World.Steady (w :: past) ∧
      createConnection .sat none (some ⟨true, some 0, none, some .daily⟩) Sample.secondDay
        w.service = .done (.error (.refused (.validation v))) t ∧
      t.store = w.service.store.added (.create ⟨w.service.next⟩ .sat none Sample.secondDay) ∧
      w.service.store.connections.length = 1 := by
  obtain ⟨w, past, run, hf⟩ := Run.reaches .exact World.Steady ⟨Sample.start, rfl⟩ Uuid.ofNat
    [Sample.created, .clock ⟨Sample.secondDay, rfl⟩]
    (fun w _ => decide (w.service.store.connections.length = 1 ∧
      (createConnection .sat none (some ⟨true, some 0, none, some .daily⟩) Sample.secondDay
        w.service).service.FreshIds))
    true (by decide +kernel)
  obtain ⟨hone, hfresh⟩ := of_decide_eq_true hf
  obtain ⟨r, t, hrun, hends⟩ := connection_set_up run .sat none
    (some ⟨true, some 0, none, some .daily⟩) Sample.secondDay
  rw [hrun] at hfresh
  obtain ⟨hrefused, hleft, -, -⟩ := hends hfresh
  have hr := (hrefused (.validation _)).mpr ⟨_, _, rfl, rfl, rfl, rfl⟩
  exact ⟨w, past, _, t, run, hr ▸ hrun, hleft _ hr, hone⟩

end WalletBudget
