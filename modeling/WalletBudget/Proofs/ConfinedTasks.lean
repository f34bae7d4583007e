import WalletBudget.Proofs.Asking
import WalletBudget.Proofs.Confined

/-!
Every operation, part by part, keeps to the rows of the connection that it is for.
-/

namespace WalletBudget

theorem Store.cycleStartingAt?_share {s : Store} {owner : ConnectionId} {limit : LimitId}
    {start : Instant} (howner : s.owner? limit = some owner)
    (hindexed : ∀ entry, s.startOf? limit start = some entry →
      ∃ c, s.cycle? entry.cycle = some c ∧ c.limit = limit) :
    (s.share owner).cycleStartingAt? limit start = s.cycleStartingAt? limit start := by
  have hstart := startOf?_share howner start
  simp only [startOf?] at hstart hindexed
  simp only [cycleStartingAt?, hstart]
  cases hentry : Table.get? CycleStart.key (limit, start) s.cycleStarts with
  | none => rfl
  | some entry =>
    obtain ⟨c, hc, rfl⟩ := hindexed entry hentry
    refine cycle?_share fun d hd => ?_
    rwa [← Option.some.inj (hc.symm.trans hd)]

namespace Service

variable {peers : Peers} {owner : ConnectionId} {policy : HoldPolicy} {s : Service}
  {k : Connection} {l : Limit} {c : Cycle} {p : Payment} {now : Instant} {intent : Intent}

/-- A caller's copy of a connection leads to a limit of that connection, if to any. -/
def Leads (s : Service) (owner : ConnectionId) (k : Connection) : Prop :=
  k.id = owner ∧ ∀ limit, k.limit = some limit → s.store.owner? limit = some owner

theorem Leads.within {x : ConnectionId} {n : Nat} {t : Service} (h : Leads s owner k)
    (hst : LocalTo x n s t) : Leads t owner k :=
  ⟨h.1, fun limit hlimit => hst.owners limit owner (h.2 limit hlimit)⟩

theorem Owned.leads (hs : Owned s) (hk : s.store.connection? owner = some k) :
    Leads s owner k :=
  ⟨Store.connection?_id hk, fun limit hlimit => hs.pointer owner k limit hk hlimit⟩

theorem connection_confined : Confined peers owner 0 (connection owner) s
    fun k u => u = s ∧ s.store.connection? owner = some k := by
  refine (Confined.ask .connection none (s.store.connection?_share owner)).bind (m := 0) ?_
  rintro k u - ⟨rfl, rfl⟩
  exact .found _ _

theorem activeLimit_confined (hk : Leads s owner k) : Confined peers owner 0 (activeLimit k) s
    fun a u => u = s ∧ ∀ l, a = some l →
      s.store.owner? l.id = some owner ∧ l.connection = owner := by
  unfold activeLimit
  cases hlimit : k.limit with
  | none => exact .pure ⟨rfl, by simp⟩
  | some id =>
    have howner := hk.2 id hlimit
    obtain ⟨l, hl, hconnection⟩ := Store.owner?_some.mp howner
    refine (Confined.ask .limit none (Store.limit?_share ?_)).bind (m := 0) ?_
    · intro l' hl'
      rwa [← Option.some.inj (hl.symm.trans hl')]
    rintro a u - ⟨rfl, rfl⟩
    refine (Confined.found _ _).bind (m := 0) ?_
    rintro l' u - ⟨rfl, hl'⟩
    obtain rfl : l = l' := Option.some.inj (hl.symm.trans hl')
    refine .pure ⟨rfl, fun l' he => ?_⟩
    obtain ⟨-, rfl⟩ : l.isActive = true ∧ l = l' := by simpa using he
    exact ⟨by rwa [Store.limit?_id hl], hconnection⟩

/-- A cycle is written, or it is refused because its limit has one that starts then. -/
theorem insertCycle_confined (hc : s.store.owner? c.limit = some owner) (hid : s.Unused c.id.uuid) :
    Confined peers owner 0
      (Task.call .insertCycle () fun s => (fun s => ((), s)) <$> s.insertCycle c) s
      fun r u => (r = .ok () ∧ u = s.write ((s.store.indexCycle c).fileCycle c)) ∨
        ∃ name, r = .error (.uniqueViolation name) ∧ u = s := by
  intro hs
  have hstart := Store.startOf?_share hc c.start
  obtain hfree | ⟨entry, htaken⟩ := Option.eq_none_or_eq_some (s.store.startOf? c.limit c.start)
  · have hshare := Store.share_openCycle hs.cycles hid.cycle owner
    rw [if_pos hc] at hshare
    refine (Confined.call .insertCycle () ?_ ?_ fun hs => .openCycle hs hc hid.issued
      hid.cycle).imp (fun r u h => .inl h) hs
    · simp only [Store.insertCycle_eq, hfree]
      rfl
    · simp only [Store.insertCycle_eq, hstart, hfree, hshare]
      rfl
  · have hrefused : Confined peers owner 0
        (Task.call .insertCycle () fun s => (fun s => ((), s)) <$> s.insertCycle c) s
        fun r u =>
          r = .error (.uniqueViolation (Store.cycleStartName c.limit c.start)) ∧ u = s := by
      refine .callError .insertCycle () ?_ ?_
      · simp only [Store.insertCycle_eq, htaken]
        rfl
      · simp only [Store.insertCycle_eq, hstart, htaken]
        rfl
    exact hrefused.imp (fun r u h => .inr ⟨_, h⟩) hs

theorem openCycle_confined (hl : s.store.owner? l.id = some owner) (start : Instant) :
    Confined peers owner 1 (openCycle l start) s
      fun c u => u.store.cycleOwner? c.id = some owner := by
  unfold openCycle
  refine (Confined.newId .cycle).bind (m := 0) ?_
  rintro id u - ⟨rfl, -, hid⟩
  refine (Confined.sound _).bind (m := 0) ?_
  rintro c u hu ⟨rfl, hc⟩
  obtain ⟨finish, hfields⟩ := createCycle_fresh hc
  have howner : s.issue.store.owner? c.limit = some owner := by
    rw [hfields]
    exact hl
  refine (insertCycle_confined howner (by rwa [hfields])).bind (m := 0) ?_
  rintro r u hu (⟨rfl, rfl⟩ | ⟨name, rfl, rfl⟩)
  · exact .pure (Store.cycleOwner?_some.mpr ⟨c, by simp, howner⟩)
  · have hindexed := hu.owned.indexed l.id start
    refine (Confined.ask .cycleStartingAt none
      (Store.cycleStartingAt?_share hl hindexed)).bind (m := 0) ?_
    rintro a u - ⟨rfl, rfl⟩
    refine (Confined.found _ _).imp ?_
    rintro c u ⟨rfl, hc⟩
    obtain ⟨entry, hentry, hstored⟩ := Option.bind_eq_some_iff.mp hc
    obtain ⟨d, hd, hlimit⟩ := hindexed entry hentry
    obtain rfl : c = d := Option.some.inj (hstored.symm.trans hd)
    exact Store.cycleOwner?_some.mpr ⟨c, by rwa [Store.cycle?_id hd], by rwa [hlimit]⟩

theorem currentCycle_confined (hl : s.store.owner? l.id = some owner) (now : Instant) :
    Confined peers owner 1 (currentCycle l now) s
      fun c u => u.store.cycleOwner? c.id = some owner := by
  have hopen : Confined peers owner 1 (Task.sound (l.periodStart now) >>= openCycle l) s
      fun c u => u.store.cycleOwner? c.id = some owner := by
    refine (Confined.sound _).bind (n := 0) (m := 1) ?_
    rintro start u - ⟨rfl, -⟩
    exact openCycle_confined hl start
  refine (Confined.ask .latestCycle none (Store.latestCycle?_share hl)).bind (n := 0) (m := 1) ?_
  rintro latest u hu ⟨rfl, rfl⟩
  cases hlatest : u.store.latestCycle? l.id with
  | none => exact hopen
  | some c =>
    dsimp only
    split
    · exact hopen
    · obtain ⟨hmem, hlimit, -⟩ := Store.latestCycle?_some hlatest
      have hstored := hu.owned.cycles.get?_of_mem hmem
      refine .most (.pure ?_) (Nat.zero_le 1)
      exact Store.cycleOwner?_some.mpr ⟨c, hstored, by rwa [hlimit]⟩

theorem price_confined (c : Cycle) (intent : Intent) :
    Confined peers owner 0 (price c intent) s fun _ u => u = s := by
  unfold price
  split
  · exact .pure rfl
  · refine (Confined.convert _).bind (m := 0) ?_
    rintro answer u - rfl
    split
    · exact .refuse _
    · split
      · exact .refuse _
      · exact .pure rfl

def Recorded (owner : ConnectionId) (p : Payment) (s : Service) : Prop :=
  p.connection = owner ∧ s.store.payment? p.id = some p

theorem LocalTo.recordNew {p : Payment} (hs : Owned s) (hp : p.connection = owner)
    (hid : s.Unused p.id.uuid)
    (howner : ∀ cycle, p.cycle = some cycle → s.store.cycleOwner? cycle = some owner) :
    LocalTo owner 0 s (s.write (s.store.filePayment p)) := by
  refine .record hs hp hid.issued (fun old hold => ?_) howner
  cases hid.payment.symm.trans hold

theorem insertPayment_confined {p : Payment} (hp : p.connection = owner)
    (hid : s.Unused p.id.uuid) (hnone : p.cycle = none) :
    Confined peers owner 0 (Task.tell .insertPayment (·.insertPayment p)) s
      fun _ u => Recorded owner p u := by
  intro hs
  have hnew : s.store.payment? p.id = none := hid.payment
  have hshare := Store.share_filePayment hs.payments (p := p) (by simp [hnew]) owner
  have hmissing : (s.store.share owner).payment? p.id = none :=
    (Store.payment?_share (by simp [hnew])).trans hnew
  rw [if_pos hp] at hshare
  refine (Confined.tell .insertPayment ?_ ?_ fun hs => .recordNew hs hp hid (by simp [hnone])).imp
    (fun _ u hu => ?_) hs
  · simp [Store.insertPayment_eq, hnew]
  · simp [Store.insertPayment_eq, hmissing, hshare]
  · subst hu
    exact ⟨hp, by simp⟩

theorem recordUnbudgeted_confined (request : RequestId) (intent : Intent) (now : Instant) :
    Confined peers owner 1 (recordUnbudgeted owner request intent now) s
      fun p u => Recorded owner p u := by
  refine (Confined.newId .payment).bind (m := 0) ?_
  rintro id u - ⟨-, -, hid⟩
  refine (insertPayment_confined (p := Payment.pending id request owner intent now) rfl hid
    rfl).bind (m := 0) ?_
  exact fun _ u _ hu => .pure hu

/-- A cycle that takes the place of a stored one of the same limit. -/
def Replaces (c : Cycle) (s : Service) : Prop :=
  ∃ old, s.store.cycle? c.id = some old ∧ old.limit = c.limit

theorem Replaces.same (h : Replaces c s) :
    ∀ old, s.store.cycle? c.id = some old → old.limit = c.limit := by
  obtain ⟨stored, hstored, hlimit⟩ := h
  intro old hold
  rwa [← Option.some.inj (hstored.symm.trans hold)]

theorem Replaces.issued (h : Replaces c s) (hs : Owned s) : s.Issued c.id.uuid :=
  h.elim fun old hold => hs.cycleIssued _ old hold.1

theorem Replaces.share (h : Replaces c s) (hs : Owned s)
    (hc : s.store.owner? c.limit = some owner) :
    (s.store.fileCycle c).share owner = (s.store.share owner).fileCycle c := by
  rw [Store.share_fileCycle hs.cycles fun old hold => by rw [h.same old hold], if_pos hc]

/-- A cycle and a payment of the connection are written at once. -/
theorem commit_confined {c : Cycle} {p : Payment} (hc : s.store.owner? c.limit = some owner)
    (hold : Replaces c s)
    (hp : p.connection = owner) (hissued : s.Issued p.id.uuid) (hlinked : p.cycle = some c.id)
    (hbefore : ∀ old, s.store.payment? p.id = some old →
      old.connection = owner ∧ old.cycle = p.cycle) :
    Confined peers owner 0 (Task.tell .commit fun s => .ok (s.commit c (some p))) s
      fun _ u => Recorded owner p u := by
  intro hs
  have hpayment := Store.share_filePayment (s := s.store.fileCycle c) hs.payments (p := p)
    (fun q hq => (hbefore q hq).1.trans hp.symm) owner
  rw [if_pos hp, hold.share hs hc] at hpayment
  have hlocal : LocalTo owner 0 s (s.write ((s.store.fileCycle c).filePayment p)) := by
    have hfiled := LocalTo.fileCycle hs hc (hold.issued hs) hold.same
    refine hfiled.trans (.record hfiled.owned hp hissued hbefore fun cycle hcycle => ?_)
    obtain rfl : c.id = cycle := Option.some.inj (hlinked.symm.trans hcycle)
    exact Store.cycleOwner?_some.mpr ⟨c, by simp, hc⟩
  have htell : Confined peers owner 0 (Task.tell .commit fun s => .ok (s.commit c (some p))) s
      fun _ u => u = s.write ((s.store.fileCycle c).filePayment p) :=
    .tell .commit rfl (by rw [Store.commit_some, hpayment]) fun _ => hlocal
  refine htell.imp (fun _ u hu => ?_) hs
  subst hu
  exact ⟨hp, by simp⟩

theorem placeHold_confined {cycle : CycleId} (hcycle : s.store.cycleOwner? cycle = some owner)
    (request : RequestId) (intent : Intent) (estimate hold : Int) (now : Instant) :
    Confined peers owner 1 (placeHold cycle owner request intent estimate hold now) s
      fun a u => ∀ p, a = some p → Recorded owner p u := by
  refine (Confined.locked hcycle).bind (n := 0) (m := 1) ?_
  rintro c u - ⟨rfl, hc⟩
  obtain ⟨c', hc', howner⟩ := Store.cycleOwner?_some.mp hcycle
  obtain rfl : c = c' := Option.some.inj (hc.symm.trans hc')
  obtain rfl : c.id = cycle := Store.cycle?_id hc
  refine Confined.clock.bind (n := 0) (m := 1) ?_
  rintro clock u - ⟨rfl, rfl⟩
  split
  · exact .most (.pure (by simp)) (Nat.zero_le 1)
  refine (Confined.sound _).bind (n := 0) (m := 1) ?_
  rintro left u - ⟨rfl, -⟩
  split
  · exact .most (.refuse _) (Nat.zero_le 1)
  refine (Confined.newId .payment).bind (m := 0) ?_
  rintro id u - ⟨rfl, -, hid⟩
  refine (Confined.sound _).bind (m := 0) ?_
  rintro c' u - ⟨rfl, hplaced⟩
  obtain rfl := Cycle.placeHold_ok hplaced
  refine (commit_confined (s := u.issue) (c := { c with held := c.held + hold })
    (p := (Payment.pending id request owner intent now).reserved c.id c.currency estimate hold)
    howner ⟨c, hc, rfl⟩ rfl hid.issued rfl fun old hold => ?_).bind (m := 0) ?_
  · cases hid.payment.symm.trans hold
  · exact fun _ u _ hu => .pure (by simpa using hu)

theorem tryReserve_confined (hk : Leads s owner k) (request : RequestId) (intent : Intent) :
    Confined peers owner 2 (tryReserve policy k request intent) s
      fun a u => ∀ p, a = some p → Recorded owner p u := by
  refine Confined.clock.bind (n := 0) (m := 2) ?_
  rintro now u - ⟨rfl, rfl⟩
  refine (activeLimit_confined hk).bind (n := 0) (m := 2) ?_
  rintro a u - ⟨rfl, hl⟩
  obtain ⟨rfl, -⟩ := hk
  cases a with
  | none =>
    refine .most ((recordUnbudgeted_confined request intent _).bind (m := 0) ?_) (Nat.le_succ 1)
    exact fun p u _ hp => .pure (by simpa using hp)
  | some l =>
    refine (currentCycle_confined (hl l rfl).1 _).bind (n := 1) (m := 1) ?_
    intro c u _ hc
    refine (Confined.sound _).bind (n := 0) (m := 1) ?_
    rintro left u - ⟨rfl, -⟩
    split
    · exact .most (.refuse _) (Nat.zero_le 1)
    refine (price_confined c intent).bind (n := 0) (m := 1) ?_
    rintro estimate u - rfl
    refine (Confined.sound _).bind (n := 0) (m := 1) ?_
    rintro valid u - ⟨rfl, -⟩
    refine (Confined.valid _).bind (n := 0) (m := 1) ?_
    rintro hold u - ⟨rfl, -⟩
    exact placeHold_confined hc request intent estimate hold _

/-- Each attempt takes two identifiers at most: of a cycle and of a payment. -/
theorem reserveWithin_confined (n : Nat) (hk : Leads s owner k) (request : RequestId)
    (intent : Intent) : Confined peers owner (2 * n) (reserveWithin policy request intent n k) s
      fun p u => Recorded owner p u := by
  induction n generalizing s k with
  | zero => exact .refuse _
  | succ n ih =>
    refine .most (.bind (m := 2 * n) (tryReserve_confined hk request intent) ?_) (by omega)
    intro a u hu hrecorded
    cases a with
    | some p => exact .most (.pure (hrecorded p rfl)) (Nat.zero_le _)
    | none =>
      rw [show connection k.id = connection owner by rw [hk.1]]
      refine .most (.bind (n := 0) (m := 2 * n) connection_confined ?_) (by omega)
      rintro k' v hv ⟨rfl, hk'⟩
      exact ih (hv.owned.leads hk')

theorem reserve_confined (hk : Leads s owner k) (request : RequestId) (intent : Intent) :
    Confined peers owner 4 (reserve policy k request intent) s
      fun p u => Recorded owner p u :=
  reserveWithin_confined attempts hk request intent

theorem fileCycle_confined (hc : s.store.owner? c.limit = some owner) (hold : Replaces c s) :
    Confined peers owner 0 (Task.tell .commit fun s => .ok (s.commit c none)) s
      fun _ _ => True := by
  intro hs
  have htell : Confined peers owner 0 (Task.tell .commit fun s => .ok (s.commit c none)) s
      fun _ u => u = s.write (s.store.fileCycle c) :=
    .tell .commit rfl (by rw [Store.commit_none, hold.share hs hc]) fun hs =>
      .fileCycle hs hc (hold.issued hs) hold.same
  exact htell.imp (fun _ _ _ => trivial) hs

theorem rewriteLiveCycle_confined {limit : LimitId} (hlimit : s.store.owner? limit = some owner)
    (now : Instant) {change : Cycle → Cycle}
    (hchange : ∀ c, (change c).id = c.id ∧ (change c).limit = c.limit) :
    Confined peers owner 0 (rewriteLiveCycle limit now change) s fun _ _ => True := by
  refine (Confined.ask .latestCycle none (Store.latestCycle?_share hlimit)).bind (m := 0) ?_
  rintro latest u hu ⟨rfl, rfl⟩
  cases hlatest : u.store.latestCycle? limit with
  | none => exact .pure trivial
  | some c =>
    obtain ⟨hmem, hof, -⟩ := Store.latestCycle?_some hlatest
    have hstored := hu.owned.cycles.get?_of_mem hmem
    have howner : u.store.cycleOwner? c.id = some owner :=
      Store.cycleOwner?_some.mpr ⟨c, hstored, by rwa [hof]⟩
    dsimp only
    split
    · exact .pure trivial
    · refine (Confined.locked howner).bind (m := 0) ?_
      rintro d u - ⟨rfl, hd⟩
      obtain rfl : c = d := Option.some.inj (Eq.trans hstored.symm hd)
      obtain ⟨hid, hkept⟩ := hchange c
      refine fileCycle_confined (by rwa [hkept, hof]) ⟨c, by rwa [hid], hkept.symm⟩

theorem storeLimit_confined (hl : l.connection = owner)
    (hstored : s.store.owner? l.id = some owner) :
    Confined peers owner 0 (Task.tell .updateLimit (·.updateLimit l)) s fun _ _ => True := by
  intro hs
  obtain ⟨old, hold, hconnection⟩ := Store.owner?_some.mp hstored
  have hsame : ∀ l', s.store.limit? l.id = some l' → l'.connection = owner := by
    intro l' hl'
    rwa [← Option.some.inj (hold.symm.trans hl')]
  have hshared : (s.store.share owner).limit? l.id = some old :=
    (Store.limit?_share hsame).trans hold
  have hshare := Store.share_fileLimit hs.limits hs.cycleOwner hs.startOwner
    (fun l' hl' => (hsame l' hl').trans hl.symm) owner
  rw [if_pos hl] at hshare
  have htell : Confined peers owner 0 (Task.tell .updateLimit (·.updateLimit l)) s
      fun _ u => u = s.write (s.store.fileLimit l) := by
    refine .tell .updateLimit ?_ ?_ fun hs => .file hs hl (hs.limitIssued _ old hold) hsame
    · simp [Store.updateLimit_eq, hold]
    · simp [Store.updateLimit_eq, hshared, hshare]
  exact htell.imp (fun _ _ _ => trivial) hs

theorem saveConnection_confined (hk : Leads s owner k) :
    Confined peers owner 0 (Task.tell .saveConnection fun s => .ok (s.saveConnection k)) s
      fun _ _ => True := by
  have hshare := s.store.share_saveConnection k owner
  rw [if_pos hk.1] at hshare
  have htell : Confined peers owner 0
      (Task.tell .saveConnection fun s => .ok (s.saveConnection k)) s
      fun _ u => u = s.write (s.store.saveConnection k) :=
    .tell .saveConnection rfl (by rw [hshare]) fun hs => .save hs hk.1 hk.2
  exact htell.imp fun _ _ _ => trivial

theorem insertLimit_confined (hl : l.connection = owner) (hid : s.Unused l.id.uuid) :
    Confined peers owner 0 (Task.tell .insertLimit (·.insertLimit l)) s
      fun _ u => u.store.owner? l.id = some owner := by
  intro hs
  have hnew : s.store.limit? l.id = none := hid.limit
  have hmissing : (s.store.share owner).limit? l.id = none :=
    (Store.limit?_share (by simp [hnew])).trans hnew
  have hshare := Store.share_fileLimit hs.limits hs.cycleOwner hs.startOwner (l := l)
    (by simp [hnew]) owner
  rw [if_pos hl] at hshare
  have htell : Confined peers owner 0 (Task.tell .insertLimit (·.insertLimit l)) s
      fun _ u => u = s.write (s.store.fileLimit l) := by
    refine .tell .insertLimit ?_ ?_ fun hs => .file hs hl hid.issued (by simp [hnew])
    · simp [Store.insertLimit_eq, hnew]
    · simp [Store.insertLimit_eq, hmissing, hshare]
  refine htell.imp (fun _ u hu => ?_) hs
  subst hu
  exact Store.owner?_some.mpr ⟨l, by simp, hl⟩

theorem startLimit_confined (hk : k.id = owner) (currency : Currency) (amount : Int)
    (frequency : Frequency) (now : Instant) :
    Confined peers owner 2 (startLimit k currency amount frequency now) s fun _ _ => True := by
  refine (Confined.newId .limit).bind (m := 1) ?_
  rintro id u - ⟨-, -, hid⟩
  refine (Confined.valid _).bind (n := 0) (m := 1) ?_
  rintro l u - ⟨rfl, hl⟩
  obtain rfl : l = ⟨id, k.id, currency, amount, frequency, now, none⟩ := by
    simp only [Limit.create, checkLimitAmount, bind, Except.bind] at hl
    split at hl
    · cases hl
    · exact (Except.ok.inj hl).symm
  refine (insertLimit_confined hk hid).bind (n := 0) (m := 1) ?_
  intro _ u _ hl
  refine (currentCycle_confined hl now).bind (m := 0) ?_
  intro c v hv _
  have hpoints : Leads v owner { k with limit := some id } := by
    refine ⟨hk, fun limit he => ?_⟩
    obtain rfl := Option.some.inj he
    exact hv.owners _ owner hl
  refine (saveConnection_confined hpoints).bind (m := 0) ?_
  exact fun _ _ _ _ => .pure trivial

theorem endLimit_confined (hl : l.connection = owner) (hstored : s.store.owner? l.id = some owner)
    (now : Instant) : Confined peers owner 0 (endLimit l now) s fun _ _ => True := by
  have hended : (l.deactivate now).connection = owner :=
    (deactivate_follows l now).connection.trans hl
  have hid := deactivate_id l now
  refine (storeLimit_confined hended (by rwa [hid])).bind (m := 0) fun _ u hu _ => ?_
  have hkept : u.store.owner? (l.deactivate now).id = some owner := by
    rw [hid]
    exact hu.owners _ owner hstored
  refine (rewriteLiveCycle_confined hkept now fun c => ?_).bind (m := 0) fun _ _ _ _ =>
    .pure trivial
  exact ⟨endAt_id c now, (endAt_follows c now).limit⟩

theorem changeAmount_confined (hl : l.connection = owner)
    (hstored : s.store.owner? l.id = some owner) (amount : Int) (now : Instant) :
    Confined peers owner 0 (changeAmount l amount now) s fun _ _ => True := by
  unfold changeAmount
  split
  · exact .pure trivial
  refine (rewriteLiveCycle_confined hstored now ?_).bind (m := 0) fun _ u hu _ => ?_
  · exact fun c => ⟨rfl, rfl⟩
  have hkept : u.store.owner? l.id = some owner := hu.owners _ owner hstored
  refine (storeLimit_confined (l := { l with amount }) hl hkept).bind (m := 0) ?_
  exact fun _ _ _ _ => .pure trivial

theorem disableLimit_confined (hk : k.id = owner) {active : Option Limit}
    (hactive : ∀ l, active = some l → s.store.owner? l.id = some owner ∧ l.connection = owner)
    (now : Instant) : Confined peers owner 0 (disableLimit k active now) s fun _ _ => True := by
  cases active with
  | none => exact .pure trivial
  | some l =>
    obtain ⟨hstored, hl⟩ := hactive l rfl
    refine (endLimit_confined hl hstored now).bind (m := 0) fun _ u _ _ => ?_
    have hpoints : Leads u owner { k with limit := none } := ⟨hk, fun _ he => by cases he⟩
    refine (saveConnection_confined hpoints).bind (m := 0) ?_
    exact fun _ _ _ _ => .pure trivial

theorem enableLimit_confined (hk : k.id = owner) {active : Option Limit}
    (hactive : ∀ l, active = some l → s.store.owner? l.id = some owner ∧ l.connection = owner)
    (u : LimitUpdate) (now : Instant) :
    Confined peers owner 2 (enableLimit k active u now) s fun _ _ => True := by
  refine (Confined.valid _).bind (n := 0) (m := 2) ?_
  rintro amount s' - ⟨rfl, -⟩
  cases active with
  | none =>
    exact (startLimit_confined hk _ amount _ now).bind (m := 0) fun _ _ _ _ => .pure trivial
  | some l =>
    obtain ⟨hstored, hl⟩ := hactive l rfl
    dsimp only
    split
    · exact .most (changeAmount_confined hl hstored amount now) (Nat.zero_le 2)
    · refine (endLimit_confined hl hstored now).bind (n := 0) (m := 2) fun _ _ _ _ => ?_
      exact (startLimit_confined hk _ amount _ now).bind (m := 0) fun _ _ _ _ => .pure trivial

theorem updateLimit_confined (u : LimitUpdate) (now : Instant) :
    Confined peers owner 2 (updateLimit owner u now) s fun _ _ => True := by
  refine connection_confined.bind (n := 0) (m := 2) ?_
  rintro k s' hs' ⟨rfl, hk⟩
  have hleads := hs'.owned.leads hk
  refine (activeLimit_confined hleads).bind (n := 0) (m := 2) ?_
  rintro active v - ⟨rfl, hactive⟩
  split
  · exact enableLimit_confined hleads.1 hactive u now
  · exact .most (disableLimit_confined hleads.1 hactive now) (Nat.zero_le 2)

/-- A new connection is the one that the next identifier is for. -/
theorem createConnection_confined (currency : Currency) (token : Option String)
    (limit : Option LimitUpdate) (now : Instant) (howner : owner = ⟨s.next⟩) :
    Confined peers owner 3 (createConnection currency token limit now) s fun _ _ => True := by
  refine (Confined.newId .connection).bind (m := 2) ?_
  rintro id u - ⟨rfl, rfl, -⟩
  obtain rfl := howner
  have hpoints : Leads s.issue ⟨s.next⟩ (Connection.create ⟨s.next⟩ currency token now) :=
    ⟨rfl, fun _ he => by cases he⟩
  refine (saveConnection_confined hpoints).bind (n := 0) (m := 2) fun _ _ _ _ => ?_
  split
  · split
    · refine (updateLimit_confined _ now).bind (m := 0) fun _ _ _ _ => ?_
      exact connection_confined.imp fun _ _ _ => trivial
    · exact .most (.pure trivial) (Nat.zero_le 2)
  · exact .most (.pure trivial) (Nat.zero_le 2)

/-- A caller's copy of a payment of the connection, which is stored with the same cycle. -/
def Entered (s : Service) (owner : ConnectionId) (p : Payment) : Prop :=
  p.connection = owner ∧ ∃ q, s.store.payment? p.id = some q ∧ q.connection = owner ∧
    q.cycle = p.cycle

theorem Entered.within {x : ConnectionId} {n : Nat} {t : Service} (h : Entered s owner p)
    (hst : LocalTo x n s t) : Entered t owner p := by
  obtain ⟨hp, q, hq, hconnection, hcycle⟩ := h
  obtain ⟨q', hq', hconnection', hcycle'⟩ := hst.payments p.id q hq
  exact ⟨hp, q', hq', hconnection'.trans hconnection, hcycle'.trans hcycle⟩

theorem Recorded.entered (h : Recorded owner p s) : Entered s owner p :=
  ⟨h.1, p, h.2, h.1, rfl⟩

theorem Entered.payment? {q : Payment} (h : Entered s owner p)
    (hq : s.store.payment? p.id = some q) : q.connection = owner ∧ q.cycle = p.cycle := by
  obtain ⟨-, q', hq', hfields⟩ := h
  rwa [Option.some.inj (hq.symm.trans hq')]

theorem Entered.share (h : Entered s owner p) :
    (s.store.share owner).payment? p.id = s.store.payment? p.id :=
  Store.payment?_share fun _ hq => (h.payment? hq).1

theorem ensurePending_confined (q : Payment) :
    Confined peers owner 0 (ensurePending q) s fun _ u => u = s := by
  unfold ensurePending
  split
  · exact .refuse _
  · exact .pure rfl

theorem storedPayment_confined (hp : Entered s owner p) :
    Confined peers owner 0 (storedPayment p.id) s fun _ u => u = s := by
  refine (Confined.ask .payment none hp.share).bind (m := 0) ?_
  rintro q u - ⟨rfl, rfl⟩
  exact (Confined.found _ _).imp fun _ _ h => h.1

/-- A record that is final is left as it is, in the mirror as well. -/
theorem storeEnding_confined (hp : Entered s owner p) (hnone : p.cycle = none) (e : Ending)
    (now : Instant) : Confined peers owner 0
      (Task.call .completeUnbudgeted false (·.completeUnbudgeted (e.mark p now))) s
      fun _ _ => True := by
  intro hs
  obtain ⟨hconnection, q, hq, -⟩ := id hp
  have hshared := hp.share.trans hq
  by_cases hpending : q.status = .pending
  · have hmark : (e.mark p now).connection = owner := (mark_connection e p now).trans hconnection
    have hbefore : ∀ old, s.store.payment? (e.mark p now).id = some old →
        old.connection = owner ∧ old.cycle = (e.mark p now).cycle := by
      intro old hold
      rw [mark_cycle]
      exact hp.payment? (by simpa using hold)
    have hissued : s.Issued (e.mark p now).id.uuid := by simpa using hs.paymentIssued _ q hq
    have hshare := Store.share_filePayment hs.payments
      (fun old hold => (hbefore old hold).1.trans hmark.symm) owner
    rw [if_pos hmark] at hshare
    have hrun : s.store.completeUnbudgeted (e.mark p now) =
        .ok (true, s.store.filePayment (e.mark p now)) := by
      simp [Store.completeUnbudgeted, hq, hpending, Store.filePayment]
    have hrun' : (s.store.share owner).completeUnbudgeted (e.mark p now) =
        .ok (true, (s.store.filePayment (e.mark p now)).share owner) := by
      rw [hshare]
      simp [Store.completeUnbudgeted, hshared, hpending, Store.filePayment]
    exact (Confined.call _ false hrun hrun' fun hs => .record hs hmark hissued hbefore
      (by simp [hnone])).imp (fun _ _ _ => trivial) hs
  · have hrun : s.store.completeUnbudgeted (e.mark p now) = .ok (false, s.store) := by
      simp [Store.completeUnbudgeted, hq, hpending]
    have hrun' : (s.store.share owner).completeUnbudgeted (e.mark p now) =
        .ok (false, s.store.share owner) := by
      simp [Store.completeUnbudgeted, hshared, hpending]
    exact (Confined.call _ false hrun hrun' fun hs => .refl hs owner).imp
      (fun _ _ _ => trivial) hs

theorem completeUnbudgeted_confined (hp : Entered s owner p) (hnone : p.cycle = none) (e : Ending)
    (now : Instant) :
    Confined peers owner 0 (completeUnbudgeted e p now) s fun _ _ => True := by
  refine (Confined.stored (storeEnding_confined hp hnone e now)).bind (m := 0) fun _ u hu _ => ?_
  have hp' := hp.within hu
  have hlast : Confined peers owner 0 (storedPayment p.id) u fun _ _ => True :=
    (storedPayment_confined hp').imp fun _ _ _ => trivial
  split
  · refine (storedPayment_confined hp').bind (m := 0) ?_
    rintro q v - rfl
    refine (ensurePending_confined q).bind (m := 0) ?_
    rintro - v - rfl
    exact hlast
  · exact hlast

theorem completeBudgeted_confined (hp : Entered s owner p) {cycle : CycleId}
    (hcycle : p.cycle = some cycle) (e : Ending) (now : Instant) :
    Confined peers owner 0 (completeBudgeted e cycle p.id now) s fun _ _ => True := by
  intro hs
  obtain ⟨-, q, hq, hconnection, hlinked⟩ := id hp
  rw [hcycle] at hlinked
  have howner := hs.paymentOwner p.id q cycle hq hlinked
  rw [hconnection] at howner
  obtain ⟨c, hc, hlimit⟩ := Store.cycleOwner?_some.mp howner
  obtain rfl : c.id = cycle := Store.cycle?_id hc
  have hid : q.id = p.id := Store.payment?_id hq
  have hissued := hs.paymentIssued p.id q hq
  refine (Confined.locked howner).bind (m := 0) ?_ hs
  rintro d u - ⟨rfl, hd⟩
  obtain rfl : c = d := Option.some.inj (hc.symm.trans hd)
  refine (Confined.ask .lockedPayment none hp.share).bind (m := 0) ?_
  rintro a u - ⟨rfl, rfl⟩
  refine (Confined.found _ _).bind (m := 0) ?_
  rintro q' u - ⟨rfl, hq'⟩
  obtain rfl : q = q' := Option.some.inj (hq.symm.trans hq')
  refine (ensurePending_confined q).bind (m := 0) ?_
  rintro - u - rfl
  refine (Confined.sound _).bind (m := 0) ?_
  rintro c' u - ⟨rfl, happlied⟩
  have hfields := apply_ok happlied
  have hcid : c'.id = c.id := by rw [hfields]
  have hclimit : c'.limit = c.limit := by rw [hfields]
  refine (commit_confined (c := c') (p := e.mark q now) (by rwa [hclimit])
    ⟨c, by rwa [hcid], hclimit.symm⟩ ((mark_connection e q now).trans hconnection) ?_ ?_ ?_).bind
      (m := 0) fun _ _ _ _ => .pure trivial
  · rwa [mark_id, hid]
  · rw [mark_cycle, hlinked, hcid]
  · intro old hold
    rw [mark_id, hid] at hold
    rw [mark_cycle, ← Option.some.inj (hq.symm.trans hold)]
    exact ⟨hconnection, rfl⟩

theorem finish_confined (hp : Entered s owner p) (e : Ending) :
    Confined peers owner 0 (finish e p) s fun _ _ => True := by
  have hfinalize : Confined peers owner 0 (finalize e p) s fun _ _ => True := by
    refine Confined.clock.bind (m := 0) ?_
    rintro now u - ⟨rfl, rfl⟩
    cases hcycle : p.cycle with
    | none => exact completeUnbudgeted_confined hp hcycle e _
    | some cycle => exact completeBudgeted_confined hp hcycle e _
  cases e with
  | failure => exact hfinalize
  | success settled =>
    simp only [finish, finalizeSuccess]
    split
    · exact .refuse _
    · exact hfinalize

theorem pay_confined (hk : Leads s owner k) (id : RequestId) (request : PaymentRequest) :
    Confined peers owner 4 (pay policy k id request) s fun _ _ => True := by
  rw [pay_eq]
  refine (Confined.valid _).bind (n := 0) (m := 4) ?_
  rintro intent u - ⟨rfl, -⟩
  refine (reserve_confined hk id intent).bind (m := 0) ?_
  intro p u _ hp
  refine (Confined.execute _).bind (m := 0) ?_
  rintro answer u - rfl
  refine (finish_confined hp.entered _).bind (m := 0) ?_
  intro q u _ _
  cases answer with
  | ok outcome => exact .pure trivial
  | error e => exact .refuse _

theorem budgetView_confined (hk : Leads s owner k) :
    Confined peers owner 1 (budgetView k) s fun _ _ => True := by
  refine (activeLimit_confined hk).bind (n := 0) (m := 1) ?_
  rintro a u - ⟨rfl, hl⟩
  cases a with
  | none => exact .most (.pure trivial) (Nat.zero_le 1)
  | some l =>
    refine Confined.clock.bind (n := 0) (m := 1) ?_
    rintro now u - ⟨rfl, rfl⟩
    refine (currentCycle_confined (hl l rfl).1 _).bind (m := 0) ?_
    intro c u _ _
    refine (Confined.sound _).bind (m := 0) ?_
    rintro left u - ⟨rfl, -⟩
    split
    · exact .pure trivial
    refine (Confined.convert _).bind (m := 0) ?_
    rintro answer u - rfl
    split
    · exact .refuse _
    · split
      · exact .refuse _
      · exact .pure trivial

end Service

end WalletBudget
