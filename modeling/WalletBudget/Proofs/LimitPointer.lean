import WalletBudget.Proofs.Asking
import WalletBudget.Proofs.Overspending
import WalletBudget.Proofs.ReadableInstants

/-!
A connection has one active limit at most, and points to that one.

The writes of an operation that sets limits up are not exact one by one: a limit ends first, and the
pointer moves last. What is exact is each operation as a whole. It could only be stopped between its
writes where a new limit has no first cycle, and that is not so at instants that can be read.
-/

namespace WalletBudget

open Service

variable {policy : HoldPolicy} {s t : Service} {w w' : World} {path : List World} {k : Connection}
  {l : Limit} {u : LimitUpdate} {steady final : Prop} {now : Instant}

/-- The clock and the operations take instants for now that can be read, in any order. -/
def World.Readings (w : World) : Event → Prop
  | .call op => (op.now w.service.clock).Readable
  | .clock now => now.clock.Readable
  | _ => True

/-- Limits are of stored connections, and none ends before it starts. -/
structure Founded (s : Service) : Prop where
  owned : ∀ id l, s.store.limit? id = some l → ∃ k, s.store.connection? l.connection = some k
  begun : ∀ id l finish, s.store.limit? id = some l → l.finish = some finish → l.start ≤ finish

/-- The active limits are those that the connections point to. -/
structure Exact (s : Service) : Prop extends Founded s where
  active : ∀ id l k, s.store.limit? id = some l → s.store.connection? l.connection = some k →
    (l.isActive = true ↔ k.limit = some id)

/-- A connection whose limits have all ended, whatever it points to, where all others are exact. -/
structure Vacant (k : Connection) (s : Service) : Prop extends Founded s where
  stored : s.store.connection? k.id = some k
  ended : ∀ id l, s.store.limit? id = some l → l.connection = k.id → l.isActive = false
  others : ∀ id l k', s.store.limit? id = some l → l.connection ≠ k.id →
    s.store.connection? l.connection = some k' → (l.isActive = true ↔ k'.limit = some id)

theorem Spares.exact (h : Exact s) (hst : Spares s t) : Exact t := by
  have hlimit : t.store.limit? = s.store.limit? := by
    funext id
    simp only [Store.limit?, hst.limits]
  have hconnection : t.store.connection? = s.store.connection? := by
    funext id
    simp only [Store.connection?, hst.connections]
  refine { owned := ?_, begun := ?_, active := ?_ }
  · rw [hlimit, hconnection]
    exact h.owned
  · rw [hlimit]
    exact h.begun
  · rw [hlimit, hconnection]
    exact h.active

namespace Founded

/-- A limit is filed for a stored connection, new or with the same owner. -/
theorem fileLimit (h : Founded s) (hlimit : ∀ id, t.store.limit? id =
      if l.id = id then some l else s.store.limit? id)
    (hconnection : ∀ id k, s.store.connection? id = some k →
      ∃ k', t.store.connection? id = some k')
    (howned : ∃ k, s.store.connection? l.connection = some k)
    (hbegun : ∀ finish, l.finish = some finish → l.start ≤ finish) : Founded t := by
  have hold : ∀ id l', t.store.limit? id = some l' → l' = l ∨ s.store.limit? id = some l' := by
    intro id l' hl'
    rw [hlimit] at hl'
    split at hl'
    · exact .inl (Option.some.inj hl').symm
    · exact .inr hl'
  constructor
  · intro id l' hl'
    obtain ⟨k, hk⟩ : ∃ k, s.store.connection? l'.connection = some k := by
      rcases hold id l' hl' with rfl | hl'
      · exact howned
      · exact h.owned id l' hl'
    exact hconnection _ k hk
  · intro id l' finish hl' hfinish
    rcases hold id l' hl' with rfl | hl'
    · exact hbegun finish hfinish
    · exact h.begun id l' finish hl' hfinish

/-- A connection is saved, new or not. -/
theorem save (h : Founded s) (k : Connection) : Founded (s.write (s.store.saveConnection k)) where
  owned id l hl := by
    obtain ⟨k', hk'⟩ := h.owned id l hl
    by_cases hid : k.id = l.connection <;> simp [hid, hk']
  begun := h.begun

end Founded

theorem Limit.deactivate_begun (h : ∀ finish, l.finish = some finish → l.start ≤ finish)
    {finish : Instant} (hfinish : (l.deactivate now).finish = some finish) :
    (l.deactivate now).start ≤ finish := by
  rw [(deactivate_follows l now).start]
  cases ha : l.isActive with
  | true =>
    obtain rfl : now.later l.start = finish := by simpa [deactivate, ha] using hfinish
    exact (Instant.later_le_iff.mp (Instant.le_refl _)).2
  | false => exact h finish (by simpa [deactivate, ha] using hfinish)

@[simp] theorem Service.retired_limit? (s : Service) (l : Limit) (now : Instant) (id : LimitId) :
    (s.retired l now).store.limit? id =
      if l.id = id then some (l.deactivate now) else s.store.limit? id := by
  simp [retired]

/-- A limit that is not stored when another one has ended was not stored before. -/
theorem Service.retired_new {id : LimitId} (h : (s.retired l now).store.limit? id = none) :
    s.store.limit? id = none := by
  rw [retired_limit?] at h
  split at h
  · cases h
  · exact h

@[simp] theorem Service.retired_connection? (s : Service) (l : Limit) (now : Instant)
    (id : ConnectionId) : (s.retired l now).store.connection? id = s.store.connection? id := by
  simp [retired]

/-- At an instant that can be read a limit is always set up. -/
theorem Service.Started.answered (hnow : now.Readable) {currency : Currency} {amount : Int}
    {frequency : Frequency} {r : Except Abort Limit}
    (h : Started k currency amount frequency now s r t) : ∃ l, r = .ok l := by
  cases h with
  | started l => exact ⟨l, rfl⟩
  | broken l d hl hc =>
    obtain ⟨c, hc'⟩ := Limit.createCycle_first (l := l) (by rw [hl]; exact hnow) ⟨s.issue.next⟩
    rw [show l.start = now by rw [hl]] at hc'
    rw [hc'] at hc
    cases hc

theorem Exact.vacant (h : Exact s) (hk : s.store.connection? k.id = some k)
    (hnone : s.store.activeLimit? k = none) : Vacant k s where
  toFounded := h.toFounded
  stored := hk
  ended id l hl hconnection := by
    cases ha : l.isActive with
    | false => rfl
    | true =>
      have hp := (h.active id l k hl (hconnection ▸ hk)).mp ha
      rw [Store.activeLimit?_none hnone hp hl] at ha
      cases ha
  others id l k' hl _ hk' := h.active id l k' hl hk'

theorem Exact.retired (hs : Coherent s) (h : Exact s) (hk : s.store.connection? k.id = some k)
    (hl : s.store.activeLimit? k = some l) (now : Instant) : Vacant k (s.retired l now) := by
  obtain ⟨hp, hstored, ha⟩ := Store.activeLimit?_stored hl
  have hfollows := deactivate_follows l now
  have howner : l.connection = k.id := by
    obtain ⟨l', hl', hc⟩ := hs.pointer k.id k hk l.id hp
    rwa [Option.some.inj (hl'.symm.trans hstored)] at hc
  refine { toFounded := ?_, stored := by simpa using hk, ended := ?_, others := ?_ }
  · refine h.toFounded.fileLimit (l := l.deactivate now) (by simp)
      (fun _ k hk => ⟨k, by simpa using hk⟩) ?_ ?_
    · rw [hfollows.connection]
      exact h.owned l.id l hstored
    · exact fun finish => Limit.deactivate_begun fun f hf => h.begun l.id l f hstored hf
  · intro id l' hl' hconnection
    rw [retired_limit?] at hl'
    split at hl'
    · cases hl'
      exact deactivate_inactive l now
    · rename_i hne
      -- The connection pointed to the limit that ends, so no other one was active.
      cases ha' : l'.isActive with
      | false => rfl
      | true =>
        have hp' := (h.active id l' k hl' (hconnection ▸ hk)).mp ha'
        exact absurd (Option.some.inj (hp.symm.trans hp')) hne
  · intro id l' k' hl' hconnection hk'
    rw [retired_connection?] at hk'
    rw [retired_limit?] at hl'
    split at hl'
    · cases hl'
      exact absurd (hfollows.connection.trans howner) hconnection
    · exact h.active id l' k' hl' hk'

/-- A limit may get another amount. -/
theorem Exact.repriced (h : Exact s) (hl : s.store.limit? l.id = some l) (amount : Int)
    (hlimit : ∀ id, t.store.limit? id =
      if l.id = id then some { l with amount } else s.store.limit? id)
    (hconnection : ∀ id, t.store.connection? id = s.store.connection? id) : Exact t where
  toFounded := h.toFounded.fileLimit (l := { l with amount }) hlimit
    (fun id k hk => ⟨k, by rw [hconnection, hk]⟩) (h.owned l.id l hl)
    (fun finish hfinish => h.begun l.id l finish hl hfinish)
  active id l' k hl' hk := by
    rw [hconnection] at hk
    rw [hlimit] at hl'
    split at hl'
    · rename_i hid
      cases hl'
      exact hid ▸ h.active l.id l k hl hk
    · exact h.active id l' k hl' hk

namespace Vacant

/-- The pointer is taken away. -/
theorem unpointed (h : Vacant k s) :
    Exact (s.write (s.store.saveConnection { k with limit := none })) where
  toFounded := h.toFounded.save _
  active id l k' hl hk' := by
    have hl : s.store.limit? id = some l := hl
    by_cases hid : k.id = l.connection
    · obtain rfl : { k with limit := none } = k' := by simpa [hid] using hk'
      simp [h.ended id l hl hid.symm]
    · exact h.others id l k' hl (fun he => hid he.symm) (by simpa [hid] using hk')

/-- A limit is set up, and its first cycle is opened before the pointer moves to it. -/
theorem started (h : Vacant k s) (hnow : now.Readable) {currency : Currency} {amount : Int}
    {frequency : Frequency} {r : Except Abort Limit}
    (hst : Started k currency amount frequency now s r t) : Exact t := by
  obtain ⟨l, rfl⟩ := hst.answered hnow
  cases hst with
  | started _ c hl hc =>
    have howner : l.connection = k.id := by rw [hl]
    have hactive : l.isActive = true := by rw [hl]; rfl
    refine { toFounded := ?_, active := ?_ }
    · refine h.toFounded.fileLimit (l := l) (by simp) (fun id k' hk' => ?_) ?_ (by simp [hl])
      · by_cases hid : k.id = id <;> simp [hid, hk']
      · exact ⟨k, howner ▸ h.stored⟩
    · intro id l' k' hl' hk'
      have hl' : (if l.id = id then some l else s.store.limit? id) = some l' := by simpa using hl'
      have hk' : (if k.id = l'.connection then some { k with limit := some l.id }
          else s.store.connection? l'.connection) = some k' := by simpa using hk'
      split at hl'
      · rename_i hid
        cases hl'
        rw [if_pos howner.symm] at hk'
        cases hk'
        simp [hactive, hid]
      · rename_i hne
        split at hk'
        · rename_i hid
          cases hk'
          simp [h.ended id l' hl' hid.symm, hne]
        · rename_i hid
          exact h.others id l' k' hl' (fun he => hid he.symm) hk'

end Vacant

/-- A change of the limit of a stored connection is exact on every path, those that fail
included. -/
theorem Service.Updated.exact (hs : Coherent s) (h : Exact s)
    (hk : s.store.connection? k.id = some k) (hnow : now.Readable) {r : Except Abort LimitChange}
    (hupdated : Updated k u now s r t) : Exact t := by
  cases hupdated with
  | unlimited => exact h
  | disabled l _ hl => exact (h.retired hs hk hl now).unpointed
  | invalid => exact h
  | created amount r _ _ _ hnone hstarted => exact (h.vacant hk hnone).started hnow hstarted
  | unchanged => exact h
  | amountChanged l amount _ _ hl =>
    obtain ⟨-, hstored, -⟩ := Store.activeLimit?_stored hl
    exact h.repriced hstored amount (by simp) (by simp)
  | replaced l amount r _ _ _ hl _ hstarted =>
    exact (h.retired hs hk hl now).started hnow hstarted

theorem Service.Started.issued {currency : Currency} {amount : Int} {frequency : Frequency}
    {r : Except Abort Limit} (h : Started k currency amount frequency now s r t) :
    t.ids = s.ids ∧ s.issued ≤ t.issued := by
  cases h <;> simp [Nat.le_add_right_of_le]

theorem Service.Updated.issued {r : Except Abort LimitChange} (h : Updated k u now s r t) :
    t.ids = s.ids ∧ s.issued ≤ t.issued := by
  cases h with
  | created _ _ _ _ _ _ hstarted => exact hstarted.issued
  | replaced _ _ _ _ _ _ _ _ hstarted => exact hstarted.issued
  | _ => exact ⟨rfl, Nat.le_refl _⟩

/-- A new connection owns no limit. -/
theorem Exact.connected (hs : Coherent s) (h : Exact s) (hfresh : s.issue.FreshIds)
    (hid : k.id = ⟨s.next⟩) : Exact (s.issue.write (s.store.saveConnection k)) where
  owned := (h.toFounded.save k).owned
  begun := h.begun
  active id l k' hl hk' := by
    have hl : s.store.limit? id = some l := hl
    obtain ⟨owner, howner⟩ := h.owned id l hl
    by_cases hsame : k.id = l.connection
    · rw [← hsame, hs.newConnection hfresh hid] at howner
      cases howner
    · exact h.active id l k' hl (by simpa [hsame] using hk')

theorem Service.Connected.exact (hs : Coherent s) (h : Exact s) (hnow : now.Readable)
    {currency : Currency} {token : Option String} {limit : Option LimitUpdate}
    {r : Except Abort Connection} (hconnected : Connected currency token limit now s r t)
    (ht : t.FreshIds) : Exact t := by
  have hupdated : ∀ {k : Connection} {u : LimitUpdate} {r : Except Abort LimitChange},
      k = Connection.create ⟨s.next⟩ currency token now →
      Updated k u now (s.issue.write (s.store.saveConnection k)) r t → Exact t := by
    intro k u r hk hupdated
    have hfresh : s.issue.FreshIds := ht.before hupdated.issued
    have hsaved := h.connected hs hfresh (k := k) (by rw [hk]; rfl)
    have hcoherent : Coherent (s.issue.write (s.store.saveConnection k)) := by
      have hwrite : Write True now s (s.issue.write (s.store.saveConnection k)) :=
        .connect k (by rw [hk]; rfl) (by rw [hk]; rfl)
      exact (hwrite.rows hs hfresh).coherent hs
    exact hupdated.exact hcoherent hsaved (by simp) hnow
  cases hconnected with
  | plain k hk => exact h.connected hs ht (by rw [hk]; rfl)
  | limited k k' u change _ hk _ _ hst => exact hupdated hk hst
  | failed k u a _ hk _ _ hst => exact hupdated hk hst

theorem SetsLimits.exact {op : Operation} (hs : Coherent s) (h : Exact s)
    (hnow : (op.now s.clock).Readable) (ht : t.FreshIds) (hsets : SetsLimits s op t) : Exact t := by
  cases hsets with
  | connected currency token limit now r t hconnected => exact hconnected.exact hs h hnow ht
  | updated id u now k r t hk hupdated =>
    obtain rfl : k.id = id := Store.connection?_id hk
    exact hupdated.exact hs h hk hnow
  | unknown => exact h

theorem reachable_exact (run : Run policy World.Readings (w :: path)) : Exact w.service := by
  induction run using Run.lastInduction with
  | start clock ids scan =>
    exact {
      owned := by intro _ _ h; cases h
      begun := by intro _ _ _ h; cases h
      active := by intro _ _ _ h; cases h }
  | step run hrule hstep hfresh ih =>
    rcases (run.attends.step run.sound hstep hfresh).2 with hspares | ⟨op, rfl, hsets⟩
    · exact hspares.exact ih
    · exact hsets.exact run.sound.coherent ih hrule hfresh

/-- A stored connection that points to no limit has no active one. One that points to a limit has
that limit stored and active, and no other. Limits are of positive amounts and do not end before
they start, and the active limit of a stored connection is always found. -/
theorem limit_pointer_exact (run : Run policy World.Readings (w :: path)) :
    (∀ id k, w.service.store.connection? id = some k →
      (k.limit = none → ∀ limit l, w.service.store.limit? limit = some l → l.connection = id →
        l.isActive = false) ∧
      (∀ limit, k.limit = some limit → ∃ l, w.service.store.limit? limit = some l ∧
        l.connection = id ∧ l.isActive = true ∧ ∀ other l', w.service.store.limit? other = some l' →
          l'.connection = id → other ≠ limit → l'.isActive = false) ∧
      activeLimit k w.service = .done (.ok (w.service.store.limitOf? id)) w.service) ∧
    ∀ limit l, w.service.store.limit? limit = some l →
      0 < l.amount ∧ ∀ finish, l.finish = some finish → l.start ≤ finish := by
  have hs := run.sound.coherent
  have hexact := reachable_exact run
  refine ⟨fun id k hk => ⟨fun hnone limit l hl howner => ?_, fun limit hp => ?_, ?_⟩,
    fun limit l hl => ?_⟩
  · have hactive := hexact.active limit l k hl (howner ▸ hk)
    simpa [hnone] using hactive
  · obtain ⟨l, hl, howner⟩ := hs.pointer id k hk limit hp
    have hactive := (hexact.active limit l k hl (howner ▸ hk)).mpr hp
    refine ⟨l, hl, howner, hactive, fun other l' hl' howner' hne => ?_⟩
    have hother := hexact.active other l' k hl' (howner' ▸ hk)
    rw [hp] at hother
    simpa [hne.symm] using hother
  · rcases activeLimit_run hs.quiet k with hactive | ⟨limit, hp, hmissing, -⟩
    · rw [hactive, Store.limitOf?_stored hk]
    · obtain ⟨l, hl, -⟩ := hs.pointer id k hk limit hp
      rw [hmissing] at hl
      cases hl
  · exact ⟨(reachable_positive run).limits limit l hl,
      fun finish => hexact.begun limit l finish hl⟩

/-- All that happens at the start of the sample connection. -/
def Sample.atStart (w : World) : Event → Prop
  | .call op => op.now w.service.clock = Sample.start
  | .clock now => now.clock = Sample.start
  | _ => True

instance (w : World) : (e : Event) → Decidable (Sample.atStart w e)
  | .call op => inferInstanceAs (Decidable (op.now w.service.clock = Sample.start))
  | .clock now => inferInstanceAs (Decidable (now.clock = Sample.start))
  | .converted _ _ => .isTrue trivial
  | .executed _ _ => .isTrue trivial

theorem Sample.atStart_readings (w : World) (e : Event) (h : Sample.atStart w e) :
    w.Readings e := by
  have hreadable : Sample.start.Readable := ⟨"2024-01-01T00:00:00Z", by decide +kernel⟩
  cases e with
  | call op =>
    have h : op.now w.service.clock = Sample.start := h
    simpa [World.Readings, h] using hreadable
  | clock now =>
    have h : now.clock = Sample.start := h
    simpa [World.Readings, h] using hreadable
  | converted n answer => trivial
  | executed n answer => trivial

/-- A daily limit is replaced by a weekly one. -/
theorem limit_pointer_exact_replaced :
    ∃ w path k, Run .exact World.Readings (w :: path) ∧
      w.service.store.connection? Sample.connection.id = some k ∧
      k.limit = some ⟨Uuid.ofNat 3⟩ ∧
      (∃ l, w.service.store.limit? ⟨Uuid.ofNat 3⟩ = some l ∧ l.isActive = true) ∧
      ∃ l, w.service.store.limit? ⟨Uuid.ofNat 1⟩ = some l ∧ l.isActive = false := by
  obtain ⟨w, path, run, hf⟩ := Run.reaches .exact Sample.atStart ⟨Sample.start, rfl⟩ Uuid.ofNat
    [ Sample.created,
      .call (.updateLimit Sample.connection.id ⟨true, some 50, none, some .weekly⟩ Sample.start) ]
    (fun w _ => (w.service.store.connection? Sample.connection.id,
      (w.service.store.limit? ⟨Uuid.ofNat 1⟩).map (·.connection)))
    (some { Sample.connection with limit := some ⟨Uuid.ofNat 3⟩ }, some Sample.connection.id)
    (by decide +kernel)
  simp only [Prod.mk.injEq] at hf
  obtain ⟨hk, hold⟩ := hf
  obtain ⟨old, hold, howner⟩ := Option.map_eq_some_iff.mp hold
  have hexact := (limit_pointer_exact (run.imp Sample.atStart_readings)).1 _ _ hk
  obtain ⟨l, hl, -, hactive, hothers⟩ := hexact.2.1 ⟨Uuid.ofNat 3⟩ rfl
  exact ⟨w, path, _, run.imp Sample.atStart_readings, hk, rfl, ⟨l, hl, hactive⟩, old, hold,
    hothers _ old hold howner (by decide)⟩

end WalletBudget
