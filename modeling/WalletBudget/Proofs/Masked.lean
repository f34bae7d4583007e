import WalletBudget.Proofs.Progress
import WalletBudget.Service.History
import WalletBudget.Service.LimitChange
import WalletBudget.Service.View
import Mathlib.Data.Option.Basic

/-!
Two runs of the same task, in services that hold different access tokens and nothing else that
differs.

The runs go alike: they stop at the same questions, and end with the same values and in services
that still differ in tokens at most. A value that holds a connection is the same but for the token.
Each way of building a task has a rule for this, and the operations follow from the rules.
-/

namespace WalletBudget

variable {α α' β β' ε : Type}

def Connection.masked (c : Connection) : Connection := { c with accessToken := none }

theorem Connection.masked_cases {k k' : Connection} (h : k.masked = k'.masked) :
    ∃ token, k' = { k with accessToken := token } := by
  obtain ⟨id, currency, limit, token, createdAt⟩ := k'
  refine ⟨token, ?_⟩
  simp only [masked, Connection.mk.injEq] at h ⊢
  exact ⟨h.1.symm, h.2.1.symm, h.2.2.1.symm, trivial, h.2.2.2.2.symm⟩

namespace Store

def masked (s : Store) : Store := { s with connections := s.connections.map Connection.masked }

theorem connection?_masked (s : Store) (id : ConnectionId) :
    s.masked.connection? id = (s.connection? id).map Connection.masked := by
  simp only [connection?, Table.get?, masked, List.find?_map]
  rfl

theorem masked_saveConnection (s : Store) (c : Connection) :
    (s.saveConnection c).masked = s.masked.saveConnection c.masked := by
  have hput : ∀ rows : List Connection, (Table.put Connection.id c rows).map Connection.masked =
      Table.put Connection.id c.masked (rows.map Connection.masked) := by
    intro rows
    induction rows with
    | nil => rfl
    | cons k rest ih =>
      simp only [Table.put, List.map_cons]
      change List.map _ (if k.id = c.id then _ else _) = if k.id = c.id then _ else _
      split
      · rfl
      · rw [List.map_cons, ih]
  simp only [saveConnection, masked, hput]

theorem insertLimit_masked (s : Store) (l : Limit) :
    s.masked.insertLimit l = masked <$> s.insertLimit l := by
  rw [insertLimit, insertLimit, apply_ite (Functor.map masked)]
  rfl

theorem updateLimit_masked (s : Store) (l : Limit) :
    s.masked.updateLimit l = masked <$> s.updateLimit l := by
  rw [updateLimit, updateLimit, apply_ite (Functor.map masked)]
  rfl

theorem insertCycle_masked (s : Store) (c : Cycle) :
    s.masked.insertCycle c = masked <$> s.insertCycle c := by
  rw [insertCycle, insertCycle, apply_ite (Functor.map masked)]
  rfl

end Store

namespace Service

def masked (s : Service) : Service := { s with store := s.store.masked }

def Alike (s t : Service) : Prop := s.masked = t.masked

variable {s t : Service}

theorem Alike.store (h : s.Alike t) : s.store.masked = t.store.masked := congrArg Service.store h

theorem Alike.clock (h : s.Alike t) : s.clock = t.clock :=
  (congrArg (·.clock) (show s.masked = t.masked from h) :)

theorem Alike.next (h : s.Alike t) : s.next = t.next :=
  (congrArg Service.next (show s.masked = t.masked from h) :)

theorem Alike.scan (h : s.Alike t) : s.scan = t.scan :=
  (congrArg Service.scan (show s.masked = t.masked from h) :)

theorem Alike.outages (h : s.Alike t) : s.outages = t.outages :=
  (congrArg Service.outages (show s.masked = t.masked from h) :)

/-- What is alike before stays so under a change that does not look at the connections. -/
theorem Alike.map (h : s.Alike t) (f : Service → Service)
    (hf : ∀ s, (f s).masked = f s.masked) : (f s).Alike (f t) := by
  rw [Alike, hf, hf, h]

theorem Alike.write (h : s.Alike t) {store store' : Store} (hstore : store.masked = store'.masked) :
    (s.write store).Alike (t.write store') := by
  have hwrite : ∀ (s : Service) (store : Store), (s.write store).masked =
      s.masked.write store.masked := fun _ _ => rfl
  rw [Alike, hwrite, hwrite, h, hstore]

end Service

/-- Two values that correspond, or the same error. -/
inductive Both (R : α → β → Prop) : Except ε α → Except ε β → Prop
  | ok {a : α} {b : β} (h : R a b) : Both R (.ok a) (.ok b)
  | error (e : ε) : Both R (.error e) (.error e)

/-- Two runs come to the same question, or both to an end, in services that are alike. They go on
alike from the same answer. -/
inductive Progress.Alike (R : α → β → Prop) : Progress α → Progress β → Prop
  | done {r : Except Abort α} {r' : Except Abort β} {s t : Service} (h : Both R r r')
      (hs : s.Alike t) : Alike R (.done r s) (.done r' t)
  | convert {q : Conversion} {s t : Service} {resume : Except PeerError Int → Service → Progress α}
      {resume' : Except PeerError Int → Service → Progress β} (hs : s.Alike t)
      (h : ∀ answer u v, u.Alike v → Alike R (resume answer u) (resume' answer v)) :
    Alike R (.convert q s resume) (.convert q t resume')

theorem Progress.Alike.service {R : α → β → Prop} {p : Progress α} {p' : Progress β}
    (h : p.Alike R p') : p.service.Alike p'.service := by
  cases h with
  | done _ hs => exact hs
  | convert hs _ => exact hs

/-- Two tasks go alike from services that are alike. -/
def Task.Alike (R : α → β → Prop) (t : Task α) (t' : Task β) : Prop :=
  ∀ s s', Service.Alike s s' → (t s).Alike R (t' s')

theorem Progress.Alike.bind {R : α → β → Prop} {R' : α' → β' → Prop} {p : Progress α}
    {p' : Progress β} {f : α → Service → Progress α'} {f' : β → Service → Progress β'}
    (h : p.Alike R p')
    (hf : ∀ a b s t, R a b → Service.Alike s t → (f a s).Alike R' (f' b t)) :
    (p.bind f).Alike R' (p'.bind f') := by
  induction h with
  | done h hs =>
    cases h with
    | ok h => exact hf _ _ _ _ h hs
    | error e => exact .done (.error e) hs
  | convert hs _ ih => exact .convert hs ih

namespace Task

variable {R : α → β → Prop} {R' : α' → β' → Prop} {t : Task α} {t' : Task β}

/-- Two calls of a store answer alike, and leave stores that are alike. -/
abbrev Answers (R : α → β → Prop) : α × Store → β × Store → Prop :=
  fun r r' => R r.1 r'.1 ∧ r.2.masked = r'.2.masked

/-- A call that does the same with or without tokens. -/
theorem answers_same (run : Store → Except StoreError (α × Store))
    (hrun : ∀ s, run s.masked = (fun r => (r.1, r.2.masked)) <$> run s) {s s' : Store}
    (hs : s.masked = s'.masked) : Both (Answers Eq) (run s) (run s') := by
  have hmap := (hrun s).symm.trans ((congrArg run hs).trans (hrun s'))
  cases hr : run s <;> cases hr' : run s' <;> rw [hr, hr'] at hmap
  · exact Except.error.inj hmap ▸ .error _
  · cases hmap
  · cases hmap
  · exact .ok (Prod.mk.inj (Except.ok.inj hmap))

namespace Alike

theorem bind {f : α → Task α'} {f' : β → Task β'} (h : t.Alike R t')
    (hf : ∀ a b, R a b → (f a).Alike R' (f' b)) : (t >>= f).Alike R' (t' >>= f') :=
  fun s s' hs => (h s s' hs).bind fun a b u v hr huv => hf a b hr u v huv

/-- A task of which both runs come to the same value. -/
theorem bindSame {t' : Task α} {f : α → Task α'} {f' : α → Task β'} (h : t.Alike Eq t')
    (hf : ∀ a, (f a).Alike R' (f' a)) : (t >>= f).Alike R' (t' >>= f') :=
  h.bind fun a _ he => he ▸ hf a

theorem pure {a : α} {b : β} (h : R a b) : (Pure.pure a : Task α).Alike R (Pure.pure b) :=
  fun _ _ hs => .done (.ok h) hs

theorem refuse (e : BudgetError) : (Task.refuse e : Task α).Alike R (Task.refuse e) :=
  fun _ _ hs => .done (.error _) hs

theorem found (e : BudgetError) {a : Option α} {b : Option β} (h : Option.Rel R a b) :
    (Task.found e a).Alike R (Task.found e b) := by
  cases h with
  | some h => exact pure h
  | none => exact refuse e

theorem foundSame (e : BudgetError) (a : Option α) :
    (Task.found e a).Alike Eq (Task.found e a) := by
  cases a with
  | some a => exact pure rfl
  | none => exact refuse e

theorem valid (a : Except ValidationError α) : (Task.valid a).Alike Eq (Task.valid a) := by
  cases a with
  | ok a => exact pure rfl
  | error e => exact refuse _

theorem sound (a : Except Defect α) : (Task.sound a).Alike Eq (Task.sound a) := by
  cases a with
  | ok a => exact pure rfl
  | error d => exact fun _ _ hs => .done (.error _) hs

theorem clock : Task.clock.Alike Eq Task.clock :=
  fun _ _ hs => .done (.ok hs.clock) hs

theorem scan : Task.scan.Alike Eq Task.scan :=
  fun _ _ hs => .done (.ok hs.scan) hs

theorem newId (kind : Kind) : (Task.newId kind).Alike Eq (Task.newId kind) := by
  intro s s' hs
  simp only [Task.newId_run, hs.next]
  exact .done (.ok rfl) (hs.map Service.issue fun _ => rfl)

theorem convert (q : Conversion) : (Task.convert q).Alike Eq (Task.convert q) :=
  fun _ _ hs => .convert hs fun _ _ _ huv => .done (.ok rfl) huv

/-- A store that fails does so in both runs. -/
theorem call (m : StoreMethod) {absent : α} {absent' : β} (habsent : R absent absent')
    {run : Store → Except StoreError (α × Store)} {run' : Store → Except StoreError (β × Store)}
    (hrun : ∀ s s' : Store, s.masked = s'.masked → Both (Answers R) (run s) (run' s')) :
    (Task.call m absent run).Alike (Both R) (Task.call m absent' run') := by
  intro s s' hs
  simp only [Task.call, hs.outages]
  have hleft (outages : List Outage) :
      ({ s with outages } : Service).Alike { s' with outages } :=
    hs.map (fun s => { s with outages }) fun _ => rfl
  split
  · exact .done (.ok (.error _)) (hleft _)
  · exact .done (.ok (.ok habsent)) (hleft _)
  · rename_i outages _
    have hanswers := hrun s.store s'.store hs.store
    cases hr : run s.store <;> cases hr' : run' s'.store <;> rw [hr, hr'] at hanswers <;>
      cases hanswers
    · exact .done (.ok (.error _)) (hleft _)
    · rename_i h
      exact .done (.ok (.ok h.1)) ((hleft outages).write h.2)

theorem stored {t : Task (Except StoreError α)} {t' : Task (Except StoreError β)}
    (h : t.Alike (Both R) t') : (Task.stored t).Alike R (Task.stored t') := by
  refine h.bind fun r r' hr => ?_
  cases hr with
  | ok h => exact pure h
  | error e => exact refuse _

/-- A reading call that finds the same with or without tokens. -/
theorem ask (m : StoreMethod) (absent : α) {run : Store → α}
    (hrun : ∀ s : Store, run s.masked = run s) :
    (Task.ask m absent run).Alike Eq (Task.ask m absent run) :=
  stored (call m rfl fun s s' hs =>
    .ok ⟨by rw [← hrun s, ← hrun s', hs], hs⟩)

/-- Two writing calls that are one call without tokens. -/
theorem tell (m : StoreMethod) {run run' : Store → Except StoreError Store}
    (hrun : ∀ s s' : Store, s.masked = s'.masked →
      Store.masked <$> run s = Store.masked <$> run' s') :
    (Task.tell m run).Alike Eq (Task.tell m run') := by
  refine stored (call m rfl fun s s' hs => ?_)
  have hmap := hrun s s' hs
  cases hr : run s <;> cases hr' : run' s' <;> rw [hr, hr'] at hmap
  · exact Except.error.inj hmap ▸ .error _
  · cases hmap
  · cases hmap
  · exact .ok ⟨rfl, Except.ok.inj hmap⟩

/-- A write of a table without tokens. -/
theorem tellSame (m : StoreMethod) {run : Store → Except StoreError Store}
    (hrun : ∀ s : Store, run s.masked = Store.masked <$> run s) :
    (Task.tell m run).Alike Eq (Task.tell m run) :=
  tell m fun s s' hs => (hrun s).symm.trans ((congrArg run hs).trans (hrun s'))

theorem locked (cycle : CycleId) : (Task.locked cycle).Alike Eq (Task.locked cycle) := by
  have hlock : (Task.lock cycle).Alike (Both Eq) (Task.lock cycle) := by
    refine call .lockCycle rfl fun _ _ => answers_same
      (fun s => (fun c => (some c, s)) <$> s.lockCycle cycle) fun s => ?_
    simp only [Store.lockCycle, Store.cycle?, Store.masked]
    cases Table.get? Cycle.id cycle s.cycles <;> rfl
  exact (stored hlock).bindSame fun c => foundSame _ c

theorem attempt (h : t.Alike R t') : t.attempt.Alike (Both R) t'.attempt := by
  have hattempt : ∀ {p : Progress α} {p' : Progress β}, p.Alike R p' →
      p.attempt.Alike (Both R) p'.attempt := by
    intro p p' h
    induction h with
    | @done r r' s s' h hs =>
      cases h with
      | ok h => exact .done (.ok (.ok h)) hs
      | error e => cases e with
        | refused e => exact .done (.ok (.error e)) hs
        | broken d => exact .done (.error _) hs
    | convert hs _ ih => exact .convert hs ih
  exact fun s s' hs => hattempt (h s s' hs)

end Alike

end Task

namespace Service

open Task.Alike

variable {k k' : Connection} {l : Limit} {now : Instant}

theorem connection_alike (id : ConnectionId) :
    (connection id).Alike (fun k k' => k.masked = k'.masked) (connection id) := by
  have hfind : ∀ s s' : Store, s.masked = s'.masked →
      Option.Rel (fun k k' : Connection => k.masked = k'.masked)
        (s.connection? id) (s'.connection? id) := by
    intro s s' hs
    have hmap := congrArg (Store.connection? · id) hs
    simp only [Store.connection?_masked] at hmap
    cases hk : s.connection? id <;> cases hk' : s'.connection? id <;> rw [hk, hk'] at hmap
    · exact .none
    · cases hmap
    · cases hmap
    · exact .some (Option.some.inj hmap)
  refine (stored (call .connection .none fun s s' hs => .ok ⟨hfind s s' hs, hs⟩)).bind ?_
  exact fun _ _ h => found _ h

theorem activeLimit_alike (hk : k.masked = k'.masked) :
    (activeLimit k).Alike Eq (activeLimit k') := by
  obtain ⟨token, rfl⟩ := Connection.masked_cases hk
  unfold activeLimit
  cases k.limit with
  | none => exact pure rfl
  | some id =>
    exact (ask _ _ fun _ => rfl).bindSame fun l => (foundSame _ l).bindSame fun _ => pure rfl

theorem openCycle_alike (l : Limit) (start : Instant) :
    (openCycle l start).Alike Eq (openCycle l start) := by
  refine (newId _).bindSame fun id => (sound _).bindSame fun c => ?_
  have hinsert : (Task.call .insertCycle () fun s => (fun s => ((), s)) <$> s.insertCycle c).Alike
      (Both Eq) (Task.call .insertCycle () fun s => (fun s => ((), s)) <$> s.insertCycle c) := by
    refine call .insertCycle rfl fun _ _ => Task.answers_same
      (fun s => (fun s => ((), s)) <$> s.insertCycle c) fun s => ?_
    rw [Store.insertCycle_masked]
    cases s.insertCycle c <;> rfl
  refine hinsert.bind fun r r' hr => ?_
  cases hr with
  | ok _ => exact pure rfl
  | error e =>
    cases e with
    | uniqueViolation what => exact (ask _ _ fun _ => rfl).bindSame fun _ => foundSame _ _
    | notFound what => exact refuse _
    | backend reason => exact refuse _

theorem currentCycle_alike (l : Limit) (now : Instant) :
    (currentCycle l now).Alike Eq (currentCycle l now) := by
  have hopen : (Task.sound (l.periodStart now) >>= openCycle l).Alike Eq
      (Task.sound (l.periodStart now) >>= openCycle l) :=
    (sound _).bindSame fun start => openCycle_alike l start
  refine (ask _ _ fun _ => rfl).bindSame fun latest => ?_
  split
  · split
    · exact hopen
    · exact pure rfl
  · exact hopen

theorem rewriteLiveCycle_alike (limit : LimitId) (now : Instant) (change : Cycle → Cycle) :
    (rewriteLiveCycle limit now change).Alike Eq (rewriteLiveCycle limit now change) := by
  refine (ask _ _ fun _ => rfl).bindSame fun latest => ?_
  cases latest with
  | none => exact pure rfl
  | some latest =>
    cases hended : latest.hasEnded now with
    | true =>
      simp only [hended, if_true]
      exact pure rfl
    | false =>
      simp only [hended]
      exact (locked _).bindSame fun c => tellSame _ fun _ => rfl

theorem saveConnection_alike (hk : k.masked = k'.masked) :
    (Task.tell .saveConnection fun s => .ok (s.saveConnection k)).Alike Eq
      (Task.tell .saveConnection fun s => .ok (s.saveConnection k')) := by
  refine tell _ fun s s' hs => congrArg Except.ok ?_
  rw [Store.masked_saveConnection, Store.masked_saveConnection, hk, hs]

theorem startLimit_alike (hk : k.masked = k'.masked) (currency : Currency) (amount : Int)
    (frequency : Frequency) (now : Instant) :
    (startLimit k currency amount frequency now).Alike Eq
      (startLimit k' currency amount frequency now) := by
  obtain ⟨token, rfl⟩ := Connection.masked_cases hk
  refine (newId _).bindSame fun id => (valid _).bindSame fun l => ?_
  refine (tellSame _ fun s => s.insertLimit_masked l).bindSame fun _ => ?_
  refine (currentCycle_alike l now).bindSame fun _ => ?_
  exact (saveConnection_alike (by rfl)).bindSame fun _ => pure rfl

theorem endLimit_alike (l : Limit) (now : Instant) :
    (endLimit l now).Alike Eq (endLimit l now) :=
  (tellSame _ fun s => s.updateLimit_masked (l.deactivate now)).bindSame fun _ =>
    (rewriteLiveCycle_alike _ _ _).bindSame fun _ => pure rfl

theorem disableLimit_alike (hk : k.masked = k'.masked) (active : Option Limit) (now : Instant) :
    (disableLimit k active now).Alike Eq (disableLimit k' active now) := by
  obtain ⟨token, rfl⟩ := Connection.masked_cases hk
  cases active with
  | none => exact pure rfl
  | some l =>
    exact (endLimit_alike l now).bindSame fun _ =>
      (saveConnection_alike (by rfl)).bindSame fun _ => pure rfl

theorem changeAmount_alike (l : Limit) (amount : Int) (now : Instant) :
    (changeAmount l amount now).Alike Eq (changeAmount l amount now) := by
  unfold changeAmount
  split
  · exact pure rfl
  · exact (rewriteLiveCycle_alike _ _ _).bindSame fun _ =>
      (tellSame _ fun s => s.updateLimit_masked { l with amount }).bindSame fun _ => pure rfl

theorem enableLimit_alike (hk : k.masked = k'.masked) (active : Option Limit) (u : LimitUpdate)
    (now : Instant) : (enableLimit k active u now).Alike Eq (enableLimit k' active u now) := by
  obtain ⟨token, rfl⟩ := Connection.masked_cases hk
  refine (valid _).bindSame fun amount => ?_
  cases active with
  | none =>
    exact (startLimit_alike hk _ _ _ _).bindSame fun _ => pure rfl
  | some l =>
    dsimp only
    split
    · exact changeAmount_alike _ _ _
    · exact (endLimit_alike _ _).bindSame fun _ =>
        (startLimit_alike hk _ _ _ _).bindSame fun _ => pure rfl

theorem updateLimit_alike (id : ConnectionId) (u : LimitUpdate) (now : Instant) :
    (updateLimit id u now).Alike Eq (updateLimit id u now) := by
  refine (connection_alike id).bind fun k k' hk => (activeLimit_alike hk).bindSame fun active => ?_
  cases u.enabled with
  | true => exact enableLimit_alike hk active u now
  | false => exact disableLimit_alike hk active now

/-- Two connections that are created alike, whatever their tokens are. -/
theorem createConnection_alike (currency : Currency) (token token' : Option String)
    (limit : Option LimitUpdate) (now : Instant) :
    (createConnection currency token limit now).Alike (fun k k' => k.masked = k'.masked)
      (createConnection currency token' limit now) := by
  refine (newId _).bindSame fun id => ?_
  dsimp only
  refine (saveConnection_alike (by rfl)).bindSame fun _ => ?_
  cases limit with
  | none => exact pure rfl
  | some u =>
    dsimp only
    split
    · exact (updateLimit_alike _ _ _).bindSame fun _ => connection_alike _
    · exact pure rfl

theorem budgetView_alike (hk : k.masked = k'.masked) :
    (budgetView k).Alike Eq (budgetView k') := by
  refine (activeLimit_alike hk).bindSame fun active => ?_
  cases active with
  | none => exact pure rfl
  | some l =>
    refine Task.Alike.clock.bindSame fun now => (currentCycle_alike l now).bindSame fun c =>
      (sound _).bindSame fun left => ?_
    split
    · exact pure rfl
    · refine (convert _).bindSame fun answer => ?_
      cases answer with
      | error e => exact refuse _
      | ok sats =>
        dsimp only
        split
        · exact refuse _
        · exact pure rfl

theorem limitHistory_alike (id : ConnectionId) : (limitHistory id).Alike Eq (limitHistory id) := by
  refine (connection_alike id).bind fun k k' hk => ?_
  obtain ⟨token, rfl⟩ := Connection.masked_cases hk
  exact Task.Alike.scan.bindSame fun _ => ask _ _ fun _ => rfl

theorem payments_alike (id : ConnectionId) (most : Nat) :
    (payments id most).Alike Eq (payments id most) := by
  refine (connection_alike id).bind fun k k' hk => ?_
  obtain ⟨token, rfl⟩ := Connection.masked_cases hk
  exact Task.Alike.scan.bindSame fun _ => ask _ _ fun _ => rfl

end Service

end WalletBudget
