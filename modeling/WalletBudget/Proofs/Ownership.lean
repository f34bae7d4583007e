import WalletBudget.Proofs.Share

/-!
Whose the rows are, write by write.

Inside an operation the tables do not always fit together: the first cycle of a limit is written
before its connection points to it. But in every moment each row is of one connection, and a write
for a connection leaves the rows of the others alone.
-/

namespace WalletBudget

namespace Service

/-- Every row is of one connection: a cycle by its limit, and a payment by its cycle as well as in
itself. -/
structure Owned (s : Service) : Prop where
  quiet : s.outages = []
  limits : Table.Distinct Limit.id s.store.limits
  cycles : Table.Distinct Cycle.id s.store.cycles
  payments : Table.Distinct Payment.id s.store.payments
  limitIssued : ∀ id l, s.store.limit? id = some l → s.Issued id.uuid
  cycleIssued : ∀ id c, s.store.cycle? id = some c → s.Issued id.uuid
  paymentIssued : ∀ id p, s.store.payment? id = some p → s.Issued id.uuid
  cycleOwner : ∀ c ∈ s.store.cycles, ∃ x, s.store.owner? c.limit = some x
  startOwner : ∀ entry ∈ s.store.cycleStarts, ∃ x, s.store.owner? entry.limit = some x
  indexed : ∀ limit start entry, s.store.startOf? limit start = some entry →
    ∃ c, s.store.cycle? entry.cycle = some c ∧ c.limit = limit
  pointer : ∀ id k limit, s.store.connection? id = some k → k.limit = some limit →
    s.store.owner? limit = some id
  paymentOwner : ∀ id p cycle, s.store.payment? id = some p → p.cycle = some cycle →
    s.store.cycleOwner? cycle = some p.connection

/-- What a task for one connection does to a service: it takes so many identifiers at most, and the
rows of all other connections stay as they are. -/
structure LocalTo (owner : ConnectionId) (n : Nat) (s t : Service) : Prop where
  owned : Owned t
  others : ∀ x, x ≠ owner → t.store.share x = s.store.share x
  owners : ∀ limit x, s.store.owner? limit = some x → t.store.owner? limit = some x
  cycleOwners : ∀ cycle x, s.store.cycleOwner? cycle = some x →
    t.store.cycleOwner? cycle = some x
  payments : ∀ id p, s.store.payment? id = some p →
    ∃ q, t.store.payment? id = some q ∧ q.connection = p.connection ∧ q.cycle = p.cycle
  clock : t.clock = s.clock
  ids : t.ids = s.ids
  issued : s.issued ≤ t.issued ∧ t.issued ≤ s.issued + n

variable {policy : HoldPolicy} {steady final : Prop} {now : Instant} {s t u : Service}
  {owner : ConnectionId} {n m : Nat} {k : Connection} {l : Limit} {c : Cycle} {p : Payment}

theorem LocalTo.refl (hs : Owned s) (owner : ConnectionId) : LocalTo owner 0 s s where
  owned := hs
  others _ _ := rfl
  owners _ _ := id
  cycleOwners _ _ := id
  payments _ p hp := ⟨p, hp, rfl, rfl⟩
  clock := rfl
  ids := rfl
  issued := ⟨Nat.le_refl _, Nat.le_refl _⟩

theorem LocalTo.trans (h : LocalTo owner n s t) (h' : LocalTo owner m t u) :
    LocalTo owner (n + m) s u where
  owned := h'.owned
  others x hx := (h'.others x hx).trans (h.others x hx)
  owners limit x hx := h'.owners limit x (h.owners limit x hx)
  cycleOwners cycle x hx := h'.cycleOwners cycle x (h.cycleOwners cycle x hx)
  payments id p hp := by
    obtain ⟨q, hq, hconnection, hcycle⟩ := h.payments id p hp
    obtain ⟨q', hq', hconnection', hcycle'⟩ := h'.payments id q hq
    exact ⟨q', hq', hconnection'.trans hconnection, hcycle'.trans hcycle⟩
  clock := h'.clock.trans h.clock
  ids := h'.ids.trans h.ids
  issued := by
    have hfirst := h.issued
    have hsecond := h'.issued
    omega

theorem LocalTo.most (h : LocalTo owner n s t) (hle : n ≤ m) : LocalTo owner m s t :=
  { h with issued := ⟨h.issued.1, by have := h.issued.2; omega⟩ }

namespace Owned

theorem issue (hs : Owned s) : Owned s.issue :=
  have hissued : ∀ {v}, s.Issued v → s.issue.Issued v := fun ⟨i, hi, he⟩ =>
    ⟨i, Nat.lt_succ_of_lt hi, he⟩
  { hs with
    limitIssued := fun id l hl => hissued (hs.limitIssued id l hl)
    cycleIssued := fun id c hc => hissued (hs.cycleIssued id c hc)
    paymentIssued := fun id p hp => hissued (hs.paymentIssued id p hp) }

theorem save (hs : Owned s)
    (htarget : ∀ limit, k.limit = some limit → s.store.owner? limit = some k.id) :
    Owned (s.write (s.store.saveConnection k)) := by
  refine { hs with pointer := fun id k' limit hk' hp => ?_ }
  by_cases hid : k.id = id
  · obtain rfl : k = k' := by simpa [hid] using hk'
    exact hid ▸ htarget limit hp
  · exact hs.pointer id k' limit (by simpa [hid] using hk') hp

theorem file (hs : Owned s) (hissued : s.Issued l.id.uuid)
    (hold : ∀ old, s.store.limit? l.id = some old → old.connection = l.connection) :
    Owned (s.write (s.store.fileLimit l)) := by
  have howner : ∀ {limit x}, s.store.owner? limit = some x →
      (s.store.fileLimit l).owner? limit = some x := Store.owner?_fileLimit_of_some hold
  refine { hs with
    limits := hs.limits.put l, limitIssued := fun id l' hl' => ?_
    cycleOwner := fun c hc => (hs.cycleOwner c hc).imp fun _ => howner
    startOwner := fun entry he => (hs.startOwner entry he).imp fun _ => howner
    pointer := fun id k limit hk hp => howner (hs.pointer id k limit hk hp)
    paymentOwner := fun id p cycle hp hcycle => ?_ }
  · by_cases hid : l.id = id
    · exact hid ▸ hissued
    · exact hs.limitIssued id l' (by simpa [hid] using hl')
  · obtain ⟨c, hc, hlimit⟩ := Store.cycleOwner?_some.mp (hs.paymentOwner id p cycle hp hcycle)
    exact Store.cycleOwner?_some.mpr ⟨c, hc, howner hlimit⟩

/-- The owner of a cycle stays when the row of one is written that is new or keeps its limit. -/
theorem cycleOwner?_fileCycle
    (hold : ∀ old, s.store.cycle? c.id = some old → old.limit = c.limit) {cycle : CycleId}
    {x : ConnectionId} (h : s.store.cycleOwner? cycle = some x) :
    (s.store.fileCycle c).cycleOwner? cycle = some x := by
  obtain ⟨old, hc, hlimit⟩ := Store.cycleOwner?_some.mp h
  by_cases hid : c.id = cycle
  · refine Store.cycleOwner?_some.mpr ⟨c, by simp [hid], ?_⟩
    rw [← hold old (hid ▸ hc)]
    exact hlimit
  · exact Store.cycleOwner?_some.mpr ⟨old, by simpa [hid] using hc, hlimit⟩

theorem fileCycle (hs : Owned s) (hissued : s.Issued c.id.uuid)
    (hold : ∀ old, s.store.cycle? c.id = some old → old.limit = c.limit)
    (howner : ∃ x, s.store.owner? c.limit = some x) : Owned (s.write (s.store.fileCycle c)) := by
  refine { hs with
    cycles := hs.cycles.put c, cycleIssued := fun id d hd => ?_, cycleOwner := fun d hd => ?_
    indexed := fun limit start entry he => ?_
    paymentOwner := fun id p cycle hp hcycle =>
      cycleOwner?_fileCycle hold (hs.paymentOwner id p cycle hp hcycle) }
  · by_cases hid : c.id = id
    · exact hid ▸ hissued
    · exact hs.cycleIssued id d (by simpa [hid] using hd)
  · rcases Table.mem_put hd with rfl | hd
    · exact howner
    · exact hs.cycleOwner d hd
  · obtain ⟨d, hd, hlimit⟩ := hs.indexed limit start entry he
    by_cases hid : c.id = entry.cycle
    · exact ⟨c, by simp [hid], (hold d (hid ▸ hd)).symm.trans hlimit⟩
    · exact ⟨d, by simpa [hid] using hd, hlimit⟩

theorem openCycle (hs : Owned s) (hissued : s.Issued c.id.uuid)
    (hnew : s.store.cycle? c.id = none) (howner : ∃ x, s.store.owner? c.limit = some x) :
    Owned (s.write ((s.store.indexCycle c).fileCycle c)) := by
  have hfiled := hs.fileCycle hissued (by simp [hnew]) howner
  refine { hfiled with startOwner := fun entry he => ?_, indexed := fun limit start entry he => ?_ }
  · rcases Table.mem_put he with rfl | he
    · exact howner
    · exact hs.startOwner entry he
  · by_cases hkey : c.limit = limit ∧ c.start = start
    · obtain rfl : _ = entry := by simpa [hkey] using he
      exact ⟨c, by simp, hkey.1⟩
    · exact hfiled.indexed limit start entry (by simpa [hkey] using he)

theorem record (hs : Owned s) (hissued : s.Issued p.id.uuid)
    (howner : ∀ cycle, p.cycle = some cycle → s.store.cycleOwner? cycle = some p.connection) :
    Owned (s.write (s.store.filePayment p)) := by
  refine { hs with
    payments := hs.payments.put p, paymentIssued := fun id q hq => ?_
    paymentOwner := fun id q cycle hq hcycle => ?_ }
  · by_cases hid : p.id = id
    · exact hid ▸ hissued
    · exact hs.paymentIssued id q (by simpa [hid] using hq)
  · by_cases hid : p.id = id
    · obtain rfl : p = q := by simpa [hid] using hq
      exact howner cycle hcycle
    · exact hs.paymentOwner id q cycle (by simpa [hid] using hq) hcycle

end Owned

namespace LocalTo

theorem issue (hs : Owned s) : LocalTo owner 1 s s.issue :=
  { refl hs owner with owned := hs.issue, issued := ⟨Nat.le_succ _, Nat.le_refl _⟩ }

theorem save (hs : Owned s) (hid : k.id = owner)
    (htarget : ∀ limit, k.limit = some limit → s.store.owner? limit = some owner) :
    LocalTo owner 0 s (s.write (s.store.saveConnection k)) := by
  refine { refl hs owner with owned := hs.save (hid ▸ htarget), others := fun x hx => ?_ }
  rw [write_store, Store.share_saveConnection, if_neg (hid ▸ hx.symm)]

theorem file (hs : Owned s) (hl : l.connection = owner) (hissued : s.Issued l.id.uuid)
    (hold : ∀ old, s.store.limit? l.id = some old → old.connection = owner) :
    LocalTo owner 0 s (s.write (s.store.fileLimit l)) := by
  rw [← hl] at hold
  refine { refl hs owner with
    owned := hs.file hissued hold, others := fun x hx => ?_
    owners := fun limit x => Store.owner?_fileLimit_of_some hold
    cycleOwners := fun cycle x h => ?_ }
  · rw [write_store, Store.share_fileLimit hs.limits hs.cycleOwner hs.startOwner hold,
      if_neg (hl ▸ hx.symm)]
  · obtain ⟨c, hc, hlimit⟩ := Store.cycleOwner?_some.mp h
    exact Store.cycleOwner?_some.mpr ⟨c, hc, Store.owner?_fileLimit_of_some hold hlimit⟩

theorem fileCycle (hs : Owned s) (hc : s.store.owner? c.limit = some owner)
    (hissued : s.Issued c.id.uuid)
    (hold : ∀ old, s.store.cycle? c.id = some old → old.limit = c.limit) :
    LocalTo owner 0 s (s.write (s.store.fileCycle c)) := by
  refine { refl hs owner with
    owned := hs.fileCycle hissued hold ⟨owner, hc⟩, others := fun x hx => ?_
    cycleOwners := fun _ _ => Owned.cycleOwner?_fileCycle hold }
  rw [write_store, Store.share_fileCycle hs.cycles fun old h => by rw [hold old h],
    if_neg (by simpa [hc] using hx.symm)]

theorem openCycle (hs : Owned s) (hc : s.store.owner? c.limit = some owner)
    (hissued : s.Issued c.id.uuid) (hnew : s.store.cycle? c.id = none) :
    LocalTo owner 0 s (s.write ((s.store.indexCycle c).fileCycle c)) := by
  have hfiled := fileCycle hs hc hissued (by simp [hnew])
  refine { hfiled with owned := hs.openCycle hissued hnew ⟨owner, hc⟩, others := fun x hx => ?_ }
  rw [write_store, Store.share_openCycle hs.cycles hnew, if_neg (by simpa [hc] using hx.symm)]

theorem record (hs : Owned s) (hp : p.connection = owner) (hissued : s.Issued p.id.uuid)
    (hold : ∀ old, s.store.payment? p.id = some old →
      old.connection = owner ∧ old.cycle = p.cycle)
    (howner : ∀ cycle, p.cycle = some cycle → s.store.cycleOwner? cycle = some owner) :
    LocalTo owner 0 s (s.write (s.store.filePayment p)) := by
  refine { refl hs owner with
    owned := hs.record hissued (hp ▸ howner), others := fun x hx => ?_
    payments := fun id q hq => ?_ }
  · rw [write_store, Store.share_filePayment hs.payments
      fun old h => (hold old h).1.trans hp.symm, if_neg (hp ▸ hx.symm)]
  · by_cases hid : p.id = id
    · obtain ⟨hconnection, hcycle⟩ := hold q (hid ▸ hq)
      exact ⟨p, by simp [hid], hp.trans hconnection.symm, hcycle.symm⟩
    · exact ⟨q, by simpa [hid] using hq, rfl, rfl⟩

end LocalTo

end Service

open Service

variable {policy : HoldPolicy} {rule : World → Event → Prop} {steady final : Prop} {now : Instant}
  {s t : Service} {w : World} {path : List World}

namespace Service.Owned

theorem deactivate {l : Limit} (h : Owned s) (hl : s.store.limit? l.id = some l) (now : Instant) :
    Owned (s.write (s.store.fileLimit (l.deactivate now))) := by
  refine h.file (by simpa using h.limitIssued _ _ hl) fun old hold => ?_
  obtain rfl : l = old := Option.some.inj (hl.symm.trans (by simpa using hold))
  exact (deactivate_follows l now).connection.symm

theorem write (hs : Coherent s) (h : Owned s) (hw : Write final now s t) (ht : t.FreshIds) :
    Owned t := by
  cases hw with
  | issue => exact h.issue
  | connect k hid hnone => exact h.issue.save (by simp [hnone])
  | point k limit hk htarget =>
    refine h.save (k := { k with limit }) fun id hid => ?_
    obtain ⟨l, hl, hconnection⟩ := htarget id hid
    exact Store.owner?_some.mpr ⟨l, hl, hconnection⟩
  | begin l hid =>
    refine h.issue.file (hid ▸ s.next_issued) fun old hold => ?_
    rw [issue_store, hs.newLimit ht hid] at hold
    cases hold
  | reprice l amount hl =>
    refine h.file (l := { l with amount }) (h.limitIssued _ _ hl) fun old hold => ?_
    rw [Option.some.inj (hold.symm.trans hl)]
  | repriceLive l c amount hl _ _ hc =>
    obtain ⟨hstored, hlimit, -⟩ := hs.latest hc
    have hcycle : Owned (s.write (s.store.fileCycle { c with limitAmount := amount })) := by
      refine h.fileCycle (h.cycleIssued _ _ hstored) (fun old hold => ?_) ⟨l.connection, ?_⟩
      · rw [Option.some.inj (hold.symm.trans hstored)]
      · exact Store.owner?_some.mpr ⟨l, hlimit ▸ hl, rfl⟩
    refine hcycle.file (l := { l with amount }) (h.limitIssued _ _ hl) fun old hold => ?_
    rw [Option.some.inj (Eq.trans hold.symm hl)]
  | retire l hl => exact h.deactivate hl now
  | close l c hl _ hc =>
    obtain ⟨hstored, hlimit, -⟩ := hs.latest hc
    have hended := h.deactivate hl now
    refine hended.fileCycle (by simpa using h.cycleIssued _ _ hstored) (fun old hold => ?_) ?_
    · obtain rfl : c = old := Option.some.inj (hstored.symm.trans (by simpa using hold))
      exact (endAt_follows c now).limit.symm
    · rw [(endAt_follows c now).limit]
      exact hended.cycleOwner c (Store.cycle?_mem hstored)
  | opened l c start hl _ _ _ hc =>
    obtain ⟨finish, rfl⟩ := createCycle_fresh hc
    exact h.issue.openCycle s.next_issued (hs.newCycle ht rfl)
      ⟨l.connection, Store.owner?_some.mpr ⟨l, hl, rfl⟩⟩
  | record p hid _ hnone => exact h.issue.record (hid ▸ s.next_issued) (by simp [hnone])
  | complete e p hp _ hnone =>
    exact h.record (p := e.mark p now) (by simpa using h.paymentIssued _ _ hp) (by simp [hnone])

theorem placed {c : Cycle} {p : Payment} {hold : Int} (h : Owned s)
    (hp : Placed policy s c p hold t) (ht : t.FreshIds) : Owned t := by
  obtain ⟨l, hl, hconnection⟩ := hp.owner ht
  have howner : s.store.owner? c.limit = some p.connection :=
    Store.owner?_some.mpr ⟨l, hl, hconnection⟩
  have hissued : s.issue.Issued c.id.uuid := h.issue.cycleIssued _ c hp.cycle
  rw [hp.written]
  refine (h.issue.fileCycle (c := { c with held := c.held + hold }) hissued ?_ ⟨_, howner⟩).record
    (hp.id ▸ s.next_issued) fun cycle hcycle => ?_
  · intro old hold
    rw [Option.some.inj (hold.symm.trans hp.cycle)]
  · obtain rfl : c.id = cycle := Option.some.inj (hp.linked.symm.trans hcycle)
    exact Store.cycleOwner?_some.mpr ⟨{ c with held := c.held + hold }, by simp, howner⟩

theorem ended {e : Ending} {c c' : Cycle} {p : Payment} (h : Owned s)
    (hp : Ended e now s c p c' t) : Owned t := by
  have hfields := apply_ok hp.applied
  have hid : c'.id = c.id := by rw [hfields]
  have hlimit : c'.limit = c.limit := by rw [hfields]
  have hold : ∀ old, s.store.cycle? c'.id = some old → old.limit = c'.limit := by
    intro old hold
    rw [hid] at hold
    rw [hlimit, Option.some.inj (hold.symm.trans hp.cycle)]
  have hstored := Store.cycle?_mem hp.cycle
  rw [hp.written]
  refine (h.fileCycle (hid ▸ h.cycleIssued _ c hp.cycle) hold
    (hlimit ▸ h.cycleOwner c hstored)).record (by simpa using h.paymentIssued _ p hp.payment)
      fun cycle hcycle => ?_
  have howner := h.paymentOwner _ p cycle hp.payment (by simpa using hcycle)
  rw [mark_connection]
  exact cycleOwner?_fileCycle hold howner

theorem stretch (hs : Coherent s) (h : Owned s) (hst : Stretch policy final now s t)
    (ht : t.FreshIds) : Owned t :=
  hst.keeps hs ht h (fun _ _ ha hw hb h => h.write ha hw hb)
    (fun _ _ _ _ _ hp h => h.placed hp ht) fun _ _ _ _ _ _ hp h => h.ended hp

end Service.Owned

/-- In every state of every run each row is of one connection. -/
theorem Run.owned (run : Run policy rule (w :: path)) : Owned w.service := by
  refine run.holds False (fun _ _ _ h => h.elim) ?_ ?_
  · intro clock ids scan
    exact {
      quiet := rfl, limits := List.nodup_nil, cycles := List.nodup_nil, payments := List.nodup_nil
      limitIssued := by intro _ _ h; cases h
      cycleIssued := by intro _ _ h; cases h
      paymentIssued := by intro _ _ h; cases h
      cycleOwner := by intro _ h; cases h
      startOwner := by intro _ h; cases h
      indexed := by intro _ _ _ h; cases h
      pointer := by intro _ _ _ h; cases h
      paymentOwner := by intro _ _ _ h; cases h }
  · intro s t hs ht hchange h
    cases hchange with
    | clock time _ htick =>
      subst htick
      exact { h with }
    | work time _ hst => exact h.stretch hs hst ht

end WalletBudget
