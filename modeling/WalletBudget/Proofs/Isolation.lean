import WalletBudget.Proofs.ConfinedTasks

/-!
Operations for two connections do not meet.

Whichever of them goes first, each answers as it would alone, and the same rows are left. They are
given their new identifiers from outside, so that it does not matter which one takes them first.
Only the order that a history gives to rows of one time is left open: it comes from the order of the
whole table, which the rows of another connection may change.
-/

namespace WalletBudget

/-- Two answers on the rows of a connection that differ at most in the order of rows of one time,
and in which of those a page has at its cut. -/
inductive SameAnswer (rows : Store) : Except Abort Reply → Except Abort Reply → Prop
  | same (r : Except Abort Reply) : SameAnswer rows r r
  | limits {ls ls' : List Limit} (h : Listing Limit.id Limit.start rows.limits ls)
      (h' : Listing Limit.id Limit.start rows.limits ls') :
    SameAnswer rows (.ok (.limits ls)) (.ok (.limits ls'))
  | payments {ps ps' : List Payment} {most : Nat}
      (h : Page Payment.id Payment.createdAt rows.payments most ps)
      (h' : Page Payment.id Payment.createdAt rows.payments most ps') :
    SameAnswer rows (.ok (.payments ps)) (.ok (.payments ps'))

/-- The connection that an operation is for; a new one has the next identifier. -/
def Operation.owner (next : Uuid) : Operation → ConnectionId
  | .createConnection _ _ _ _ => ⟨next⟩
  | .connection id => id
  | .updateLimit id _ _ => id
  | .reserve k _ _ => k.id
  | .finalizeSuccess p _ => p.connection
  | .finalizeFailure p => p.connection
  | .pay k _ _ => k.id
  | .budgetView k => k.id
  | .limitHistory id => id
  | .payments id _ => id
  | .currentCycle l _ => l.connection

def Operation.lists : Operation → Bool
  | .limitHistory _ => true
  | .payments _ _ => true
  | _ => false

namespace Service

def supplied (s : Service) (ids : Nat → Uuid) : Service :=
  { s with ids := fun i => if i < s.issued then s.ids i else ids (i - s.issued) }

/-- Runs an operation to its end, with given identifiers for what it sets up. -/
def perform (policy : HoldPolicy) (peers : Peers) (ids : Nat → Uuid) (op : Operation)
    (s : Service) : Except Abort Reply × Service :=
  (op.task policy).exec peers (s.supplied ids)

/-- Identifiers for one operation, which takes four at most: they differ, and none was issued. -/
structure Supply (ids : Nat → Uuid) (s : Service) : Prop where
  distinct : ∀ i < 4, ∀ j < 4, ids i = ids j → i = j
  unissued : ∀ i < 4, ¬ s.Issued (ids i)

instance (ids : Nat → Uuid) (s : Service) : Decidable (Supply ids s) :=
  have : Decidable (∀ i < 4, ¬ s.Issued (ids i)) :=
    inferInstanceAs (Decidable (∀ i < 4, ¬ ∃ j < s.issued, s.ids j = ids i))
  decidable_of_iff (_ ∧ _) ⟨fun h => ⟨h.1, h.2⟩, fun h => ⟨h.distinct, h.unissued⟩⟩

variable {policy : HoldPolicy} {peers : Peers} {owner : ConnectionId} {n : Nat} {s t : Service}
  {ids ids' : Nat → Uuid} {v : Uuid}

theorem issued_supplied : (s.supplied ids).Issued v ↔ s.Issued v := by
  refine exists_congr fun i => and_congr_right fun hi => ?_
  simp only [supplied, if_pos (show i < s.issued from hi)]

theorem supplied_ids (s : Service) (ids : Nat → Uuid) (i : Nat) :
    (s.supplied ids).ids ((s.supplied ids).issued + i) = ids i := by
  simp [supplied]

theorem next_supplied (s : Service) (ids : Nat → Uuid) : (s.supplied ids).next = ids 0 :=
  supplied_ids s ids 0

theorem Owned.supplied (hs : Owned s) (ids : Nat → Uuid) : Owned (s.supplied ids) :=
  { hs with
    limitIssued := fun id l hl => issued_supplied.mpr (hs.limitIssued id l hl)
    cycleIssued := fun id c hc => issued_supplied.mpr (hs.cycleIssued id c hc)
    paymentIssued := fun id p hp => issued_supplied.mpr (hs.paymentIssued id p hp) }

theorem Supply.fresh (h : Supply ids s) (hs : s.FreshIds) : Fresh 4 (s.supplied ids) := by
  -- an identifier is an old one or one of the four, and these two are kept apart
  have hold : ∀ i < s.issued, (s.supplied ids).ids i = s.ids i := fun i hi => if_pos hi
  have hnew : ∀ i, s.issued ≤ i → (s.supplied ids).ids i = ids (i - s.issued) := fun i hi =>
    if_neg (Nat.not_lt.mpr hi)
  intro i hi j hj he
  have hbound : (s.supplied ids).issued = s.issued := rfl
  rcases Nat.lt_or_ge i s.issued with hi' | hi' <;> rcases Nat.lt_or_ge j s.issued with hj' | hj'
  · rw [hold i hi', hold j hj'] at he
    exact hs i hi' j hj' he
  · rw [hold i hi', hnew j hj'] at he
    exact absurd ⟨i, hi', he⟩ (h.unissued (j - s.issued) (by omega))
  · rw [hnew i hi', hold j hj'] at he
    exact absurd ⟨j, hj', he.symm⟩ (h.unissued (i - s.issued) (by omega))
  · rw [hnew i hi', hnew j hj'] at he
    have hsame := h.distinct _ (by omega) _ (by omega) he
    omega

/-- What was issued after an operation was issued before it, or is one of its four. -/
theorem LocalTo.issuedOf (h : LocalTo owner 4 (s.supplied ids) t) (hv : t.Issued v) :
    s.Issued v ∨ ∃ i < 4, ids i = v := by
  obtain ⟨i, hi, he⟩ := hv
  have hissued : t.issued ≤ s.issued + 4 := h.issued.2
  rw [h.ids] at he
  by_cases hold : i < s.issued
  · exact .inl (issued_supplied.mp ⟨i, hold, he⟩)
  · exact .inr ⟨i - s.issued, by omega, (if_neg hold).symm.trans he⟩

theorem Supply.after (h : Supply ids' s) (hst : LocalTo owner 4 (s.supplied ids) t)
    (hapart : ∀ i < 4, ∀ j < 4, ids i ≠ ids' j) : Supply ids' t where
  distinct := h.distinct
  unissued i hi hissued := by
    rcases hst.issuedOf hissued with hold | ⟨j, hj, he⟩
    · exact h.unissued i hi hold
    · exact hapart j hj i hi he

end Service

open Service

variable {policy : HoldPolicy} {rule : World → Event → Prop} {peers : Peers}
  {owner : ConnectionId} {n : Nat} {s t : Service} {ids ids' : Nat → Uuid} {op a b : Operation}
  {w : World} {path : List World}

/-- An operation that lists the rows of a connection writes nothing. In services that have the same
of those rows it lists the same ones. -/
theorem Operation.lists_alike (hop : op.lists = true) (hs : Owned s) (ht : Owned t) {v : Uuid}
    (hshare : s.store.share (op.owner v) = t.store.share (op.owner v)) (policy : HoldPolicy)
    (peers : Peers) :
    SameAnswer (s.store.share (op.owner v)) ((op.task policy).exec peers s).1
        ((op.task policy).exec peers t).1 ∧
      ((op.task policy).exec peers s).2 = s ∧ ((op.task policy).exec peers t).2 = t := by
  have hconnection : s.store.connection? (op.owner v) = t.store.connection? (op.owner v) := by
    rw [← s.store.connection?_share, hshare, Store.connection?_share]
  cases op with
  | limitHistory id =>
    have hk : s.store.connection? id = t.store.connection? id := hconnection
    have hrows : Listing Limit.id Limit.start (s.store.share id).limits
        (t.store.limitsOf t.scan id) := by
      rw [show s.store.share id = t.store.share id from hshare]
      exact Store.limitsOf_listing ht.limits t.scan id
    simp only [Operation.task, Task.exec, Task.bind_run, limitHistory_run hs.quiet,
      limitHistory_run ht.quiet, hk]
    cases t.store.connection? id with
    | none => exact ⟨.same _, rfl, rfl⟩
    | some k => exact ⟨.limits (Store.limitsOf_listing hs.limits s.scan id) hrows, rfl, rfl⟩
  | payments id most =>
    have hk : s.store.connection? id = t.store.connection? id := hconnection
    have hrows : Page Payment.id Payment.createdAt (s.store.share id).payments most
        (t.store.paymentsOf t.scan id most) := by
      rw [show s.store.share id = t.store.share id from hshare]
      exact Store.paymentsOf_page ht.payments t.scan id most
    simp only [Operation.task, Task.exec, Task.bind_run, payments_run hs.quiet,
      payments_run ht.quiet, hk]
    cases t.store.connection? id with
    | none => exact ⟨.same _, rfl, rfl⟩
    | some k =>
      exact ⟨.payments (Store.paymentsOf_page hs.payments s.scan id most) hrows, rfl, rfl⟩
  | _ => cases hop

/-- The records that an operation is called with lead to rows of its own connection. -/
def Operation.Refers (s : Service) : Operation → Prop
  | .reserve k _ _ => Leads s k.id k
  | .pay k _ _ => Leads s k.id k
  | .budgetView k => Leads s k.id k
  | .finalizeSuccess p _ => Entered s p.connection p
  | .finalizeFailure p => Entered s p.connection p
  | .currentCycle l _ => s.store.owner? l.id = some l.connection
  | _ => True

theorem Operation.Refers.within (h : op.Refers s) (hst : LocalTo owner n s t) : op.Refers t := by
  cases op with
  | reserve k request intent => exact Leads.within h hst
  | pay k id request => exact Leads.within h hst
  | budgetView k => exact Leads.within h hst
  | finalizeSuccess p settled => exact Entered.within h hst
  | finalizeFailure p => exact Entered.within h hst
  | currentCycle l now => exact hst.owners l.id l.connection h
  | _ => trivial

theorem Service.Known.leads {k : Connection} (hk : Known s k) : Leads s k.id k := by
  refine ⟨rfl, fun limit hlimit => ?_⟩
  obtain ⟨l, hl, hconnection, -⟩ := hk limit hlimit
  exact Store.owner?_some.mpr ⟨l, hl, hconnection⟩

theorem Service.Filed.entered {p : Payment} (hp : Filed s p) : Entered s p.connection p := by
  obtain ⟨q, hq, rfl | ⟨rfl, -⟩⟩ := id hp
  · exact ⟨rfl, q, hq, rfl, rfl⟩
  · exact ⟨rfl, p, hq, rfl, rfl⟩

/-- Operations that callers may run refer to what is theirs. -/
theorem World.Sound.refers (hw : w.Sound policy) (hop : w.admits op) : op.Refers w.service := by
  cases op with
  | reserve k request intent => exact (hw.connections k hop).leads
  | pay k id request => exact (hw.connections k hop).leads
  | budgetView k => exact (hw.connections k hop).leads
  | finalizeSuccess p settled => exact (hw.payments p hop).entered
  | finalizeFailure p => exact (hw.payments p hop).entered
  | currentCycle l now => exact Store.owner?_some.mpr ⟨l, hop, rfl⟩
  | _ => trivial

theorem Confined.reply {α : Type} {task : Task α} {post : α → Service → Prop}
    (h : Confined peers owner n task s post) (hle : n ≤ 4) (f : α → Reply) :
    Confined peers owner 4 (task >>= fun a => Pure.pure (f a)) s fun _ _ => True :=
  .most (h.bind (m := 0) fun _ _ _ _ => .pure trivial) hle

/-- Every operation keeps to the rows of its connection, and none but those that list rows looks at
the order of a table. -/
theorem Operation.Refers.confined (h : op.Refers s) (hop : op.lists = false)
    (policy : HoldPolicy) (peers : Peers) :
    Confined peers (op.owner s.next) 4 (op.task policy) s fun _ _ => True := by
  cases op with
  | createConnection currency token limit now =>
    exact (createConnection_confined currency token limit now rfl).reply (by decide) _
  | connection id => exact connection_confined.reply (by decide) _
  | updateLimit id u now => exact (updateLimit_confined u now).reply (by decide) _
  | reserve k request intent => exact (reserve_confined h request intent).reply (by decide) _
  | finalizeSuccess p settled =>
    exact (finish_confined h (.success settled)).reply (by decide) _
  | finalizeFailure p => exact (finish_confined h .failure).reply (by decide) _
  | pay k id request => exact (pay_confined h id request).reply (by decide) _
  | budgetView k => exact (budgetView_confined h).reply (by decide) _
  | currentCycle l now => exact (currentCycle_confined h now).reply (by decide) _
  | limitHistory id => cases hop
  | payments id most => cases hop

namespace Operation

/-- An operation and identifiers for it, in a service that is ready for both. -/
structure Ready (op : Operation) (ids : Nat → Uuid) (s : Service) : Prop where
  owned : Owned s
  fresh : s.FreshIds
  refers : op.Refers s
  supply : Supply ids s

namespace Ready

theorem confines (h : op.Ready ids s) (hop : op.lists = false) (policy : HoldPolicy)
    (peers : Peers) :
    Confines peers (op.owner (ids 0)) 4 (op.task policy) (s.supplied ids) fun _ _ => True := by
  have hrefers : op.Refers (s.supplied ids) := by cases op <;> exact h.refers
  have hconfined := hrefers.confined hop policy peers
  rw [next_supplied] at hconfined
  exact hconfined (h.owned.supplied ids) (h.supply.fresh h.fresh)

theorem within (h : op.Ready ids s) (policy : HoldPolicy) (peers : Peers) :
    LocalTo (op.owner (ids 0)) 4 (s.supplied ids) (s.perform policy peers ids op).2 := by
  cases hop : op.lists with
  | false => exact (h.confines hop policy peers).within
  | true =>
    have hs := h.owned.supplied ids
    obtain ⟨-, hsame, -⟩ := lists_alike hop hs hs (v := ids 0) rfl policy peers
    rw [perform, hsame]
    exact (LocalTo.refl hs _).most (Nat.zero_le 4)

/-- After an operation a service is ready for what it was ready for before. -/
theorem after (hb : b.Ready ids' s) (ha : a.Ready ids s)
    (hapart : ∀ i < 4, ∀ j < 4, ids i ≠ ids' j) (policy : HoldPolicy) (peers : Peers) :
    b.Ready ids' (s.perform policy peers ids a).2 := by
  have hlocal := ha.within policy peers
  have hrefers : b.Refers (s.supplied ids) := by cases b <;> exact hb.refers
  exact {
    owned := hlocal.owned
    fresh := hlocal.fresh (m := 0) (ha.supply.fresh ha.fresh)
    refers := hrefers.within hlocal
    supply := hb.supply.after hlocal hapart }

end Ready

end Operation

end WalletBudget
