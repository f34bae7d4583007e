import WalletBudget.Proofs.AmountChange

/-!
The limit that an answered update leaves: it is the one that the update asks for, so a second update
finds nothing to do, and it is the one that the answer tells of, unless the answer is that nothing
changed.
-/

namespace WalletBudget

open Service

variable {policy : HoldPolicy} {rule : World → Event → Prop} {s t : Service} {w : World}
  {past : List World} {k : Connection} {l : Limit} {active : Option Limit} {u : LimitUpdate}
  {now : Instant} {change : LimitChange}

namespace LimitUpdate

/-- The active limit of a connection, or that there is none, is what an update asks for. -/
def Met (u : LimitUpdate) : Option Limit → Prop
  | none => u.enabled = false
  | some l => u.enabled = true ∧ u.wantedAmount = .ok l.amount ∧ ¬ u.Replaces l

/-- The limit that an update sets up is the one that it asks for, in its own currency or in the one
that it is given. -/
theorem met_limit (hu : u.enabled = true) {amount : Int} (hamount : u.wantedAmount = .ok amount)
    (id : LimitId) (connection : ConnectionId) (currency : Currency) (now : Instant) :
    u.Met (some (u.limit id connection currency amount now)) := by
  refine ⟨hu, hamount, not_replaces.mpr ⟨rfl, ?_⟩⟩
  cases hcurrency : u.currency <;> simp [limit, hcurrency, Currency.same]

/-- An update that asks for a limit is met by an active one only. -/
theorem Met.limited (h : u.Met active) (hu : u.enabled = true) :
    ∃ l, active = some l ∧ u.wantedAmount = .ok l.amount ∧ ¬ u.Replaces l := by
  cases active with
  | none => exact absurd (hu.symm.trans h) (by decide)
  | some l => exact ⟨l, rfl, h.2⟩

end LimitUpdate

namespace Service

/-- What an answered update leaves as the active limit of its connection. -/
structure LimitLeft (u : LimitUpdate) (change : LimitChange) (active : Option Limit) : Prop where
  met : u.Met active
  told : change ≠ .unchanged → change.activeLimit = active
  enabled : change = .unchanged → u.enabled = true

theorem Updated.leaves (hk : s.store.connection? k.id = some k)
    (h : Updated k u now s (.ok change) t) : LimitLeft u change (t.store.limitOf? k.id) := by
  generalize hr : Except.ok change = r at h
  cases h with
  | unlimited hu hnone =>
    cases hr
    rw [Store.limitOf?_stored hk, hnone]
    exact ⟨hu, fun _ => rfl, by simp⟩
  | disabled l hu hl =>
    cases hr
    rw [Store.limitOf?_stored (k := { k with limit := none }) (by simp)]
    exact ⟨hu, fun _ => rfl, by simp⟩
  | invalid => cases hr
  | created amount r t hu hamount hnone hstarted =>
    cases r with
    | error e => cases hr
    | ok l =>
      cases hr
      obtain ⟨hlimit, hl⟩ := hstarted.limitOf?
      rw [hlimit, hl]
      exact ⟨LimitUpdate.met_limit hu hamount _ _ _ _, fun _ => rfl, by simp⟩
  | unchanged l hu hamount hl hsame =>
    cases hr
    rw [Store.limitOf?_stored hk, hl]
    exact ⟨⟨hu, hamount, LimitUpdate.not_replaces.mpr hsame⟩, by simp, fun _ => hu⟩
  | amountChanged l amount hu hamount hl hsame hne =>
    cases hr
    obtain ⟨hp, -, hactive⟩ := Store.activeLimit?_stored hl
    have hlimit : Store.activeLimit? ((s.store.rewriteLive l.id now
        (fun c => { c with limitAmount := amount })).fileLimit { l with amount }) k =
          some { l with amount } :=
      Store.activeLimit?_some.mpr ⟨l.id, hp, by simp, hactive⟩
    rw [Store.limitOf?_stored (k := k) (by simpa using hk), write_store, hlimit]
    exact ⟨⟨hu, hamount, LimitUpdate.not_replaces.mpr hsame⟩, fun _ => rfl, by simp⟩
  | replaced l amount r t hu hamount hl hother hstarted =>
    cases r with
    | error e => cases hr
    | ok l' =>
      cases hr
      obtain ⟨hlimit, hl'⟩ := hstarted.limitOf?
      rw [hlimit, hl']
      exact ⟨LimitUpdate.met_limit hu hamount _ _ _ _, fun _ => rfl, by simp⟩

/-- An update that is met already finds nothing to do, whatever its instant. -/
theorem updateLimit_met (hs : Coherent s) (hk : s.store.connection? k.id = some k)
    (hmet : u.Met (s.store.limitOf? k.id)) (now : Instant) :
    updateLimit k.id u now s =
      .done (.ok (if u.enabled then .unchanged else .disabled none)) s := by
  rw [Store.limitOf?_stored hk] at hmet
  have hactive : activeLimit k s = .done (.ok (s.store.activeLimit? k)) s :=
    activeLimit_stored hs.quiet fun id hp => (hs.pointer k.id k hk id hp).imp fun _ hl => hl.1
  simp only [updateLimit, Task.bind_run, connection_run hs.quiet, hk, Progress.bind_ok, hactive]
  cases hlimit : s.store.activeLimit? k with
  | none =>
    rw [hlimit] at hmet
    have hu : u.enabled = false := hmet
    simp only [hu]
    rfl
  | some l =>
    rw [hlimit] at hmet
    obtain ⟨hu, hamount, hsame⟩ := hmet
    obtain ⟨-, hl, -⟩ := Store.activeLimit?_stored hlimit
    simp only [hu, if_true, enableLimit, Task.bind_run, hamount, Task.valid_ok, Progress.bind_ok]
    rw [if_pos (LimitUpdate.not_replaces.mp hsame), changeAmount_run hs.quiet hl, if_pos rfl]

/-- An answered update has found its connection, which is stored from then on. -/
theorem updateLimit_leaves (hs : Coherent s) {id : ConnectionId}
    (hrun : updateLimit id u now s = .done (.ok change) t) (ht : t.FreshIds) :
    Coherent t ∧ (∃ k, t.store.connection? id = some k) ∧
      LimitLeft u change (t.store.limitOf? id) := by
  obtain ⟨r, v, hends, -, -, hpost⟩ := updateLimit_ends hs.quiet id u now
  rw [hrun] at hends
  cases hends
  obtain ⟨hwrites, hpost⟩ := hpost hs ht
  have hrows := hwrites.rows hs ht
  rcases hpost with ⟨-, hrefused, -⟩ | ⟨k, hk, hupdated⟩
  · cases hrefused
  · obtain rfl : k.id = id := Store.connection?_id hk
    obtain ⟨k', hk', -⟩ := hrows.later.connections k.id k hk
    exact ⟨hrows.coherent hs, ⟨k', hk'⟩, hupdated.leaves hk⟩

end Service

/-- Behind an answered update the same update changes nothing, whenever it is made. -/
theorem update_limit_settled (run : Run policy rule (w :: past)) {id : ConnectionId}
    (hrun : updateLimit id u now w.service = .done (.ok change) t) (ht : t.FreshIds)
    (time : Reading) (later : Instant) :
    updateLimit id u later (t.tick time) =
      .done (.ok (if u.enabled then .unchanged else .disabled none)) (t.tick time) := by
  obtain ⟨hcoherent, ⟨k, hk⟩, hleaves⟩ := updateLimit_leaves run.sound.coherent hrun ht
  obtain rfl : k.id = id := Store.connection?_id hk
  exact updateLimit_met (hcoherent.tick time) hk hleaves.met later

/-- On the second day a daily limit gives way to a weekly one. On the third day the weekly one is
asked for again. -/
theorem update_limit_settled_weekly :
    ∃ w past change t, Run .exact World.Steady (w :: past) ∧
      updateLimit Sample.connection.id ⟨true, some 50, none, some .weekly⟩ Sample.secondDay
        w.service = .done (.ok change) t ∧
      change ≠ .unchanged ∧
      updateLimit Sample.connection.id ⟨true, some 50, none, some .weekly⟩ Sample.thirdDay
        (t.tick ⟨Sample.thirdDay, rfl⟩) =
          .done (.ok .unchanged) (t.tick ⟨Sample.thirdDay, rfl⟩) := by
  obtain ⟨w, past, run, hf⟩ := Run.reaches .exact World.Steady ⟨Sample.start, rfl⟩ Uuid.ofNat
    [Sample.created, .clock ⟨Sample.secondDay, rfl⟩]
    (fun w _ =>
      let update := updateLimit Sample.connection.id ⟨true, some 50, none, some .weekly⟩
        Sample.secondDay w.service
      decide (update.service.FreshIds ∧
        (update.answer?.map fun a => decide (a.1 ≠ .unchanged)) = some true))
    true (by decide +kernel)
  obtain ⟨hfresh, hanswer⟩ := of_decide_eq_true hf
  obtain ⟨⟨change, t⟩, hdone, hchanged⟩ := Option.map_eq_some_iff.mp hanswer
  have hrun := Progress.answer?_some hdone
  rw [hrun] at hfresh
  exact ⟨w, past, change, t, run, hrun, of_decide_eq_true hchanged,
    update_limit_settled run hrun hfresh ⟨Sample.thirdDay, rfl⟩ Sample.thirdDay⟩

/-- The answer of an update tells the active limit that the connection has then, unless it is that
nothing changed. Then it tells of no limit, though there is one, which is as the update asks for. -/
theorem reported_limit_active (run : Run policy rule (w :: past)) {id : ConnectionId}
    (hrun : updateLimit id u now w.service = .done (.ok change) t) (ht : t.FreshIds) :
    (change.activeLimit = t.store.limitOf? id ↔ change ≠ .unchanged) ∧
      (change = .unchanged → change.activeLimit = none ∧ ∃ l, t.store.limitOf? id = some l ∧
        u.wantedAmount = .ok l.amount ∧ ¬ u.Replaces l) := by
  obtain ⟨-, -, hleaves⟩ := updateLimit_leaves run.sound.coherent hrun ht
  have hunchanged : change = .unchanged → change.activeLimit = none ∧
      ∃ l, t.store.limitOf? id = some l ∧ u.wantedAmount = .ok l.amount ∧ ¬ u.Replaces l := by
    intro hchange
    refine ⟨by rw [hchange]; rfl, hleaves.met.limited (hleaves.enabled hchange)⟩
  refine ⟨⟨fun htold hchange => ?_, hleaves.told⟩, hunchanged⟩
  obtain ⟨hnone, l, hl, -⟩ := hunchanged hchange
  rw [hnone, hl] at htold
  cases htold

/-- An update to the limit that the connection has. -/
theorem reported_limit_active_unchanged :
    ∃ w past change t l, Run .exact World.Steady (w :: past) ∧
      updateLimit Sample.connection.id ⟨true, some 100, none, some .daily⟩ Sample.start
        w.service = .done (.ok change) t ∧
      change.activeLimit = none ∧ t.store.limitOf? Sample.connection.id = some l := by
  obtain ⟨w, past, run, hf⟩ := Run.reaches .exact World.Steady ⟨Sample.start, rfl⟩ Uuid.ofNat
    [Sample.created]
    (fun w _ =>
      let update := updateLimit Sample.connection.id ⟨true, some 100, none, some .daily⟩
        Sample.start w.service
      decide (update.service.FreshIds ∧ update.answer?.map (·.1) = some .unchanged))
    true (by decide +kernel)
  obtain ⟨hfresh, hanswer⟩ := of_decide_eq_true hf
  obtain ⟨⟨change, t⟩, hdone, hchange⟩ := Option.map_eq_some_iff.mp hanswer
  have hrun := Progress.answer?_some hdone
  rw [hrun] at hfresh
  obtain ⟨hnone, l, hl, -⟩ := (reported_limit_active run hrun hfresh).2 hchange
  exact ⟨w, past, change, t, l, run, hrun, hnone, hl⟩

end WalletBudget
