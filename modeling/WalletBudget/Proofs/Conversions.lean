import WalletBudget.Proofs.Progress
import WalletBudget.Service.Reserve
import WalletBudget.Service.View

/-!
Operations that ask for nothing but conversions: a reservation and the view of a budget.

A task asks for no execution if none of its parts does, so this follows the shape of each task. No
store has to be reached for it, and no record has to be true.
-/

namespace WalletBudget

variable {α β : Type}

namespace Progress

variable {p : Progress α}

/-- Nothing but conversions is asked for. -/
def Converts : Progress α → Prop
  | .done _ _ => True
  | .convert _ _ resume => ∀ answer s, (resume answer s).Converts
  | .execute _ _ _ => False

theorem Converts.bind {f : α → Service → Progress β} (h : p.Converts)
    (hf : ∀ a s, (f a s).Converts) : (p.bind f).Converts := by
  induction p with
  | done r s => cases r with
    | ok a => exact hf a s
    | error e => trivial
  | convert q s resume ih => exact fun answer s => ih answer s (h answer s)
  | execute q s resume => exact h.elim

end Progress

namespace Task

/-- A task that asks for conversions only, from any service on. -/
def Converts (t : Task α) : Prop := ∀ s, (t s).Converts

namespace Converts

theorem bind {t : Task α} {f : α → Task β} (h : t.Converts) (hf : ∀ a, (f a).Converts) :
    (t >>= f).Converts :=
  fun s => (h s).bind hf

theorem pure (a : α) : (Pure.pure a : Task α).Converts := fun _ => trivial

theorem refuse (e : BudgetError) : (Task.refuse e : Task α).Converts := fun _ => trivial

theorem found (e : BudgetError) (a : Option α) : (Task.found e a).Converts := by
  cases a <;> exact fun _ => trivial

theorem valid (a : Except ValidationError α) : (Task.valid a).Converts := by
  cases a <;> exact fun _ => trivial

theorem sound (a : Except Defect α) : (Task.sound a).Converts := by
  cases a <;> exact fun _ => trivial

theorem clock : Task.clock.Converts := fun _ => trivial

theorem newId (kind : Kind) : (Task.newId kind).Converts := fun _ => trivial

theorem convert (q : Conversion) : (Task.convert q).Converts := fun _ _ _ => trivial

theorem call (m : StoreMethod) (absent : α) (run : Store → Except StoreError (α × Store)) :
    (Task.call m absent run).Converts := by
  intro s
  simp only [Task.call]
  repeat' split
  all_goals trivial

theorem stored {t : Task (Except StoreError α)} (h : t.Converts) : (Task.stored t).Converts := by
  refine h.bind fun r => ?_
  cases r with
  | ok a => exact pure a
  | error e => exact refuse _

theorem ask (m : StoreMethod) (absent : α) (run : Store → α) : (Task.ask m absent run).Converts :=
  stored (call _ _ _)

theorem tell (m : StoreMethod) (run : Store → Except StoreError Store) :
    (Task.tell m run).Converts :=
  stored (call _ _ _)

theorem locked (cycle : CycleId) : (Task.locked cycle).Converts :=
  (stored (t := Task.lock cycle) (call _ _ _)).bind fun _ => found _ _

end Converts

end Task

namespace Service

open Task.Converts

theorem connection_converts (id : ConnectionId) : (connection id).Converts :=
  (ask _ _ _).bind fun _ => found _ _

theorem activeLimit_converts (k : Connection) : (activeLimit k).Converts := by
  unfold activeLimit
  cases k.limit with
  | none => exact pure _
  | some id => exact (ask _ _ _).bind fun _ => (found _ _).bind fun _ => pure _

theorem openCycle_converts (l : Limit) (start : Instant) : (openCycle l start).Converts := by
  refine (newId _).bind fun id => (sound _).bind fun c => (call _ _ _).bind fun r => ?_
  split
  · exact pure _
  · exact (ask _ _ _).bind fun _ => found _ _
  · exact refuse _

theorem currentCycle_converts (l : Limit) (now : Instant) : (currentCycle l now).Converts := by
  have hopen : (Task.sound (l.periodStart now) >>= openCycle l).Converts :=
    (sound _).bind fun start => openCycle_converts l start
  refine (ask _ _ _).bind fun latest => ?_
  split
  · split
    · exact hopen
    · exact pure _
  · exact hopen

theorem price_converts (c : Cycle) (intent : Intent) : (price c intent).Converts := by
  unfold price
  split
  · exact pure _
  · refine (convert _).bind fun answer => ?_
    split
    · exact refuse _
    · split
      · exact refuse _
      · exact pure _

theorem recordUnbudgeted_converts (k : ConnectionId) (request : RequestId) (intent : Intent)
    (now : Instant) : (recordUnbudgeted k request intent now).Converts :=
  (newId _).bind fun _ => (tell _ _).bind fun _ => pure _

theorem placeHold_converts (c : CycleId) (k : ConnectionId) (request : RequestId)
    (intent : Intent) (estimate hold : Int) (now : Instant) :
    (placeHold c k request intent estimate hold now).Converts := by
  refine (locked c).bind fun c => Task.Converts.clock.bind fun now => ?_
  split
  · exact pure _
  · refine (sound _).bind fun left => ?_
    split
    · exact refuse _
    · exact (newId _).bind fun _ => (sound _).bind fun _ => (tell _ _).bind fun _ => pure _

theorem tryReserve_converts (policy : HoldPolicy) (k : Connection) (request : RequestId)
    (intent : Intent) : (tryReserve policy k request intent).Converts := by
  refine Task.Converts.clock.bind fun now => (activeLimit_converts k).bind fun l => ?_
  split
  · exact (recordUnbudgeted_converts _ _ _ _).bind fun _ => pure _
  · refine (currentCycle_converts _ _).bind fun c => (sound _).bind fun left => ?_
    split
    · exact refuse _
    · exact (price_converts _ _).bind fun _ => (sound _).bind fun _ => (valid _).bind fun _ =>
        placeHold_converts _ _ _ _ _ _ _

theorem reserve_converts (policy : HoldPolicy) (k : Connection) (request : RequestId)
    (intent : Intent) : (reserve policy k request intent).Converts := by
  have hwithin : ∀ n k, (reserveWithin policy request intent n k).Converts := by
    intro n
    induction n with
    | zero => exact fun _ => refuse _
    | succ n ih =>
      refine fun k => (tryReserve_converts _ _ _ _).bind fun p => ?_
      split
      · exact pure _
      · exact (connection_converts _).bind fun k => ih k
  exact hwithin attempts k

theorem budgetView_converts (k : Connection) : (budgetView k).Converts := by
  refine (activeLimit_converts k).bind fun l => ?_
  split
  · exact pure _
  · refine Task.Converts.clock.bind fun now => (currentCycle_converts _ _).bind fun c =>
      (sound _).bind fun left => ?_
    split
    · exact pure _
    · refine (convert _).bind fun answer => ?_
      split
      · exact refuse _
      · split
        · exact refuse _
        · exact pure _

end Service

end WalletBudget
