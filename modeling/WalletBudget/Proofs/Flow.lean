import WalletBudget.Proofs.Finalize
import WalletBudget.Proofs.Listings
import WalletBudget.Service.Flow
import WalletBudget.Service.View

/-!
The operations that ask peers, as stretches of work, and those that only read.
-/

namespace WalletBudget.Service

variable {policy : HoldPolicy} {P : Service → Prop} {b m s t u called : Service} {k : Connection}
  {request : RequestId} {intent : Intent}

def Works (policy : HoldPolicy) (b s : Service) : Prop := Stretch policy True b.clock b s

theorem Opening.works (h : Opening b s) : Works policy b s := .quiet h.writes

theorem Reserved.works {r : Except Abort Payment}
    (h : Reserved policy P called k request intent b r t) : Works policy b t := by
  cases h with
  | held _ _ _ c p estimate hold m _ _ _ _ hm hplaced => exact .placed m c p hold hm.writes hplaced
  | unbudgeted _ m p _ _ _ hm hp =>
    refine .quiet (.tail hm.writes (.record p ?_ ?_ ?_ ?_)) <;> rw [hp] <;> rfl
  | short _ _ _ _ _ _ _ _ _ _ hm => exact hm.works
  | failed _ _ hm => exact hm.works

theorem Reserved.filed {p : Payment} (h : Reserved policy P called k request intent b (.ok p) t) :
    Filed t p := by
  cases h with
  | held _ _ _ c _ estimate hold m _ _ _ _ _ hplaced =>
    exact ⟨p, by simp [hplaced.written], .inl hplaced.core⟩
  | unbudgeted _ m _ _ _ _ _ hp => exact ⟨p, by simp, .inl (by rw [hp]; rfl)⟩

theorem reserve_works (hP : ∀ t, P t → Coherent t) (hs : P s) (hk : Known s k) :
    (reserve policy k request intent s).Goes (Works policy) (Rely P)
      (fun b r t => Works policy b t ∧ ∀ p, r = .ok p → Filed t p) s := by
  refine ((reserve_goes hP hs hk).weaken fun _ _ => Opening.works).imp ?_
  intro b r t h
  refine ⟨h.works, ?_⟩
  rintro p rfl
  exact h.filed

/-- The flow settles or releases with the record it reserved with, as old as the execution is
long. -/
theorem pay_works (hP : ∀ t, P t → Coherent t) (hs : P s) (hk : Known s k)
    (request : PaymentRequest) (id : RequestId) :
    (pay policy k id request s).Goes (Works policy) (Rely P)
      (fun b r t => Works policy b t ∧ ∀ receipt, r = .ok receipt → Filed t receipt.payment) s := by
  simp only [pay, Task.bind_run]
  cases hintent : request.intent with
  | error e => exact ⟨.quiet .refl, by simp⟩
  | ok intent =>
    simp only [Task.valid_ok, Progress.bind_ok]
    refine Progress.Goes.bind ((reserve_works hP hs hk).imp ?_)
    rintro b r t ⟨hworks, hfiled⟩
    cases r with
    | error a => exact ⟨hworks, by simp⟩
    | ok p =>
      simp only [Task.execute, Progress.bind]
      refine ⟨hworks, fun answer u hu => ?_⟩
      have hp : Filed u p := (hfiled p rfl).later hu.1
      have hcoherent := hP u hu.2
      cases answer with
      | ok outcome =>
        obtain ⟨r, v, hrun, hfinal⟩ := finalizeSuccess_runs hcoherent hp
          (outcome.settled.getD p.fallbackCost.1)
        simp only [Task.bind_run, hrun]
        cases r with
        | error a => exact ⟨hfinal.stretch, by simp⟩
        | ok q =>
          refine ⟨hfinal.stretch, fun receipt he => ?_⟩
          obtain rfl := Except.ok.inj he
          exact hfinal.filed rfl
      | error e =>
        obtain ⟨r, v, hrun, hfinal⟩ := finalizeFailure_runs hcoherent hp
        simp only [Task.bind_run, hrun]
        cases r <;> exact ⟨hfinal.stretch, by simp⟩

structure Viewed (b : Service) (r : Except Abort BudgetView) (t : Service) : Prop where
  opening : Opening b t
  broken : r = .error (.broken .amountRange) →
    ∃ c, t.store.cycle? c.id = some c ∧ c.available = .error .amountRange

/-- The view opens a cycle at most. -/
theorem budgetView_goes (hP : ∀ t, P t → Coherent t) (hs : P s) (hk : Known s k) :
    (budgetView k s).Goes Opening (Rely P) Viewed s := by
  have hq := (hP s hs).quiet
  have hactive := activeLimit_stored hq fun id hp => (hk id hp).imp fun _ hl => hl.1
  simp only [budgetView, Task.bind_run]
  rw [hactive, Progress.bind_ok]
  cases hl : s.store.activeLimit? k with
  | none => exact ⟨.refl s, by simp⟩
  | some l =>
    obtain ⟨r, m, hrun, hfound⟩ := currentCycle_found hq l s.clock
    have hm : Opening s m := (Opening.refl s).found hk hl hfound
    simp only [Task.bind_run, Task.clock_run, Progress.bind_ok, hrun]
    cases r with
    | error a =>
      refine ⟨hm, fun ha => absurd ?_ hfound.not_amountRange⟩
      rw [Except.error.inj ha]
    | ok c =>
      simp only [Progress.bind_ok]
      cases havailable : c.available with
      | error d =>
        refine ⟨hm, fun _ => ⟨c, ?_, ?_⟩⟩
        · exact (hfound.cycle (hP s hs)).1
        · rw [havailable, Cycle.available_error havailable]
      | ok left =>
        simp only [Task.sound_ok, Progress.bind_ok]
        by_cases hsat : l.currency.isSat
        · simp only [hsat, if_true]
          exact ⟨hm, by simp⟩
        · simp only [hsat, Bool.false_eq_true, if_false, Task.bind_run, Task.convert,
            Progress.bind]
          refine ⟨hm, fun answer t _ => ?_⟩
          cases answer with
          | error e => exact ⟨.refl t, by simp⟩
          | ok sats =>
            dsimp only
            cases BudgetView.share? sats (max left 0) l.amount <;> exact ⟨.refl t, by simp⟩

theorem budgetView_works (hP : ∀ t, P t → Coherent t) (hs : P s) (hk : Known s k) :
    (budgetView k s).Goes (Works policy) (Rely P) (fun b _ t => Works policy b t) s :=
  ((budgetView_goes hP hs hk).weaken fun _ _ => Opening.works).imp fun _ _ _ h => h.opening.works

theorem payments_filed (hs : Coherent s) (scan : Scan) (id : ConnectionId) (most : Nat) :
    ∀ p ∈ s.store.paymentsOf scan id most, Filed s p := by
  intro p hp
  have hmem : p ∈ s.store.payments := by
    have hsorted := List.mem_of_mem_take hp
    have hscanned := (List.mem_filter.mp (List.mem_mergeSort.mp hsorted)).1
    exact (scan.payments_perm _).mem_iff.mp hscanned
  exact hs.filed (hs.payments.get?_of_mem hmem)

end WalletBudget.Service
