import WalletBudget.Store.Table
import Mathlib.Algebra.BigOperators.Group.List.Basic
import Mathlib.Tactic.Ring

/-!
Reading a table after a write. A write changes the row under its own key and no other, so a sum over
the rows changes by the difference of two rows.
-/

namespace WalletBudget.Table

variable {ρ κ : Type} [DecidableEq κ] {key : ρ → κ} {k : κ} {row r : ρ} {rows : List ρ}

def Distinct (key : ρ → κ) (rows : List ρ) : Prop := (rows.map key).Nodup

theorem mem_of_get? (h : get? key k rows = some r) : r ∈ rows :=
  List.mem_of_find?_eq_some h

theorem key_of_get? (h : get? key k rows = some r) : key r = k := by
  simpa using List.find?_some h

theorem has_eq_isSome : has key k rows = (get? key k rows).isSome := by
  induction rows with
  | nil => rfl
  | cons a rest ih =>
    by_cases h : key a = k
    · simp [has, get?, h]
    · simpa [has, get?, h] using ih

theorem get?_eq_none_iff : get? key k rows = none ↔ ∀ a ∈ rows, key a ≠ k := by
  simp [get?]

theorem get?_put (key : ρ → κ) (row : ρ) (rows : List ρ) (k : κ) :
    get? key k (put key row rows) = if key row = k then some row else get? key k rows := by
  induction rows with
  | nil => by_cases h : key row = k <;> simp [put, get?, h]
  | cons a rest ih =>
    simp only [get?] at ih
    by_cases ha : key a = key row
    · by_cases h : key row = k <;> simp [put, get?, ha, h]
    · rw [put, if_neg ha]
      by_cases hk : key a = k
      · have hne : ¬ key row = k := fun h => ha (hk.trans h.symm)
        simp [get?, hk, hne]
      · simp [get?, hk, ih]

theorem get?_put_self (key : ρ → κ) (row : ρ) (rows : List ρ) :
    get? key (key row) (put key row rows) = some row := by
  simp [get?_put]

theorem get?_put_of_ne (h : key row ≠ k) : get? key k (put key row rows) = get? key k rows := by
  simp [get?_put, h]

/-- A row under a new key comes last. -/
theorem put_new (h : get? key (key row) rows = none) : put key row rows = rows ++ [row] := by
  induction rows with
  | nil => rfl
  | cons a rest ih =>
    obtain ⟨ha, hrest⟩ := List.forall_mem_cons.mp (get?_eq_none_iff.mp h)
    rw [put, if_neg ha, ih (get?_eq_none_iff.mpr hrest), List.cons_append]

theorem mem_put (h : r ∈ put key row rows) : r = row ∨ r ∈ rows := by
  induction rows with
  | nil => simpa [put] using h
  | cons a rest ih =>
    by_cases ha : key a = key row
    · rw [put, if_pos ha] at h
      exact (List.mem_cons.mp h).imp_right (List.mem_cons_of_mem a)
    · rw [put, if_neg ha] at h
      rcases List.mem_cons.mp h with rfl | h
      · exact .inr List.mem_cons_self
      · exact (ih h).imp_right (List.mem_cons_of_mem a)

theorem Distinct.put (h : Distinct key rows) (row : ρ) : Distinct key (put key row rows) := by
  induction rows with
  | nil => simp [Distinct, Table.put]
  | cons a rest ih =>
    obtain ⟨hn, hd⟩ := List.nodup_cons.mp h
    by_cases ha : key a = key row
    · rw [Table.put, if_pos ha]
      exact List.nodup_cons.mpr ⟨ha ▸ hn, hd⟩
    · rw [Table.put, if_neg ha]
      refine List.nodup_cons.mpr ⟨?_, ih hd⟩
      intro hm
      obtain ⟨b, hb, he⟩ := List.mem_map.mp hm
      rcases mem_put hb with rfl | hb
      · exact ha he.symm
      · exact hn (List.mem_map.mpr ⟨b, hb, he⟩)

theorem Distinct.get?_of_mem (h : Distinct key rows) (hr : r ∈ rows) :
    get? key (key r) rows = some r := by
  induction rows with
  | nil => cases hr
  | cons a rest ih =>
    obtain ⟨hn, hd⟩ := List.nodup_cons.mp h
    rcases List.mem_cons.mp hr with rfl | hr
    · simp [get?]
    · have hne : key a ≠ key r := fun he => hn (he ▸ List.mem_map_of_mem hr)
      have hrest := ih hd hr
      simp only [get?] at hrest
      simp [get?, hne, hrest]

def change (key : ρ → κ) (k : κ) (f : ρ → ρ) (rows : List ρ) : List ρ :=
  rows.map fun r => if key r = k then f r else r

/-- A changed row is written in the place of the one that it was. -/
theorem Distinct.put_changed {f : ρ → ρ} (hd : Distinct key rows) (hr : get? key k rows = some r)
    (hf : key (f r) = k) : Table.put key (f r) rows = change key k f rows := by
  induction rows with
  | nil => cases hr
  | cons a rest ih =>
    obtain ⟨hn, hd⟩ := List.nodup_cons.mp hd
    by_cases ha : key a = k
    · obtain rfl : a = r := by simpa [get?, ha] using hr
      have hrest : change key k f rest = rest := by
        refine (List.map_congr_left fun b hb => ?_).trans (List.map_id rest)
        exact if_neg fun he => hn (List.mem_map.mpr ⟨b, hb, he.trans ha.symm⟩)
      simp only [change] at hrest
      simp [Table.put, change, ha, hf, hrest]
    · have hrest : get? key k rest = some r := by simpa [get?, ha] using hr
      rw [Table.put, if_neg (by rw [hf]; exact ha), ih hd hrest]
      simp [change, ha]

theorem get?_change {f : ρ → ρ} (hf : ∀ r, key (f r) = key r) (rows : List ρ) (k k' : κ) :
    get? key k' (change key k f rows) =
      if k' = k then (get? key k' rows).map f else get? key k' rows := by
  have hkey : ∀ r, key (if key r = k then f r else r) = key r := by
    intro r
    split
    · exact hf r
    · rfl
  have hmap : get? key k' (change key k f rows) =
      (get? key k' rows).map fun r => if key r = k then f r else r := by
    simp only [get?, change, List.find?_map, Function.comp_def, hkey]
  rw [hmap]
  cases h : get? key k' rows with
  | none => simp
  | some r =>
    rw [Option.map_some, key_of_get? h]
    split <;> rfl

def Evolves (allowed : ρ → ρ → Prop) (key : ρ → κ) (rows rows' : List ρ) : Prop :=
  ∀ k r, get? key k rows = some r → ∃ r', get? key k rows' = some r' ∧ allowed r r'

variable {allowed : ρ → ρ → Prop} {rows' rows'' : List ρ}

theorem Evolves.refl (h : ∀ r, allowed r r) (rows : List ρ) : Evolves allowed key rows rows :=
  fun _ r hr => ⟨r, hr, h r⟩

theorem Evolves.trans (htrans : ∀ a b c, allowed a b → allowed b c → allowed a c)
    (h : Evolves allowed key rows rows') (h' : Evolves allowed key rows' rows'') :
    Evolves allowed key rows rows'' := by
  intro k r hr
  obtain ⟨r', hr', ha⟩ := h k r hr
  obtain ⟨r'', hr'', ha'⟩ := h' k r' hr'
  exact ⟨r'', hr'', htrans r r' r'' ha ha'⟩

theorem Evolves.put (hrefl : ∀ r, allowed r r)
    (h : ∀ r, get? key (key row) rows = some r → allowed r row) :
    Evolves allowed key rows (put key row rows) := by
  intro k r hr
  by_cases hk : key row = k
  · subst hk
    exact ⟨row, get?_put_self key row rows, h r hr⟩
  · exact ⟨r, by rw [get?_put_of_ne hk, hr], hrefl r⟩

section Part

variable {keep : ρ → Bool}

/-- The row under a key is the one under it in a part of the table that has that row. -/
theorem get?_filter (h : ∀ r, get? key k rows = some r → keep r = true) :
    get? key k (rows.filter keep) = get? key k rows := by
  induction rows with
  | nil => rfl
  | cons a rest ih =>
    simp only [get?] at ih h ⊢
    by_cases ha : key a = k
    · have hkeep : keep a = true := h a (by simp [ha])
      simp [ha, hkeep]
    · have hrest := ih fun r hr => h r (by simp [ha, hr])
      cases hkeep : keep a <;> simp [ha, hkeep, hrest]

/-- A write goes to the part of a table that the row is of, if what stood under its key is of that
part as well. -/
theorem filter_put (h : ∀ r ∈ rows, key r = key row → keep r = keep row) :
    (put key row rows).filter keep =
      if keep row then put key row (rows.filter keep) else rows.filter keep := by
  induction rows with
  | nil => cases hrow : keep row <;> simp [put, hrow]
  | cons a rest ih =>
    obtain ⟨ha, hrest⟩ := List.forall_mem_cons.mp h
    by_cases hkey : key a = key row
    · have hsame := ha hkey
      cases hrow : keep row <;> simp [put, hkey, hrow, hsame]
    · have hrest := ih hrest
      cases hrow : keep row <;> cases hkeep : keep a <;> simp_all [put]

theorem Distinct.filter_put (hd : Distinct key rows)
    (h : ∀ r, get? key (key row) rows = some r → keep r = keep row) :
    (Table.put key row rows).filter keep =
      if keep row then Table.put key row (rows.filter keep) else rows.filter keep :=
  Table.filter_put fun r hr he => h r (he ▸ hd.get?_of_mem hr)

end Part

/-- A sum over a table changes by the row that is written, less the row that it replaces. -/
theorem sum_put (key : ρ → κ) (f : ρ → Int) (row : ρ) (rows : List ρ) :
    ((put key row rows).map f).sum =
      (rows.map f).sum - ((get? key (key row) rows).map f).getD 0 + f row := by
  induction rows with
  | nil => simp [put, get?]
  | cons a rest ih =>
    simp only [get?] at ih
    by_cases ha : key a = key row
    · rw [put, if_pos ha]
      simp only [List.map_cons, List.sum_cons, get?, ha, decide_true, List.find?_cons_of_pos,
        Option.map_some, Option.getD_some]
      ring
    · rw [put, if_neg ha]
      simp only [List.map_cons, List.sum_cons, ih, get?, ha, decide_false, Bool.false_eq_true,
        not_false_eq_true, List.find?_cons_of_neg]
      ring

end WalletBudget.Table
