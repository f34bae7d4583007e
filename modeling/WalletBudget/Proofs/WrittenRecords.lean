import Mathlib.Data.List.Nodup
import WalletBudget.Proofs.WrittenJson

/-!
Records that are read from the entries they were written as.

A record is compared with its slots, one for each field in order: the name of the field, and the
value that was written for it if one was. That the names differ is asked once, of all slots, and not
of each field that is added.
-/

namespace WalletBudget

variable {V : Type} {name : String} {v : V}

theorem lookup_of_mem {entries : List (String × V)} (hnames : (entries.map Prod.fst).Nodup)
    (h : (name, v) ∈ entries) : entries.lookup name = some v := by
  cases hlookup : entries.lookup name with
  | none => simpa using List.lookup_eq_none_iff.mp hlookup _ h
  | some w =>
    obtain ⟨before, after, rfl, -⟩ := List.lookup_eq_some_iff.mp hlookup
    have hsame := List.inj_on_of_nodup_map hnames h
      (List.mem_append_right _ List.mem_cons_self) rfl
    exact congrArg some (Prod.mk.inj hsame).2.symm

/-- A field with the value that was written for it, if one was. -/
abbrev Slot (V : Type) := String × Option V

def written (slots : List (Slot V)) : List (String × V) :=
  slots.filterMap fun s => s.2.map (s.1, ·)

section Written

variable {slots : List (Slot V)}

theorem mem_written : (name, v) ∈ written slots ↔ (name, some v) ∈ slots := by
  simp only [written, List.mem_filterMap, Option.map_eq_some_iff, Prod.mk.injEq]
  constructor
  · rintro ⟨⟨name, value⟩, hmem, v, hv, rfl, rfl⟩
    exact hv ▸ hmem
  · exact fun h => ⟨_, h, v, rfl, rfl, rfl⟩

theorem written_names (slots : List (Slot V)) :
    ((written slots).map Prod.fst).Sublist (slots.map Prod.fst) := by
  induction slots with
  | nil => exact .slnil
  | cons s slots ih =>
    obtain ⟨name, _ | v⟩ := s
    · exact .cons _ ih
    · exact .cons_cons _ ih

theorem written_nil : written ([] : List (Slot V)) = [] := rfl

theorem written_some (name : String) (v : V) (slots : List (Slot V)) :
    written ((name, some v) :: slots) = (name, v) :: written slots := rfl

theorem written_append (slots more : List (Slot V)) :
    written (slots ++ more) = written slots ++ written more := List.filterMap_append

/-- A slot with or without a value is an entry that may be left out. -/
theorem written_entry {α : Type} (name : String) (write : α → Json) (o : Option α) :
    written [(name, o.map write)] = Json.entry? name write o := by
  cases o <;> rfl

/-- A slot is found by its name, as a value or as the lack of one. -/
theorem lookup_written (hnames : (slots.map Prod.fst).Nodup) {s : Slot V} (hs : s ∈ slots) :
    (written slots).lookup s.1 = s.2 := by
  obtain ⟨name, _ | v⟩ := s
  · refine List.lookup_eq_none_iff.mpr fun e he => ?_
    have hne : name ≠ e.1 := by
      intro heq
      have hsame := List.inj_on_of_nodup_map hnames hs (mem_written.mp he) heq
      cases (Prod.mk.inj hsame).2
    simpa using hne
  · exact lookup_of_mem (hnames.sublist (written_names slots)) (mem_written.mpr hs)

end Written

/-! ### Values -/

namespace Json

variable {α : Type} {a : α} {o : Option α} {write : α → Json} {reader : Decoder α}

/-- A value that is decoded as another, also after it was written and read again. -/
structure Rereads (decoder : Decoder α) (j : Json) (a : α) : Prop where
  plain : j.isPlain = true
  decoded : decoder j = .ok a

theorem Rereads.text {decoder : Decoder α} {j : Json} (h : Rereads decoder j a) :
    Json.decode decoder (Json.write j) = .ok a :=
  (decode_write h.plain decoder).trans h.decoded

theorem rereads_str (s : String) : Rereads string (.str s) s := ⟨rfl, rfl⟩

theorem rereads_bool (b : Bool) : Rereads boolean (.bool b) b := ⟨rfl, rfl⟩

theorem rereads_integer {least largest i : Int} (hi : inRange i = true)
    (hbounds : least ≤ i ∧ i ≤ largest) : Rereads (integer least largest) (.int i) i where
  plain := isPlain_num.mpr ⟨i, rfl, hi⟩
  decoded := by simp only [integer, int, Number.value?_ofInt hi, hbounds, and_self, if_true]

theorem rereads_int {i : Int} (hi : inRange i = true) : Rereads int64 (.int i) i :=
  rereads_integer hi (inRange_iff.mp hi)

theorem rereads_nat {n largest : Nat} (hn : n ≤ largest)
    (hlargest : (largest : Int) ≤ largestAmount) : Rereads (natural largest) (.nat n) n := by
  have hi : inRange n = true := by
    simp only [inRange_iff, leastAmount]
    omega
  have hread : Rereads (integer 0 largest) (.int n) n := rereads_integer hi (by omega)
  exact ⟨hread.plain, by simp [natural, nat, hread.decoded]⟩

/-- A text that a reader accepts. -/
theorem rereads_parsed {read? : String → Option α} {s : String} (h : read? s = some a) :
    Rereads (parsed read?) (.str s) a where
  plain := rfl
  decoded := by
    simp only [parsed, string, bind, Except.bind, h]
    rfl

theorem rereads_word {find? : String → Option α} {s : String} (h : find? s = some a) :
    Rereads (word find?) (.str s) a := ⟨rfl, by simp [word, wordOver, h]⟩

theorem rereads_keptWord {find? : String → Option α} {s : String} (h : find? s = some a) :
    Rereads (keptWord find?) (.str s) a := ⟨rfl, by simp [keptWord, wordOver, h]⟩

/-- A value that may be lacking, of a kind that is not written as null. -/
theorem rereads_opt (hnull : ∀ a, isNull (write a) = false)
    (h : ∀ a ∈ o, Rereads reader (write a) a) : Rereads (optional reader) (.opt write o) o := by
  cases o with
  | none => exact ⟨rfl, rfl⟩
  | some a =>
    obtain ⟨hplain, hread⟩ := h a rfl
    exact ⟨hplain, by simp [optional, opt, Nullable.isNull, hnull a, hread]⟩

end Json

/-! ### Fields -/

open Json (Rereads)

/-- The value of a field for what was written of it. -/
def Field.Gives {α : Type} (f : Field Json α) : Option Json → α → Prop
  | some v, a => Rereads f.reader v a
  | none, a => f.missing = some a

namespace Record

variable {α β : Type} {a : α} {slots : List (Slot Json)}

def names (r : Record Json α) : List String := r.checks.map Prod.fst

/-- A record takes slots as a value: it has a field for each of them, and the fields make up the
value. -/
structure Takes (r : Record Json α) (slots : List (Slot Json)) (a : α) : Prop where
  names_eq : r.names = slots.map Prod.fst
  plain : ∀ name v, (name, some v) ∈ slots → v.isPlain = true
  checks : ∀ name v, (name, some v) ∈ slots → ∃ check, (name, check) ∈ r.checks ∧ check v = .ok ()
  named : ∀ entries : List (String × Json), (∀ s ∈ slots, entries.lookup s.1 = s.2) →
    r.named entries = .ok a

theorem Takes.build (a : α) : (build a : Record Json α).Takes [] a where
  names_eq := rfl
  plain := fun _ _ h => by cases h
  checks := fun _ _ h => by cases h
  named := fun _ _ => rfl

theorem Takes.field {r : Record Json (α → β)} {g : α → β} {f : Field Json α} {v : Option Json}
    (hr : r.Takes slots g) (hf : f.Gives v a) :
    (r.field f).Takes (slots ++ [(f.name, v)]) (g a) where
  names_eq := by
    have hnames := hr.names_eq
    simp only [names] at hnames
    simp [names, Record.field, hnames]
  plain := by
    intro name w hw
    rcases List.mem_append.mp hw with hw | hw
    · exact hr.plain name w hw
    · cases List.mem_singleton.mp hw
      exact hf.plain
  checks := by
    intro name w hw
    rcases List.mem_append.mp hw with hw | hw
    · obtain ⟨check, hcheck, hpass⟩ := hr.checks name w hw
      exact ⟨check, List.mem_append_left _ hcheck, hpass⟩
    · cases List.mem_singleton.mp hw
      have hread : f.reader w = .ok a := hf.decoded
      exact ⟨_, List.mem_append_right _ (List.mem_singleton.mpr rfl), by simp [hread]⟩
  named := by
    intro entries hentries
    have hg := hr.named entries fun s hs => hentries s (List.mem_append_left _ hs)
    have hv : entries.lookup f.name = v :=
      hentries (f.name, v) (List.mem_append_right _ List.mem_cons_self)
    cases v with
    | none =>
      have hmissing : f.missing = some a := hf
      simp only [Record.field, hg, hv, found, hmissing]
      rfl
    | some w =>
      have hread : f.reader w = .ok a := hf.decoded
      simp only [Record.field, hg, hv, hread]
      rfl

/-! The kinds of fields. A field without a value is written as null or left out. -/

section Kinds

variable {reader : Json.Decoder α} {write : α → Json} {o : Option α}

theorem Takes.required {r : Record Json (α → β)} {g : α → β} {v : Json} (hr : r.Takes slots g)
    (name : String) (h : Rereads reader v a) :
    (r.field (.required name reader)).Takes (slots ++ [(name, some v)]) (g a) := hr.field h

theorem Takes.nullable {r : Record Json (Option α → β)} {g : Option α → β} (hr : r.Takes slots g)
    (name : String) (o : Option α) (hnull : ∀ a, Json.isNull (write a) = false)
    (h : ∀ a ∈ o, Rereads reader (write a) a) :
    (r.field (.nullable name reader)).Takes (slots ++ [(name, some (.opt write o))]) (g o) :=
  hr.field (Json.rereads_opt hnull h)

theorem Takes.omissible {r : Record Json (Option α → β)} {g : Option α → β} (hr : r.Takes slots g)
    (name : String) (o : Option α) (hnull : ∀ a, Json.isNull (write a) = false)
    (h : ∀ a ∈ o, Rereads reader (write a) a) :
    (r.field (.omissible name reader)).Takes (slots ++ [(name, some (.opt write o))]) (g o) :=
  hr.field (Json.rereads_opt hnull h)

theorem gives_entry {f : Field Json (Option α)} (hreader : f.reader = optional reader)
    (hmissing : f.missing = some none) (hnull : ∀ a, Json.isNull (write a) = false)
    (h : ∀ a ∈ o, Rereads reader (write a) a) : f.Gives (o.map write) o := by
  cases o with
  | none => exact hmissing
  | some a =>
    have hread : Rereads (optional reader) (.opt write (some a)) (some a) :=
      Json.rereads_opt hnull h
    rwa [← hreader] at hread

theorem Takes.nullableEntry {r : Record Json (Option α → β)} {g : Option α → β}
    (hr : r.Takes slots g) (name : String) (o : Option α)
    (hnull : ∀ a, Json.isNull (write a) = false)
    (h : ∀ a ∈ o, Rereads reader (write a) a) :
    (r.field (.nullable name reader)).Takes (slots ++ [(name, o.map write)]) (g o) :=
  hr.field (gives_entry rfl rfl hnull h)

theorem Takes.omissibleEntry {r : Record Json (Option α → β)} {g : Option α → β}
    (hr : r.Takes slots g) (name : String) (o : Option α)
    (hnull : ∀ a, Json.isNull (write a) = false)
    (h : ∀ a ∈ o, Rereads reader (write a) a) :
    (r.field (.omissible name reader)).Takes (slots ++ [(name, o.map write)]) (g o) :=
  hr.field (gives_entry rfl rfl hnull h)

/-- A field that is read and never written has no value. -/
theorem Takes.unwritten {r : Record Json (Option α → β)} {g : Option α → β} (hr : r.Takes slots g)
    (name : String) (reader : Json.Decoder α) :
    (r.field (.omissible name reader)).Takes (slots ++ [(name, none)]) (g none) := hr.field rfl

end Kinds

/-- Entries with names of their own pass if each of them is known and sound. -/
theorem scan_known {isWhole : V → Bool} {checks : List (String × (V → Except Fault Unit))}
    {entries : List (String × V)} {seen : List String}
    (hchecks : ∀ e ∈ entries, ∃ check, checks.lookup e.1 = some check ∧ check e.2 = .ok ())
    (hnames : (entries.map Prod.fst).Nodup) (hseen : ∀ e ∈ entries, e.1 ∉ seen) :
    scan isWhole checks seen entries = .ok () := by
  induction entries generalizing seen with
  | nil => rfl
  | cons e entries ih =>
    obtain ⟨name, v⟩ := e
    obtain ⟨check, hcheck, hpass⟩ := hchecks (name, v) List.mem_cons_self
    obtain ⟨hfirst, hrest⟩ := List.nodup_cons.mp hnames
    have hnew : name ∉ seen := hseen (name, v) List.mem_cons_self
    have hseen' : ∀ e ∈ entries, e.1 ∉ name :: seen := by
      intro e he hmem
      rcases List.mem_cons.mp hmem with heq | hmem
      · exact hfirst (List.mem_map.mpr ⟨e, he, heq⟩)
      · exact hseen e (List.mem_cons_of_mem _ he) hmem
    simp only [scan, hcheck, hnew, if_false, hpass]
    exact ih (fun e he => hchecks e (List.mem_cons_of_mem _ he)) hrest hseen'

theorem isPlain_entries {entries : List (String × Json)}
    (h : ∀ name v, (name, v) ∈ entries → v.isPlain = true) : (Json.obj entries).isPlain = true := by
  induction entries with
  | nil => rfl
  | cons e entries ih =>
    obtain ⟨name, v⟩ := e
    exact Json.isPlain_obj.mpr ⟨h name v List.mem_cons_self,
      ih fun name v hv => h name v (List.mem_cons_of_mem _ hv)⟩

/-- The object of some slots is decoded as the value that the record takes them as. -/
theorem Takes.rereads {r : Record Json α} (h : r.Takes slots a) (hnames : r.names.Nodup) :
    Rereads r.decode (.obj (written slots)) a where
  plain := isPlain_entries fun name v hv => h.plain name v (mem_written.mp hv)
  decoded := by
    have hslots : (slots.map Prod.fst).Nodup := h.names_eq ▸ hnames
    have hscan : scan Json.isWhole r.checks [] (written slots) = .ok () := by
      refine scan_known ?_ (hslots.sublist (written_names slots)) (by simp)
      rintro ⟨name, v⟩ he
      obtain ⟨check, hcheck, hpass⟩ := h.checks name v (mem_written.mp he)
      exact ⟨check, lookup_of_mem hnames hcheck, hpass⟩
    have hnamed := h.named (written slots) fun s hs => lookup_written hslots hs
    simp only [Record.decode, hscan]
    exact hnamed

end Record

end WalletBudget
