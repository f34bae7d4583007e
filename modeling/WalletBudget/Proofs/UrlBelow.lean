import Mathlib.Data.List.TakeWhile
import WalletBudget.Proofs.PercentEscapes
import WalletBudget.Vasp.Client

/-!
Addresses below the address of the provider's interface.

Scheme and authority of such an address are settled in front of its path, whatever the path is. The
path goes on from the segments of the interface, and each of its parts adds a segment, adds none or
takes the last one away. The target of a request tells the segments it was made of.
-/

namespace WalletBudget

variable {α : Type} {p : α → Bool} {c : Char} {cs xs ys part seg : List Char}
  {done segs parts : List (List Char)} {root u v : Url}

theorem dropWhile_append_cons {xs ys : List α} {a : α} (h : p a = false) :
    (xs ++ a :: ys).dropWhile p = xs.dropWhile p ++ a :: ys := by
  rw [List.dropWhile_append]
  split
  · simp_all
  · rfl

theorem takeWhile_append_cons {xs ys : List α} {a : α} (h : p a = false) :
    (xs ++ a :: ys).takeWhile p = xs.takeWhile p := by
  induction xs with
  | nil => simp [h]
  | cons b xs ih => cases hb : p b <;> simp [hb, ih]

namespace Url

/-! ### Segments -/

theorem splitSlashes_ne_nil (cs : List Char) : splitSlashes cs ≠ [] := by
  cases cs with
  | nil => simp [splitSlashes]
  | cons c rest =>
    rw [splitSlashes]
    split
    · simp
    · split <;> simp

theorem splitSlashes_append (hc : isSlash c = true) (xs ys : List Char) :
    splitSlashes (xs ++ c :: ys) = splitSlashes xs ++ splitSlashes ys := by
  induction xs with
  | nil => simp [splitSlashes, hc]
  | cons x xs ih =>
    rw [List.cons_append, splitSlashes, splitSlashes, ih]
    split
    · rfl
    · cases hxs : splitSlashes xs with
      | nil => exact absurd hxs (splitSlashes_ne_nil xs)
      | cons part parts => rfl

theorem splitSlashes_free (h : ∀ c ∈ cs, isSlash c = false) : splitSlashes cs = [cs] := by
  induction cs with
  | nil => rfl
  | cons c rest ih =>
    have hc : isSlash c = false := h c List.mem_cons_self
    rw [splitSlashes, ih fun d hd => h d (List.mem_cons_of_mem _ hd)]
    simp [hc]

/-- A part has no slash, and the rest of its characters are as they were. -/
theorem mem_splitSlashes (h : part ∈ splitSlashes cs) :
    part.Sublist cs ∧ ∀ c ∈ part, isSlash c = false := by
  induction cs generalizing part with
  | nil =>
    obtain rfl : part = [] := by simpa [splitSlashes] using h
    simp
  | cons c rest ih =>
    rw [splitSlashes] at h
    split at h
    · rcases List.mem_cons.mp h with rfl | h
      · simp
      · obtain ⟨hsub, hfree⟩ := ih h
        exact ⟨hsub.cons _, hfree⟩
    · rename_i hc
      cases hrest : splitSlashes rest with
      | nil => exact absurd hrest (splitSlashes_ne_nil rest)
      | cons first parts =>
        rw [hrest] at h ih
        rcases List.mem_cons.mp h with rfl | h
        · obtain ⟨hsub, hfree⟩ := ih List.mem_cons_self
          refine ⟨hsub.cons_cons _, ?_⟩
          simpa [hc] using hfree
        · obtain ⟨hsub, hfree⟩ := ih (List.mem_cons_of_mem _ h)
          exact ⟨hsub.cons _, hfree⟩

theorem walk_cons (h : ¬ (dots? part = some 1 ∨ dots? part = some 2)) :
    walk done (part :: parts) = walk (encodeSegment part :: done) parts := by
  rw [not_or] at h
  simp [walk, h]

/-- A part that is not the last one comes to the same segments, whatever follows. -/
theorem walk_part (part : List Char) (done : List (List Char)) :
    ∃ done', ∀ parts, parts ≠ [] → walk done (part :: parts) = walk done' parts := by
  by_cases hdots : dots? part = some 1 ∨ dots? part = some 2
  · rcases hdots with hone | htwo
    · exact ⟨done, fun parts hparts => by simp [walk, hone, hparts]⟩
    · exact ⟨done.drop 1, fun parts hparts => by simp [walk, htwo, hparts]⟩
  · exact ⟨_, fun _ _ => walk_cons hdots⟩

theorem walk_append (parts : List (List Char)) (done : List (List Char)) :
    ∃ done', ∀ later, later ≠ [] → walk done (parts ++ later) = walk done' later := by
  induction parts generalizing done with
  | nil => exact ⟨done, fun _ _ => rfl⟩
  | cons part parts ih =>
    obtain ⟨first, hfirst⟩ := walk_part part done
    obtain ⟨done', hdone⟩ := ih first
    refine ⟨done', fun later hlater => ?_⟩
    rw [List.cons_append, hfirst _ (by simp [hlater]), hdone later hlater]

theorem segmentsOf_append (xs : List Char) :
    ∃ done, ∀ ys, segmentsOf (xs ++ '/' :: ys) = walk done (splitSlashes ys) := by
  cases xs with
  | nil => exact ⟨[], fun _ => rfl⟩
  | cons x xs =>
    obtain ⟨done, hdone⟩ := walk_append (splitSlashes xs) []
    refine ⟨done, fun ys => ?_⟩
    rw [← hdone _ (splitSlashes_ne_nil ys), ← splitSlashes_append (c := '/') rfl]
    rfl

/-- A part of dots leaves an empty segment at the end, and any other part its own. -/
theorem walk_concat (parts : List (List Char)) (part : List Char) (done : List (List Char)) :
    ∃ before, if dots? part = some 1 ∨ dots? part = some 2 then
      walk done (parts ++ [part]) = before ++ [[]]
    else walk done (parts ++ [part]) = before ++ [encodeSegment part] := by
  obtain ⟨done', hdone⟩ := walk_append parts done
  rw [hdone [part] (by simp)]
  by_cases hdots : dots? part = some 1 ∨ dots? part = some 2
  · rcases hdots with hone | htwo
    · exact ⟨done'.reverse, by simp [walk, hone]⟩
    · exact ⟨(done'.drop 1).reverse, by simp [walk, htwo]⟩
  · refine ⟨done'.reverse, ?_⟩
    rw [if_neg hdots, walk_cons hdots, walk, List.reverse_cons]

def Plain (segs : List (List Char)) : Prop := ∀ seg ∈ segs, ∀ c ∈ seg, c ≠ '/' ∧ c ≠ '?'

theorem plain_encodeSegment (h : ∀ c ∈ part, isSlash c = false) :
    ∀ c ∈ encodeSegment part, c ≠ '/' ∧ c ≠ '?' := by
  have hall : ∀ n < 256, (Percent.encode escapedInPath [UInt8.ofNat n]).all
      (fun c => (c ≠ '/' ∨ UInt8.ofNat n = 47) ∧ c ≠ '?') = true := by decide +kernel
  have hbyte : ∀ b : UInt8, ∀ c ∈ Percent.encode escapedInPath [b],
      (c ≠ '/' ∨ b = 47) ∧ c ≠ '?' := by
    intro b
    simpa using hall b.toNat b.toNat_lt
  intro c hc
  obtain ⟨b, hb, hc⟩ := List.mem_flatMap.mp hc
  obtain ⟨hslash, hmark⟩ := hbyte b c (by simpa [Percent.encode] using hc)
  refine ⟨fun he => ?_, hmark⟩
  obtain rfl : b = 47 := hslash.resolve_left (not_not_intro he)
  exact absurd (h _ (Percent.char_mem_of_mem_bytes (by decide) hb)) (by decide)

theorem plain_walk (hdone : Plain done) (h : ∀ part ∈ parts, ∀ c ∈ part, isSlash c = false) :
    Plain (walk done parts) := by
  induction parts generalizing done with
  | nil => simpa [walk, Plain] using hdone
  | cons part parts ih =>
    rw [walk]
    refine ih ?_ fun q hq => h q (List.mem_cons_of_mem _ hq)
    have hdrop : Plain (done.drop 1) := fun seg hseg => hdone seg (List.mem_of_mem_drop hseg)
    have hnil : ∀ {segs}, Plain segs → Plain ([] :: segs) := by simp [Plain]
    have hpart := plain_encodeSegment (h part List.mem_cons_self)
    split
    · split
      · exact hnil hdone
      · exact hdone
    · split
      · exact hnil hdrop
      · exact hdrop
    · simpa [Plain] using ⟨hpart, hdone⟩

/-- Segments behind slashes are told apart by the slashes. -/
theorem flatMap_slash_inj {segs' : List (List Char)} (h : Plain segs) (h' : Plain segs')
    (heq : segs.flatMap (fun s => '/' :: s) = segs'.flatMap (fun s => '/' :: s)) :
    segs = segs' := by
  induction segs generalizing segs' with
  | nil =>
    cases segs' with
    | nil => rfl
    | cons s segs' => simp at heq
  | cons s segs ih =>
    cases segs' with
    | nil => simp at heq
    | cons s' segs' =>
      have hstop : ∀ ss : List (List Char),
          (ss.flatMap (fun s => '/' :: s)).takeWhile (· ≠ '/') = [] :=
        fun ss => by cases ss <;> simp
      have hfree : ∀ {s : List Char} {ss}, Plain (s :: ss) → ∀ c ∈ s, decide (c ≠ '/') = true :=
        fun hp c hc => by simpa using (hp _ List.mem_cons_self c hc).1
      simp only [List.flatMap_cons, List.cons_append, List.cons.injEq, true_and] at heq
      have hfirst := congrArg (List.takeWhile (· ≠ '/')) heq
      rw [List.takeWhile_append_of_pos (hfree h), List.takeWhile_append_of_pos (hfree h'), hstop,
        hstop, List.append_nil, List.append_nil] at hfirst
      subst hfirst
      rw [ih (fun q hq => h q (List.mem_cons_of_mem _ hq))
        (fun q hq => h' q (List.mem_cons_of_mem _ hq)) (List.append_cancel_left heq)]

/-- The target of a request tells the segments of its path. -/
theorem segments_of_target (hu : Plain u.segments) (hv : Plain v.segments)
    (h : u.target = v.target) : u.segments = v.segments := by
  have hpath : ∀ {w : Url}, Plain w.segments → w.target.toList.takeWhile (· ≠ '?') =
      w.segments.flatMap (fun s => '/' :: s) := by
    intro w hw
    have hfree : ∀ c ∈ w.segments.flatMap (fun s => '/' :: s), decide (c ≠ '?') = true := by
      intro c hc
      obtain ⟨s, hs, hc⟩ := List.mem_flatMap.mp hc
      rcases List.mem_cons.mp hc with rfl | hc
      · decide
      · simpa using (hw s hs c hc).2
    unfold target
    rw [String.toList_ofList]
    split
    · exact List.takeWhile_eq_self_iff.mpr hfree
    · rw [takeWhile_append_cons (by decide)]
      exact List.takeWhile_eq_self_iff.mpr hfree
  exact flatMap_slash_inj hu hv (by rw [← hpath hu, ← hpath hv, h])

/-! ### Reading -/

/-- What is read of a text behind which nothing follows. -/
def ended (cs : List Char) : List Char :=
  (cs.reverse.dropWhile (fun c => c.toNat ≤ 32)).reverse.filter
    (fun c => c ≠ '\t' && c ≠ '\n' && c ≠ '\r')

def pathOf (cs : List Char) : List Char := cs.takeWhile (fun c => !endsPath c)

def queryOf (cs : List Char) : Option (List Char) :=
  match cs.drop (pathOf cs).length with
  | '?' :: rest => some (encodeQuery (rest.takeWhile (· ≠ '#')))
  | _ => none

/-- A slash keeps what stands in front of it from the end. -/
theorem ended_append (xs ys : List Char) : ended (xs ++ '/' :: ys) =
    xs.filter (fun c => c ≠ '\t' && c ≠ '\n' && c ≠ '\r') ++ '/' :: ended ys := by
  simp only [ended]
  rw [List.reverse_append, List.reverse_cons, List.append_assoc, List.singleton_append,
    dropWhile_append_cons (by decide), List.reverse_append, List.reverse_cons,
    List.reverse_reverse, List.append_assoc, List.singleton_append, List.filter_append,
    List.filter_cons]
  rfl

/-- Nothing behind a slash changes what is read in front of it. -/
theorem cleaned_append (xs : List Char) : ∃ front, (∀ c ∈ front, c ∈ xs) ∧
    ∀ ys, cleaned (xs ++ '/' :: ys) = front ++ '/' :: ended ys := by
  refine ⟨(xs.dropWhile (fun c => c.toNat ≤ 32)).filter
    (fun c => c ≠ '\t' && c ≠ '\n' && c ≠ '\r'), fun c hc => ?_, fun ys => ?_⟩
  · exact (List.dropWhile_sublist _).mem (List.mem_of_mem_filter hc)
  · have hcleaned : cleaned (xs ++ '/' :: ys) =
        ended ((xs ++ '/' :: ys).dropWhile (fun c => c.toNat ≤ 32)) := rfl
    rw [hcleaned, dropWhile_append_cons (by decide), ended_append]

def afterScheme (cs : List Char) : List Char := ((cs.dropWhile (· ≠ ':')).drop 1).dropWhile isSlash

def authorityOf (cs : List Char) : List Char := cs.takeWhile (fun c => !isSlash c && !endsPath c)

def afterAuthority (cs : List Char) : List Char :=
  (afterScheme cs).drop (authorityOf (afterScheme cs)).length

/-- What a text is taken for, whether it is an address or not. -/
def partsOf (cs : List Char) : Url where
  scheme := String.ofList ((cs.takeWhile (· ≠ ':')).map Char.toLower)
  authority := authorityOf (afterScheme cs)
  segments := segmentsOf (pathOf (afterAuthority cs))
  query := queryOf (afterAuthority cs)

/-- The text of an address names a web scheme and an authority. -/
theorem read?_eq_some {s : String} : read? s = some u ↔ u = partsOf (cleaned s.toList) ∧
    u.scheme ∈ webSchemes ∧ u.authority ≠ [] := by
  by_cases hscheme : (!webSchemes.contains (partsOf (cleaned s.toList)).scheme) = true
  · have hread : read? s = none := by
      unfold read?
      exact if_pos hscheme
    simp only [hread, reduceCtorEq, false_iff]
    rintro ⟨rfl, hweb, -⟩
    simp [hweb] at hscheme
  by_cases hempty : (partsOf (cleaned s.toList)).authority = []
  · have hread : read? s = none := by
      unfold read?
      refine (if_neg hscheme).trans ?_
      change (if authorityOf (afterScheme (cleaned s.toList)) = [] then none else _) = none
      exact if_pos hempty
    simp only [hread, reduceCtorEq, false_iff]
    rintro ⟨rfl, -, hauthority⟩
    exact hauthority hempty
  · have hread : read? s = some (partsOf (cleaned s.toList)) := by
      unfold read?
      refine (if_neg hscheme).trans ?_
      refine (if_neg hempty).trans (congrArg some ?_)
      rw [partsOf, Url.mk.injEq]
      refine ⟨rfl, rfl, rfl, ?_⟩
      unfold queryOf pathOf afterAuthority authorityOf afterScheme
      generalize List.drop _ (List.drop _ _) = later
      rcases later with _ | ⟨c, later⟩
      · rfl
      · by_cases hc : c = '?'
        · subst hc
          rfl
        · simp [hc]
    simp only [hread, Option.some.injEq]
    constructor
    · rintro rfl
      exact ⟨rfl, by simpa using hscheme, hempty⟩
    · rintro ⟨rfl, -⟩
      rfl

/-- Slashes right behind the scheme are skipped, however many there are. -/
theorem afterScheme_append (hcolon : ':' ∈ xs) : ∃ rest, ∀ ys,
    afterScheme (xs ++ ys) = (rest ++ ys).dropWhile isSlash := by
  obtain ⟨scheme, rest, rfl, hscheme⟩ := List.eq_append_cons_of_mem hcolon
  have hfree : ∀ c ∈ scheme, decide (c ≠ ':') = true := by
    intro c hc
    simpa using fun he : c = ':' => hscheme (he ▸ hc)
  refine ⟨rest, fun ys => ?_⟩
  rw [afterScheme, List.append_assoc, List.dropWhile_append_of_pos hfree]
  simp

theorem afterAuthority_sublist (cs : List Char) : (afterAuthority cs).Sublist cs := by
  refine (List.drop_sublist _ _).trans ((List.dropWhile_sublist _).trans ?_)
  exact (List.drop_sublist _ _).trans (List.dropWhile_sublist _)

theorem afterAuthority_append (h : ∀ ys, afterScheme (xs ++ ys) = afterScheme xs ++ ys)
    (ys : List Char) : authorityOf (afterScheme (xs ++ '/' :: ys)) = authorityOf (afterScheme xs) ∧
      afterAuthority (xs ++ '/' :: ys) = afterAuthority xs ++ '/' :: ys := by
  have hauthority : authorityOf (afterScheme (xs ++ '/' :: ys)) = authorityOf (afterScheme xs) := by
    rw [h]
    exact takeWhile_append_cons (by decide)
  refine ⟨hauthority, ?_⟩
  have hle : (authorityOf (afterScheme xs)).length ≤ (afterScheme xs).length :=
    (List.takeWhile_prefix _).length_le
  rw [afterAuthority, hauthority, h, List.drop_append_of_le_length hle, afterAuthority]

theorem pathOf_append (h : ∀ c ∈ xs, endsPath c = false) (ys : List Char) :
    pathOf (xs ++ '/' :: ys) = xs ++ '/' :: pathOf ys := by
  rw [pathOf, List.takeWhile_append_of_pos (by simpa using h), List.takeWhile_cons,
    if_pos (by decide)]
  rfl

theorem queryOf_append (h : ∀ c ∈ xs, endsPath c = false) (ys : List Char) :
    queryOf (xs ++ '/' :: ys) = queryOf ys := by
  rw [queryOf, pathOf_append h, queryOf]
  simp

/-- What goes on behind a slash belongs to the path, once an authority stands in front of it. -/
theorem partsOf_append (hxs : ∀ c ∈ xs, endsPath c = false)
    (hweb : (partsOf (xs ++ ['/'])).scheme ∈ webSchemes)
    (hauthority : (partsOf (xs ++ ['/'])).authority ≠ []) (ys : List Char) :
    partsOf (xs ++ '/' :: ys) = ⟨(partsOf xs).scheme, (partsOf xs).authority,
      segmentsOf (afterAuthority xs ++ '/' :: pathOf ys), queryOf ys⟩ := by
  have hcolon : ':' ∈ xs := by
    by_contra hnone
    have hall : ∀ c ∈ xs ++ ['/'], decide (c ≠ ':') = true := by
      intro c hc
      simp only [decide_eq_true_eq]
      rintro rfl
      simp_all
    have hslash : '/' ∈ (partsOf (xs ++ ['/'])).scheme.toList := by
      rw [partsOf, List.takeWhile_eq_self_iff.mpr hall]
      simp
    revert hslash
    exact (by decide : ∀ s ∈ webSchemes, '/' ∉ s.toList) _ hweb
  obtain ⟨rest, hrest⟩ := afterScheme_append hcolon
  have hhost : rest.dropWhile isSlash ≠ [] := by
    intro hnone
    apply hauthority
    rw [partsOf, hrest, List.dropWhile_append, hnone]
    rfl
  have hkept : ∀ ys, afterScheme (xs ++ ys) = afterScheme xs ++ ys := by
    intro ys
    have hxs := hrest []
    rw [List.append_nil, List.append_nil] at hxs
    rw [hrest, hxs, List.dropWhile_append, if_neg (by simpa using hhost)]
  obtain ⟨hplace, hbehind⟩ := afterAuthority_append hkept ys
  have hbase : ∀ c ∈ afterAuthority xs, endsPath c = false :=
    fun c hc => hxs c ((afterAuthority_sublist xs).mem hc)
  have hname : (partsOf (xs ++ '/' :: ys)).scheme = (partsOf xs).scheme := by
    obtain ⟨scheme, rest, rfl, -⟩ := List.eq_append_cons_of_mem hcolon
    rw [partsOf, partsOf, List.append_assoc, List.cons_append,
      takeWhile_append_cons (by decide), takeWhile_append_cons (by decide)]
  rw [← hname, partsOf, hplace, hbehind, pathOf_append hbase, queryOf_append hbase]
  rfl

theorem plain_partsOf (cs : List Char) : Plain (partsOf cs).segments := by
  rw [partsOf]
  unfold segmentsOf
  split
  · simp [Plain]
  · exact plain_walk (by simp [Plain]) fun part hpart => (mem_splitSlashes hpart).2

/-- Any path below the address of the interface is read on from its segments. -/
theorem read?_below {config : VaspConfig}
    (hbase : ∀ c ∈ config.baseUrl.toList, endsPath c = false)
    (hroot : read? (config.url "") = some root) (path : String) :
    read? (config.url path) = some { root with
      segments := walk root.segments.dropLast.reverse
        (splitSlashes (pathOf (ended (path.toList.dropWhile (· = '/')))))
      query := queryOf (ended (path.toList.dropWhile (· = '/'))) } := by
  obtain ⟨front, hfront, hcleaned⟩ :=
    cleaned_append (config.baseUrl.toList.reverse.dropWhile (· = '/')).reverse
  have hurl : ∀ path, cleaned (config.url path).toList =
      front ++ '/' :: ended (path.toList.dropWhile (· = '/')) := by
    intro path
    rw [VaspConfig.url, String.toList_ofList, hcleaned]
  have hempty : cleaned (config.url "").toList = front ++ ['/'] := hurl ""
  have hfree : ∀ c ∈ front, endsPath c = false := fun c hc =>
    hbase c (by simpa using (List.dropWhile_sublist _).mem (List.mem_reverse.mp (hfront c hc)))
  obtain ⟨rfl, hweb, hauthority⟩ := read?_eq_some.mp hroot
  rw [hempty] at hweb hauthority ⊢
  have hparts := partsOf_append hfree hweb hauthority
  obtain ⟨done, hdone⟩ := segmentsOf_append (afterAuthority front)
  have hend : walk done (splitSlashes (pathOf [])) = done.reverse ++ [[]] := by
    simp [splitSlashes, walk, dots?, encodeSegment, Percent.encode, Percent.bytes, pathOf]
  refine read?_eq_some.mpr ⟨?_, hweb, hauthority⟩
  rw [hurl, hparts, hparts, hdone, hdone, hend]
  simp

end Url

end WalletBudget
