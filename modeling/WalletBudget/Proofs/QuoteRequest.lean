import Mathlib.Data.List.DropRight
import WalletBudget.Proofs.UrlBelow

/-!
Where the call that executes a quote goes.

The payment hash is written into the path as it is, and it is the address that gives its slashes,
dots, marks and escapes a meaning. The call stays with the provider whatever the hash is, but it
names the quote only of a hash that stands for itself.
-/

namespace WalletBudget

variable {cs part : List Char} {root u : Url} {hash : String}
  {pairs : List (List UInt8 × List UInt8)} {added : List (String × String)}

theorem Percent.bytes_cons (c : Char) (cs : List Char) :
    bytes (String.ofList (c :: cs)) = String.utf8EncodeChar c ++ bytes (String.ofList cs) := by
  rw [bytes_ofList, bytes_ofList, List.flatMap_cons]

/-- Of the texts that a text leaves when characters are taken out, only itself has as many bytes. -/
theorem Percent.eq_of_sublist (h : part.Sublist cs)
    (hle : (bytes (String.ofList cs)).length ≤ (bytes (String.ofList part)).length) :
    part = cs := by
  have hbytes : ∀ {xs ys : List Char}, xs.Sublist ys →
      (bytes (String.ofList xs)).length ≤ (bytes (String.ofList ys)).length := by
    intro xs ys h
    induction h with
    | slnil => exact Nat.le_refl _
    | cons c _ ih =>
      rw [bytes_cons, List.length_append]
      omega
    | cons_cons c _ ih =>
      rw [bytes_cons, bytes_cons, List.length_append, List.length_append]
      omega
  induction h with
  | slnil => rfl
  | cons c hsub ih =>
    have hshort := hbytes hsub
    have hpos := c.utf8Size_pos
    rw [bytes_cons, List.length_append, String.length_utf8EncodeChar] at hle
    omega
  | cons_cons c hsub ih =>
    rw [bytes_cons, bytes_cons, List.length_append, List.length_append] at hle
    rw [ih (by omega)]

/-! ### Texts that stand for themselves -/

/-- A text that an address takes for one segment which decodes to the text. -/
structure StandsForItself (cs : List Char) : Prop where
  unparted : ∀ c ∈ cs, Url.isSlash c = false ∧ Url.endsPath c = false
  uncut : ∀ c ∈ cs, c ≠ '\t' ∧ c ≠ '\n' ∧ c ≠ '\r'
  closed : ∀ c ∈ cs.getLast?, 32 < c.toNat
  undotted : cs ≠ ['.'] ∧ cs ≠ ['.', '.']
  unescaped : Percent.Unescaped (Percent.bytes (String.ofList cs))

namespace Url

theorem ended_def (cs : List Char) : ended cs =
    (cs.rdropWhile fun c => c.toNat ≤ 32).filter fun c => c ≠ '\t' && c ≠ '\n' && c ≠ '\r' := rfl

theorem ended_sublist (cs : List Char) : (ended cs).Sublist cs :=
  List.filter_sublist.trans (List.rdropWhile_prefix _ cs).sublist

/-- Nothing of a text is cut off if and only if it has no tab and no line end and does not end in
a blank or a control. -/
theorem ended_eq_self : ended cs = cs ↔
    (∀ c ∈ cs, c ≠ '\t' ∧ c ≠ '\n' ∧ c ≠ '\r') ∧ ∀ c ∈ cs.getLast?, 32 < c.toNat := by
  have hend : cs.rdropWhile (fun c => c.toNat ≤ 32) = cs ↔ ∀ c ∈ cs.getLast?, 32 < c.toNat := by
    rw [List.rdropWhile_eq_self_iff]
    by_cases hcs : cs = [] <;> simp [hcs, List.getLast?_eq_some_getLast]
  constructor
  · intro h
    have hcut : cs.rdropWhile (fun c => c.toNat ≤ 32) = cs := by
      have hkept : (ended cs).Sublist (cs.rdropWhile fun c => c.toNat ≤ 32) := List.filter_sublist
      rw [h] at hkept
      exact (List.rdropWhile_prefix _ cs).sublist.antisymm hkept
    rw [ended_def, hcut, List.filter_eq_self] at h
    exact ⟨by simpa [and_assoc] using h, hend.mp hcut⟩
  · rintro ⟨hcs, hlast⟩
    rw [ended_def, hend.mpr hlast, List.filter_eq_self]
    simpa [and_assoc] using hcs

theorem pathOf_eq_self : pathOf cs = cs ↔ ∀ c ∈ cs, endsPath c = false := by
  rw [pathOf, List.takeWhile_eq_self_iff]
  simp

/-- What remains of a text before its end has all of the text only if nothing cuts it. -/
theorem pathOf_ended_eq_self : pathOf (ended cs) = cs ↔ ended cs = cs ∧ pathOf cs = cs := by
  constructor
  · intro h
    have hended : ended cs = cs := by
      have hsub : (pathOf (ended cs)).Sublist (ended cs) := List.takeWhile_sublist _
      rw [h] at hsub
      exact (ended_sublist cs).antisymm hsub
    exact ⟨hended, by rwa [hended] at h⟩
  · rintro ⟨hended, hpath⟩
    rw [hended, hpath]

theorem toLower_eq_e {c : Char} (h : c.toLower = 'e') : c = 'e' ∨ c = 'E' := by
  unfold Char.toLower at h
  split at h
  · have hval : c.val + 32 = 101 := congrArg Char.val h
    have hdiff : c.val = 101 - 32 := by rw [← hval]; simp
    exact .inr (Char.ext hdiff)
  · exact .inl h

/-- Where no escape is among them, dots are dots. -/
theorem dots?_unescaped (h : Percent.Unescaped (Percent.bytes (String.ofList cs))) {n : Nat}
    (hdots : dots? cs = some n) : cs = List.replicate n '.' := by
  fun_induction dots? cs generalizing n with
  | case1 =>
    obtain rfl : 0 = n := by simpa using hdots
    rfl
  | case2 rest ih =>
    obtain ⟨m, hm, rfl⟩ := Option.map_eq_some_iff.mp hdots
    rw [Percent.bytes_cons] at h
    rw [ih (Percent.unescaped_cons.mp h).2 hm, List.replicate_succ]
  | case3 e rest he ih =>
    -- An escaped dot is an escape.
    rw [Percent.bytes_cons, Percent.bytes_cons, Percent.bytes_cons] at h
    exfalso
    rcases toLower_eq_e he with rfl | rfl
    · exact (Percent.unescaped_cons.mp h).1 rfl ⟨50, 101, _, rfl, by decide, by decide⟩
    · exact (Percent.unescaped_cons.mp h).1 rfl ⟨50, 69, _, rfl, by decide, by decide⟩
  | case4 => simp at hdots
  | case5 => simp at hdots

theorem decode_encodeSegment (part : List Char) :
    Percent.decode (Percent.bytes (String.ofList (encodeSegment part))) =
      Percent.decode (Percent.bytes (String.ofList part)) := by
  have hall : ∀ n < 256, (Percent.digit? (UInt8.ofNat n)).isSome = true →
      escapedInPath (UInt8.ofNat n) = false := by decide +kernel
  have hdigit : ∀ b, (Percent.digit? b).isSome = true → escapedInPath b = false := by
    intro b hb
    simpa using hall b.toNat b.toNat_lt (by simpa using hb)
  rw [encodeSegment, Percent.bytes_encode]
  exact Percent.decode_written (by decide) hdigit _

end Url

namespace Vasp

open Url

def queryPairs (query : Option (List Char)) : List (List UInt8 × List UInt8) :=
  match query with
  | none => []
  | some q => Form.decode (String.ofList q)

/-- A target right below the one of the interface: a segment for quotes, then one more that decodes
to the hash, and a query. -/
def QuoteTarget (root : Url) (hash : String) (pairs : List (List UInt8 × List UInt8))
    (target : String) : Prop :=
  ∃ segment query, (∀ c ∈ segment, c ≠ '/' ∧ c ≠ '?') ∧
    target = ({ root with
      segments := root.segments.dropLast ++ ["quote".toList, segment]
      query := query } : Url).target ∧
    Percent.decode (Percent.bytes (String.ofList segment)) = Percent.bytes hash ∧
    queryPairs query = pairs

/-- The parts that the path of a hash comes to, behind the one for quotes. -/
def hashParts (hash : String) : List (List Char) := splitSlashes (pathOf (ended hash.toList))

def quoteUrl (root : Url) (hash : String) : Url :=
  { root with
    segments := walk root.segments.dropLast.reverse ("quote".toList :: hashParts hash)
    query := queryOf (ended hash.toList) }

/-- The name of the segment for quotes has a meaning of its own nowhere in an address. -/
theorem quote_plain : ∀ c ∈ "quote".toList,
    isSlash c = false ∧ endsPath c = false ∧ c ≠ '/' ∧ c ≠ '?' := by
  simp [isSlash, endsPath]

theorem read?_executeQuote {config : VaspConfig}
    (hbase : ∀ c ∈ config.baseUrl.toList, endsPath c = false)
    (hroot : read? (config.url "") = some root) (hash : String) (code : Option String) :
    read? (config.url (executeQuote hash code).path) = some (quoteUrl root hash) := by
  have hpath : (executeQuote hash code).path.toList.dropWhile (· = '/') =
      "quote".toList ++ '/' :: hash.toList := by
    simp only [executeQuote, String.toList_append]
    rfl
  have hfree : ∀ c ∈ "quote".toList, endsPath c = false := fun c hc => (quote_plain c hc).2.1
  rw [read?_below hbase hroot, hpath, ended_append]
  have hkept : "quote".toList.filter (fun c => c ≠ '\t' && c ≠ '\n' && c ≠ '\r') =
      "quote".toList := by decide
  rw [hkept, pathOf_append hfree, queryOf_append hfree, splitSlashes_append rfl,
    splitSlashes_free fun c hc => (quote_plain c hc).1]
  rfl

theorem pathOf_ended_sublist (cs : List Char) : (pathOf (ended cs)).Sublist cs :=
  (List.takeWhile_sublist _).trans (ended_sublist cs)

theorem hashParts_sublist (hpart : part ∈ hashParts hash) : part.Sublist hash.toList :=
  (mem_splitSlashes hpart).1.trans (pathOf_ended_sublist _)

/-- Decoding makes no text longer, so what decodes to the hash is all of it. -/
theorem eq_of_decode (hsub : part.Sublist hash.toList)
    (hdecode : Percent.decode (Percent.bytes (String.ofList part)) = Percent.bytes hash) :
    part = hash.toList := by
  have hlength := Percent.length_decode_le (Percent.bytes (String.ofList part))
  rw [hdecode] at hlength
  exact Percent.eq_of_sublist hsub (by rwa [String.ofList_toList])

/-- A part is the hash only if nothing was cut off or parted. -/
theorem standsForItself_of_decode (hpart : part ∈ hashParts hash)
    (hdots : ¬ (dots? part = some 1 ∨ dots? part = some 2))
    (hdecode : Percent.decode (Percent.bytes (String.ofList part)) = Percent.bytes hash) :
    StandsForItself hash.toList := by
  obtain ⟨hsub, hslash⟩ := mem_splitSlashes hpart
  obtain rfl : part = hash.toList := eq_of_decode (hashParts_sublist hpart) hdecode
  obtain ⟨hended, hends⟩ :=
    pathOf_ended_eq_self.mp ((pathOf_ended_sublist _).antisymm hsub)
  obtain ⟨huncut, hclosed⟩ := ended_eq_self.mp hended
  refine ⟨fun c hc => ⟨hslash c hc, pathOf_eq_self.mp hends c hc⟩, huncut, hclosed, ?_, ?_⟩
  · constructor
    · exact fun hdot => hdots (.inl (by rw [hdot]; rfl))
    · exact fun hdot => hdots (.inr (by rw [hdot]; rfl))
  · rw [String.ofList_toList] at hdecode ⊢
    exact Percent.decode_eq_self.mp hdecode

theorem hashParts_of_standsForItself (h : StandsForItself hash.toList) :
    hashParts hash = [hash.toList] ∧ queryOf (ended hash.toList) = none ∧
      ¬ (dots? hash.toList = some 1 ∨ dots? hash.toList = some 2) := by
  have hended := ended_eq_self.mpr ⟨h.uncut, h.closed⟩
  have hpath := pathOf_eq_self.mpr fun c hc => (h.unparted c hc).2
  refine ⟨?_, ?_, ?_⟩
  · rw [hashParts, hended, hpath, splitSlashes_free fun c hc => (h.unparted c hc).1]
  · rw [hended, queryOf, hpath, List.drop_length]
  · rintro (hdot | hdot)
    · exact h.undotted.1 (dots?_unescaped h.unescaped hdot)
    · exact h.undotted.2 (dots?_unescaped h.unescaped hdot)

theorem queryPairs_withPairs (h : u.query = none) (pairs : List (String × String)) :
    queryPairs (u.withPairs pairs).query =
      pairs.map fun p => (Percent.bytes p.1, Percent.bytes p.2) := by
  have hread := Form.decode_encode pairs
  simp only [withPairs, h]
  split
  · rename_i hnone
    have hempty : Form.decode (String.ofList []) = [] := Form.decode_encode []
    rw [hnone, hempty] at hread
    exact hread
  · exact hread

/-- The call of a hash that stands for itself names the quote and nothing else. -/
theorem quoteTarget_of_standsForItself (h : StandsForItself hash.toList)
    (pairs : List (String × String)) : QuoteTarget root hash
      (pairs.map fun p => (Percent.bytes p.1, Percent.bytes p.2))
      ((quoteUrl root hash).withPairs pairs).target := by
  obtain ⟨hparts, hquery, hdots⟩ := hashParts_of_standsForItself h
  have hsegments : (quoteUrl root hash).segments =
      root.segments.dropLast ++ ["quote".toList, encodeSegment hash.toList] := by
    have hquote : encodeSegment "quote".toList = "quote".toList := by decide +kernel
    simp only [quoteUrl]
    rw [hparts, walk_cons (by decide), walk_cons hdots, hquote, walk]
    simp
  refine ⟨encodeSegment hash.toList, _, ?_, ?_, ?_,
    queryPairs_withPairs (u := quoteUrl root hash) hquery pairs⟩
  · exact plain_encodeSegment fun c hc => (h.unparted c hc).1
  · rw [← hsegments]
    rfl
  · have hself := Percent.decode_eq_self.mpr h.unescaped
    rwa [← decode_encodeSegment, String.ofList_toList] at hself

theorem plain_interface (hplain : Plain root.segments) : Plain root.segments.dropLast :=
  fun seg hseg => hplain seg ((List.dropLast_sublist _).mem hseg)

theorem plain_quoteUrl (hplain : Plain root.segments) : Plain (quoteUrl root hash).segments := by
  refine plain_walk (fun seg hseg => plain_interface hplain seg (List.mem_reverse.mp hseg))
    fun part hpart => ?_
  rcases List.mem_cons.mp hpart with rfl | hpart
  · exact fun c hc => (quote_plain c hc).1
  · exact (mem_splitSlashes hpart).2

theorem plain_quoteSegments {segment : List Char} (hplain : Plain root.segments)
    (hsegment : ∀ c ∈ segment, c ≠ '/' ∧ c ≠ '?') :
    Plain (root.segments.dropLast ++ ["quote".toList, segment]) := by
  intro seg hseg
  simp only [List.mem_append, List.mem_cons, List.not_mem_nil, or_false] at hseg
  rcases hseg with hseg | rfl | rfl
  · exact plain_interface hplain seg hseg
  · exact fun c hc => (quote_plain c hc).2.2
  · exact hsegment

/-- No other hash is named by what its call addresses. -/
theorem standsForItself_of_quoteTarget (hplain : Plain root.segments)
    (h : QuoteTarget root hash pairs ((quoteUrl root hash).withPairs added).target) :
    StandsForItself hash.toList := by
  obtain ⟨segment, query, hsegment, htarget, hdecode, -⟩ := h
  have hsame : (quoteUrl root hash).segments =
      root.segments.dropLast ++ ["quote".toList, segment] :=
    segments_of_target (u := (quoteUrl root hash).withPairs added) (plain_quoteUrl hplain)
      (plain_quoteSegments hplain hsegment) htarget
  obtain ⟨before, part, hparts⟩ : ∃ before part, hashParts hash = before ++ [part] := by
    rcases List.eq_nil_or_concat (hashParts hash) with hnone | hsome
    · exact absurd hnone (splitSlashes_ne_nil _)
    · simpa using hsome
  have hpart : part ∈ hashParts hash := by simp [hparts]
  obtain ⟨front, hwalk⟩ :=
    walk_concat ("quote".toList :: before) part root.segments.dropLast.reverse
  simp only [quoteUrl, hparts] at hsame
  rw [List.cons_append, hsame] at hwalk
  split at hwalk
  · -- Dots at the end leave an empty segment, and so an empty hash, which has no dots.
    rename_i hdots
    obtain rfl : segment = [] := by simpa using congrArg List.getLast? hwalk
    have hempty : [] = hash.toList := eq_of_decode (List.nil_sublist _) hdecode
    obtain rfl : part = [] := List.sublist_nil.mp (hempty ▸ hashParts_sublist hpart)
    exact absurd hdots (by decide)
  · rename_i hdots
    obtain rfl : segment = encodeSegment part := by simpa using congrArg List.getLast? hwalk
    exact standsForItself_of_decode hpart hdots (by rwa [decode_encodeSegment] at hdecode)

/-- The call stays with the provider whatever the hash is. It goes to the quote, with nothing but
the currency of the budget beside it, if and only if the hash stands for itself. -/
theorem quote_addressed {s : Session} {token : String} (htoken : s.token = some token)
    (hbase : ∀ c ∈ s.config.baseUrl.toList, endsPath c = false)
    (hroot : read? (s.config.url "") = some root) (hash : String) (code : Option String) :
    ∃ u r, read? (s.config.url (executeQuote hash code).path) = some u ∧
      u.scheme = root.scheme ∧ u.authority = root.authority ∧
      s.prepare (executeQuote hash code) = .ok r ∧ r.method = .post ∧
      (StandsForItself hash.toList → QuoteTarget root hash
        ((budgetPairs code).map fun p => (Percent.bytes p.1, Percent.bytes p.2)) r.target) ∧
      ∀ pairs, QuoteTarget root hash pairs r.target → StandsForItself hash.toList := by
  have hread := read?_executeQuote hbase hroot hash code
  have hplain : Plain root.segments := by
    obtain ⟨rfl, -⟩ := read?_eq_some.mp hroot
    exact plain_partsOf _
  have hsent : ∃ r, s.prepare (executeQuote hash code) = .ok r ∧ r.method = .post ∧
      r.target = ((quoteUrl root hash).withPairs (budgetPairs code)).target := by
    simp only [Session.prepare, htoken, hread]
    exact ⟨_, rfl, rfl, rfl⟩
  obtain ⟨r, hr, hmethod, htarget⟩ := hsent
  refine ⟨quoteUrl root hash, r, hread, rfl, rfl, hr, hmethod, ?_, ?_⟩
  · intro h
    rw [htarget]
    exact quoteTarget_of_standsForItself h _
  · intro pairs h
    rw [htarget] at h
    exact standsForItself_of_quoteTarget hplain h

def localSession : Session := ⟨VaspConfig.default [], some "token"⟩

def localRoot : Url := ⟨"http", "localhost:9000".toList, ["umanwc".toList, []], none⟩

/-- Two dots lead from the quotes to the payments, and a plain hash to its quote. -/
theorem quote_addressed_elsewhere : read? (localSession.config.url "") = some localRoot ∧
    (∃ r, localSession.prepare (executeQuote "../payments/bolt11" (some "SAT")) = .ok r ∧
      r.target = "/umanwc/payments/bolt11?budget_currency_code=SAT" ∧
      ∀ pairs, ¬ QuoteTarget localRoot "../payments/bolt11" pairs r.target) ∧
    ∃ r, localSession.prepare (executeQuote "abc" none) = .ok r ∧
      QuoteTarget localRoot "abc" [] r.target := by
  have hall : localSession.config.baseUrl.toList.all (fun c => !endsPath c) = true := by decide
  have hbase : ∀ c ∈ localSession.config.baseUrl.toList, endsPath c = false := by
    simpa only [List.all_eq_true, Bool.not_eq_true'] using hall
  have hroot : read? (localSession.config.url "") = some localRoot := by decide +kernel
  refine ⟨hroot, ?_, ?_⟩
  · obtain ⟨-, r, -, -, -, hr, -, -, honly⟩ :=
      quote_addressed rfl hbase hroot "../payments/bolt11" (some "SAT")
    have htarget : (localSession.prepare (executeQuote "../payments/bolt11" (some "SAT"))).map
        (·.target) = .ok "/umanwc/payments/bolt11?budget_currency_code=SAT" := by decide +kernel
    rw [hr] at htarget
    refine ⟨r, hr, Except.ok.inj htarget, fun pairs h => ?_⟩
    exact absurd ((honly pairs h).unparted '/' (by decide)).1 (by decide)
  · obtain ⟨-, r, -, -, -, hr, -, hquote, -⟩ := quote_addressed rfl hbase hroot "abc" none
    have hplain : Percent.decode (Percent.bytes "abc") = Percent.bytes "abc" := by decide +kernel
    exact ⟨r, hr, hquote ⟨by simp [isSlash, endsPath], by simp, by simp, by decide,
      Percent.decode_eq_self.mp hplain⟩⟩

end Vasp

end WalletBudget
