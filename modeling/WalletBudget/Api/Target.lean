import WalletBudget.Text.Ascii
import WalletBudget.Text.Letter

/-!
Targets of requests, as a request line names them.

A target is a path, with a query behind its first question mark, or the same behind a scheme and an
authority. What follows a number sign is cut off. An authority alone is a target with an empty path.
-/

namespace WalletBudget.Api

structure Target where
  path : String
  query : Option String
  deriving DecidableEq, Repr

namespace Target

/-! ### Paths and queries -/

/-- Characters outside ASCII and three that should be escaped are let through. -/
def pathChars : List (Nat × Nat) :=
  [(0x21, 0x22), (0x24, 0x3B), (0x3D, 0x3D), (0x40, 0x5F), (0x61, 0x7E), (0x7F, 0x10FFFF)]

def queryChars : List (Nat × Nat) :=
  [(0x21, 0x21), (0x24, 0x3B), (0x3D, 0x3D), (0x3F, 0x7E), (0x7F, 0x10FFFF)]

/-- An empty path of a target with a query or a scheme is the root. -/
def ofPath? (cs : List Char) : Option Target :=
  let cs := cs.takeWhile (· ≠ '#')
  let path := cs.takeWhile (· ≠ '?')
  let query := match cs.drop path.length with
    | _ :: query => some query
    | [] => none
  if path.all (Text.isWithin pathChars) ∧ (query.getD []).all (Text.isWithin queryChars) then
    some ⟨if path = [] then "/" else String.ofList path, query.map String.ofList⟩
  else none

/-! ### Schemes -/

def isSchemeChar (c : Char) : Bool := c.isAlphanum || "+-.".toList.contains c

def longestScheme : Nat := 64

def schemeMark : List Char := "://".toList

/-- A scheme at the front, if there is one, and what follows its mark. -/
def splitScheme (cs : List Char) : Option (List Char) × List Char :=
  let scheme := cs.takeWhile isSchemeChar
  match Ascii.strip? schemeMark (cs.drop scheme.length) with
  | some rest => (some scheme, rest)
  | none => (none, cs)

/-! ### Authorities -/

def endsAuthority (c : Char) : Bool := c = '/' || c = '?' || c = '#'

def isAuthorityChar (c : Char) : Bool :=
  c.isAlphanum || "!$&'()*+,-.:;=@[]_~%".toList.contains c

/-- What has been seen of an authority. Colons and percent signs count from the last at sign or
closing bracket on. -/
structure Seen where
  colons : Nat
  percent : Bool
  opened : Bool
  closed : Bool
  deriving DecidableEq, Repr

/-- A port and an address of version 6 have no more colons together. -/
def mostColons : Nat := 8

def Seen.step? (s : Seen) (c : Char) : Option Seen :=
  match c with
  | ':' => if s.colons ≥ mostColons then none else some { s with colons := s.colons + 1 }
  | '[' => if s.percent || s.opened then none else some { s with opened := true }
  | ']' =>
    if s.opened && !s.closed then some { s with closed := true, colons := 0, percent := false }
    else none
  | '@' => some { s with colons := 0, percent := false }
  | '%' => some { s with percent := true }
  | c => if isAuthorityChar c then some s else none

/-- Percent signs stand in the user's part or in brackets only, and the host is not empty behind an
at sign. -/
def isAuthority (cs : List Char) : Bool :=
  match cs.foldlM Seen.step? ⟨0, false, false, false⟩ with
  | none => false
  | some s =>
    s.opened = s.closed && s.colons ≤ 1 && !s.percent && cs.getLast? ≠ some '@'

/-! ### Targets -/

def longest : Nat := 65534

/-- Behind a scheme an authority is needed. -/
def ofFull? (cs : List Char) : Option Target :=
  let (scheme, rest) := splitScheme cs
  let authority := rest.takeWhile (fun c => !endsAuthority c)
  let path := rest.drop authority.length
  if !isAuthority authority then none
  else match scheme with
    | none => if path = [] then some ⟨"", none⟩ else none
    | some scheme =>
      if authority = [] ∨ scheme.length > longestScheme then none else ofPath? path

def read? (text : String) : Option Target :=
  if text = "" ∨ text.utf8ByteSize > longest then none
  else if text = "*" then some ⟨"*", none⟩
  else match text.toList with
    | '/' :: _ => ofPath? text.toList
    | cs => ofFull? cs

end Target

end WalletBudget.Api
