import WalletBudget.Text.Form

/-!
What a URL text of a web scheme stands for: an authority, path segments and a query.

Reverse solidi count as slashes. A segment of one dot is dropped and one of two dots takes the
segment before it away, also where the dots are escaped. The query starts at the first question mark
and ends at the first number sign.
-/

namespace WalletBudget

structure Url where
  scheme : String
  authority : List Char
  segments : List (List Char)
  query : Option (List Char)
  deriving DecidableEq, Repr

namespace Url

def isSlash (c : Char) : Bool := c = '/' || c = '\\'

def endsPath (c : Char) : Bool := c = '?' || c = '#'

/-- Tabs and line ends count for nothing anywhere, and controls and blanks for nothing at the
ends. -/
def cleaned (cs : List Char) : List Char :=
  let outer (cs : List Char) := cs.dropWhile (fun c => c.toNat ≤ 32)
  (outer (outer cs).reverse).reverse.filter (fun c => c ≠ '\t' && c ≠ '\n' && c ≠ '\r')

def escapedInPath (b : UInt8) : Bool :=
  b < 32 || b = 127 || b = 32 || b = 34 || b = 35 || b = 60 || b = 62 || b = 63 || b = 96 || b = 123
    || b = 125

def escapedInQuery (b : UInt8) : Bool :=
  b < 32 || b = 127 || b = 32 || b = 34 || b = 35 || b = 39 || b = 60 || b = 62

def encodeSegment (cs : List Char) : List Char :=
  Percent.encode escapedInPath (Percent.bytes (String.ofList cs))

def encodeQuery (cs : List Char) : List Char :=
  Percent.encode escapedInQuery (Percent.bytes (String.ofList cs))

/-- The number of dots that a segment consists of, with escaped dots among them. -/
def dots? : List Char → Option Nat
  | [] => some 0
  | '.' :: rest => (dots? rest).map (· + 1)
  | '%' :: '2' :: e :: rest => if e.toLower = 'e' then (dots? rest).map (· + 1) else none
  | _ => none

/-- Parts between slashes. -/
def splitSlashes : List Char → List (List Char)
  | [] => [[]]
  | c :: rest =>
    if isSlash c then [] :: splitSlashes rest
    else match splitSlashes rest with
      | part :: parts => (c :: part) :: parts
      | [] => [[c]]

/-- The segments in reverse after one more part. A part of dots at the end leaves an empty
segment. -/
def walk (done : List (List Char)) : List (List Char) → List (List Char)
  | [] => done.reverse
  | part :: rest =>
    let done := match dots? part with
      | some 1 => if rest = [] then [] :: done else done
      | some 2 => if rest = [] then [] :: done.drop 1 else done.drop 1
      | _ => encodeSegment part :: done
    walk done rest

/-- The segments of a path text, which starts with a slash unless it is empty. -/
def segmentsOf (cs : List Char) : List (List Char) :=
  match cs with
  | [] => [[]]
  | _ :: rest => walk [] (splitSlashes rest)

def webSchemes : List String := ["http", "https"]

def read? (s : String) : Option Url := do
  let cs := cleaned s.toList
  let scheme := String.ofList ((cs.takeWhile (· ≠ ':')).map Char.toLower)
  if !webSchemes.contains scheme then none
  let rest := ((cs.dropWhile (· ≠ ':')).drop 1).dropWhile isSlash
  let authority := rest.takeWhile (fun c => !isSlash c && !endsPath c)
  if authority = [] then none
  let rest := rest.drop authority.length
  let path := rest.takeWhile (fun c => !endsPath c)
  let query := match rest.drop path.length with
    | '?' :: rest =>
      some (encodeQuery (rest.takeWhile (· ≠ '#')))
    | _ => none
  return ⟨scheme, authority, segmentsOf path, query⟩

/-- Pairs go behind the query that is there. A query that stays empty is dropped. -/
def withPairs (u : Url) (pairs : List (String × String)) : Url :=
  let added := Form.encode pairs
  let joined := match u.query with
    | none => added
    | some q => if q = [] then added else if added = [] then q else q ++ '&' :: added
  { u with query := if joined = [] then none else some joined }

/-- The path and the query, as a request line names them. -/
def target (u : Url) : String :=
  let path := u.segments.flatMap (fun s => '/' :: s)
  String.ofList (match u.query with
    | none => path
    | some q => path ++ '?' :: q)

end Url

end WalletBudget
