import WalletBudget.Settings.Basic
import WalletBudget.Word

/-!
Addresses to listen at: four octets or eight groups of 16 bits, and a port.

Octets are decimal without leading zeros. Groups are hexadecimal and stand in brackets; `::` stands
for groups of zero, the last two groups may be written as octets, and a scope follows a percent
sign. The longest run of at least two zero groups is written as `::`, the first of several.
-/

namespace WalletBudget

structure Octets where
  a : UInt8
  b : UInt8
  c : UInt8
  d : UInt8
  deriving DecidableEq, Repr

inductive SocketAddress where
  | four (octets : Octets) (port : UInt16)
  | six (groups : List UInt16) (scope : UInt32) (port : UInt16)
  deriving DecidableEq, Repr

namespace SocketAddress

/-! ### Text -/

def octetsText (o : Octets) : String :=
  ".".intercalate ([o.a, o.b, o.c, o.d].map (fun n => Digits.text n.toNat))

def groupChars (n : UInt16) : List Char :=
  match (Hex.padded 4 n.toNat).dropWhile (· = '0') with
  | [] => ['0']
  | cs => cs

def groupsChars (groups : List UInt16) : List Char :=
  List.intercalate [':'] (groups.map groupChars)

/-- Start and length of the longest run of zeros, the first of several. The arguments are the run
that reaches up to here and the longest one so far. -/
def longestZeros (index : Nat) (current longest : Nat × Nat) : List UInt16 → Nat × Nat
  | [] => longest
  | n :: rest =>
    if n = 0 then
      let current := if current.2 = 0 then (index, 1) else (current.1, current.2 + 1)
      longestZeros (index + 1) current (if longest.2 < current.2 then current else longest) rest
    else longestZeros (index + 1) (0, 0) longest rest

/-- The octets that the last two groups are, behind five groups of zero and one of ones. -/
def mapped? : List UInt16 → Option Octets
  | [0, 0, 0, 0, 0, 0xffff, high, low] =>
    some ⟨(high >>> 8).toUInt8, high.toUInt8, (low >>> 8).toUInt8, low.toUInt8⟩
  | _ => none

def groupsText (groups : List UInt16) : String :=
  match mapped? groups with
  | some octets => "::ffff:" ++ octetsText octets
  | none =>
    let (start, length) := longestZeros 0 (0, 0) (0, 0) groups
    let behind := groups.drop (start + length)
    String.ofList (if length < 2 then groupsChars groups
      else groupsChars (groups.take start) ++ [':', ':'] ++ groupsChars behind)

/-- The scope zero is not written. -/
def text : SocketAddress → String
  | .four octets port => octetsText octets ++ ":" ++ Digits.text port.toNat
  | .six groups scope port =>
    "[" ++ groupsText groups ++ (if scope = 0 then "" else "%" ++ Digits.text scope.toNat) ++ "]:"
      ++ Digits.text port.toNat

/-! ### Reading -/

/-- The digits at the front as a number up to a largest one, and what follows them. -/
def number? (largest : Nat) (cs : List Char) : Option (Nat × List Char) := do
  let (ds, rest) := Digits.span cs
  return (← Digits.readUpTo? largest ds, rest)

def octet? (cs : List Char) : Option (UInt8 × List Char) := do
  let (ds, rest) := Digits.span cs
  if 3 < ds.length ∨ (1 < ds.length ∧ ds.head? = some '0') then none
  return (UInt8.ofNat (← Digits.readUpTo? 255 ds), rest)

def octets? (cs : List Char) : Option (Octets × List Char) := do
  let (a, cs) ← octet? cs
  let (b, cs) ← octet? (← Ascii.strip? ['.'] cs)
  let (c, cs) ← octet? (← Ascii.strip? ['.'] cs)
  let (d, cs) ← octet? (← Ascii.strip? ['.'] cs)
  return (⟨a, b, c, d⟩, cs)

def group? (cs : List Char) : Option (UInt16 × List Char) :=
  let ds := cs.takeWhile Hex.isDigit
  if ds = [] ∨ 4 < ds.length then none else some (UInt16.ofNat (Hex.number ds), cs.drop ds.length)

def pair (high low : UInt8) : UInt16 := (high.toUInt16 <<< 8) ||| low.toUInt16

/-- Groups separated by colons, at most so many, whether they end in octets, and what follows. -/
def groupRun : Nat → Bool → List Char → List UInt16 × Bool × List Char
  | 0, _, cs => ([], false, cs)
  | most + 1, first, cs =>
    let body := if first then some cs else Ascii.strip? [':'] cs
    match if 0 < most then body.bind octets? else none with
    | some (o, rest) => ([pair o.a o.b, pair o.c o.d], true, rest)
    | none =>
      match body.bind group? with
      | none => ([], false, cs)
      | some (g, rest) =>
        let (gs, octets, rest) := groupRun most false rest
        (g :: gs, octets, rest)

/-- Eight groups, or fewer around one `::`. Octets stand at the end only. -/
def groups? (cs : List Char) : Option (List UInt16 × List Char) :=
  let (front, octets, cs) := groupRun 8 true cs
  if front.length = 8 then some (front, cs)
  else if octets then none
  else do
    let cs ← Ascii.strip? [':', ':'] cs
    let (back, _, cs) := groupRun (7 - front.length) true cs
    return (front ++ List.replicate (8 - front.length - back.length) 0 ++ back, cs)

def scope? (cs : List Char) : Option (UInt32 × List Char) :=
  match cs with
  | '%' :: rest => (number? Word.largest32 rest).map (fun (n, rest) => (UInt32.ofNat n, rest))
  | _ => some (0, cs)

/-- A colon and a port at the end of the text. -/
def port? (cs : List Char) : Option UInt16 := do
  match ← number? Word.largest16 (← Ascii.strip? [':'] cs) with
  | (n, []) => return UInt16.ofNat n
  | _ => none

def readFour? (cs : List Char) : Option SocketAddress := do
  let (octets, cs) ← octets? cs
  return .four octets (← port? cs)

def readSix? (cs : List Char) : Option SocketAddress := do
  let (groups, cs) ← groups? (← Ascii.strip? ['['] cs)
  let (scope, cs) ← scope? cs
  return .six groups scope (← port? (← Ascii.strip? [']'] cs))

def read? (s : String) : Option SocketAddress := readFour? s.toList <|> readSix? s.toList

end SocketAddress

/-- A host that is no address. -/
structure BindError where
  host : String
  port : Nat
  deriving DecidableEq, Repr

def BindError.message (e : BindError) : String :=
  "invalid bind address " ++ e.host ++ ":" ++ Digits.text e.port

/-- The address to listen at. A host has to be an address, since no name is looked up. -/
def ServerSettings.address (s : ServerSettings) : Except BindError SocketAddress :=
  match SocketAddress.read? (s.host ++ ":" ++ Digits.text s.port) with
  | some a => .ok a
  | none => .error ⟨s.host, s.port⟩

end WalletBudget
