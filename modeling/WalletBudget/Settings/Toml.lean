import WalletBudget.Settings.Toml.Number
import WalletBudget.Settings.Toml.Table
import WalletBudget.Settings.Toml.Text
import WalletBudget.Settings.Toml.Time

/-!
Reading TOML: lines of `key = value` under headers of tables.

A key that is given twice is a fault, as is a table that is given twice. Dates and times are texts.
-/

namespace WalletBudget.Settings.Toml

mutual

/-- A value at the front, and what follows it. The fuel bounds the steps, and the depth the arrays
and tables around the value. -/
def value? : Nat → Nat → List Char → Option (Value × List Char)
  | 0, _, _ => none
  | fuel + 1, depth, cs =>
    match cs with
    | '[' :: rest =>
      if depth + 1 < depthBound then
        (items? fuel (depth + 1) (skipLines (rest.length + 1) rest)).map
          (fun (vs, rest) => (.array vs, rest))
      else none
    | '{' :: rest =>
      if depth + 1 < depthBound then
        match skipBlanks rest with
        | '}' :: rest => some (.table [], rest)
        | rest =>
          (pairs? fuel (depth + 1) [] rest).map
            (fun (items, rest) => (.table (entriesOf items), rest))
      else none
    | 't' :: 'r' :: 'u' :: 'e' :: rest => some (.bool true, rest)
    | 'f' :: 'a' :: 'l' :: 's' :: 'e' :: rest => some (.bool false, rest)
    | c :: _ =>
      if c = '"' ∨ c = '\'' then (string? cs).map (fun (s, rest) => (.str s, rest))
      else (dateTime? cs).map (fun (s, rest) => (.str s, rest)) <|> number? cs
    | [] => none

/-- Items up to the closing bracket. -/
def items? : Nat → Nat → List Char → Option (List Value × List Char)
  | 0, _, _ => none
  | fuel + 1, depth, cs =>
    match cs with
    | ']' :: rest => some ([], rest)
    | _ => do
      let (v, rest) ← value? fuel depth cs
      match skipLines (rest.length + 1) rest with
      | ']' :: rest => return ([v], rest)
      | ',' :: rest =>
        let (vs, rest) ← items? fuel depth (skipLines (rest.length + 1) rest)
        return (v :: vs, rest)
      | _ => none

/-- Keys and values up to the closing brace, with a key at the front. -/
def pairs? : Nat → Nat → Items → List Char → Option (Items × List Char)
  | 0, _, _, _ => none
  | fuel + 1, depth, done, cs => do
    let (path, rest) ← key? cs
    let (v, rest) ← value? fuel depth (skipBlanks (← Ascii.strip? ['='] rest))
    let done ← assign? path v done
    match skipBlanks rest with
    | '}' :: rest => return (done, rest)
    | ',' :: rest => pairs? fuel depth done rest
    | _ => none

end

/-- Reads one line that is not empty. -/
def statement? (d : Document) (cs : List Char) : Option (Document × List Char) := do
  match cs with
  | '[' :: '[' :: rest =>
    let (path, rest) ← key? rest
    let rest ← endLine? (← Ascii.strip? [']', ']'] rest)
    return (← d.arrayTable? path, rest)
  | '[' :: rest =>
    let (path, rest) ← key? rest
    let rest ← endLine? (← Ascii.strip? [']'] rest)
    return (← d.table? path, rest)
  | _ =>
    let (path, rest) ← key? cs
    let (v, rest) ← value? (2 * rest.length + 2) 0 (skipBlanks (← Ascii.strip? ['='] rest))
    let rest ← endLine? rest
    return (← d.assign? path v, rest)

/-- Every line takes a character at least. -/
def document? : Nat → Document → List Char → Option Items
  | 0, _, _ => none
  | fuel + 1, d, cs =>
    match skipLines (cs.length + 1) cs with
    | [] => d.close?
    | cs => do
      let (d, rest) ← statement? d cs
      document? fuel d rest

/-- What follows a mark of byte order. -/
def skipMark (cs : List Char) : List Char :=
  match cs with
  | '\uFEFF' :: rest => rest
  | _ => cs

/-- The tables of a text. -/
def read? (text : String) : Option Value := do
  let cs := skipMark text.toList
  return .table (entriesOf (← document? (cs.length + 1) .empty cs))

end WalletBudget.Settings.Toml
