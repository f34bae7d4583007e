import WalletBudget.Text.Percent

/-!
Form encoding of name and value pairs, as used in the query of a URL.

Pairs are separated by `&` and a name from its value by the first `=`. A blank is written `+`.
-/

namespace WalletBudget.Form

/-- Letters, digits and these four marks are written as they are. -/
def plain (b : UInt8) : Bool :=
  (Percent.char b).isAlphanum || b = 42 || b = 45 || b = 46 || b = 95

def encodePart (s : String) : List Char :=
  (Percent.bytes s).flatMap (fun b =>
    if b = 32 then ['+'] else if b < 128 && plain b then [Percent.char b] else Percent.escape b)

def encode (pairs : List (String × String)) : List Char :=
  List.intercalate ['&']
    (pairs.map (fun (name, value) => encodePart name ++ '=' :: encodePart value))

/-- Plus signs become blanks before the escapes are read, so that an escaped plus sign stays. -/
def decodePart (data : List UInt8) : List UInt8 :=
  Percent.decode (data.map (fun b => if b = 43 then 32 else b))

def splitAt (sep : UInt8) : List UInt8 → List (List UInt8)
  | [] => [[]]
  | b :: rest =>
    if b = sep then [] :: splitAt sep rest
    else match splitAt sep rest with
      | part :: parts => (b :: part) :: parts
      | [] => [[b]]

/-- A part without `=` is a name with an empty value. Empty parts are skipped. -/
def decode (query : String) : List (List UInt8 × List UInt8) :=
  (splitAt 38 (Percent.bytes query)).filterMap (fun part =>
    if part = [] then none
    else some (decodePart (part.takeWhile (· ≠ 61)), decodePart ((part.dropWhile (· ≠ 61)).drop 1)))

end WalletBudget.Form
