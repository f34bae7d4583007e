import WalletBudget.Json.Basic
import WalletBudget.Text.Hex

/-!
Writing JSON text without blanks. Quotes, reverse solidi and control characters are escaped, and no
other character is.
-/

namespace WalletBudget.Json

def escape (c : Char) : List Char :=
  match c with
  | '"' => ['\\', '"']
  | '\\' => ['\\', '\\']
  | '\x08' => ['\\', 'b']
  | '\x0c' => ['\\', 'f']
  | '\n' => ['\\', 'n']
  | '\r' => ['\\', 'r']
  | '\t' => ['\\', 't']
  | c =>
    if c.toNat < 32 then ['\\', 'u', '0', '0', Hex.lower (c.toNat / 16), Hex.lower (c.toNat % 16)]
    else [c]

def quoted (s : String) : List Char := '"' :: (s.toList.flatMap escape ++ ['"'])

def Number.chars (n : Number) : List Char :=
  (if n.negative then ['-'] else []) ++ n.whole
    ++ (if n.fraction = [] then [] else '.' :: n.fraction)
    ++ match n.exponent with
      | none => []
      | some (down, digits) => 'e' :: (if down then '-' :: digits else digits)

mutual

/-- Values that no text holds whole have no text either; they are written as null. -/
def chars : Json → List Char
  | .null => ['n', 'u', 'l', 'l']
  | .bool true => ['t', 'r', 'u', 'e']
  | .bool false => ['f', 'a', 'l', 's', 'e']
  | .num n => n.chars
  | .str s => quoted s
  | .unpaired => ['n', 'u', 'l', 'l']
  | .arr [] => ['[', ']']
  | .arr (item :: items) => '[' :: (chars item ++ (itemChars items ++ [']']))
  | .obj [] => ['\x7b', '\x7d']
  | .obj ((name, value) :: entries) =>
    '\x7b' :: (quoted name ++ ':' :: (chars value ++ (entryChars entries ++ ['\x7d'])))
  | .unnamed _ => ['n', 'u', 'l', 'l']
  | .cut => ['n', 'u', 'l', 'l']

def itemChars : List Json → List Char
  | [] => []
  | item :: items => ',' :: (chars item ++ itemChars items)

def entryChars : List (String × Json) → List Char
  | [] => []
  | (name, value) :: entries => ',' :: (quoted name ++ ':' :: (chars value ++ entryChars entries))

end

def write (j : Json) : String := String.ofList (chars j)

end WalletBudget.Json
