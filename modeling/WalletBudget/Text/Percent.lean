import WalletBudget.Text.Hex

/-!
Percent escapes over bytes: `%` and two hexadecimal digits stand for a byte.

Decoding leaves a percent sign that no two digits follow as it is. Encoding is told which bytes
to escape, since every place of a URL has its own set.
-/

namespace WalletBudget.Percent

def bytes (s : String) : List UInt8 := s.toUTF8.toList

def char (b : UInt8) : Char := Char.ofNat b.toNat

def digit? (b : UInt8) : Option Nat := Hex.digit? (char b)

def decode : List UInt8 → List UInt8
  | 37 :: high :: low :: rest =>
    match digit? high, digit? low with
    | some h, some l => UInt8.ofNat (16 * h + l) :: decode rest
    | _, _ => 37 :: decode (high :: low :: rest)
  | b :: rest => b :: decode rest
  | [] => []

/-- The text that decoded bytes stand for, unless they are not UTF-8. -/
def decodeText? (s : String) : Option String :=
  String.fromUTF8? (ByteArray.mk (decode (bytes s)).toArray)

def escape (b : UInt8) : List Char :=
  ['%', Hex.upper (b.toNat / 16), Hex.upper (b.toNat % 16)]

/-- Every byte outside ASCII is escaped, and of ASCII the bytes the set names. -/
def encode (escaped : UInt8 → Bool) (data : List UInt8) : List Char :=
  data.flatMap (fun b => if b ≥ 128 || escaped b then escape b else [char b])

end WalletBudget.Percent
