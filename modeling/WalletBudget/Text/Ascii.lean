/-!
Letters and blanks of the ASCII range, where a format is defined on that range alone.
-/

namespace WalletBudget.Ascii

def isLetter (c : Char) : Bool := c.isAlpha

/-- Only the letters of the ASCII range change. -/
def lowerText (s : String) : String := String.ofList (s.toList.map Char.toLower)

def upperText (s : String) : String := String.ofList (s.toList.map Char.toUpper)

/-- Parts of a text between the places where a character stands. There is always one part. -/
def split (sep : Char) : List Char → List (List Char)
  | [] => [[]]
  | c :: rest =>
    if c = sep then [] :: split sep rest
    else match split sep rest with
      | part :: parts => (c :: part) :: parts
      | [] => [[c]]

/-- What stands before and after the first place of a character, if it occurs. -/
def splitOnce (sep : Char) : List Char → Option (List Char × List Char)
  | [] => none
  | c :: rest =>
    if c = sep then some ([], rest)
    else (splitOnce sep rest).map (fun (before, after) => (c :: before, after))

/-- What follows `start` in a text that begins with it. -/
def strip? : List Char → List Char → Option (List Char)
  | [], cs => some cs
  | _ :: _, [] => none
  | s :: start, c :: cs => if s = c then strip? start cs else none

end WalletBudget.Ascii
