/-!
Media types of request bodies.

A media type is two tokens with a slash between them, and parameters behind semicolons. JSON is
`application/json`, or any type of `application` whose suffix is `json`.
-/

namespace WalletBudget.MediaType

def isToken (c : Char) : Bool := c.isAlphanum || "!#$%&'*+-.^_`|~".toList.contains c

/-- Characters that may stand between quotes. -/
def isQuotable (c : Char) : Bool := 32 ≤ c.toNat && c.toNat ≠ 127

/-- Characters of a header value that a server takes as text. -/
def isVisible (c : Char) : Bool := c = '\t' || (32 ≤ c.toNat && c.toNat < 127)

/-- What follows a quoted value: blanks up to the next semicolon. -/
def afterQuote : List Char → Option (List Char)
  | [] => some []
  | ' ' :: rest => afterQuote rest
  | ';' :: rest => some rest
  | _ => none

/-- What follows the value of a quoted string. The value ends at a quotation mark, and is not
empty: its first character may be a quotation mark itself. -/
def quoted? : List Char → Option (List Char)
  | [] => none
  | c :: rest =>
    match rest.dropWhile (fun c => c ≠ '"' && isQuotable c) with
    | '"' :: rest => if isQuotable c then some rest else none
    | _ => none

/-- Takes one parameter from the front: a name, an equals sign, and a token or a quoted value. -/
def parameter? (cs : List Char) : Option (List Char) :=
  let name := cs.takeWhile isToken
  match name, cs.dropWhile isToken with
  | _ :: _, '=' :: '"' :: rest => (quoted? rest).bind afterQuote
  | _ :: _, '=' :: rest =>
    let value := rest.takeWhile isToken
    match value, rest.drop value.length with
    | _, [] => some []
    | _ :: _, ';' :: rest => some rest
    | _, _ => none
  | _, _ => none

/-- Whether a text is a list of parameters, with blanks in front of each. The fuel bounds their
number by the length of the text. -/
def parameters : Nat → List Char → Bool
  | 0, cs => cs.isEmpty
  | fuel + 1, cs =>
    match cs.dropWhile (· = ' ') with
    | [] => true
    | cs =>
      match parameter? cs with
      | some rest => parameters fuel rest
      | none => false

/-- The text in front of the last plus sign, and the suffix behind it, if there is one. A plus sign
in front is no separator. -/
def splitSuffix (cs : List Char) : List Char × Option (List Char) :=
  let suffix := (cs.reverse.takeWhile (· ≠ '+')).reverse
  let front := cs.take (cs.length - suffix.length - 1)
  if suffix.length < cs.length ∧ front ≠ [] then (front, some suffix) else (cs, none)

def lower (cs : List Char) : String := String.ofList (cs.map Char.toLower)

def isJson (contentType : String) : Bool :=
  let cs := contentType.toList
  let main := cs.takeWhile isToken
  match cs.drop main.length with
  | '/' :: rest =>
    let sub := rest.takeWhile isToken
    let (subtype, suffix) := splitSuffix sub
    let wellFormed := match sub, rest.drop sub.length with
      | _, [] => true
      | _ :: _, ';' :: rest => parameters (rest.length + 1) rest
      | _, _ => false
    cs.all isVisible && wellFormed && lower main = "application"
      && (lower subtype = "json" || suffix.map lower = some "json")
  | _ => false

end WalletBudget.MediaType
