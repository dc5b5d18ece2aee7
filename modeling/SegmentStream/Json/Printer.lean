import SegmentStream.Json.Basic

/-!
# Writing JSON

`compact` writes a value without blanks, `pretty` with one item a line and two
spaces for each level.
-/

namespace SegmentStream

namespace Numeral

def print (numeral : Numeral) : List Char :=
  let fraction := match numeral.fraction with
    | none => []
    | some digits => '.' :: digits
  let exponent := match numeral.exponent with
    | none => []
    | some (negative, digits) => 'e' :: (if negative then '-' else '+') :: digits
  (if numeral.negative then ['-'] else []) ++ numeral.whole ++ fraction ++ exponent

end Numeral

namespace Json

def hexDigitChar (n : Nat) : Char := Char.ofNat (if n < 10 then 48 + n else 87 + n)

/-- Quotes, backslashes and control characters are escaped, nothing else. -/
def escapeChar (c : Char) : List Char :=
  match c with
  | '"' => ['\\', '"']
  | '\\' => ['\\', '\\']
  | '\n' => ['\\', 'n']
  | '\r' => ['\\', 'r']
  | '\t' => ['\\', 't']
  | '\x08' => ['\\', 'b']
  | '\x0c' => ['\\', 'f']
  | c =>
      if c.toNat < 32 then
        ['\\', 'u', '0', '0', hexDigitChar (c.toNat / 16), hexDigitChar (c.toNat % 16)]
      else [c]

def printText (text : Option String) : List Char :=
  '"' :: ((text.getD "").toList.flatMap escapeChar ++ ['"'])

def joinWith (separator : List Char) : List (List Char) → List Char
  | [] => []
  | [item] => item
  | item :: rest => item ++ separator ++ joinWith separator rest

def printBool (value : Bool) : List Char := if value then "true".toList else "false".toList

/-! ## Without blanks -/

mutual

def compactChars : Json → List Char
  | .null => "null".toList
  | .bool value => printBool value
  | .number numeral => numeral.print
  | .string value => printText value
  | .array items => '[' :: (joinWith [','] (compactItems items) ++ [']'])
  | .object members => '\x7b' :: (joinWith [','] (compactMembers members) ++ ['\x7d'])

def compactItems : List Json → List (List Char)
  | [] => []
  | item :: rest => compactChars item :: compactItems rest

def compactMembers : List (Option String × Json) → List (List Char)
  | [] => []
  | (key, value) :: rest => (printText key ++ ':' :: compactChars value) :: compactMembers rest

end

def compact (value : Json) : String := String.ofList value.compactChars

/-! ## With one item a line -/

def newline (level : Nat) : List Char := '\n' :: List.replicate (2 * level) ' '

/-- Items between brackets, each on a line of its own. -/
def enclose (level : Nat) (opening closing : Char) (items : List (List Char)) : List Char :=
  if items.isEmpty then [opening, closing]
  else
    opening :: (newline (level + 1) ++ joinWith (',' :: newline (level + 1)) items ++
      newline level ++ [closing])

mutual

def prettyChars (level : Nat) : Json → List Char
  | .null => "null".toList
  | .bool value => printBool value
  | .number numeral => numeral.print
  | .string value => printText value
  | .array items => enclose level '[' ']' (prettyItems (level + 1) items)
  | .object members => enclose level '\x7b' '\x7d' (prettyMembers (level + 1) members)

def prettyItems (level : Nat) : List Json → List (List Char)
  | [] => []
  | item :: rest => prettyChars level item :: prettyItems level rest

def prettyMembers (level : Nat) : List (Option String × Json) → List (List Char)
  | [] => []
  | (key, value) :: rest =>
      (printText key ++ ':' :: ' ' :: prettyChars level value) :: prettyMembers level rest

end

def pretty (value : Json) : String := String.ofList (value.prettyChars 0)

end Json

end SegmentStream
