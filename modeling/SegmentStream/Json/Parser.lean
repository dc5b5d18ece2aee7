import SegmentStream.Json.Basic

/-!
# Reading JSON

A recursive descent over the characters of the text.  The number of steps is
bounded by the length of the text, since every step but the first of a value
consumes a character.
-/

namespace SegmentStream

namespace Json

def isBlank (c : Char) : Bool := c == ' ' || c == '\n' || c == '\t' || c == '\r'

def skipBlanks (text : List Char) : List Char := text.dropWhile isBlank

/-! ## Numbers -/

def takeDigits (text : List Char) : List Char × List Char :=
  (text.takeWhile Char.isDigit, text.dropWhile Char.isDigit)

/-- One zero, or digits that do not start with a zero. -/
def parseWhole (text : List Char) : Option (List Char × List Char) :=
  match takeDigits text with
  | ([], _) => none
  | ('0' :: _ :: _, _) => none
  | (digits, rest) => some (digits, rest)

def parseFraction : List Char → Option (Option (List Char) × List Char)
  | '.' :: rest =>
      match takeDigits rest with
      | ([], _) => none
      | (digits, rest) => some (some digits, rest)
  | text => some (none, text)

def parseSign : List Char → Bool × List Char
  | '-' :: rest => (true, rest)
  | '+' :: rest => (false, rest)
  | text => (false, text)

def parseExponent (text : List Char) : Option (Option (Bool × List Char) × List Char) :=
  match text with
  | mark :: rest =>
      if mark = 'e' ∨ mark = 'E' then
        let (negative, rest) := parseSign rest
        match takeDigits rest with
        | ([], _) => none
        | (digits, rest) => some (some (negative, digits), rest)
      else some (none, text)
  | [] => some (none, text)

def parseNumeral (text : List Char) : Option (Numeral × List Char) := do
  let (negative, text) := match text with
    | '-' :: rest => (true, rest)
    | text => (false, text)
  let (whole, text) ← parseWhole text
  let (fraction, text) ← parseFraction text
  let (exponent, text) ← parseExponent text
  return (⟨negative, whole, fraction, exponent⟩, text)

/-! ## Strings -/

/-- A character of a string, or the 16-bit code of an escape. -/
inductive TextUnit where
  | char (c : Char)
  | code (n : Nat)
  deriving DecidableEq, Repr

def hexValue? (c : Char) : Option Nat :=
  if '0' ≤ c && c ≤ '9' then some (c.toNat - 48)
  else if 'a' ≤ c && c ≤ 'f' then some (c.toNat - 87)
  else if 'A' ≤ c && c ≤ 'F' then some (c.toNat - 55)
  else none

def hexCode? (digits : List Char) : Option Nat :=
  digits.foldlM (fun n c => (hexValue? c).map (16 * n + ·)) 0

def shortEscape? : Char → Option Char
  | '"' => some '"'
  | '\\' => some '\\'
  | '/' => some '/'
  | 'b' => some '\x08'
  | 'f' => some '\x0c'
  | 'n' => some '\n'
  | 'r' => some '\r'
  | 't' => some '\t'
  | _ => none

/-- The units of a string behind its opening quote, up to the closing one. -/
def parseUnits : List Char → Option (List TextUnit × List Char)
  | [] => none
  | '"' :: rest => some ([], rest)
  | '\\' :: 'u' :: a :: b :: c :: d :: rest => do
      let code ← hexCode? [a, b, c, d]
      let (units, rest) ← parseUnits rest
      return (.code code :: units, rest)
  | '\\' :: mark :: rest => do
      let c ← shortEscape? mark
      let (units, rest) ← parseUnits rest
      return (.char c :: units, rest)
  | c :: rest =>
      if c.toNat < 32 ∨ c = '\\' then none
      else do
        let (units, rest) ← parseUnits rest
        return (.char c :: units, rest)

def isHighSurrogate (code : Nat) : Bool := 0xD800 ≤ code && code < 0xDC00
def isLowSurrogate (code : Nat) : Bool := 0xDC00 ≤ code && code < 0xE000

/-- The characters of a string; none if a surrogate stands alone. -/
def joinUnits : List TextUnit → Option (List Char)
  | [] => some []
  | .char c :: rest => (joinUnits rest).map (c :: ·)
  | .code high :: .code low :: rest =>
      if isHighSurrogate high then
        if isLowSurrogate low then
          (joinUnits rest).map
            (Char.ofNat (0x10000 + (high - 0xD800) * 0x400 + (low - 0xDC00)) :: ·)
        else none
      else if isLowSurrogate high then none
      else (joinUnits (.code low :: rest)).map (Char.ofNat high :: ·)
  | .code code :: rest =>
      if isHighSurrogate code ∨ isLowSurrogate code then none
      else (joinUnits rest).map (Char.ofNat code :: ·)

def parseText (text : List Char) : Option (Option String × List Char) := do
  let (units, rest) ← parseUnits text
  return ((joinUnits units).map String.ofList, rest)

/-! ## Values -/

mutual

def parseValue : Nat → List Char → Option (Json × List Char)
  | 0, _ => none
  | fuel + 1, text =>
      match skipBlanks text with
      | 'n' :: 'u' :: 'l' :: 'l' :: rest => some (.null, rest)
      | 't' :: 'r' :: 'u' :: 'e' :: rest => some (.bool true, rest)
      | 'f' :: 'a' :: 'l' :: 's' :: 'e' :: rest => some (.bool false, rest)
      | '"' :: rest => (parseText rest).map fun (value, rest) => (.string value, rest)
      | '[' :: rest =>
          match skipBlanks rest with
          | ']' :: rest => some (.array [], rest)
          | rest => (parseItems fuel rest).map fun (items, rest) => (.array items, rest)
      | '\x7b' :: rest =>
          match skipBlanks rest with
          | '\x7d' :: rest => some (.object [], rest)
          | rest => (parseMembers fuel rest).map fun (members, rest) => (.object members, rest)
      | text => (parseNumeral text).map fun (numeral, rest) => (.number numeral, rest)

def parseItems : Nat → List Char → Option (List Json × List Char)
  | 0, _ => none
  | fuel + 1, text =>
      match parseValue fuel text with
      | none => none
      | some (item, rest) =>
          match skipBlanks rest with
          | ',' :: rest => (parseItems fuel rest).map fun (items, rest) => (item :: items, rest)
          | ']' :: rest => some ([item], rest)
          | _ => none

def parseMembers : Nat → List Char → Option (List (Option String × Json) × List Char)
  | 0, _ => none
  | fuel + 1, text =>
      match skipBlanks text with
      | '"' :: rest =>
          match parseText rest with
          | none => none
          | some (key, rest) =>
              match skipBlanks rest with
              | ':' :: rest =>
                  match parseValue fuel rest with
                  | none => none
                  | some (value, rest) =>
                      match skipBlanks rest with
                      | ',' :: rest =>
                          (parseMembers fuel rest).map fun (members, rest) =>
                            ((key, value) :: members, rest)
                      | '\x7d' :: rest => some ([(key, value)], rest)
                      | _ => none
              | _ => none
      | _ => none

end

/-- The value a text consists of; blanks may surround it. -/
def parse? (text : String) : Option Json :=
  let chars := text.toList
  match parseValue (2 * chars.length + 2) chars with
  | some (value, rest) => if (skipBlanks rest).isEmpty then some value else none
  | none => none

end Json

end SegmentStream
