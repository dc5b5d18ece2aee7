import SegmentStream.Json.Parser

/-!
# The grammar of JSON

Which texts stand for a value, said without a reader: blanks may surround every
value, key and mark, a character of a string may be written plainly or escaped,
and an exponent may have either mark and a redundant sign.
-/

namespace SegmentStream.Json

def IsBlankText (text : List Char) : Prop := ∀ c ∈ text, isBlank c = true

/-! ## Numbers -/

structure IsDigits (text : List Char) : Prop where
  filled : text ≠ []
  digits : ∀ c ∈ text, c.isDigit = true

/-- Digits before the point: a zero in front stands alone. -/
structure IsWhole (text : List Char) : Prop extends IsDigits text where
  leading : text.head? = some '0' → text = ['0']

inductive SpellsFraction : List Char → Option (List Char) → Prop where
  | absent : SpellsFraction [] none
  | digits {digits : List Char} (h : IsDigits digits) : SpellsFraction ('.' :: digits) (some digits)

inductive SpellsSign : List Char → Bool → Prop where
  | absent : SpellsSign [] false
  | plus : SpellsSign ['+'] false
  | minus : SpellsSign ['-'] true

inductive SpellsExponent : List Char → Option (Bool × List Char) → Prop where
  | absent : SpellsExponent [] none
  | digits {mark : Char} {sign digits : List Char} {negative : Bool}
      (hmark : mark = 'e' ∨ mark = 'E') (hsign : SpellsSign sign negative) (h : IsDigits digits) :
      SpellsExponent (mark :: (sign ++ digits)) (some (negative, digits))

structure SpellsNumeral (text : List Char) (numeral : Numeral) : Prop where
  whole : IsWhole numeral.whole
  parts : ∃ fraction exponent, SpellsFraction fraction numeral.fraction ∧
    SpellsExponent exponent numeral.exponent ∧
    text = (if numeral.negative then ['-'] else []) ++ (numeral.whole ++ (fraction ++ exponent))

/-! ## Strings -/

inductive SpellsUnit : List Char → TextUnit → Prop where
  | plain {c : Char} (hvisible : 32 ≤ c.toNat) (hquote : c ≠ '"') (hescape : c ≠ '\\') :
      SpellsUnit [c] (.char c)
  | short {mark c : Char} (h : shortEscape? mark = some c) : SpellsUnit ['\\', mark] (.char c)
  | code {first second third fourth : Char} {code : Nat}
      (h : hexCode? [first, second, third, fourth] = some code) :
      SpellsUnit ['\\', 'u', first, second, third, fourth] (.code code)

inductive SpellsUnits : List Char → List TextUnit → Prop where
  | nil : SpellsUnits [] []
  | cons {text rest : List Char} {unit : TextUnit} {units : List TextUnit}
      (hunit : SpellsUnit text unit) (hrest : SpellsUnits rest units) :
      SpellsUnits (text ++ rest) (unit :: units)

/-- A string between its quotes; it has no text if its escapes name half a surrogate pair. -/
inductive SpellsString : List Char → Option String → Prop where
  | quoted {text : List Char} {units : List TextUnit} (h : SpellsUnits text units) :
      SpellsString ('"' :: (text ++ ['"'])) ((joinUnits units).map String.ofList)

/-! ## Values -/

inductive SpellsKey : List Char → Option String → Prop where
  | padded {before text after : List Char} {key : Option String} (hbefore : IsBlankText before)
      (h : SpellsString text key) (hafter : IsBlankText after) :
      SpellsKey (before ++ (text ++ after)) key

/-- What a part of a text says: a value, alone or with blanks around, or a list in brackets. -/
inductive Phrase where
  | value (value : Json)
  | padded (value : Json)
  | items (items : List Json)
  | members (members : List (Option String × Json))

inductive Spells : List Char → Phrase → Prop where
  | nullWord : Spells ['n', 'u', 'l', 'l'] (.value .null)
  | trueWord : Spells ['t', 'r', 'u', 'e'] (.value (.bool true))
  | falseWord : Spells ['f', 'a', 'l', 's', 'e'] (.value (.bool false))
  | number {text : List Char} {numeral : Numeral} (h : SpellsNumeral text numeral) :
      Spells text (.value (.number numeral))
  | string {text : List Char} {value : Option String} (h : SpellsString text value) :
      Spells text (.value (.string value))
  | emptyArray {blanks : List Char} (h : IsBlankText blanks) :
      Spells ('[' :: (blanks ++ [']'])) (.value (.array []))
  | array {text : List Char} {items : List Json} (h : Spells text (.items items)) :
      Spells ('[' :: (text ++ [']'])) (.value (.array items))
  | emptyObject {blanks : List Char} (h : IsBlankText blanks) :
      Spells ('\x7b' :: (blanks ++ ['\x7d'])) (.value (.object []))
  | object {text : List Char} {members : List (Option String × Json)}
      (h : Spells text (.members members)) :
      Spells ('\x7b' :: (text ++ ['\x7d'])) (.value (.object members))
  | padded {before text after : List Char} {value : Json} (hbefore : IsBlankText before)
      (h : Spells text (.value value)) (hafter : IsBlankText after) :
      Spells (before ++ (text ++ after)) (.padded value)
  | lastItem {text : List Char} {item : Json} (h : Spells text (.padded item)) :
      Spells text (.items [item])
  | item {text rest : List Char} {item : Json} {items : List Json} (h : Spells text (.padded item))
      (hrest : Spells rest (.items items)) : Spells (text ++ ',' :: rest) (.items (item :: items))
  | lastMember {name text : List Char} {key : Option String} {value : Json}
      (hname : SpellsKey name key) (h : Spells text (.padded value)) :
      Spells (name ++ ':' :: text) (.members [(key, value)])
  | member {name text rest : List Char} {key : Option String} {value : Json}
      {members : List (Option String × Json)} (hname : SpellsKey name key)
      (h : Spells text (.padded value)) (hrest : Spells rest (.members members)) :
      Spells (name ++ ':' :: (text ++ ',' :: rest)) (.members ((key, value) :: members))

def IsTextOf (text : String) (value : Json) : Prop := Spells text.toList (.padded value)

/-! ## What stands at the start of a text -/

/-- The text is at its end, or goes on with a character that is not of the kind. -/
def StopsAt (kind : Char → Bool) (text : List Char) : Prop :=
  ∀ c, text.head? = some c → kind c = false

theorem stopsAt_nil (kind : Char → Bool) : StopsAt kind [] := by
  rintro c ⟨⟩

theorem stopsAt_cons {kind : Char → Bool} {c : Char} (h : kind c = false) (text : List Char) :
    StopsAt kind (c :: text) := by
  rintro c ⟨⟩
  exact h

theorem StopsAt.mono {kind kind' : Char → Bool} {text : List Char} (h : StopsAt kind text)
    (hkind : ∀ c, kind' c = true → kind c = true) : StopsAt kind' text := by
  intro c hc
  have hnot := h c hc
  cases hother : kind' c with
  | false => rfl
  | true => rw [hkind c hother] at hnot; cases hnot

theorem takeWhile_append_stop {kind : Char → Bool} {text rest : List Char}
    (htext : ∀ c ∈ text, kind c = true) (hrest : StopsAt kind rest) :
    (text ++ rest).takeWhile kind = text := by
  rw [List.takeWhile_append_of_pos htext]
  cases rest with
  | nil => simp
  | cons c rest => simp [hrest c rfl]

theorem dropWhile_append_stop {kind : Char → Bool} {text rest : List Char}
    (htext : ∀ c ∈ text, kind c = true) (hrest : StopsAt kind rest) :
    (text ++ rest).dropWhile kind = rest := by
  rw [List.dropWhile_append_of_pos htext]
  cases rest with
  | nil => rfl
  | cons c rest => simp [hrest c rfl]

end SegmentStream.Json
