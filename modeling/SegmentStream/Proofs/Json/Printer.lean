import SegmentStream.Json.Printer
import SegmentStream.Proofs.Json.Grammar

/-!
# Printed values are texts of the grammar

A value is printed as a text of it, provided that its numerals can be written
down and its strings have texts.
-/

namespace SegmentStream

/-- There are digits wherever the numeral needs some. -/
structure Numeral.IsProper (numeral : Numeral) : Prop where
  whole : Json.IsWhole numeral.whole
  fraction : ∀ digits, numeral.fraction = some digits → Json.IsDigits digits
  exponent : ∀ negative digits, numeral.exponent = some (negative, digits) → Json.IsDigits digits

namespace Json

/-! ## Numbers -/

theorem spellsSign (negative : Bool) : SpellsSign [if negative then '-' else '+'] negative := by
  cases negative with
  | true => exact .minus
  | false => exact .plus

theorem print_spells {numeral : Numeral} (h : numeral.IsProper) :
    SpellsNumeral numeral.print numeral := by
  obtain ⟨negative, whole, fraction, exponent⟩ := numeral
  obtain ⟨hwhole, hfraction, hexponent⟩ := h
  refine ⟨hwhole, ?_⟩
  cases fraction with
  | none =>
      cases exponent with
      | none => exact ⟨[], [], .absent, .absent, by simp [Numeral.print]⟩
      | some exponent =>
          obtain ⟨downwards, digits⟩ := exponent
          exact ⟨[], _, .absent, .digits (.inl rfl) (spellsSign downwards)
            (hexponent downwards digits rfl), by simp [Numeral.print]⟩
  | some fraction =>
      have hpoint := SpellsFraction.digits (hfraction fraction rfl)
      cases exponent with
      | none => exact ⟨_, [], hpoint, .absent, by simp [Numeral.print]⟩
      | some exponent =>
          obtain ⟨downwards, digits⟩ := exponent
          exact ⟨_, _, hpoint, .digits (.inl rfl) (spellsSign downwards)
            (hexponent downwards digits rfl), by simp [Numeral.print]⟩

/-! ## Strings -/

/-- How a printed string writes a character: as itself, or a control character by its code. -/
def Writes (c : Char) (unit : TextUnit) : Prop :=
  unit = .char c ∨ unit = .code c.toNat ∧ c.toNat < 32

theorem hexCode?_hexDigits {n : Nat} (h : n < 32) :
    hexCode? ['0', '0', hexDigitChar (n / 16), hexDigitChar (n % 16)] = some n := by
  revert n
  decide

theorem escapeChar_spells (c : Char) : ∃ unit, SpellsUnit (escapeChar c) unit ∧ Writes c unit := by
  unfold escapeChar
  split
  case h_8 =>
    split
    · rename_i hlow
      exact ⟨_, .code (hexCode?_hexDigits hlow), .inr ⟨rfl, hlow⟩⟩
    · rename_i hquote hescape _ _ _ _ _ hlow
      exact ⟨_, .plain (Nat.not_lt.mp hlow) hquote hescape, .inl rfl⟩
  all_goals exact ⟨_, .short rfl, .inl rfl⟩

theorem joinUnits_cons {c : Char} {unit : TextUnit} (h : Writes c unit) (units : List TextUnit) :
    joinUnits (unit :: units) = (joinUnits units).map (c :: ·) := by
  obtain rfl | ⟨rfl, hlow⟩ := h
  · rfl
  · have hhigh : isHighSurrogate c.toNat = false := by
      simp [isHighSurrogate]
      omega
    have hlow' : isLowSurrogate c.toNat = false := by
      simp [isLowSurrogate]
      omega
    cases units with
    | nil => simp [joinUnits, hhigh, hlow']
    | cons next rest => cases next <;> simp [joinUnits, hhigh, hlow']

theorem flatMap_escapeChar_spells (text : List Char) :
    ∃ units, SpellsUnits (text.flatMap escapeChar) units ∧ joinUnits units = some text := by
  induction text with
  | nil => exact ⟨[], .nil, rfl⟩
  | cons c rest ih =>
      obtain ⟨unit, hunit, hwrites⟩ := escapeChar_spells c
      obtain ⟨units, hunits, hjoin⟩ := ih
      refine ⟨unit :: units, .cons hunit hunits, ?_⟩
      rw [joinUnits_cons hwrites, hjoin, Option.map_some]

theorem printText_spells (text : String) : SpellsString (printText (some text)) (some text) := by
  obtain ⟨units, hunits, hjoin⟩ := flatMap_escapeChar_spells text.toList
  have hquoted := SpellsString.quoted hunits
  rw [hjoin, Option.map_some, String.ofList_toList] at hquoted
  exact hquoted

/-! ## Values -/

mutual

/-- The value can be written down. -/
def IsProper : Json → Prop
  | .number numeral => numeral.IsProper
  | .string value => value.isSome = true
  | .array items => ItemsProper items
  | .object members => MembersProper members
  | _ => True

def ItemsProper : List Json → Prop
  | [] => True
  | item :: rest => item.IsProper ∧ ItemsProper rest

def MembersProper : List (Option String × Json) → Prop
  | [] => True
  | (key, value) :: rest => key.isSome = true ∧ value.IsProper ∧ MembersProper rest

end

theorem newline_blank (level : Nat) : IsBlankText (newline level) := by
  intro c hc
  rcases List.mem_cons.mp hc with rfl | hspace
  · rfl
  · rw [List.eq_of_mem_replicate hspace]
    rfl

theorem enclose_eq (level : Nat) (opening closing : Char) {items : List (List Char)}
    (h : items ≠ []) : enclose level opening closing items =
      opening :: ((newline (level + 1) ++
        (joinWith (',' :: newline (level + 1)) items ++ newline level)) ++ [closing]) := by
  simp [enclose, h]

theorem joinWith_cons (separator item : List Char) {rest : List (List Char)} (h : rest ≠ []) :
    joinWith separator (item :: rest) = item ++ (separator ++ joinWith separator rest) := by
  cases rest with
  | nil => exact absurd rfl h
  | cons next rest => simp [joinWith]

theorem prettyItems_ne_nil (level : Nat) {items : List Json} (h : items ≠ []) :
    prettyItems level items ≠ [] := by
  cases items with
  | nil => exact absurd rfl h
  | cons item rest => simp [prettyItems]

theorem prettyMembers_ne_nil (level : Nat) {members : List (Option String × Json)}
    (h : members ≠ []) : prettyMembers level members ≠ [] := by
  cases members with
  | nil => exact absurd rfl h
  | cons member rest => simp [prettyMembers]

mutual

theorem prettyChars_spells (level : Nat) (value : Json) (h : value.IsProper) :
    Spells (value.prettyChars level) (.value value) := by
  cases value with
  | null => exact .nullWord
  | bool value =>
      cases value with
      | true => exact .trueWord
      | false => exact .falseWord
  | number numeral => exact .number (print_spells h)
  | string value =>
      obtain ⟨text, rfl⟩ := Option.isSome_iff_exists.mp h
      exact .string (printText_spells text)
  | array items =>
      by_cases hnil : items = []
      · subst hnil
        exact .emptyArray (List.forall_mem_nil _)
      · rw [prettyChars, enclose_eq _ _ _ (prettyItems_ne_nil _ hnil)]
        exact .array (prettyItems_spells (level + 1) items h hnil (newline_blank _)
          (newline_blank _))
  | object members =>
      by_cases hnil : members = []
      · subst hnil
        exact .emptyObject (List.forall_mem_nil _)
      · rw [prettyChars, enclose_eq _ _ _ (prettyMembers_ne_nil _ hnil)]
        exact .object (prettyMembers_spells (level + 1) members h hnil (newline_blank _)
          (newline_blank _))

theorem prettyItems_spells (level : Nat) (items : List Json) (h : ItemsProper items)
    (hnil : items ≠ []) {before after : List Char} (hbefore : IsBlankText before)
    (hafter : IsBlankText after) :
    Spells (before ++ (joinWith (',' :: before) (prettyItems level items) ++ after))
      (.items items) := by
  cases items with
  | nil => exact absurd rfl hnil
  | cons item rest =>
      have hitem := prettyChars_spells level item h.1
      rw [prettyItems]
      by_cases hlast : rest = []
      · subst hlast
        exact .lastItem (.padded hbefore hitem hafter)
      · have hrest := prettyItems_spells level rest h.2 hlast hbefore hafter
        have htext := (Spells.padded hbefore hitem (List.forall_mem_nil _)).item hrest
        rw [joinWith_cons _ _ (prettyItems_ne_nil level hlast)]
        simpa only [List.append_assoc, List.cons_append, List.append_nil] using htext

theorem prettyMembers_spells (level : Nat) (members : List (Option String × Json))
    (h : MembersProper members) (hnil : members ≠ []) {before after : List Char}
    (hbefore : IsBlankText before) (hafter : IsBlankText after) :
    Spells (before ++ (joinWith (',' :: before) (prettyMembers level members) ++ after))
      (.members members) := by
  cases members with
  | nil => exact absurd rfl hnil
  | cons member rest =>
      obtain ⟨key, value⟩ := member
      obtain ⟨hkey, hproper, hrest⟩ := h
      obtain ⟨name, rfl⟩ := Option.isSome_iff_exists.mp hkey
      have hname := SpellsKey.padded hbefore (printText_spells name) (List.forall_mem_nil _)
      have hvalue := prettyChars_spells level value hproper
      have hspace : IsBlankText [' '] := List.forall_mem_singleton.mpr rfl
      rw [prettyMembers]
      by_cases hlast : rest = []
      · subst hlast
        have htext := Spells.lastMember hname (.padded hspace hvalue hafter)
        simpa only [prettyMembers, joinWith, List.append_assoc, List.cons_append, List.append_nil,
          List.nil_append] using htext
      · have hrest := prettyMembers_spells level rest hrest hlast hbefore hafter
        have htext := Spells.member hname (.padded hspace hvalue (List.forall_mem_nil _)) hrest
        rw [joinWith_cons _ _ (prettyMembers_ne_nil level hlast)]
        simpa only [List.append_assoc, List.cons_append, List.append_nil, List.nil_append] using htext

end

theorem pretty_isTextOf {value : Json} (h : value.IsProper) : IsTextOf value.pretty value := by
  have htext := Spells.padded (List.forall_mem_nil _) (prettyChars_spells 0 value h)
    (List.forall_mem_nil _)
  rw [List.nil_append, List.append_nil] at htext
  rw [IsTextOf, pretty, String.toList_ofList]
  exact htext

end Json

end SegmentStream
