import SegmentStream.Proofs.Json.Grammar

/-!
# Every text of the grammar is read

The reader refuses no text of the grammar and takes each for its value.  A part
of a text is followed by whatever the text goes on with, and only a number has
to know that it ends there.
-/

namespace SegmentStream.Json

/-! ## Blanks -/

theorem skipBlanks_append {blanks text : List Char} (hblanks : IsBlankText blanks)
    (htext : StopsAt isBlank text) : skipBlanks (blanks ++ text) = text :=
  dropWhile_append_stop hblanks htext

theorem skipBlanks_of_stopsAt {text : List Char} (h : StopsAt isBlank text) :
    skipBlanks text = text :=
  skipBlanks_append (List.forall_mem_nil _) h

theorem stopsAt_skipBlanks (text : List Char) : StopsAt isBlank (skipBlanks text) := by
  intro c hc
  have hhead := List.head?_dropWhile_not isBlank text
  rw [skipBlanks] at hc
  rwa [hc] at hhead

theorem skipBlanks_skipBlanks (text : List Char) : skipBlanks (skipBlanks text) = skipBlanks text :=
  skipBlanks_of_stopsAt (stopsAt_skipBlanks text)

/-! ## Numbers -/

/-- The characters that may be inside a number. -/
def isNumeric (c : Char) : Bool := c.isDigit || c == '.' || c == 'e' || c == 'E'

theorem takeDigits_append {digits rest : List Char} (h : IsDigits digits)
    (hrest : StopsAt Char.isDigit rest) : takeDigits (digits ++ rest) = (digits, rest) := by
  rw [takeDigits, takeWhile_append_stop h.digits hrest, dropWhile_append_stop h.digits hrest]

theorem parseWhole_append {digits rest : List Char} (h : IsWhole digits)
    (hrest : StopsAt Char.isDigit rest) : parseWhole (digits ++ rest) = some (digits, rest) := by
  rw [parseWhole, takeDigits_append h.toIsDigits hrest]
  split
  · rename_i heq
    cases heq
    exact absurd rfl h.filled
  · rename_i heq
    cases heq
    cases h.leading rfl
  · rename_i heq
    cases heq
    rfl

theorem parseFraction_append {text rest : List Char} {fraction : Option (List Char)}
    (h : SpellsFraction text fraction) (hdigit : StopsAt Char.isDigit rest)
    (hpoint : StopsAt (· == '.') rest) : parseFraction (text ++ rest) = some (fraction, rest) := by
  cases h with
  | absent =>
      rw [List.nil_append]
      unfold parseFraction
      split
      · cases hpoint '.' rfl
      · rfl
  | digits h =>
      rw [List.cons_append, parseFraction, takeDigits_append h hdigit]
      split
      · rename_i heq
        cases heq
        exact absurd rfl h.filled
      · rename_i heq
        cases heq
        rfl

theorem parseSign_append {text digits rest : List Char} {negative : Bool}
    (h : SpellsSign text negative) (hdigits : IsDigits digits) :
    parseSign (text ++ (digits ++ rest)) = (negative, digits ++ rest) := by
  cases h with
  | plus => rfl
  | minus => rfl
  | absent =>
      obtain ⟨c, digits, rfl⟩ := List.exists_cons_of_ne_nil hdigits.filled
      have hdigit := hdigits.digits c List.mem_cons_self
      rw [List.nil_append, List.cons_append]
      unfold parseSign
      split
      · rename_i heq
        cases heq
        cases hdigit
      · rename_i heq
        cases heq
        cases hdigit
      · rfl

theorem parseExponent_append {text rest : List Char} {exponent : Option (Bool × List Char)}
    (h : SpellsExponent text exponent) (hrest : StopsAt isNumeric rest) :
    parseExponent (text ++ rest) = some (exponent, rest) := by
  cases h with
  | absent =>
      rw [List.nil_append]
      cases rest with
      | nil => rfl
      | cons c rest =>
          have hmark : ¬ (c = 'e' ∨ c = 'E') := by
            have hnot := hrest c rfl
            rintro (rfl | rfl) <;> cases hnot
          rw [parseExponent, if_neg hmark]
  | digits hmark hsign h =>
      have hdigit : StopsAt Char.isDigit rest := hrest.mono fun c hc => by simp [isNumeric, hc]
      rw [List.cons_append, parseExponent, if_pos hmark, List.append_assoc,
        parseSign_append hsign h]
      dsimp only
      rw [takeDigits_append h hdigit]
      split
      · rename_i heq
        cases heq
        exact absurd rfl h.filled
      · rename_i heq
        cases heq
        rfl

/-- A fraction or an exponent starts with its mark. -/
theorem SpellsExponent.stopsAt {text rest : List Char} {exponent : Option (Bool × List Char)}
    {kind : Char → Bool} (h : SpellsExponent text exponent) (hmarks : kind 'e' = false)
    (hmarks' : kind 'E' = false) (hrest : StopsAt kind rest) : StopsAt kind (text ++ rest) := by
  cases h with
  | absent => exact hrest
  | digits hmark hsign h =>
      rcases hmark with rfl | rfl
      · exact stopsAt_cons hmarks _
      · exact stopsAt_cons hmarks' _

theorem SpellsFraction.stopsAt {text rest : List Char} {fraction : Option (List Char)}
    {kind : Char → Bool} (h : SpellsFraction text fraction) (hmark : kind '.' = false)
    (hrest : StopsAt kind rest) : StopsAt kind (text ++ rest) := by
  cases h with
  | absent => exact hrest
  | digits h => exact stopsAt_cons hmark _

theorem parseNumeral_append {text rest : List Char} {numeral : Numeral}
    (h : SpellsNumeral text numeral) (hrest : StopsAt isNumeric rest) :
    parseNumeral (text ++ rest) = some (numeral, rest) := by
  obtain ⟨negative, whole, fraction, exponent⟩ := numeral
  obtain ⟨hwhole, fractionText, exponentText, hfraction, hexponent, rfl⟩ := h
  have hdigit : StopsAt Char.isDigit rest := hrest.mono fun c hc => by simp [isNumeric, hc]
  have hpoint : StopsAt (· == '.') rest := hrest.mono fun c hc => by simp [isNumeric, hc]
  have hdigit' := hexponent.stopsAt (by rfl) (by rfl) hdigit
  have hpoint' := hexponent.stopsAt (by rfl) (by rfl) hpoint
  have hwhole' := parseWhole_append hwhole (hfraction.stopsAt (by rfl) hdigit')
  have hfraction' := parseFraction_append hfraction hdigit' hpoint'
  have hexponent' := parseExponent_append hexponent hrest
  have hminus : ∀ tail, whole ++ (fractionText ++ (exponentText ++ rest)) ≠ '-' :: tail := by
    intro tail heq
    obtain ⟨c, digits, rfl⟩ := List.exists_cons_of_ne_nil hwhole.filled
    cases heq
    cases hwhole.digits '-' List.mem_cons_self
  unfold parseNumeral
  cases negative with
  | true =>
      simp only [if_true, List.cons_append, List.nil_append, List.append_assoc, hwhole',
        hfraction', hexponent', Option.bind_eq_bind, Option.bind_some, Option.pure_def]
  | false =>
      simp only [Bool.false_eq_true, if_false, List.nil_append, List.append_assoc, hwhole',
        hfraction', hexponent', Option.bind_eq_bind, Option.bind_some, Option.pure_def]

/-! ## Strings -/

theorem parseUnits_of_unit {text rest : List Char} {unit : TextUnit} (h : SpellsUnit text unit) :
    parseUnits (text ++ rest) =
      (parseUnits rest).map fun (units, left) => (unit :: units, left) := by
  cases h with
  | plain hvisible hquote hescape =>
      rename_i c
      rw [List.cons_append, List.nil_append, parseUnits.eq_def]
      have hplain : ¬ (c.toNat < 32 ∨ c = '\\') := by
        rintro (hlow | hbar)
        · exact Nat.not_lt.mpr hvisible hlow
        · exact hescape hbar
      split
      · rename_i heq; cases heq
      · rename_i heq; cases heq; exact absurd rfl hquote
      · rename_i heq; cases heq; exact absurd rfl hescape
      · rename_i heq; cases heq; exact absurd rfl hescape
      · rename_i heq
        cases heq
        rw [if_neg hplain]
        cases parseUnits rest <;> rfl
  | short h =>
      rename_i mark c
      have hmark : mark ≠ 'u' := by
        rintro rfl
        cases h
      rw [List.cons_append, List.cons_append, List.nil_append, parseUnits.eq_def]
      split
      · rename_i heq; cases heq
      · rename_i heq; cases heq
      · rename_i heq; cases heq; exact absurd rfl hmark
      · rename_i heq
        cases heq
        rw [h, Option.bind_eq_bind, Option.bind_some]
        cases parseUnits rest <;> rfl
      · rename_i hescape heq
        cases heq
        exact (hescape mark rest rfl rfl).elim
  | code h =>
      rename_i first second third fourth code
      simp only [List.cons_append, List.nil_append, parseUnits, h, Option.bind_eq_bind,
        Option.bind_some]
      cases parseUnits rest <;> rfl

theorem parseUnits_append {text rest : List Char} {units : List TextUnit}
    (h : SpellsUnits text units) : parseUnits (text ++ '"' :: rest) = some (units, rest) := by
  induction h with
  | nil => rfl
  | cons hunit _ ih => rw [List.append_assoc, parseUnits_of_unit hunit, ih, Option.map_some]

theorem parseText_append {text rest : List Char} {value : Option String}
    (h : SpellsString ('"' :: text) value) : parseText (text ++ rest) = some (value, rest) := by
  generalize hquoted : '"' :: text = quoted at h
  cases h with
  | quoted h =>
      cases hquoted
      rw [List.append_assoc, parseText, List.singleton_append, parseUnits_append h]
      rfl

/-! ## Values -/

theorem parseValue_skipBlanks (fuel : Nat) (text : List Char) :
    parseValue fuel (skipBlanks text) = parseValue fuel text := by
  cases fuel with
  | zero => rfl
  | succ fuel => rw [parseValue, parseValue, skipBlanks_skipBlanks]

theorem parseItems_skipBlanks (fuel : Nat) (text : List Char) :
    parseItems fuel (skipBlanks text) = parseItems fuel text := by
  cases fuel with
  | zero => rfl
  | succ fuel => rw [parseItems, parseItems, parseValue_skipBlanks]

theorem parseMembers_skipBlanks (fuel : Nat) (text : List Char) :
    parseMembers fuel (skipBlanks text) = parseMembers fuel text := by
  cases fuel with
  | zero => rfl
  | succ fuel => rw [parseMembers, parseMembers, skipBlanks_skipBlanks]

/-- A number is told from the other values by its first character. -/
theorem SpellsNumeral.head {text : List Char} {numeral : Numeral} (h : SpellsNumeral text numeral) :
    ∃ c tail, text = c :: tail ∧ (c = '-' ∨ c.isDigit = true) := by
  obtain ⟨negative, whole, fraction, exponent⟩ := numeral
  obtain ⟨hwhole, fractionText, exponentText, -, -, rfl⟩ := h
  obtain ⟨c, digits, hcons⟩ := List.exists_cons_of_ne_nil hwhole.filled
  have hdigit : c.isDigit = true := hwhole.digits c (hcons ▸ List.mem_cons_self)
  dsimp only at hcons ⊢
  rw [hcons]
  cases negative with
  | true => exact ⟨'-', _, rfl, .inl rfl⟩
  | false => exact ⟨c, _, rfl, .inr hdigit⟩

theorem isBlank_of_numeral {c : Char} (h : c = '-' ∨ c.isDigit = true) : isBlank c = false := by
  rw [← Bool.not_eq_true]
  intro hblank
  simp only [isBlank, Bool.or_eq_true, beq_iff_eq] at hblank
  rcases hblank with ((rfl | rfl) | rfl) | rfl <;> simp at h

theorem parseValue_number {text rest : List Char} {numeral : Numeral}
    (h : SpellsNumeral text numeral) (hrest : StopsAt isNumeric rest) (fuel : Nat) :
    parseValue (fuel + 1) (text ++ rest) = some (.number numeral, rest) := by
  have hread := parseNumeral_append h hrest
  obtain ⟨c, tail, rfl, hc⟩ := h.head
  -- the reader looks for every other value before it tries a number
  have hother : c ∉ ['n', 't', 'f', '"', '[', '\x7b'] := by
    intro hmem
    simp only [List.mem_cons, List.not_mem_nil, or_false] at hmem
    rcases hmem with rfl | rfl | rfl | rfl | rfl | rfl <;> simp at hc
  rw [List.cons_append] at hread ⊢
  rw [parseValue, skipBlanks_of_stopsAt (stopsAt_cons (isBlank_of_numeral hc) _)]
  split
  · rename_i heq; obtain ⟨rfl, -⟩ := List.cons.inj heq; simp at hother
  · rename_i heq; obtain ⟨rfl, -⟩ := List.cons.inj heq; simp at hother
  · rename_i heq; obtain ⟨rfl, -⟩ := List.cons.inj heq; simp at hother
  · rename_i heq; obtain ⟨rfl, -⟩ := List.cons.inj heq; simp at hother
  · rename_i heq; obtain ⟨rfl, -⟩ := List.cons.inj heq; simp at hother
  · rename_i heq; obtain ⟨rfl, -⟩ := List.cons.inj heq; simp at hother
  · rw [hread]
    rfl

theorem parseValue_string {text rest : List Char} {value : Option String}
    (h : SpellsString text value) (fuel : Nat) :
    parseValue (fuel + 1) (text ++ rest) = some (.string value, rest) := by
  cases h with
  | quoted h =>
      have hread := @parseText_append _ rest _ (.quoted h)
      rw [List.cons_append, parseValue, skipBlanks_of_stopsAt (stopsAt_cons rfl _)]
      simp only [hread, Option.map_some]

/-! ### Brackets -/

/-- The first character behind any blanks is there and is not the closing one. -/
def Enters (closing : Char) (text : List Char) : Prop :=
  ∃ c tail, skipBlanks text = c :: tail ∧ c ≠ closing

theorem parseValue_emptyArray {blanks : List Char} (h : IsBlankText blanks) (rest : List Char)
    (fuel : Nat) :
    parseValue (fuel + 1) ('[' :: (blanks ++ ']' :: rest)) = some (.array [], rest) := by
  have hclosing : StopsAt isBlank (']' :: rest) := stopsAt_cons rfl rest
  rw [parseValue, skipBlanks_of_stopsAt (stopsAt_cons rfl _)]
  simp only [skipBlanks_append h hclosing]

theorem parseValue_array {text : List Char} (h : Enters ']' text) (fuel : Nat) :
    parseValue (fuel + 1) ('[' :: text) =
      (parseItems fuel text).map fun (items, rest) => (.array items, rest) := by
  obtain ⟨c, tail, htext, hc⟩ := h
  have hread : parseItems fuel (c :: tail) = parseItems fuel text := by
    rw [← htext, parseItems_skipBlanks]
  rw [parseValue, skipBlanks_of_stopsAt (stopsAt_cons rfl _)]
  simp only [htext]
  split
  · rename_i heq
    cases heq
    exact absurd rfl hc
  · rw [hread]

theorem parseValue_emptyObject {blanks : List Char} (h : IsBlankText blanks) (rest : List Char)
    (fuel : Nat) :
    parseValue (fuel + 1) ('\x7b' :: (blanks ++ '\x7d' :: rest)) = some (.object [], rest) := by
  have hclosing : StopsAt isBlank ('\x7d' :: rest) := stopsAt_cons rfl rest
  rw [parseValue, skipBlanks_of_stopsAt (stopsAt_cons rfl _)]
  simp only [skipBlanks_append h hclosing]

theorem parseValue_object {text : List Char} (h : Enters '\x7d' text) (fuel : Nat) :
    parseValue (fuel + 1) ('\x7b' :: text) =
      (parseMembers fuel text).map fun (members, rest) => (.object members, rest) := by
  obtain ⟨c, tail, htext, hc⟩ := h
  have hread : parseMembers fuel (c :: tail) = parseMembers fuel text := by
    rw [← htext, parseMembers_skipBlanks]
  rw [parseValue, skipBlanks_of_stopsAt (stopsAt_cons rfl _)]
  simp only [htext]
  split
  · rename_i heq
    cases heq
    exact absurd rfl hc
  · rw [hread]

/-! ### Lists -/

theorem Spells.head {text : List Char} {value : Json} (h : Spells text (.value value)) :
    ∃ c tail, text = c :: tail ∧ isBlank c = false ∧ c ≠ ']' := by
  cases h with
  | number h =>
      obtain ⟨c, tail, rfl, hc⟩ := h.head
      refine ⟨c, tail, rfl, isBlank_of_numeral hc, ?_⟩
      rintro rfl
      simp at hc
  | string h =>
      cases h
      exact ⟨'"', _, rfl, rfl, by decide⟩
  | _ => exact ⟨_, _, rfl, rfl, by decide⟩

theorem Spells.stopsAt {text rest : List Char} {value : Json} (h : Spells text (.value value)) :
    StopsAt isBlank (text ++ rest) := by
  obtain ⟨c, tail, rfl, hc, -⟩ := h.head
  exact stopsAt_cons hc _

theorem Spells.padded_enters {text : List Char} {value : Json} (h : Spells text (.padded value))
    (rest : List Char) : Enters ']' (text ++ rest) := by
  cases h with
  | padded hbefore h hafter =>
      rename_i before text after
      obtain ⟨c, tail, hcons, hblank, hc⟩ := h.head
      refine ⟨c, tail ++ (after ++ rest), ?_, hc⟩
      rw [List.append_assoc, List.append_assoc, skipBlanks_append hbefore h.stopsAt, hcons]
      rfl

theorem Spells.items_enters {text : List Char} {items : List Json} (h : Spells text (.items items))
    (rest : List Char) : Enters ']' (text ++ rest) := by
  cases h with
  | lastItem h => exact h.padded_enters rest
  | item h hrest =>
      rw [List.append_assoc]
      exact h.padded_enters _

theorem SpellsKey.skipBlanks {name : List Char} {key : Option String} (h : SpellsKey name key)
    (rest : List Char) : ∃ text after, SpellsString ('"' :: text) key ∧ IsBlankText after ∧
      Json.skipBlanks (name ++ rest) = '"' :: (text ++ (after ++ rest)) := by
  cases h with
  | padded hbefore h hafter =>
      rename_i before text after
      cases h with
      | quoted h =>
          refine ⟨_, after, .quoted h, hafter, ?_⟩
          rw [List.append_assoc, List.append_assoc, List.cons_append]
          exact skipBlanks_append hbefore (stopsAt_cons rfl _)

theorem Spells.members_enters {text : List Char} {members : List (Option String × Json)}
    (h : Spells text (.members members)) (rest : List Char) : Enters '\x7d' (text ++ rest) := by
  have hkey : ∀ {name : List Char} {key : Option String}, SpellsKey name key →
      ∀ rest, Enters '\x7d' (name ++ rest) := by
    intro name key hname rest
    obtain ⟨text, after, -, -, hskip⟩ := hname.skipBlanks rest
    exact ⟨'"', _, hskip, by decide⟩
  cases h with
  | lastMember hname h =>
      rw [List.append_assoc]
      exact hkey hname _
  | member hname h hrest =>
      rw [List.append_assoc]
      exact hkey hname _

section Members

variable {name text left rest : List Char} {key : Option String} {value : Json}
  {members : List (Option String × Json)} {fuel : Nat}

theorem parseMembers_last (hname : SpellsKey name key)
    (hread : parseValue fuel text = some (value, left))
    (hleft : skipBlanks left = '\x7d' :: rest) :
    parseMembers (fuel + 1) (name ++ ':' :: text) = some ([(key, value)], rest) := by
  obtain ⟨body, after, hkey, hafter, hskip⟩ := hname.skipBlanks (':' :: text)
  have hcolon : StopsAt isBlank (':' :: text) := stopsAt_cons rfl text
  rw [parseMembers, hskip]
  simp only [parseText_append hkey, skipBlanks_append hafter hcolon, hread, hleft]

theorem parseMembers_more (hname : SpellsKey name key)
    (hread : parseValue fuel text = some (value, left)) (hleft : skipBlanks left = ',' :: rest) :
    parseMembers (fuel + 1) (name ++ ':' :: text) =
      (parseMembers fuel rest).map fun (members, rest) => ((key, value) :: members, rest) := by
  obtain ⟨body, after, hkey, hafter, hskip⟩ := hname.skipBlanks (':' :: text)
  have hcolon : StopsAt isBlank (':' :: text) := stopsAt_cons rfl text
  rw [parseMembers, hskip]
  simp only [parseText_append hkey, skipBlanks_append hafter hcolon, hread, hleft]

end Members

/-! ### The whole grammar -/

/-- What the readers make of a part of a text that goes on behind it. -/
def Phrase.IsRead (text : List Char) : Phrase → Prop
  | .value content => ∀ fuel rest, 2 * text.length ≤ fuel → StopsAt isNumeric rest →
      parseValue fuel (text ++ rest) = some (content, rest)
  | .padded content => ∀ fuel rest, 2 * text.length ≤ fuel → StopsAt isNumeric rest →
      StopsAt isBlank rest →
        ∃ left, parseValue fuel (text ++ rest) = some (content, left) ∧ skipBlanks left = rest
  | .items content => ∀ fuel rest, 2 * text.length < fuel →
      parseItems fuel (text ++ ']' :: rest) = some (content, rest)
  | .members content => ∀ fuel rest, 2 * text.length < fuel →
      parseMembers fuel (text ++ '\x7d' :: rest) = some (content, rest)

theorem IsBlankText.stopsAt {blanks rest : List Char} (h : IsBlankText blanks)
    (hrest : StopsAt isNumeric rest) : StopsAt isNumeric (blanks ++ rest) := by
  cases blanks with
  | nil => exact hrest
  | cons c blanks =>
      refine stopsAt_cons ?_ _
      have hblank := h c List.mem_cons_self
      simp only [isBlank, Bool.or_eq_true, beq_iff_eq] at hblank
      rcases hblank with ((rfl | rfl) | rfl) | rfl <;> rfl

/-- Each value takes a step of its own, and so does each place in a list. -/
theorem Spells.isRead {text : List Char} {phrase : Phrase} (h : Spells text phrase) :
    phrase.IsRead text := by
  induction h with
  | nullWord =>
      intro fuel rest hfuel _
      obtain ⟨fuel, rfl⟩ := Nat.exists_eq_add_one.mpr (Nat.lt_of_lt_of_le (by simp) hfuel)
      rfl
  | trueWord =>
      intro fuel rest hfuel _
      obtain ⟨fuel, rfl⟩ := Nat.exists_eq_add_one.mpr (Nat.lt_of_lt_of_le (by simp) hfuel)
      rfl
  | falseWord =>
      intro fuel rest hfuel _
      obtain ⟨fuel, rfl⟩ := Nat.exists_eq_add_one.mpr (Nat.lt_of_lt_of_le (by simp) hfuel)
      rfl
  | number h =>
      intro fuel rest hfuel hrest
      obtain ⟨c, tail, hcons, -⟩ := h.head
      obtain ⟨fuel, rfl⟩ := Nat.exists_eq_add_one.mpr (Nat.lt_of_lt_of_le (by simp [hcons]) hfuel)
      exact parseValue_number h hrest fuel
  | string h =>
      cases h with
      | quoted h =>
          intro fuel rest hfuel _
          obtain ⟨fuel, rfl⟩ := Nat.exists_eq_add_one.mpr (Nat.lt_of_lt_of_le (by simp) hfuel)
          exact parseValue_string (.quoted h) fuel
  | emptyArray h =>
      intro fuel rest hfuel _
      obtain ⟨fuel, rfl⟩ := Nat.exists_eq_add_one.mpr (Nat.lt_of_lt_of_le (by simp) hfuel)
      rw [List.cons_append, List.append_assoc, List.singleton_append]
      exact parseValue_emptyArray h rest fuel
  | array h ih =>
      intro fuel rest hfuel _
      simp only [List.length_cons, List.length_append, List.length_nil] at hfuel
      obtain ⟨fuel, rfl⟩ := Nat.exists_eq_add_one.mpr (show 0 < fuel by omega)
      rw [List.cons_append, List.append_assoc, List.singleton_append,
        parseValue_array (h.items_enters _), ih fuel rest (by omega), Option.map_some]
  | emptyObject h =>
      intro fuel rest hfuel _
      obtain ⟨fuel, rfl⟩ := Nat.exists_eq_add_one.mpr (Nat.lt_of_lt_of_le (by simp) hfuel)
      rw [List.cons_append, List.append_assoc, List.singleton_append]
      exact parseValue_emptyObject h rest fuel
  | object h ih =>
      intro fuel rest hfuel _
      simp only [List.length_cons, List.length_append, List.length_nil] at hfuel
      obtain ⟨fuel, rfl⟩ := Nat.exists_eq_add_one.mpr (show 0 < fuel by omega)
      rw [List.cons_append, List.append_assoc, List.singleton_append,
        parseValue_object (h.members_enters _), ih fuel rest (by omega), Option.map_some]
  | padded hbefore h hafter ih =>
      intro fuel rest hfuel hnumeric hblank
      simp only [List.length_append] at hfuel
      refine ⟨_, ?_, skipBlanks_append hafter hblank⟩
      rw [List.append_assoc, List.append_assoc, ← parseValue_skipBlanks,
        skipBlanks_append hbefore h.stopsAt]
      exact ih fuel _ (by omega) (hafter.stopsAt hnumeric)
  | lastItem h ih =>
      intro fuel rest hfuel
      obtain ⟨fuel, rfl⟩ := Nat.exists_eq_add_one.mpr (Nat.zero_lt_of_lt hfuel)
      obtain ⟨left, hread, hleft⟩ :=
        ih fuel (']' :: rest) (by omega) (stopsAt_cons rfl _) (stopsAt_cons rfl _)
      rw [parseItems, hread]
      simp only [hleft]
  | item h hrest ih ihrest =>
      intro fuel rest hfuel
      simp only [List.length_cons, List.length_append] at hfuel
      obtain ⟨fuel, rfl⟩ := Nat.exists_eq_add_one.mpr (Nat.zero_lt_of_lt hfuel)
      obtain ⟨left, hread, hleft⟩ :=
        ih fuel (',' :: (_ ++ ']' :: rest)) (by omega) (stopsAt_cons rfl _) (stopsAt_cons rfl _)
      rw [List.append_assoc, List.cons_append, parseItems, hread]
      simp only [hleft, ihrest fuel rest (by omega), Option.map_some]
  | lastMember hname h ih =>
      intro fuel rest hfuel
      simp only [List.length_cons, List.length_append] at hfuel
      obtain ⟨fuel, rfl⟩ := Nat.exists_eq_add_one.mpr (Nat.zero_lt_of_lt hfuel)
      obtain ⟨left, hread, hleft⟩ :=
        ih fuel ('\x7d' :: rest) (by omega) (stopsAt_cons rfl _) (stopsAt_cons rfl _)
      rw [List.append_assoc, List.cons_append]
      exact parseMembers_last hname hread hleft
  | member hname h hrest ih ihrest =>
      intro fuel rest hfuel
      simp only [List.length_cons, List.length_append] at hfuel
      obtain ⟨fuel, rfl⟩ := Nat.exists_eq_add_one.mpr (Nat.zero_lt_of_lt hfuel)
      obtain ⟨left, hread, hleft⟩ :=
        ih fuel (',' :: (_ ++ '\x7d' :: rest)) (by omega) (stopsAt_cons rfl _) (stopsAt_cons rfl _)
      rw [List.append_assoc, List.cons_append, List.append_assoc, List.cons_append,
        parseMembers_more hname hread hleft, ihrest fuel rest (by omega), Option.map_some]

/-- Every text of the grammar is read as the value it is a text of. -/
theorem parse?_of_isTextOf {text : String} {value : Json} (h : IsTextOf text value) :
    parse? text = some value := by
  have hread := h.isRead (2 * text.toList.length + 2) [] (by omega) (stopsAt_nil _) (stopsAt_nil _)
  rw [List.append_nil] at hread
  obtain ⟨left, hread, hleft⟩ := hread
  rw [parse?]
  simp only [hread, hleft, List.isEmpty_nil, if_true]

end SegmentStream.Json
