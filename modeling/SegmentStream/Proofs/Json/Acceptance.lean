import SegmentStream.Proofs.Json.Parser

/-!
# Only texts of the grammar are read

What the reader takes for a value is a text of that value, so it reads exactly
the grammar.
-/

namespace SegmentStream.Json

/-! ## Numbers -/

theorem of_takeDigits {text digits rest : List Char} (h : takeDigits text = (digits, rest)) :
    text = digits ++ rest ∧ ∀ c ∈ digits, c.isDigit = true := by
  cases h
  refine ⟨List.takeWhile_append_dropWhile.symm, ?_⟩
  have hall := List.all_takeWhile (p := Char.isDigit) (l := text)
  exact fun c hc => List.all_eq_true.mp hall c hc

theorem of_parseWhole {text digits rest : List Char} (h : parseWhole text = some (digits, rest)) :
    IsWhole digits ∧ text = digits ++ rest := by
  unfold parseWhole at h
  split at h
  · cases h
  · cases h
  · rename_i found left hfilled hleading htake
    cases h
    obtain ⟨htext, hdigits⟩ := of_takeDigits htake
    refine ⟨⟨⟨hfilled, hdigits⟩, fun hzero => ?_⟩, htext⟩
    obtain ⟨tail, rfl⟩ := List.head?_eq_some_iff.mp hzero
    cases tail with
    | nil => rfl
    | cons c tail => exact (hleading c tail rfl).elim

theorem of_parseFraction {text rest : List Char} {fraction : Option (List Char)}
    (h : parseFraction text = some (fraction, rest)) :
    ∃ body, SpellsFraction body fraction ∧ text = body ++ rest := by
  unfold parseFraction at h
  split at h
  · split at h
    · cases h
    · rename_i digits left hfilled htake
      cases h
      obtain ⟨htext, hdigits⟩ := of_takeDigits htake
      refine ⟨_, .digits ⟨hfilled, hdigits⟩, ?_⟩
      rw [htext]
      rfl
  · cases h
    exact ⟨[], .absent, rfl⟩

theorem of_parseSign (text : List Char) :
    ∃ sign, SpellsSign sign (parseSign text).1 ∧ text = sign ++ (parseSign text).2 := by
  unfold parseSign
  split
  · exact ⟨['-'], .minus, rfl⟩
  · exact ⟨['+'], .plus, rfl⟩
  · exact ⟨[], .absent, rfl⟩

theorem of_parseExponent {text rest : List Char} {exponent : Option (Bool × List Char)}
    (h : parseExponent text = some (exponent, rest)) :
    ∃ body, SpellsExponent body exponent ∧ text = body ++ rest := by
  unfold parseExponent at h
  split at h
  · rename_i mark tail
    obtain ⟨sign, hsign, htail⟩ := of_parseSign tail
    split at h
    · rename_i hmark
      dsimp only at h
      split at h
      · cases h
      · rename_i digits left hfilled htake
        cases h
        obtain ⟨htext, hdigits⟩ := of_takeDigits htake
        refine ⟨_, .digits hmark hsign ⟨hfilled, hdigits⟩, ?_⟩
        rw [htail, htext]
        simp
    · cases h
      exact ⟨[], .absent, rfl⟩
  · cases h
    exact ⟨[], .absent, rfl⟩

theorem of_parseNumeral {text rest : List Char} {numeral : Numeral}
    (h : parseNumeral text = some (numeral, rest)) :
    ∃ body, SpellsNumeral body numeral ∧ text = body ++ rest := by
  unfold parseNumeral at h
  split at h
  rename_i negative unsigned hsign
  have htext : text = (if negative then ['-'] else []) ++ unsigned := by
    split at hsign <;> cases hsign <;> rfl
  simp only [Option.bind_eq_bind, Option.bind_eq_some_iff] at h
  obtain ⟨⟨whole, behind⟩, hwhole, ⟨fraction, behind'⟩, hfraction, ⟨exponent, behind''⟩,
    hexponent, hnumeral⟩ := h
  cases hnumeral
  obtain ⟨hdigits, rfl⟩ := of_parseWhole hwhole
  obtain ⟨fractionText, hpoint, rfl⟩ := of_parseFraction hfraction
  obtain ⟨exponentText, hpower, rfl⟩ := of_parseExponent hexponent
  refine ⟨_, ⟨hdigits, fractionText, exponentText, hpoint, hpower, rfl⟩, ?_⟩
  rw [htext]
  simp only [List.append_assoc]

/-! ## Strings -/

theorem of_parseUnits {text rest : List Char} {units : List TextUnit}
    (h : parseUnits text = some (units, rest)) :
    ∃ body, SpellsUnits body units ∧ text = body ++ '"' :: rest := by
  fun_induction parseUnits text generalizing units with
  | case1 => cases h
  | case2 =>
      cases h
      exact ⟨[], .nil, rfl⟩
  | case3 a b c d tail ih =>
      simp only [Option.bind_eq_bind, Option.bind_eq_some_iff] at h
      obtain ⟨code, hcode, ⟨units', left⟩, hread, hunits⟩ := h
      cases hunits
      obtain ⟨body, hbody, rfl⟩ := ih hread
      exact ⟨_, .cons (.code hcode) hbody, rfl⟩
  | case4 mark tail hnot ih =>
      simp only [Option.bind_eq_bind, Option.bind_eq_some_iff] at h
      obtain ⟨c, hshort, ⟨units', left⟩, hread, hunits⟩ := h
      cases hunits
      obtain ⟨body, hbody, rfl⟩ := ih hread
      exact ⟨_, .cons (.short hshort) hbody, rfl⟩
  | case5 => cases h
  | case6 c tail hquote hnot hnot' hplain ih =>
      simp only [Option.bind_eq_bind, Option.bind_eq_some_iff] at h
      obtain ⟨⟨units', left⟩, hread, hunits⟩ := h
      cases hunits
      obtain ⟨body, hbody, rfl⟩ := ih hread
      rw [not_or] at hplain
      exact ⟨_, .cons (.plain (Nat.not_lt.mp hplain.1) hquote hplain.2) hbody, rfl⟩

theorem of_parseText {text rest : List Char} {value : Option String}
    (h : parseText text = some (value, rest)) :
    ∃ body, SpellsString ('"' :: body) value ∧ text = body ++ rest := by
  simp only [parseText, Option.bind_eq_bind, Option.bind_eq_some_iff] at h
  obtain ⟨⟨units, left⟩, hread, hvalue⟩ := h
  cases hvalue
  obtain ⟨body, hbody, rfl⟩ := of_parseUnits hread
  refine ⟨body ++ ['"'], .quoted hbody, ?_⟩
  simp

/-! ## Values -/

theorem exists_blanks (text : List Char) :
    ∃ blanks, IsBlankText blanks ∧ text = blanks ++ skipBlanks text := by
  refine ⟨text.takeWhile isBlank, ?_, List.takeWhile_append_dropWhile.symm⟩
  exact fun c hc => List.all_eq_true.mp List.all_takeWhile c hc

/-- What each reader takes is a part of the text that the grammar has for it. -/
structure ReadsSoundly (fuel : Nat) : Prop where
  value : ∀ {text rest : List Char} {value : Json}, parseValue fuel text = some (value, rest) →
    ∃ before body, IsBlankText before ∧ Spells body (.value value) ∧
      text = before ++ (body ++ rest)
  items : ∀ {text rest : List Char} {items : List Json},
    parseItems fuel text = some (items, rest) →
      ∃ body, Spells body (.items items) ∧ text = body ++ ']' :: rest
  members : ∀ {text rest : List Char} {members : List (Option String × Json)},
    parseMembers fuel text = some (members, rest) →
      ∃ body, Spells body (.members members) ∧ text = body ++ '\x7d' :: rest

section Steps

variable {fuel : Nat} (ih : ReadsSoundly fuel) {text rest : List Char}

include ih

theorem of_parseValue {value : Json} (h : parseValue (fuel + 1) text = some (value, rest)) :
    ∃ before body, IsBlankText before ∧ Spells body (.value value) ∧
      text = before ++ (body ++ rest) := by
  obtain ⟨before, hbefore, htext⟩ := exists_blanks text
  suffices hbody : ∃ body, Spells body (.value value) ∧ skipBlanks text = body ++ rest by
    obtain ⟨body, hspells, hskip⟩ := hbody
    exact ⟨before, body, hbefore, hspells, hskip ▸ htext⟩
  rw [parseValue] at h
  split at h
  · rename_i hskip
    cases h
    exact ⟨_, .nullWord, hskip⟩
  · rename_i hskip
    cases h
    exact ⟨_, .trueWord, hskip⟩
  · rename_i hskip
    cases h
    exact ⟨_, .falseWord, hskip⟩
  · rename_i hskip
    obtain ⟨⟨found, left⟩, hread, hvalue⟩ := Option.map_eq_some_iff.mp h
    cases hvalue
    obtain ⟨body, hstring, rfl⟩ := of_parseText hread
    exact ⟨_, .string hstring, hskip⟩
  · rename_i inner hskip
    split at h
    · rename_i hclosing
      cases h
      obtain ⟨blanks, hblanks, hinner⟩ := exists_blanks inner
      refine ⟨_, .emptyArray hblanks, ?_⟩
      rw [hskip, hinner, hclosing]
      simp
    · rw [parseItems_skipBlanks] at h
      obtain ⟨⟨items, left⟩, hread, hvalue⟩ := Option.map_eq_some_iff.mp h
      cases hvalue
      obtain ⟨body, hitems, rfl⟩ := ih.items hread
      refine ⟨_, .array hitems, ?_⟩
      rw [hskip]
      simp
  · rename_i inner hskip
    split at h
    · rename_i hclosing
      cases h
      obtain ⟨blanks, hblanks, hinner⟩ := exists_blanks inner
      refine ⟨_, .emptyObject hblanks, ?_⟩
      rw [hskip, hinner, hclosing]
      simp
    · rw [parseMembers_skipBlanks] at h
      obtain ⟨⟨members, left⟩, hread, hvalue⟩ := Option.map_eq_some_iff.mp h
      cases hvalue
      obtain ⟨body, hmembers, rfl⟩ := ih.members hread
      refine ⟨_, .object hmembers, ?_⟩
      rw [hskip]
      simp
  · obtain ⟨⟨numeral, left⟩, hread, hvalue⟩ := Option.map_eq_some_iff.mp h
    cases hvalue
    obtain ⟨body, hnumeral, hskip⟩ := of_parseNumeral hread
    exact ⟨body, .number hnumeral, hskip⟩

/-- A value that is read, with the blanks on both sides of it. -/
theorem of_parsePadded {value : Json} (h : parseValue fuel text = some (value, rest)) :
    ∃ body, Spells body (.padded value) ∧ text = body ++ skipBlanks rest := by
  obtain ⟨before, body, hbefore, hbody, rfl⟩ := ih.value h
  obtain ⟨after, hafter, hrest⟩ := exists_blanks rest
  refine ⟨_, .padded hbefore hbody hafter, ?_⟩
  rw [List.append_assoc, List.append_assoc, ← hrest]

theorem of_parseItems {items : List Json} (h : parseItems (fuel + 1) text = some (items, rest)) :
    ∃ body, Spells body (.items items) ∧ text = body ++ ']' :: rest := by
  rw [parseItems] at h
  split at h
  · cases h
  · rename_i item left hread
    obtain ⟨body, hbody, htext⟩ := of_parsePadded ih hread
    split at h
    · rename_i more hmore
      obtain ⟨⟨others, left'⟩, hothers, hitems⟩ := Option.map_eq_some_iff.mp h
      cases hitems
      obtain ⟨tail, htail, rfl⟩ := ih.items hothers
      refine ⟨_, .item hbody htail, ?_⟩
      rw [htext, hmore]
      simp
    · rename_i hclosing
      cases h
      exact ⟨body, .lastItem hbody, hclosing ▸ htext⟩
    · cases h

theorem of_parseMembers {members : List (Option String × Json)}
    (h : parseMembers (fuel + 1) text = some (members, rest)) :
    ∃ body, Spells body (.members members) ∧ text = body ++ '\x7d' :: rest := by
  rw [parseMembers] at h
  split at h
  · rename_i quoted hquote
    split at h
    · cases h
    · rename_i key behind hkey
      obtain ⟨name, hname, rfl⟩ := of_parseText hkey
      obtain ⟨before, hbefore, htext⟩ := exists_blanks text
      obtain ⟨after, hafter, hbehind⟩ := exists_blanks behind
      have hpadded := SpellsKey.padded hbefore hname hafter
      split at h
      · rename_i told hcolon
        split at h
        · cases h
        · rename_i value left hread
          obtain ⟨body, hbody, htold⟩ := of_parsePadded ih hread
          have hfront : text =
              (before ++ ('"' :: name ++ after)) ++ ':' :: (body ++ skipBlanks left) := by
            rw [htext, hquote, hbehind, hcolon, htold]
            simp
          split at h
          · rename_i more hmore
            obtain ⟨⟨others, left'⟩, hothers, hmembers⟩ := Option.map_eq_some_iff.mp h
            cases hmembers
            obtain ⟨tail, htail, rfl⟩ := ih.members hothers
            refine ⟨_, .member hpadded hbody htail, ?_⟩
            rw [hfront, hmore]
            simp
          · rename_i hclosing
            cases h
            refine ⟨_, .lastMember hpadded hbody, ?_⟩
            rw [hfront, hclosing]
            simp
          · cases h
      · cases h
  · cases h

end Steps

theorem readsSoundly (fuel : Nat) : ReadsSoundly fuel := by
  induction fuel with
  | zero =>
      constructor
      · intro text rest value h
        cases h
      · intro text rest items h
        cases h
      · intro text rest members h
        cases h
  | succ fuel ih => exact ⟨of_parseValue ih, of_parseItems ih, of_parseMembers ih⟩

/-- The reader takes exactly the texts of the grammar, each for its value. -/
theorem parse?_eq_some_iff {text : String} {value : Json} :
    parse? text = some value ↔ IsTextOf text value := by
  refine ⟨fun h => ?_, parse?_of_isTextOf⟩
  unfold parse? at h
  dsimp only at h
  split at h
  · rename_i found rest hread
    split at h
    · rename_i hend
      cases h
      obtain ⟨body, hbody, htext⟩ := of_parsePadded (readsSoundly _) hread
      rw [List.isEmpty_iff.mp hend, List.append_nil] at htext
      rw [IsTextOf, htext]
      exact hbody
    · cases h
  · cases h

end SegmentStream.Json
