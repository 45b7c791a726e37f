import TxLoad.Proofs.Json.Lexeme

/-! # What is read in a text

The reader reads only what the grammar derives (`derives_of_read`) and, given as much fuel as there
are characters, all of it (`Derives.isRead`). So what is read in a text is the value that the text
is (`read?_eq_some_iff`), and there is at most one (`Document.unique`).
-/

namespace TxLoad.Json

variable {text start stop rest : List Char} {v : Json} {vs : List Json}
  {ms : List (List Piece × Json)} {part : Part}

/-! ## What is read is derived -/

theorem eq_append_of_readWord {word : List Char} (h : readWord word text = some rest) :
    text = word ++ rest := by
  unfold readWord at h
  split at h
  · rename_i hWord
    cases h
    exact (List.prefix_iff_eq_append.mp (List.isPrefixOf_iff_prefix.mp hWord)).symm
  · cases h

/-- The value that stands at the front of the text is followed by the rest and by space. -/
theorem derives_element (h : Derives text (.value v) stop) :
    Derives text (.element v) (skipSpace stop) :=
  .element .refl h (space_skipSpace stop)

theorem derives_value_of_read {fuel : Nat}
    (hItems : ∀ {text vs rest}, readItems fuel text = some (vs, rest) →
      Derives text (.elements vs) (']' :: rest))
    (hMembers : ∀ {text ms rest}, readMembers fuel text = some (ms, rest) →
      Derives text (.members ms) ('\x7d' :: rest))
    (h : readValue (fuel + 1) text = some (v, rest)) : Derives text (.value v) rest := by
  unfold readValue at h
  split at h
  · cases h
  · obtain ⟨pieces, hRead, rfl⟩ := exists_of_bind h
    exact .string (readPieces_eq_some_iff.mp hRead)
  · rename_i inner
    have hSpace := space_skipSpace inner
    split at h
    · rename_i hClose
      cases h
      exact .emptyArray (hClose ▸ hSpace)
    · obtain ⟨items, hRead, rfl⟩ := exists_of_bind h
      exact .array ((hItems hRead).after_space (by simp) hSpace)
  · rename_i inner
    have hSpace := space_skipSpace inner
    split at h
    · rename_i hClose
      cases h
      exact .emptyObject (hClose ▸ hSpace)
    · obtain ⟨members, hRead, rfl⟩ := exists_of_bind h
      exact .object ((hMembers hRead).after_space (by simp) hSpace)
  · obtain ⟨rest', hWord, hRest⟩ := Option.bind_eq_some_iff.mp h
    cases hRest
    exact eq_append_of_readWord hWord ▸ .null
  · obtain ⟨rest', hWord, hRest⟩ := Option.bind_eq_some_iff.mp h
    cases hRest
    exact eq_append_of_readWord hWord ▸ .true
  · obtain ⟨rest', hWord, hRest⟩ := Option.bind_eq_some_iff.mp h
    cases hRest
    exact eq_append_of_readWord hWord ▸ .false
  · obtain ⟨numeral, hNumeral, rfl⟩ := exists_of_bind h
    exact .number (number_of_readNumeral hNumeral)

theorem derives_elements_of_read {fuel : Nat}
    (hValue : ∀ {text v rest}, readValue fuel text = some (v, rest) → Derives text (.value v) rest)
    (hItems : ∀ {text vs rest}, readItems fuel text = some (vs, rest) →
      Derives text (.elements vs) (']' :: rest))
    (h : readItems (fuel + 1) text = some (vs, rest)) :
    Derives text (.elements vs) (']' :: rest) := by
  unfold readItems at h
  obtain ⟨⟨v, stop⟩, hRead, h⟩ := Option.bind_eq_some_iff.mp h
  dsimp only at h
  have hElement := derives_element (hValue hRead)
  split at h
  · rename_i hClose
    cases h
    exact .lastElement (hClose ▸ hElement)
  · rename_i more hComma
    obtain ⟨items, hMore, rfl⟩ := exists_of_bind h
    exact .elements (hComma ▸ hElement)
      ((hItems hMore).after_space (by simp) (space_skipSpace more))
  · cases h

theorem derives_members_of_read {fuel : Nat}
    (hValue : ∀ {text v rest}, readValue fuel text = some (v, rest) → Derives text (.value v) rest)
    (hMembers : ∀ {text ms rest}, readMembers fuel text = some (ms, rest) →
      Derives text (.members ms) ('\x7d' :: rest))
    (h : readMembers (fuel + 1) text = some (ms, rest)) :
    Derives text (.members ms) ('\x7d' :: rest) := by
  unfold readMembers at h
  split at h
  · obtain ⟨⟨name, afterName⟩, hName, h⟩ := Option.bind_eq_some_iff.mp h
    dsimp only at h
    have hName := readPieces_eq_some_iff.mp hName
    have hAfterName := space_skipSpace afterName
    split at h
    · rename_i value hColon
      rw [hColon] at hAfterName
      obtain ⟨⟨v, stop⟩, hRead, h⟩ := Option.bind_eq_some_iff.mp h
      dsimp only at h
      have hElement :=
        (derives_element (hValue hRead)).after_space (by simp) (space_skipSpace value)
      have hMember := Derives.member .refl hName hAfterName hElement
      split at h
      · rename_i hClose
        cases h
        exact .lastMember (hClose ▸ hMember)
      · rename_i more hComma
        obtain ⟨members, hMore, rfl⟩ := exists_of_bind h
        exact .members (hComma ▸ hMember)
          ((hMembers hMore).after_space (by simp) (space_skipSpace more))
      · cases h
    · cases h
  · cases h

/-- The reader reads only what the grammar derives. -/
theorem derives_of_read (fuel : Nat) :
    (∀ {text v rest}, readValue fuel text = some (v, rest) → Derives text (.value v) rest) ∧
    (∀ {text vs rest}, readItems fuel text = some (vs, rest) →
      Derives text (.elements vs) (']' :: rest)) ∧
    ∀ {text ms rest}, readMembers fuel text = some (ms, rest) →
      Derives text (.members ms) ('\x7d' :: rest) := by
  induction fuel with
  | zero => exact ⟨by simp [readValue], by simp [readItems], by simp [readMembers]⟩
  | succ fuel ih =>
    obtain ⟨hValue, hItems, hMembers⟩ := ih
    exact ⟨derives_value_of_read hItems hMembers, derives_elements_of_read hValue hItems,
      derives_members_of_read hValue hMembers⟩

/-! ## What is derived is read -/

theorem Derives.skipSpace_element (h : Derives text (.element v) rest) :
    ∃ c more, skipSpace text = c :: more ∧ c ≠ ']' := by
  obtain ⟨start, _, hBefore, h, _⟩ := h.exists_value
  obtain ⟨c, more, hStart, _, hOther⟩ := h.head
  exact ⟨c, more, (hBefore.skipSpace_eq h.tight).trans hStart, hOther⟩

/-- What an array begins with is not its end. -/
theorem Derives.starts_elements (h : Derives text (.elements vs) rest) :
    ∃ c more, skipSpace text = c :: more ∧ c ≠ ']' := by
  cases h with
  | lastElement h => exact h.skipSpace_element
  | elements h _ => exact h.skipSpace_element

theorem Derives.skipSpace_member {name : List Piece} (h : Derives text (.member name v) rest) :
    ∃ more, skipSpace text = '"' :: more := by
  cases h with
  | member hBefore _ _ _ => exact ⟨_, hBefore.skipSpace_eq (by rintro _ _ ⟨⟩; decide)⟩

theorem Derives.starts_members (h : Derives text (.members ms) rest) :
    ∃ more, skipSpace text = '"' :: more := by
  cases h with
  | lastMember h => exact h.skipSpace_member
  | members h _ => exact h.skipSpace_member

/-- The reader takes the part from the text with as much fuel as the part has characters. -/
def Part.IsRead (part : Part) (text rest : List Char) : Prop :=
  ∀ fuel, text.length ≤ fuel + rest.length →
    match part with
    | .value v => Stops rest → readValue fuel text = some (v, rest)
    | .element v => Closes rest →
      ∃ stop, readValue fuel (skipSpace text) = some (v, stop) ∧ skipSpace stop = rest
    | .elements vs => ∀ after, rest = ']' :: after →
      readItems (fuel + 1) (skipSpace text) = some (vs, after)
    | .member name v => Closes rest →
      ∃ start afterName value stop, skipSpace text = '"' :: start ∧
        readPieces start = some (name, afterName) ∧ skipSpace afterName = ':' :: value ∧
        readValue fuel (skipSpace value) = some (v, stop) ∧ skipSpace stop = rest
    | .members ms => ∀ after, rest = '\x7d' :: after →
      readMembers (fuel + 1) (skipSpace text) = some (ms, after)

theorem readValue_number {c : Char} (h : c.isDigit = true ∨ c = '-') (fuel : Nat) :
    readValue (fuel + 1) (c :: rest) = do
      let (numeral, rest) ← readNumeral (c :: rest)
      return (.number numeral, rest) := by
  unfold readValue
  split
  case h_8 => rfl
  case h_1 hText => cases hText
  all_goals
    rename_i hText
    cases hText
    exact absurd h (by decide)

theorem exists_fuel {text rest : List Char} {fuel : Nat} (h : rest.length < text.length)
    (hFuel : text.length ≤ fuel + rest.length) : ∃ less, fuel = less + 1 :=
  Nat.exists_eq_succ_of_ne_zero (by omega)

namespace Part

theorem IsRead.array (h : Derives text (.elements vs) (']' :: rest))
    (ih : (Part.elements vs).IsRead text (']' :: rest)) :
    (Part.value (.array vs)).IsRead ('[' :: text) rest := by
  intro fuel hFuel _
  have hLength := h.length_lt
  simp only [List.length_cons] at hFuel hLength
  -- an array takes two steps of fuel, and has two brackets
  obtain ⟨fuel, rfl⟩ : ∃ less, fuel = less + 2 := ⟨fuel - 2, by omega⟩
  have hRead := ih fuel (by simp only [List.length_cons]; omega) _ rfl
  obtain ⟨c, more, hStart, hOther⟩ := h.starts_elements
  rw [hStart] at hRead
  rw [readValue]
  simp [hStart, hRead, hOther]

theorem IsRead.object (h : Derives text (.members ms) ('\x7d' :: rest))
    (ih : (Part.members ms).IsRead text ('\x7d' :: rest)) :
    (Part.value (.object ms)).IsRead ('\x7b' :: text) rest := by
  intro fuel hFuel _
  have hLength := h.length_lt
  simp only [List.length_cons] at hFuel hLength
  obtain ⟨fuel, rfl⟩ : ∃ less, fuel = less + 2 := ⟨fuel - 2, by omega⟩
  have hRead := ih fuel (by simp only [List.length_cons]; omega) _ rfl
  obtain ⟨more, hStart⟩ := h.starts_members
  rw [hStart] at hRead
  rw [readValue]
  simp [hStart, hRead]

theorem IsRead.element (hBefore : Space text start) (h : Derives start (.value v) stop)
    (hAfter : Space stop rest) (ih : (Part.value v).IsRead start stop) :
    (Part.element v).IsRead text rest := by
  intro fuel hFuel hRest
  refine ⟨stop, ?_, hAfter.skipSpace_eq hRest.tight⟩
  rw [hBefore.skipSpace_eq h.tight]
  have := hBefore.length_le
  have := hAfter.length_le
  exact ih fuel (by omega) (hAfter.stops hRest)

theorem IsRead.lastElement (ih : (Part.element v).IsRead text rest) :
    (Part.elements [v]).IsRead text rest := by
  rintro fuel hFuel after rfl
  obtain ⟨stop, hRead, hStop⟩ := ih fuel hFuel (closes_cons (.inr (.inl rfl)))
  rw [readItems]
  simp [hRead, hStop]

theorem IsRead.elements {more : List Char} (h : Derives text (.element v) (',' :: more))
    (hMore : Derives more (.elements vs) rest) (ih : (Part.element v).IsRead text (',' :: more))
    (ihMore : (Part.elements vs).IsRead more rest) :
    (Part.elements (v :: vs)).IsRead text rest := by
  rintro fuel hFuel after rfl
  have hLength := h.length_lt
  have hLengthMore := hMore.length_lt
  simp only [List.length_cons] at hFuel hLength hLengthMore
  obtain ⟨fuel, rfl⟩ : ∃ less, fuel = less + 1 := ⟨fuel - 1, by omega⟩
  obtain ⟨stop, hRead, hStop⟩ := ih (fuel + 1) (by simp only [List.length_cons]; omega)
    (closes_cons (.inl rfl))
  have hReadMore := ihMore fuel (by simp only [List.length_cons]; omega) after rfl
  rw [readItems]
  simp [hRead, hStop, hReadMore]

theorem IsRead.member {value : List Char} {name : List Piece} (hBefore : Space text ('"' :: start))
    (hName : Spelling start name stop) (hAfter : Space stop (':' :: value))
    (ih : (Part.element v).IsRead value rest) : (Part.member name v).IsRead text rest := by
  intro fuel hFuel hRest
  have := hBefore.length_le
  have := hName.length_lt
  have := hAfter.length_le
  simp only [List.length_cons] at *
  obtain ⟨last, hRead, hEnd⟩ := ih fuel (by omega) hRest
  have hQuote : skipSpace text = '"' :: start := by
    refine hBefore.skipSpace_eq ?_
    rintro _ _ ⟨⟩
    decide
  have hColon : skipSpace stop = ':' :: value := by
    refine hAfter.skipSpace_eq ?_
    rintro _ _ ⟨⟩
    decide
  exact ⟨start, stop, value, last, hQuote, readPieces_eq_some_iff.mpr hName, hColon, hRead, hEnd⟩

theorem IsRead.lastMember {name : List Piece} (ih : (Part.member name v).IsRead text rest) :
    (Part.members [(name, v)]).IsRead text rest := by
  rintro fuel hFuel after rfl
  obtain ⟨start, afterName, value, stop, hStart, hName, hColon, hRead, hStop⟩ :=
    ih fuel hFuel (closes_cons (.inr (.inr rfl)))
  rw [hStart, readMembers]
  simp [hName, hColon, hRead, hStop]

theorem IsRead.members {more : List Char} {name : List Piece}
    (h : Derives text (.member name v) (',' :: more)) (hMore : Derives more (.members ms) rest)
    (ih : (Part.member name v).IsRead text (',' :: more))
    (ihMore : (Part.members ms).IsRead more rest) :
    (Part.members ((name, v) :: ms)).IsRead text rest := by
  rintro fuel hFuel after rfl
  have hLength := h.length_lt
  have hLengthMore := hMore.length_lt
  simp only [List.length_cons] at hFuel hLength hLengthMore
  obtain ⟨fuel, rfl⟩ : ∃ less, fuel = less + 1 := ⟨fuel - 1, by omega⟩
  obtain ⟨start, afterName, value, stop, hStart, hName, hColon, hRead, hStop⟩ :=
    ih (fuel + 1) (by simp only [List.length_cons]; omega) (closes_cons (.inl rfl))
  have hReadMore := ihMore fuel (by simp only [List.length_cons]; omega) after rfl
  rw [hStart, readMembers]
  simp [hName, hColon, hRead, hStop, hReadMore]

end Part

/-- All that the grammar derives is read. -/
theorem Derives.isRead (h : Derives text part rest) : part.IsRead text rest := by
  -- on the derivation; that every part has a character pays for the step of fuel into it
  induction h with
  | null =>
    intro fuel hFuel _
    obtain ⟨fuel, rfl⟩ := exists_fuel Derives.null.length_lt hFuel
    simp [readValue, readWord]
  | true =>
    intro fuel hFuel _
    obtain ⟨fuel, rfl⟩ := exists_fuel Derives.true.length_lt hFuel
    simp [readValue, readWord]
  | false =>
    intro fuel hFuel _
    obtain ⟨fuel, rfl⟩ := exists_fuel Derives.false.length_lt hFuel
    simp [readValue, readWord]
  | number h =>
    intro fuel hFuel hRest
    obtain ⟨fuel, rfl⟩ := exists_fuel h.length_lt hFuel
    obtain ⟨c, more, rfl, hHead⟩ := h.head
    rw [readValue_number hHead, h.readNumeral_eq hRest]
    rfl
  | string h =>
    intro fuel hFuel _
    obtain ⟨fuel, rfl⟩ := exists_fuel (Derives.string h).length_lt hFuel
    simp [readValue, readPieces_eq_some_iff.mpr h]
  | emptyArray h =>
    intro fuel hFuel _
    obtain ⟨fuel, rfl⟩ := exists_fuel (Derives.emptyArray h).length_lt hFuel
    simp [readValue, h.skipSpace_eq (closes_cons (.inr (.inl rfl))).tight]
  | array h ih => exact .array h ih
  | emptyObject h =>
    intro fuel hFuel _
    obtain ⟨fuel, rfl⟩ := exists_fuel (Derives.emptyObject h).length_lt hFuel
    simp [readValue, h.skipSpace_eq (closes_cons (.inr (.inr rfl))).tight]
  | object h ih => exact .object h ih
  | element hBefore h hAfter ih => exact .element hBefore h hAfter ih
  | lastElement _ ih => exact .lastElement ih
  | elements h hMore ih ihMore => exact .elements h hMore ih ihMore
  | member hBefore hName hAfter _ ih => exact .member hBefore hName hAfter ih
  | lastMember _ ih => exact .lastMember ih
  | members h hMore ih ihMore => exact .members h hMore ih ihMore

/-- What is read in a text is the value that the text is. -/
theorem read?_eq_some_iff {body : String} : read? body = some v ↔ Document body v := by
  unfold read? Document
  dsimp only
  constructor
  · intro h
    split at h
    · rename_i value stop hRead
      split at h
      · rename_i hEnd
        cases h
        have hElement := (derives_element ((derives_of_read _).1 hRead)).after_space (by simp)
          (space_skipSpace body.toList)
        rwa [List.isEmpty_iff.mp hEnd] at hElement
      · cases h
    · cases h
  · intro h
    obtain ⟨start, stop, hBefore, hValue, hAfter⟩ := h.exists_value
    have hEnd : Closes [] := by rintro _ _ ⟨⟩
    rw [hBefore.skipSpace_eq hValue.tight, hValue.isRead _ (by omega) (hAfter.stops hEnd)]
    simp [hAfter.skipSpace_eq hEnd.tight]

/-- A text is at most one value. -/
theorem Document.unique {body : String} {other : Json} (h : Document body v)
    (g : Document body other) : v = other :=
  Option.some.inj ((read?_eq_some_iff.mpr h).symm.trans (read?_eq_some_iff.mpr g))

end TxLoad.Json
