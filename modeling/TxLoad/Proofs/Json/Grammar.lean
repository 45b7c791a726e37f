import TxLoad.Json.Basic

/-! # The grammar of documents

A relation of the grammar holds of a text, what stands at its front, and the rest of the text. The
grammar does not say how far a number goes, nor that the space around a value is all that there is.

* `Spelling`, `Number`: strings and numbers, with what is kept of how they are written.
* `Derives`: values, their lists of items and their members.
* `Document`: the whole text is a value with space around it.
* `StandsFor`: the text that a string stands for.
* `Written.of_mem_items`, `Written.of_mem_members`: what stands in a value is written by the same
  grammar.
-/

namespace TxLoad.Json

variable {text start stop rest : List Char}

/-! ## Space -/

def spaces : List Char := [' ', '\n', '\t', '\r']

/-- Space or nothing. -/
def Space (text rest : List Char) : Prop :=
  ∃ space, (∀ c ∈ space, c ∈ spaces) ∧ text = space ++ rest

/-- The text does not begin with space. -/
def Tight (text : List Char) : Prop := ∀ c rest, text = c :: rest → c ∉ spaces

theorem Space.refl : Space text text := ⟨[], by simp, rfl⟩

theorem Space.trans (h : Space text start) (g : Space start rest) : Space text rest := by
  obtain ⟨before, hBefore, rfl⟩ := h
  obtain ⟨after, hAfter, rfl⟩ := g
  refine ⟨before ++ after, ?_, by rw [List.append_assoc]⟩
  intro c hMem
  exact (List.mem_append.mp hMem).elim (hBefore c) (hAfter c)

theorem Space.length_le (h : Space text rest) : rest.length ≤ text.length := by
  obtain ⟨space, _, rfl⟩ := h
  rw [List.length_append]
  exact Nat.le_add_left _ _

theorem Space.eq_or (h : Space text rest) :
    text = rest ∨ ∃ c more, text = c :: more ∧ c ∈ spaces := by
  obtain ⟨space, hSpace, rfl⟩ := h
  cases space with
  | nil => exact .inl rfl
  | cons c space => exact .inr ⟨c, _, rfl, hSpace c List.mem_cons_self⟩

/-! ## Strings -/

/-- A hexadecimal digit in either case. -/
def IsHexDigit (c : Char) (n : Nat) : Prop :=
  "0123456789abcdef".toList[n]? = some c ∨ "0123456789ABCDEF".toList[n]? = some c

instance (c : Char) (n : Nat) : Decidable (IsHexDigit c n) :=
  inferInstanceAs (Decidable (_ ∨ _))

/-- The characters that are escaped with one letter or sign. -/
def shortEscapes : List (Char × Char) :=
  [('"', '"'), ('\\', '\\'), ('/', '/'), ('b', '\x08'), ('f', '\x0c'), ('n', '\n'), ('r', '\r'),
    ('t', '\t')]

/-- The rest of a string after its opening quote. -/
inductive Spelling : List Char → List Piece → List Char → Prop
  | close {rest : List Char} : Spelling ('"' :: rest) [] rest
  | literal {c : Char} {text rest : List Char} {pieces : List Piece} (hPlain : 0x20 ≤ c.toNat)
      (hQuote : c ≠ '"') (hSlash : c ≠ '\\') (h : Spelling text pieces rest) :
      Spelling (c :: text) (.literal c :: pieces) rest
  | escape {mark c : Char} {text rest : List Char} {pieces : List Piece}
      (hEscape : (mark, c) ∈ shortEscapes) (h : Spelling text pieces rest) :
      Spelling ('\\' :: mark :: text) (.escape c :: pieces) rest
  | unit {a b c d : Char} {i j k l : Nat} {text rest : List Char} {pieces : List Piece}
      (ha : IsHexDigit a i) (hb : IsHexDigit b j) (hc : IsHexDigit c k) (hd : IsHexDigit d l)
      (h : Spelling text pieces rest) :
      Spelling ('\\' :: 'u' :: a :: b :: c :: d :: text)
        (.unit (((i * 16 + j) * 16 + k) * 16 + l) :: pieces) rest

/-- The pieces of a string stand for the text. Units of UTF-16 are characters, or in pairs the
characters after the first `2 ^ 16`; half of a pair is no character. -/
inductive StandsFor : List Piece → List Char → Prop
  | nil : StandsFor [] []
  | literal {c : Char} {pieces : List Piece} {text : List Char} (h : StandsFor pieces text) :
      StandsFor (.literal c :: pieces) (c :: text)
  | escape {c : Char} {pieces : List Piece} {text : List Char} (h : StandsFor pieces text) :
      StandsFor (.escape c :: pieces) (c :: text)
  | unit {n : Nat} {pieces : List Piece} {text : List Char} (hHigh : ¬ (0xD800 ≤ n ∧ n ≤ 0xDBFF))
      (hLow : ¬ (0xDC00 ≤ n ∧ n ≤ 0xDFFF)) (h : StandsFor pieces text) :
      StandsFor (.unit n :: pieces) (Char.ofNat n :: text)
  | pair {high low : Nat} {pieces : List Piece} {text : List Char}
      (hHigh : 0xD800 ≤ high ∧ high ≤ 0xDBFF) (hLow : 0xDC00 ≤ low ∧ low ≤ 0xDFFF)
      (h : StandsFor pieces text) :
      StandsFor (.unit high :: .unit low :: pieces)
        (Char.ofNat (0x10000 + (high - 0xD800) * 0x400 + (low - 0xDC00)) :: text)

theorem isHexDigit_lt {c : Char} {n : Nat} (h : IsHexDigit c n) : n < 16 := by
  rcases h with h | h
  · exact (List.getElem?_eq_some_iff.mp h).1
  · exact (List.getElem?_eq_some_iff.mp h).1

theorem Spelling.length_lt {pieces : List Piece} (h : Spelling text pieces rest) :
    rest.length < text.length := by
  induction h <;> simp only [List.length_cons] <;> omega

/-- A text without escapes stands for itself. -/
theorem standsFor_pieces (text : String) : StandsFor (pieces text) text.toList := by
  unfold pieces
  induction text.toList with
  | nil => exact .nil
  | cons c text ih => exact .literal ih

/-! ## Numbers -/

/-- One digit or more. -/
def Digits (text digits rest : List Char) : Prop :=
  digits ≠ [] ∧ (∀ c ∈ digits, c.isDigit = true) ∧ text = digits ++ rest

/-- Digits without a zero in front of others. -/
def Whole (text digits rest : List Char) : Prop :=
  Digits text digits rest ∧ ∀ others, digits = '0' :: others → others = []

inductive Fraction : List Char → List Char → List Char → Prop
  | absent {rest : List Char} : Fraction rest [] rest
  | present {text digits rest : List Char} (h : Digits text digits rest) :
      Fraction ('.' :: text) digits rest

inductive Sign : List Char → Bool → List Char → Prop
  | absent {rest : List Char} : Sign rest false rest
  | plus {rest : List Char} : Sign ('+' :: rest) false rest
  | minus {rest : List Char} : Sign ('-' :: rest) true rest

inductive Exponent : List Char → Option (Bool × List Char) → List Char → Prop
  | absent {rest : List Char} : Exponent rest none rest
  | present {mark : Char} {negative : Bool} {text start digits rest : List Char}
      (hMark : mark = 'e' ∨ mark = 'E') (hSign : Sign text negative start)
      (h : Digits start digits rest) : Exponent (mark :: text) (some (negative, digits)) rest

inductive Minus : List Char → Bool → List Char → Prop
  | absent {rest : List Char} : Minus rest false rest
  | present {rest : List Char} : Minus ('-' :: rest) true rest

/-- The four parts of a number after each other. -/
inductive Number : List Char → Numeral → List Char → Prop
  | parts {text start whole fraction point mark rest : List Char} {negative : Bool}
      {exponent : Option (Bool × List Char)} (hMinus : Minus text negative start)
      (hWhole : Whole start whole point) (hFraction : Fraction point fraction mark)
      (hExponent : Exponent mark exponent rest) :
      Number text ⟨negative, whole, fraction, exponent⟩ rest

/-- No digit comes next. -/
def NoDigit (text : List Char) : Prop := ∀ c rest, text = c :: rest → c.isDigit = false

/-- A number does not go on with the text. -/
def Stops (text : List Char) : Prop :=
  ∀ c rest, text = c :: rest → c.isDigit = false ∧ c ≠ '.' ∧ c ≠ 'e' ∧ c ≠ 'E'

variable {digits whole fraction : List Char} {exponent : Option (Bool × List Char)}
  {numeral : Numeral}

theorem Stops.noDigit (h : Stops text) : NoDigit text := fun c rest hText => (h c rest hText).1

theorem Digits.head (h : Digits text digits rest) :
    ∃ c more, text = c :: more ∧ c.isDigit = true := by
  obtain ⟨hNe, hDigits, rfl⟩ := h
  cases digits with
  | nil => exact absurd rfl hNe
  | cons c digits => exact ⟨c, digits ++ rest, rfl, hDigits c List.mem_cons_self⟩

theorem Fraction.noDigit (h : Fraction text digits rest) (hRest : NoDigit rest) : NoDigit text := by
  cases h with
  | absent => exact hRest
  | present h =>
    rintro c more hText
    cases hText
    decide

theorem Exponent.head (h : Exponent text exponent rest) (hRest : Stops rest) :
    NoDigit text ∧ ∀ more, text ≠ '.' :: more := by
  cases h with
  | absent =>
    refine ⟨hRest.noDigit, ?_⟩
    rintro more rfl
    exact (hRest '.' more rfl).2.1 rfl
  | present hMark _ _ =>
    constructor
    · rintro c more hText
      cases hText
      rcases hMark with rfl | rfl <;> decide
    · rintro more hText
      cases hText
      exact absurd hMark (by decide)

theorem Number.head (h : Number text numeral rest) :
    ∃ c more, text = c :: more ∧ (c.isDigit = true ∨ c = '-') := by
  cases h with
  | parts hMinus hWhole _ _ =>
    cases hMinus with
    | absent =>
      obtain ⟨c, more, hText, hDigit⟩ := hWhole.1.head
      exact ⟨c, more, hText, .inl hDigit⟩
    | present => exact ⟨'-', _, rfl, .inr rfl⟩

theorem not_mem_spaces_of_number {c : Char} (h : c.isDigit = true ∨ c = '-') : c ∉ spaces := by
  intro hMem
  simp only [spaces, List.mem_cons, List.not_mem_nil, or_false] at hMem
  rcases hMem with rfl | rfl | rfl | rfl <;> exact absurd h (by decide)

theorem Digits.length_lt (h : Digits text digits rest) : rest.length < text.length := by
  obtain ⟨hNe, _, rfl⟩ := h
  have := List.length_pos_iff.mpr hNe
  rw [List.length_append]
  omega

theorem Fraction.length_le (h : Fraction text digits rest) : rest.length ≤ text.length := by
  cases h with
  | absent => exact Nat.le_refl _
  | present h =>
    have := h.length_lt
    rw [List.length_cons]
    omega

theorem Sign.length_le {negative : Bool} (h : Sign text negative rest) :
    rest.length ≤ text.length := by
  cases h <;> simp

theorem Exponent.length_le (h : Exponent text exponent rest) : rest.length ≤ text.length := by
  cases h with
  | absent => exact Nat.le_refl _
  | present _ hSign h =>
    have := hSign.length_le
    have := h.length_lt
    rw [List.length_cons]
    omega

theorem Minus.length_le {negative : Bool} (h : Minus text negative rest) :
    rest.length ≤ text.length := by
  cases h <;> simp

theorem Number.length_lt (h : Number text numeral rest) : rest.length < text.length := by
  cases h with
  | parts hMinus hWhole hFraction hExponent =>
    have := hMinus.length_le
    have := hWhole.1.length_lt
    have := hFraction.length_le
    have := hExponent.length_le
    omega

/-! ## Values -/

/-- What a text can be derived to begin with. -/
inductive Part
  | value (v : Json)
  /-- A value with space around it. -/
  | element (v : Json)
  /-- One element or more, with commas between them. -/
  | elements (vs : List Json)
  | member (name : List Piece) (v : Json)
  /-- One member or more, with commas between them. -/
  | members (ms : List (List Piece × Json))

/-- The text begins with the part and goes on with the rest. -/
inductive Derives : List Char → Part → List Char → Prop
  | null {rest : List Char} : Derives ("null".toList ++ rest) (.value .null) rest
  | true {rest : List Char} : Derives ("true".toList ++ rest) (.value (.bool Bool.true)) rest
  | false {rest : List Char} : Derives ("false".toList ++ rest) (.value (.bool Bool.false)) rest
  | number {text rest : List Char} {numeral : Numeral} (h : Number text numeral rest) :
      Derives text (.value (.number numeral)) rest
  | string {text rest : List Char} {pieces : List Piece} (h : Spelling text pieces rest) :
      Derives ('"' :: text) (.value (.string pieces)) rest
  | emptyArray {text rest : List Char} (h : Space text (']' :: rest)) :
      Derives ('[' :: text) (.value (.array [])) rest
  | array {text rest : List Char} {vs : List Json} (h : Derives text (.elements vs) (']' :: rest)) :
      Derives ('[' :: text) (.value (.array vs)) rest
  | emptyObject {text rest : List Char} (h : Space text ('\x7d' :: rest)) :
      Derives ('\x7b' :: text) (.value (.object [])) rest
  | object {text rest : List Char} {ms : List (List Piece × Json)}
      (h : Derives text (.members ms) ('\x7d' :: rest)) :
      Derives ('\x7b' :: text) (.value (.object ms)) rest
  | element {text start stop rest : List Char} {v : Json} (hBefore : Space text start)
      (h : Derives start (.value v) stop) (hAfter : Space stop rest) :
      Derives text (.element v) rest
  | lastElement {text rest : List Char} {v : Json} (h : Derives text (.element v) rest) :
      Derives text (.elements [v]) rest
  | elements {text more rest : List Char} {v : Json} {vs : List Json}
      (h : Derives text (.element v) (',' :: more)) (hMore : Derives more (.elements vs) rest) :
      Derives text (.elements (v :: vs)) rest
  | member {text start stop value rest : List Char} {name : List Piece} {v : Json}
      (hBefore : Space text ('"' :: start)) (hName : Spelling start name stop)
      (hAfter : Space stop (':' :: value)) (h : Derives value (.element v) rest) :
      Derives text (.member name v) rest
  | lastMember {text rest : List Char} {name : List Piece} {v : Json}
      (h : Derives text (.member name v) rest) : Derives text (.members [(name, v)]) rest
  | members {text more rest : List Char} {name : List Piece} {v : Json}
      {ms : List (List Piece × Json)} (h : Derives text (.member name v) (',' :: more))
      (hMore : Derives more (.members ms) rest) : Derives text (.members ((name, v) :: ms)) rest

/-- The whole text is the value. -/
def Document (body : String) (v : Json) : Prop := Derives body.toList (.element v) []

variable {v : Json} {vs : List Json} {ms : List (List Piece × Json)} {part : Part}

theorem Derives.after_space (h : Derives start part rest) (hPart : ∀ v, part ≠ .value v)
    (hSpace : Space text start) : Derives text part rest := by
  induction h with
  | null | true | false | number | string | emptyArray | array | emptyObject | object =>
    exact absurd rfl (hPart _)
  | element hBefore h hAfter => exact .element (hSpace.trans hBefore) h hAfter
  | lastElement h ih => exact .lastElement (ih (by simp) hSpace)
  | elements h hMore ih => exact .elements (ih (by simp) hSpace) hMore
  | member hBefore hName hAfter h => exact .member (hSpace.trans hBefore) hName hAfter h
  | lastMember h ih => exact .lastMember (ih (by simp) hSpace)
  | members h hMore ih => exact .members (ih (by simp) hSpace) hMore

theorem Derives.exists_value (h : Derives text (.element v) rest) :
    ∃ start stop, Space text start ∧ Derives start (.value v) stop ∧ Space stop rest := by
  cases h with
  | element hBefore h hAfter => exact ⟨_, _, hBefore, h, hAfter⟩

/-- A value begins with no space, nor with the end of an array. -/
theorem Derives.head (h : Derives text (.value v) rest) :
    ∃ c more, text = c :: more ∧ c ∉ spaces ∧ c ≠ ']' := by
  cases h with
  | null => exact ⟨'n', _, rfl, by decide, by decide⟩
  | true => exact ⟨'t', _, rfl, by decide, by decide⟩
  | false => exact ⟨'f', _, rfl, by decide, by decide⟩
  | number h =>
    obtain ⟨c, more, hText, hHead⟩ := h.head
    refine ⟨c, more, hText, not_mem_spaces_of_number hHead, ?_⟩
    rintro rfl
    exact absurd hHead (by decide)
  | string h => exact ⟨'"', _, rfl, by decide, by decide⟩
  | emptyArray h => exact ⟨'[', _, rfl, by decide, by decide⟩
  | array h => exact ⟨'[', _, rfl, by decide, by decide⟩
  | emptyObject h => exact ⟨'\x7b', _, rfl, by decide, by decide⟩
  | object h => exact ⟨'\x7b', _, rfl, by decide, by decide⟩

theorem Derives.tight (h : Derives text (.value v) rest) : Tight text := by
  obtain ⟨c, more, rfl, hSpace, _⟩ := h.head
  rintro _ _ hText
  cases hText
  exact hSpace

theorem Derives.length_lt (h : Derives text part rest) : rest.length < text.length := by
  induction h with
  | null | true | false =>
    rw [List.length_append]
    exact Nat.lt_add_of_pos_left (by decide)
  | number h => exact h.length_lt
  | string h => exact Nat.lt_succ_of_lt h.length_lt
  | emptyArray h | emptyObject h =>
    have := h.length_le
    simp only [List.length_cons] at this ⊢
    omega
  | element hBefore _ hAfter ih =>
    have := hBefore.length_le
    have := hAfter.length_le
    omega
  | member hBefore hName hAfter _ ih =>
    have := hBefore.length_le
    have := hName.length_lt
    have := hAfter.length_le
    simp only [List.length_cons] at *
    omega
  | lastElement _ ih | lastMember _ ih => exact ih
  | _ =>
    simp only [List.length_cons] at *
    omega

/-! ## What comes after an element -/

/-- The end of an element. -/
def Closes (text : List Char) : Prop :=
  ∀ c rest, text = c :: rest → c = ',' ∨ c = ']' ∨ c = '\x7d'

theorem closes_cons {c : Char} (h : c = ',' ∨ c = ']' ∨ c = '\x7d') : Closes (c :: rest) := by
  rintro _ _ hText
  cases hText
  exact h

theorem Closes.tight (h : Closes text) : Tight text := by
  intro c more hText
  rcases h c more hText with rfl | rfl | rfl <;> decide

/-- A number does not go on with space, nor with the end of an element. -/
theorem Space.stops (h : Space stop rest) (hRest : Closes rest) : Stops stop := by
  rcases h.eq_or with rfl | ⟨c, more, rfl, hMem⟩
  · intro c more hText
    rcases hRest c more hText with rfl | rfl | rfl <;> decide
  · rintro _ _ hText
    cases hText
    simp only [spaces, List.mem_cons, List.not_mem_nil, or_false] at hMem
    rcases hMem with rfl | rfl | rfl | rfl <;> decide

/-! ## Values within values -/

/-- The value can be written. -/
def Written (v : Json) : Prop := ∃ text rest, Derives text (.value v) rest

/-- The values that the part is made of. -/
def Part.values : Part → List Json
  | .value _ => []
  | .element v | .member _ v => [v]
  | .elements vs => vs
  | .members ms => ms.map Prod.snd

theorem Derives.written_of_mem (h : Derives text part rest) : ∀ v ∈ part.values, Written v := by
  induction h with
  | element _ h _ =>
    intro v hMem
    rw [List.mem_singleton.mp hMem]
    exact ⟨_, _, h⟩
  | lastElement _ ih | lastMember _ ih | member _ _ _ _ ih => exact ih
  | elements _ _ ih ihMore | members _ _ ih ihMore =>
    intro v hMem
    rcases List.mem_cons.mp hMem with rfl | hMem
    · exact ih _ List.mem_cons_self
    · exact ihMore v hMem
  | _ => simp [Part.values]

theorem Document.written {body : String} (h : Document body v) : Written v :=
  h.written_of_mem v List.mem_cons_self

theorem Written.of_mem_items (h : Written (.array vs)) (hMem : v ∈ vs) : Written v := by
  obtain ⟨_, _, h⟩ := h
  cases h with
  | emptyArray => cases hMem
  | array h => exact h.written_of_mem v hMem

theorem Written.of_mem_members {name : List Piece} (h : Written (.object ms))
    (hMem : (name, v) ∈ ms) : Written v := by
  obtain ⟨_, _, h⟩ := h
  cases h with
  | emptyObject => cases hMem
  | object h => exact h.written_of_mem v (List.mem_map_of_mem hMem)

end TxLoad.Json
