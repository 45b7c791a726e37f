import TxLoad.Endpoint.Genesis
import TxLoad.Proofs.Json.Reader
import TxLoad.Proofs.Text.Numeral

/-! # Which genesis time a body tells

A body tells the number that is written where the genesis time belongs, as an integer literal or as
a decimal text, and no other (`read?_eq_some_iff`). If the document and its data are objects, each
with one member for it, what is written there is told or fails whatever stands beside it
(`tells_number_written`), as long as the names of all members are texts. Half of a surrogate pair in
such a name spoils the body (`half_pair_in_name_spoils`), anywhere else it does not matter.
-/

namespace TxLoad

namespace Json

/-! ## Integer literals -/

/-- Without zeros in front, the digits of a number are the decimal text of their value. -/
theorem Whole.eq_toDigits {text whole rest : List Char} {n : Nat} (h : Whole text whole rest)
    (hValue : Text.digitsValue? whole = some n) : whole = Nat.toDigits 10 n := by
  obtain ⟨⟨hNe, hDigits, _⟩, hZero⟩ := h
  obtain ⟨_, _, rfl⟩ := Text.digitsValue?_eq_some_iff.mp hValue
  obtain ⟨zeros, hZeros⟩ := Text.exists_zeros_append_toDigits hNe hDigits
  cases zeros with
  | zero => exact hZeros
  | succ zeros =>
    have hNone := hZero _ hZeros
    exact absurd (List.append_eq_nil_iff.mp hNone).2 Nat.toDigits_ne_nil

theorem Written.eq_toDigits {numeral : Numeral} {n : Nat} (h : Written (.number numeral))
    (hValue : Text.digitsValue? numeral.whole = some n) : numeral.whole = Nat.toDigits 10 n := by
  obtain ⟨_, _, h⟩ := h
  cases h with
  | number h =>
    cases h with
    | parts _ hWhole _ _ => exact hWhole.eq_toDigits hValue

theorem int?_eq_ofNat_iff {numeral : Numeral} {n : Nat} :
    numeral.int? = some (.ofNat n) ↔ numeral.negative = false ∧ numeral.fraction = [] ∧
      numeral.exponent = none ∧ Text.digitsValue? numeral.whole = some n := by
  unfold Numeral.int?
  constructor
  · intro h
    split at h
    · rename_i hPlain
      simp only [Bool.and_eq_true, List.isEmpty_iff, Option.isNone_iff_eq_none] at hPlain
      split at h
      · rename_i hZero
        split at h
        · cases h
        · rename_i hSign
          obtain rfl : n = 0 := (Int.ofNat.inj (Option.some.inj h)).symm
          exact ⟨Bool.eq_false_iff.mpr hSign, hPlain.1, hPlain.2, hZero⟩
      · rename_i value hNotZero hValue
        -- the literal is not zero, so a sign would make it negative
        have hPos : value ≠ 0 := fun hZero => hNotZero hZero
        simp only [Option.some.injEq, Int.ofNat_eq_natCast] at h
        split at h
        · omega
        · rename_i hSign
          obtain rfl : n = value := by omega
          exact ⟨Bool.eq_false_iff.mpr hSign, hPlain.1, hPlain.2, hValue⟩
      · cases h
    · cases h
  · rintro ⟨hSign, hFraction, hExponent, hValue⟩
    cases n <;> simp [hSign, hFraction, hExponent, hValue]

/-- A number of the grammar is read below a bound exactly if it is the integer literal of the
number. -/
theorem below?_eq_some_iff {bound n : Nat} {numeral : Numeral} (h : Written (.number numeral)) :
    below? bound (.number numeral) = some n ↔ n < bound ∧ .number numeral = ofNat n := by
  have hBelow : below? bound (.number numeral) = some n ↔
      n < bound ∧ numeral.int? = some (.ofNat n) := by
    unfold below? int?
    dsimp only
    split
    · rename_i m hInt
      rw [hInt]
      simp only [Option.ite_none_right_eq_some, Option.some.injEq, Int.ofNat.injEq]
      constructor
      · rintro ⟨hLt, rfl⟩
        exact ⟨hLt, rfl⟩
      · rintro ⟨hLt, rfl⟩
        exact ⟨hLt, rfl⟩
    · rename_i hOther
      exact ⟨fun hNone => (nomatch hNone), fun hRead => (hOther n hRead.2).elim⟩
  rw [hBelow, int?_eq_ofNat_iff]
  refine and_congr_right fun _ => ?_
  constructor
  · rintro ⟨hSign, hFraction, hExponent, hValue⟩
    have hWhole := h.eq_toDigits hValue
    obtain ⟨negative, whole, fraction, exponent⟩ := numeral
    cases hSign
    cases hFraction
    cases hExponent
    cases hWhole
    rfl
  · intro hLiteral
    cases hLiteral
    exact ⟨rfl, rfl, rfl, Text.digitsValue?_decimal 0 n⟩

end Json

namespace Genesis

open Json (Piece Document StandsFor Written)

/-- The names of all members are texts. -/
def Named (members : List (List Piece × Json)) : Prop :=
  ∀ member ∈ members, ∃ text, StandsFor member.1 text

/-- No member has the name. -/
def Lacks (name : String) (members : List (List Piece × Json)) : Prop :=
  ∀ member ∈ members, ¬ StandsFor member.1 name.toList

/-- The value is that of the only member with this name. -/
def Sole (name : String) (members : List (List Piece × Json)) (value : Json) : Prop :=
  ∃ before key after, members = before ++ (key, value) :: after ∧ StandsFor key name.toList ∧
    Lacks name before ∧ Lacks name after

/-- The value stands where the member with this name belongs: it is that of the only such member, or
the only item of a list in the place of the members. -/
inductive Holds (name : String) : Json → Json → Prop
  | member {members : List (List Piece × Json)} {value : Json} (hNames : Named members)
      (h : Sole name members value) : Holds name (.object members) value
  | item {value : Json} : Holds name (.array [value]) value

/-- The number is written, as an integer literal or as a text. -/
inductive Writes (n : Nat) : Json → Prop
  | literal : Writes n (Json.ofNat n)
  | text {pieces : List Piece} {text : List Char} (hText : StandsFor pieces text)
      (h : Text.Decimal n text) : Writes n (.string pieces)

variable {name : String} {members : List (List Piece × Json)} {v value : Json}

/-! ## Members -/

theorem namesReadable_iff : Json.namesReadable members = true ↔ Named members := by
  simp only [Json.namesReadable, List.all_eq_true, Option.isSome_iff_exists,
    Json.textOf?_eq_some_iff]
  rfl

theorem valuesOf_eq_nil_iff : Json.valuesOf name members = [] ↔ Lacks name members := by
  simp [Json.valuesOf, List.filterMap_eq_nil_iff, Lacks, Json.textOf?_eq_some_iff]

theorem valuesOf_eq_singleton_iff :
    Json.valuesOf name members = [value] ↔ Sole name members value := by
  unfold Json.valuesOf
  rw [List.filterMap_eq_cons_iff]
  constructor
  · rintro ⟨before, ⟨key, v⟩, after, rfl, hBefore, hSelf, hAfter⟩
    simp only [Option.ite_none_right_eq_some, Option.some.injEq] at hSelf
    obtain ⟨hName, rfl⟩ := hSelf
    exact ⟨before, key, after, rfl, Json.textOf?_eq_some_iff.mp hName,
      valuesOf_eq_nil_iff.mp (List.filterMap_eq_nil_iff.mpr hBefore), valuesOf_eq_nil_iff.mp hAfter⟩
  · rintro ⟨before, key, after, rfl, hName, hBefore, hAfter⟩
    refine ⟨before, (key, value), after, rfl,
      List.filterMap_eq_nil_iff.mp (valuesOf_eq_nil_iff.mpr hBefore), ?_,
      valuesOf_eq_nil_iff.mpr hAfter⟩
    exact if_pos (Json.textOf?_eq_some_iff.mpr hName)

theorem occurrence_eq_once_iff :
    Json.occurrence name members = .once value ↔ Sole name members value := by
  rw [← valuesOf_eq_singleton_iff]
  unfold Json.occurrence
  split <;> simp_all

theorem onlyMember?_eq_some_iff : onlyMember? name v = some value ↔ Holds name v value := by
  constructor
  · intro h
    unfold onlyMember? at h
    split at h
    · cases h
      exact .item
    · split at h
      · rename_i hNames
        split at h
        · rename_i hOnce
          cases h
          exact .member (namesReadable_iff.mp hNames) (occurrence_eq_once_iff.mp hOnce)
        · cases h
      · cases h
    · cases h
  · intro h
    cases h with
    | member hNames h =>
      simp [onlyMember?, namesReadable_iff.mpr hNames, occurrence_eq_once_iff.mpr h]
    | item => rfl

theorem Holds.written (h : Holds name v value) (hWritten : Written v) : Written value := by
  cases h with
  | member _ h =>
    obtain ⟨before, key, after, rfl, _⟩ := h
    exact hWritten.of_mem_members (List.mem_append_right _ List.mem_cons_self)
  | item => exact hWritten.of_mem_items List.mem_cons_self

/-! ## The number -/

theorem writes_string_iff {n : Nat} {pieces : List Piece} :
    Writes n (.string pieces) ↔ ∃ text, StandsFor pieces text ∧ Text.Decimal n text := by
  constructor
  · intro h
    cases h with
    | text hText h => exact ⟨_, hText, h⟩
  · rintro ⟨text, hText, h⟩
    exact .text hText h

theorem writes_number_iff {n : Nat} {numeral : Json.Numeral} :
    Writes n (.number numeral) ↔ .number numeral = Json.ofNat n := by
  constructor
  · intro h
    cases h with
    | literal => rfl
  · intro h
    exact h ▸ .literal

theorem Writes.unique {n m : Nat} (h : Writes n value) (g : Writes m value) : n = m := by
  cases value with
  | number numeral =>
    have hLiteral := (writes_number_iff.mp h).symm.trans (writes_number_iff.mp g)
    have hDigits : Nat.toDigits 10 n = Nat.toDigits 10 m := by
      injection hLiteral with hNumeral
      exact congrArg Json.Numeral.whole hNumeral
    rw [← Nat.ofDigitChars_ten_toDigits (n := n), hDigits, Nat.ofDigitChars_ten_toDigits]
  | string pieces =>
    obtain ⟨text, hText, hDecimal⟩ := writes_string_iff.mp h
    obtain ⟨other, hOther, hDecimalOther⟩ := writes_string_iff.mp g
    obtain rfl := hText.unique hOther
    exact hDecimal.unique hDecimalOther
  | null | bool | array | object => cases h

/-- The number of an item is read in exactly its two ways of writing. -/
theorem seconds?_eq_some_iff {n : Word64} (h : Written value) :
    seconds? value = some n ↔ Writes n.toNat value := by
  cases value with
  | string pieces =>
    rw [writes_string_iff]
    simp only [seconds?, Option.bind_eq_bind, Option.bind_eq_some_iff, Json.textOf?_eq_some_iff,
      Text.word?_eq_some_iff, String.toList_ofList]
  | number numeral =>
    rw [writes_number_iff]
    constructor
    · intro hRead
      obtain ⟨m, hBelow, rfl⟩ := Option.map_eq_some_iff.mp hRead
      obtain ⟨hLt, hLiteral⟩ := (Json.below?_eq_some_iff h).mp hBelow
      rwa [BitVec.toNat_ofNat, Nat.mod_eq_of_lt hLt]
    · intro hLiteral
      have hBelow := (Json.below?_eq_some_iff h).mpr ⟨n.isLt, hLiteral⟩
      exact Option.map_eq_some_iff.mpr ⟨n.toNat, hBelow, by simp⟩
  | null | bool | array | object =>
    constructor
    · intro hRead
      cases hRead
    · intro hWrites
      cases hWrites

/-- The genesis time that is read is the one that is written where it belongs. -/
theorem read?_eq_some_iff {body : String} {n : Word64} :
    read? body = some n ↔ ∃ document data value, Document body document ∧
      Holds "data" document data ∧ Holds "genesis_time" data value ∧ Writes n.toNat value := by
  unfold read?
  simp only [Option.bind_eq_bind, Option.bind_eq_some_iff, Json.read?_eq_some_iff,
    onlyMember?_eq_some_iff]
  constructor
  · rintro ⟨document, hDocument, data, hData, value, hValue, hRead⟩
    have hWritten := hValue.written (hData.written hDocument.written)
    exact ⟨document, data, value, hDocument, hData, hValue,
      (seconds?_eq_some_iff hWritten).mp hRead⟩
  · rintro ⟨document, data, value, hDocument, hData, hValue, hWrites⟩
    have hWritten := hValue.written (hData.written hDocument.written)
    exact ⟨document, hDocument, data, hData, value, hValue,
      (seconds?_eq_some_iff hWritten).mpr hWrites⟩

/-! ## Bodies -/

theorem ofBody_eq_ok_iff {body : String} {n : Word64} :
    ofBody body = .ok n ↔ read? body = some n := by
  unfold ofBody
  split
  · rename_i time hRead
    rw [hRead, Except.ok.injEq, Option.some.injEq]
  · rename_i hRead
    simp [hRead]

theorem ofBody_eq_malformed {body : String} (h : ∀ n, read? body ≠ some n) :
    ofBody body = .error .malformed := by
  unfold ofBody
  rw [Option.eq_none_iff_forall_ne_some.mpr h]

theorem Sole.unique {other : Json} (h : Sole name members value) (g : Sole name members other) :
    value = other := by
  rw [← valuesOf_eq_singleton_iff] at h g
  exact (List.cons.inj (h.symm.trans g)).1

theorem Holds.of_object {other : Json} (h : Holds name (.object members) value)
    (hSole : Sole name members other) : Named members ∧ value = other := by
  cases h with
  | member hNames h => exact ⟨hNames, h.unique hSole⟩

theorem Sole.not_lacks (h : Sole name members value) : ¬ Lacks name members := by
  obtain ⟨before, key, after, rfl, hName, _⟩ := h
  intro hLacks
  exact hLacks (key, value) (List.mem_append_right _ List.mem_cons_self) hName

variable {body : String} {data : List (List Piece × Json)}

/-- A body with both members tells what is written there, if the names of all members are texts. -/
theorem read?_eq_some_iff_of_sole {n : Word64} (hBody : Document body (.object members))
    (hData : Sole "data" members (.object data)) :
    read? body = some n ↔ Named members ∧ Named data ∧
      ∃ value, Sole "genesis_time" data value ∧ Writes n.toNat value := by
  rw [read?_eq_some_iff]
  constructor
  · rintro ⟨document, held, value, hDocument, hHeld, hValue, hWrites⟩
    obtain rfl := hDocument.unique hBody
    obtain ⟨hNames, rfl⟩ := hHeld.of_object hData
    cases hValue with
    | member hDataNames h => exact ⟨hNames, hDataNames, value, h, hWrites⟩
  · rintro ⟨hNames, hDataNames, value, hValue, hWrites⟩
    exact ⟨_, _, value, hBody, .member hNames hData, .member hDataNames hValue, hWrites⟩

/-- A body with a single object of data in which the genesis time stands once tells the number that
is written there, in either way, and fails if none of 64 bits is. It fails too if the genesis time
is missing, or if the name of a member is no text. -/
theorem tells_number_written (hBody : Document body (.object members))
    (hData : Sole "data" members (.object data)) :
    (∀ value, Sole "genesis_time" data value → Named members → Named data →
      (∀ n : Word64, ofBody body = .ok n ↔ Writes n.toNat value) ∧
      (∀ (n : Word64) (m : Nat), ofBody body = .ok n → Writes m value → n.toNat = m) ∧
      ((∀ n : Word64, ¬ Writes n.toNat value) → ofBody body = .error .malformed)) ∧
    (Lacks "genesis_time" data → ofBody body = .error .malformed) ∧
    (¬ (Named members ∧ Named data) → ofBody body = .error .malformed) := by
  have hRead : ∀ n : Word64, read? body = some n ↔ Named members ∧ Named data ∧
      ∃ value, Sole "genesis_time" data value ∧ Writes n.toNat value :=
    fun _ => read?_eq_some_iff_of_sole hBody hData
  refine ⟨fun value hValue hNames hDataNames => ?_, fun hLacks => ?_, fun hUnnamed => ?_⟩
  · have hTells : ∀ n : Word64, ofBody body = .ok n ↔ Writes n.toNat value := by
      intro n
      rw [ofBody_eq_ok_iff, hRead]
      constructor
      · rintro ⟨_, _, other, hOther, hWrites⟩
        rwa [hOther.unique hValue] at hWrites
      · intro hWrites
        exact ⟨hNames, hDataNames, value, hValue, hWrites⟩
    refine ⟨hTells, fun n m hOk hWrites => ((hTells n).mp hOk).unique hWrites, fun hNone => ?_⟩
    refine ofBody_eq_malformed fun n hSome => hNone n ?_
    exact (hTells n).mp (ofBody_eq_ok_iff.mpr hSome)
  · refine ofBody_eq_malformed fun n hSome => ?_
    obtain ⟨_, _, _, hValue, _⟩ := (hRead n).mp hSome
    exact hValue.not_lacks hLacks
  · refine ofBody_eq_malformed fun n hSome => ?_
    obtain ⟨hNames, hDataNames, _⟩ := (hRead n).mp hSome
    exact hUnnamed ⟨hNames, hDataNames⟩

/-- A body with the genesis time as a text, after half of a surrogate pair in another text. -/
def noted : String := "\x7b\"data\":\x7b\"note\":\"\\udead\",\"genesis_time\":\"+007\"\x7d\x7d"

def notedData : List (List Piece × Json) :=
  [(Json.pieces "note", .string [.unit 0xDEAD]), (Json.pieces "genesis_time", Json.ofText "+007")]

theorem document_noted : Document noted (.object [(Json.pieces "data", .object notedData)]) := by
  rw [← Json.read?_eq_some_iff]
  unfold Json.read? noted
  dsimp only [String.reduceToList]
  rfl

theorem noted_tells_seven :
    Document noted (.object [(Json.pieces "data", .object notedData)]) ∧
      Sole "data" [(Json.pieces "data", .object notedData)] (.object notedData) ∧
      ofBody noted = .ok 7 := by
  have hData : Sole "data" [(Json.pieces "data", .object notedData)] (.object notedData) :=
    valuesOf_eq_singleton_iff.mp rfl
  have hTime : Sole "genesis_time" notedData (Json.ofText "+007") :=
    valuesOf_eq_singleton_iff.mp rfl
  have hDecimal : Text.Decimal 7 "+007".toList := ⟨['+'], 2, .inr rfl, by decide⟩
  have hWrites : Writes 7 (Json.ofText "+007") := .text (Json.standsFor_pieces "+007") hDecimal
  obtain ⟨hTells, _⟩ := (tells_number_written document_noted hData).1 _ hTime
    (namesReadable_iff.mp rfl) (namesReadable_iff.mp rfl)
  exact ⟨document_noted, hData, (hTells 7).mpr hWrites⟩

/-- A body that tells its genesis time and has half of a surrogate pair for the name of another
member. -/
def misnamed : String := "\x7b\"data\":\x7b\"genesis_time\":5\x7d,\"\\ud800\":1\x7d"

def misnamedMembers : List (List Piece × Json) :=
  [(Json.pieces "data", .object [(Json.pieces "genesis_time", Json.ofNat 5)]),
    ([.unit 0xD800], Json.ofNat 1)]

theorem document_misnamed : Document misnamed (.object misnamedMembers) := by
  rw [← Json.read?_eq_some_iff]
  unfold Json.read? misnamed
  dsimp only [String.reduceToList]
  rfl

/-- A genesis time that is written in its place is not told beside half of a surrogate pair in the
name of a member. -/
theorem half_pair_in_name_spoils :
    ¬ ∀ (body : String) (members data : List (List Piece × Json)) (value : Json) (n : Word64),
      Document body (.object members) → Sole "data" members (.object data) →
      Sole "genesis_time" data value → Writes n.toNat value → ofBody body = .ok n := by
  intro h
  have hData : Sole "data" misnamedMembers
      (.object [(Json.pieces "genesis_time", Json.ofNat 5)]) :=
    valuesOf_eq_singleton_iff.mp rfl
  have hTime : Sole "genesis_time" [(Json.pieces "genesis_time", Json.ofNat 5)] (Json.ofNat 5) :=
    valuesOf_eq_singleton_iff.mp rfl
  have hOk := h misnamed _ _ _ 5 document_misnamed hData hTime .literal
  obtain ⟨hNames, _⟩ :=
    (read?_eq_some_iff_of_sole document_misnamed hData).mp (ofBody_eq_ok_iff.mp hOk)
  obtain ⟨text, hText⟩ := hNames ([.unit 0xD800], Json.ofNat 1) (by simp [misnamedMembers])
  cases hText with
  | unit hHigh _ _ => exact hHigh (by decide)

end Genesis

end TxLoad
