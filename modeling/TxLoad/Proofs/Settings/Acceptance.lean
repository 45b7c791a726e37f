import Mathlib.Data.List.Basic
import TxLoad.Proofs.Settings.Resolution

/-! # Which settings are accepted

Each setting has one value, which `Taken` finds in three layers: the settings that are given, those
of the file and the fixed ones. The first layer that says anything counts. The values are accepted
exactly if all of nine conditions hold. The conditions are looked at in a fixed order, and the first
one that does not hold is reported; `Ends` says so of any part of the resolution. The plan of
accepted settings carries the values and passes its own check once more.
-/

namespace TxLoad

namespace Settings

/-! ## The layers -/

/-- What the first layer says, or else the second, or else the third. -/
inductive Taken {α : Type} (Says : α → Prop) (fixed first second : α) : α → Prop
  | first (hFirst : Says first) : Taken Says fixed first second first
  | second (hFirst : ¬Says first) (hSecond : Says second) : Taken Says fixed first second second
  | fixed (hFirst : ¬Says first) (hSecond : ¬Says second) : Taken Says fixed first second fixed

/-- There is a text other than blanks. -/
def SaysText (text : Option String) : Prop := ∃ t, text = some t ∧ Text.isBlank t = false

/-- There is a value. -/
def SaysValue {α : Type} (value : Option α) : Prop := value ≠ none

/-- There is an element. -/
def SaysList {α : Type} (list : List α) : Prop := list ≠ []

section Layers

variable {α : Type} {Says : α → Prop} {fixed first second x y : α}

theorem Taken.unique (h : Taken Says fixed first second x) (g : Taken Says fixed first second y) :
    x = y := by
  cases h with
  | first hFirst =>
    cases g with
    | first _ => rfl
    | second hNot _ => exact absurd hFirst hNot
    | fixed hNot _ => exact absurd hFirst hNot
  | second hFirst hSecond =>
    cases g with
    | first hSays => exact absurd hSays hFirst
    | second _ _ => rfl
    | fixed _ hNot => exact absurd hSecond hNot
  | fixed hFirst hSecond =>
    cases g with
    | first hSays => exact absurd hSays hFirst
    | second _ hSays => exact absurd hSays hSecond
    | fixed _ _ => rfl

theorem nonBlank_of_isBlank {t : String} (h : Text.isBlank t = true) :
    Text.nonBlank (some t) = none := by
  unfold Text.nonBlank
  rw [Option.filter_some, h]
  rfl

theorem nonBlank_of_not_isBlank {t : String} (h : Text.isBlank t = false) :
    Text.nonBlank (some t) = some t := by
  unfold Text.nonBlank
  rw [Option.filter_some, h]
  rfl

/-- A text says something, or else it counts as open. -/
theorem saysText_or_nonBlank (text : Option String) :
    SaysText text ∧ Text.nonBlank text = text ∨ ¬SaysText text ∧ Text.nonBlank text = none := by
  cases text with
  | none => exact .inr ⟨nofun, rfl⟩
  | some t =>
    cases hBlank : Text.isBlank t with
    | false => exact .inl ⟨⟨t, rfl, hBlank⟩, nonBlank_of_not_isBlank hBlank⟩
    | true =>
      refine .inr ⟨?_, nonBlank_of_isBlank hBlank⟩
      rintro ⟨_, hText, hSays⟩
      cases hText
      cases hBlank.symm.trans hSays

theorem taken_orText (first second : Option String) :
    Taken SaysText none first second (orText first second) := by
  unfold orText
  rcases saysText_or_nonBlank first with ⟨hFirst, hText⟩ | ⟨hFirst, hText⟩
  · rw [hText]
    obtain ⟨t, rfl, hBlank⟩ := hFirst
    exact .first ⟨t, rfl, hBlank⟩
  · rw [hText, Option.none_or]
    rcases saysText_or_nonBlank second with ⟨hSecond, hText⟩ | ⟨hSecond, hText⟩
    · rw [hText]
      exact .second hFirst hSecond
    · rw [hText]
      exact .fixed hFirst hSecond

theorem taken_orList (first second : List α) :
    Taken SaysList [] first second (orList first second) := by
  cases first with
  | cons a rest => exact .first (List.cons_ne_nil a rest)
  | nil =>
    cases second with
    | cons a rest => exact .second (not_not_intro rfl) (List.cons_ne_nil a rest)
    | nil => exact .fixed (not_not_intro rfl) (not_not_intro rfl)

theorem taken_or (fixed first second : Option α) :
    Taken SaysValue fixed first second ((first.or second).or fixed) := by
  cases first with
  | some a => exact .first (Option.some_ne_none a)
  | none =>
    cases second with
    | some a => exact .second (not_not_intro rfl) (Option.some_ne_none a)
    | none => exact .fixed (not_not_intro rfl) (not_not_intro rfl)

end Layers

/-! ## The values -/

/-- The value of each setting. -/
structure Values where
  privateKey : Option String
  recipient : Option String
  endpoints : List String
  amount : Binary64
  count : Word64
  batchSize : Word64
  pause : Binary64
  slots : List Target
  beacon : Option String
  submitLimit : Word64
  metricsPort : Option (BitVec 16)

/-- The values of the settings that are given, over those of the file, over the fixed ones. -/
structure Values.Of (given file : Draft) (v : Values) : Prop where
  privateKey : Taken SaysText none given.privateKey file.privateKey v.privateKey
  recipient : Taken SaysText none given.recipient file.recipient v.recipient
  endpoints : Taken SaysList [] given.endpoints file.endpoints v.endpoints
  amount : Taken SaysValue (some defaultAmount) given.amount file.amount (some v.amount)
  count : Taken SaysValue (some 1) given.count file.count (some v.count)
  batchSize : Taken SaysValue (some 1) given.batchSize file.batchSize (some v.batchSize)
  pause : Taken SaysValue (some defaultPause) given.pause file.pause (some v.pause)
  slots : Taken SaysList [] given.slots file.slots v.slots
  beacon : Taken SaysText none given.beacon file.beacon v.beacon
  submitLimit : Taken SaysValue (some 30) given.submitLimit file.submitLimit (some v.submitLimit)
  metricsPort : Taken SaysValue none given.metricsPort file.metricsPort v.metricsPort

/-- The values that a draft comes to once nothing but fixed values is added. -/
def Draft.values (d : Draft) : Values where
  privateKey := d.privateKey
  recipient := d.recipient
  endpoints := d.endpoints
  amount := d.amount.getD defaultAmount
  count := d.count.getD 1
  batchSize := d.batchSize.getD 1
  pause := d.pause.getD defaultPause
  slots := d.slots
  beacon := Text.nonBlank d.beacon
  submitLimit := d.submitLimit.getD defaultSubmitLimit
  metricsPort := d.metricsPort

theorem taken_getD {α : Type} (first second : Option α) (fixed : α) :
    Taken SaysValue (some fixed) first second (some ((first.or second).getD fixed)) := by
  have h := taken_or (some fixed) first second
  rwa [Option.or_some] at h

theorem nonBlank_nonBlank (text : Option String) :
    Text.nonBlank (Text.nonBlank text) = Text.nonBlank text := by
  rcases saysText_or_nonBlank text with ⟨_, hText⟩ | ⟨_, hText⟩
  · rw [hText, hText]
  · rw [hText]
    rfl

theorem nonBlank_orText (first second : Option String) :
    Text.nonBlank (orText first second) = orText first second := by
  unfold orText
  cases hFirst : Text.nonBlank first with
  | none =>
    rw [Option.none_or]
    exact nonBlank_nonBlank second
  | some t =>
    rw [Option.some_or, ← hFirst]
    exact nonBlank_nonBlank first

/-- The values are those of the completed draft, and no others. -/
theorem values_of (given file : Draft) : (given.or file).values.Of given file where
  privateKey := taken_orText _ _
  recipient := taken_orText _ _
  endpoints := taken_orList _ _
  amount := taken_getD _ _ _
  count := taken_getD _ _ _
  batchSize := taken_getD _ _ _
  pause := taken_getD _ _ _
  slots := taken_orList _ _
  beacon := by
    show Taken SaysText none given.beacon file.beacon
      (Text.nonBlank (orText given.beacon file.beacon))
    rw [nonBlank_orText]
    exact taken_orText _ _
  submitLimit := taken_getD _ _ _
  metricsPort := by
    have h := taken_or none given.metricsPort file.metricsPort
    rwa [Option.or_none] at h

theorem Values.Of.eq {given file : Draft} {v : Values} (h : v.Of given file) :
    v = (given.or file).values := by
  have g := values_of given file
  obtain ⟨privateKey, recipient, endpoints, amount, count, batchSize, pause, slots, beacon,
    submitLimit, metricsPort⟩ := v
  obtain rfl := h.privateKey.unique g.privateKey
  obtain rfl := h.recipient.unique g.recipient
  obtain rfl := h.endpoints.unique g.endpoints
  obtain rfl := Option.some.inj (h.amount.unique g.amount)
  obtain rfl := Option.some.inj (h.count.unique g.count)
  obtain rfl := Option.some.inj (h.batchSize.unique g.batchSize)
  obtain rfl := Option.some.inj (h.pause.unique g.pause)
  obtain rfl := h.slots.unique g.slots
  obtain rfl := h.beacon.unique g.beacon
  obtain rfl := Option.some.inj (h.submitLimit.unique g.submitLimit)
  obtain rfl := h.metricsPort.unique g.metricsPort
  rfl

/-! ## The conditions -/

inductive Condition
  | key
  | recipient
  | amount
  | pause
  | endpoint
  | count
  | batchSize
  | slots
  | beacon
  deriving DecidableEq, Repr

namespace Condition

/-- The conditions that are looked at when the settings are read. -/
def ofReading : List Condition := [.key, .recipient, .amount, .pause]

/-- The conditions that a plan is checked for. -/
def ofPlan : List Condition := [.endpoint, .count, .batchSize, .slots, .beacon]

/-- All conditions, in the order in which they are looked at. -/
def all : List Condition := ofReading ++ ofPlan

theorem mem_all (c : Condition) : c ∈ all := by
  cases c <;> decide

def Holds (v : Values) : Condition → Prop
  | key => ∃ text account, v.privateKey = some text ∧ Account.ofText text = .ok account
  | recipient => ∃ text word, v.recipient = some text ∧
      Hex.readFixed 160 (Text.trim text) = .ok word
  | amount => v.amount.isFinite = true ∧ v.amount.isBelowZero = false ∧
      ∃ parts, partsOf v.amount = .ok parts
  | pause => ∃ span, spanOf v.pause = .ok span
  | endpoint => ∃ url ∈ v.endpoints, Text.isBlank url = false
  | count => 1 ≤ v.count.toNat
  | batchSize => 1 ≤ v.batchSize.toNat
  | slots => ∀ slot ∈ v.slots, slot.toNat < 32
  | beacon => v.slots = [] ∨ ∃ url, v.beacon = some url ∧ Text.isBlank url = false

/-- What is reported of a condition that does not hold. -/
inductive Refuses (v : Values) : Condition → Failure → Prop
  | keyUnset (hUnset : v.privateKey = none) : Refuses v key (.configuration .keyUnset)
  | key {text : String} {error : KeyError} (hText : v.privateKey = some text)
      (hError : Account.ofText text = .error error) :
      Refuses v key (.configuration (.key error))
  | recipientUnset (hUnset : v.recipient = none) :
      Refuses v recipient (.configuration .recipientUnset)
  | recipient {text : String} {error : Hex.FixedError} (hText : v.recipient = some text)
      (hError : Hex.readFixed 160 (Text.trim text) = .error error) :
      Refuses v recipient (.configuration (.recipient text error))
  | amount (hNumber : ¬(v.amount.isFinite = true ∧ v.amount.isBelowZero = false)) :
      Refuses v amount (.configuration (.amount v.amount.text none))
  | inconvertible {cause : String} (hFinite : v.amount.isFinite = true)
      (hOrder : v.amount.isBelowZero = false)
      (hCause : partsOf v.amount = .error (.invalid cause)) :
      Refuses v amount (.configuration (.amount v.amount.text (some cause)))
  | pause {cause : String} (hCause : spanOf v.pause = .error cause) :
      Refuses v pause (.configuration (.pause v.pause.text cause))
  | endpoint (hBlank : ∀ url ∈ v.endpoints, Text.isBlank url = true) :
      Refuses v endpoint (.configuration .noEndpoint)
  | count (hNone : v.count = 0) : Refuses v count (.configuration .noCount)
  | batchSize (hNone : v.batchSize = 0) : Refuses v batchSize (.configuration .noBatchSize)
  | slots {before after : List Target} {slot : Target}
      (hSlots : v.slots = before ++ slot :: after) (hBefore : ∀ s ∈ before, s.toNat < 32)
      (hRange : 32 ≤ slot.toNat) : Refuses v slots (.configuration (.slotRange slot.toNat))
  | beacon (hSlots : v.slots ≠ []) (hBeacon : v.beacon = none) :
      Refuses v beacon (.scheduling (v.slots.map BitVec.toNat))

variable {v : Values} {c : Condition} {f : Failure}

/-- What is reported does not hold. -/
theorem Refuses.not_holds (h : Refuses v c f) : ¬c.Holds v := by
  cases h with
  | keyUnset hUnset =>
    rintro ⟨_, _, hText, _⟩
    cases hUnset.symm.trans hText
  | key hText hError =>
    rintro ⟨_, _, hText', hOk⟩
    cases hText.symm.trans hText'
    cases hError.symm.trans hOk
  | recipientUnset hUnset =>
    rintro ⟨_, _, hText, _⟩
    cases hUnset.symm.trans hText
  | recipient hText hError =>
    rintro ⟨_, _, hText', hOk⟩
    cases hText.symm.trans hText'
    cases hError.symm.trans hOk
  | amount hNumber =>
    rintro ⟨hFinite, hOrder, _⟩
    exact hNumber ⟨hFinite, hOrder⟩
  | inconvertible _ _ hCause =>
    rintro ⟨_, _, _, hParts⟩
    cases hCause.symm.trans hParts
  | pause hCause =>
    rintro ⟨_, hSpan⟩
    cases hCause.symm.trans hSpan
  | endpoint hBlank =>
    rintro ⟨url, hMem, hSays⟩
    cases (hBlank url hMem).symm.trans hSays
  | count hNone =>
    intro hSome
    change 1 ≤ v.count.toNat at hSome
    rw [hNone] at hSome
    cases hSome
  | batchSize hNone =>
    intro hSome
    change 1 ≤ v.batchSize.toNat at hSome
    rw [hNone] at hSome
    cases hSome
  | @slots before after slot hSlots _ hRange =>
    intro hAll
    have hSlot : slot ∈ v.slots := hSlots ▸ List.mem_append_right _ List.mem_cons_self
    exact Nat.not_lt.mpr hRange (hAll slot hSlot)
  | beacon hSlots hBeacon =>
    rintro (hNone | ⟨_, hUrl, _⟩)
    · exact hSlots hNone
    · cases hBeacon.symm.trans hUrl

/-- Only the last condition is reported as one of the schedule, and all slots with it. -/
theorem Refuses.of_scheduling {slots : List Nat} (h : Refuses v c (.scheduling slots)) :
    c = .beacon ∧ slots = v.slots.map BitVec.toNat := by
  cases h with
  | beacon _ _ => exact ⟨rfl, rfl⟩

end Condition

/-! ## Conditions one after the other -/

/-- The conditions are looked at in order. The first one that does not hold ends the computation
with its report, or with an overflow if it is the amount that overflows. If all hold, there is a
result. -/
inductive Ends {α : Type} (v : Values) (Result : α → Prop) :
    List Condition → Except Stop α → Prop
  | done {a : α} (hResult : Result a) : Ends v Result [] (.ok a)
  | refused {c : Condition} {rest : List Condition} {f : Failure} (hReport : c.Refuses v f) :
      Ends v Result (c :: rest) (.error (.failure f))
  | overflowed {rest : List Condition} (hAmount : Overflows v.amount) :
      Ends v Result (.amount :: rest) (.error (.fault .wideOverflow))
  | met {c : Condition} {rest : List Condition} {result : Except Stop α} (hHolds : c.Holds v)
      (hRest : Ends v Result rest result) : Ends v Result (c :: rest) result

section Ends

variable {α β : Type} {v : Values} {Result : α → Prop} {Last : β → Prop}
  {conditions others : List Condition} {result : Except Stop α}

theorem Ends.bind {f : α → Except Stop β} (h : Ends v Result conditions result)
    (hRest : ∀ a, result = .ok a → Result a → Ends v Last others (f a)) :
    Ends v Last (conditions ++ others) (result >>= f) := by
  induction h with
  | done hResult => exact hRest _ rfl hResult
  | refused hReport => exact .refused hReport
  | overflowed hAmount => exact .overflowed hAmount
  | met hHolds _ ih => exact .met hHolds (ih hRest)

/-- The amount does not convert if it overflows. -/
theorem not_holds_of_overflows (h : Overflows v.amount) : ¬Condition.amount.Holds v := by
  rintro ⟨_, _, parts, hParts⟩
  cases (partsOf_of_overflows h).symm.trans hParts

/-- There is a result exactly if all conditions hold. -/
theorem Ends.accepted_iff (h : Ends v Result conditions result) :
    (∃ a, result = .ok a) ↔ ∀ c ∈ conditions, c.Holds v := by
  induction h with
  | done _ => exact iff_of_true ⟨_, rfl⟩ (List.forall_mem_nil _)
  | refused hReport =>
    refine iff_of_false ?_ fun hAll => hReport.not_holds (hAll _ List.mem_cons_self)
    rintro ⟨_, hOk⟩
    cases hOk
  | overflowed hAmount =>
    refine iff_of_false ?_ fun hAll =>
      not_holds_of_overflows hAmount (hAll _ List.mem_cons_self)
    rintro ⟨_, hOk⟩
    cases hOk
  | met hHolds _ ih =>
    rw [ih, List.forall_mem_cons]
    exact (and_iff_right hHolds).symm

theorem Ends.of_ok {a : α} (h : Ends v Result conditions (.ok a)) : Result a := by
  generalize hOk : (Except.ok a : Except Stop α) = result at h
  induction h with
  | done hResult =>
    cases hOk
    exact hResult
  | refused _ => cases hOk
  | overflowed _ => cases hOk
  | met _ _ ih => exact ih hOk

/-- A failure is the report of a condition, and those before it hold. -/
theorem Ends.exists_refused {f : Failure} (h : Ends v Result conditions (.error (.failure f))) :
    ∃ before c after, conditions = before ++ c :: after ∧ (∀ b ∈ before, b.Holds v) ∧
      c.Refuses v f := by
  generalize hError : (Except.error (.failure f) : Except Stop α) = result at h
  induction h with
  | done _ => cases hError
  | @refused c rest g hReport =>
    cases hError
    exact ⟨[], c, rest, rfl, List.forall_mem_nil _, hReport⟩
  | overflowed _ => cases hError
  | @met c rest _ hHolds _ ih =>
    obtain ⟨before, d, after, rfl, hBefore, hReport⟩ := ih hError
    exact ⟨c :: before, d, after, rfl, List.forall_mem_cons.mpr ⟨hHolds, hBefore⟩, hReport⟩

/-- Where the amount converts, conditions that do not all hold end with a failure. -/
theorem Ends.exists_failure (h : Ends v Result conditions result)
    (hAmount : Condition.amount.Holds v) (hNot : ¬∀ c ∈ conditions, c.Holds v) :
    ∃ f, result = .error (.failure f) := by
  induction h with
  | done _ => exact absurd (List.forall_mem_nil _) hNot
  | refused _ => exact ⟨_, rfl⟩
  | overflowed hOverflows => exact absurd hAmount (not_holds_of_overflows hOverflows)
  | met hHolds _ ih =>
    exact ih fun hRest => hNot (List.forall_mem_cons.mpr ⟨hHolds, hRest⟩)

end Ends

/-! ## The stages of the resolution -/

theorem ends_account (v : Values) :
    Ends v (fun account => ∃ text, v.privateKey = some text ∧ Account.ofText text = .ok account)
      [.key] (misconfigured (accountOf v.privateKey)) := by
  cases hKey : v.privateKey with
  | none => exact .refused (.keyUnset hKey)
  | some text =>
    show Ends v _ _ (misconfigured ((Account.ofText text).mapError .key))
    cases hAccount : Account.ofText text with
    | error error => exact .refused (.key hKey hAccount)
    | ok account => exact .met ⟨text, account, hKey, hAccount⟩ (.done ⟨text, rfl, hAccount⟩)

theorem ends_recipient (v : Values) :
    Ends v (fun recipient : Address => ∃ text word, v.recipient = some text ∧
      Hex.readFixed 160 (Text.trim text) = .ok word ∧ recipient = ⟨word⟩)
      [.recipient] (misconfigured (recipientOf v.recipient)) := by
  cases hRecipient : v.recipient with
  | none => exact .refused (.recipientUnset hRecipient)
  | some text =>
    unfold recipientOf
    dsimp only
    cases hWord : Hex.readFixed 160 (Text.trim text) with
    | error error => exact .refused (.recipient hRecipient hWord)
    | ok word =>
      exact .met ⟨text, word, hRecipient, hWord⟩ (.done ⟨text, word, rfl, hWord, rfl⟩)

theorem ends_amount (v : Values) :
    Ends v (fun amount => partsOf v.amount = .ok amount) [.amount] (amountOf v.amount) := by
  by_cases hOverflows : Overflows v.amount
  · rw [amountOf_of_overflows hOverflows]
    exact .overflowed hOverflows
  have hGuard : (!v.amount.isFinite || v.amount.isBelowZero) = true ↔
      ¬(v.amount.isFinite = true ∧ v.amount.isBelowZero = false) := by
    cases v.amount.isFinite <;> cases v.amount.isBelowZero <;> decide
  unfold amountOf
  dsimp only
  by_cases hNumber : v.amount.isFinite = true ∧ v.amount.isBelowZero = false
  · rw [if_neg fun hRefused => hGuard.mp hRefused hNumber]
    rcases partsOf_of_not_overflows hNumber.1 hNumber.2 hOverflows with
      ⟨parts, hParts⟩ | ⟨cause, hCause⟩
    · rw [hParts]
      exact .met ⟨hNumber.1, hNumber.2, parts, hParts⟩ (.done rfl)
    · rw [hCause]
      exact .refused (.inconvertible hNumber.1 hNumber.2 hCause)
  · rw [if_pos (hGuard.mpr hNumber)]
    exact .refused (.amount hNumber)

theorem ends_pause (v : Values) :
    Ends v (fun pause => spanOf v.pause = .ok pause) [.pause]
      (misconfigured (pauseOf v.pause)) := by
  unfold pauseOf
  cases hSpan : spanOf v.pause with
  | error cause => exact .refused (.pause hSpan)
  | ok span => exact .met ⟨span, hSpan⟩ (.done rfl)

end Settings

/-- The plan carries the values: what it is read from them, and the others as they are. -/
structure Plan.Carries (p : Plan) (v : Settings.Values) : Prop where
  account : ∃ text, v.privateKey = some text ∧ Account.ofText text = .ok p.account
  recipient : ∃ text word, v.recipient = some text ∧
    Hex.readFixed 160 (Text.trim text) = .ok word ∧ p.recipient = ⟨word⟩
  amount : Settings.partsOf v.amount = .ok p.amount
  pause : Settings.spanOf v.pause = .ok p.pause
  endpoints : p.endpoints = v.endpoints
  count : p.count = v.count
  batchSize : p.batchSize = v.batchSize
  slots : p.slots = v.slots
  beacon : p.beacon = v.beacon
  submitLimit : p.submitLimit = .ofSecs v.submitLimit.toNat
  metricsPort : p.metricsPort = v.metricsPort

namespace Settings

/-- A defect ends the resolution. -/
def ofDefect : Option Failure → Except Stop Unit
  | some failure => .error (.failure failure)
  | none => .ok ()

theorem ofDefect_eq (p : Plan) : p.check.mapError Stop.failure = ofDefect p.defect? := by
  unfold Plan.check
  cases p.defect? <;> rfl

theorem ends_strayTarget {v : Values} {rest : Option Failure} {conditions : List Condition}
    (hRest : Ends v (fun _ => True) conditions (ofDefect rest)) :
    Ends v (fun _ => True) (.slots :: conditions) (ofDefect (match Plan.strayTarget? v.slots with
      | some slot => some (.configuration (.slotRange slot.toNat))
      | none => rest)) := by
  cases hStray : Plan.strayTarget? v.slots with
  | some slot =>
    obtain ⟨hRange, before, after, hSlots, hBefore⟩ := List.find?_eq_some_iff_append.mp hStray
    refine .refused (.slots hSlots ?_ (of_decide_eq_true hRange))
    intro other hMem
    exact Nat.not_le.mp (of_decide_eq_false (Bool.not_eq_true' _ ▸ hBefore other hMem))
  | none =>
    refine .met ?_ hRest
    intro slot hMem
    exact Nat.not_le.mp fun hRange =>
      List.find?_eq_none.mp hStray slot hMem (decide_eq_true hRange)

theorem ends_beacon {v : Values}
    (hBeacon : ∀ url, v.beacon = some url → Text.isBlank url = false) :
    Ends v (fun _ => True) [.beacon] (ofDefect
      (if (!v.slots.isEmpty && v.beacon.isNone) = true then
        some (.scheduling (v.slots.map BitVec.toNat)) else none)) := by
  by_cases hMissing : (!v.slots.isEmpty && v.beacon.isNone) = true
  · rw [if_pos hMissing]
    have hOpen : v.slots ≠ [] ∧ v.beacon = none := by simpa using hMissing
    exact .refused (.beacon hOpen.1 hOpen.2)
  · rw [if_neg hMissing]
    refine .met ?_ (.done trivial)
    cases hUrl : v.beacon with
    | some url => exact .inr ⟨url, hUrl, hBeacon url hUrl⟩
    | none =>
      left
      by_contra hSlots
      exact hMissing (by simp [hSlots, hUrl])

/-- The check of a plan looks at its conditions in order. -/
theorem ends_check {p : Plan} {v : Values} (h : p.Carries v)
    (hBeacon : ∀ url, v.beacon = some url → Text.isBlank url = false) :
    Ends v (fun _ => True) Condition.ofPlan (p.check.mapError .failure) := by
  rw [ofDefect_eq]
  unfold Plan.defect?
  rw [h.endpoints, h.count, h.batchSize, h.slots, h.beacon]
  by_cases hEndpoint : v.endpoints.all Text.isBlank = true
  · rw [if_pos hEndpoint]
    exact .refused (.endpoint (List.all_eq_true.mp hEndpoint))
  rw [if_neg hEndpoint]
  refine .met (by simpa [Condition.Holds] using hEndpoint) ?_
  by_cases hCount : v.count = 0
  · rw [if_pos hCount]
    exact .refused (.count hCount)
  rw [if_neg hCount]
  refine .met (Nat.pos_of_ne_zero (Word64.toNat_ne_zero hCount)) ?_
  by_cases hBatchSize : v.batchSize = 0
  · rw [if_pos hBatchSize]
    exact .refused (.batchSize hBatchSize)
  rw [if_neg hBatchSize]
  refine .met (Nat.pos_of_ne_zero (Word64.toNat_ne_zero hBatchSize)) ?_
  exact ends_strayTarget (ends_beacon hBeacon)

/-- Reading settings and checking their plan looks at all conditions in order. -/
theorem ends_toPlan (d : Draft) :
    Ends d.values (fun plan => plan.Carries d.values ∧ plan.check = .ok ()) Condition.all
      d.toPlan := by
  have hBeacon : ∀ url, d.values.beacon = some url → Text.isBlank url = false := by
    intro url hUrl
    rcases saysText_or_nonBlank d.beacon with ⟨⟨t, hText, hSays⟩, hKept⟩ | ⟨_, hNone⟩
    · change Text.nonBlank d.beacon = some url at hUrl
      cases hText.symm.trans (hKept.symm.trans hUrl)
      exact hSays
    · cases hNone.symm.trans hUrl
  refine (ends_account d.values).bind fun account _ hAccount => ?_
  refine (ends_recipient d.values).bind fun recipient _ hRecipient => ?_
  refine (ends_amount d.values).bind fun amount _ hAmount => ?_
  refine (ends_pause d.values).bind fun pause _ hPause => ?_
  let plan : Plan := {
    account, recipient, amount, pause
    endpoints := d.endpoints
    count := d.count.getD 1
    batchSize := d.batchSize.getD 1
    slots := d.slots
    beacon := Text.nonBlank d.beacon
    submitLimit := .ofSecs (d.submitLimit.getD defaultSubmitLimit).toNat
    metricsPort := d.metricsPort }
  have hCarries : plan.Carries d.values :=
    ⟨hAccount, hRecipient, hAmount, hPause, rfl, rfl, rfl, rfl, rfl, rfl, rfl⟩
  show Ends d.values _ (Condition.ofPlan ++ []) _
  refine (ends_check hCarries hBeacon).bind fun _ hCheck _ => ?_
  refine .done ⟨hCarries, ?_⟩
  cases hPlan : plan.check with
  | ok _ => rfl
  | error failure =>
    rw [hPlan] at hCheck
    cases hCheck

/-! ## The file -/

/-- The settings of the file that is named, none if there is no such file. -/
inductive Loads (env : Environment) (files : Files) (given : Draft) : Draft → Prop
  | alone (hFile : given.file = none) : Loads env files given {}
  | loaded {path text : String} {file : Draft} (hFile : given.file = some path)
      (hText : files path = .ok text) (hDraft : draftOfText? (substitute env text) = some file) :
      Loads env files given file

/-- How the resolution ends. -/
inductive Resolves (env : Environment) (files : Files) (given : Draft) :
    Except Stop Plan → Prop
  | unreadable {path cause : String} (hFile : given.file = some path)
      (hText : files path = .error cause) :
      Resolves env files given (.error (.failure (.configuration (.unreadableFile path cause))))
  | malformed {path text : String} (hFile : given.file = some path)
      (hText : files path = .ok text) (hDraft : draftOfText? (substitute env text) = none) :
      Resolves env files given (.error (.failure (.configuration (.malformedFile path))))
  | settled {file : Draft} {v : Values} {result : Except Stop Plan}
      (hLoads : Loads env files given file) (hValues : v.Of given file)
      (hEnds : Ends v (fun plan => plan.Carries v ∧ plan.check = .ok ()) Condition.all result) :
      Resolves env files given result

section Resolving

variable {env : Environment} {files : Files} {given file : Draft} {v : Values}

theorem completes_of_loads (h : Loads env files given file) :
    Completes env files given (given.or file) := by
  cases h with
  | alone hFile => exact .alone hFile
  | loaded hFile hText hDraft =>
    refine .loaded hFile ?_
    unfold load
    rw [hText]
    dsimp only
    rw [hDraft]

/-- Where the file can be read, the conditions decide. -/
theorem ends_resolve (hLoads : Loads env files given file) (hValues : v.Of given file) :
    Ends v (fun plan => plan.Carries v ∧ plan.check = .ok ()) Condition.all
      (resolve env files given) := by
  rw [resolve_of_completes (completes_of_loads hLoads), hValues.eq]
  exact ends_toPlan _

theorem resolves_resolve (env : Environment) (files : Files) (given : Draft) :
    Resolves env files given (resolve env files given) := by
  have hSettled (file : Draft) (hLoads : Loads env files given file) :
      Resolves env files given (resolve env files given) :=
    .settled hLoads (values_of given file) (ends_resolve hLoads (values_of given file))
  cases hFile : given.file with
  | none => exact hSettled {} (.alone hFile)
  | some path =>
    cases hText : files path with
    | error cause =>
      have hFails : resolve env files given =
          .error (.failure (.configuration (.unreadableFile path cause))) := by
        unfold resolve load
        rw [hFile]
        dsimp only
        rw [hText]
        rfl
      rw [hFails]
      exact .unreadable hFile hText
    | ok text =>
      cases hDraft : draftOfText? (substitute env text) with
      | some file => exact hSettled file (.loaded hFile hText hDraft)
      | none =>
        have hFails : resolve env files given =
            .error (.failure (.configuration (.malformedFile path))) := by
          unfold resolve load
          rw [hFile]
          dsimp only
          rw [hText]
          dsimp only
          rw [hDraft]
          rfl
        rw [hFails]
        exact .malformed hFile hText hDraft

/-- The last condition is the one of the schedule. -/
theorem Condition.mem_before_beacon {before after : List Condition}
    (h : all = before ++ .beacon :: after) {c : Condition} (hOther : c ≠ .beacon) :
    c ∈ before := by
  have hLast : [key, recipient, amount, pause, endpoint, count, batchSize, slots] ++ [beacon] =
      before ++ beacon :: after := h
  obtain ⟨rfl, _, _⟩ := (List.append_cons_inj_of_notMem (by decide) (by decide)).mp hLast
  cases c <;> simp at hOther ⊢

theorem scheduling_iff (hLoads : Loads env files given file) (hValues : v.Of given file)
    {slots : List Nat} :
    resolve env files given = .error (.failure (.scheduling slots)) ↔
      slots = v.slots.map BitVec.toNat ∧ ¬Condition.beacon.Holds v ∧
        ∀ c, c ≠ Condition.beacon → c.Holds v := by
  have hEnds := ends_resolve hLoads hValues
  constructor
  · intro hResolve
    rw [hResolve] at hEnds
    obtain ⟨before, c, after, hAll, hBefore, hReport⟩ := hEnds.exists_refused
    obtain ⟨rfl, rfl⟩ := hReport.of_scheduling
    refine ⟨rfl, hReport.not_holds, ?_⟩
    intro c hOther
    exact hBefore c (Condition.mem_before_beacon hAll hOther)
  · rintro ⟨rfl, hNot, hOthers⟩
    obtain ⟨f, hResolve⟩ := hEnds.exists_failure (hOthers .amount (by decide))
      fun hAll => hNot (hAll .beacon (Condition.mem_all _))
    rw [hResolve] at hEnds
    obtain ⟨_, c, _, _, _, hReport⟩ := hEnds.exists_refused
    obtain rfl : c = .beacon := by
      by_contra hOther
      exact hReport.not_holds (hOthers c hOther)
    cases hReport
    exact hResolve

end Resolving

/-- Settings are accepted exactly if the file that they name can be read and all conditions hold of
the values, where what is given counts before the file and the file before what is fixed. The plan
carries the values and passes its check again. Otherwise the first condition that does not hold is
reported, or its amount overflows. A failure of the schedule means that all other conditions
hold. -/
theorem resolve_accepts_valid (env : Environment) (files : Files) (given : Draft) :
    Resolves env files given (resolve env files given) ∧
      ((∃ plan, resolve env files given = .ok plan) ↔
        ∃ file v, Loads env files given file ∧ v.Of given file ∧ ∀ c : Condition, c.Holds v) ∧
      (∀ plan, resolve env files given = .ok plan → ∃ file v, Loads env files given file ∧
        v.Of given file ∧ plan.Carries v ∧ plan.check = .ok ()) ∧
      ∀ slots, resolve env files given = .error (.failure (.scheduling slots)) ↔
        ∃ file v, Loads env files given file ∧ v.Of given file ∧
          slots = v.slots.map BitVec.toNat ∧ ¬Condition.beacon.Holds v ∧
          ∀ c, c ≠ Condition.beacon → c.Holds v := by
  have hResolves := resolves_resolve env files given
  refine ⟨hResolves, ⟨?_, ?_⟩, ?_, fun slots => ⟨?_, ?_⟩⟩
  · rintro ⟨plan, hPlan⟩
    rw [hPlan] at hResolves
    cases hResolves with
    | settled hLoads hValues hEnds =>
      exact ⟨_, _, hLoads, hValues, fun c => hEnds.accepted_iff.mp ⟨plan, rfl⟩ c c.mem_all⟩
  · rintro ⟨file, v, hLoads, hValues, hAll⟩
    exact (ends_resolve hLoads hValues).accepted_iff.mpr fun c _ => hAll c
  · intro plan hPlan
    rw [hPlan] at hResolves
    cases hResolves with
    | settled hLoads hValues hEnds => exact ⟨_, _, hLoads, hValues, hEnds.of_ok⟩
  · intro hFailed
    rw [hFailed] at hResolves
    cases hResolves with
    | settled hLoads hValues _ =>
      exact ⟨_, _, hLoads, hValues, (scheduling_iff hLoads hValues).mp hFailed⟩
  · rintro ⟨file, v, hLoads, hValues, hScheduling⟩
    exact (scheduling_iff hLoads hValues).mpr hScheduling

/-- Settings with a list of endpoints of which one is blank, and with two slots. -/
def twoSlots : Draft where
  privateKey := some "0xac0974bec39a17e36ba4a6b4d238ff944bacb478cbed5efcae784d7bf4f2ff80"
  recipient := some " 0x0000000000000000000000000000000000000001 "
  endpoints := ["", "http://127.0.0.1:8545"]
  slots := [31, 4]
  beacon := some " "

/-- A blank text is no endpoint that tells the time. -/
example : (match resolve (fun _ => none) (fun path => .error path) twoSlots with
    | .error (.failure f) => some f
    | _ => none) = some (.scheduling [31, 4]) := by decide +kernel

end Settings

end TxLoad
