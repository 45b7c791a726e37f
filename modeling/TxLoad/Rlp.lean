import TxLoad.Bytes

/-! # Recursive length prefixes

An item is a byte string or a list of items. Its encoding is a header, which holds the kind and the
length, and the payload; a byte below `0x80` is its own encoding. Reading accepts only the shortest
header for each length.
-/

namespace TxLoad.Rlp

inductive Item
  | bytes (content : Bytes)
  | list (items : List Item)
  deriving Repr, Inhabited

/-- The byte string of a number, without leading zeros. -/
def Item.nat (n : Nat) : Item := .bytes (Bytes.ofNat n)

/-- The header of a payload of `length` bytes. The header of a byte string starts at `0x80`, that of
a list at `0xc0`. -/
def header (start length : Nat) : Bytes :=
  if length < 56 then [UInt8.ofNat (start + length)]
  else
    let digits := Bytes.ofNat length
    UInt8.ofNat (start + 55 + digits.length) :: digits

def encodeBytes : Bytes → Bytes
  | [byte] => if byte < 0x80 then [byte] else header 0x80 1 ++ [byte]
  | content => header 0x80 content.length ++ content

def wrapList (payload : Bytes) : Bytes := header 0xc0 payload.length ++ payload

mutual

def encode : Item → Bytes
  | .bytes content => encodeBytes content
  | .list items => wrapList (encodeAll items)

def encodeAll : List Item → Bytes
  | [] => []
  | item :: rest => encode item ++ encodeAll rest

end

/-! ## Reading -/

inductive Kind
  | bytes
  | list
  deriving DecidableEq, Repr

/-- The payload of an item of `length` bytes and what comes after it. -/
def cut (kind : Kind) (length : Nat) (rest : Bytes) : Option (Kind × Bytes × Bytes) :=
  if rest.length < length then none else some (kind, rest.take length, rest.drop length)

/-- Reads a length of `digits` bytes and the payload; a length that a short header could hold, or
that starts with a zero byte, is refused. -/
def cutLong (kind : Kind) (digits : Nat) (rest : Bytes) : Option (Kind × Bytes × Bytes) :=
  let length := Bytes.toNat (rest.take digits)
  if rest.length < digits || rest.head? = some 0x00 || length < 56 then none
  else cut kind length (rest.drop digits)

/-- The first item of a text: its kind, its payload and the rest. -/
def split? : Bytes → Option (Kind × Bytes × Bytes)
  | [] => none
  | byte :: rest =>
    let n := byte.toNat
    if n < 0x80 then some (.bytes, [byte], rest)
    else if n ≤ 0xb7 then
      if n = 0x81 && rest.headD 0x80 < 0x80 then none else cut .bytes (n - 0x80) rest
    else if n ≤ 0xbf then cutLong .bytes (n - 0xb7) rest
    else if n ≤ 0xf7 then cut .list (n - 0xc0) rest
    else cutLong .list (n - 0xf7) rest

theorem cut_length {kind k : Kind} {length : Nat} {text payload rest : Bytes}
    (h : cut kind length text = some (k, payload, rest)) :
    payload.length + rest.length = text.length := by
  unfold cut at h
  split at h
  · cases h
  · simp only [Option.some.injEq, Prod.mk.injEq] at h
    obtain ⟨_, rfl, rfl⟩ := h
    simp only [List.length_take, List.length_drop]
    omega

theorem cutLong_length {kind k : Kind} {digits : Nat} {text payload rest : Bytes}
    (h : cutLong kind digits text = some (k, payload, rest)) :
    payload.length + rest.length ≤ text.length := by
  unfold cutLong at h
  dsimp only at h
  split at h
  · cases h
  · have hCut := cut_length h
    simp only [List.length_drop] at hCut
    omega

/-- Only a single byte can be its own payload. -/
theorem split?_length {text payload rest : Bytes} {kind : Kind}
    (h : split? text = some (kind, payload, rest)) :
    rest.length < text.length ∧ (kind = .list → payload.length < text.length) := by
  cases text with
  | nil => cases h
  | cons byte tail =>
    unfold split? at h
    dsimp only at h
    simp only [List.length_cons]
    split at h
    · simp only [Option.some.injEq, Prod.mk.injEq] at h
      obtain ⟨rfl, _, rfl⟩ := h
      exact ⟨by omega, by simp⟩
    · split at h
      · split at h
        · cases h
        · have hCut := cut_length h
          exact ⟨by omega, fun _ => by omega⟩
      · split at h
        · have hCut := cutLong_length h
          exact ⟨by omega, fun _ => by omega⟩
        · split at h
          · have hCut := cut_length h
            exact ⟨by omega, fun _ => by omega⟩
          · have hCut := cutLong_length h
            exact ⟨by omega, fun _ => by omega⟩

/-- The items that a text consists of. -/
def decodeAll (text : Bytes) : Option (List Item) :=
  match _ : split? text with
  | none => if text.isEmpty then some [] else none
  | some (.bytes, payload, rest) => (.bytes payload :: ·) <$> decodeAll rest
  | some (.list, payload, rest) => do
    let items ← decodeAll payload
    let others ← decodeAll rest
    return .list items :: others
termination_by text.length
decreasing_by
  · exact (split?_length (by assumption)).1
  · exact (split?_length (by assumption)).2 rfl
  · exact (split?_length (by assumption)).1

def decode? (text : Bytes) : Option Item :=
  match decodeAll text with
  | some [item] => some item
  | _ => none

end TxLoad.Rlp
