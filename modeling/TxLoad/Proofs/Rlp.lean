import TxLoad.Proofs.Bytes
import TxLoad.Rlp

/-! # Items read back from their encoding

The encoding of an item can be told from what follows it: `split?` finds its kind, its payload and
the rest. So a list of items is read back from its encoding, however deep the items are nested. A
header has room for eight bytes of length, so this holds of encodings shorter than `2 ^ 64`.
-/

namespace TxLoad.Rlp

/-! ## Headers -/

/-- The number at which the headers of a kind start. -/
def Kind.start : Kind → Nat
  | .bytes => 0x80
  | .list => 0xc0

theorem cut_append (kind : Kind) (payload rest : Bytes) :
    cut kind payload.length (payload ++ rest) = some (kind, payload, rest) := by
  unfold cut
  rw [List.length_append, if_neg (by omega), List.take_left, List.drop_left]

/-- The first byte of a short header tells the kind and the length. -/
theorem split?_short {kind : Kind} {length : Nat} {tail : Bytes} (hShort : length < 56)
    (hBare : kind = .bytes → length = 1 → ¬tail.headD 0x80 < 0x80) :
    split? (UInt8.ofNat (kind.start + length) :: tail) = cut kind length tail := by
  unfold split?
  dsimp only
  cases kind with
  | bytes =>
    have hByte : (UInt8.ofNat (0x80 + length)).toNat = 0x80 + length :=
      UInt8.toNat_ofNat_of_lt (show 0x80 + length < 256 by omega)
    have hNotBare : ¬(decide (0x80 + length = 0x81) && decide (tail.headD 0x80 < 0x80)) = true := by
      rw [Bool.and_eq_true, decide_eq_true_eq, decide_eq_true_eq]
      rintro ⟨hOne, hBelow⟩
      exact hBare rfl (by omega) hBelow
    rw [Kind.start, hByte, if_neg (by omega), if_pos (by omega), if_neg hNotBare,
      Nat.add_sub_cancel_left]
  | list =>
    have hByte : (UInt8.ofNat (0xc0 + length)).toNat = 0xc0 + length :=
      UInt8.toNat_ofNat_of_lt (show 0xc0 + length < 256 by omega)
    rw [Kind.start, hByte, if_neg (by omega), if_neg (by omega), if_neg (by omega),
      if_pos (by omega), Nat.add_sub_cancel_left]

/-- The first byte of a long header tells the kind and how many bytes the length has. -/
theorem split?_long {kind : Kind} {digits : Nat} {tail : Bytes} (hPos : 0 < digits)
    (hLe : digits ≤ 8) :
    split? (UInt8.ofNat (kind.start + 55 + digits) :: tail) = cutLong kind digits tail := by
  unfold split?
  dsimp only
  cases kind with
  | bytes =>
    have hByte : (UInt8.ofNat (0x80 + 55 + digits)).toNat = 0x80 + 55 + digits :=
      UInt8.toNat_ofNat_of_lt (show 0x80 + 55 + digits < 256 by omega)
    rw [Kind.start, hByte, if_neg (by omega), if_neg (by omega), if_pos (by omega),
      Nat.add_sub_cancel_left]
  | list =>
    have hByte : (UInt8.ofNat (0xc0 + 55 + digits)).toNat = 0xc0 + 55 + digits :=
      UInt8.toNat_ofNat_of_lt (show 0xc0 + 55 + digits < 256 by omega)
    rw [Kind.start, hByte, if_neg (by omega), if_neg (by omega), if_neg (by omega),
      if_neg (by omega), Nat.add_sub_cancel_left]

theorem cutLong_append (kind : Kind) {payload : Bytes} (rest : Bytes)
    (hLong : 56 ≤ payload.length) :
    cutLong kind (Bytes.ofNat payload.length).length
      (Bytes.ofNat payload.length ++ (payload ++ rest)) = some (kind, payload, rest) := by
  have hHead : (Bytes.ofNat payload.length ++ (payload ++ rest)).head? ≠ some 0x00 := by
    have hOwn := Bytes.head?_ofNat_ne_zero payload.length
    cases hDigits : Bytes.ofNat payload.length with
    | nil =>
      have hZero := Bytes.ofNat_eq_nil_iff.mp hDigits
      omega
    | cons byte others =>
      rw [hDigits] at hOwn
      exact hOwn
  unfold cutLong
  dsimp only
  rw [List.take_left, List.drop_left, Bytes.toNat_ofNat, List.length_append, if_neg, cut_append]
  simp only [Bool.or_eq_true, decide_eq_true_eq]
  rintro ((hLength | hZero) | hShort)
  · omega
  · exact hHead hZero
  · omega

/-- A header tells the payload behind it from what follows. A byte that is its own encoding has no
header. -/
theorem split?_header {kind : Kind} {payload : Bytes} (rest : Bytes)
    (hFits : payload.length < 2 ^ 64)
    (hBare : kind = .bytes → payload.length = 1 → ¬payload.headD 0x80 < 0x80) :
    split? (header kind.start payload.length ++ (payload ++ rest)) =
      some (kind, payload, rest) := by
  unfold header
  split
  · rename_i hShort
    rw [List.singleton_append, split?_short hShort, cut_append]
    intro hBytes hOne
    cases payload with
    | nil => cases hOne
    | cons byte others => exact hBare hBytes hOne
  · rename_i hLong
    have hPos : 0 < (Bytes.ofNat payload.length).length := by
      refine List.length_pos_iff.mpr fun hNil => ?_
      have hZero := Bytes.ofNat_eq_nil_iff.mp hNil
      omega
    have hLe : (Bytes.ofNat payload.length).length ≤ 8 := Bytes.length_ofNat_le hFits
    dsimp only
    rw [List.cons_append, split?_long hPos hLe, cutLong_append kind rest (by omega)]

/-! ## Items -/

def Item.kind : Item → Kind
  | .bytes _ => .bytes
  | .list _ => .list

/-- What stands behind the header of an item. -/
def Item.payload : Item → Bytes
  | .bytes content => content
  | .list items => encodeAll items

/-- An encoding is a header and the payload, except that a byte below `0x80` stands for itself. -/
theorem encode_cases (item : Item) :
    (∃ byte : UInt8, byte < 0x80 ∧ item = .bytes [byte] ∧ encode item = [byte]) ∨
      (item.kind = .bytes → item.payload.length = 1 → ¬item.payload.headD 0x80 < 0x80) ∧
        encode item = header item.kind.start item.payload.length ++ item.payload := by
  cases item with
  | bytes content =>
    rw [encode]
    unfold encodeBytes
    split
    · rename_i byte
      by_cases hBare : byte < 0x80
      · exact .inl ⟨byte, hBare, rfl, if_pos hBare⟩
      · exact .inr ⟨fun _ _ => hBare, if_neg hBare⟩
    · rename_i hNotOne
      refine .inr ⟨fun _ hOne => ?_, rfl⟩
      obtain ⟨byte, rfl⟩ := List.length_eq_one_iff.mp hOne
      exact absurd rfl (hNotOne byte)
  | list items =>
    rw [encode]
    exact .inr ⟨nofun, rfl⟩

theorem length_payload_le (item : Item) : item.payload.length ≤ (encode item).length := by
  rcases encode_cases item with ⟨byte, _, rfl, hEncode⟩ | ⟨_, hEncode⟩
  · rw [hEncode]
    exact Nat.le_refl 1
  · rw [hEncode, List.length_append]
    omega

/-- The encoding of an item is told from what follows it. -/
theorem split?_encode_append {item : Item} (rest : Bytes)
    (hFits : (encode item).length < 2 ^ 64) :
    split? (encode item ++ rest) = some (item.kind, item.payload, rest) := by
  rcases encode_cases item with ⟨byte, hBare, rfl, hEncode⟩ | ⟨hNotBare, hEncode⟩
  · have hBelow : byte.toNat < 0x80 := hBare
    rw [hEncode]
    unfold split?
    exact if_pos hBelow
  · have hPayload := length_payload_le item
    rw [hEncode, List.append_assoc, split?_header rest (by omega) hNotBare]

/-! ## Reading a list of items -/

theorem decodeAll_nil : decodeAll [] = some [] := by
  rw [decodeAll]
  rfl

theorem decodeAll_of_split?_bytes {text payload rest : Bytes}
    (h : split? text = some (.bytes, payload, rest)) :
    decodeAll text = (.bytes payload :: ·) <$> decodeAll rest := by
  rw [decodeAll]
  split
  · rename_i hNone
    cases hNone.symm.trans h
  · rename_i hSome
    cases hSome.symm.trans h
    rfl
  · rename_i hSome
    cases hSome.symm.trans h

theorem decodeAll_of_split?_list {text payload rest : Bytes}
    (h : split? text = some (.list, payload, rest)) :
    decodeAll text = do
      let items ← decodeAll payload
      let others ← decodeAll rest
      return .list items :: others := by
  rw [decodeAll]
  split
  · rename_i hNone
    cases hNone.symm.trans h
  · rename_i hSome
    cases hSome.symm.trans h
  · rename_i hSome
    cases hSome.symm.trans h
    rfl

mutual

theorem decodeAll_encode_append (item : Item) {rest : Bytes} {others : List Item}
    (hFits : (encode item).length < 2 ^ 64) (hRest : decodeAll rest = some others) :
    decodeAll (encode item ++ rest) = some (item :: others) := by
  have hSplit := split?_encode_append rest hFits
  cases item with
  | bytes content => rw [decodeAll_of_split?_bytes hSplit, hRest]; rfl
  | list items =>
    have hPayload := length_payload_le (.list items)
    have hItems : decodeAll (Item.list items).payload = some items :=
      decodeAll_encodeAll items (Nat.lt_of_le_of_lt hPayload hFits)
    rw [decodeAll_of_split?_list hSplit, hItems, hRest]
    rfl

/-- Items are read back from their encoding. -/
theorem decodeAll_encodeAll (items : List Item) (hFits : (encodeAll items).length < 2 ^ 64) :
    decodeAll (encodeAll items) = some items := by
  cases items with
  | nil => exact decodeAll_nil
  | cons item rest =>
    rw [encodeAll, List.length_append] at hFits
    rw [encodeAll]
    exact decodeAll_encode_append item (by omega) (decodeAll_encodeAll rest (by omega))

end

/-- An item is read back from its encoding. -/
theorem decode?_encode {item : Item} (hFits : (encode item).length < 2 ^ 64) :
    decode? (encode item) = some item := by
  have hOne := decodeAll_encode_append item hFits decodeAll_nil
  rw [List.append_nil] at hOne
  unfold decode?
  rw [hOne]

end TxLoad.Rlp
