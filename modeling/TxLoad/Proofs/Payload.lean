import TxLoad.Proofs.Rlp
import TxLoad.Transfer

/-! # What a signed payload says

Every reader of a payload undoes the writer of the same part, from a word up to the list of all
fields, so a signed payload is read back as the fields of the request and the signature that was
made of just these fields. Two requests whose fields differ have different payloads, whoever signs
them.
-/

namespace TxLoad

/-! ## Reading what was written -/

open Rlp (Item)

theorem readWord?_nat {width n : Nat} (h : n < wordCount width) :
    readWord? width (.nat n) = some (BitVec.ofNat width n) := by
  unfold readWord? Item.nat
  dsimp only
  rw [if_neg (Bytes.head?_ofNat_ne_zero n), Bytes.toNat_ofNat, if_pos h]

@[simp] theorem readWord?_toNat {width : Nat} (word : BitVec width) :
    readWord? width (.nat word.toNat) = some word := by
  rw [readWord?_nat word.isLt, BitVec.ofNat_toNat, BitVec.setWidth_eq]

@[simp] theorem readAddress?_bytes (address : Address) :
    readAddress? (.bytes address.bytes) = some address := by
  unfold readAddress?
  dsimp only
  rw [if_pos address.length_bytes, address.toNat_bytes, BitVec.ofNat_toNat, BitVec.setWidth_eq]

@[simp] theorem readHash?_bytes (hash : Hash) : readHash? (.bytes hash.bytes) = some hash := by
  unfold readHash?
  dsimp only
  rw [if_pos hash.length_bytes, hash.toNat_bytes, BitVec.ofNat_toNat, BitVec.setWidth_eq]

@[simp] theorem readRecipient?_elim (recipient : Option Address) :
    readRecipient? (.bytes (recipient.elim [] Address.bytes)) = some recipient := by
  cases recipient with
  | none => rfl
  | some address =>
    have hRead := readAddress?_bytes address
    have hLength := address.length_bytes
    show readRecipient? (.bytes address.bytes) = _
    cases hBytes : address.bytes with
    | nil =>
      rw [hBytes] at hLength
      cases hLength
    | cons byte rest =>
      rw [hBytes] at hRead
      show some <$> readAddress? (.bytes (byte :: rest)) = _
      rw [hRead]
      rfl

/-- Elements that are read back one by one are read back together. -/
theorem mapM_map_eq_some {α β : Type} {write : α → β} {read : β → Option α}
    (h : ∀ a, read (write a) = some a) (l : List α) : (l.map write).mapM read = some l := by
  induction l with
  | nil => rfl
  | cons a rest ih =>
    rw [List.map_cons, List.mapM_cons, h, ih]
    rfl

@[simp] theorem readAccessEntry?_item (entry : AccessEntry) :
    readAccessEntry? entry.item = some entry := by
  unfold readAccessEntry? AccessEntry.item
  dsimp only
  rw [readAddress?_bytes, mapM_map_eq_some readHash?_bytes]
  rfl

@[simp] theorem Fields.ofItems?_items (f : Fields) : Fields.ofItems? f.items = some f := by
  unfold Fields.ofItems? Fields.items
  simp only [readWord?_toNat, readRecipient?_elim, mapM_map_eq_some readAccessEntry?_item]
  rfl

theorem readSignature?_signatureItems {signature : Crypto.Signature}
    (hR : signature.r < 2 ^ 256) (hS : signature.s < 2 ^ 256) :
    readSignature? (signatureItems signature) = some signature := by
  obtain ⟨odd, r, s⟩ := signature
  have hParity : readWord? 1 (.nat odd.toNat) = some (BitVec.ofBool odd) := by
    cases odd <;> exact readWord?_nat (by decide)
  unfold readSignature? signatureItems
  dsimp only at hR hS ⊢
  rw [hParity, readWord?_nat hR, readWord?_nat hS]
  show some (Crypto.Signature.mk _ (BitVec.ofNat 256 r).toNat (BitVec.ofNat 256 s).toNat) = _
  rw [BitVec.toNat_ofNat, BitVec.toNat_ofNat, Nat.mod_eq_of_lt hR, Nat.mod_eq_of_lt hS]
  cases odd <;> rfl

/-- The list of a signed payload, read back: the fields' nine items and the signature's three. -/
theorem decode?_signedPayload {f : Fields} {signature : Crypto.Signature}
    (hFits : (signedPayload f signature).length < 2 ^ 64) :
    Rlp.decode? (signedPayload f signature).tail =
      some (.list (f.items ++ signatureItems signature)) := by
  refine Rlp.decode?_encode ?_
  have hLength : (signedPayload f signature).length =
      (Rlp.encode (.list (f.items ++ signatureItems signature))).length + 1 := rfl
  omega

/-- A signed payload is read back. -/
theorem readPayload?_signedPayload {f : Fields} {signature : Crypto.Signature}
    (hR : signature.r < 2 ^ 256) (hS : signature.s < 2 ^ 256)
    (hFits : (signedPayload f signature).length < 2 ^ 64) :
    readPayload? (signedPayload f signature) = some (f, signature) := by
  have hDecode : Rlp.decode? (Rlp.encode (.list (f.items ++ signatureItems signature))) = _ :=
    decode?_signedPayload hFits
  have hFields : Fields.ofItems? ((f.items ++ signatureItems signature).take 9) = some f :=
    f.ofItems?_items
  have hSignature :
      readSignature? ((f.items ++ signatureItems signature).drop 9) = some signature :=
    readSignature?_signatureItems hR hS
  unfold readPayload? signedPayload
  dsimp only
  rw [if_neg (not_not_intro rfl), hDecode]
  dsimp only
  rw [hFields, hSignature]
  rfl

/-! ## The length of a payload -/

theorem Rlp.length_header_le (start : Nat) {length : Nat} (h : length < 2 ^ 64) :
    (header start length).length ≤ 9 := by
  have hDigits : (Bytes.ofNat length).length ≤ 8 := Bytes.length_ofNat_le h
  unfold header
  split
  · exact Nat.le_add_left 1 8
  · dsimp only
    rw [List.length_cons]
    omega

/-- An item is at most nine bytes longer than what stands behind its header. -/
theorem Rlp.length_encode_le (item : Item) (h : item.payload.length < 2 ^ 64) :
    (encode item).length ≤ item.payload.length + 9 := by
  rcases encode_cases item with ⟨byte, _, rfl, hEncode⟩ | ⟨_, hEncode⟩
  · rw [hEncode]
    exact Nat.le_add_left 1 9
  · have hHeader := length_header_le item.kind.start h
    rw [hEncode, List.length_append]
    omega

theorem Rlp.length_encode_bytes_le (content : Bytes) (h : content.length < 2 ^ 64) :
    (encode (.bytes content)).length ≤ content.length + 9 :=
  length_encode_le (.bytes content) h

theorem Rlp.length_encode_list_le (items : List Item) (h : (encodeAll items).length < 2 ^ 64) :
    (encode (.list items)).length ≤ (encodeAll items).length + 9 :=
  length_encode_le (.list items) h

theorem Rlp.encodeAll_append (items others : List Item) :
    encodeAll (items ++ others) = encodeAll items ++ encodeAll others := by
  induction items with
  | nil => rfl
  | cons item rest ih => rw [List.cons_append, encodeAll, encodeAll, ih, List.append_assoc]

theorem length_encode_nat_le {n : Nat} (h : n < 2 ^ 256) :
    (Rlp.encode (.nat n)).length ≤ 41 := by
  have hDigits : (Bytes.ofNat n).length ≤ 32 := Bytes.length_ofNat_le h
  have hEncode := Rlp.length_encode_bytes_le (Bytes.ofNat n) (by omega)
  exact Nat.le_trans hEncode (by omega)

theorem length_encode_recipient_le (recipient : Option Address) :
    (Rlp.encode (.bytes (recipient.elim [] Address.bytes))).length ≤ 29 := by
  have hBytes : (recipient.elim [] Address.bytes).length ≤ 20 := by
    cases recipient with
    | none => exact Nat.zero_le 20
    | some address => exact Nat.le_of_eq address.length_bytes
  have hEncode := Rlp.length_encode_bytes_le (recipient.elim [] Address.bytes) (by omega)
  omega

/-- The memory of an entry: its address, its list and the keys. -/
def AccessEntry.footprint (e : AccessEntry) : Nat := 48 + 32 * e.storageKeys.length

/-- The memory of the parts of open length. -/
def Fields.footprint (f : Fields) : Nat :=
  f.data.length + (f.accessList.map AccessEntry.footprint).sum

theorem length_encodeAll_keys_le (keys : List Hash) :
    (Rlp.encodeAll (keys.map fun key => .bytes key.bytes)).length ≤ 41 * keys.length := by
  induction keys with
  | nil => exact Nat.zero_le _
  | cons key rest ih =>
    have hKey := key.length_bytes
    have hEncode := Rlp.length_encode_bytes_le key.bytes (by omega)
    rw [List.map_cons, Rlp.encodeAll, List.length_append, List.length_cons]
    omega

theorem AccessEntry.length_encode_le {e : AccessEntry} (h : e.footprint < 2 ^ 63) :
    2 * (Rlp.encode e.item).length ≤ 3 * e.footprint := by
  unfold AccessEntry.footprint at h ⊢
  have hAddress := length_encode_recipient_le (some e.address)
  have hKeys := length_encodeAll_keys_le e.storageKeys
  have hList := Rlp.length_encode_list_le
    (e.storageKeys.map fun key => .bytes key.bytes) (by omega)
  have hAll : (Rlp.encodeAll [.bytes e.address.bytes,
      .list (e.storageKeys.map fun key => .bytes key.bytes)]).length ≤
        41 * e.storageKeys.length + 38 := by
    rw [Rlp.encodeAll, Rlp.encodeAll, Rlp.encodeAll, List.append_nil, List.length_append]
    exact Nat.le_trans (Nat.add_le_add hAddress hList) (by omega)
  have hEntry := Rlp.length_encode_list_le [.bytes e.address.bytes,
    .list (e.storageKeys.map fun key => .bytes key.bytes)] (by omega)
  unfold AccessEntry.item
  omega

theorem length_encodeAll_accessList_le (entries : List AccessEntry)
    (h : (entries.map AccessEntry.footprint).sum < 2 ^ 63) :
    2 * (Rlp.encodeAll (entries.map AccessEntry.item)).length ≤
      3 * (entries.map AccessEntry.footprint).sum := by
  induction entries with
  | nil => exact Nat.zero_le _
  | cons e rest ih =>
    rw [List.map_cons, List.sum_cons] at h
    have hFirst := e.length_encode_le (by omega)
    have hRest := ih (by omega)
    rw [List.map_cons, List.map_cons, List.sum_cons, Rlp.encodeAll, List.length_append]
    omega

theorem Fields.length_encodeAll_items_le {f : Fields} (h : f.footprint < 2 ^ 63) :
    2 * (Rlp.encodeAll f.items).length ≤ 3 * f.footprint + 600 := by
  change f.data.length + (f.accessList.map AccessEntry.footprint).sum < 2 ^ 63 at h
  have hChain := length_encode_nat_le (Nat.lt_trans f.chainId.isLt (by decide))
  have hNonce := length_encode_nat_le f.nonce.isLt
  have hPriority := length_encode_nat_le f.priorityFee.isLt
  have hMax := length_encode_nat_le f.maxFee.isLt
  have hGas := length_encode_nat_le f.gasLimit.isLt
  have hRecipient := length_encode_recipient_le f.recipient
  have hValue := length_encode_nat_le f.value.isLt
  have hData := Rlp.length_encode_bytes_le f.data (by omega)
  have hEntries := length_encodeAll_accessList_le f.accessList (by omega)
  have hList := Rlp.length_encode_list_le (f.accessList.map AccessEntry.item) (by omega)
  unfold Fields.items Fields.footprint
  simp only [Rlp.encodeAll, List.length_append, List.length_nil]
  omega

/-- A request that fits half of the addresses of 64 bits has a payload that the format can hold. -/
theorem length_signedPayload_lt {f : Fields} {signature : Crypto.Signature}
    (hFootprint : f.footprint < 2 ^ 63) (hR : signature.r < 2 ^ 256)
    (hS : signature.s < 2 ^ 256) : (signedPayload f signature).length < 2 ^ 64 := by
  have hItems := f.length_encodeAll_items_le hFootprint
  have hOdd := length_encode_nat_le (n := signature.odd.toNat)
    (Nat.lt_of_le_of_lt (Bool.toNat_le _) (by decide))
  have hROwn := length_encode_nat_le hR
  have hSOwn := length_encode_nat_le hS
  have hAll : (Rlp.encodeAll (f.items ++ signatureItems signature)).length ≤
      (Rlp.encodeAll f.items).length + 123 := by
    rw [Rlp.encodeAll_append, List.length_append]
    unfold signatureItems
    simp only [Rlp.encodeAll, List.length_append, List.length_nil]
    omega
  have hEncode := Rlp.length_encode_list_le
    (f.items ++ signatureItems signature) (by omega)
  show (Rlp.encode (.list (f.items ++ signatureItems signature))).length + 1 < 2 ^ 64
  omega

end TxLoad
