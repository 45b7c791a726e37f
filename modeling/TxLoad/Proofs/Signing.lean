import TxLoad.Proofs.Payload

/-! # A signed transfer says what was requested

Signing succeeds for every request that has a nonce of 64 bits and a chain whose id leaves room for
the parity, and the payload then says exactly what the request comes to: read back, it is the fields
of the request and the signature of the digest of just these fields.
-/

namespace TxLoad

open Rlp (Item)

/-! ## Signatures -/

namespace Crypto

open Curve

/-- Both numbers of a signature lie in the group and the second is in its lower half. -/
structure Signature.IsLow (signature : Signature) : Prop where
  r_pos : 0 < signature.r
  r_lt : signature.r < groupOrder
  s_pos : 0 < signature.s
  s_le : signature.s ≤ groupOrder / 2

theorem isLow_of_signWith? {key nonce : Scalar} {digest : Nat} {signature : Signature}
    (h : signWith? key nonce digest = some signature) : signature.IsLow := by
  unfold signWith? at h
  obtain ⟨point, _, h⟩ := Option.bind_eq_some_iff.mp h
  have hR : point.x % groupOrder < groupOrder := Nat.mod_lt _ (by decide)
  have hS : inverseMod nonce.value groupOrder * (digest + point.x % groupOrder * key.value) %
      groupOrder < groupOrder := Nat.mod_lt _ (by decide)
  dsimp only at h
  generalize point.x % groupOrder = r at h hR hS
  generalize inverseMod nonce.value groupOrder * (digest + r * key.value) % groupOrder = s at h hS
  split at h
  · cases h
  · rename_i hNonzero
    simp only [Bool.or_eq_true, decide_eq_true_eq, not_or] at hNonzero
    split at h
    · rename_i hLow
      cases h
      exact ⟨Nat.pos_of_ne_zero hNonzero.1, hR, Nat.pos_of_ne_zero hNonzero.2, hLow⟩
    · rename_i hHigh
      have hOdd : groupOrder = 2 * (groupOrder / 2) + 1 := by decide
      have hRest : groupOrder - s ≤ groupOrder / 2 := by omega
      cases h
      exact ⟨Nat.pos_of_ne_zero hNonzero.1, hR, Nat.sub_pos_of_lt hS, hRest⟩

theorem isLow_signFrom (key : Scalar) (digest tries : Nat) (d : Derivation) :
    (signFrom key digest tries d).IsLow := by
  induction tries generalizing d with
  | zero =>
    unfold signFrom
    cases hSign : signWith? key (.ofNat (Bytes.toNat d.chained)) digest with
    | none => exact ⟨by decide, by decide, by decide, by decide⟩
    | some signature => exact isLow_of_signWith? hSign
  | succ tries ih =>
    unfold signFrom
    dsimp only
    split
    · rename_i signature hSign
      obtain ⟨nonce, _, hSign⟩ := Option.bind_eq_some_iff.mp hSign
      exact isLow_of_signWith? hSign
    · exact ih _

theorem isLow_sign (key : Scalar) (digest : Hash) : (key.sign digest).IsLow :=
  isLow_signFrom key _ _ _

theorem Signature.IsLow.fits {signature : Signature} (h : signature.IsLow) :
    signature.r < 2 ^ 256 ∧ signature.s < 2 ^ 256 := by
  have hOrder : groupOrder < 2 ^ 256 := by decide
  have hR := h.r_lt
  have hS := h.s_le
  omega

end Crypto

/-! ## Signing -/

/-- The parity is bound to a chain by adding twice the chain's id and 35. -/
theorem chainBoundParity_eq_ok_iff {signature : Crypto.Signature} {chainId parity : Word64} :
    chainBoundParity signature chainId = .ok parity ↔
      parity.toNat = 35 + signature.odd.toNat + chainId.toNat * 2 := by
  have hOdd : (BitVec.ofNat 64 (35 + signature.odd.toNat)).toNat = 35 + signature.odd.toNat := by
    cases signature.odd <;> rfl
  have hTwo : (2 : Word64).toNat = 2 := rfl
  unfold chainBoundParity Word64.times
  cases hDoubled : fit 64 .mulOverflow (chainId.toNat * (2 : Word64).toNat) with
  | error f =>
    have hOut : 2 ^ 64 ≤ chainId.toNat * 2 := (fit_eq_error_iff.mp hDoubled).1
    have hParity := parity.isLt
    refine ⟨nofun, fun h => ?_⟩
    omega
  | ok doubled =>
    have hValue := fit_eq_ok_iff.mp hDoubled
    show fit 64 _ _ = _ ↔ _
    rw [fit_eq_ok_iff, hOdd, hValue, hTwo]

theorem exists_chainBoundParity (signature : Crypto.Signature) (chainId : Word64)
    (hRoom : 2 * chainId.toNat + 36 < 2 ^ 64) :
    ∃ parity, chainBoundParity signature chainId = .ok parity := by
  have hOdd := Bool.toNat_le signature.odd
  refine ⟨BitVec.ofNat 64 (35 + signature.odd.toNat + chainId.toNat * 2),
    chainBoundParity_eq_ok_iff.mpr ?_⟩
  rw [BitVec.toNat_ofNat, Nat.mod_eq_of_lt (by omega)]

/-- Signing a request succeeds if it has a nonce of 64 bits and a chain whose id leaves room for the
parity. The transfer keeps the request, and its payload holds the signature of the digest of what
the request comes to. -/
theorem Account.sign_eq_ok_iff {account : Account} {request : Request}
    {transfer : SignedTransfer} :
    account.sign request = .ok transfer ↔
      (∃ wide, request.nonce = some wide ∧ transfer.nonce.toNat = wide.toNat) ∧
      (∃ chainId parity, request.chainId = some chainId ∧ chainBoundParity
        (account.key.sign request.fields.signingDigest) chainId = .ok parity) ∧
      transfer.payload = signedPayload request.fields
        (account.key.sign request.fields.signingDigest) ∧
      transfer.hash = keccak256 transfer.payload ∧ transfer.request = request := by
  unfold Account.sign
  cases hNonce : request.nonce with
  | none => exact ⟨nofun, fun ⟨⟨_, hNone, _⟩, _⟩ => nomatch hNone⟩
  | some wide =>
    show ((Word256.narrow wide).mapError Stop.fault >>= fun _ => _) = _ ↔ _
    cases hNarrow : Word256.narrow wide with
    | error f =>
      refine ⟨nofun, fun ⟨⟨_, hSome, hValue⟩, _⟩ => ?_⟩
      cases hSome
      cases hNarrow.symm.trans (fit_eq_ok_iff.mpr hValue)
    | ok nonce =>
      cases hChain : request.chainId with
      | none => exact ⟨nofun, fun ⟨_, ⟨_, _, hNone, _⟩, _⟩ => nomatch hNone⟩
      | some chainId =>
        show ((chainBoundParity _ chainId).mapError Stop.fault >>= fun _ => _) = _ ↔ _
        cases hParity : chainBoundParity
            (account.key.sign request.fields.signingDigest) chainId with
        | error f =>
          refine ⟨nofun, fun ⟨_, ⟨_, _, hSome, hOk⟩, _⟩ => ?_⟩
          cases hSome
          cases hParity.symm.trans hOk
        | ok parity =>
          constructor
          · intro h
            cases h
            exact ⟨⟨wide, rfl, fit_eq_ok_iff.mp hNarrow⟩, ⟨chainId, parity, rfl, hParity⟩, rfl,
              rfl, rfl⟩
          · rintro ⟨⟨_, hSome, hValue⟩, _, hPayload, hHash, hRequest⟩
            cases hSome
            obtain rfl : nonce = transfer.nonce :=
              BitVec.eq_of_toNat_eq ((fit_eq_ok_iff.mp hNarrow).trans hValue.symm)
            obtain ⟨nonce, hash, payload, own⟩ := transfer
            dsimp only at hPayload hHash hRequest
            subst hPayload hHash hRequest
            rfl

/-- How a payload is read, and what it was made of: the items of the fields, and the signature. -/
structure SignedTransfer.Says (transfer : SignedTransfer) (account : Account) (request : Request)
    (items : List Item) (signature : Crypto.Signature) : Prop where
  /-- The items are what is requested, an open number as zero and an open recipient as nothing. -/
  requested : items = [.nat (request.chainId.getD 0).toNat, .nat (request.nonce.getD 0).toNat,
    .nat (request.priorityFee.getD 0).toNat, .nat (request.maxFee.getD 0).toNat,
    .nat (request.gasLimit.getD 0).toNat, .bytes (request.recipient.elim [] Address.bytes),
    .nat (request.value.getD 0).toNat, .bytes (request.data.getD []),
    .list (request.accessList.map AccessEntry.item)]
  /-- The payload is a mark and a list of these items, the parity bit and two numbers. -/
  decoded : transfer.payload.head? = some 0x02 ∧ Rlp.decode? transfer.payload.tail =
    some (.list (items ++ [.nat signature.odd.toNat, .nat signature.r, .nat signature.s]))
  /-- The parity bit is what is left of the number that carries it for the chain. -/
  unbound : ∃ parity, chainBoundParity signature (request.chainId.getD 0) = .ok parity ∧
    signature.odd.toNat = parity.toNat - (2 * (request.chainId.getD 0).toNat + 35)
  low : signature.IsLow
  /-- What is signed is the digest of the mark and a list of the items without the signature. -/
  signed : signature = account.key.sign (keccak256 (0x02 :: Rlp.encode (.list items)))
  read : readPayload? transfer.payload = some (request.fields, signature)
  /-- If the signature leads back to the account, so does the payload. -/
  sender : signature.recover? (keccak256 (0x02 :: Rlp.encode (.list items))) =
      some account.address → payloadSender? transfer.payload = some account.address
  /-- No request that comes to something else has the same payload, whoever signs it. -/
  only : ∀ {other : Account} {another : Request} {twin : SignedTransfer},
    other.sign another = .ok twin → twin.payload = transfer.payload →
      another.fields = request.fields ∧ twin.nonce = transfer.nonce

theorem SignedTransfer.says_of_sign_eq_ok {account : Account} {request : Request}
    {transfer : SignedTransfer} (h : account.sign request = .ok transfer)
    (hFits : transfer.payload.length < 2 ^ 64) :
    ∃ items signature, transfer.Says account request items signature := by
  have hDigest : request.fields.signingDigest =
    keccak256 (0x02 :: Rlp.encode (.list request.fields.items)) := rfl
  obtain ⟨⟨wide, hNonce, hWide⟩, ⟨chainId, parity, hChain, hParity⟩, hPayload, _, _⟩ :=
    Account.sign_eq_ok_iff.mp h
  have hLow := Crypto.isLow_sign account.key request.fields.signingDigest
  have hRead : readPayload? transfer.payload =
      some (request.fields, account.key.sign request.fields.signingDigest) := by
    rw [hPayload] at hFits ⊢
    exact readPayload?_signedPayload hLow.fits.1 hLow.fits.2 hFits
  refine ⟨request.fields.items, account.key.sign request.fields.signingDigest, {
    requested := rfl
    decoded := ?_
    unbound := ?_
    low := hLow
    signed := congrArg account.key.sign hDigest
    read := hRead
    sender := ?_
    only := ?_ }⟩
  · rw [hPayload] at hFits ⊢
    exact ⟨rfl, decode?_signedPayload hFits⟩
  · have hValue := chainBoundParity_eq_ok_iff.mp hParity
    rw [hChain]
    refine ⟨parity, hParity, ?_⟩
    rw [Option.getD_some]
    omega
  · intro hRecover
    unfold payloadSender?
    rw [hRead, Option.bind_eq_bind, Option.bind_some, hDigest]
    exact hRecover
  · intro other another twin hTwin hSame
    obtain ⟨⟨wide', hNonce', hWide'⟩, _, hPayload', _, _⟩ := Account.sign_eq_ok_iff.mp hTwin
    have hLow' := Crypto.isLow_sign other.key another.fields.signingDigest
    have hRead' := readPayload?_signedPayload (f := another.fields) hLow'.fits.1 hLow'.fits.2
      (by rwa [← hPayload', hSame])
    rw [← hPayload', hSame, hRead] at hRead'
    have hFields : another.fields = request.fields :=
      (congrArg Prod.fst (Option.some.inj hRead')).symm
    have hOwn : another.nonce.getD 0 = request.nonce.getD 0 := congrArg Fields.nonce hFields
    rw [hNonce, hNonce', Option.getD_some, Option.getD_some] at hOwn
    refine ⟨hFields, BitVec.eq_of_toNat_eq ?_⟩
    rw [hWide', hOwn, hWide]

/-- A request with a nonce of 64 bits and a chain whose id leaves room for the parity is signed, and
the payload says just what it comes to. The format has room for payloads shorter than `2 ^ 64`, of
which every request that fits half of the addresses of 64 bits is one. -/
theorem Account.sign_says (account : Account) (request : Request) {nonce : Word256}
    {chainId : Word64} (hNonce : request.nonce = some nonce) (hNarrow : nonce.toNat < 2 ^ 64)
    (hChain : request.chainId = some chainId) (hRoom : 2 * chainId.toNat + 36 < 2 ^ 64) :
    ∃ transfer, account.sign request = .ok transfer ∧
      transfer.nonce.toNat = nonce.toNat ∧
      transfer.hash = keccak256 transfer.payload ∧
      (request.fields.footprint < 2 ^ 63 → transfer.payload.length < 2 ^ 64) ∧
      (transfer.payload.length < 2 ^ 64 →
        ∃ items signature, transfer.Says account request items signature) := by
  have hValue : (nonce.setWidth 64).toNat = nonce.toNat := by
    rw [BitVec.toNat_setWidth, Nat.mod_eq_of_lt hNarrow]
  have hLow := Crypto.isLow_sign account.key request.fields.signingDigest
  obtain ⟨parity, hParity⟩ := exists_chainBoundParity
    (account.key.sign request.fields.signingDigest) chainId hRoom
  have hSign : account.sign request = .ok ⟨nonce.setWidth 64,
      keccak256 (signedPayload request.fields (account.key.sign request.fields.signingDigest)),
      signedPayload request.fields (account.key.sign request.fields.signingDigest), request⟩ :=
    Account.sign_eq_ok_iff.mpr
      ⟨⟨nonce, hNonce, hValue⟩, ⟨chainId, parity, hChain, hParity⟩, rfl, rfl, rfl⟩
  exact ⟨_, hSign, hValue, rfl,
    fun hFootprint => length_signedPayload_lt hFootprint hLow.fits.1 hLow.fits.2,
    fun hFits => SignedTransfer.says_of_sign_eq_ok hSign hFits⟩

/-- A transfer with data and an access list, whose fees are left open. -/
def openFees : Request where
  recipient := some ⟨0x0101⟩
  value := some 6000000000000000
  nonce := some 300
  chainId := some 167000
  data := some [0x7f, 0x80]
  accessList := [⟨⟨0x0202⟩, [⟨0x00⟩, ⟨0x01⟩]⟩, ⟨⟨0x0303⟩, []⟩]

theorem openFees_says : ∃ transfer items signature,
    (Account.mk (.ofNat 1)).sign openFees = .ok transfer ∧ transfer.nonce = 300 ∧
      transfer.Says ⟨.ofNat 1⟩ openFees items signature := by
  obtain ⟨transfer, hSign, hNonce, _, hLength, hSays⟩ :=
    Account.sign_says ⟨.ofNat 1⟩ openFees rfl (by decide) rfl (by decide)
  obtain ⟨items, signature, hItems⟩ := hSays (hLength (by decide))
  exact ⟨transfer, items, signature, hSign, BitVec.eq_of_toNat_eq hNonce, hItems⟩

end TxLoad
