import TxLoad.Proofs.Endpoint.Rotation
import TxLoad.Proofs.Run.Calls
import TxLoad.Run.Verdict

/-! # Where the reason of a revert comes from

A failed transaction is made again as a call, and this replay is a read like any other: it goes
round the nodes until one of them answers. A node that refuses the call says why, and what it says
is reported as the reason. But a read to which no node has answered fails in the same way, so what
is reported then is only what was said of the last contact (`reason_refused_iff_answered`).
-/

namespace TxLoad.Verdict

open Endpoint

variable {σ α : Type}

/-! ## What a check finds -/

/-- The lookups find the transaction and that it failed. It is to be made again as `call` on the
state of `block`, and the endpoints are left in state `u`. -/
inductive FindsFailed (archive : Archive σ) (hash : Hash) (s : σ) : CallObject → Word64 → σ → Prop
  | mined {transaction : KnownTransaction} {receipt : Receipt} {block : Word64}
      (hKnown : (archive.transaction hash s).1.answer = .value (some transaction))
      (hReceipt :
        (archive.receipt hash (archive.transaction hash s).2).1.answer = .value (some receipt))
      (hStatus : receipt.status = some 0) (hBlock : receipt.block = some block) :
      FindsFailed archive hash s (replay transaction) (BitVec.ofNat 64 (block.toNat - 1))
        (archive.receipt hash (archive.transaction hash s).2).2

theorem returns_found {hash : Hash} {found? : Option α} {w w' : World σ} {a : α} :
    (found hash found?).Returns w a w' ↔ found? = some a ∧ w' = w := by
  cases found? with
  | none => simp [found]
  | some b => simp [found, eq_comm]

/-- The verdict that the answer to the replay amounts to. -/
theorem reverted_of_returns_ofReplay {hash : Hash} {answer : Answer Bytes} {w w' : World σ}
    {reason : String} (h : (ofReplay hash answer).Returns w (.reverted (some reason)) w') :
    ∃ method, answer = .failure (.call ⟨method, reason⟩) ∧ w' = w := by
  unfold ofReplay at h
  split at h
  · obtain ⟨_, v, _, h⟩ := Act.returns_bind.mp h
    obtain ⟨h, _⟩ := Act.returns_pure.mp h
    cases h
  · rename_i failure
    obtain ⟨h, rfl⟩ := Act.returns_pure.mp h
    cases h
    exact ⟨failure.method, rfl, rfl⟩
  · exact absurd h Act.not_returns_fail
  · exact absurd h Act.not_returns_throw

/-- A reason is the message of a failed call, and the call is the replay of a transaction that was
found to have failed. -/
theorem failure_of_returns_obtain {archive : Archive σ} {hash : Hash} {w w' : World σ}
    {reason : String} (h : (obtain archive hash).Returns w (.reverted (some reason)) w') :
    ∃ call block s method, FindsFailed archive hash w.network call block s ∧
      (archive.callAt call block s).1.answer = .failure (.call ⟨method, reason⟩) ∧
      w'.network = (archive.callAt call block s).2 := by
  unfold Verdict.obtain at h
  simp only [Act.returns_bind, returns_found] at h
  obtain ⟨_, _, hKnown, transaction, v, ⟨rfl, rfl⟩, _, _, hReceipt, receipt, _, ⟨rfl, rfl⟩, h⟩ := h
  by_cases hStatus : receipt.status = some 0
  · rw [if_neg (not_not.mpr hStatus)] at h
    simp only [Act.returns_bind, returns_found, Act.returns_notice, Act.returns_logCalls,
      Act.returns_step] at h
    obtain ⟨block, u, ⟨hBlock, rfl⟩, _, _, rfl, _, _, rfl, h⟩ := h
    obtain ⟨reply, _, ⟨rfl, rfl⟩, _, t, hSleep, h⟩ := h
    have hKnownAfter : (archive.transaction hash w.network).2 = v.network :=
      Act.network_of_returns_ask hKnown
    have hReceiptAfter : (archive.receipt hash v.network).2 = u.network :=
      Act.network_of_returns_ask hReceipt
    have hKeeps (d : Duration) : Act.Keeps World.network (Act.sleep d : Act σ Unit) :=
      Act.keeps_sleep d fun _ _ => rfl
    have hSlept := (hKeeps _).of_returns hSleep
    obtain ⟨method, hAnswer, rfl⟩ := reverted_of_returns_ofReplay h
    have hFinds := FindsFailed.mined (Act.returns_ask hKnown)
      (hKnownAfter ▸ Act.returns_ask hReceipt) hStatus hBlock
    rw [hKnownAfter, hReceiptAfter] at hFinds
    exact ⟨_, _, _, method, hFinds, hAnswer, hSlept⟩
  · rw [if_pos hStatus] at h
    obtain ⟨h, _⟩ := Act.returns_pure.mp h
    cases h

/-- A check that has found a failed transaction reports whatever its replay fails with. -/
theorem exists_returns_obtain {archive : Archive σ} {hash : Hash} {w : World σ} {call : CallObject}
    {block : Word64} {s : σ} {failure : CallFailure} (hOpen : w.cutOff = none)
    (hFinds : FindsFailed archive hash w.network call block s)
    (hAnswer : (archive.callAt call block s).1.answer = .failure (.call failure)) :
    ∃ w', (obtain archive hash).Returns w (.reverted (some failure.message)) w' := by
  obtain ⟨hKnown, hReceipt, hStatus, hBlock⟩ := hFinds
  obtain ⟨v, hKnownAsk, hv, hvNetwork⟩ := Act.exists_returns_ask (.transaction hash) hOpen hKnown
  rw [← hvNetwork] at hReceipt hAnswer
  obtain ⟨u, hReceiptAsk, hu, huNetwork⟩ := Act.exists_returns_ask (.receipt hash) hv hReceipt
  rw [← huNetwork] at hAnswer
  unfold Verdict.obtain
  simp only [Act.exists_returns_bind, returns_found]
  refine ⟨_, v, hKnownAsk, _, v, ⟨rfl, rfl⟩, _, u, hReceiptAsk, _, u, ⟨rfl, rfl⟩, ?_⟩
  rw [if_neg (not_not.mpr hStatus)]
  simp only [Act.exists_returns_bind, returns_found, Act.returns_notice, Act.returns_logCalls,
    Act.returns_step]
  refine ⟨_, u, ⟨hBlock, rfl⟩, (), _, rfl, (), _, rfl, _, _, ⟨rfl, rfl⟩, (), _,
    (Act.returns_sleep (by exact hu)).mpr rfl, ?_⟩
  rw [hAnswer]
  exact ⟨_, Act.returns_pure.mpr ⟨rfl, rfl⟩⟩

/-! ## The replay as a read of a pool -/

section Pool

open Pool

variable {nodes : Nodes σ} {p : Pool}

theorem answer_replyOf_eq_failure_iff {f : Json → α} {r : Except CallFailure Json × PoolState σ}
    {failure : CallFailure} :
    (replyOf (mapResult f r)).1.answer = .failure (.call failure) ↔ r.1 = .error failure := by
  rcases r with ⟨_ | _, _⟩ <;> simp [replyOf, mapResult, answerOf, Except.map, Reply.now]

theorem answer_replyOf_of_eq_ok {f : Json → α} {r : Except CallFailure Json × PoolState σ}
    {value : Json} (h : r.1 = .ok value) :
    (replyOf (mapResult f r)).1.answer = .value (f value) := by
  obtain ⟨_, _⟩ := r
  subst h
  rfl

theorem after_replyOf (f : Json → α) (r : Except CallFailure Json × PoolState σ) :
    (replyOf (mapResult f r)).2 = r.2 := by
  rcases r with ⟨_ | _, _⟩ <;> rfl

theorem archive_transaction (hash : Hash) (s : PoolState σ) :
    (p.archive nodes).transaction hash s =
      replyOf (mapResult transactionOf? (p.read nodes (.transaction hash) s)) := rfl

theorem archive_receipt (hash : Hash) (s : PoolState σ) :
    (p.archive nodes).receipt hash s =
      replyOf (mapResult receiptOf? (p.read nodes (.receipt hash) s)) := rfl

theorem archive_callAt (call : CallObject) (block : Word64) (s : PoolState σ) :
    (p.archive nodes).callAt call block s =
      replyOf (mapResult (fun value => (blob? value).getD [])
        (p.read nodes (.callAt call block) s)) := rfl

theorem active_lt_after_transaction {hash : Hash} {s : PoolState σ} (hActive : s.active < p.size) :
    ((p.archive nodes).transaction hash s).2.active < p.size := by
  rw [archive_transaction, after_replyOf]
  exact (Moves.read s (.transaction hash)).active_lt hActive

theorem FindsFailed.active_lt {hash : Hash} {s u : PoolState σ} {call : CallObject}
    {block : Word64} (h : FindsFailed (p.archive nodes) hash s call block u)
    (hActive : s.active < p.size) : u.active < p.size := by
  obtain ⟨_, _, _, _⟩ := h
  rw [archive_receipt, after_replyOf]
  exact (Moves.read _ (.receipt hash)).active_lt (active_lt_after_transaction hActive)

theorem outcome_of_conclusion {query : Query} {outcome : Contact} {failure : CallFailure}
    (h : .error failure = outcome.conclusion query) :
    failure.method = query.method ∧
      (outcome = .refusal failure.message ∨
        outcome = .failure failure.message ∨ outcome = .unsent failure.message) := by
  cases outcome with
  | result value => cases h
  | refusal message =>
    cases h
    exact ⟨rfl, .inl rfl⟩
  | failure cause =>
    cases h
    exact ⟨rfl, .inr (.inl rfl)⟩
  | unsent cause =>
    cases h
    exact ⟨rfl, .inr (.inr rfl)⟩

/-- A reason that a check reports is what a node has answered to the replay exactly if some node has
answered it. If none has, all nodes were contacted in vain, and the reason is what was said of the
last contact. -/
theorem reason_refused_iff_answered {hash : Hash} {w w' : World (PoolState σ)} {reason : String}
    (hActive : w.network.active < p.size)
    (h : (obtain (p.archive nodes) hash).Returns w (.reverted (some reason)) w') :
    ∃ call block s attempts, FindsFailed (p.archive nodes) hash w.network call block s ∧
      p.Rotates nodes (.callAt call block) s attempts
        (.error ⟨(Query.callAt call block).method, reason⟩) w'.network ∧
      ((∃ attempt ∈ attempts, attempt.outcome = .refusal reason) ↔
        ∃ attempt ∈ attempts, attempt.outcome.isFailure = false) ∧
      ((∀ attempt ∈ attempts, attempt.outcome.isFailure = true) →
        (∀ position < p.size, position ∈ attempts.map Attempt.position) ∧
          ∃ last, attempts.getLast? = some last ∧
            (last.outcome = .failure reason ∨ last.outcome = .unsent reason)) := by
  obtain ⟨call, block, s, method, hFinds, hAnswer, hAfter⟩ := failure_of_returns_obtain h
  obtain ⟨attempts, hRotates⟩ := exists_rotates nodes p (.callAt call block)
    (hFinds.active_lt hActive)
  rw [archive_callAt] at hAnswer
  have hRead := answer_replyOf_eq_failure_iff.mp hAnswer
  obtain ⟨earlier, last, hAttempts, hEarlier, hResult, _, hFailed⟩ := hRotates.settled
  rw [hRead] at hResult hRotates
  obtain ⟨hMethod, hOutcome⟩ := outcome_of_conclusion hResult
  change method = _ at hMethod
  have hLast : last ∈ attempts := hAttempts ▸ List.mem_append_right _ (List.mem_singleton_self last)
  refine ⟨call, block, s, attempts, hFinds, ?_, ⟨?_, ?_⟩, ?_⟩
  · rw [hAfter, archive_callAt, after_replyOf, ← hMethod]
    exact hRotates
  · rintro ⟨attempt, hMem, hRefusal⟩
    exact ⟨attempt, hMem, hRefusal ▸ rfl⟩
  · rintro ⟨attempt, hMem, hAnswered⟩
    -- only the last attempt can be answered
    have hSame : attempt = last := by
      rw [hAttempts] at hMem
      rcases List.mem_append.mp hMem with hMem | hMem
      · rw [hEarlier attempt hMem] at hAnswered
        cases hAnswered
      · exact List.mem_singleton.mp hMem
    rw [hSame] at hAnswered
    rcases hOutcome with hRefusal | hFailure | hUnsent
    · exact ⟨last, hLast, hRefusal⟩
    · rw [hFailure] at hAnswered
      cases hAnswered
    · rw [hUnsent] at hAnswered
      cases hAnswered
  · intro hAll
    have hLastFailed := hAll last hLast
    refine ⟨(hFailed hLastFailed).2.1, last, ?_, ?_⟩
    · rw [hAttempts]
      exact List.getLast?_concat
    · rcases hOutcome with hRefusal | hUnanswered
      · rw [hRefusal] at hLastFailed
        cases hLastFailed
      · exact hUnanswered

end Pool

/-! ### A node that knows one failed transaction -/

def quoted (text : List Char) : List Char := '"' :: text ++ ['"']

/-- The text of an object with these members. -/
def objectText (members : List (String × List Char)) : List Char :=
  '\x7b' :: List.intercalate [','] (members.map fun (name, value) =>
    quoted name.toList ++ ':' :: value) ++ ['\x7d']

def zeroText (digits : Nat) : List Char := '0' :: 'x' :: List.replicate digits '0'

def zero : List Char := quoted (zeroText 1)

def minedText : List Char :=
  objectText [("hash", quoted (zeroText 64)), ("nonce", zero), ("value", zero), ("gas", zero),
    ("input", quoted ['0', 'x']), ("v", zero), ("r", zero), ("s", zero)]

def failedText : List Char :=
  objectText [("transactionHash", quoted (zeroText 64)), ("transactionIndex", zero),
    ("from", quoted (zeroText 40)), ("cumulativeGasUsed", zero), ("logs", ['[', ']']),
    ("logsBloom", quoted (zeroText 512)), ("status", zero), ("blockNumber", zero)]

/-- The text of a reply with a result. -/
def resultText (value : List Char) : List Char :=
  objectText [("jsonrpc", quoted "2.0".toList), ("id", ['1']), ("result", value)]

def resultReply (value : List Char) : HttpReply := .response 200 (String.ofList (resultText value))

/-- What `readReply?` reads in a text, without its detour through a string. -/
def readText? (text : List Char) : Option (Json ⊕ String) :=
  match Json.readValue ((Json.skipSpace text).length + 1) (Json.skipSpace text) with
  | some (.object members, rest) =>
    if (Json.skipSpace rest).isEmpty then (plainMembers? members).bind replyOf? else none
  | _ => none

theorem readReply?_ofList (text : List Char) :
    readReply? (String.ofList text) = readText? text := by
  unfold readReply? Json.read? readText?
  rw [String.toList_ofList]
  dsimp only
  rcases Json.readValue _ (Json.skipSpace text) with _ | ⟨value, rest⟩
  · rfl
  · cases value <;> dsimp only <;> cases (Json.skipSpace rest).isEmpty <;> rfl

theorem exists_ofReply_eq_result {shape : Shape} {value : List Char} {test : Json → Bool}
    (hAccepts : ∀ result, test result = true → shape.accepts result = true)
    (h : (match readText? (resultText value) with
      | some (.inl result) => test result
      | _ => false) = true) :
    ∃ result, Contact.ofReply shape (resultReply value) = .result result ∧ test result = true := by
  split at h
  · rename_i result hRead
    rw [← readReply?_ofList] at hRead
    refine ⟨result, ?_, h⟩
    simp [resultReply, Contact.ofReply, HttpReply.bodyOf, hRead, hAccepts result h]
  · cases h

/-- What `fixedBytes?` makes of a text. -/
def fixedText? (size : Nat) (text : List Char) : Option Bytes :=
  let text := Hex.dropMark ['0', 'x'] text
  if (String.ofList text).utf8ByteSize ≠ 2 * size then none
  else do
    let bytes ← Hex.lenientBytes? text
    return bytes ++ List.replicate (size - bytes.length) 0x00

theorem fixedBytes?_string (size : Nat) {pieces : List Json.Piece} {text : List Char}
    (h : Json.textOf? pieces = some text) :
    fixedBytes? size (.string pieces) = fixedText? size text := by
  have hText : (Json.string pieces).text? = some (String.ofList text) := by
    simp [Json.text?, h]
  unfold fixedBytes? unmarked fixedText?
  rw [hText]
  simp only [Option.bind_eq_bind, Option.bind_some, String.toList_ofList]

/-- A member is the text of an empty bloom filter. -/
def isEmptyBloom : Json.Occurrence → Bool
  | .once (.string pieces) => Json.textOf? pieces == some (zeroText 512)
  | _ => false

theorem accepts_of_isEmptyBloom {members : List (List Json.Piece × Json)}
    (h : isEmptyBloom (Json.occurrence "logsBloom" members) = true) :
    fieldsAccept [Shape.required "logsBloom" Shape.bloom] members = true := by
  unfold isEmptyBloom at h
  split at h
  · rename_i pieces hMember
    have hFixed : (fixedBytes? 256 (.string pieces)).isSome = true := by
      rw [fixedBytes?_string 256 (beq_iff_eq.mp h)]
      decide +kernel
    simp only [Shape.required, fieldsAccept, hMember, Bool.and_true]
    exact hFixed
  · cases h

def receiptFields : List (String × Bool × Shape) :=
  match Shape.receipt with
  | .openRecord fields => fields
  | _ => []

/-- A receipt of a failure with an empty bloom filter. -/
def isFailedReceipt : Json → Bool
  | .object members =>
    fieldsAccept (receiptFields.take 12) members &&
      isEmptyBloom (Json.occurrence "logsBloom" members) &&
      fieldsAccept (receiptFields.drop 13) members &&
      restProper (receiptFields.map Prod.fst) members &&
      decide (receiptOf? (.object members) = some ⟨some 0, some 0⟩)
  | _ => false

theorem fieldsAccept_append (fields more : List (String × Bool × Shape))
    (members : List (List Json.Piece × Json)) :
    fieldsAccept (fields ++ more) members =
      (fieldsAccept fields members && fieldsAccept more members) := by
  induction fields with
  | nil => rfl
  | cons field fields ih =>
    obtain ⟨name, required, shape⟩ := field
    simp only [List.cons_append, fieldsAccept, ih, Bool.and_assoc]

theorem accepts_of_isFailedReceipt {value : Json} (h : isFailedReceipt value = true) :
    (Shape.optional .receipt).accepts value = true := by
  cases value with
  | object members =>
    simp only [isFailedReceipt, Bool.and_eq_true] at h
    obtain ⟨⟨⟨⟨hHead, hBloom⟩, hTail⟩, hRest⟩, _⟩ := h
    have hFields : fieldsAccept receiptFields members = true := by
      show fieldsAccept (receiptFields.take 12 ++ ([Shape.required "logsBloom" Shape.bloom] ++
        receiptFields.drop 13)) members = true
      rw [fieldsAccept_append, fieldsAccept_append, hHead, hTail, accepts_of_isEmptyBloom hBloom]
      rfl
    exact Bool.and_eq_true_iff.mpr ⟨hFields, hRest⟩
  | _ => cases h

theorem receiptOf?_of_isFailedReceipt {value : Json} (h : isFailedReceipt value = true) :
    receiptOf? value = some ⟨some 0, some 0⟩ := by
  cases value with
  | object members =>
    simp only [isFailedReceipt, Bool.and_eq_true, decide_eq_true_eq] at h
    exact h.2
  | _ => cases h

theorem exists_mined :
    ∃ result, Contact.ofReply (.optional .transaction) (resultReply minedText) = .result result ∧
      ((Shape.optional .transaction).accepts result && (transactionOf? result).isSome) = true := by
  refine exists_ofReply_eq_result (fun _ h => (Bool.and_eq_true_iff.mp h).1) ?_
  decide +kernel

theorem exists_failed :
    ∃ result, Contact.ofReply (.optional .receipt) (resultReply failedText) = .result result ∧
        isFailedReceipt result = true := by
  refine exists_ofReply_eq_result (fun _ => accepts_of_isFailedReceipt) ?_
  decide +kernel

/-- The reply of a node that knows the transaction and its receipt, and replies to all else in the
same way. -/
def replyTo (other : HttpReply) (method : String) : HttpReply :=
  if method = "eth_getTransactionByHash" then resultReply minedText
  else if method = "eth_getTransactionReceipt" then resultReply failedText
  else other

def knowing (other : HttpReply) : Nodes Unit := fun _ query s => (replyTo other query.method, s)

theorem replyTo_callAt (other : HttpReply) (call : CallObject) (block : Word64) :
    replyTo other (Query.callAt call block).method = other := rfl

theorem outcome_knowing {other : HttpReply} {query : Query} {attempt : Attempt Unit}
    (h : attempt.Genuine (knowing other) pairPool query) :
    attempt.outcome = .ofReply query.shape (replyTo other query.method) := by
  have hSendable : ∀ url ∈ pairPool.urls,
      (Url.ofText url).toOption.bind Url.unsendable? = none := by
    decide +kernel
  cases h with
  | sent _ _ hReply =>
    exact congrArg (fun r => Contact.ofReply query.shape r.1) hReply.symm
  | unsent hUrl hUnsendable =>
    rw [hSendable _ (List.mem_of_getElem? hUrl)] at hUnsendable
    cases hUnsendable

theorem read_knowing (other : HttpReply) (query : Query) {s : PoolState Unit}
    (hActive : s.active < pairPool.size) :
    (pairPool.read (knowing other) query s).1 =
      (Contact.ofReply query.shape (replyTo other query.method)).conclusion query := by
  obtain ⟨attempts, h⟩ := Pool.exists_rotates (knowing other) pairPool query hActive
  obtain ⟨earlier, last, rfl, _, hResult, _⟩ := h.settled
  rw [hResult, outcome_knowing (h.genuine last (by simp))]

theorem exists_findsFailed (other : HttpReply) :
    ∃ call block u,
      FindsFailed (pairPool.archive (knowing other)) ⟨0⟩ { nodes := () } call block u := by
  obtain ⟨mined, hMined, hMinedTest⟩ := exists_mined
  obtain ⟨failed, hFailed, hFailedTest⟩ := exists_failed
  have hKnown : (pairPool.read (knowing other) (.transaction ⟨0⟩) { nodes := () }).1 =
      .ok mined := by
    rw [read_knowing other _ (by decide)]
    exact congrArg (Contact.conclusion _) hMined
  have hReceipt : (pairPool.read (knowing other) (.receipt ⟨0⟩)
      ((pairPool.archive (knowing other)).transaction ⟨0⟩ { nodes := () }).2).1 = .ok failed := by
    rw [read_knowing other _ (active_lt_after_transaction (by decide))]
    exact congrArg (Contact.conclusion _) hFailed
  obtain ⟨transaction, hTransaction⟩ :=
    Option.isSome_iff_exists.mp (Bool.and_eq_true_iff.mp hMinedTest).2
  have hKnownAnswer := answer_replyOf_of_eq_ok (f := transactionOf?) hKnown
  have hReceiptAnswer := answer_replyOf_of_eq_ok (f := receiptOf?) hReceipt
  rw [hTransaction, ← archive_transaction] at hKnownAnswer
  rw [receiptOf?_of_isFailedReceipt hFailedTest, ← archive_receipt] at hReceiptAnswer
  exact ⟨_, _, _, .mined hKnownAnswer hReceiptAnswer rfl rfl⟩

theorem exists_returns_knowing {other : HttpReply} {message : String}
    (h : ∀ query : Query, query.shape = .blob →
      (Contact.ofReply query.shape other).conclusion query = .error ⟨query.method, message⟩) :
    ∃ w', (obtain (pairPool.archive (knowing other)) ⟨0⟩).Returns { network := { nodes := () } }
      (.reverted (some message)) w' := by
  obtain ⟨call, block, u, hFinds⟩ := exists_findsFailed other
  have hRead := read_knowing other (.callAt call block) (hFinds.active_lt (by decide))
  rw [replyTo_callAt, h _ rfl] at hRead
  have hAnswer := answer_replyOf_eq_failure_iff (f := fun value => (blob? value).getD []).mpr hRead
  rw [← archive_callAt] at hAnswer
  exact exists_returns_obtain rfl hFinds hAnswer

/-- No node answers the replay, and the check reports that as the reason of the revert. -/
theorem unanswered_replay_reported :
    (∀ call block (attempt : Attempt Unit),
        attempt.Genuine (knowing .dropped) pairPool (.callAt call block) →
          attempt.outcome = .failure HttpReply.unanswered) ∧
      ∃ w', (obtain (pairPool.archive (knowing .dropped)) ⟨0⟩).Returns
        { network := { nodes := () } } (.reverted (some HttpReply.unanswered)) w' :=
  ⟨fun _ _ _ hGenuine => outcome_knowing hGenuine, exists_returns_knowing fun _ _ => rfl⟩

theorem ofReply_refusalBody (shape : Shape) :
    Contact.ofReply shape (.response 200 refusalBody) = .refusal "no" := by
  have hRead : (readReply? (HttpReply.bodyOf 200 refusalBody)).elim false
      (Sum.elim (fun _ => false) (· == "no")) = true := by decide +kernel
  unfold Contact.ofReply
  cases hBody : readReply? (HttpReply.bodyOf 200 refusalBody) with
  | none =>
    rw [hBody] at hRead
    cases hRead
  | some body =>
    rw [hBody] at hRead
    cases body with
    | inl value => cases hRead
    | inr message => simp [hBody, beq_iff_eq.mp hRead]

/-- A node refuses the replay, and the check reports its message as the reason of the revert. -/
theorem refused_replay_reported :
    ∃ w' call block s attempts,
      (obtain (pairPool.archive (knowing (.response 200 refusalBody))) ⟨0⟩).Returns
        { network := { nodes := () } } (.reverted (some "no")) w' ∧
      pairPool.Rotates (knowing (.response 200 refusalBody)) (.callAt call block) s attempts
        (.error ⟨"eth_call", "no"⟩) w'.network ∧
      ∃ attempt ∈ attempts, attempt.outcome = .refusal "no" := by
  obtain ⟨w', hReturns⟩ : ∃ w', (obtain (pairPool.archive (knowing (.response 200 refusalBody)))
      ⟨0⟩).Returns { network := { nodes := () } } (.reverted (some "no")) w' :=
    exists_returns_knowing fun query _ =>
      congrArg (Contact.conclusion query) (ofReply_refusalBody query.shape)
  obtain ⟨call, block, s, attempts, _, hRotates, hIff, _⟩ :=
    reason_refused_iff_answered (by decide) hReturns
  obtain ⟨earlier, last, rfl, _, hResult, _⟩ := hRotates.settled
  have hLast := outcome_knowing (hRotates.genuine last (by simp))
  refine ⟨w', call, block, s, _, hReturns, hRotates, hIff.mpr ⟨last, by simp, ?_⟩⟩
  rw [hLast, replyTo_callAt, ofReply_refusalBody]
  rfl

end TxLoad.Verdict
