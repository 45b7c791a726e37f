import TxLoad.Proofs.Endpoint.Replay
import TxLoad.Proofs.Endpoint.Reported
import TxLoad.Proofs.Run.Composition
import TxLoad.Proofs.Run.Counters
import TxLoad.Proofs.Run.Opening

/-! # What becomes of the numbers of a chain

A run asks once for the chain's id, and for each batch for the pending count of its account. What
the nodes report may take 256 bits. A run goes on with the low 64 bits of it: its payloads say the
low bits of the chain's id, and their nonces begin with the low bits of the pending count. So they
say what was reported exactly if that fits 64 bits.
-/

namespace TxLoad

variable {σ : Type}

/-! ## What a run submits -/

/-- The batch of the leg was prepared in the leg's first world. -/
def Leg.Prepared (network : Network σ) (p : Plan) (chainId : Word64) (leg : Leg σ) : Prop :=
  ∃ remaining, (p.preparation network chainId remaining).Returns leg.start leg.batch leg.ready

/-- The calls by which the legs hand in their transfers. -/
def Leg.submissions (legs : List (Leg σ)) : List Call :=
  legs.flatMap fun leg => submissionCalls leg.batch.transfers

/-- The legs of a run that begins in `w` once the chain's id is known: one after the other, or in
the cycles of a timetable. -/
inductive Plan.Sends (network : Network σ) (clock : Clock) (p : Plan) (chainId : Word64)
    (w : World σ) : Option Timetable → List (Leg σ) → Prop
  | atOnce {legs : List (Leg σ)} {v w' : World σ} {result : Except Stop Totals}
      (hRan : p.Ran network chainId w legs v result w') :
      Sends network clock p chainId w none legs
  | atSlots {t : Timetable} {cycles : List (Cycle σ)} {outcome : Except Stop Unit} {w' : World σ}
      (hCourse : Timetable.Course clock (fun _ => p.send network chainId) t.genesis w t.remaining
        (cycles.map Cycle.firing) outcome w')
      (hRuns : ∀ c ∈ cycles, c.IsRun network p chainId) :
      Sends network clock p chainId w (some t) (cycles.flatMap Cycle.legs)

/-- A run that begins in `w` gets its timetable, asks for the chain's id in `asking`, and has it in
`told`. -/
structure Plan.Identifies (network : Network σ) (p : Plan) (w : World σ)
    (timetable : Option Timetable) (asking : World σ) (chainId : Word64) (told : World σ) :
    Prop where
  scheduled : (p.obtainTimetable network).Returns w timetable asking
  named : (Act.ask .chainId network.chainId : Act σ Word64).Returns asking chainId told

/-- The world in which the chain's id is known and has been announced. -/
def Plan.announced (p : Plan) (chainId : Word64) (w : World σ) : World σ :=
  { w with notices := w.notices ++ [.runPrepared chainId p.account.address p.recipient p.amount] }

/-! ## The opening of a run -/

/-- The submissions so far, and the moment at which the world is cut off. -/
def World.handed (w : World σ) : List Call × Option Duration := (w.submitted, w.cutOff)

theorem Act.keeps_handed_ask {α : Type} {call : Call} (f : σ → Reply α × σ)
    (hCall : call.isSubmission = false) : Keeps World.handed (ask call f : Act σ α) := by
  refine keeps_bind (keeps_modify fun w => ?_) fun _ => ?_
  · have hSame : ((w.calls ++ [(w.now, call)]).map Prod.snd).filter Call.isSubmission =
        (w.calls.map Prod.snd).filter Call.isSubmission := by
      simp [hCall]
    exact congrArg (·, w.cutOff) hSame
  · refine keeps_bind (keeps_step fun _ => rfl) fun reply => ?_
    exact keeps_bind (keeps_sleep reply.delay fun _ _ => rfl) fun _ => keeps_ofExcept _

theorem Plan.keeps_handed_obtainTimetable (network : Network σ) (p : Plan) :
    Act.Keeps World.handed (p.obtainTimetable network) := by
  unfold obtainTimetable
  split
  · refine Act.keeps_bind (Act.keeps_handed_ask _ rfl) fun genesis => ?_
    exact Act.keeps_bind (Act.keeps_modify fun _ => rfl) fun _ => Act.keeps_pure _
  · exact Act.keeps_pure none

section Runs

variable {network : Network σ} {p : Plan} {chainId : Word64} {clock : Clock} {w v w' : World σ}
  {legs : List (Leg σ)} {timetable : Option Timetable} {result : Except Stop Totals}

theorem Legs.prepared {remaining left : Nat} (h : Legs network p chainId remaining w legs left w') :
    ∀ leg ∈ legs, leg.Prepared network p chainId := by
  induction h with
  | nil => exact List.forall_mem_nil _
  | cons _ hPrepare _ _ ih => exact List.forall_mem_cons.mpr ⟨⟨_, hPrepare⟩, ih⟩

namespace Plan

theorem Ran.prepared (h : p.Ran network chainId w legs v result w') :
    ∀ leg ∈ legs, leg.Prepared network p chainId := by
  cases h with
  | completed hLegs => exact hLegs.prepared
  | broken hLegs _ _ => exact hLegs.prepared

theorem Sends.prepared (h : p.Sends network clock chainId w timetable legs) :
    ∀ leg ∈ legs, leg.Prepared network p chainId := by
  cases h with
  | atOnce hRan => exact hRan.prepared
  | atSlots _ hRuns =>
    intro leg hLeg
    obtain ⟨c, hCycle, hMem⟩ := List.mem_flatMap.mp hLeg
    exact (hRuns c hCycle).ran.prepared leg hMem

/-- What a run submits once the chain's id is known is what its legs hand in. -/
theorem exists_sends (hOpen : w.cutOff = none)
    (h : p.sendOn network clock chainId timetable w = (result, w')) :
    ∃ legs, p.Sends network clock chainId w timetable legs ∧
      w'.submitted = w.submitted ++ Leg.submissions legs := by
  cases timetable with
  | none =>
    obtain ⟨legs, v, hRan⟩ := p.send_ran network chainId hOpen h
    exact ⟨legs, .atOnce hRan, (hRan.counts hOpen).1.submitted⟩
  | some t =>
    obtain ⟨results, _, u, told, hRun, _, rfl, _⟩ := sendAtSlots_cases h
    obtain ⟨firings, hCourse, _⟩ := Timetable.runFrom_course clock _ t.genesis t.passed
      t.remaining t.phase w hRun
    obtain ⟨cycles, rfl, hRuns, hCounts, _⟩ := hCourse.counts hOpen
    exact ⟨_, .atSlots hCourse hRuns, hCounts.submitted⟩

theorem identified_apply (network : Network σ) (clock : Clock) (p : Plan)
    (timetable : Option Timetable) (chainId : Word64) (w : World σ) :
    p.identified network clock timetable chainId w =
      (p.sendOn network clock chainId timetable >>= fun totals => do
        Act.notice (.runDone totals.batches totals.sent totals.failed)
        return totals : Act σ Totals) (p.announced chainId w) := rfl

/-- The announcements before and after the transfers hand in nothing. -/
theorem submitted_identified (network : Network σ) (clock : Clock) (p : Plan)
    (timetable : Option Timetable) (chainId : Word64) (w : World σ) :
    (p.identified network clock timetable chainId w).2.submitted =
      (p.sendOn network clock chainId timetable (p.announced chainId w)).2.submitted := by
  have hAfter (totals : Totals) : Act.Keeps World.submitted
      (Act.notice (.runDone totals.batches totals.sent totals.failed) >>= fun _ => pure totals :
        Act σ Totals) :=
    Act.keeps_bind (Act.keeps_modify fun _ => rfl) fun _ => Act.keeps_pure _
  rw [identified_apply]
  exact Act.view_bind hAfter (p.announced chainId w)

/-- A run whose transfers are sent returns their totals. -/
theorem identified_of_sendOn {totals : Totals}
    (h : p.sendOn network clock chainId timetable (p.announced chainId w) = (.ok totals, w')) :
    p.identified network clock timetable chainId w =
      (.ok totals, { w' with
        notices := w'.notices ++ [.runDone totals.batches totals.sent totals.failed] }) := by
  rw [identified_apply, Act.bind_apply, h]
  rfl

/-- A stage that stops leaves nothing that legs would have handed in. -/
theorem submitted_of_handed {u : World σ} (h : u.handed = w.handed) :
    u.submitted = w.submitted ++ Leg.submissions ([] : List (Leg σ)) :=
  (congrArg Prod.fst h).trans (List.append_nil _).symm

/-- From the read of the chain's id on. -/
theorem asked_submits (network : Network σ) (clock : Clock) (p : Plan)
    (timetable : Option Timetable) (hOpen : w.cutOff = none) :
    ∃ legs, ((Act.ask .chainId network.chainId >>=
        p.identified network clock timetable) w).2.submitted =
          w.submitted ++ Leg.submissions legs ∧
      (legs ≠ [] → ∃ chainId told,
        (Act.ask .chainId network.chainId : Act σ Word64).Returns w chainId told ∧
        p.Sends network clock chainId (p.announced chainId told) timetable legs) := by
  have hAsk : Act.Keeps World.handed (Act.ask .chainId network.chainId : Act σ Word64) :=
    Act.keeps_handed_ask _ rfl
  rw [Act.bind_apply]
  rcases (Act.ask .chainId network.chainId : Act σ Word64).returns_or_stops w with
    ⟨chainId, told, hNamed⟩ | ⟨s, v, hStops⟩
  · have hTold := hAsk.of_returns hNamed
    have hUp : (p.announced chainId told).cutOff = none := (congrArg Prod.snd hTold).trans hOpen
    rw [show Act.ask .chainId network.chainId w = _ from hNamed]
    dsimp only
    rcases hSend : p.sendOn network clock chainId timetable (p.announced chainId told) with
      ⟨result, w'⟩
    obtain ⟨legs, hSends, hSubmitted⟩ := exists_sends hUp hSend
    refine ⟨legs, ?_, fun _ => ⟨chainId, told, hNamed, hSends⟩⟩
    rw [submitted_identified, hSend]
    exact hSubmitted.trans (congrArg (· ++ _) (congrArg Prod.fst hTold))
  · rw [show Act.ask .chainId network.chainId w = _ from hStops]
    exact ⟨[], submitted_of_handed (hAsk.of_stops hStops), fun hSome => absurd rfl hSome⟩

/-- All that a run submits is handed in by the legs of one course of sending, which it has begun
with the chain's id that it was told. -/
theorem execute_submits (network : Network σ) (clock : Clock) (p : Plan) {w : World σ}
    (hOpen : w.cutOff = none) :
    ∃ legs, (p.execute network clock w).2.submitted = w.submitted ++ Leg.submissions legs ∧
      (legs ≠ [] → ∃ timetable asking chainId told,
        p.Identifies network w timetable asking chainId told ∧
        p.Sends network clock chainId (p.announced chainId told) timetable legs) := by
  rw [execute_eq]
  cases hCheck : p.check with
  | error f => exact ⟨[], submitted_of_handed rfl, fun hSome => absurd rfl hSome⟩
  | ok _ =>
    show ∃ legs, ((p.obtainTimetable network >>= fun timetable =>
      Act.ask .chainId network.chainId >>= p.identified network clock timetable) w).2.submitted =
        _ ∧ _
    rw [Act.bind_apply]
    have hObtain := p.keeps_handed_obtainTimetable network
    rcases (p.obtainTimetable network).returns_or_stops w with
      ⟨timetable, asking, hScheduled⟩ | ⟨s, v, hStops⟩
    · have hAsking := hObtain.of_returns hScheduled
      rw [show p.obtainTimetable network w = _ from hScheduled]
      obtain ⟨legs, hSubmitted, hUnderway⟩ :=
        asked_submits network clock p timetable ((congrArg Prod.snd hAsking).trans hOpen)
      refine ⟨legs, hSubmitted.trans (congrArg (· ++ _) (congrArg Prod.fst hAsking)),
        fun hSome => ?_⟩
      obtain ⟨chainId, told, hNamed, hSends⟩ := hUnderway hSome
      exact ⟨timetable, asking, chainId, told, ⟨hScheduled, hNamed⟩, hSends⟩
    · rw [show p.obtainTimetable network w = _ from hStops]
      exact ⟨[], submitted_of_handed (hObtain.of_stops hStops), fun hSome => absurd rfl hSome⟩

end Plan

end Runs

/-! ## What its payloads say -/

/-- The payload of the transfer says this chain's id and this nonce. -/
def SignedTransfer.Encodes (transfer : SignedTransfer) (chainId nonce : Nat) : Prop :=
  ∃ fields signature, readPayload? transfer.payload = some (fields, signature) ∧
    fields.chainId.toNat = chainId ∧ fields.nonce.toNat = nonce

theorem SignedTransfer.Encodes.unique {transfer : SignedTransfer}
    {chainId nonce chainId' nonce' : Nat}
    (h : transfer.Encodes chainId nonce) (g : transfer.Encodes chainId' nonce') :
    chainId = chainId' ∧ nonce = nonce' := by
  obtain ⟨fields, _, hRead, rfl, rfl⟩ := h
  obtain ⟨fields', _, gRead, rfl, rfl⟩ := g
  cases hRead.symm.trans gRead
  exact ⟨rfl, rfl⟩

theorem SignedTransfer.Carries.encodes {transfer : SignedTransfer} {account : Account}
    {terms : TransferTerms} {pricing : Pricing} {nonce : Nat}
    (h : transfer.Carries account terms pricing nonce) :
    transfer.Encodes terms.chainId.toNat nonce := by
  obtain ⟨fields, hRead, hFields⟩ := h.read
  have hWord : nonce < 2 ^ 64 := h.nonce_eq ▸ transfer.nonce.isLt
  refine ⟨fields, _, hRead, hFields ▸ rfl, ?_⟩
  subst hFields
  exact Nat.mod_eq_of_lt (by omega)

/-- The transfers of a batch carry the nonces from the pending count on which its own preparation
has read after the fees. -/
theorem Batch.carries_of_returns {network : Network σ} {account : Account} {terms : TransferTerms}
    {size : Word64} {w w' : World σ} {batch : Batch}
    (h : (prepare network account terms size).Returns w batch w') :
    ∃ pending, (network.pendingCount account.address (network.fees
        (Pricing.probe account.address terms.recipient terms.amount) w.network).2).1.answer =
          .value pending ∧
      ∀ (i : Nat) (hi : i < batch.transfers.length),
        batch.transfers[i].Carries account terms batch.pricing (pending.toNat + i) := by
  obtain ⟨v, range, u, hObtain, hReserve, hSigned, _⟩ := stages_of_returns h
  obtain ⟨hComes, hPriced⟩ := Pricing.comes_of_returns_obtain rfl hObtain
  obtain ⟨hPending, _⟩ := NonceRange.outward_of_returns_reserve hReserve
  have hNetwork : v.network = _ := congrArg Prod.fst hPriced
  rw [hNetwork] at hPending
  exact ⟨range.first, hPending, (madeOf_of_sign_eq_ok hComes hSigned).carries⟩

namespace Plan

open Endpoint

/-- A number that is kept in a word is kept as it is exactly if it fits. -/
theorem low_words_encoded {transfer : SignedTransfer} {named counted i : Nat}
    (h : transfer.Encodes (named % 2 ^ 64) (counted % 2 ^ 64 + i)) :
    transfer.Encodes named (counted + i) ↔ named < 2 ^ 64 ∧ counted < 2 ^ 64 := by
  constructor
  · intro hExact
    obtain ⟨hNamed, hCounted⟩ := h.unique hExact
    have hId := Nat.mod_lt named (Nat.two_pow_pos 64)
    have hCount := Nat.mod_lt counted (Nat.two_pow_pos 64)
    omega
  · rintro ⟨hNamed, hCounted⟩
    rwa [Nat.mod_eq_of_lt hNamed, Nat.mod_eq_of_lt hCounted] at h

/-- A run on a pool goes on with the low 64 bits of what is reported: all of its payloads say the
low bits of the chain's id that it was told, and the nonces of each batch begin with the low bits of
the pending count that was read for it. They say what was reported exactly if that fits 64 bits. -/
theorem payloads_encode_low_words (nodes : Nodes σ) (pool : Pool)
    (genesis : String → σ → Except GenesisError Word64 × σ) (clock : Clock) (p : Plan)
    {w : World (PoolState σ)} (hOpen : w.cutOff = none) :
    ∃ legs, (p.execute (pool.network nodes genesis) clock w).2.submitted =
        w.submitted ++ Leg.submissions legs ∧
      (legs ≠ [] → ∃ timetable asking chainId told named,
        p.Identifies (pool.network nodes genesis) w timetable asking chainId told ∧
        p.Sends (pool.network nodes genesis) clock chainId (p.announced chainId told) timetable
          legs ∧
        pool.Reports nodes .chainId asking.network named ∧
        ∀ leg ∈ legs, ∃ counted,
          pool.Reports nodes (.pendingCount p.account.address)
            (pool.fees nodes p.probe leg.start.network).2 counted ∧
          ∀ (i : Nat) (hi : i < leg.batch.transfers.length),
            leg.batch.transfers[i].Encodes (named % 2 ^ 64) (counted % 2 ^ 64 + i) ∧
            (leg.batch.transfers[i].Encodes named (counted + i) ↔
              named < 2 ^ 64 ∧ counted < 2 ^ 64)) := by
  obtain ⟨legs, hSubmitted, hUnderway⟩ := p.execute_submits (pool.network nodes genesis) clock hOpen
  refine ⟨legs, hSubmitted, fun hSome => ?_⟩
  obtain ⟨timetable, asking, chainId, told, hIdentifies, hSends⟩ := hUnderway hSome
  obtain ⟨named, hNamed, hId⟩ := Pool.exists_reports_chainId (Act.returns_ask hIdentifies.named)
  refine ⟨timetable, asking, chainId, told, named, hIdentifies, hSends, hNamed, fun leg hLeg => ?_⟩
  obtain ⟨_, hPrepared⟩ := hSends.prepared leg hLeg
  obtain ⟨pending, hPending, hCarries⟩ := Batch.carries_of_returns hPrepared
  obtain ⟨counted, hCounted, hCount⟩ := Pool.exists_reports_pendingCount hPending
  refine ⟨counted, hCounted, fun i hi => ?_⟩
  have hEncodes := (hCarries i hi).encodes
  rw [show (p.terms chainId).chainId.toNat = _ from hId, hCount] at hEncodes
  exact ⟨hEncodes, low_words_encoded hEncodes⟩

/-! ### A node whose numbers are given -/

open Verdict

/-- One transfer on one node. -/
def single : Plan := { sevenByThree with endpoints := ["http://a"], count := 1, batchSize := 1 }

def onePool : Pool := ⟨["http://a"]⟩

/-- What a node replies that gives these texts for the chain's id and for every pending count, and
does not answer to payloads. -/
def reportOf (name count : List Char) (method : String) : HttpReply :=
  if method = "eth_chainId" then resultReply (quoted name)
  else if method = "eth_getTransactionCount" then resultReply (quoted count)
  else if method = "eth_estimateGas" then resultReply (quoted "0x5208".toList)
  else if method = "eth_maxPriorityFeePerGas" then resultReply (quoted "0x1".toList)
  else if method = "eth_getBlockByNumber" then
    resultReply (objectText [("baseFeePerGas", quoted "0x7".toList)])
  else .dropped

def telling (name count : List Char) : Nodes Unit := fun _ query s =>
  (reportOf name count query.method, s)

/-- The chain's id and every pending count take 65 bits. -/
def wideNode : Nodes Unit :=
  telling "0x10000000000000001".toList "0x10000000000000005".toList

/-- They have the same low bits, and nothing else. -/
def narrowNode : Nodes Unit := telling "0x1".toList "0x5".toList

/-- A chain that began with the clock. -/
def epochGenesis : String → Unit → Except GenesisError Word64 × Unit := fun _ s => (.ok 0, s)

/-- A text that is read as this number. -/
def Tells (text : List Char) (n : Nat) : Prop :=
  ∃ value, Contact.ofReply .wide (resultReply (quoted text)) = .result value ∧
    (quantity? 64 value == some n) = true

theorem accepts_of_quantity {value : Json} {n : Nat} (h : (quantity? 64 value == some n) = true) :
    Shape.wide.accepts value = true :=
  Option.isSome_iff_exists.mpr ⟨n, beq_iff_eq.mp h⟩

theorem tells_gas : Tells "0x5208".toList 21000 := by
  refine exists_ofReply_eq_result (fun _ => accepts_of_quantity) ?_
  decide +kernel

theorem tells_tip : Tells "0x1".toList 1 := by
  refine exists_ofReply_eq_result (fun _ => accepts_of_quantity) ?_
  decide +kernel

theorem contact_telling (name count : List Char) (query : Query) (s : PoolState Unit) :
    onePool.contact (telling name count) query s =
      (.ofReply query.shape (reportOf name count query.method), s) := by
  have hSendable : (Url.ofText "http://a").toOption.bind Url.unsendable? = none := by
    decide +kernel
  have hUrl : onePool.activeUrl s = "http://a" := by
    show onePool.urls.getD (s.active % 1) "" = _
    rw [Nat.mod_one]
    rfl
  unfold Pool.contact
  dsimp only
  rw [hUrl, hSendable]
  rfl

/-- The chain that a run sees there. -/
def lowChain : Network (PoolState Unit) where
  genesisTime _ s := (.now (.value 0), s)
  chainId s := (.now (.value 1), s)
  fees _ s := (⟨.now (.value 21000), .now (.value (some 7)), .now (.value 1)⟩, s)
  pendingCount _ s := (.now (.value 5), s)
  submit _ s :=
    (some (.now (.failure (.call ⟨"eth_sendRawTransaction", HttpReply.unanswered⟩))), s)
  acknowledge _ s := s

theorem exists_block :
    ∃ value, Contact.ofReply (.optional .block) (resultReply
        (objectText [("baseFeePerGas", quoted "0x7".toList)])) = .result value ∧
      ((Shape.optional .block).accepts value && decide (baseFeeOf? value = some (some 7))) =
        true := by
  refine exists_ofReply_eq_result (fun _ h => (Bool.and_eq_true_iff.mp h).1) ?_
  decide +kernel

theorem exists_contact_wide (query : Query) {name count text : List Char} {n : Nat}
    (hShape : query.shape = .wide)
    (hReply : reportOf name count query.method = resultReply (quoted text)) (hTells : Tells text n)
    (s : PoolState Unit) :
    ∃ value, onePool.contact (telling name count) query s = (.result value, s) ∧
      quantity? 64 value = some n := by
  obtain ⟨value, hResult, hNumber⟩ := hTells
  refine ⟨value, ?_, beq_iff_eq.mp hNumber⟩
  rw [contact_telling, hShape, hReply, hResult]

theorem reports_telling (query : Query) {name count text : List Char} {n : Nat}
    (hShape : query.shape = .wide)
    (hReply : reportOf name count query.method = resultReply (quoted text)) (hTells : Tells text n)
    (s : PoolState Unit) :
    onePool.Reports (telling name count) query s n := by
  obtain ⟨value, hContact, hNumber⟩ := exists_contact_wide query hShape hReply hTells s
  have hRead := congrArg Prod.fst (Pool.read_of_contact (by decide) hContact)
  exact ⟨value, hRead, gives_of_read hRead, hNumber⟩

/-- The node reports the numbers of its texts. -/
theorem reports_chainId_telling {name count : List Char} {n : Nat} (hName : Tells name n)
    (s : PoolState Unit) : onePool.Reports (telling name count) .chainId s n :=
  reports_telling .chainId rfl rfl hName s

theorem reports_pendingCount_telling {name count : List Char} {n : Nat} (hCount : Tells count n)
    (account : Address) (s : PoolState Unit) :
    onePool.Reports (telling name count) (.pendingCount account) s n :=
  reports_telling (.pendingCount account) rfl rfl hCount s

/-- Two such nodes are the same chain to a run if their numbers have the same low bits. -/
theorem network_telling {name count : List Char} {n m : Nat} (hName : Tells name n)
    (hCount : Tells count m) (hNamed : n % 2 ^ 64 = 1) (hCounted : m % 2 ^ 64 = 5) :
    onePool.network (telling name count) epochGenesis = lowChain := by
  have hSize : onePool.size ≠ 0 := by decide
  have hWord {value : Json} {k : Nat} {word : Word64} (h : quantity? 64 value = some k)
      (hLow : k % 2 ^ 64 = word.toNat) : lowWordOf value = word :=
    BitVec.eq_of_toNat_eq ((toNat_lowWordOf h).trans hLow)
  unfold Pool.network lowChain
  rw [Network.mk.injEq]
  refine ⟨rfl, ?_, ?_, ?_, ?_, rfl⟩
  · funext s
    obtain ⟨value, hContact, hNumber⟩ := exists_contact_wide .chainId rfl rfl hName s
    rw [Pool.chainId, Pool.read_of_contact hSize hContact]
    exact congrArg (fun word => (Reply.now (.value word), s)) (hWord hNumber hNamed)
  · funext probe s
    obtain ⟨gas, hGas, hGasNumber⟩ := exists_contact_wide (.estimateGas probe) rfl rfl tells_gas s
    obtain ⟨tip, hTip, hTipNumber⟩ := exists_contact_wide .priorityFee rfl rfl tells_tip s
    obtain ⟨block, hReply, hBlock⟩ := exists_block
    have hFee : baseFeeOf? block = some (some 7) :=
      of_decide_eq_true (Bool.and_eq_true_iff.mp hBlock).2
    have hContact : onePool.contact (telling name count) .latestBlock s = (.result block, s) :=
      (contact_telling name count .latestBlock s).trans (congrArg (·, s) hReply)
    have hFees : Pool.baseFeeResult (.ok block) = .ok (some 7) := by
      unfold Pool.baseFeeResult
      dsimp only
      rw [hFee]
    rw [Pool.fees_of_contacts hSize hGas hContact hTip, wideOf_of_quantity? hGasNumber,
      wideOf_of_quantity? hTipNumber, hFees]
    rfl
  · funext account s
    obtain ⟨value, hContact, hNumber⟩ :=
      exists_contact_wide (.pendingCount account) rfl rfl hCount s
    rw [Pool.pendingCount, Pool.read_of_contact hSize hContact]
    exact congrArg (fun word => (Reply.now (.value word), s)) (hWord hNumber hCounted)
  · funext payload s
    unfold Pool.submit
    dsimp only
    rw [contact_telling]
    rfl

/-- The world before a run. -/
def fresh : World (PoolState Unit) := { network := { nodes := () } }

/-- The world in which a run knows that the chain's id is one. -/
def informed : World (PoolState Unit) := { fresh with calls := [(.zero, .chainId)] }

theorem execute_single (clock : Clock) :
    single.execute lowChain clock fresh = single.identified lowChain clock none 1 informed := by
  have hCheck : single.check = .ok () := rfl
  have hUntimed : single.obtainTimetable lowChain fresh = (.ok none, fresh) := rfl
  have hNamed : Act.ask .chainId lowChain.chainId fresh = (.ok 1, informed) := rfl
  rw [execute_eq, hCheck]
  show (single.obtainTimetable lowChain >>= fun timetable =>
    Act.ask .chainId lowChain.chainId >>= single.identified lowChain clock timetable) fresh = _
  rw [Act.bind_apply, hUntimed]
  dsimp only
  rw [Act.bind_apply, hNamed]

theorem exists_reads_lowChain (sender recipient : Address) (amount : Word256)
    (notices : List Notice) :
    ∃ pricing v, (Pricing.obtain lowChain sender recipient amount).Returns
        { informed with notices := notices } pricing v ∧
      ∃ range u, (NonceRange.reserve lowChain sender 1).Returns v range u :=
  ⟨_, _, rfl, _, _, rfl⟩

theorem exists_preparation_single :
    ∃ batch w',
      (single.preparation lowChain 1 1).Returns (single.announced 1 informed) batch w' := by
  obtain ⟨pricing, v, hPricing, range, u, hRange⟩ := exists_reads_lowChain single.account.address
    single.recipient single.amount (informed.notices ++
      [.runPrepared 1 single.account.address single.recipient single.amount])
  exact Batch.exists_returns_prepare hPricing hRange (by decide)

/-- The only batch of that plan is sent, and its only transfer is for the chain with the id one and
has the nonce five. -/
theorem execute_single_completes (clock : Clock) :
    ∃ totals w', ∃ transfer : SignedTransfer,
      single.execute lowChain clock fresh = (.ok totals, w') ∧
      w'.submitted = [.submit transfer.payload] ∧ transfer.Encodes 1 5 := by
  obtain ⟨batch, ready, hPrepare⟩ := exists_preparation_single
  rcases hSend : single.sendOn lowChain clock 1 none (single.announced 1 informed) with
    ⟨result, w'⟩
  obtain ⟨legs, v, hRan⟩ := single.send_ran lowChain 1 rfl hSend
  obtain ⟨leg, rest, rfl, rfl⟩ := hRan.exists_first (by decide) hPrepare
  have hSubmitted := (hRan.counts rfl).1.submitted
  -- the batch has all that is to be sent, so nothing is left to stop at
  obtain ⟨totals, rfl, rfl⟩ : ∃ totals, result = .ok totals ∧ rest = [] := by
    cases hRan with
    | completed hLegs =>
      have hLength : rest.length + 1 = 1 := hLegs.length_of_done (by decide) rfl
      exact ⟨_, rfl, List.eq_nil_of_length_eq_zero (Nat.succ.inj hLength)⟩
    | @broken left _ _ _ hLegs hLeft _ =>
      have hLength : 1 * (rest.length + 1) + left = 1 := hLegs.length_of_left hLeft
      omega
  obtain ⟨pending, hPending, hCarries⟩ := Batch.carries_of_returns hPrepare
  cases hPending
  obtain ⟨transfer, hOne⟩ : ∃ transfer, leg.batch.transfers = [transfer] :=
    List.length_eq_one_iff.mp (size_of_returns_preparation hPrepare)
  rw [hOne] at hCarries
  refine ⟨totals, _, transfer, (execute_single clock).trans (identified_of_sendOn hSend), ?_,
    (hCarries 0 Nat.one_pos).encodes⟩
  show w'.submitted = _
  rw [hSubmitted, List.flatMap_singleton, hOne]
  rfl

/-- The chain's id and the pending count take 65 bits. The run succeeds, and its only payload is for
another chain and has another nonce. -/
theorem wide_numbers_replaced :
    onePool.Reports wideNode .chainId fresh.network (2 ^ 64 + 1) ∧
      (∀ s, onePool.Reports wideNode (.pendingCount single.account.address) s (2 ^ 64 + 5)) ∧
      ∃ totals w', ∃ transfer : SignedTransfer,
        single.execute (onePool.network wideNode epochGenesis) (Timetable.steadyClock 0) fresh =
          (.ok totals, w') ∧
        w'.submitted = [.submit transfer.payload] ∧ transfer.Encodes 1 5 ∧
        ¬ transfer.Encodes (2 ^ 64 + 1) (2 ^ 64 + 5) := by
  have hName : Tells "0x10000000000000001".toList (2 ^ 64 + 1) := by
    refine exists_ofReply_eq_result (fun _ => accepts_of_quantity) ?_
    decide +kernel
  have hCount : Tells "0x10000000000000005".toList (2 ^ 64 + 5) := by
    refine exists_ofReply_eq_result (fun _ => accepts_of_quantity) ?_
    decide +kernel
  obtain ⟨totals, w', transfer, hRun, hSubmitted, hEncodes⟩ :=
    execute_single_completes (Timetable.steadyClock 0)
  rw [← network_telling hName hCount rfl rfl] at hRun
  refine ⟨reports_chainId_telling hName _, reports_pendingCount_telling hCount _, totals, w',
    transfer, hRun, hSubmitted, hEncodes, fun hExact => ?_⟩
  have hSame := (hEncodes.unique hExact).1
  omega

/-- The chain's id and the pending count fit 64 bits, and the payloads say what was reported. -/
theorem narrow_numbers_kept :
    fresh.cutOff = none ∧ ∃ legs : List (Leg (PoolState Unit)), legs ≠ [] ∧
      (single.execute (onePool.network narrowNode epochGenesis) (Timetable.steadyClock 0)
        fresh).2.submitted = Leg.submissions legs ∧
      ∀ leg ∈ legs, ∀ (i : Nat) (hi : i < leg.batch.transfers.length),
        leg.batch.transfers[i].Encodes 1 (5 + i) := by
  have hCount : Tells "0x5".toList 5 := by
    refine exists_ofReply_eq_result (fun _ => accepts_of_quantity) ?_
    decide +kernel
  obtain ⟨legs, hSubmitted, hEncode⟩ := payloads_encode_low_words narrowNode onePool epochGenesis
    (Timetable.steadyClock 0) single (show fresh.cutOff = none from rfl)
  obtain ⟨_, _, _, hRun, hPayload, _⟩ := execute_single_completes (Timetable.steadyClock 0)
  have hSome : legs ≠ [] := by
    rintro rfl
    rw [narrowNode, network_telling tells_tip hCount rfl rfl, hRun] at hSubmitted
    cases hPayload.symm.trans hSubmitted
  refine ⟨rfl, legs, hSome, hSubmitted, fun leg hLeg i hi => ?_⟩
  obtain ⟨_, asking, _, _, named, _, _, hNamed, hLegs⟩ := hEncode hSome
  obtain ⟨counted, hCounted, hTransfers⟩ := hLegs leg hLeg
  obtain rfl := hNamed.unique (reports_chainId_telling tells_tip _)
  obtain rfl := hCounted.unique (reports_pendingCount_telling hCount _ _)
  exact (hTransfers i hi).2.mpr ⟨by decide, by decide⟩

end Plan

end TxLoad
