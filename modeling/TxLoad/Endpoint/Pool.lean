import TxLoad.Endpoint.Query
import TxLoad.Telemetry.Notice

/-! # Several execution nodes behind one

Of the nodes of a pool one is active. A read contacts the active node; a node that does not answer,
or not in a readable way, is left for the next one, until as many nodes were contacted as there
are. A node that answers with an error has answered. A submission is never repeated, because the
node that was asked first may have got it.

Reads may be in flight together. Each of them waits for one contact at a time, and they share the
choice of the active node, which every failed contact moves on by one.
-/

namespace TxLoad.Endpoint

/-- The nodes that queries can be sent to, by their addresses. -/
structure Pool where
  urls : List String
  deriving DecidableEq, Repr, Inhabited

/-- How the nodes reply to queries. -/
abbrev Nodes (σ : Type) := String → Query → σ → HttpReply × σ

/-- What changes while a pool is used. -/
structure PoolState (σ : Type) where
  nodes : σ
  active : Nat := 0
  notices : List Notice := []

namespace Pool

/-- The usable addresses of a list, and what is noticed about each. -/
def usable : List String → List String × List Notice
  | [] => ([], [])
  | url :: rest =>
    let (urls, notices) := usable rest
    match Url.ofText url with
    | .ok _ => (url :: urls, .endpointAdded url :: notices)
    | .error error => (urls, .endpointUnusable url error.message :: notices)

/-- The pool of the usable addresses; there must be one. -/
def ofUrls (urls : List String) : Except Failure Pool × List Notice :=
  match usable urls with
  | ([], notices) => (.error (.configuration .noUsableEndpoint), notices)
  | (urls, notices) => (.ok ⟨urls⟩, notices)

variable {σ : Type}

def size (p : Pool) : Nat := p.urls.length

/-- The address of the active node. -/
def activeUrl (p : Pool) (s : PoolState σ) : String := p.urls.getD (s.active % p.size) ""

/-- Makes the next node the active one. -/
def advance (p : Pool) (s : PoolState σ) : PoolState σ :=
  let next := (s.active + 1) % p.size
  { s with
    active := next
    notices := if 1 < p.size then s.notices ++ [.endpointChanged next] else s.notices }

/-- Sends a query to the active node. -/
def contact (nodes : Nodes σ) (p : Pool) (query : Query) (s : PoolState σ) :
    Contact × PoolState σ :=
  let url := p.activeUrl s
  match (Url.ofText url).toOption.bind Url.unsendable? with
  | some cause => (.unsent cause, s)
  | none =>
    let (reply, after) := nodes url query s.nodes
    (.ofReply query.shape reply, { s with nodes := after })

/-! ## One read -/

/-- A read in flight waits for the outcome of a contact; `left` more may follow it. -/
inductive Flight
  | waiting (left : Nat) (outcome : Contact)
  | done (result : Except CallFailure Json)
  deriving Inhabited

/-- Starts a read. -/
def launch (nodes : Nodes σ) (p : Pool) (query : Query) (s : PoolState σ) : Flight × PoolState σ :=
  match p.contact nodes query s with
  | (outcome, s) => (.waiting (p.size - 1) outcome, s)

/-- A read receives the outcome that it waits for. A failed contact moves the pool on, and the next
contact begins at once. -/
def receive (nodes : Nodes σ) (p : Pool) (query : Query) (s : PoolState σ) :
    Flight → Flight × PoolState σ
  | .done result => (.done result, s)
  | .waiting _ (.result value) => (.done (.ok value), s)
  | .waiting _ (.refusal message) => (.done (.error ⟨query.method, message⟩), s)
  | .waiting left (.failure cause) | .waiting left (.unsent cause) =>
    let noticed := { s with notices := s.notices ++ [.callFailed query.method cause] }
    let moved := p.advance noticed
    match left with
    | 0 => (.done (.error ⟨query.method, cause⟩), moved)
    | left + 1 =>
      match p.contact nodes query moved with
      | (outcome, s) => (.waiting left outcome, s)

/-- The failure of a read that has no node left to contact. -/
def noneLeft (query : Query) : CallFailure := ⟨query.method, "all providers failed"⟩

/-- Lets a read go on until it is done, which takes at most `steps` outcomes. -/
def finish (nodes : Nodes σ) (p : Pool) (query : Query) :
    Nat → Flight → PoolState σ → Except CallFailure Json × PoolState σ
  | _, .done result, s => (result, s)
  | 0, .waiting _ _, s => (.error (noneLeft query), s)
  | steps + 1, flight, s =>
    let (flight, s) := p.receive nodes query s flight
    finish nodes p query steps flight s

/-- A read on its own. -/
def read (nodes : Nodes σ) (p : Pool) (query : Query) (s : PoolState σ) :
    Except CallFailure Json × PoolState σ :=
  let (flight, s) := p.launch nodes query s
  p.finish nodes query p.size flight s

/-- A submission: one contact, whatever comes of it. -/
def submit (nodes : Nodes σ) (p : Pool) (payload : Bytes) (s : PoolState σ) :
    Except CallFailure Hash × PoolState σ :=
  let query := Query.submit payload
  match p.contact nodes query s with
  | (.result value, s) => (.ok ((hashOf? value).getD ⟨0⟩), s)
  | (.refusal message, s) => (.error ⟨query.method, message⟩, s)
  | (.failure cause, s) | (.unsent cause, s) => (.error ⟨query.method, cause⟩, s)

/-! ## Reads in flight together -/

/-- Lets a read go on as far as it can without waiting, which takes at most `steps` outcomes: where
nothing can be sent to a node, the next one is contacted at once. -/
def settle (nodes : Nodes σ) (p : Pool) (query : Query) :
    Nat → Flight → PoolState σ → Flight × PoolState σ
  | steps + 1, .waiting left (.unsent cause), s =>
    let (flight, s) := p.receive nodes query s (.waiting left (.unsent cause))
    settle nodes p query steps flight s
  | _, flight, s => (flight, s)

/-- Lets the reads go on in turn, each with its number and its query: the first in the line receives
its outcome and, if it is not done, goes to the end of the line. -/
def finishTogether (nodes : Nodes σ) (p : Pool) :
    Nat → List (Nat × Query × Flight) → PoolState σ →
      List (Nat × Except CallFailure Json) × PoolState σ
  | 0, _, s => ([], s)
  | _, [], s => ([], s)
  | steps + 1, (number, query, flight) :: line, s =>
    let (flight, s) := p.receive nodes query s flight
    let (flight, s) := p.settle nodes query p.size flight s
    match flight with
    | .done result =>
      let (results, s) := finishTogether nodes p steps line s
      ((number, result) :: results, s)
    | .waiting _ _ => finishTogether nodes p steps (line ++ [(number, query, flight)]) s

/-- Starts the reads in their order. -/
def launchAll (nodes : Nodes σ) (p : Pool) :
    List (Nat × Query) → PoolState σ → List (Nat × Query × Flight) × PoolState σ
  | [], s => ([], s)
  | (number, query) :: rest, s =>
    let (flight, s) := p.launch nodes query s
    let (flight, s) := p.settle nodes query p.size flight s
    let (line, s) := launchAll nodes p rest s
    ((number, query, flight) :: line, s)

/-- The results of reads that are made together, by their places among the queries. -/
def readTogether (nodes : Nodes σ) (p : Pool) (queries : List Query) (s : PoolState σ) :
    (Nat → Except CallFailure Json) × PoolState σ :=
  let (line, s) := p.launchAll nodes ((List.range queries.length).zip queries) s
  let (results, s) := p.finishTogether nodes (queries.length * p.size) line s
  (fun place => (results.lookup place).getD (.error (noneLeft (queries.getD place default))), s)

/-! ## The calls -/

def mapResult {α : Type} (f : Json → α) : Except CallFailure Json × PoolState σ →
    Except CallFailure α × PoolState σ
  | (result, s) => (result.map f, s)

/-- The base fee of the latest block, which there must be. -/
def baseFeeResult : Except CallFailure Json → Except CallFailure (Option Word256)
  | .error failure => .error failure
  | .ok value =>
    match baseFeeOf? value with
    | some baseFee => .ok baseFee
    | none => .error ⟨Query.latestBlock.method, "no latest block"⟩

def chainId (nodes : Nodes σ) (p : Pool) (s : PoolState σ) :
    Except CallFailure Word64 × PoolState σ :=
  mapResult lowWordOf (p.read nodes .chainId s)

def estimateGas (nodes : Nodes σ) (p : Pool) (call : CallObject) (s : PoolState σ) :
    Except CallFailure Word256 × PoolState σ :=
  mapResult wideOf (p.read nodes (.estimateGas call) s)

def baseFee (nodes : Nodes σ) (p : Pool) (s : PoolState σ) :
    Except CallFailure (Option Word256) × PoolState σ :=
  match p.read nodes .latestBlock s with
  | (result, s) => (baseFeeResult result, s)

def priorityFee (nodes : Nodes σ) (p : Pool) (s : PoolState σ) :
    Except CallFailure Word256 × PoolState σ :=
  mapResult wideOf (p.read nodes .priorityFee s)

def pendingCount (nodes : Nodes σ) (p : Pool) (account : Address) (s : PoolState σ) :
    Except CallFailure Word64 × PoolState σ :=
  mapResult lowWordOf (p.read nodes (.pendingCount account) s)

def transaction (nodes : Nodes σ) (p : Pool) (hash : Hash) (s : PoolState σ) :
    Except CallFailure (Option KnownTransaction) × PoolState σ :=
  mapResult transactionOf? (p.read nodes (.transaction hash) s)

def receipt (nodes : Nodes σ) (p : Pool) (hash : Hash) (s : PoolState σ) :
    Except CallFailure (Option Receipt) × PoolState σ :=
  mapResult receiptOf? (p.read nodes (.receipt hash) s)

def callAt (nodes : Nodes σ) (p : Pool) (call : CallObject) (block : Word64) (s : PoolState σ) :
    Except CallFailure Bytes × PoolState σ :=
  mapResult (fun value => (blob? value).getD []) (p.read nodes (.callAt call block) s)

/-! ## The pool as the endpoint of a run -/

def answerOf {α : Type} : Except CallFailure α → Answer α
  | .ok a => .value a
  | .error failure => .failure (.call failure)

/-- A result without delay: what passes between a run and its nodes takes no time of its own. -/
def replyOf {α : Type} : Except CallFailure α × PoolState σ → Reply α × PoolState σ
  | (result, s) => (.now (answerOf result), s)

def fees (nodes : Nodes σ) (p : Pool) (probe : CallObject) (s : PoolState σ) :
    FeeReplies × PoolState σ :=
  match p.readTogether nodes [.estimateGas probe, .latestBlock, .priorityFee] s with
  | (results, s) =>
    (⟨.now (answerOf ((results 0).map wideOf)), .now (answerOf (baseFeeResult (results 1))),
      .now (answerOf ((results 2).map wideOf))⟩, s)

/-- The network of a run over a pool and a consensus node, whose genesis time is `genesis`. -/
def network (nodes : Nodes σ) (p : Pool)
    (genesis : String → σ → Except GenesisError Word64 × σ) : Network (PoolState σ) where
  genesisTime url s :=
    match genesis url s.nodes with
    | (.ok time, after) => (.now (.value time), { s with nodes := after })
    | (.error e, after) => (.now (.failure (.genesis e)), { s with nodes := after })
  chainId s := replyOf (p.chainId nodes s)
  fees := p.fees nodes
  pendingCount account s := replyOf (p.pendingCount nodes account s)
  submit payload s :=
    match replyOf (p.submit nodes payload s) with
    | (reply, s) => (some reply, s)
  acknowledge _ s := s

def archive (nodes : Nodes σ) (p : Pool) : Archive (PoolState σ) where
  transaction hash s := replyOf (p.transaction nodes hash s)
  receipt hash s := replyOf (p.receipt nodes hash s)
  callAt call block s := replyOf (p.callAt nodes call block s)

end Pool

end TxLoad.Endpoint
