import TxLoad.Proofs.Endpoint.Rotation
import TxLoad.Proofs.Endpoint.Together

/-! # What a node has reported

The result of a read is one that a node has given, in the shape that the query asks for. For a
number that means one of up to 64 digits, which may take more than a word. `Reports` says which
number a read is answered with, and the chain's id and the pending count of an account are known to
a run by its low 64 bits only.
-/

namespace TxLoad.Endpoint

variable {σ α : Type}

/-- Some node replies to the query with this result. -/
def Gives (nodes : Nodes σ) (query : Query) (value : Json) : Prop :=
  ∃ url s, Contact.ofReply query.shape (nodes url query s).1 = .result value

section Reads

variable {nodes : Nodes σ} {p : Pool} {query : Query} {s : PoolState σ} {value : Json}

theorem accepts_of_ofReply {shape : Shape} {reply : HttpReply}
    (h : Contact.ofReply shape reply = .result value) : shape.accepts value = true := by
  cases reply with
  | dropped => cases h
  | response status body =>
    unfold Contact.ofReply at h
    dsimp only at h
    split at h
    · cases h
    · cases h
    · split at h
      · rename_i hAccepts
        cases h
        exact hAccepts
      · cases h

theorem Gives.accepts (h : Gives nodes query value) : query.shape.accepts value = true := by
  obtain ⟨url, s, hReply⟩ := h
  exact accepts_of_ofReply hReply

theorem gives_of_contact (h : (p.contact nodes query s).1 = .result value) :
    Gives nodes query value := by
  unfold Pool.contact at h
  dsimp only at h
  split at h
  · cases h
  · exact ⟨p.activeUrl s, s.nodes, h⟩

/-- What a read in flight has got so far comes from a node. -/
def Pool.Flight.Given (nodes : Nodes σ) (query : Query) : Pool.Flight → Prop
  | .waiting _ outcome => ∀ value, outcome = .result value → Gives nodes query value
  | .done result => ∀ value, result = .ok value → Gives nodes query value

theorem Pool.Flight.given_done {outcome : Contact}
    (h : ∀ value, outcome = .result value → Gives nodes query value) :
    (Pool.Flight.done (outcome.conclusion query)).Given nodes query := by
  intro value hOk
  cases outcome with
  | result result =>
    cases hOk
    exact h _ rfl
  | refusal message => cases hOk
  | failure cause => cases hOk
  | unsent cause => cases hOk

theorem Pool.Flight.Given.receive {flight : Pool.Flight} (h : flight.Given nodes query)
    (s : PoolState σ) : (p.receive nodes query s flight).1.Given nodes query := by
  rcases receive_cases nodes p query s flight with ⟨result, rfl, hReceive⟩ |
    ⟨left, outcome, rfl, _, hReceive⟩ | ⟨outcome, rfl, _, moved, _, hReceive⟩ |
    ⟨left, outcome, rfl, _, moved, _, hReceive⟩
  · rw [hReceive]
    exact h
  · rw [hReceive]
    exact given_done h
  · rw [hReceive]
    exact given_done h
  · rw [hReceive]
    exact fun _ hResult => gives_of_contact hResult

theorem Pool.Flight.Given.finish {flight : Pool.Flight} (h : flight.Given nodes query)
    (steps : Nat) (s : PoolState σ) (hOk : (p.finish nodes query steps flight s).1 = .ok value) :
    Gives nodes query value := by
  induction steps generalizing flight s with
  | zero =>
    cases flight with
    | done result => exact h value hOk
    | waiting left outcome => cases hOk
  | succ steps ih =>
    cases flight with
    | done result => exact h value hOk
    | waiting left outcome => exact ih (h.receive s) _ hOk

theorem gives_of_read (h : (p.read nodes query s).1 = .ok value) : Gives nodes query value := by
  have hLaunched : (p.launch nodes query s).1.Given nodes query :=
    fun _ hResult => gives_of_contact hResult
  exact hLaunched.finish p.size _ h

end Reads

/-! ## Reads that are answered at once -/

section Prompt

variable {nodes : Nodes σ} {p : Pool} {query : Query} {s : PoolState σ} {value : Json}

namespace Pool

/-- A read whose first contact gives a result is done. -/
theorem read_of_contact (hSome : p.size ≠ 0)
    (h : p.contact nodes query s = (.result value, s)) :
    p.read nodes query s = (.ok value, s) := by
  obtain ⟨n, hSize⟩ := Nat.exists_eq_succ_of_ne_zero hSome
  unfold read launch
  rw [h, hSize]
  exact (finish_succ nodes p query n _ _ s).trans (finish_done nodes p query n _ s)

/-- The first contacts of reads, each with its number, give these results. -/
def Prompt (nodes : Nodes σ) (p : Pool) (s : PoolState σ) (seats : List (Nat × Query × Json)) :
    Prop :=
  ∀ seat ∈ seats, p.contact nodes seat.2.1 s = (.result seat.2.2, s)

/-- The line of such reads when they have been launched. -/
def promptLine (p : Pool) (seats : List (Nat × Query × Json)) : List (Nat × Query × Flight) :=
  seats.map fun seat => (seat.1, seat.2.1, .waiting (p.size - 1) (.result seat.2.2))

theorem Prompt.launchAll_eq {seats : List (Nat × Query × Json)} (h : p.Prompt nodes s seats) :
    p.launchAll nodes (seats.map fun seat => (seat.1, seat.2.1)) s = (p.promptLine seats, s) := by
  induction seats with
  | nil => rfl
  | cons seat rest ih =>
    have hSettle : p.settle nodes seat.2.1 p.size (.waiting (p.size - 1) (.result seat.2.2)) s =
        (.waiting (p.size - 1) (.result seat.2.2), s) := by
      cases p.size <;> rfl
    have hRest := ih fun next hMem => h next (List.mem_cons_of_mem _ hMem)
    rw [List.map_cons, launchAll, launch, h seat List.mem_cons_self]
    dsimp only
    rw [hSettle]
    dsimp only
    rw [hRest]
    rfl

/-- It takes one look at each of them to finish it. -/
theorem finishTogether_promptLine (nodes : Nodes σ) (p : Pool) (s : PoolState σ)
    {seats : List (Nat × Query × Json)} {steps : Nat} (hSteps : seats.length ≤ steps) :
    p.finishTogether nodes steps (p.promptLine seats) s =
      (seats.map fun seat => (seat.1, .ok seat.2.2), s) := by
  induction seats generalizing steps with
  | nil => cases steps <;> rfl
  | cons seat rest ih =>
    cases steps with
    | zero => cases hSteps
    | succ steps =>
      have hDone : p.proceed nodes seat.2.1 (.waiting (p.size - 1) (.result seat.2.2)) s =
          (.done (.ok seat.2.2), s) := settle_done nodes p seat.2.1 p.size (.ok seat.2.2) s
      have hRest := ih (Nat.le_of_succ_le_succ hSteps)
      show p.finishTogether nodes (steps + 1) ((seat.1, seat.2.1, _) :: p.promptLine rest) s = _
      rw [finishTogether_cons_done nodes p hDone, hRest]
      rfl

/-- Reads that are made together and are answered at once have these results. -/
theorem Prompt.readTogether_eq {seats : List (Nat × Query × Json)} {queries : List Query}
    (h : p.Prompt nodes s seats) (hSome : p.size ≠ 0)
    (hSeats : (List.range queries.length).zip queries =
      seats.map fun seat => (seat.1, seat.2.1)) :
    p.readTogether nodes queries s =
      (fun place => ((seats.map fun seat => (seat.1, .ok seat.2.2)).lookup place).getD
        (.error (noneLeft (queries.getD place default))), s) := by
  have hLength := congrArg List.length hSeats
  rw [List.length_zip, List.length_range, Nat.min_self, List.length_map] at hLength
  have hSteps : seats.length ≤ queries.length * p.size :=
    hLength ▸ Nat.le_mul_of_pos_right _ (Nat.pos_of_ne_zero hSome)
  unfold readTogether
  rw [hSeats, h.launchAll_eq]
  dsimp only
  rw [finishTogether_promptLine nodes p s hSteps]

/-- The reads of a price are answered as they would be one by one, if the first contact of each
gives a result. -/
theorem fees_of_contacts {probe : CallObject} {gas block tip : Json} (hSome : p.size ≠ 0)
    (hGas : p.contact nodes (.estimateGas probe) s = (.result gas, s))
    (hBlock : p.contact nodes .latestBlock s = (.result block, s))
    (hTip : p.contact nodes .priorityFee s = (.result tip, s)) :
    p.fees nodes probe s =
      (⟨.now (.value (wideOf gas)), .now (answerOf (baseFeeResult (.ok block))),
        .now (.value (wideOf tip))⟩, s) := by
  have hPrompt : p.Prompt nodes s
      [(0, .estimateGas probe, gas), (1, .latestBlock, block), (2, .priorityFee, tip)] := by
    simp [Prompt, hGas, hBlock, hTip]
  unfold fees
  rw [hPrompt.readTogether_eq hSome rfl]
  rfl

end Pool

end Prompt

/-! ## Numbers -/

/-- In this state a read of the pool is answered with the number, which a node has given. -/
def Pool.Reports (nodes : Nodes σ) (p : Pool) (query : Query) (s : PoolState σ) (n : Nat) : Prop :=
  ∃ value, (p.read nodes query s).1 = .ok value ∧ Gives nodes query value ∧
    quantity? 64 value = some n

theorem wideOf_of_quantity? {value : Json} {n : Nat} (h : quantity? 64 value = some n) :
    wideOf value = BitVec.ofNat 256 n := by
  unfold wideOf
  rw [h, Option.getD_some]

theorem toNat_lowWordOf {value : Json} {n : Nat} (h : quantity? 64 value = some n) :
    (lowWordOf value).toNat = n % 2 ^ 64 := by
  unfold lowWordOf
  rw [wideOf_of_quantity? h, BitVec.toNat_ofNat, BitVec.toNat_ofNat]
  exact Nat.mod_mod_of_dvd n (by decide)

section Numbers

variable {nodes : Nodes σ} {p : Pool} {query : Query} {s : PoolState σ} {n m : Nat} {word : Word64}

theorem Pool.Reports.unique (h : p.Reports nodes query s n) (g : p.Reports nodes query s m) :
    n = m := by
  obtain ⟨value, hRead, _, hNumber⟩ := h
  obtain ⟨other, gRead, _, gNumber⟩ := g
  cases hRead.symm.trans gRead
  exact Option.some.inj (hNumber.symm.trans gNumber)

/-- A word that is read off a number is its low 64 bits. -/
theorem exists_reports (hShape : query.shape = .wide)
    (h : (Pool.replyOf (Pool.mapResult lowWordOf (p.read nodes query s))).1.answer =
      .value word) : ∃ n, p.Reports nodes query s n ∧ word.toNat = n % 2 ^ 64 := by
  rcases hRead : p.read nodes query s with ⟨failure | value, after⟩
  · rw [hRead] at h
    cases h
  · rw [hRead] at h
    cases h
    have hOk : (p.read nodes query s).1 = .ok value := congrArg Prod.fst hRead
    have hGives := gives_of_read hOk
    have hAccepts := hGives.accepts
    rw [hShape] at hAccepts
    obtain ⟨n, hNumber⟩ := Option.isSome_iff_exists.mp hAccepts
    exact ⟨n, ⟨value, hOk, hGives, hNumber⟩, toNat_lowWordOf hNumber⟩

variable {genesis : String → σ → Except GenesisError Word64 × σ}

/-- The chain's id is known by the low bits of what was reported. -/
theorem Pool.exists_reports_chainId
    (h : ((p.network nodes genesis).chainId s).1.answer = .value word) :
    ∃ n, p.Reports nodes .chainId s n ∧ word.toNat = n % 2 ^ 64 := exists_reports rfl h

/-- So is the pending count of an account. -/
theorem Pool.exists_reports_pendingCount {account : Address}
    (h : ((p.network nodes genesis).pendingCount account s).1.answer = .value word) :
    ∃ n, p.Reports nodes (.pendingCount account) s n ∧ word.toNat = n % 2 ^ 64 :=
  exists_reports rfl h

end Numbers

end TxLoad.Endpoint
