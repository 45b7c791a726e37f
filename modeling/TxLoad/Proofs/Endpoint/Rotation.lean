import TxLoad.Proofs.Endpoint.Outage

/-! # Calls that are made one after the other

A read on its own goes round the pool: it begins with the active node, contacts each node at most
once, and ends with the first that answers, which is then the active one. Where none answers, it has
contacted all, and the node that was active is active again. `Tries` is the course of such a read. A
submission contacts the active node, and no other. So the choice of a node that the calls share
stays within the pool, whatever calls are made in what order.
-/

namespace TxLoad.Endpoint

open Pool

variable {σ : Type}

/-! ## Contacts -/

/-- A contact with the node at a position: what came of it, and the nodes before and after it. -/
structure Attempt (σ : Type) where
  position : Nat
  before : σ
  outcome : Contact
  after : σ

/-- The attempt makes one request, to the node at its position; it makes none if nothing can be sent
there. -/
inductive Attempt.Genuine (nodes : Nodes σ) (p : Pool) (query : Query) : Attempt σ → Prop
  | sent {position : Nat} {url : String} {before after : σ} {reply : HttpReply}
      (hUrl : p.urls[position]? = some url)
      (hSendable : (Url.ofText url).toOption.bind Url.unsendable? = none)
      (hReply : nodes url query before = (reply, after)) :
      Genuine nodes p query ⟨position, before, .ofReply query.shape reply, after⟩
  | unsent {position : Nat} {url cause : String} {s : σ} (hUrl : p.urls[position]? = some url)
      (hUnsendable : (Url.ofText url).toOption.bind Url.unsendable? = some cause) :
      Genuine nodes p query ⟨position, s, .unsent cause, s⟩

/-- Each attempt finds the nodes as the one before it has left them. -/
def Threaded : σ → List (Attempt σ) → σ → Prop
  | s, [], s' => s' = s
  | s, attempt :: rest, s' => attempt.before = s ∧ Threaded attempt.after rest s'

namespace Pool

theorem activeUrl_of_lt {p : Pool} {s : PoolState σ} (hActive : s.active < p.size) :
    p.urls[s.active]? = some (p.activeUrl s) := by
  unfold activeUrl
  rw [Nat.mod_eq_of_lt hActive, List.getD_eq_getElem?_getD, List.getElem?_eq_getElem hActive]
  rfl

/-- The contact with the active node. -/
def attempt (nodes : Nodes σ) (p : Pool) (query : Query) (s : PoolState σ) : Attempt σ where
  position := s.active
  before := s.nodes
  outcome := (p.contact nodes query s).1
  after := (p.contact nodes query s).2.nodes

theorem genuine_attempt (nodes : Nodes σ) (p : Pool) (query : Query) {s : PoolState σ}
    (hActive : s.active < p.size) : (p.attempt nodes query s).Genuine nodes p query := by
  have hUrl := activeUrl_of_lt hActive
  unfold attempt contact
  dsimp only
  cases hSendable : (Url.ofText (p.activeUrl s)).toOption.bind Url.unsendable? with
  | some cause => exact .unsent hUrl hSendable
  | none => exact .sent hUrl hSendable rfl

/-- A failed contact moves the pool on and leaves the nodes as they are. -/
theorem receive_failed (nodes : Nodes σ) (p : Pool) (query : Query) (s : PoolState σ)
    {outcome : Contact} (hFailure : outcome.isFailure = true) :
    ∃ moved : PoolState σ, moved.active = (s.active + 1) % p.size ∧ moved.nodes = s.nodes ∧
      p.receive nodes query s (.waiting 0 outcome) = (.done (outcome.conclusion query), moved) ∧
      ∀ left, p.receive nodes query s (.waiting (left + 1) outcome) =
        (.waiting left (p.contact nodes query moved).1, (p.contact nodes query moved).2) := by
  cases outcome with
  | result value => cases hFailure
  | refusal message => cases hFailure
  | failure cause =>
    exact ⟨p.advance { s with notices := s.notices ++ [.callFailed query.method cause] },
      rfl, rfl, rfl, fun _ => rfl⟩
  | unsent cause =>
    exact ⟨p.advance { s with notices := s.notices ++ [.callFailed query.method cause] },
      rfl, rfl, rfl, fun _ => rfl⟩

/-! ## A read on its own -/

/-- The attempts of a read that contacts the node at `position` first and may contact `left` more;
what it comes to, and the active node and the state of the nodes after it. -/
inductive Tries (nodes : Nodes σ) (p : Pool) (query : Query) :
    (left position : Nat) → σ → List (Attempt σ) → Except CallFailure Json → (active : Nat) → σ →
      Prop
  | answered {left : Nat} {attempt : Attempt σ} (hGenuine : attempt.Genuine nodes p query)
      (hAnswer : attempt.outcome.isFailure = false) :
      Tries nodes p query left attempt.position attempt.before [attempt]
        (attempt.outcome.conclusion query) attempt.position attempt.after
  | exhausted {attempt : Attempt σ} (hGenuine : attempt.Genuine nodes p query)
      (hFailure : attempt.outcome.isFailure = true) :
      Tries nodes p query 0 attempt.position attempt.before [attempt]
        (attempt.outcome.conclusion query) ((attempt.position + 1) % p.size) attempt.after
  | next {left active : Nat} {attempt : Attempt σ} {rest : List (Attempt σ)}
      {result : Except CallFailure Json} {s' : σ} (hGenuine : attempt.Genuine nodes p query)
      (hFailure : attempt.outcome.isFailure = true)
      (hRest : Tries nodes p query left ((attempt.position + 1) % p.size) attempt.after rest result
        active s') :
      Tries nodes p query (left + 1) attempt.position attempt.before (attempt :: rest) result active
        s'

theorem finish_succ (nodes : Nodes σ) (p : Pool) (query : Query) (steps left : Nat)
    (outcome : Contact) (s : PoolState σ) :
    p.finish nodes query (steps + 1) (.waiting left outcome) s =
      p.finish nodes query steps (p.receive nodes query s (.waiting left outcome)).1
        (p.receive nodes query s (.waiting left outcome)).2 := rfl

theorem finish_done (nodes : Nodes σ) (p : Pool) (query : Query) (steps : Nat)
    (result : Except CallFailure Json) (s : PoolState σ) :
    p.finish nodes query steps (.done result) s = (result, s) := by
  cases steps <;> rfl

/-- A read that was answered is done. -/
theorem exists_tries_of_answer {nodes : Nodes σ} {p : Pool} {query : Query} {left steps : Nat}
    {s : PoolState σ} (hActive : s.active < p.size)
    (hAnswer : (p.contact nodes query s).1.isFailure = false) :
    ∃ attempts result s',
      p.finish nodes query (steps + 1) (.waiting left (p.contact nodes query s).1)
        (p.contact nodes query s).2 = (result, s') ∧
      Tries nodes p query left s.active s.nodes attempts result s'.active s'.nodes := by
  have hTries : Tries nodes p query left _ _ [p.attempt nodes query s] _ _ _ :=
    .answered (genuine_attempt nodes p query hActive) hAnswer
  refine ⟨[p.attempt nodes query s], (p.contact nodes query s).1.conclusion query,
    (p.contact nodes query s).2, ?_, ?_⟩
  · rw [finish_succ, receive_answer nodes p query _ left hAnswer]
    exact finish_done ..
  · rw [active_contact]
    exact hTries

/-- A read that has just made a contact, and has enough steps left, makes its attempts. -/
theorem exists_tries (nodes : Nodes σ) (p : Pool) (query : Query) (left steps : Nat)
    {s : PoolState σ} (hSteps : left < steps) (hActive : s.active < p.size) :
    ∃ attempts result s',
      p.finish nodes query steps (.waiting left (p.contact nodes query s).1)
        (p.contact nodes query s).2 = (result, s') ∧
      Tries nodes p query left s.active s.nodes attempts result s'.active s'.nodes := by
  induction left generalizing steps s with
  | zero =>
    obtain ⟨more, rfl⟩ : ∃ more, steps = more + 1 := ⟨steps - 1, by omega⟩
    have hGenuine := genuine_attempt nodes p query hActive
    cases hOutcome : (p.contact nodes query s).1.isFailure with
    | false => exact exists_tries_of_answer hActive hOutcome
    | true =>
      obtain ⟨moved, hMoved, hNodes, hLast, _⟩ :=
        receive_failed nodes p query (p.contact nodes query s).2 hOutcome
      rw [active_contact] at hMoved
      refine ⟨[p.attempt nodes query s], (p.contact nodes query s).1.conclusion query, moved, ?_,
        ?_⟩
      · rw [finish_succ, hLast]
        exact finish_done ..
      · have hTries := Tries.exhausted hGenuine hOutcome
        rw [hMoved, hNodes]
        exact hTries
  | succ left ih =>
    obtain ⟨more, rfl⟩ : ∃ more, steps = more + 1 := ⟨steps - 1, by omega⟩
    have hGenuine := genuine_attempt nodes p query hActive
    cases hOutcome : (p.contact nodes query s).1.isFailure with
    | false => exact exists_tries_of_answer hActive hOutcome
    | true =>
      obtain ⟨moved, hMoved, hNodes, _, hMore⟩ :=
        receive_failed nodes p query (p.contact nodes query s).2 hOutcome
      rw [active_contact] at hMoved
      have hBelow : moved.active < p.size := by
        rw [hMoved]
        exact Nat.mod_lt _ (by omega)
      obtain ⟨attempts, result, s', hFinish, hTries⟩ := ih more (by omega) hBelow
      rw [hMoved, hNodes] at hTries
      have hAll := Tries.next hGenuine hOutcome hTries
      refine ⟨p.attempt nodes query s :: attempts, result, s', ?_, hAll⟩
      rw [finish_succ, hMore]
      exact hFinish

namespace Tries

variable {nodes : Nodes σ} {p : Pool} {query : Query} {left position active : Nat} {s s' : σ}
  {attempts : List (Attempt σ)} {result : Except CallFailure Json}

theorem genuine (h : Tries nodes p query left position s attempts result active s') :
    ∀ attempt ∈ attempts, attempt.Genuine nodes p query := by
  induction h with
  | answered hGenuine _ => exact List.forall_mem_singleton.mpr hGenuine
  | exhausted hGenuine _ => exact List.forall_mem_singleton.mpr hGenuine
  | next hGenuine _ _ ih => exact List.forall_mem_cons.mpr ⟨hGenuine, ih⟩

theorem threaded (h : Tries nodes p query left position s attempts result active s') :
    Threaded s attempts s' := by
  induction h with
  | answered => exact ⟨rfl, rfl⟩
  | exhausted => exact ⟨rfl, rfl⟩
  | next _ _ _ ih => exact ⟨rfl, ih⟩

theorem length_le (h : Tries nodes p query left position s attempts result active s') :
    attempts.length ≤ left + 1 := by
  induction h with
  | answered => exact Nat.succ_le_succ (Nat.zero_le _)
  | exhausted => exact Nat.le_refl _
  | next _ _ _ ih => exact Nat.succ_le_succ ih

/-- The nodes are contacted in their order, from the first position on. -/
theorem positions_eq (h : Tries nodes p query left position s attempts result active s')
    (hPosition : position < p.size) : attempts.map Attempt.position =
      (List.range attempts.length).map fun i => (position + i) % p.size := by
  induction h with
  | answered => exact congrArg (fun i => [i]) (Nat.mod_eq_of_lt hPosition).symm
  | exhausted => exact congrArg (fun i => [i]) (Nat.mod_eq_of_lt hPosition).symm
  | @next left active attempt rest result s' _ _ _ ih =>
    have hNext := Nat.mod_lt (attempt.position + 1) (Nat.zero_lt_of_lt hPosition)
    have hFirst : (attempt.position + 0) % p.size = attempt.position :=
      Nat.mod_eq_of_lt hPosition
    rw [List.map_cons, ih hNext, List.length_cons, List.range_succ_eq_map, List.map_cons,
      List.map_map, hFirst]
    refine congrArg (attempt.position :: ·) (List.map_congr_left fun i _ => ?_)
    show ((attempt.position + 1) % p.size + i) % p.size = (attempt.position + (i + 1)) % p.size
    rw [Nat.mod_add_mod, Nat.add_assoc, Nat.add_comm 1 i]

/-- All attempts but the last have failed, and what comes of the last decides. -/
theorem last_eq (h : Tries nodes p query left position s attempts result active s') :
    ∃ earlier last, attempts = earlier ++ [last] ∧
      (∀ attempt ∈ earlier, attempt.outcome.isFailure = true) ∧
      result = last.outcome.conclusion query ∧
      (last.outcome.isFailure = false → active = last.position) ∧
      (last.outcome.isFailure = true →
        earlier.length = left ∧ active = (last.position + 1) % p.size) := by
  induction h with
  | @answered left attempt _ hAnswer =>
    refine ⟨[], attempt, rfl, by simp, rfl, fun _ => rfl, fun hFailure => ?_⟩
    rw [hAnswer] at hFailure
    cases hFailure
  | @exhausted attempt _ hFailure =>
    refine ⟨[], attempt, rfl, by simp, rfl, fun hAnswer => ?_, fun _ => ⟨rfl, rfl⟩⟩
    rw [hFailure] at hAnswer
    cases hAnswer
  | @next left active attempt rest result s' _ hFailure _ ih =>
    obtain ⟨earlier, last, rfl, hEarlier, hResult, hAnswered, hFailed⟩ := ih
    refine ⟨attempt :: earlier, last, rfl, List.forall_mem_cons.mpr ⟨hFailure, hEarlier⟩, hResult,
      hAnswered, fun hLast => ?_⟩
    obtain ⟨hLength, hActive⟩ := hFailed hLast
    exact ⟨congrArg (· + 1) hLength, hActive⟩

end Tries

/-- Fewer steps than there are positions lead to no position twice. -/
theorem nodup_positions {n count : Nat} (start : Nat) (hCount : count ≤ n) :
    ((List.range count).map fun i => (start + i) % n).Nodup := by
  refine List.nodup_range.map_on fun i hi j hj hSame => ?_
  have hMod : i % n = j % n := Nat.ModEq.add_left_cancel' start hSame
  have hi := List.mem_range.mp hi
  have hj := List.mem_range.mp hj
  rwa [Nat.mod_eq_of_lt (by omega), Nat.mod_eq_of_lt (by omega)] at hMod

/-- What a read on its own does that begins in `s`: it goes round the nodes. -/
structure Rotates (nodes : Nodes σ) (p : Pool) (query : Query) (s : PoolState σ)
    (attempts : List (Attempt σ)) (result : Except CallFailure Json) (s' : PoolState σ) :
    Prop where
  genuine : ∀ attempt ∈ attempts, attempt.Genuine nodes p query
  threaded : Threaded s.nodes attempts s'.nodes
  positions : attempts.map Attempt.position =
    (List.range attempts.length).map fun i => (s.active + i) % p.size
  nodup : (attempts.map Attempt.position).Nodup
  active_lt : s'.active < p.size
  /-- Only the last attempt can be answered. Then the answer is the result and its node stays
  active; else all nodes have failed, and the active node is the same as before. -/
  settled : ∃ earlier last, attempts = earlier ++ [last] ∧
    (∀ attempt ∈ earlier, attempt.outcome.isFailure = true) ∧
    result = last.outcome.conclusion query ∧
    (last.outcome.isFailure = false → s'.active = last.position) ∧
    (last.outcome.isFailure = true → attempts.length = p.size ∧
      (∀ position < p.size, position ∈ attempts.map Attempt.position) ∧ s'.active = s.active)

theorem Tries.rotates {nodes : Nodes σ} {p : Pool} {query : Query} {s s' : PoolState σ}
    {attempts : List (Attempt σ)} {result : Except CallFailure Json} (hActive : s.active < p.size)
    (h : Tries nodes p query (p.size - 1) s.active s.nodes attempts result s'.active s'.nodes) :
    p.Rotates nodes query s attempts result s' := by
  have hPositions := h.positions_eq hActive
  have hLength := h.length_le
  have hNodup : (attempts.map Attempt.position).Nodup := by
    rw [hPositions]
    exact nodup_positions s.active (by omega)
  have hBelow : ∀ position ∈ attempts.map Attempt.position, position < p.size := by
    rw [hPositions]
    intro position hMem
    obtain ⟨i, _, rfl⟩ := List.mem_map.mp hMem
    exact Nat.mod_lt _ (by omega)
  obtain ⟨earlier, last, rfl, hEarlier, hResult, hAnswered, hFailed⟩ := h.last_eq
  have hLast : last.position = (s.active + earlier.length) % p.size := by
    rw [List.map_append, List.length_append, List.length_singleton, List.range_succ,
      List.map_append] at hPositions
    exact List.head_eq_of_cons_eq (List.append_inj' hPositions rfl).2
  refine
    { genuine := h.genuine
      threaded := h.threaded
      positions := hPositions
      nodup := hNodup
      active_lt := ?_
      settled := ⟨earlier, last, rfl, hEarlier, hResult, hAnswered, fun hFailure => ?_⟩ }
  · cases hOutcome : last.outcome.isFailure with
    | false =>
      rw [hAnswered hOutcome, hLast]
      exact Nat.mod_lt _ (by omega)
    | true =>
      rw [(hFailed hOutcome).2]
      exact Nat.mod_lt _ (by omega)
  · obtain ⟨hEarlierLength, hMoved⟩ := hFailed hFailure
    have hAll : (earlier ++ [last]).length = p.size := by
      rw [List.length_append, List.length_singleton]
      omega
    have hBack : s.active + earlier.length + 1 = s.active + p.size := by omega
    refine ⟨hAll, (mem_all_iff_nodup hBelow ((List.length_map _).trans hAll)).mpr hNodup, ?_⟩
    rw [hMoved, hLast, Nat.mod_add_mod, hBack, Nat.add_mod_right, Nat.mod_eq_of_lt hActive]

theorem exists_rotates (nodes : Nodes σ) (p : Pool) (query : Query) {s : PoolState σ}
    (hActive : s.active < p.size) :
    ∃ attempts, p.Rotates nodes query s attempts (p.read nodes query s).1
      (p.read nodes query s).2 := by
  obtain ⟨attempts, result, s', hFinish, hTries⟩ :=
    exists_tries nodes p query (p.size - 1) p.size (by omega) hActive
  have hRead : p.read nodes query s = (result, s') := hFinish
  rw [hRead]
  exact ⟨attempts, hTries.rotates hActive⟩

/-! ## A submission -/

/-- What a submission does that begins in `s`: it makes one attempt, with the active node, and
whatever comes of it, that node stays active. -/
structure Submits (nodes : Nodes σ) (p : Pool) (payload : Bytes) (s : PoolState σ)
    (attempt : Attempt σ) (result : Except CallFailure Hash) (s' : PoolState σ) : Prop where
  genuine : attempt.Genuine nodes p (.submit payload)
  threaded : Threaded s.nodes [attempt] s'.nodes
  position : attempt.position = s.active
  active_eq : s'.active = s.active
  result_eq : result = (attempt.outcome.conclusion (.submit payload)).map fun value =>
    (hashOf? value).getD ⟨0⟩

theorem submits_submit (nodes : Nodes σ) (p : Pool) (payload : Bytes) {s : PoolState σ}
    (hActive : s.active < p.size) :
    p.Submits nodes payload s (p.attempt nodes (.submit payload) s) (p.submit nodes payload s).1
      (p.submit nodes payload s).2 := by
  have hAfter : p.submit nodes payload s =
      (((p.contact nodes (.submit payload) s).1.conclusion (.submit payload)).map fun value =>
        (hashOf? value).getD ⟨0⟩, (p.contact nodes (.submit payload) s).2) := by
    unfold submit
    dsimp only
    rcases p.contact nodes (.submit payload) s with ⟨_ | _ | _ | _, _⟩ <;> rfl
  rw [hAfter]
  exact
    { genuine := genuine_attempt nodes p _ hActive
      threaded := ⟨rfl, rfl⟩
      position := rfl
      active_eq := active_contact nodes p _ s
      result_eq := rfl }

/-! ## Any number of calls -/

/-- A call is made on its own, or the nodes change by themselves. -/
inductive Moves (nodes : Nodes σ) (p : Pool) : PoolState σ → PoolState σ → Prop
  | drift (s : PoolState σ) (changed : σ) : Moves nodes p s { s with nodes := changed }
  | read (s : PoolState σ) (query : Query) : Moves nodes p s (p.read nodes query s).2
  | submit (s : PoolState σ) (payload : Bytes) : Moves nodes p s (p.submit nodes payload s).2

theorem Moves.active_lt {nodes : Nodes σ} {p : Pool} {s s' : PoolState σ}
    (h : Moves nodes p s s') (hActive : s.active < p.size) : s'.active < p.size := by
  cases h with
  | drift changed => exact hActive
  | read query =>
    obtain ⟨_, hRotates⟩ := exists_rotates nodes p query hActive
    exact hRotates.active_lt
  | submit payload =>
    rw [(submits_submit nodes p payload hActive).active_eq]
    exact hActive

/-- After any calls that were made one after the other, the active node is one of the pool. The next
read goes round the nodes from there, and the next submission contacts that node only. -/
theorem calls_rotate {nodes : Nodes σ} {p : Pool} {s u : PoolState σ} (hActive : s.active < p.size)
    (hMoves : Relation.ReflTransGen (Moves nodes p) s u) :
    u.active < p.size ∧
      (∀ query, ∃ attempts, p.Rotates nodes query u attempts (p.read nodes query u).1
        (p.read nodes query u).2) ∧
      ∀ payload, ∃ attempt, p.Submits nodes payload u attempt (p.submit nodes payload u).1
        (p.submit nodes payload u).2 := by
  have hReached : u.active < p.size := by
    induction hMoves with
    | refl => exact hActive
    | tail _ hMove ih => exact hMove.active_lt ih
  exact ⟨hReached, fun query => exists_rotates nodes p query hReached,
    fun payload => ⟨_, submits_submit nodes p payload hReached⟩⟩

/-- A read finds the first of two nodes silent and moves on to the second, which then gets the
submission. -/
theorem pairPool_moves_on :
    ∃ u, Relation.ReflTransGen (Moves oneSilent pairPool) { nodes := () } u ∧ u.active = 1 ∧
      ∃ attempt, attempt.position = 1 ∧
        pairPool.Submits oneSilent [] u attempt (pairPool.submit oneSilent [] u).1
          (pairPool.submit oneSilent [] u).2 := by
  have hRead : Moves oneSilent pairPool { nodes := () } _ := .read _ .chainId
  have hActive : (pairPool.read oneSilent .chainId { nodes := () }).2.active = 1 := by
    decide +kernel
  obtain ⟨_, _, hSubmits⟩ := calls_rotate (by decide) (Relation.ReflTransGen.single hRead)
  obtain ⟨attempt, hAttempt⟩ := hSubmits []
  exact ⟨_, .single hRead, hActive, attempt, hAttempt.position.trans hActive, hAttempt⟩

end Pool

end TxLoad.Endpoint
