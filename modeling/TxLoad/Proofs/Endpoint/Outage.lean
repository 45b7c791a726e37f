import Mathlib.Data.List.Chain
import Mathlib.Data.List.Nodup
import Mathlib.Data.List.Perm.Subperm
import Mathlib.Data.Nat.ModEq
import TxLoad.Proofs.Endpoint.Interleaving

/-! # Reads that find no node

A read whose last contact fails reports a failure although it may not have contacted every node: a
read beside it that fails moves the pool on as well, so a node may be passed over and another one be
contacted twice. `outage_reaches_all_iff` says when every node is reached, and `exists_outage` that
two reads at two nodes suffice for one not to be.
-/

namespace TxLoad.Endpoint

open Pool

variable {σ : Type}

/-- The read is done, and what it reports is the failure of its last contact. -/
def Voyage.Outage (v : Voyage) : Prop :=
  ∃ last, v.visits.getLast? = some last ∧ last.outcome.isFailure = true ∧
    v.flight = .done (last.outcome.conclusion v.query)

/-- A list of as many numbers below `n` as there are has all of them if it has none twice. -/
theorem mem_all_iff_nodup {l : List Nat} {n : Nat} (hBelow : ∀ a ∈ l, a < n)
    (hLength : l.length = n) : (∀ a < n, a ∈ l) ↔ l.Nodup := by
  have hRange : l ⊆ List.range n := fun a ha => List.mem_range.mpr (hBelow a ha)
  constructor
  · intro hAll
    have hSub : (List.range n).Subperm l :=
      List.subperm_of_subset List.nodup_range fun a ha => hAll a (List.mem_range.mp ha)
    have hPerm := hSub.perm_of_length_le (by rw [hLength, List.length_range])
    exact hPerm.nodup_iff.mp List.nodup_range
  · intro hNodup a ha
    have hPerm := (List.subperm_of_subset hNodup hRange).perm_of_length_le
      (by rw [hLength, List.length_range])
    exact hPerm.mem_iff.mpr (List.mem_range.mpr ha)

namespace Voyage

variable {nodes : Nodes σ} {p : Pool} {base turns : Nat} {v : Voyage}

/-- A read that ends with a failed contact has made as many contacts as there are nodes. -/
theorem Sound.visits_of_outage (h : v.Sound nodes p base turns) (hOutage : v.Outage) :
    v.visits.length = p.size ∧ ∀ visit ∈ v.visits, visit.outcome.isFailure = true := by
  obtain ⟨last, hLast, hFailure, hDone⟩ := hOutage
  have hTrail := h.trail
  rw [hDone] at hTrail
  obtain ⟨earlier, final, hVisits, hFailed, hCount⟩ := hTrail.done_inv
  rw [hVisits, List.getLast?_concat] at hLast
  obtain rfl := Option.some.inj hLast
  rw [hVisits]
  constructor
  · rw [List.length_append, List.length_singleton]
    exact hCount hFailure
  · intro visit hVisit
    rcases List.mem_append.mp hVisit with hVisit | hVisit
    · exact hFailed visit hVisit
    · obtain rfl := List.mem_singleton.mp hVisit
      exact hFailure

/-- The positions of a read's contacts differ as the numbers of moves before them do. -/
theorem Sound.nodup_positions (h : v.Sound nodes p base turns) :
    (v.visits.map Visit.position).Nodup ↔
      (v.visits.map fun visit => visit.turn % p.size).Nodup := by
  have hSame : ∀ visit ∈ v.visits, ∀ next ∈ v.visits,
      (visit.position ≠ next.position ↔ visit.turn % p.size ≠ next.turn % p.size) := by
    intro visit hVisit next hNext
    rw [h.placed visit hVisit, h.placed next hNext]
    exact not_congr ⟨Nat.ModEq.add_left_cancel' base, Nat.ModEq.add_left base⟩
  unfold List.Nodup
  rw [List.pairwise_map, List.pairwise_map]
  exact List.Pairwise.iff_of_mem fun {visit next} hVisit hNext => hSame visit hVisit next hNext

/-- A read whose last contact failed has reached every node exactly if its contacts were made after
numbers of moves that differ modulo the number of nodes. -/
theorem Sound.reached_all_iff (hPool : p.size ≠ 0) (h : v.Sound nodes p base turns)
    (hOutage : v.Outage) :
    (∀ position < p.size, ∃ visit ∈ v.visits, visit.position = position) ↔
      (v.visits.map fun visit => visit.turn % p.size).Nodup := by
  have hBelow : ∀ position ∈ v.visits.map Visit.position, position < p.size := by
    intro position hPosition
    obtain ⟨visit, hVisit, rfl⟩ := List.mem_map.mp hPosition
    rw [h.placed visit hVisit]
    exact Nat.mod_lt _ (Nat.pos_of_ne_zero hPool)
  have hLength : (v.visits.map Visit.position).length = p.size :=
    (List.length_map _).trans (h.visits_of_outage hOutage).1
  rw [← h.nodup_positions, ← mem_all_iff_nodup hBelow hLength]
  simp only [List.mem_map]

/-- Where no other read fails in between, the numbers of moves follow each other. -/
theorem turn_of_isChain {visit next : Visit} {rest : List Visit}
    (hChain : (visit :: rest).IsChain fun visit next => next.turn = visit.turn + 1)
    (hNext : next ∈ rest) : visit.turn < next.turn ∧ next.turn ≤ visit.turn + rest.length := by
  induction rest generalizing visit with
  | nil => cases hNext
  | cons second rest ih =>
    obtain ⟨hSecond, hRest⟩ := List.isChain_cons_cons.mp hChain
    rw [List.length_cons]
    rcases List.mem_cons.mp hNext with rfl | hNext
    · omega
    · have hLater := ih hRest hNext
      omega

theorem nodup_turns_of_isChain {visits : List Visit} {n : Nat} (hLength : visits.length ≤ n)
    (hChain : visits.IsChain fun visit next => next.turn = visit.turn + 1) :
    (visits.map fun visit => visit.turn % n).Nodup := by
  induction visits with
  | nil => exact List.nodup_nil
  | cons visit rest ih =>
    rw [List.length_cons] at hLength
    refine List.nodup_cons.mpr ⟨?_, ih (by omega) hChain.tail⟩
    intro hMem
    obtain ⟨next, hNext, hSame⟩ := List.mem_map.mp hMem
    have hTurn := turn_of_isChain hChain hNext
    have hDivides : n ∣ next.turn - visit.turn :=
      (Nat.modEq_iff_dvd' (Nat.le_of_lt hTurn.1)).mp hSame.symm
    have hLe := Nat.le_of_dvd (by omega) hDivides
    omega

end Voyage

/-- The node at a position answers whatever it is asked. -/
def Pool.Answers (nodes : Nodes σ) (p : Pool) (position : Nat) : Prop :=
  ∀ (query : Query) (s : PoolState σ), s.active % p.size = position →
    (p.contact nodes query s).1.isFailure = false

/-- A read that ends with a failed contact has made as many contacts as there are nodes, and all
have failed. They were with all nodes exactly if the numbers of failed contacts of all reads before
each of them differ modulo the number of nodes: so it is if no other read fails in between, and so
it cannot be if there is a node that always answers. -/
theorem Traffic.outage_reaches_all_iff {nodes : Nodes σ} {p : Pool} {s : PoolState σ}
    {t : Traffic σ} {v : Voyage} (hPool : p.urls ≠ []) (hReach : Reaches nodes p { state := s } t)
    (hVoyage : v ∈ t.voyages) (hOutage : v.Outage) :
    v.visits.length = p.size ∧
      (∀ visit ∈ v.visits, visit.Genuine nodes p v.query ∧ visit.outcome.isFailure = true) ∧
      ((∀ position < p.size, ∃ visit ∈ v.visits, visit.position = position) ↔
        (v.visits.map fun visit => visit.turn % p.size).Nodup) ∧
      ((v.visits.IsChain fun visit next => next.turn = visit.turn + 1) →
        (v.visits.map fun visit => visit.turn % p.size).Nodup) ∧
      ((∃ position < p.size, p.Answers nodes position) →
        ¬ (v.visits.map fun visit => visit.turn % p.size).Nodup) := by
  have hSize : p.size ≠ 0 := fun h => hPool (List.eq_nil_of_length_eq_zero h)
  have hSound := (sound_of_reaches hSize hReach).voyages v hVoyage
  obtain ⟨hLength, hFailed⟩ := hSound.visits_of_outage hOutage
  have hAll := hSound.reached_all_iff hSize hOutage
  refine ⟨hLength, fun visit hVisit => ⟨hSound.genuine visit hVisit, hFailed visit hVisit⟩, hAll,
    Voyage.nodup_turns_of_isChain (Nat.le_of_eq hLength), ?_⟩
  rintro ⟨position, hPosition, hAnswers⟩ hNodup
  obtain ⟨visit, hVisit, rfl⟩ := hAll.mpr hNodup position hPosition
  obtain ⟨u, hActive, hOutcome⟩ := hSound.genuine visit hVisit
  have hFailure := hFailed visit hVisit
  rw [hOutcome, hAnswers v.query u hActive] at hFailure
  cases hFailure

/-! ## Two reads at two nodes -/

namespace Traffic

variable {nodes : Nodes σ} {p : Pool} {query : Query} {visits : List Visit}

/-- A read can begin with a contact of the active node. -/
theorem step_launch (nodes : Nodes σ) (p : Pool) (t : Traffic σ) (query : Query) :
    ∃ t', Step nodes p t t' ∧ t'.state.active = t.state.active ∧
      t'.voyages = t.voyages ++ [⟨query, .waiting (p.size - 1) (p.contact nodes query t.state).1,
        [⟨t.state.active % p.size, t.turns, (p.contact nodes query t.state).1⟩]⟩] := by
  refine ⟨_, .launch t query, active_contact .., ?_⟩
  rw [← show (p.launch nodes query t.state).2.active = t.state.active from active_contact ..]
  rfl

/-- A read whose contact has failed can go on to the next node. -/
theorem step_failed (nodes : Nodes σ) (p : Pool) (t : Traffic σ) (i : Nat) {left : Nat}
    {outcome : Contact}
    (hVoyage : t.voyages[i]? = some ⟨query, .waiting (left + 1) outcome, visits⟩)
    (hFailure : outcome.isFailure = true) :
    ∃ (t' : Traffic σ) (moved : PoolState σ), Step nodes p t t' ∧
      moved.active = (t.state.active + 1) % p.size ∧ t'.state.active = moved.active ∧
      t'.voyages = t.voyages.set i ⟨query, .waiting left (p.contact nodes query moved).1,
        visits ++ [⟨moved.active % p.size, t.turns + 1, (p.contact nodes query moved).1⟩]⟩ := by
  obtain ⟨moved, hMoved, hReceive⟩ :=
    receive_more nodes p query t.state left hFailure
  refine ⟨_, moved, .receive t i _ hVoyage, hMoved, ?_, ?_⟩
  · rw [hReceive]
    exact active_contact ..
  · rw [hReceive, t.turnsAfter_failed hFailure, ← active_contact nodes p query moved]
    rfl

/-- A read whose last contact has failed can end. -/
theorem step_last (nodes : Nodes σ) (p : Pool) (t : Traffic σ) (i : Nat) {outcome : Contact}
    (hVoyage : t.voyages[i]? = some ⟨query, .waiting 0 outcome, visits⟩)
    (hFailure : outcome.isFailure = true) :
    ∃ t', Step nodes p t t' ∧
      t'.voyages = t.voyages.set i ⟨query, .done (outcome.conclusion query), visits⟩ := by
  obtain ⟨moved, hMoved, hReceive⟩ :=
    receive_last nodes p query t.state hFailure
  refine ⟨_, .receive t i _ hVoyage, ?_⟩
  rw [hReceive]
  rfl

/-- With two nodes of which the first fails, one of two reads may contact only that one. The other
read fails first and moves the pool on, and this one moves it back. -/
theorem exists_outage (nodes : Nodes σ) (p : Pool) (hSize : p.size = 2)
    (hDead : ∀ (query : Query) (s : PoolState σ), s.active % p.size = 0 →
      (p.contact nodes query s).1.isFailure = true)
    (first second : Query) {s : PoolState σ} (hActive : s.active = 0) :
    ∃ t v, Reaches nodes p { state := s } t ∧ v ∈ t.voyages ∧ v.query = second ∧ v.Outage ∧
      ∀ visit ∈ v.visits, visit.position = 0 := by
  obtain ⟨one, hOne, hOneActive, hOneVoyages⟩ := step_launch nodes p { state := s } first
  obtain ⟨both, hBoth, hBothActive, hBothVoyages⟩ := step_launch nodes p one second
  have hFirst := hDead first s (by rw [hActive, Nat.zero_mod])
  have hSecond := hDead second one.state (by rw [hOneActive, hActive, Nat.zero_mod])
  rw [hOneVoyages] at hBothVoyages
  rw [hSize] at hBothVoyages
  -- the other read moves the pool on to the second node
  obtain ⟨away, moved, hAway, hMoved, hAwayActive, hAwayVoyages⟩ :=
    step_failed nodes p both 0 (by rw [hBothVoyages]; rfl) hFirst
  rw [hBothVoyages] at hAwayVoyages
  rw [hBothActive, hOneActive, hActive, hSize] at hMoved
  -- this read moves it back to the first
  obtain ⟨back, again, hBack, hAgain, hBackActive, hBackVoyages⟩ :=
    step_failed nodes p away 1 (by rw [hAwayVoyages]; rfl) hSecond
  rw [hAwayVoyages] at hBackVoyages
  rw [hAwayActive, hMoved, hSize] at hAgain
  have hThird := hDead second again (by rw [hAgain, Nat.mod_self, Nat.zero_mod])
  obtain ⟨ended, hEnded, hEndedVoyages⟩ :=
    step_last nodes p back 1 (by rw [hBackVoyages]; rfl) hThird
  rw [hBackVoyages] at hEndedVoyages
  have hReach : Reaches nodes p { state := s } ended :=
    ((((Relation.ReflTransGen.single hOne).tail hBoth).tail hAway).tail hBack).tail hEnded
  refine ⟨ended, _, hReach, List.mem_of_getElem? (i := 1) (by rw [hEndedVoyages]; rfl), rfl, ?_, ?_⟩
  · exact ⟨_, rfl, hThird, rfl⟩
  · intro visit hVisit
    change visit ∈ [_, _] at hVisit
    rcases List.mem_cons.mp hVisit with rfl | hVisit
    · show one.state.active % 2 = 0
      rw [hOneActive, hActive]
    · obtain rfl := List.mem_singleton.mp hVisit
      show again.active % p.size = 0
      rw [hAgain, hSize]

end Traffic

/-! ### A node that does not answer beside one that refuses everything -/

def pairPool : Pool := ⟨["http://a", "http://b"]⟩

/-- The reply of a node that has no result. -/
def refusalBody : String :=
  "\x7b\"jsonrpc\":\"2.0\",\"id\":1,\"error\":\x7b\"code\":1,\"message\":\"no\"\x7d\x7d"

def oneSilent : Nodes Unit := fun url _ s =>
  if url = "http://a" then (.dropped, s) else (.response 200 refusalBody, s)

theorem readReply?_refusalBody :
    (match readReply? (HttpReply.bodyOf 200 refusalBody) with
      | some (.inr _) => true
      | _ => false) = true := by
  decide +kernel

theorem contact_silent (query : Query) (s : PoolState Unit) (hActive : s.active % 2 = 0) :
    (pairPool.contact oneSilent query s).1.isFailure = true := by
  have hSendable : (Url.ofText "http://a").toOption.bind Url.unsendable? = none := by
    decide +kernel
  have hUrl : pairPool.activeUrl s = "http://a" := by
    show pairPool.urls.getD (s.active % 2) "" = "http://a"
    rw [hActive]
    rfl
  unfold contact
  rw [hUrl]
  simp only [hSendable]
  rfl

theorem answers_pairPool : pairPool.Answers oneSilent 1 := by
  intro query s hActive
  have hSendable : (Url.ofText "http://b").toOption.bind Url.unsendable? = none := by
    decide +kernel
  have hUrl : pairPool.activeUrl s = "http://b" := by
    show pairPool.urls.getD (s.active % 2) "" = "http://b"
    rw [show s.active % 2 = 1 from hActive]
    rfl
  have hReply := readReply?_refusalBody
  unfold contact
  rw [hUrl]
  simp only [hSendable]
  show (Contact.ofReply query.shape (.response 200 refusalBody)).isFailure = false
  unfold Contact.ofReply
  split at hReply
  · simp only [*]
    rfl
  · cases hReply

/-- The read reports that nobody answered. -/
def isUnanswered : Except CallFailure Json → Bool
  | .ok _ => false
  | .error failure => failure.message == HttpReply.unanswered

/-- One of two reads reports that nobody answered and has not contacted the node that answers; so it
is with the second of two reads that are made together. -/
theorem pairPool_outage :
    pairPool.Answers oneSilent 1 ∧
      (∃ t v, Traffic.Reaches oneSilent pairPool { state := { nodes := () } } t ∧ v ∈ t.voyages ∧
        v.Outage ∧ ∀ visit ∈ v.visits, visit.position ≠ 1) ∧
      isUnanswered ((pairPool.readTogether oneSilent [.chainId, .chainId] { nodes := () }).1 1) =
        true := by
  obtain ⟨t, v, hReach, hVoyage, _, hOutage, hPositions⟩ :=
    Traffic.exists_outage oneSilent pairPool rfl contact_silent .chainId .chainId
      (s := { nodes := () }) rfl
  refine ⟨answers_pairPool, ⟨t, v, hReach, hVoyage, hOutage, fun visit hVisit => ?_⟩, ?_⟩
  · rw [hPositions visit hVisit]
    exact Nat.zero_ne_one
  · decide +kernel

/-- The contacts of that read were made after numbers of failures that agree modulo two. -/
theorem pairPool_turns_agree :
    pairPool.urls ≠ [] ∧
      ∃ t v, Traffic.Reaches oneSilent pairPool { state := { nodes := () } } t ∧ v ∈ t.voyages ∧
        v.Outage ∧ v.visits.length = 2 ∧ ¬ (v.visits.map fun visit => visit.turn % 2).Nodup := by
  obtain ⟨t, v, hReach, hVoyage, _, hOutage, _⟩ :=
    Traffic.exists_outage oneSilent pairPool rfl contact_silent .chainId .chainId
      (s := { nodes := () }) rfl
  have hSome : pairPool.urls ≠ [] := by decide
  obtain ⟨hLength, _, _, _, hNever⟩ :=
    Traffic.outage_reaches_all_iff hSome hReach hVoyage hOutage
  exact ⟨hSome, t, v, hReach, hVoyage, hOutage, hLength, hNever ⟨1, by decide, answers_pairPool⟩⟩

end TxLoad.Endpoint
