import Mathlib.Logic.Relation
import TxLoad.Endpoint.Pool

/-! # Reads that share the choice of a node

Any number of reads may be in flight at a pool. `Step` is one move of all of them together: a read
begins, a read receives the outcome that it waits for, or the nodes change by themselves. Beside the
state of the pool, `Traffic` keeps what each read has done: which nodes it has contacted, and how
often the pool had been moved on by then.

Every read of every traffic is sound: its contacts were with the nodes that were active then, all
but the last have failed, and if the last has failed too, there are as many as there are nodes. The
pool is moved on once for each failed contact, whichever node it was with.
-/

namespace TxLoad.Endpoint

open Pool

variable {σ : Type}

def Contact.isFailure : Contact → Bool
  | .failure _ | .unsent _ => true
  | .result _ | .refusal _ => false

/-- What a read reports when its last contact has this outcome. -/
def Contact.conclusion (query : Query) : Contact → Except CallFailure Json
  | .result value => .ok value
  | .refusal message => .error ⟨query.method, message⟩
  | .failure cause | .unsent cause => .error ⟨query.method, cause⟩

/-- A contact of a read with the node at a position of the pool. -/
structure Visit where
  position : Nat
  /-- How many contacts, of all reads, had failed by then. -/
  turn : Nat
  outcome : Contact

/-- A read and the contacts that it has made, the first one first. -/
structure Voyage where
  query : Query
  flight : Flight
  visits : List Visit

/-- A pool, how often it has been moved on, and the reads that have begun. -/
structure Traffic (σ : Type) where
  state : PoolState σ
  turns : Nat := 0
  voyages : List Voyage := []

def Pool.Flight.fails : Flight → Bool
  | .waiting _ outcome => outcome.isFailure
  | .done _ => false

/-- A read as it goes on; if it waits again, it has just contacted the active node. -/
def Voyage.after (p : Pool) (turns : Nat) (query : Query) (visits : List Visit) :
    Flight × PoolState σ → Voyage
  | (.waiting left outcome, s) =>
    ⟨query, .waiting left outcome, visits ++ [⟨s.active % p.size, turns, outcome⟩]⟩
  | (.done result, _) => ⟨query, .done result, visits⟩

namespace Traffic

def turnsAfter (t : Traffic σ) (flight : Flight) : Nat :=
  if flight.fails then t.turns + 1 else t.turns

theorem turnsAfter_failed (t : Traffic σ) {left : Nat} {outcome : Contact}
    (hFailure : outcome.isFailure = true) :
    t.turnsAfter (.waiting left outcome) = t.turns + 1 := if_pos hFailure

theorem turnsAfter_answered (t : Traffic σ) {left : Nat} {outcome : Contact}
    (hAnswer : outcome.isFailure = false) : t.turnsAfter (.waiting left outcome) = t.turns :=
  if_neg (Bool.not_eq_true _ ▸ hAnswer)

inductive Step (nodes : Nodes σ) (p : Pool) : Traffic σ → Traffic σ → Prop
  | drift (t : Traffic σ) (changed : σ) :
      Step nodes p t { t with state := { t.state with nodes := changed } }
  | launch (t : Traffic σ) (query : Query) :
      Step nodes p t
        { state := (p.launch nodes query t.state).2
          turns := t.turns
          voyages := t.voyages ++
            [.after p t.turns query [] (p.launch nodes query t.state)] }
  | receive (t : Traffic σ) (i : Nat) (v : Voyage) (hVoyage : t.voyages[i]? = some v) :
      Step nodes p t
        { state := (p.receive nodes v.query t.state v.flight).2
          turns := t.turnsAfter v.flight
          voyages := t.voyages.set i
            (.after p (t.turnsAfter v.flight) v.query v.visits
              (p.receive nodes v.query t.state v.flight)) }

abbrev Reaches (nodes : Nodes σ) (p : Pool) : Traffic σ → Traffic σ → Prop :=
  Relation.ReflTransGen (Step nodes p)

end Traffic

/-! ## What a move changes -/

namespace Pool

theorem active_contact (nodes : Nodes σ) (p : Pool) (query : Query) (s : PoolState σ) :
    (p.contact nodes query s).2.active = s.active := by
  unfold contact
  dsimp only
  split <;> rfl

/-- An answer ends the read and leaves the pool as it is. -/
theorem receive_answer (nodes : Nodes σ) (p : Pool) (query : Query) (s : PoolState σ)
    {outcome : Contact} (left : Nat) (hAnswer : outcome.isFailure = false) :
    p.receive nodes query s (.waiting left outcome) = (.done (outcome.conclusion query), s) := by
  cases outcome with
  | result value => rfl
  | refusal message => rfl
  | failure cause => cases hAnswer
  | unsent cause => cases hAnswer

/-- The last failure ends the read and moves the pool on. -/
theorem receive_last (nodes : Nodes σ) (p : Pool) (query : Query) (s : PoolState σ)
    {outcome : Contact} (hFailure : outcome.isFailure = true) :
    ∃ moved : PoolState σ, moved.active = (s.active + 1) % p.size ∧
      p.receive nodes query s (.waiting 0 outcome) = (.done (outcome.conclusion query), moved) := by
  cases outcome with
  | result value => cases hFailure
  | refusal message => cases hFailure
  | failure cause => exact ⟨_, rfl, rfl⟩
  | unsent cause => exact ⟨_, rfl, rfl⟩

/-- Any other failure moves the pool on, and the read contacts the node that is active then. -/
theorem receive_more (nodes : Nodes σ) (p : Pool) (query : Query) (s : PoolState σ)
    {outcome : Contact} (left : Nat) (hFailure : outcome.isFailure = true) :
    ∃ moved : PoolState σ, moved.active = (s.active + 1) % p.size ∧
      p.receive nodes query s (.waiting (left + 1) outcome) =
        (.waiting left (p.contact nodes query moved).1, (p.contact nodes query moved).2) := by
  cases outcome with
  | result value => cases hFailure
  | refusal message => cases hFailure
  | failure cause => exact ⟨_, rfl, rfl⟩
  | unsent cause => exact ⟨_, rfl, rfl⟩

/-- A read that receives is done already, is answered, has failed for the last time, or goes on. -/
theorem receive_cases (nodes : Nodes σ) (p : Pool) (query : Query) (s : PoolState σ)
    (flight : Flight) :
    (∃ result, flight = .done result ∧
      p.receive nodes query s flight = (.done result, s)) ∨
    (∃ left outcome, flight = .waiting left outcome ∧ outcome.isFailure = false ∧
      p.receive nodes query s flight = (.done (outcome.conclusion query), s)) ∨
    (∃ outcome, flight = .waiting 0 outcome ∧ outcome.isFailure = true ∧
      ∃ moved : PoolState σ, moved.active = (s.active + 1) % p.size ∧
        p.receive nodes query s flight = (.done (outcome.conclusion query), moved)) ∨
    ∃ left outcome, flight = .waiting (left + 1) outcome ∧ outcome.isFailure = true ∧
      ∃ moved : PoolState σ, moved.active = (s.active + 1) % p.size ∧
        p.receive nodes query s flight =
          (.waiting left (p.contact nodes query moved).1, (p.contact nodes query moved).2) := by
  cases flight with
  | done result => exact .inl ⟨result, rfl, rfl⟩
  | waiting left outcome =>
    cases hOutcome : outcome.isFailure with
    | false =>
      have hAnswer := receive_answer nodes p query s left hOutcome
      exact .inr (.inl ⟨left, outcome, rfl, hOutcome, hAnswer⟩)
    | true =>
      cases left with
      | zero =>
        have hLast := receive_last nodes p query s hOutcome
        exact .inr (.inr (.inl ⟨outcome, rfl, hOutcome, hLast⟩))
      | succ left =>
        have hMore := receive_more nodes p query s left hOutcome
        exact .inr (.inr (.inr ⟨left, outcome, rfl, hOutcome, hMore⟩))

end Pool

/-! ## What holds of every read -/

/-- How the contacts of a read and its state go together: all but the last have failed, and as many
are to come or have been made as there are nodes. -/
inductive Trail (p : Pool) (query : Query) : List Visit → Flight → Prop
  | waiting (earlier : List Visit) (last : Visit) (left : Nat)
      (hFailed : ∀ visit ∈ earlier, visit.outcome.isFailure = true)
      (hCount : earlier.length + 1 + left = p.size) :
      Trail p query (earlier ++ [last]) (.waiting left last.outcome)
  | done (earlier : List Visit) (last : Visit)
      (hFailed : ∀ visit ∈ earlier, visit.outcome.isFailure = true)
      (hCount : last.outcome.isFailure = true → earlier.length + 1 = p.size) :
      Trail p query (earlier ++ [last]) (.done (last.outcome.conclusion query))

theorem Trail.done_inv {p : Pool} {query : Query} {visits : List Visit}
    {result : Except CallFailure Json} (h : Trail p query visits (.done result)) :
    ∃ earlier last, visits = earlier ++ [last] ∧
      (∀ visit ∈ earlier, visit.outcome.isFailure = true) ∧
      (last.outcome.isFailure = true → earlier.length + 1 = p.size) := by
  cases h with
  | done earlier last hFailed hCount => exact ⟨earlier, last, rfl, hFailed, hCount⟩

/-- The visit is a contact with the node at its position. -/
def Visit.Genuine (nodes : Nodes σ) (p : Pool) (query : Query) (visit : Visit) : Prop :=
  ∃ s : PoolState σ, s.active % p.size = visit.position ∧
    visit.outcome = (p.contact nodes query s).1

/-- What holds of a read in traffic that began with the node at `base` active and has moved on
`turns` times. -/
structure Voyage.Sound (nodes : Nodes σ) (p : Pool) (base turns : Nat) (v : Voyage) : Prop where
  genuine : ∀ visit ∈ v.visits, visit.Genuine nodes p v.query
  placed : ∀ visit ∈ v.visits, visit.position = (base + visit.turn) % p.size
  past : ∀ visit ∈ v.visits, visit.turn ≤ turns
  ordered : v.visits.Pairwise fun visit next => visit.turn < next.turn
  trail : Trail p v.query v.visits v.flight

structure Traffic.Sound (nodes : Nodes σ) (p : Pool) (base : Nat) (t : Traffic σ) : Prop where
  turned : t.state.active % p.size = (base + t.turns) % p.size
  voyages : ∀ v ∈ t.voyages, v.Sound nodes p base t.turns

theorem mod_succ_of_mod {a b n : Nat} (h : a % n = b % n) : (a + 1) % n % n = (b + 1) % n := by
  rw [Nat.mod_mod, Nat.add_mod, h, ← Nat.add_mod]

namespace Voyage

variable {nodes : Nodes σ} {p : Pool} {base turns : Nat} {v : Voyage}

theorem Sound.later {more : Nat} (h : v.Sound nodes p base turns) (hMore : turns ≤ more) :
    v.Sound nodes p base more :=
  { h with past := fun visit hVisit => Nat.le_trans (h.past visit hVisit) hMore }

theorem sound_launch {s : PoolState σ} (query : Query) (hPool : p.size ≠ 0)
    (hTurned : s.active % p.size = (base + turns) % p.size) :
    (after p turns query [] (p.launch nodes query s)).Sound nodes p base turns where
  genuine := by
    intro visit hVisit
    obtain rfl := List.mem_singleton.mp hVisit
    exact ⟨s, congrArg (· % p.size) (active_contact ..).symm, rfl⟩
  placed := by
    intro visit hVisit
    obtain rfl := List.mem_singleton.mp hVisit
    exact (congrArg (· % p.size) (active_contact ..)).trans hTurned
  past := by
    intro visit hVisit
    obtain rfl := List.mem_singleton.mp hVisit
    exact Nat.le_refl _
  ordered := List.pairwise_singleton _ _
  trail := by
    have hCount : ([] : List Visit).length + 1 + (p.size - 1) = p.size := by
      rw [List.length_nil]
      omega
    have hNone : ∀ visit ∈ ([] : List Visit), visit.outcome.isFailure = true := by simp
    exact .waiting [] ⟨_, turns, (p.contact nodes query s).1⟩ _ hNone hCount

/-- A read that ends keeps its contacts. -/
theorem Sound.ended {flight : Flight} {query : Query} {visits : List Visit}
    {result : Except CallFailure Json}
    (h : Sound nodes p base turns ⟨query, flight, visits⟩)
    (hTrail : Trail p query visits (.done result)) :
    Sound nodes p base turns ⟨query, .done result, visits⟩ where
  genuine := h.genuine
  placed := h.placed
  past := h.past
  ordered := h.ordered
  trail := hTrail

/-- A read that goes on adds a contact with the node that is active after the move. -/
theorem Sound.moved {flight : Flight} {query : Query} {visits : List Visit} {left : Nat}
    {s : PoolState σ} (h : Sound nodes p base turns ⟨query, flight, visits⟩)
    (hTurned : s.active % p.size = (base + (turns + 1)) % p.size)
    (hFailed : ∀ visit ∈ visits, visit.outcome.isFailure = true)
    (hCount : visits.length + 1 + left = p.size) :
    (after p (turns + 1) query visits
      (.waiting left (p.contact nodes query s).1, (p.contact nodes query s).2)).Sound
        nodes p base (turns + 1) where
  genuine := by
    intro visit hVisit
    rcases List.mem_append.mp hVisit with hVisit | hVisit
    · exact h.genuine visit hVisit
    · obtain rfl := List.mem_singleton.mp hVisit
      exact ⟨s, congrArg (· % p.size) (active_contact ..).symm, rfl⟩
  placed := by
    intro visit hVisit
    rcases List.mem_append.mp hVisit with hVisit | hVisit
    · exact h.placed visit hVisit
    · obtain rfl := List.mem_singleton.mp hVisit
      exact (congrArg (· % p.size) (active_contact ..)).trans hTurned
  past := by
    intro visit hVisit
    rcases List.mem_append.mp hVisit with hVisit | hVisit
    · exact Nat.le_succ_of_le (h.past visit hVisit)
    · obtain rfl := List.mem_singleton.mp hVisit
      exact Nat.le_refl _
  ordered := by
    refine List.pairwise_append.mpr ⟨h.ordered, List.pairwise_singleton _ _, ?_⟩
    intro visit hVisit next hNext
    obtain rfl := List.mem_singleton.mp hNext
    exact Nat.lt_succ_of_le (h.past visit hVisit)
  trail := .waiting visits ⟨_, turns + 1, (p.contact nodes query s).1⟩ _ hFailed hCount

theorem sound_receive {t : Traffic σ} (h : v.Sound nodes p base t.turns)
    (hTurned : t.state.active % p.size = (base + t.turns) % p.size) :
    (after p (t.turnsAfter v.flight) v.query v.visits
      (p.receive nodes v.query t.state v.flight)).Sound nodes p base (t.turnsAfter v.flight) := by
  obtain ⟨query, flight, visits⟩ := v
  have hTrail := h.trail
  rcases receive_cases nodes p query t.state flight with ⟨result, rfl, hReceive⟩ |
    ⟨left, outcome, rfl, hAnswer, hReceive⟩ |
    ⟨outcome, rfl, hFailure, moved, hMoved, hReceive⟩ |
    ⟨left, outcome, rfl, hFailure, moved, hMoved, hReceive⟩
  · rw [hReceive]
    exact h
  · rw [hReceive, t.turnsAfter_answered hAnswer]
    cases hTrail with
    | waiting earlier last _ hFailed hCount =>
      refine h.ended (.done earlier last hFailed fun hLast => ?_)
      rw [hAnswer] at hLast
      cases hLast
  · rw [hReceive, t.turnsAfter_failed hFailure]
    cases hTrail with
    | waiting earlier last _ hFailed hCount =>
      exact (h.later (Nat.le_succ _)).ended (.done earlier last hFailed fun _ => hCount)
  · rw [hReceive, t.turnsAfter_failed hFailure]
    cases hTrail with
    | waiting earlier last _ hFailed hCount =>
      refine h.moved ?_ ?_ ?_
      · rw [hMoved, mod_succ_of_mod hTurned, Nat.add_assoc]
      · intro visit hVisit
        rcases List.mem_append.mp hVisit with hVisit | hVisit
        · exact hFailed visit hVisit
        · obtain rfl := List.mem_singleton.mp hVisit
          exact hFailure
      · show (earlier ++ [last]).length + 1 + left = p.size
        rw [List.length_append, List.length_singleton]
        omega

end Voyage

namespace Traffic

variable {nodes : Nodes σ} {p : Pool} {base : Nat} {t t' : Traffic σ}

theorem turned_receive {query : Query} {flight : Flight}
    (hTurned : t.state.active % p.size = (base + t.turns) % p.size) :
    (p.receive nodes query t.state flight).2.active % p.size =
      (base + t.turnsAfter flight) % p.size := by
  rcases receive_cases nodes p query t.state flight with ⟨result, rfl, hReceive⟩ |
    ⟨left, outcome, rfl, hAnswer, hReceive⟩ |
    ⟨outcome, rfl, hFailure, moved, hMoved, hReceive⟩ |
    ⟨left, outcome, rfl, hFailure, moved, hMoved, hReceive⟩
  · rw [hReceive]
    exact hTurned
  · rw [hReceive, t.turnsAfter_answered hAnswer]
    exact hTurned
  · rw [hReceive, t.turnsAfter_failed hFailure, hMoved, mod_succ_of_mod hTurned, Nat.add_assoc]
  · rw [hReceive, t.turnsAfter_failed hFailure, active_contact, hMoved, mod_succ_of_mod hTurned,
      Nat.add_assoc]

theorem turns_le_turnsAfter (t : Traffic σ) (flight : Flight) :
    t.turns ≤ t.turnsAfter flight := by
  unfold turnsAfter
  split
  · exact Nat.le_succ _
  · exact Nat.le_refl _

theorem Sound.step (hPool : p.size ≠ 0) (h : t.Sound nodes p base) (hStep : Step nodes p t t') :
    t'.Sound nodes p base := by
  cases hStep with
  | drift changed => exact ⟨h.turned, h.voyages⟩
  | launch query =>
    refine ⟨(congrArg (· % p.size) (active_contact ..)).trans h.turned, ?_⟩
    intro v hv
    rcases List.mem_append.mp hv with hv | hv
    · exact h.voyages v hv
    · obtain rfl := List.mem_singleton.mp hv
      exact Voyage.sound_launch query hPool h.turned
  | receive i v hVoyage =>
    refine ⟨turned_receive h.turned, ?_⟩
    intro u hu
    rcases List.mem_or_eq_of_mem_set hu with hu | rfl
    · exact (h.voyages u hu).later (t.turns_le_turnsAfter v.flight)
    · exact Voyage.sound_receive (h.voyages v (List.mem_of_getElem? hVoyage)) h.turned

theorem Sound.reaches (hPool : p.size ≠ 0) (h : t.Sound nodes p base)
    (hReach : Reaches nodes p t t') : t'.Sound nodes p base := by
  induction hReach with
  | refl => exact h
  | tail _ hStep ih => exact ih.step hPool hStep

/-- Whatever the reads of a pool do in between, each of them is sound. -/
theorem sound_of_reaches {s : PoolState σ} (hPool : p.size ≠ 0)
    (hReach : Reaches nodes p { state := s } t) : t.Sound nodes p s.active :=
  Sound.reaches hPool ⟨rfl, by simp⟩ hReach

end Traffic

end TxLoad.Endpoint
