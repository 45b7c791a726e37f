import Mathlib.Algebra.GroupWithZero.Nat
import TxLoad.Proofs.Endpoint.Interleaving

/-! # Reads that are made together

The reads of one price are started in their order and then go on in turn. This is one traffic among
others: `readTogether_reaches` finds one in which each read has its place and ends with the result
that is given for that place. In particular every read is done when the line is empty, and the line
is empty when the steps are used up.
-/

namespace TxLoad.Endpoint

open Pool

variable {σ : Type}

/-- Traffic in which only the read at place `i` has gone on, and is now in this flight. -/
structure Traffic.GoesOn (nodes : Nodes σ) (p : Pool) (t t' : Traffic σ) (i : Nat) (query : Query)
    (flight : Flight) : Prop where
  reaches : Reaches nodes p t t'
  flown : ∃ visits, t'.voyages[i]? = some ⟨query, flight, visits⟩
  others : ∀ j, j ≠ i → t'.voyages[j]? = t.voyages[j]?

namespace Traffic

variable {nodes : Nodes σ} {p : Pool} {query : Query} {t t' u : Traffic σ} {i : Nat}
  {flight : Flight} {visits : List Visit}

theorem exists_voyage_after (p : Pool) (turns : Nat) (query : Query) (visits : List Visit)
    (r : Flight × PoolState σ) :
    ∃ visited, Voyage.after p turns query visits r = ⟨query, r.1, visited⟩ := by
  obtain ⟨_ | _, s⟩ := r <;> exact ⟨_, rfl⟩

theorem GoesOn.trans {further : Flight} (h : GoesOn nodes p t u i query flight)
    (g : GoesOn nodes p u t' i query further) : GoesOn nodes p t t' i query further where
  reaches := h.reaches.trans g.reaches
  flown := g.flown
  others := fun j hj => (g.others j hj).trans (h.others j hj)

theorem goesOn_receive (nodes : Nodes σ) (p : Pool)
    (hVoyage : t.voyages[i]? = some ⟨query, flight, visits⟩) :
    ∃ t', t'.state = (p.receive nodes query t.state flight).2 ∧
      GoesOn nodes p t t' i query (p.receive nodes query t.state flight).1 := by
  obtain ⟨visited, hAfter⟩ := exists_voyage_after p (t.turnsAfter flight) query visits
    (p.receive nodes query t.state flight)
  have hLength : i < t.voyages.length := (List.getElem?_eq_some_iff.mp hVoyage).1
  refine ⟨_, rfl, .single (.receive t i _ hVoyage), ⟨visited, ?_⟩, ?_⟩
  · rw [List.getElem?_set_self hLength, ← hAfter]
  · intro j hj
    exact List.getElem?_set_ne (Ne.symm hj)

theorem goesOn_settle (nodes : Nodes σ) (p : Pool) (steps : Nat)
    (hVoyage : t.voyages[i]? = some ⟨query, flight, visits⟩) :
    ∃ t', t'.state = (p.settle nodes query steps flight t.state).2 ∧
      GoesOn nodes p t t' i query (p.settle nodes query steps flight t.state).1 := by
  induction steps generalizing t flight visits with
  | zero => exact ⟨t, rfl, .refl, ⟨visits, hVoyage⟩, fun _ _ => rfl⟩
  | succ steps ih =>
    have hStay : ∃ t', t'.state = t.state ∧ GoesOn nodes p t t' i query flight :=
      ⟨t, rfl, .refl, ⟨visits, hVoyage⟩, fun _ _ => rfl⟩
    cases flight with
    | done result => exact hStay
    | waiting left outcome =>
      cases outcome with
      | result value => exact hStay
      | refusal message => exact hStay
      | failure cause => exact hStay
      | unsent cause =>
        obtain ⟨u, hState, hGoesOn⟩ := goesOn_receive nodes p hVoyage
        obtain ⟨visited, hFlown⟩ := hGoesOn.flown
        obtain ⟨t', hSettled, hRest⟩ := ih hFlown
        rw [hState] at hSettled hRest
        exact ⟨t', hSettled, hGoesOn.trans hRest⟩

/-- A read that begins has the next place. -/
theorem goesOn_launch (nodes : Nodes σ) (p : Pool) (t : Traffic σ) (query : Query) :
    ∃ t', t'.state = (p.launch nodes query t.state).2 ∧
      GoesOn nodes p t t' t.voyages.length query (p.launch nodes query t.state).1 := by
  obtain ⟨visited, hAfter⟩ := exists_voyage_after p t.turns query [] (p.launch nodes query t.state)
  refine ⟨_, rfl, .single (.launch t query), ⟨visited, ?_⟩, ?_⟩
  · rw [hAfter]
    exact List.getElem?_concat_length
  · intro j hj
    rcases Nat.lt_or_gt_of_ne hj with hj | hj
    · exact List.getElem?_append_left hj
    · rw [List.getElem?_eq_none (Nat.le_of_lt hj), List.getElem?_eq_none]
      rw [List.length_append, List.length_singleton]
      exact hj

theorem GoesOn.length (h : GoesOn nodes p t t' t.voyages.length query flight) :
    t'.voyages.length = t.voyages.length + 1 := by
  obtain ⟨visits, hVoyage⟩ := h.flown
  have hAtLeast := (List.getElem?_eq_some_iff.mp hVoyage).1
  have hNext := h.others (t.voyages.length + 1) (Nat.succ_ne_self _)
  rw [List.getElem?_eq_none (Nat.le_succ _)] at hNext
  have hAtMost := List.getElem?_eq_none_iff.mp hNext
  omega

/-- The reads in a line have their places in the traffic. -/
def Seats (t : Traffic σ) (line : List (Nat × Query × Flight)) : Prop :=
  ∀ seat ∈ line, ∃ visits, t.voyages[seat.1]? = some ⟨seat.2.1, seat.2.2, visits⟩

/-- The reads are launched at the next places. -/
theorem launchAll_reaches (nodes : Nodes σ) (p : Pool) (queries : List Query) (t : Traffic σ) :
    ∃ t', t'.state = (p.launchAll nodes ((List.range' t.voyages.length queries.length).zip queries)
        t.state).2 ∧ Reaches nodes p t t' ∧
      t'.Seats (p.launchAll nodes ((List.range' t.voyages.length queries.length).zip queries)
        t.state).1 ∧
      ∀ j < t.voyages.length, t'.voyages[j]? = t.voyages[j]? := by
  induction queries generalizing t with
  | nil => exact ⟨t, rfl, .refl, fun _ h => (List.not_mem_nil h).elim, fun _ _ => rfl⟩
  | cons query rest ih =>
    obtain ⟨u, hLaunched, hLaunch⟩ := goesOn_launch nodes p t query
    obtain ⟨_, hFlown⟩ := hLaunch.flown
    obtain ⟨v, hSettled, hSettle⟩ := goesOn_settle nodes p p.size hFlown
    rw [hLaunched] at hSettled hSettle
    have hFirst := hLaunch.trans hSettle
    have hLength := hFirst.length
    obtain ⟨t', hState, hReach, hSeats, hBefore⟩ := ih v
    rw [hLength, hSettled] at hState hSeats
    refine ⟨t', hState, hFirst.reaches.trans hReach, ?_, ?_⟩
    · intro seat hSeat
      rcases List.mem_cons.mp hSeat with rfl | hSeat
      · obtain ⟨visits, hVoyage⟩ := hFirst.flown
        exact ⟨visits, (hBefore _ (by omega)).trans hVoyage⟩
      · exact hSeats seat hSeat
    · intro j hj
      exact (hBefore j (by omega)).trans (hFirst.others j (by omega))

end Traffic

/-! ## Enough steps -/

namespace Pool

/-- How many outcomes a read may still receive; a read that is done is only looked at once more. -/
def Flight.weight : Flight → Nat
  | .waiting left _ => left + 1
  | .done _ => 1

theorem Flight.weight_pos (flight : Flight) : 0 < flight.weight := by
  cases flight with
  | waiting left outcome => exact Nat.succ_pos left
  | done result => exact Nat.one_pos

variable (nodes : Nodes σ) (p : Pool)

theorem weight_launch (query : Query) (s : PoolState σ) (hPool : p.size ≠ 0) :
    (p.launch nodes query s).1.weight = p.size := by
  show p.size - 1 + 1 = p.size
  omega

theorem weight_receive_le (query : Query) (s : PoolState σ) (flight : Flight) :
    (p.receive nodes query s flight).1.weight ≤ flight.weight := by
  rcases receive_cases nodes p query s flight with ⟨result, rfl, hReceive⟩ |
    ⟨left, outcome, rfl, _, hReceive⟩ | ⟨outcome, rfl, _, moved, _, hReceive⟩ |
    ⟨left, outcome, rfl, _, moved, _, hReceive⟩ <;> rw [hReceive] <;>
    simp only [Flight.weight] <;> omega

/-- A read that still waits after it has received may receive one outcome less. -/
theorem weight_receive_lt {query : Query} {s : PoolState σ} {flight : Flight} {left : Nat}
    {outcome : Contact} (h : (p.receive nodes query s flight).1 = .waiting left outcome) :
    (p.receive nodes query s flight).1.weight < flight.weight := by
  rcases receive_cases nodes p query s flight with ⟨result, rfl, hReceive⟩ |
    ⟨_, _, rfl, _, hReceive⟩ | ⟨_, rfl, _, moved, _, hReceive⟩ |
    ⟨_, _, rfl, _, moved, _, hReceive⟩
  · rw [hReceive] at h
    cases h
  · rw [hReceive] at h
    cases h
  · rw [hReceive] at h
    cases h
  · rw [hReceive]
    exact Nat.lt_succ_self _

theorem settle_done (query : Query) (steps : Nat) (result : Except CallFailure Json)
    (s : PoolState σ) : p.settle nodes query steps (.done result) s = (.done result, s) := by
  cases steps <;> rfl

theorem weight_settle_le (query : Query) (steps : Nat) (flight : Flight) (s : PoolState σ) :
    (p.settle nodes query steps flight s).1.weight ≤ flight.weight := by
  induction steps generalizing flight s with
  | zero => exact Nat.le_refl _
  | succ steps ih =>
    cases flight with
    | done result => exact Nat.le_refl _
    | waiting left outcome =>
      cases outcome with
      | result value => exact Nat.le_refl _
      | refusal message => exact Nat.le_refl _
      | failure cause => exact Nat.le_refl _
      | unsent cause =>
        have hReceive := weight_receive_le nodes p query s (.waiting left (.unsent cause))
        exact Nat.le_trans (ih _ _) hReceive

/-- The line that is launched holds the reads in their order. -/
theorem launchAll_line (queries : List (Nat × Query)) (s : PoolState σ) :
    (p.launchAll nodes queries s).1.map (fun seat => (seat.1, seat.2.1)) = queries := by
  induction queries generalizing s with
  | nil => rfl
  | cons query rest ih =>
    unfold launchAll
    rw [List.map_cons, ih]

theorem sum_weight_launchAll (queries : List (Nat × Query)) (s : PoolState σ) (hPool : p.size ≠ 0) :
    ((p.launchAll nodes queries s).1.map fun seat => seat.2.2.weight).sum ≤
      queries.length * p.size := by
  induction queries generalizing s with
  | nil => exact Nat.zero_le _
  | cons query rest ih =>
    obtain ⟨number, query⟩ := query
    have hRest := ih (p.settle nodes query p.size (p.launch nodes query s).1
      (p.launch nodes query s).2).2
    have hFirst := weight_settle_le nodes p query p.size (p.launch nodes query s).1
      (p.launch nodes query s).2
    rw [weight_launch nodes p query s hPool] at hFirst
    unfold launchAll
    rw [List.map_cons, List.sum_cons, List.length_cons, Nat.succ_mul, Nat.add_comm]
    exact Nat.add_le_add hRest hFirst

/-- A read that receives and goes on as far as it can. -/
def proceed (query : Query) (flight : Flight) (s : PoolState σ) : Flight × PoolState σ :=
  p.settle nodes query p.size (p.receive nodes query s flight).1
    (p.receive nodes query s flight).2

theorem weight_proceed_lt {query : Query} {s : PoolState σ} {flight : Flight} {left : Nat}
    {outcome : Contact} (h : (p.proceed nodes query flight s).1 = .waiting left outcome) :
    (p.proceed nodes query flight s).1.weight < flight.weight := by
  unfold proceed at h ⊢
  cases hReceive : (p.receive nodes query s flight).1 with
  | done result =>
    rw [hReceive, settle_done] at h
    cases h
  | waiting more pending =>
    have hLess := weight_receive_lt nodes p hReceive
    rw [hReceive] at hLess
    exact Nat.lt_of_le_of_lt (weight_settle_le nodes p query _ _ _) hLess

theorem finishTogether_cons_done {steps number : Nat} {query : Query} {flight : Flight}
    {line : List (Nat × Query × Flight)} {s s' : PoolState σ} {result : Except CallFailure Json}
    (h : p.proceed nodes query flight s = (.done result, s')) :
    p.finishTogether nodes (steps + 1) ((number, query, flight) :: line) s =
      ((number, result) :: (p.finishTogether nodes steps line s').1,
        (p.finishTogether nodes steps line s').2) := by
  unfold proceed at h
  simp only [finishTogether, h]

theorem finishTogether_cons_waiting {steps number left : Nat} {query : Query} {flight : Flight}
    {line : List (Nat × Query × Flight)} {s s' : PoolState σ} {outcome : Contact}
    (h : p.proceed nodes query flight s = (.waiting left outcome, s')) :
    p.finishTogether nodes (steps + 1) ((number, query, flight) :: line) s =
      p.finishTogether nodes steps (line ++ [(number, query, .waiting left outcome)]) s' := by
  unfold proceed at h
  simp only [finishTogether, h]

end Pool

namespace Traffic

variable {nodes : Nodes σ} {p : Pool}

theorem goesOn_proceed (nodes : Nodes σ) (p : Pool) {t : Traffic σ} {i : Nat} {query : Query}
    {flight : Flight} {visits : List Visit}
    (hVoyage : t.voyages[i]? = some ⟨query, flight, visits⟩) :
    ∃ t', t'.state = (p.proceed nodes query flight t.state).2 ∧
      GoesOn nodes p t t' i query (p.proceed nodes query flight t.state).1 := by
  obtain ⟨u, hReceived, hReceive⟩ := goesOn_receive nodes p hVoyage
  obtain ⟨_, hFlown⟩ := hReceive.flown
  obtain ⟨t', hSettled, hSettle⟩ := goesOn_settle nodes p p.size hFlown
  rw [hReceived] at hSettled hSettle
  exact ⟨t', hSettled, hReceive.trans hSettle⟩

/-- From `t` on, the reads in a line have gone on in turn until each had the result that is given
for it; the reads that are not in the line are left as they are. -/
structure Finishes (nodes : Nodes σ) (p : Pool) (steps : Nat) (line : List (Nat × Query × Flight))
    (t t' : Traffic σ) : Prop where
  state_eq : t'.state = (p.finishTogether nodes steps line t.state).2
  reaches : Reaches nodes p t t'
  done : ∀ seat ∈ line, ∃ result visits,
    (p.finishTogether nodes steps line t.state).1.lookup seat.1 = some result ∧
      t'.voyages[seat.1]? = some ⟨seat.2.1, .done result, visits⟩
  kept : ∀ j, j ∉ line.map Prod.fst → t'.voyages[j]? = t.voyages[j]?

theorem finishes_nil (nodes : Nodes σ) (p : Pool) (steps : Nat) (t : Traffic σ) :
    Finishes nodes p steps [] t t := by
  refine ⟨?_, .refl, by simp, fun _ _ => rfl⟩
  cases steps <;> rfl

section First

variable {t u t' : Traffic σ} {steps number : Nat} {query : Query} {flight : Flight}
  {rest : List (Nat × Query × Flight)}

/-- The first read of the line waits again, at its end. -/
theorem Finishes.waits {left : Nat} {outcome : Contact} {s' : PoolState σ}
    (hProceed : p.proceed nodes query flight t.state = (.waiting left outcome, s'))
    (hState : u.state = s') (hGoesOn : GoesOn nodes p t u number query (.waiting left outcome))
    (h : Finishes nodes p steps (rest ++ [(number, query, .waiting left outcome)]) u t') :
    Finishes nodes p (steps + 1) ((number, query, flight) :: rest) t t' := by
  obtain ⟨hEnd, hReach, hDone, hKept⟩ := h
  refine ⟨?_, hGoesOn.reaches.trans hReach, ?_, ?_⟩
  · rw [finishTogether_cons_waiting nodes p hProceed, ← hState]
    exact hEnd
  · intro seat hSeat
    rw [finishTogether_cons_waiting nodes p hProceed, ← hState]
    rcases List.mem_cons.mp hSeat with rfl | hSeat
    · exact hDone (number, query, .waiting left outcome)
        (List.mem_append_right _ (List.mem_singleton_self _))
    · exact hDone seat (List.mem_append_left _ hSeat)
  · intro j hj
    rw [List.map_cons, List.mem_cons, not_or] at hj
    refine (hKept j ?_).trans (hGoesOn.others j hj.1)
    rw [List.map_append, List.mem_append, not_or]
    exact ⟨hj.2, fun h => hj.1 (List.mem_singleton.mp h)⟩

/-- The first read of the line is done and leaves it. -/
theorem Finishes.ends {result : Except CallFailure Json} {s' : PoolState σ}
    (hProceed : p.proceed nodes query flight t.state = (.done result, s'))
    (hState : u.state = s') (hGoesOn : GoesOn nodes p t u number query (.done result))
    (hNew : number ∉ rest.map Prod.fst) (h : Finishes nodes p steps rest u t') :
    Finishes nodes p (steps + 1) ((number, query, flight) :: rest) t t' := by
  obtain ⟨hEnd, hReach, hDone, hKept⟩ := h
  obtain ⟨visited, hFlown⟩ := hGoesOn.flown
  refine ⟨?_, hGoesOn.reaches.trans hReach, ?_, ?_⟩
  · rw [finishTogether_cons_done nodes p hProceed, ← hState]
    exact hEnd
  · intro seat hSeat
    rw [finishTogether_cons_done nodes p hProceed, ← hState]
    rcases List.mem_cons.mp hSeat with rfl | hSeat
    · exact ⟨result, visited, List.lookup_cons_self, (hKept number hNew).trans hFlown⟩
    · obtain ⟨final, visits, hLookup, hFinal⟩ := hDone seat hSeat
      have hNe : seat.1 ≠ number := fun h => hNew (h ▸ List.mem_map_of_mem hSeat)
      refine ⟨final, visits, ?_, hFinal⟩
      rw [List.lookup_cons, beq_false_of_ne hNe]
      exact hLookup
  · intro j hj
    rw [List.map_cons, List.mem_cons, not_or] at hj
    exact (hKept j hj.2).trans (hGoesOn.others j hj.1)

/-- The other reads keep their places when one goes on. -/
theorem Seats.rest_of_goesOn (hSeats : t.Seats ((number, query, flight) :: rest))
    (hNew : number ∉ rest.map Prod.fst) {further : Flight}
    (hGoesOn : GoesOn nodes p t u number query further) : u.Seats rest := by
  intro seat hSeat
  have hNe : seat.1 ≠ number := fun h => hNew (h ▸ List.mem_map_of_mem hSeat)
  obtain ⟨visits, hSeated⟩ := hSeats seat (List.mem_cons_of_mem _ hSeat)
  exact ⟨visits, (hGoesOn.others seat.1 hNe).trans hSeated⟩

theorem Seats.append_of_goesOn {further : Flight} (hSeats : u.Seats rest)
    (hGoesOn : GoesOn nodes p t u number query further) :
    u.Seats (rest ++ [(number, query, further)]) := by
  intro seat hSeat
  rcases List.mem_append.mp hSeat with hSeat | hSeat
  · exact hSeats seat hSeat
  · obtain rfl := List.mem_singleton.mp hSeat
    exact hGoesOn.flown

end First

/-- With enough steps, every read in a line comes to its end. -/
theorem exists_finishes (nodes : Nodes σ) (p : Pool) (steps : Nat)
    (line : List (Nat × Query × Flight)) (t : Traffic σ) (hSeats : t.Seats line)
    (hNodup : (line.map Prod.fst).Nodup)
    (hSteps : (line.map fun seat => seat.2.2.weight).sum ≤ steps) :
    ∃ t', Finishes nodes p steps line t t' := by
  induction steps generalizing line t with
  | zero =>
    cases line with
    | nil => exact ⟨t, finishes_nil nodes p 0 t⟩
    | cons seat rest =>
      have hPos := seat.2.2.weight_pos
      rw [List.map_cons, List.sum_cons] at hSteps
      omega
  | succ steps ih =>
    cases line with
    | nil => exact ⟨t, finishes_nil nodes p (steps + 1) t⟩
    | cons seat rest =>
      obtain ⟨number, query, flight⟩ := seat
      obtain ⟨hNew, hRest⟩ := List.nodup_cons.mp hNodup
      rw [List.map_cons, List.sum_cons] at hSteps
      change flight.weight + _ ≤ _ at hSteps
      obtain ⟨visits, hVoyage⟩ := hSeats _ List.mem_cons_self
      obtain ⟨u, hState, hGoesOn⟩ := goesOn_proceed nodes p hVoyage
      have hOthers := hSeats.rest_of_goesOn hNew hGoesOn
      rcases hProceed : p.proceed nodes query flight t.state with ⟨⟨left, outcome⟩ | result, s'⟩
      · have hLess : Flight.weight (.waiting left outcome) < flight.weight := by
          have hWeight := weight_proceed_lt nodes p (congrArg Prod.fst hProceed)
          rwa [hProceed] at hWeight
        rw [hProceed] at hState hGoesOn
        have hLine := hOthers.append_of_goesOn hGoesOn
        have hDistinct : ((rest ++ [(number, query, Flight.waiting left outcome)]).map
            Prod.fst).Nodup := by
          rw [List.map_append]
          exact (List.perm_append_singleton _ _).nodup_iff.mpr hNodup
        obtain ⟨t', hFinishes⟩ := ih _ u hLine hDistinct (by
          rw [List.map_append, List.sum_append, List.map_singleton, List.sum_singleton]
          show _ + Flight.weight (.waiting left outcome) ≤ steps
          omega)
        exact ⟨t', hFinishes.waits hProceed hState hGoesOn⟩
      · have hPos := flight.weight_pos
        rw [hProceed] at hState hGoesOn
        obtain ⟨t', hFinishes⟩ := ih rest u hOthers hRest (by omega)
        exact ⟨t', hFinishes.ends hProceed hState hGoesOn hNew⟩

/-- Reads that are made together are one traffic: each has its place, and it ends there with the
result that is given for it. -/
theorem readTogether_reaches (nodes : Nodes σ) (p : Pool) (queries : List Query) (s : PoolState σ)
    (hPool : p.urls ≠ []) :
    ∃ t, t.state = (p.readTogether nodes queries s).2 ∧ Reaches nodes p { state := s } t ∧
      ∀ (place : Nat) (query : Query), queries[place]? = some query → ∃ visits,
        t.voyages[place]? =
          some ⟨query, .done ((p.readTogether nodes queries s).1 place), visits⟩ := by
  have hSize : p.size ≠ 0 := fun h => hPool (List.eq_nil_of_length_eq_zero h)
  obtain ⟨u, hState, hLaunch, hSeats, _⟩ := launchAll_reaches nodes p queries { state := s }
  change u.state = (p.launchAll nodes ((List.range' 0 queries.length).zip queries) s).2 at hState
  change u.Seats (p.launchAll nodes ((List.range' 0 queries.length).zip queries) s).1 at hSeats
  rw [← List.range_eq_range'] at hState hSeats
  have hLine := launchAll_line nodes p ((List.range queries.length).zip queries) s
  have hNumbers : (p.launchAll nodes ((List.range queries.length).zip queries) s).1.map Prod.fst =
      List.range queries.length := by
    have hFirst := congrArg (List.map Prod.fst) hLine
    rw [List.map_map, List.map_fst_zip (Nat.le_of_eq List.length_range)] at hFirst
    exact hFirst
  have hNodup : ((p.launchAll nodes ((List.range queries.length).zip queries) s).1.map
      Prod.fst).Nodup := by
    rw [hNumbers]
    exact List.nodup_range
  have hWeights := sum_weight_launchAll nodes p ((List.range queries.length).zip queries) s hSize
  rw [List.length_zip, List.length_range, Nat.min_self] at hWeights
  obtain ⟨t, hEnd, hReach, hDone, _⟩ :=
    exists_finishes nodes p _ _ u hSeats hNodup hWeights
  rw [hState] at hEnd hDone
  refine ⟨t, hEnd, hLaunch.trans hReach, fun place query hQuery => ?_⟩
  obtain ⟨hPlace, hGet⟩ := List.getElem?_eq_some_iff.mp hQuery
  have hSeat : (place, query) ∈ (List.range queries.length).zip queries := by
    refine List.mem_iff_getElem?.mpr ⟨place, ?_⟩
    rw [List.getElem?_zip_eq_some]
    exact ⟨List.getElem?_range hPlace, hQuery⟩
  rw [← hLine] at hSeat
  obtain ⟨seat, hInLine, hSame⟩ := List.mem_map.mp hSeat
  obtain ⟨rfl, rfl⟩ := Prod.mk.inj hSame
  obtain ⟨result, visits, hLookup, hVoyage⟩ := hDone seat hInLine
  refine ⟨visits, ?_⟩
  unfold readTogether
  show t.voyages[seat.1]? = some ⟨seat.2.1, .done ((List.lookup seat.1 _).getD _), visits⟩
  rw [hLookup]
  exact hVoyage

end Traffic

end TxLoad.Endpoint
