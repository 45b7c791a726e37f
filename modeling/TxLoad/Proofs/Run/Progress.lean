import TxLoad.Proofs.Run.Firing

/-! # How far a timetable has come

A timetable may be run again and again: after a cycle that failed, after a run that was cut off, or
after it has come to its end. `Course.splits` says what one run does: it passes some targets, one
after the other, and then ends in one of the four ways of `Ending`. From it follows where a
timetable stands after any number of runs: it has passed as many targets as cycles have succeeded,
in the order of the list, and the next run goes on with the first target that is left.
-/

namespace TxLoad

variable {σ β : Type}

def Firing.succeeded (firing : Firing σ β) : Bool :=
  match firing.outcome with
  | .ok _ => true
  | .error _ => false

def Firing.result? (firing : Firing σ β) : Option β := firing.outcome.toOption

namespace Timetable

/-! ## One run -/

/-- How a run ends that has passed all targets but those that are left: it has finished, the next
target cannot be waited for, the wait is cut off, or the cycle fails. -/
inductive Ending (clock : Clock) (cycle : Target → Act σ β) (genesis : Word64) (phase : Phase)
    (v : World σ) : List Target → List (Firing σ β) → Except Stop Unit → Phase → World σ → Prop
  | finished : Ending clock cycle genesis phase v [] [] (.ok ()) .finished v
  | unscheduled {target : Target} {rest : List Target} {s : Stop} {w' : World σ}
      (hWait : (nextWait clock genesis target).Stops v s w') :
      Ending clock cycle genesis phase v (target :: rest) [] (.error s) phase w'
  | cut {target : Target} {rest : List Target} {wait : Duration} {s : Stop} {read w' : World σ}
      (hWait : (nextWait clock genesis target).Returns v wait read)
      (hAwait : (await target wait).Stops read s w') :
      Ending clock cycle genesis phase v (target :: rest) [] (.error s) (.waiting target wait) w'
  | failed {target : Target} {rest : List Target} {wait : Duration} {s : Stop}
      {read fired ended : World σ} (hWait : (nextWait clock genesis target).Returns v wait read)
      (hAwait : (await target wait).Returns read () fired)
      (hCycle : (fire cycle target).Stops fired s ended) :
      Ending clock cycle genesis phase v (target :: rest) [⟨target, v, fired, .error s, ended⟩]
        (.error s) (.dispatching target) ended

/-- The phase of a timetable that has passed some targets in its run. -/
def phaseAfter (phase : Phase) : List (Firing σ β) → Phase
  | [] => phase
  | _ :: _ => .idle

theorem phaseAfter_idle (passes : List (Firing σ β)) : phaseAfter .idle passes = .idle := by
  cases passes <;> rfl

/-- A run passes targets and ends; the timetable keeps what is left. -/
theorem Course.splits {clock : Clock} {cycle : Target → Act σ β} {genesis : Word64}
    {targets : List Target} {firings : List (Firing σ β)} {outcome : Except Stop Unit}
    {w w' : World σ} (h : Course clock cycle genesis w targets firings outcome w')
    (passed : List Target) (phase : Phase) :
    ∃ passes rest lost v phase', firings = passes ++ lost ∧
      targets = passes.map Firing.target ++ rest ∧
      (∀ firing ∈ passes, firing.succeeded = true) ∧
      Ending clock cycle genesis (phaseAfter phase passes) v rest lost outcome phase' w' ∧
      runFrom clock cycle genesis passed targets phase w =
        ((outcome.map fun _ => passes.filterMap Firing.result?,
          ⟨genesis, passed ++ passes.map Firing.target, rest, phase'⟩), w') := by
  induction h generalizing passed phase with
  | finished w =>
    refine ⟨[], [], [], w, .finished, rfl, rfl, by simp, .finished, ?_⟩
    rw [runFrom, List.map_nil, List.append_nil]
    rfl
  | @unscheduled target rest w w' s hWait =>
    refine ⟨[], target :: rest, [], w, phase, rfl, rfl, by simp, .unscheduled hWait, ?_⟩
    rw [runFrom, show nextWait clock genesis target w = _ from hWait, List.map_nil, List.append_nil]
    rfl
  | @cut target rest wait s w read w' hWait hAwait =>
    refine ⟨[], target :: rest, [], w, _, rfl, rfl, by simp, .cut hWait hAwait, ?_⟩
    rw [runFrom, show nextWait clock genesis target w = _ from hWait, List.map_nil, List.append_nil]
    simp only [show await target wait read = _ from hAwait]
    rfl
  | @failed target rest wait s w read fired ended hWait hAwait hCycle =>
    refine ⟨[], target :: rest, _, w, _, rfl, rfl, by simp, .failed hWait hAwait hCycle, ?_⟩
    rw [runFrom, show nextWait clock genesis target w = _ from hWait, List.map_nil, List.append_nil]
    simp only [show await target wait read = _ from hAwait,
      show fire cycle target fired = _ from hCycle]
    rfl
  | @fired target rest wait result w read fired ended w' firings outcome hWait hAwait hCycle _ ih =>
    obtain ⟨passes, left, lost, v, phase', rfl, hTargets, hPasses, hEnding, hRun⟩ :=
      ih (passed ++ [target]) .idle
    rw [phaseAfter_idle] at hEnding
    refine ⟨⟨target, w, fired, .ok result, ended⟩ :: passes, left, lost, v, phase', rfl, ?_, ?_,
      hEnding, ?_⟩
    · rw [hTargets]
      rfl
    · exact List.forall_mem_cons.mpr ⟨rfl, hPasses⟩
    · rw [runFrom, show nextWait clock genesis target w = _ from hWait]
      simp only [show await target wait read = _ from hAwait,
        show fire cycle target fired = _ from hCycle, hRun]
      rw [List.append_assoc]
      cases outcome <;> rfl

/-- A run that begins in `w` first waits for the start of the target's slot. -/
inductive WaitsFirst (clock : Clock) (genesis : Word64) (target : Target) (w : World σ) :
    List (Firing σ β) → World σ → Prop
  | unscheduled {s : Stop} {w' : World σ} (hWait : (nextWait clock genesis target).Stops w s w') :
      WaitsFirst clock genesis target w [] w'
  | cut {wait : Duration} {read w' : World σ} {s : Stop}
      (hWait : (nextWait clock genesis target).Returns w wait read)
      (hAwait : (await target wait).Stops read s w') : WaitsFirst clock genesis target w [] w'
  | reached {wait : Duration} {read w' : World σ} {first : Firing σ β} {more : List (Firing σ β)}
      (hWait : (nextWait clock genesis target).Returns w wait read)
      (hAwait : (await target wait).Returns read () first.fired) (hTarget : first.target = target) :
      WaitsFirst clock genesis target w (first :: more) w'

theorem Course.waitsFirst {clock : Clock} {cycle : Target → Act σ β} {genesis : Word64}
    {target : Target} {rest : List Target} {firings : List (Firing σ β)}
    {outcome : Except Stop Unit} {w w' : World σ}
    (h : Course clock cycle genesis w (target :: rest) firings outcome w') :
    WaitsFirst clock genesis target w firings w' := by
  cases h with
  | unscheduled hWait => exact .unscheduled hWait
  | cut hWait hAwait => exact .cut hWait hAwait
  | failed hWait hAwait _ => exact .reached hWait hAwait rfl
  | fired hWait hAwait _ _ => exact .reached hWait hAwait rfl

theorem Course.of_nil {clock : Clock} {cycle : Target → Act σ β} {genesis : Word64}
    {firings : List (Firing σ β)} {outcome : Except Stop Unit} {w w' : World σ}
    (h : Course clock cycle genesis w [] firings outcome w') :
    firings = [] ∧ outcome = .ok () ∧ w' = w := by
  cases h
  exact ⟨rfl, rfl, rfl⟩

theorem Course.succeeded_before {clock : Clock} {cycle : Target → Act σ β} {genesis : Word64}
    {targets : List Target} {firings before after : List (Firing σ β)} {firing : Firing σ β}
    {outcome : Except Stop Unit} {w w' : World σ}
    (h : Course clock cycle genesis w targets firings outcome w')
    (hSplit : firings = before ++ firing :: after) : ∀ f ∈ before, f.succeeded = true := by
  induction h generalizing before with
  | finished => cases before <;> cases hSplit
  | unscheduled => cases before <;> cases hSplit
  | cut => cases before <;> cases hSplit
  | failed =>
    cases before with
    | nil => simp
    | cons first before => cases before <;> cases hSplit
  | fired _ _ _ _ ih =>
    cases before with
    | nil => simp
    | cons first before =>
      obtain ⟨rfl, hRest⟩ := List.cons.inj hSplit
      exact List.forall_mem_cons.mpr ⟨rfl, ih hRest⟩

namespace Ending

variable {clock : Clock} {cycle : Target → Act σ β} {genesis : Word64} {phase phase' : Phase}
  {v w' : World σ} {rest : List Target} {lost : List (Firing σ β)} {outcome : Except Stop Unit}

theorem countP_lost (h : Ending clock cycle genesis phase v rest lost outcome phase' w') :
    lost.countP Firing.succeeded = 0 := by
  cases h <;> rfl

theorem of_ok (h : Ending clock cycle genesis phase v rest lost (.ok ()) phase' w') :
    rest = [] ∧ lost = [] ∧ phase' = .finished := by
  cases h
  exact ⟨rfl, rfl, rfl⟩

theorem of_rest_eq_nil (h : Ending clock cycle genesis phase v [] lost outcome phase' w') :
    outcome = .ok () := by
  cases h
  rfl

theorem of_mem_lost {firing : Firing σ β}
    (h : Ending clock cycle genesis phase v rest lost outcome phase' w') (hLost : firing ∈ lost) :
    ∃ s, firing.outcome = .error s ∧ outcome = .error s ∧ phase' = .dispatching firing.target ∧
      rest.head? = some firing.target := by
  cases h with
  | failed =>
    obtain rfl := List.mem_singleton.mp hLost
    exact ⟨_, rfl, rfl, rfl, rfl⟩
  | finished => cases hLost
  | unscheduled => cases hLost
  | cut => cases hLost

theorem of_error {s : Stop}
    (h : Ending clock cycle genesis phase v rest lost (.error s) phase' w') :
    (∃ firing ∈ lost, firing.outcome = .error s) ∨
    (∃ target wait read, (await target wait).Stops read s w' ∧ phase' = .waiting target wait ∧
      rest.head? = some target) ∨
    ∃ target u, (nextWait clock genesis target).Stops u s w' ∧ rest.head? = some target := by
  cases h with
  | failed => exact .inl ⟨_, List.mem_singleton_self _, rfl⟩
  | unscheduled hWait => exact .inr (.inr ⟨_, _, hWait, rfl⟩)
  | cut _ hAwait => exact .inr (.inl ⟨_, _, _, hAwait, rfl, rfl⟩)

end Ending

end Timetable

/-! ## What a run makes of a timetable -/

/-- One run of a timetable: with which cycle and when it begins, and what comes of it. -/
structure Round (σ β : Type) where
  cycle : Target → Act σ β
  begun : World σ
  firings : List (Firing σ β)
  result : Except Stop (List β)
  after : Timetable
  ended : World σ

namespace Round

open Timetable

/-- The round is a run of `t`, with these firings. -/
structure Runs (clock : Clock) (t : Timetable) (round : Round σ β) : Prop where
  run : t.run clock round.cycle round.begun = ((round.result, round.after), round.ended)
  course : Course clock round.cycle t.genesis round.begun t.remaining round.firings
    (round.result.map fun _ => ()) round.ended

def gains (round : Round σ β) : Nat := round.firings.countP Firing.succeeded

/-- What a run makes of the timetable `t`. -/
structure Advances (clock : Clock) (t : Timetable) (round : Round σ β) : Prop where
  runs : round.Runs clock t
  genesis : round.after.genesis = t.genesis
  /-- The timetable passes the targets whose cycles succeed, and no others. -/
  passed : round.after.passed = t.passed ++ t.remaining.take round.gains
  remaining : round.after.remaining = t.remaining.drop round.gains
  gains_le : round.gains ≤ t.remaining.length
  /-- The cycles are run in the order of the targets, each after the ones before it succeeded. -/
  ordered : ∀ before firing after, round.firings = before ++ firing :: after →
    before.countP Firing.succeeded = before.length ∧
      t.remaining[before.length]? = some firing.target
  waits : ∀ target, t.remaining.head? = some target →
    WaitsFirst clock t.genesis target round.begun round.firings round.ended
  returned : ∀ results, round.result = .ok results ↔
    round.firings.map Firing.target = t.remaining ∧
      round.firings.map Firing.outcome = results.map .ok
  finished : ∀ results, round.result = .ok results →
    round.after.phase = .finished ∧ round.after.remaining = []
  /-- The error of a cycle is returned as it is. -/
  failed : ∀ firing ∈ round.firings, ∀ s, firing.outcome = .error s → round.result = .error s ∧
    round.after.phase = .dispatching firing.target ∧
    round.after.remaining.head? = some firing.target
  stopped : ∀ s, round.result = .error s →
    (∃ firing ∈ round.firings, firing.outcome = .error s) ∨
    (∃ target wait read, (await target wait).Stops read s round.ended ∧
      round.after.phase = .waiting target wait ∧ round.after.remaining.head? = some target) ∨
    ∃ target v, (nextWait clock t.genesis target).Stops v s round.ended ∧
      round.after.remaining.head? = some target
  /-- Where nothing remains, nothing is done. -/
  idle : t.remaining = [] → round.result = .ok [] ∧ round.firings = [] ∧ round.ended = round.begun

section OneRun

variable {clock : Clock} {t : Timetable} {round : Round σ β}

theorem Runs.splits (h : round.Runs clock t) :
    ∃ passes rest lost v, round.firings = passes ++ lost ∧
      t.remaining = passes.map Firing.target ++ rest ∧
      (∀ firing ∈ passes, firing.succeeded = true) ∧
      Ending clock round.cycle t.genesis (phaseAfter t.phase passes) v rest lost
        (round.result.map fun _ => ()) round.after.phase round.ended ∧
      round.result = (round.result.map fun _ => ()).map (fun _ => passes.filterMap Firing.result?) ∧
      round.after.genesis = t.genesis ∧
      round.after.passed = t.passed ++ passes.map Firing.target ∧ round.after.remaining = rest := by
  obtain ⟨passes, rest, lost, v, phase', hFirings, hTargets, hPasses, hEnding, hRun⟩ :=
    h.course.splits t.passed t.phase
  obtain ⟨hBoth, -⟩ := Prod.mk.inj (hRun.symm.trans h.run)
  obtain ⟨hResult, hAfter⟩ := Prod.mk.inj hBoth
  rw [← hAfter]
  exact ⟨passes, rest, lost, v, hFirings, hTargets, hPasses, hEnding, hResult.symm, rfl, rfl, rfl⟩

theorem exists_result_of_succeeded {firing : Firing σ β} (h : firing.succeeded = true) :
    ∃ result, firing.outcome = .ok result := by
  unfold Firing.succeeded at h
  cases hOutcome : firing.outcome with
  | ok result => exact ⟨result, rfl⟩
  | error s =>
    rw [hOutcome] at h
    cases h

theorem map_outcome_of_succeeded {passes : List (Firing σ β)}
    (h : ∀ firing ∈ passes, firing.succeeded = true) :
    passes.map Firing.outcome = (passes.filterMap Firing.result?).map .ok := by
  induction passes with
  | nil => rfl
  | cons first passes ih =>
    obtain ⟨hFirst, hRest⟩ := List.forall_mem_cons.mp h
    obtain ⟨result, hResult⟩ := exists_result_of_succeeded hFirst
    have hSome : first.result? = some result := by
      unfold Firing.result?
      rw [hResult]
      rfl
    rw [List.map_cons, List.filterMap_cons_some hSome, List.map_cons, ih hRest, hResult]

/-- A run returns the results of its cycles, and only if all the cycles that remained succeeded. -/
theorem Runs.returned_iff (h : round.Runs clock t) (results : List β) :
    round.result = .ok results ↔ round.firings.map Firing.target = t.remaining ∧
      round.firings.map Firing.outcome = results.map .ok := by
  obtain ⟨passes, rest, lost, v, hFirings, hTargets, hPasses, hEnding, hResult, _⟩ := h.splits
  have hOutcomes := map_outcome_of_succeeded hPasses
  constructor
  · intro hOk
    rw [hOk] at hEnding hResult
    obtain ⟨rfl, rfl, _⟩ := hEnding.of_ok
    have hResults : results = passes.filterMap Firing.result? := Except.ok.inj hResult
    rw [hFirings, List.append_nil, hTargets, List.append_nil, hResults]
    exact ⟨rfl, hOutcomes⟩
  · rintro ⟨hAll, hResults⟩
    have hNone : lost = [] := by
      refine List.eq_nil_iff_forall_not_mem.mpr fun firing hLost => ?_
      obtain ⟨s, hError, _⟩ := hEnding.of_mem_lost hLost
      have hMem : firing.outcome ∈ round.firings.map Firing.outcome := by
        rw [hFirings]
        exact List.mem_map_of_mem (List.mem_append_right _ hLost)
      rw [hResults, hError] at hMem
      obtain ⟨_, _, hOk⟩ := List.mem_map.mp hMem
      cases hOk
    rw [hFirings, hNone, List.append_nil] at hAll hResults
    rw [hTargets, List.self_eq_append_right] at hAll
    rw [hAll] at hEnding
    rw [hEnding.of_rest_eq_nil] at hResult
    rw [hOutcomes] at hResults
    rw [hResult, List.map_injective_iff.mpr (fun _ _ => Except.ok.inj) hResults]
    rfl

theorem Runs.advances (h : round.Runs clock t) : round.Advances clock t := by
  obtain ⟨passes, rest, lost, v, hFirings, hTargets, hPasses, hEnding, hResult, hGenesis, hPassed,
    hRest⟩ := h.splits
  have hGains : round.gains = (passes.map Firing.target).length := by
    unfold gains
    rw [hFirings, List.countP_append, hEnding.countP_lost, Nat.add_zero, List.length_map]
    exact List.countP_eq_length.mpr hPasses
  exact
    { runs := h
      genesis := hGenesis
      passed := by rw [hPassed, hGains, hTargets, List.take_left]
      remaining := by rw [hRest, hGains, hTargets, List.drop_left]
      gains_le := by
        rw [hGains, hTargets, List.length_append]
        exact Nat.le_add_right _ _
      ordered := by
        intro before firing after hSplit
        refine ⟨List.countP_eq_length.mpr (h.course.succeeded_before hSplit), ?_⟩
        obtain ⟨more, hMore⟩ := h.course.targets_prefix
        have hLength : before.length = (before.map Firing.target).length :=
          (List.length_map _).symm
        rw [← hMore, hSplit, List.map_append, List.map_cons, List.append_assoc, hLength,
          List.getElem?_append_right (Nat.le_refl _), Nat.sub_self]
        rfl
      waits := by
        intro target hTarget
        obtain ⟨others, hOthers⟩ := List.head?_eq_some_iff.mp hTarget
        have hCourse := h.course
        rw [hOthers] at hCourse
        exact hCourse.waitsFirst
      returned := h.returned_iff
      finished := by
        intro results hOk
        rw [hOk] at hEnding
        exact ⟨hEnding.of_ok.2.2, hRest.trans hEnding.of_ok.1⟩
      failed := by
        intro firing hMem s hError
        rw [hFirings] at hMem
        rcases List.mem_append.mp hMem with hPass | hLost
        · obtain ⟨_, hOk⟩ := exists_result_of_succeeded (hPasses firing hPass)
          rw [hError] at hOk
          cases hOk
        · obtain ⟨s', hSame, hOutcome, hPhase, hHead⟩ := hEnding.of_mem_lost hLost
          rw [hError] at hSame
          cases hSame
          rw [hOutcome] at hResult
          exact ⟨hResult, hPhase, hRest ▸ hHead⟩
      stopped := by
        intro s hError
        rw [hError] at hEnding
        rw [hFirings, hRest]
        rcases hEnding.of_error with ⟨firing, hLost, hSame⟩ | hOther
        · exact .inl ⟨firing, List.mem_append_right _ hLost, hSame⟩
        · exact .inr hOther
      idle := by
        intro hNone
        have hCourse := h.course
        rw [hNone] at hCourse
        obtain ⟨hFirings, _, hEnded⟩ := hCourse.of_nil
        refine ⟨(h.returned_iff []).mpr ?_, hFirings, hEnded⟩
        rw [hFirings, hNone]
        exact ⟨rfl, rfl⟩ }

end OneRun

end Round

namespace Timetable

/-! ## Any number of runs -/

/-- The rounds are runs of a timetable, one after the other, and leave `t'`. What happens to the
world between two of them is left open. -/
inductive Rounds (clock : Clock) : Timetable → List (Round σ β) → Timetable → Prop
  | nil (t : Timetable) : Rounds clock t [] t
  | cons {t t' : Timetable} {round : Round σ β} {rounds : List (Round σ β)}
      (hRuns : round.Runs clock t) (hRest : Rounds clock round.after rounds t') :
      Rounds clock t (round :: rounds) t'

/-- The firings of all rounds, in their order. -/
def allFirings (rounds : List (Round σ β)) : List (Firing σ β) := rounds.flatMap Round.firings

/-- How many cycles have succeeded in all. -/
def successes (rounds : List (Round σ β)) : Nat := (allFirings rounds).countP Firing.succeeded

theorem successes_cons (round : Round σ β) (rounds : List (Round σ β)) :
    successes (round :: rounds) = round.gains + successes rounds := by
  unfold successes allFirings Round.gains
  rw [List.flatMap_cons, List.countP_append]

/-- The timetable has passed so many of the targets and keeps the others. -/
structure StandsAt (genesis : Word64) (targets : List Target) (done : Nat) (t : Timetable) :
    Prop where
  genesis_eq : t.genesis = genesis
  passed : t.passed = targets.take done
  remaining : t.remaining = targets.drop done
  done_le : done ≤ targets.length

theorem standsAt_new (genesis : Word64) (targets : List Target) :
    StandsAt genesis targets 0 (.new genesis targets) := ⟨rfl, rfl, rfl, Nat.zero_le _⟩

section Rounds

variable {clock : Clock} {genesis : Word64} {targets : List Target} {done : Nat}
  {t t' : Timetable}
  {round : Round σ β} {rounds : List (Round σ β)}

theorem StandsAt.run (h : StandsAt genesis targets done t) (hAdvances : round.Advances clock t) :
    StandsAt genesis targets (done + round.gains) round.after where
  genesis_eq := hAdvances.genesis.trans h.genesis_eq
  passed := by rw [hAdvances.passed, h.passed, h.remaining, List.take_add]
  remaining := by rw [hAdvances.remaining, h.remaining, List.drop_drop]
  done_le := by
    have hLe := hAdvances.gains_le
    have hDone := h.done_le
    rw [h.remaining, List.length_drop] at hLe
    omega

theorem StandsAt.runs (h : StandsAt genesis targets done t) (hRounds : Rounds clock t rounds t') :
    StandsAt genesis targets (done + successes rounds) t' := by
  induction hRounds generalizing done with
  | nil t => exact h
  | cons hRuns _ ih =>
    rw [successes_cons, ← Nat.add_assoc]
    exact ih (h.run hRuns.advances)

/-- Every cycle that is run is that of the first target that no cycle has succeeded for. -/
theorem Rounds.target_eq (hRounds : Rounds clock t rounds t') (h : StandsAt genesis targets done t)
    {before after : List (Firing σ β)} {firing : Firing σ β}
    (hSplit : allFirings rounds = before ++ firing :: after) :
    targets[done + before.countP Firing.succeeded]? = some firing.target := by
  induction hRounds generalizing done before with
  | nil => cases before <;> cases hSplit
  | @cons t t' round rounds hRuns _ ih =>
    have hLater : ∀ others, allFirings rounds = others ++ firing :: after →
        before = round.firings ++ others →
        targets[done + before.countP Firing.succeeded]? = some firing.target := by
      rintro others hOthers rfl
      rw [List.countP_append, ← Nat.add_assoc]
      exact ih (h.run hRuns.advances) hOthers
    change round.firings ++ allFirings rounds = before ++ firing :: after at hSplit
    rcases List.append_eq_append_iff.mp hSplit with ⟨others, hBefore, hOthers⟩ |
      ⟨others, hFirings, hOthers⟩
    · exact hLater others hOthers hBefore
    · cases others with
      | nil => exact hLater [] hOthers.symm (by rw [hFirings, List.append_nil, List.append_nil])
      | cons first others =>
        obtain ⟨rfl, _⟩ := List.cons.inj hOthers
        obtain ⟨hCount, hTarget⟩ := hRuns.advances.ordered before firing others hFirings
        rw [hCount, ← List.getElem?_drop, ← h.remaining]
        exact hTarget

theorem Rounds.at_round {earlier later : List (Round σ β)}
    (h : Rounds clock t (earlier ++ round :: later) t') :
    ∃ u, Rounds clock t earlier u ∧ round.Runs clock u := by
  induction earlier generalizing t with
  | nil =>
    cases h with
    | cons hRuns _ => exact ⟨t, .nil t, hRuns⟩
  | cons first earlier ih =>
    cases h with
    | cons hFirst hRest =>
      obtain ⟨u, hRounds, hRuns⟩ := ih hRest
      exact ⟨u, .cons hFirst hRounds, hRuns⟩

theorem Rounds.remaining_eq_nil (h : Rounds clock t rounds t') (hNone : t.remaining = []) :
    t'.remaining = [] := by
  induction h with
  | nil => exact hNone
  | cons hRuns _ ih =>
    refine ih ?_
    rw [hRuns.advances.remaining, hNone, List.drop_nil]

/-- Once a run has returned, nothing remains. -/
theorem Rounds.remaining_of_returned (h : Rounds clock t rounds t')
    (hReturned : ∃ round ∈ rounds, ∃ results, round.result = .ok results) : t'.remaining = [] := by
  induction h with
  | nil =>
    obtain ⟨_, hMem, _⟩ := hReturned
    cases hMem
  | cons hRuns hRest ih =>
    obtain ⟨found, hMem, results, hOk⟩ := hReturned
    rcases List.mem_cons.mp hMem with rfl | hMem
    · exact hRest.remaining_eq_nil (hRuns.advances.finished results hOk).2
    · exact ih ⟨found, hMem, results, hOk⟩

end Rounds

/-- Whatever the cycles do, and whenever the runs begin, there are rounds. -/
theorem exists_rounds (clock : Clock) (t : Timetable)
    (calls : List ((Target → Act σ β) × World σ)) :
    ∃ rounds t', Rounds clock t rounds t' ∧
      rounds.map (fun round => (round.cycle, round.begun)) = calls := by
  induction calls generalizing t with
  | nil => exact ⟨[], t, .nil t, rfl⟩
  | cons call calls ih =>
    obtain ⟨cycle, begun⟩ := call
    rcases hRun : t.run clock cycle begun with ⟨⟨result, after⟩, ended⟩
    obtain ⟨firings, hCourse, _⟩ :=
      runFrom_course clock cycle t.genesis t.passed t.remaining t.phase begun hRun
    obtain ⟨rounds, t', hRounds, hCalls⟩ := ih after
    exact ⟨⟨cycle, begun, firings, result, after, ended⟩ :: rounds, t',
      .cons ⟨hRun, hCourse⟩ hRounds, congrArg (_ :: ·) hCalls⟩

/-- However often a timetable is run, with cycles that succeed, fail or are cut off, it has passed
as many targets as cycles have succeeded. Every cycle that is run is that of the first target left,
which the next run waits for first. A run returns exactly if the cycles of all targets that were
left succeed, and gives their results; after that the runs do nothing. -/
theorem runs_resume (clock : Clock) (genesis : Word64) (targets : List Target)
    (calls : List ((Target → Act σ β) × World σ)) :
    ∃ rounds t, Rounds clock (.new genesis targets) rounds t ∧
      rounds.map (fun round => (round.cycle, round.begun)) = calls ∧
      StandsAt genesis targets (successes rounds) t ∧
      (∀ before firing after, allFirings rounds = before ++ firing :: after →
        targets[before.countP Firing.succeeded]? = some firing.target) ∧
      ∀ earlier round later, rounds = earlier ++ round :: later →
        ∃ u, StandsAt genesis targets (successes earlier) u ∧ round.Advances clock u ∧
          ((∃ r ∈ earlier, ∃ results, r.result = .ok results) →
            round.result = .ok [] ∧ round.firings = [] ∧ round.ended = round.begun) := by
  obtain ⟨rounds, t, hRounds, hCalls⟩ := exists_rounds clock (.new genesis targets) calls
  have hNew := standsAt_new genesis targets
  refine ⟨rounds, t, hRounds, hCalls, ?_, ?_, ?_⟩
  · have hStands := hNew.runs hRounds
    rwa [Nat.zero_add] at hStands
  · intro before firing after hSplit
    have hTarget := hRounds.target_eq hNew hSplit
    rwa [Nat.zero_add] at hTarget
  · rintro earlier round later rfl
    obtain ⟨u, hEarlier, hRuns⟩ := hRounds.at_round
    have hStands := hNew.runs hEarlier
    rw [Nat.zero_add] at hStands
    exact ⟨u, hStands, hRuns.advances,
      fun hReturned => hRuns.advances.idle (hEarlier.remaining_of_returned hReturned)⟩

-- a cycle that fails is run again first
example :
    let halted := (neighbours.run (steadyClock 0)
      (fun _ => (Act.fail (.pricing .noBaseFee) : Act Unit Unit)) { network := () }).1.2
    halted = ⟨100, [], [3, 4], .dispatching 3⟩ ∧
      (halted.run (steadyClock 0) thirteenSeconds { network := () }).1.2 =
        ⟨100, [3, 4], [], .finished⟩ := by
  decide +kernel

end Timetable

end TxLoad
