import TxLoad.Proofs.Run.Action

/-! # The calls that an action makes

`World.Grows` says that one world comes after another and which calls were made in between, each at
a moment between the two. `Act.Makes` says which calls an action makes: all of a list if it returns,
and the first ones of the list if it stops. `makes_bind` puts such statements together along a
sequence of actions. Nothing is cut off here: the worlds are open, and a wait in an open world ends.
-/

namespace TxLoad

variable {σ α β : Type}

/-- The world after a wait in which nothing else happens. -/
def World.later (w : World σ) (d : Duration) : World σ := { w with now := w.now.plus d }

/-- `w'` comes after `w`, and `made` are the calls in between. -/
structure World.Grows (w : World σ) (made : List (Duration × Call)) (w' : World σ) : Prop where
  cutOff_eq : w'.cutOff = w.cutOff
  calls_eq : w'.calls = w.calls ++ made
  now_le : w.now.nanos ≤ w'.now.nanos
  timely : ∀ call ∈ made, w.now.nanos ≤ call.1.nanos ∧ call.1.nanos ≤ w'.now.nanos

namespace World.Grows

theorem silent {w w' : World σ} (hCut : w'.cutOff = w.cutOff) (hCalls : w'.calls = w.calls)
    (hNow : w.now.nanos ≤ w'.now.nanos) : w.Grows [] w' where
  cutOff_eq := hCut
  calls_eq := by rw [hCalls, List.append_nil]
  now_le := hNow
  timely := by
    intro call h
    cases h

theorem refl (w : World σ) : w.Grows [] w := silent rfl rfl (Nat.le_refl _)

theorem trans {w v w' : World σ} {made more : List (Duration × Call)} (h : w.Grows made v)
    (g : v.Grows more w') : w.Grows (made ++ more) w' where
  cutOff_eq := g.cutOff_eq.trans h.cutOff_eq
  calls_eq := by rw [g.calls_eq, h.calls_eq, List.append_assoc]
  now_le := Nat.le_trans h.now_le g.now_le
  timely := by
    intro call hCall
    rcases List.mem_append.mp hCall with hCall | hCall
    · exact ⟨(h.timely call hCall).1, Nat.le_trans (h.timely call hCall).2 g.now_le⟩
    · exact ⟨Nat.le_trans h.now_le (g.timely call hCall).1, (g.timely call hCall).2⟩

/-- Calls that are made at the present moment. -/
theorem of_logged {w w' : World σ} {calls : List Call} (hCut : w'.cutOff = w.cutOff)
    (hCalls : w'.calls = w.calls ++ calls.map fun call => (w.now, call))
    (hNow : w.now.nanos ≤ w'.now.nanos) : w.Grows (calls.map fun call => (w.now, call)) w' where
  cutOff_eq := hCut
  calls_eq := hCalls
  now_le := hNow
  timely := by
    intro call h
    obtain ⟨c, _, rfl⟩ := List.mem_map.mp h
    exact ⟨Nat.le_refl _, hNow⟩

theorem isOpen {w w' : World σ} {made : List (Duration × Call)} (h : w.Grows made w')
    (hOpen : w.cutOff = none) : w'.cutOff = none := h.cutOff_eq.trans hOpen

end World.Grows

namespace Act

/-- The calls that the action makes when it is begun in `w`. -/
structure Makes (x : Act σ α) (w : World σ) (calls : List Call) : Prop where
  all : ∀ {a w'}, x.Returns w a w' → ∃ made, w.Grows made w' ∧ made.map Prod.snd = calls
  first : ∀ {s w'}, x.Stops w s w' → ∃ made, w.Grows made w' ∧ made.map Prod.snd <+: calls

theorem Makes.all_open {x : Act σ α} {w w' : World σ} {calls : List Call} {a : α}
    (h : x.Makes w calls) (hOpen : w.cutOff = none) (hx : x.Returns w a w') : w'.cutOff = none := by
  obtain ⟨made, hGrows, _⟩ := h.all hx
  exact hGrows.isOpen hOpen

theorem Makes.grows {x : Act σ α} {w : World σ} {calls : List Call} (h : x.Makes w calls) :
    ∃ made, w.Grows made (x w).2 ∧ made.map Prod.snd <+: calls := by
  rcases hx : x w with ⟨s | a, v⟩
  · exact h.first hx
  · obtain ⟨made, hGrows, rfl⟩ := h.all hx
    exact ⟨made, hGrows, List.prefix_rfl⟩

theorem Makes.isOpen {x : Act σ α} {w : World σ} {calls : List Call} (h : x.Makes w calls)
    (hOpen : w.cutOff = none) : (x w).2.cutOff = none := by
  obtain ⟨made, hGrows, _⟩ := h.grows
  exact hGrows.isOpen hOpen

theorem Makes.prefix_calls {x : Act σ α} {w : World σ} {calls : List Call}
    (h : x.Makes w calls) : w.calls <+: (x w).2.calls := by
  obtain ⟨made, hGrows, _⟩ := h.grows
  exact ⟨made, hGrows.calls_eq.symm⟩

theorem makes_bind {x : Act σ α} {f : α → Act σ β} {w : World σ} {calls more : List Call}
    (hx : x.Makes w calls) (hf : ∀ a v, x.Returns w a v → (f a).Makes v more) :
    (x >>= f).Makes w (calls ++ more) where
  all := by
    intro b w' h
    obtain ⟨a, v, hReturns, hRest⟩ := returns_bind.mp h
    obtain ⟨made, hMade, rfl⟩ := hx.all hReturns
    obtain ⟨made', hMade', rfl⟩ := (hf a v hReturns).all hRest
    exact ⟨made ++ made', hMade.trans hMade', List.map_append⟩
  first := by
    intro s w' h
    rcases stops_bind.mp h with hStops | ⟨a, v, hReturns, hRest⟩
    · obtain ⟨made, hMade, hPrefix⟩ := hx.first hStops
      exact ⟨made, hMade, hPrefix.trans (List.prefix_append _ _)⟩
    · obtain ⟨made, hMade, rfl⟩ := hx.all hReturns
      obtain ⟨made', hMade', hPrefix⟩ := (hf a v hReturns).first hRest
      refine ⟨made ++ made', hMade.trans hMade', ?_⟩
      rw [List.map_append]
      exact (List.prefix_append_right_inj _).mpr hPrefix

/-- An action that makes no calls before one that does. -/
theorem makes_bind_silent {x : Act σ α} {f : α → Act σ β} {w : World σ} {calls : List Call}
    (hx : x.Makes w []) (hf : ∀ a v, x.Returns w a v → (f a).Makes v calls) :
    (x >>= f).Makes w calls := makes_bind hx hf

/-- An action after which no calls are made. -/
theorem makes_bind_last {x : Act σ α} {f : α → Act σ β} {w : World σ} {calls : List Call}
    (hx : x.Makes w calls) (hf : ∀ a v, x.Returns w a v → (f a).Makes v []) :
    (x >>= f).Makes w calls := by
  have h := makes_bind hx hf
  rwa [List.append_nil] at h

/-- An action that never returns may be one of which more was to come. -/
theorem Makes.of_prefix {x : Act σ α} {w : World σ} {part calls : List Call}
    (h : x.Makes w part) (hPart : part <+: calls) (hNever : ∀ a w', ¬ x.Returns w a w') :
    x.Makes w calls where
  all := by
    intro a w' hReturns
    exact absurd hReturns (hNever a w')
  first := by
    intro s w' hStops
    obtain ⟨made, hMade, hPrefix⟩ := h.first hStops
    exact ⟨made, hMade, hPrefix.trans hPart⟩

/-- An action that leaves the time, the limit of the run and the calls as they are. -/
theorem makes_nothing {x : Act σ α} {w : World σ}
    (hReturns : ∀ a w', x.Returns w a w' →
      w'.cutOff = w.cutOff ∧ w'.calls = w.calls ∧ w'.now = w.now)
    (hStops : ∀ s w', x.Stops w s w' →
      w'.cutOff = w.cutOff ∧ w'.calls = w.calls ∧ w'.now = w.now) : x.Makes w [] where
  all := by
    intro a w' h
    obtain ⟨hCut, hCalls, hNow⟩ := hReturns a w' h
    exact ⟨[], .silent hCut hCalls (Nat.le_of_eq (by rw [hNow])), rfl⟩
  first := by
    intro s w' h
    obtain ⟨hCut, hCalls, hNow⟩ := hStops s w' h
    exact ⟨[], .silent hCut hCalls (Nat.le_of_eq (by rw [hNow])), List.prefix_rfl⟩

theorem makes_pure (a : α) (w : World σ) : (pure a : Act σ α).Makes w [] :=
  makes_nothing (by simp) (by simp)

theorem makes_throw (s : Stop) (w : World σ) : (throw s : Act σ α).Makes w [] :=
  makes_nothing (by simp) (by simp)

theorem makes_get (w : World σ) : (get : Act σ (World σ)).Makes w [] :=
  makes_nothing (by simp) (by simp)

theorem makes_notice (n : Notice) (w : World σ) : (notice n : Act σ Unit).Makes w [] :=
  makes_nothing (by simp) (by simp)

theorem makes_count (f : Tally → Tally) (w : World σ) : (count f : Act σ Unit).Makes w [] :=
  makes_nothing (by simp) (by simp)

theorem makes_step (f : σ → α × σ) (w : World σ) : (step f : Act σ α).Makes w [] :=
  makes_nothing (by simp) (by simp)

theorem makes_ofExcept (r : Except Stop α) (w : World σ) : (ofExcept r : Act σ α).Makes w [] :=
  makes_nothing (by simp) (by simp)

theorem makes_ofFault (r : Except Fault α) (w : World σ) : (ofFault r : Act σ α).Makes w [] :=
  makes_nothing (by simp) (by
    intro s w' h
    obtain ⟨_, _, _, rfl⟩ := stops_ofFault.mp h
    exact ⟨rfl, rfl, rfl⟩)

theorem makes_logCalls (calls : List Call) (w : World σ) :
    (logCalls calls : Act σ Unit).Makes w calls where
  all := by
    intro u w' h
    obtain rfl := returns_logCalls.mp h
    refine ⟨_, .of_logged rfl rfl (Nat.le_refl _), ?_⟩
    rw [List.map_map]
    exact List.map_id calls
  first := by
    intro s w' h
    exact absurd h not_stops_logCalls

/-! ### Waits -/

theorem returns_sleep {d : Duration} {w w' : World σ} {u : Unit} (hOpen : w.cutOff = none) :
    (sleep d : Act σ Unit).Returns w u w' ↔ w' = w.later d := by
  have h : (sleep d : Act σ Unit) w = (.ok (), w.later d) := by
    obtain ⟨network, now, cutOff, readings, calls, notices, tally, handedOut⟩ := w
    change cutOff = none at hOpen
    subst hOpen
    rfl
  exact (returns_of_eq h).trans ⟨And.right, fun h => ⟨rfl, h⟩⟩

/-- A wait that ends was not cut off. -/
theorem later_of_returns_sleep {d : Duration} {w w' : World σ} {u : Unit}
    (h : (sleep d : Act σ Unit).Returns w u w') : w' = w.later d := by
  obtain ⟨network, now, cutOff, readings, calls, notices, tally, handedOut⟩ := w
  cases cutOff with
  | none => exact (returns_sleep rfl).mp h
  | some moment =>
    change (ite (moment.nanos < (now.plus d).nanos) (_ : Act σ Unit) _ _) = (.ok u, w') at h
    split at h
    · cases h
    · cases h
      rfl

theorem not_stops_sleep {d : Duration} {w w' : World σ} {s : Stop} (hOpen : w.cutOff = none) :
    ¬ (sleep d : Act σ Unit).Stops w s w' :=
  ((returns_sleep hOpen).mpr rfl : (sleep d : Act σ Unit).Returns w () (w.later d)).not_stops

theorem makes_sleep (d : Duration) {w : World σ} (hOpen : w.cutOff = none) :
    (sleep d : Act σ Unit).Makes w [] where
  all := by
    intro u w' h
    obtain rfl := (returns_sleep hOpen).mp h
    exact ⟨[], .silent rfl rfl (Nat.le_add_right _ _), rfl⟩
  first := by
    intro s w' h
    exact absurd h (not_stops_sleep hOpen)

/-! ### Calls to an endpoint -/

theorem makes_ask (call : Call) (f : σ → Reply α × σ) {w : World σ} (hOpen : w.cutOff = none) :
    (ask call f : Act σ α).Makes w [call] := by
  refine makes_bind_last (makes_logCalls _ w) ?_
  intro _ v hLogged
  have hv : v.cutOff = none := (makes_logCalls _ w).all_open hOpen hLogged
  refine makes_bind_silent (makes_step _ v) ?_
  intro reply u hStep
  have hu : u.cutOff = none := (makes_step _ v).all_open hv hStep
  refine makes_bind_silent (makes_sleep _ hu) ?_
  intro _ t _
  exact makes_ofExcept _ t

/-- A call in an open world comes to its answer after the delay of the reply. -/
theorem ask_apply (call : Call) (f : σ → Reply α × σ) {w : World σ} (hOpen : w.cutOff = none) :
    (ask call f : Act σ α) w =
      ((f w.network).1.answer.toExcept,
        { w with
          network := (f w.network).2
          now := w.now.plus (f w.network).1.delay
          calls := w.calls ++ [(w.now, call)] }) := by
  obtain ⟨network, now, cutOff, readings, calls, notices, tally, handedOut⟩ := w
  change cutOff = none at hOpen
  subst hOpen
  show (ofExcept (f network).1.answer.toExcept : Act σ α) _ = _
  cases (f network).1.answer.toExcept <;> rfl

/-- A call that returns was not cut off. -/
theorem world_of_returns_ask {call : Call} {f : σ → Reply α × σ} {w w' : World σ} {a : α}
    (h : (ask call f : Act σ α).Returns w a w') :
    w' =
      { w with
        network := (f w.network).2
        now := w.now.plus (f w.network).1.delay
        calls := w.calls ++ [(w.now, call)] } := by
  obtain ⟨_, u, hLogged, h⟩ := returns_bind.mp h
  obtain ⟨reply, v, hStep, h⟩ := returns_bind.mp h
  obtain ⟨_, t, hWait, h⟩ := returns_bind.mp h
  obtain rfl := returns_logCalls.mp hLogged
  obtain ⟨rfl, rfl⟩ := returns_step.mp hStep
  obtain rfl := later_of_returns_sleep hWait
  obtain ⟨_, rfl⟩ := returns_ofExcept.mp h
  rfl

theorem exists_returns_ask (call : Call) {f : σ → Reply α × σ} {w : World σ} {a : α}
    (hOpen : w.cutOff = none) (hAnswer : (f w.network).1.answer = .value a) :
    ∃ v, (ask call f : Act σ α).Returns w a v ∧ v.cutOff = none ∧
      v.network = (f w.network).2 := by
  have h := ask_apply call f hOpen
  rw [hAnswer] at h
  exact ⟨_, h, hOpen, rfl⟩

end Act

end TxLoad
