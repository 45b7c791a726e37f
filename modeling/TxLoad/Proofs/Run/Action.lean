import TxLoad.Run.World

/-! # What an action does to the world

An action either returns or stops, and leaves a world behind. `returns_bind` and `stops_bind` take a
sequence of actions apart; the lemmas after them say the same of each basic action, so that what a
longer action does follows by rewriting. `Keeps` says of an action that a view of the world is the
same before and after it, whatever the action comes to.
-/

namespace TxLoad

variable {σ α β : Type}

theorem Answer.toExcept_eq_ok_iff {answer : Answer α} {a : α} :
    answer.toExcept = .ok a ↔ answer = .value a := by
  cases answer <;> simp [toExcept]

namespace Act

/-- The action, begun in `w`, gives `a` and leaves `w'`. -/
def Returns (x : Act σ α) (w : World σ) (a : α) (w' : World σ) : Prop := x w = (.ok a, w')

/-- The action, begun in `w`, stops and leaves `w'`. -/
def Stops (x : Act σ α) (w : World σ) (s : Stop) (w' : World σ) : Prop := x w = (.error s, w')

theorem returns_or_stops (x : Act σ α) (w : World σ) :
    (∃ a w', x.Returns w a w') ∨ ∃ s w', x.Stops w s w' := by
  rcases h : x w with ⟨_ | a, w'⟩
  · exact .inr ⟨_, w', h⟩
  · exact .inl ⟨a, w', h⟩

theorem Returns.unique {x : Act σ α} {w v v' : World σ} {a b : α} (h : x.Returns w a v)
    (g : x.Returns w b v') : a = b ∧ v = v' := by
  have he := h.symm.trans g
  cases he
  exact ⟨rfl, rfl⟩

theorem Returns.not_stops {x : Act σ α} {w v v' : World σ} {a : α} {s : Stop}
    (h : x.Returns w a v) : ¬ x.Stops w s v' := by
  intro g
  have he := h.symm.trans g
  cases he

/-! ### Sequences -/

theorem bind_apply (x : Act σ α) (f : α → Act σ β) (w : World σ) :
    (x >>= f) w = match x w with
      | (.ok a, w) => f a w
      | (.error s, w) => (.error s, w) := by
  show (ExceptT.bindCont f (x w).1) (x w).2 = _
  rcases x w with ⟨_ | _, _⟩ <;> rfl

theorem returns_bind {x : Act σ α} {f : α → Act σ β} {w w' : World σ} {b : β} :
    (x >>= f).Returns w b w' ↔ ∃ a v, x.Returns w a v ∧ (f a).Returns v b w' := by
  unfold Returns
  rw [bind_apply]
  constructor
  · intro h
    rcases hx : x w with ⟨_ | a, v⟩
    · rw [hx] at h
      cases h
    · rw [hx] at h
      exact ⟨a, v, rfl, h⟩
  · rintro ⟨a, v, hx, hf⟩
    rw [hx]
    exact hf

theorem exists_returns_bind {x : Act σ α} {f : α → Act σ β} {w : World σ} {b : β} :
    (∃ w', (x >>= f).Returns w b w') ↔
      ∃ a v, x.Returns w a v ∧ ∃ w', (f a).Returns v b w' := by
  constructor
  · rintro ⟨w', h⟩
    obtain ⟨a, v, hx, hf⟩ := returns_bind.mp h
    exact ⟨a, v, hx, w', hf⟩
  · rintro ⟨a, v, hx, w', hf⟩
    exact ⟨w', returns_bind.mpr ⟨a, v, hx, hf⟩⟩

theorem stops_bind {x : Act σ α} {f : α → Act σ β} {w w' : World σ} {s : Stop} :
    (x >>= f).Stops w s w' ↔
      x.Stops w s w' ∨ ∃ a v, x.Returns w a v ∧ (f a).Stops v s w' := by
  unfold Returns Stops
  rw [bind_apply]
  constructor
  · intro h
    rcases hx : x w with ⟨_ | a, v⟩
    · rw [hx] at h
      cases h
      exact .inl rfl
    · rw [hx] at h
      exact .inr ⟨a, v, rfl, h⟩
  · rintro (hx | ⟨a, v, hx, hf⟩)
    · rw [hx]
    · rw [hx]
      exact hf

/-! ### Basic actions -/

@[simp] theorem returns_pure {a b : α} {w w' : World σ} :
    (pure a : Act σ α).Returns w b w' ↔ b = a ∧ w' = w := by
  constructor
  · intro h
    cases h
    exact ⟨rfl, rfl⟩
  · rintro ⟨rfl, rfl⟩
    rfl

@[simp] theorem not_stops_pure {a : α} {w w' : World σ} {s : Stop} :
    ¬ (pure a : Act σ α).Stops w s w' :=
  Returns.not_stops (returns_pure.mpr ⟨rfl, rfl⟩)

@[simp] theorem not_returns_throw {a : α} {w w' : World σ} {s : Stop} :
    ¬ (throw s : Act σ α).Returns w a w' := by
  intro h
  cases h

@[simp] theorem stops_throw {w w' : World σ} {s t : Stop} :
    (throw s : Act σ α).Stops w t w' ↔ t = s ∧ w' = w := by
  constructor
  · intro h
    cases h
    exact ⟨rfl, rfl⟩
  · rintro ⟨rfl, rfl⟩
    rfl

/-- An action that only changes the world. -/
theorem returns_of_eq {x : Act σ α} {w v w' : World σ} {a b : α} (h : x w = (.ok a, v)) :
    x.Returns w b w' ↔ b = a ∧ w' = v := by
  unfold Returns
  rw [h]
  constructor
  · intro g
    cases g
    exact ⟨rfl, rfl⟩
  · rintro ⟨rfl, rfl⟩
    rfl

/-- Actions that only change the world, one after the other. -/
theorem forM_apply {f : α → Act σ Unit} {g : World σ → α → World σ}
    (h : ∀ a w, f a w = (.ok (), g w a)) (l : List α) (w : World σ) :
    l.forM f w = (.ok (), l.foldl g w) := by
  induction l generalizing w with
  | nil => rfl
  | cons a l ih =>
    show (f a >>= fun _ => l.forM f) w = _
    rw [bind_apply, h]
    exact ih (g w a)

@[simp] theorem returns_get {w v w' : World σ} :
    (get : Act σ (World σ)).Returns w v w' ↔ v = w ∧ w' = w := returns_of_eq rfl

@[simp] theorem not_stops_get {w w' : World σ} {s : Stop} :
    ¬ (get : Act σ (World σ)).Stops w s w' :=
  Returns.not_stops (x := (get : Act σ (World σ))) (v := w) (a := w) rfl

@[simp] theorem returns_modify {f : World σ → World σ} {w w' : World σ} {u : Unit} :
    (modify f : Act σ Unit).Returns w u w' ↔ w' = f w :=
  (returns_of_eq rfl).trans ⟨And.right, fun h => ⟨rfl, h⟩⟩

@[simp] theorem not_stops_modify {f : World σ → World σ} {w w' : World σ} {s : Stop} :
    ¬ (modify f : Act σ Unit).Stops w s w' :=
  Returns.not_stops (v := f w) (a := ()) rfl

@[simp] theorem returns_notice {n : Notice} {w w' : World σ} {u : Unit} :
    (notice n : Act σ Unit).Returns w u w' ↔ w' = { w with notices := w.notices ++ [n] } :=
  returns_modify

@[simp] theorem not_stops_notice {n : Notice} {w w' : World σ} {s : Stop} :
    ¬ (notice n : Act σ Unit).Stops w s w' := not_stops_modify

@[simp] theorem returns_count {f : Tally → Tally} {w w' : World σ} {u : Unit} :
    (count f : Act σ Unit).Returns w u w' ↔ w' = { w with tally := f w.tally } := returns_modify

@[simp] theorem not_stops_count {f : Tally → Tally} {w w' : World σ} {s : Stop} :
    ¬ (count f : Act σ Unit).Stops w s w' := not_stops_modify

@[simp] theorem returns_logCalls {calls : List Call} {w w' : World σ} {u : Unit} :
    (logCalls calls : Act σ Unit).Returns w u w' ↔
      w' = { w with calls := w.calls ++ calls.map fun call => (w.now, call) } := returns_modify

@[simp] theorem not_stops_logCalls {calls : List Call} {w w' : World σ} {s : Stop} :
    ¬ (logCalls calls : Act σ Unit).Stops w s w' := not_stops_modify

@[simp] theorem returns_step {f : σ → α × σ} {w w' : World σ} {a : α} :
    (step f : Act σ α).Returns w a w' ↔
      a = (f w.network).1 ∧ w' = { w with network := (f w.network).2 } := returns_of_eq rfl

@[simp] theorem not_stops_step {f : σ → α × σ} {w w' : World σ} {s : Stop} :
    ¬ (step f : Act σ α).Stops w s w' :=
  Returns.not_stops (v := { w with network := (f w.network).2 }) (a := (f w.network).1) rfl

@[simp] theorem returns_ofExcept {r : Except Stop α} {w w' : World σ} {a : α} :
    (ofExcept r : Act σ α).Returns w a w' ↔ r = .ok a ∧ w' = w := by
  cases r with
  | error s => simp [ofExcept]
  | ok b => simp [ofExcept, eq_comm]

@[simp] theorem stops_ofExcept {r : Except Stop α} {w w' : World σ} {s : Stop} :
    (ofExcept r : Act σ α).Stops w s w' ↔ r = .error s ∧ w' = w := by
  cases r with
  | error t => simp [ofExcept, eq_comm]
  | ok b => simp [ofExcept]

@[simp] theorem returns_ofFault {r : Except Fault α} {w w' : World σ} {a : α} :
    (ofFault r : Act σ α).Returns w a w' ↔ r = .ok a ∧ w' = w := by
  cases r with
  | error f => simp [ofFault]
  | ok b => simp [ofFault, eq_comm]

@[simp] theorem stops_ofFault {r : Except Fault α} {w w' : World σ} {s : Stop} :
    (ofFault r : Act σ α).Stops w s w' ↔ ∃ f, r = .error f ∧ s = .fault f ∧ w' = w := by
  cases r with
  | error f => simp [ofFault, eq_comm]
  | ok b => simp [ofFault]

@[simp] theorem not_returns_fail {f : Failure} {w w' : World σ} {a : α} :
    ¬ (fail f : Act σ α).Returns w a w' := not_returns_throw

@[simp] theorem stops_fail {f : Failure} {w w' : World σ} {s : Stop} :
    (fail f : Act σ α).Stops w s w' ↔ s = .failure f ∧ w' = w := stops_throw

/-- A call that returns gives the value of the reply. -/
theorem returns_ask {call : Call} {f : σ → Reply α × σ} {w w' : World σ} {a : α}
    (h : (ask call f).Returns w a w') : (f w.network).1.answer = .value a := by
  obtain ⟨_, u, hLogged, h⟩ := returns_bind.mp h
  obtain ⟨reply, v, hStep, h⟩ := returns_bind.mp h
  obtain ⟨_, _, _, h⟩ := returns_bind.mp h
  obtain rfl := returns_logCalls.mp hLogged
  obtain ⟨rfl, _⟩ := returns_step.mp hStep
  exact Answer.toExcept_eq_ok_iff.mp (returns_ofExcept.mp h).1

/-! ### What an action leaves as it is -/

section Keeps

variable {γ : Type} {view : World σ → γ}

/-- Whether the action returns or stops, the view of the world stays the same. -/
def Keeps (view : World σ → γ) (x : Act σ α) : Prop := ∀ w, view (x w).2 = view w

theorem Keeps.of_returns {x : Act σ α} {w w' : World σ} {a : α} (h : Keeps view x)
    (hx : x.Returns w a w') : view w' = view w := by
  have hw := h w
  rwa [show x w = (.ok a, w') from hx] at hw

theorem Keeps.of_stops {x : Act σ α} {w w' : World σ} {s : Stop} (h : Keeps view x)
    (hx : x.Stops w s w') : view w' = view w := by
  have hw := h w
  rwa [show x w = (.error s, w') from hx] at hw

theorem keeps_bind {x : Act σ α} {f : α → Act σ β} (hx : Keeps view x)
    (hf : ∀ a, Keeps view (f a)) : Keeps view (x >>= f) := by
  intro w
  rw [bind_apply]
  rcases h : x w with ⟨s | a, v⟩
  · exact hx.of_stops h
  · exact (hf a v).trans (hx.of_returns h)

/-- What comes after an action may leave the view as the action has left it. -/
theorem view_bind {x : Act σ α} {f : α → Act σ β} (hf : ∀ a, Keeps view (f a)) (w : World σ) :
    view ((x >>= f) w).2 = view (x w).2 := by
  rw [bind_apply]
  rcases x w with ⟨s | a, v⟩
  · rfl
  · exact hf a v

theorem keeps_pure (a : α) : Keeps view (pure a : Act σ α) := fun _ => rfl

theorem keeps_throw (s : Stop) : Keeps view (throw s : Act σ α) := fun _ => rfl

theorem keeps_ofExcept (r : Except Stop α) : Keeps view (ofExcept r : Act σ α) := by
  cases r with
  | error s => exact keeps_throw s
  | ok a => exact keeps_pure a

theorem keeps_ofFault (r : Except Fault α) : Keeps view (ofFault r : Act σ α) := by
  cases r with
  | error f => exact keeps_throw (.fault f)
  | ok a => exact keeps_pure a

theorem keeps_modify {f : World σ → World σ} (h : ∀ w, view (f w) = view w) :
    Keeps view (modify f : Act σ Unit) := h

theorem keeps_step {f : σ → α × σ}
    (h : ∀ w, view { w with network := (f w.network).2 } = view w) :
    Keeps view (step f : Act σ α) := h

/-- A wait only lets time pass, whether it ends or is cut off. -/
theorem exists_now_sleep (d : Duration) (w : World σ) :
    ∃ now, ((sleep d : Act σ Unit) w).2 = { w with now := now } := by
  obtain ⟨network, now, cutOff, readings, calls, notices, tally, handedOut⟩ := w
  cases cutOff with
  | none => exact ⟨_, rfl⟩
  | some moment =>
    unfold sleep
    rw [bind_apply]
    show ∃ wake, (ite (moment.nanos < (now.plus d).nanos) (_ : Act σ Unit) _ _).2 = _
    split
    · exact ⟨moment, rfl⟩
    · exact ⟨now.plus d, rfl⟩

theorem keeps_sleep (d : Duration) (h : ∀ w now, view { w with now := now } = view w) :
    Keeps view (sleep d : Act σ Unit) := by
  intro w
  obtain ⟨now, hSleep⟩ := exists_now_sleep d w
  rw [hSleep]
  exact h w now

theorem keeps_ask (call : Call) {f : σ → Reply α × σ}
    (hCall : ∀ w calls, view { w with calls := calls } = view w)
    (hStep : ∀ w, view { w with network := (f w.network).2 } = view w)
    (hNow : ∀ w now, view { w with now := now } = view w) : Keeps view (ask call f : Act σ α) := by
  refine keeps_bind (keeps_modify fun w => hCall w _) fun _ => ?_
  refine keeps_bind (keeps_step hStep) fun reply => ?_
  exact keeps_bind (keeps_sleep reply.delay hNow) fun _ => keeps_ofExcept _

/-- A call lets the endpoints make one step, whatever comes of it. -/
theorem network_ask (call : Call) (f : σ → Reply α × σ) (w : World σ) :
    ((ask call f : Act σ α) w).2.network = (f w.network).2 := by
  have hKeeps : Keeps World.network (sleep (f w.network).1.delay >>= fun _ =>
      ofExcept (f w.network).1.answer.toExcept : Act σ α) :=
    keeps_bind (keeps_sleep _ fun _ _ => rfl) fun _ => keeps_ofExcept _
  exact hKeeps { w with calls := w.calls ++ [(w.now, call)], network := (f w.network).2 }

theorem network_of_returns_ask {call : Call} {f : σ → Reply α × σ} {w w' : World σ} {a : α}
    (h : (ask call f).Returns w a w') : (f w.network).2 = w'.network :=
  (network_ask call f w).symm.trans (congrArg (fun r => r.2.network) h)

end Keeps

end Act

end TxLoad
