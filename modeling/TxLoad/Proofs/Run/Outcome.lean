import TxLoad.Proofs.Run.Submission

/-! # What a reaction amounts to

`Submission.Amounts` says, case by case, what becomes of a transfer whose payload the endpoint
reacts to in a given way; it is the function `Submission.outcome` as a relation. Of the rejections
that come out, those of the kind `timeout` are of transfers that are overdue, and those of the kind
`aborted` of submissions that a fault has ended: no text that a node sends is read as either of
these kinds.
-/

namespace TxLoad

namespace Rejection

namespace Kind

theorem phrase_of_ofText {text : String} {kind : Kind} (h : ofText text = kind) :
    kind = rpc ∨ ∃ phrase ∈ kind.phrases, Text.mentions text phrase = true := by
  unfold ofText at h
  cases hFind : all.find? fun kind => kind.phrases.any (Text.mentions text) with
  | none =>
    rw [hFind] at h
    exact .inl h.symm
  | some found =>
    rw [hFind] at h
    change found = kind at h
    subst h
    have hAny : found.phrases.any (Text.mentions text) = true :=
      List.find?_some (p := fun kind : Kind => kind.phrases.any (Text.mentions text)) hFind
    exact .inr (List.any_eq_true.mp hAny)

/-- A kind without phrases, other than the kind of last resort, never comes from a text. -/
theorem ofText_ne {kind : Kind} (hPhrases : kind.phrases = []) (hNotRpc : kind ≠ rpc)
    (text : String) : ofText text ≠ kind := by
  intro h
  rcases phrase_of_ofText h with hRpc | ⟨phrase, hMem, _⟩
  · exact hNotRpc hRpc
  · rw [hPhrases] at hMem
    cases hMem

end Kind

theorem kind_ofFailure_ne_timeout (failure : Failure) : (ofFailure failure).kind ≠ .timeout :=
  Kind.ofText_ne rfl (by decide) _

theorem kind_ofFailure_ne_aborted (failure : Failure) : (ofFailure failure).kind ≠ .aborted :=
  Kind.ofText_ne rfl (by decide) _

end Rejection

namespace Submission

variable {limit : Duration} {reaction : Option (Reply Hash)}

/-- No reply comes within the limit. -/
def Overdue (limit : Duration) (reaction : Option (Reply Hash)) : Prop :=
  ∀ reply, reaction = some reply → limit.nanos < reply.delay.nanos

/-- This reply comes within the limit. -/
structure InTime (limit : Duration) (reaction : Option (Reply Hash)) (reply : Reply Hash) :
    Prop where
  reaction_eq : reaction = some reply
  delay_le : reply.delay.nanos ≤ limit.nanos

inductive Amounts (limit : Duration) (reaction : Option (Reply Hash)) :
    Except Rejection Hash → Prop
  | acknowledged {reply : Reply Hash} {hash : Hash} (hInTime : InTime limit reaction reply)
      (hAnswer : reply.answer = .value hash) : Amounts limit reaction (.ok hash)
  | refused {reply : Reply Hash} {failure : Failure} (hInTime : InTime limit reaction reply)
      (hAnswer : reply.answer = .failure failure) :
      Amounts limit reaction (.error (.ofFailure failure))
  | aborted {reply : Reply Hash} {fault : Fault} (hInTime : InTime limit reaction reply)
      (hAnswer : reply.answer = .fault fault) : Amounts limit reaction (.error (.ofFault fault))
  | overdue (hOverdue : Overdue limit reaction) : Amounts limit reaction (.error (.ofTimeout limit))

theorem InTime.not_overdue {reply : Reply Hash} (h : InTime limit reaction reply) :
    ¬ Overdue limit reaction := by
  intro hOverdue
  have hLate := hOverdue reply h.reaction_eq
  have hEarly := h.delay_le
  omega

theorem InTime.unique {reply reply' : Reply Hash} (h : InTime limit reaction reply)
    (g : InTime limit reaction reply') : reply = reply' :=
  Option.some.inj (h.reaction_eq.symm.trans g.reaction_eq)

theorem InTime.outcome_eq {reply : Reply Hash} (h : InTime limit reaction reply) :
    outcome limit reaction =
      match reply.answer with
      | .value hash => .ok hash
      | .failure f => .error (.ofFailure f)
      | .fault f => .error (.ofFault f) := by
  rw [h.reaction_eq]
  exact if_neg (Nat.not_lt.mpr h.delay_le)

theorem Overdue.outcome_eq (h : Overdue limit reaction) :
    outcome limit reaction = .error (.ofTimeout limit) := by
  cases reaction with
  | none => rfl
  | some reply => exact if_pos (h reply rfl)

theorem overdue_or_inTime (limit : Duration) (reaction : Option (Reply Hash)) :
    Overdue limit reaction ∨ ∃ reply, InTime limit reaction reply := by
  cases reaction with
  | none =>
    left
    intro reply h
    cases h
  | some reply =>
    by_cases hLate : limit.nanos < reply.delay.nanos
    · left
      intro other h
      cases h
      exact hLate
    · exact .inr ⟨reply, rfl, Nat.not_lt.mp hLate⟩

theorem amounts_outcome (limit : Duration) (reaction : Option (Reply Hash)) :
    Amounts limit reaction (outcome limit reaction) := by
  rcases overdue_or_inTime limit reaction with hOverdue | ⟨reply, hInTime⟩
  · rw [hOverdue.outcome_eq]
    exact .overdue hOverdue
  · rw [hInTime.outcome_eq]
    cases hAnswer : reply.answer with
    | value hash => exact .acknowledged hInTime hAnswer
    | failure failure => exact .refused hInTime hAnswer
    | fault fault => exact .aborted hInTime hAnswer

/-- A reaction amounts to one outcome. -/
theorem Amounts.outcome_eq {found : Except Rejection Hash} (h : Amounts limit reaction found) :
    found = outcome limit reaction := by
  cases h with
  | acknowledged hInTime hAnswer => rw [hInTime.outcome_eq, hAnswer]
  | refused hInTime hAnswer => rw [hInTime.outcome_eq, hAnswer]
  | aborted hInTime hAnswer => rw [hInTime.outcome_eq, hAnswer]
  | overdue hOverdue => rw [hOverdue.outcome_eq]

theorem Amounts.kind_timeout_iff {rejection : Rejection}
    (h : Amounts limit reaction (.error rejection)) :
    rejection.kind = .timeout ↔ Overdue limit reaction := by
  cases h with
  | refused hInTime _ =>
    exact iff_of_false (Rejection.kind_ofFailure_ne_timeout _) hInTime.not_overdue
  | aborted hInTime _ =>
    have hAborted : ∀ fault, (Rejection.ofFault fault).kind ≠ .timeout := by
      intro fault h
      cases h
    exact iff_of_false (hAborted _) hInTime.not_overdue
  | overdue hOverdue => exact iff_of_true rfl hOverdue

theorem Amounts.kind_aborted_iff {rejection : Rejection}
    (h : Amounts limit reaction (.error rejection)) :
    rejection.kind = .aborted ↔
      ∃ reply fault, InTime limit reaction reply ∧ reply.answer = .fault fault := by
  constructor
  · intro hKind
    cases h with
    | refused _ _ => exact absurd hKind (Rejection.kind_ofFailure_ne_aborted _)
    | aborted hInTime hAnswer => exact ⟨_, _, hInTime, hAnswer⟩
    | overdue _ => cases hKind
  · rintro ⟨reply, fault, hInTime, hFault⟩
    cases h with
    | refused hSame hAnswer =>
      rw [hSame.unique hInTime, hFault] at hAnswer
      cases hAnswer
    | aborted _ _ => rfl
    | overdue hOverdue => exact absurd hOverdue hInTime.not_overdue

end Submission

end TxLoad
