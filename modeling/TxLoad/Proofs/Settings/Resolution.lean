import TxLoad.Proofs.Settings.Amount
import TxLoad.Settings.Resolution

/-! # How resolving settings ends

Settings come to a plan or to a failure of the configuration, whatever they say, with one exception:
an amount of less than `2 ^ 256` whole units and of `2 ^ 256` parts or more, in settings whose file,
key and recipient can be read, ends the resolution with an overflow.
-/

namespace TxLoad

variable {α β : Type}

namespace Plan

/-- What is wrong with a plan lies in its settings. -/
theorem isConfiguration_of_defect? {p : Plan} {f : Failure} (h : p.defect? = some f) :
    f.isConfiguration = true := by
  unfold defect? at h
  -- one case for each condition, in their order; the last has nothing to report
  repeat' split at h
  all_goals cases h
  all_goals rfl

theorem isConfiguration_of_check {p : Plan} {f : Failure} (h : p.check = .error f) :
    f.isConfiguration = true := by
  unfold check at h
  cases hDefect : p.defect? with
  | none =>
    rw [hDefect] at h
    cases h
  | some failure =>
    rw [hDefect] at h
    cases h
    exact isConfiguration_of_defect? hDefect

end Plan

namespace Settings

/-! ## Computations that fail in the settings only -/

/-- There is a result or a failure of the configuration. -/
def Settles (result : Except Stop α) : Prop :=
  (∃ a, result = .ok a) ∨ ∃ f, result = .error (.failure f) ∧ f.isConfiguration = true

theorem settles_ok (a : α) : Settles (.ok a) := .inl ⟨a, rfl⟩

theorem Settles.bind {x : Except Stop α} {f : α → Except Stop β} (hFirst : Settles x)
    (hRest : ∀ a, x = .ok a → Settles (f a)) : Settles (x >>= f) := by
  rcases hFirst with ⟨a, rfl⟩ | ⟨failure, rfl, hConfiguration⟩
  · exact hRest a rfl
  · exact .inr ⟨failure, rfl, hConfiguration⟩

theorem settles_misconfigured (result : Except Misconfiguration α) :
    Settles (misconfigured result) := by
  cases result with
  | ok a => exact settles_ok a
  | error cause => exact .inr ⟨.configuration cause, rfl, rfl⟩

theorem misconfigured_eq_ok_iff {result : Except Misconfiguration α} {a : α} :
    misconfigured result = .ok a ↔ result = .ok a := by
  cases result with
  | ok b => exact ⟨fun h => congrArg _ (Except.ok.inj h), fun h => congrArg _ (Except.ok.inj h)⟩
  | error cause => exact ⟨nofun, nofun⟩

theorem settles_amountOf {amount : Binary64} (h : ¬Overflows amount) :
    Settles (amountOf amount) := by
  unfold amountOf
  dsimp only
  split
  · exact .inr ⟨_, rfl, rfl⟩
  · rename_i hNumber
    simp only [Bool.or_eq_true, not_or, Bool.not_eq_true, Bool.not_eq_false'] at hNumber
    rcases partsOf_of_not_overflows hNumber.1 hNumber.2 h with ⟨parts, hParts⟩ | ⟨cause, hCause⟩
    · rw [hParts]
      exact settles_ok parts
    · rw [hCause]
      exact .inr ⟨_, rfl, rfl⟩

theorem amountOf_of_overflows {amount : Binary64} (h : Overflows amount) :
    amountOf amount = .error (.fault .wideOverflow) := by
  have hOrder : amount.isBelowZero = false := by
    unfold Binary64.isBelowZero
    rw [(pos_of_overflows h).1, Bool.and_false, Bool.false_and]
  unfold amountOf
  rw [isFinite_of_overflows h, hOrder, partsOf_of_overflows h]
  rfl

/-! ## Resolving -/

/-- The settings to be planned: those given, completed by those of the file that they name. -/
inductive Completes (env : Environment) (files : Files) (given : Draft) : Draft → Prop
  | alone (hFile : given.file = none) : Completes env files given (given.or {})
  | loaded {path : String} {file : Draft} (hFile : given.file = some path)
      (hLoad : load env files path = .ok file) : Completes env files given (given.or file)

/-- The amount overflows, and nothing that is read before it is refused. -/
structure Draft.Overflows (d : Draft) : Prop where
  account : (accountOf d.privateKey).isOk = true
  recipient : (recipientOf d.recipient).isOk = true
  amount : Settings.Overflows (d.amount.getD defaultAmount)

theorem toPlan_of_overflows {d : Draft} (h : d.Overflows) :
    d.toPlan = .error (.fault .wideOverflow) := by
  obtain ⟨hAccount, hRecipient, hAmount⟩ := h
  unfold Draft.toPlan
  cases hKey : accountOf d.privateKey with
  | error cause =>
    rw [hKey] at hAccount
    cases hAccount
  | ok account =>
    cases hTo : recipientOf d.recipient with
    | error cause =>
      rw [hTo] at hRecipient
      cases hRecipient
    | ok recipient =>
      show (amountOf (d.amount.getD defaultAmount) >>= fun _ => _) = _
      rw [amountOf_of_overflows hAmount]
      rfl

theorem settles_toPlan {d : Draft} (h : ¬d.Overflows) : Settles d.toPlan := by
  unfold Draft.toPlan
  refine (settles_misconfigured _).bind fun account hAccount => ?_
  refine (settles_misconfigured _).bind fun recipient hRecipient => ?_
  have hAmount : ¬Settings.Overflows (d.amount.getD defaultAmount) := by
    rw [misconfigured_eq_ok_iff] at hAccount hRecipient
    exact fun hOverflows => h ⟨by rw [hAccount]; rfl, by rw [hRecipient]; rfl, hOverflows⟩
  refine (settles_amountOf hAmount).bind fun amount _ => ?_
  refine (settles_misconfigured _).bind fun pause _ => ?_
  dsimp only
  refine Settles.bind ?_ fun _ _ => settles_ok _
  cases hCheck : Plan.check _ with
  | ok _ => exact settles_ok ()
  | error f => exact .inr ⟨f, rfl, Plan.isConfiguration_of_check hCheck⟩

theorem resolve_of_completes {env : Environment} {files : Files} {given d : Draft}
    (h : Completes env files given d) : resolve env files given = d.toPlan := by
  unfold resolve
  cases h with
  | alone hFile => rw [hFile]; rfl
  | loaded hFile hLoad =>
    rw [hFile]
    show (misconfigured (load env files _) >>= fun _ => _) = _
    rw [hLoad]
    rfl

theorem completes_or_fails (env : Environment) (files : Files) (given : Draft) :
    (∃ d, Completes env files given d) ∨
      ∃ cause, resolve env files given = .error (.failure (.configuration cause)) := by
  cases hFile : given.file with
  | none => exact .inl ⟨_, .alone hFile⟩
  | some path =>
    cases hLoad : load env files path with
    | ok file => exact .inl ⟨_, .loaded hFile hLoad⟩
    | error cause =>
      refine .inr ⟨cause, ?_⟩
      unfold resolve
      rw [hFile]
      show (misconfigured (load env files path) >>= fun _ => _) = _
      rw [hLoad]
      rfl

/-- Settings come to a plan or to a failure of the configuration, unless their amount overflows;
then that is how the resolution ends. -/
theorem resolve_settles_or_overflows (env : Environment) (files : Files) (given : Draft) :
    ((∃ d, Completes env files given d ∧ d.Overflows) ∧
        resolve env files given = .error (.fault .wideOverflow)) ∨
      (¬∃ d, Completes env files given d ∧ d.Overflows) ∧ Settles (resolve env files given) := by
  by_cases h : ∃ d, Completes env files given d ∧ d.Overflows
  · obtain ⟨d, hCompletes, hOverflows⟩ := h
    refine .inl ⟨⟨d, hCompletes, hOverflows⟩, ?_⟩
    rw [resolve_of_completes hCompletes, toPlan_of_overflows hOverflows]
  · refine .inr ⟨h, ?_⟩
    rcases completes_or_fails env files given with ⟨d, hCompletes⟩ | ⟨cause, hFails⟩
    · rw [resolve_of_completes hCompletes]
      exact settles_toPlan fun hOverflows => h ⟨d, hCompletes, hOverflows⟩
    · exact .inr ⟨_, hFails, rfl⟩

/-- Settings with a sound key and recipient, and a one with sixty zeros for the amount. -/
def sixtyZeros : Draft where
  privateKey := some "0xac0974bec39a17e36ba4a6b4d238ff944bacb478cbed5efcae784d7bf4f2ff80"
  recipient := some "0x0000000000000000000000000000000000000001"
  endpoints := ["http://127.0.0.1:8545"]
  amount := Binary64.read? "1e60"

/-- Sound settings with so large an amount come to neither a plan nor a failure. -/
theorem sixtyZeros_not_settled :
    resolve (fun _ => none) (fun path => .error path) sixtyZeros = .error (.fault .wideOverflow) ∧
      ¬Settles (resolve (fun _ => none) (fun path => .error path) sixtyZeros) := by
  have hOverflows : (sixtyZeros.or {}).Overflows :=
    ⟨by decide +kernel, by decide +kernel, by decide +kernel⟩
  have hFault : resolve (fun _ => none) (fun path => .error path) sixtyZeros =
      .error (.fault .wideOverflow) :=
    (resolve_of_completes (.alone rfl)).trans (toPlan_of_overflows hOverflows)
  refine ⟨hFault, ?_⟩
  rw [hFault]
  rintro (⟨_, hOk⟩ | ⟨_, hFailure, _⟩)
  · cases hOk
  · cases hFailure

end Settings

end TxLoad
