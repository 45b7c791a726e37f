import TxLoad.Proofs.Settings.Acceptance

/-! # What a blank setting hides

A blank key, recipient or consensus endpoint counts as not given, and the one of the settings file
is used. A list of blank endpoints counts as given. It hides the endpoints of the file, and as it
names none itself there is no plan. This makes no difference exactly where the file names no
endpoint either, or where the settings are refused before the endpoints are looked at
(`blank_hides_endpoints_only`).
-/

namespace TxLoad.Settings

/-! ## Texts -/

/-- The settings that are one text each. -/
inductive TextSetting
  | privateKey
  | recipient
  | beacon
  deriving DecidableEq, Repr

namespace TextSetting

def ofDraft : TextSetting → Draft → Option String
  | privateKey, d => d.privateKey
  | recipient, d => d.recipient
  | beacon, d => d.beacon

/-- The draft without the setting. -/
def clear : TextSetting → Draft → Draft
  | privateKey, d => { d with privateKey := none }
  | recipient, d => { d with recipient := none }
  | beacon, d => { d with beacon := none }

def ofValues : TextSetting → Values → Option String
  | privateKey, v => v.privateKey
  | recipient, v => v.recipient
  | beacon, v => v.beacon

end TextSetting

variable {env : Environment} {files : Files} {given other file d : Draft} {t : TextSetting}

theorem resolve_congr (hFile : given.file = other.file)
    (hOr : ∀ file, given.or file = other.or file) :
    resolve env files given = resolve env files other := by
  unfold resolve
  rw [hFile]
  cases other.file with
  | none => exact congrArg Draft.toPlan (hOr {})
  | some path => exact bind_congr fun file => congrArg Draft.toPlan (hOr file)

theorem orText_of_not_saysText {first : Option String} (h : ¬SaysText first)
    (second : Option String) : orText first second = orText none second := by
  rcases saysText_or_nonBlank first with ⟨hSays, _⟩ | ⟨_, hNone⟩
  · exact absurd hSays h
  · unfold orText
    rw [hNone]
    rfl

theorem or_clear (h : ¬SaysText (t.ofDraft given)) (file : Draft) :
    given.or file = (t.clear given).or file := by
  cases t <;> simp only [TextSetting.clear, Draft.or, Draft.mk.injEq, and_true, true_and] <;>
    exact orText_of_not_saysText h _

theorem file_clear (t : TextSetting) (d : Draft) : (t.clear d).file = d.file := by
  cases t <;> rfl

/-- Each text is the one of the file where the one that is given is blank. -/
theorem taken_text {v : Values} (h : v.Of given file) (t : TextSetting) :
    Taken SaysText none (t.ofDraft given) (t.ofDraft file) (t.ofValues v) := by
  cases t with
  | privateKey => exact h.privateKey
  | recipient => exact h.recipient
  | beacon => exact h.beacon

/-! ## Endpoints -/

def AllBlank (urls : List String) : Prop := ∀ url ∈ urls, Text.isBlank url = true

instance (urls : List String) : Decidable (AllBlank urls) :=
  inferInstanceAs (Decidable (∀ url ∈ urls, Text.isBlank url = true))

/-- What is read from settings before a plan is put together. -/
structure Readings where
  account : Account
  recipient : Address
  amount : Word256
  pause : Duration

def Draft.readings (d : Draft) : Except Stop Readings := do
  let account ← misconfigured (accountOf d.privateKey)
  let recipient ← misconfigured (recipientOf d.recipient)
  let amount ← amountOf (d.amount.getD defaultAmount)
  let pause ← misconfigured (pauseOf (d.pause.getD defaultPause))
  return ⟨account, recipient, amount, pause⟩

/-- The plan of what has been read. -/
def Draft.planOf (d : Draft) (r : Readings) : Plan where
  account := r.account
  recipient := r.recipient
  amount := r.amount
  pause := r.pause
  endpoints := d.endpoints
  count := d.count.getD 1
  batchSize := d.batchSize.getD 1
  slots := d.slots
  beacon := Text.nonBlank d.beacon
  submitLimit := .ofSecs (d.submitLimit.getD defaultSubmitLimit).toNat
  metricsPort := d.metricsPort

def checked (plan : Plan) : Except Stop Plan := do
  plan.check.mapError .failure
  return plan

theorem toPlan_eq (d : Draft) : d.toPlan = d.readings >>= fun r => checked (d.planOf r) := by
  unfold Draft.toPlan Draft.readings
  simp only [bind_assoc, pure_bind]
  rfl

theorem ends_readings (d : Draft) :
    Ends d.values (fun _ => True) Condition.ofReading d.readings := by
  show Ends d.values _ ([.key] ++ ([.recipient] ++ ([.amount] ++ ([.pause] ++ [])))) _
  refine (ends_account d.values).bind fun _ _ _ => ?_
  refine (ends_recipient d.values).bind fun _ _ _ => ?_
  refine (ends_amount d.values).bind fun _ _ _ => ?_
  refine (ends_pause d.values).bind fun _ _ _ => ?_
  exact .done trivial

theorem checked_of_allBlank {plan : Plan} (h : AllBlank plan.endpoints) :
    checked plan = .error (.failure (.configuration .noEndpoint)) := by
  unfold checked Plan.check Plan.defect?
  rw [if_pos (List.all_eq_true.mpr h)]
  rfl

/-- Settings that can be read and name no endpoint are refused for that. -/
theorem toPlan_of_allBlank {r : Readings} (hRead : d.readings = .ok r)
    (hBlank : AllBlank d.endpoints) :
    d.toPlan = .error (.failure (.configuration .noEndpoint)) := by
  rw [toPlan_eq, hRead]
  exact checked_of_allBlank hBlank

/-- No condition but that of the endpoints is reported as a lack of endpoints. -/
theorem Condition.Refuses.of_noEndpoint {v : Values} {c : Condition}
    (h : c.Refuses v (.configuration .noEndpoint)) : AllBlank v.endpoints := by
  cases h with
  | endpoint hBlank => exact hBlank

theorem allBlank_of_toPlan (h : d.toPlan = .error (.failure (.configuration .noEndpoint))) :
    AllBlank d.endpoints := by
  have hEnds := ends_toPlan d
  rw [h] at hEnds
  obtain ⟨_, _, _, _, _, hReport⟩ := hEnds.exists_refused
  exact hReport.of_noEndpoint

/-- In settings that name no endpoint it shows that others are hidden, unless these name none either
or the settings are refused before. -/
theorem toPlan_eq_toPlan_iff {urls : List String} (hBlank : AllBlank d.endpoints) :
    d.toPlan = { d with endpoints := urls }.toPlan ↔
      AllBlank urls ∨ ∃ c ∈ Condition.ofReading, ¬c.Holds d.values := by
  have hReadings : { d with endpoints := urls }.readings = d.readings := rfl
  have hAccepted := (ends_readings d).accepted_iff
  cases hRead : d.readings with
  | error stop =>
    have hRefused : ∃ c ∈ Condition.ofReading, ¬c.Holds d.values := by
      by_contra hNone
      obtain ⟨r, hOk⟩ := hAccepted.mpr fun c hMem => by_contra fun hNot => hNone ⟨c, hMem, hNot⟩
      cases hRead.symm.trans hOk
    refine iff_of_true ?_ (.inr hRefused)
    rw [toPlan_eq, toPlan_eq, hReadings, hRead]
    rfl
  | ok r =>
    have hHolds : ∀ c ∈ Condition.ofReading, c.Holds d.values := hAccepted.mp ⟨r, hRead⟩
    rw [toPlan_of_allBlank hRead hBlank]
    constructor
    · intro hSame
      exact .inl (allBlank_of_toPlan hSame.symm)
    · rintro (hUrls | ⟨c, hMem, hNot⟩)
      · exact (toPlan_of_allBlank (hReadings.trans hRead) hUrls).symm
      · exact absurd (hHolds c hMem) hNot

/-! ## Given settings over those of a file -/

/-- The settings without their endpoints. -/
def Draft.withoutEndpoints (d : Draft) : Draft := { d with endpoints := [] }

theorem endpoints_or (h : given.endpoints ≠ []) (file : Draft) :
    (given.or file).endpoints = given.endpoints := by
  show orList given.endpoints file.endpoints = given.endpoints
  cases hUrls : given.endpoints with
  | nil => exact absurd hUrls h
  | cons url urls => rfl

theorem Loads.withoutEndpoints (h : Loads env files given file) :
    Loads env files given.withoutEndpoints file := by
  cases h with
  | alone hFile => exact .alone hFile
  | loaded hFile hText hDraft => exact .loaded hFile hText hDraft

theorem resolve_of_loads (h : Loads env files given file) :
    resolve env files given = (given.or file).toPlan := resolve_of_completes (completes_of_loads h)

theorem resolve_eq_withoutEndpoints_iff (hLoads : Loads env files given file)
    (hBlank : AllBlank given.endpoints) :
    resolve env files given = resolve env files given.withoutEndpoints ↔
      given.endpoints = [] ∨ AllBlank file.endpoints ∨
        ∃ c ∈ Condition.ofReading, ¬c.Holds (given.or file).values := by
  by_cases hNone : given.endpoints = []
  · have hSame : given.withoutEndpoints = given := by
      unfold Draft.withoutEndpoints
      rw [← hNone]
    rw [hSame]
    exact iff_of_true rfl (.inl hNone)
  · rw [resolve_of_loads hLoads, resolve_of_loads hLoads.withoutEndpoints, or_iff_right hNone]
    exact toPlan_eq_toPlan_iff (by rwa [endpoints_or hNone])

/-- Blank endpoints alone do not make a plan. -/
theorem resolve_ne_ok_of_allBlank (hLoads : Loads env files given file)
    (hSome : given.endpoints ≠ []) (hBlank : AllBlank given.endpoints) (plan : Plan) :
    resolve env files given ≠ .ok plan := by
  intro hPlan
  have hEnds := ends_toPlan (given.or file)
  rw [← resolve_of_loads hLoads] at hEnds
  have hHolds := hEnds.accepted_iff.mp ⟨plan, hPlan⟩
  obtain ⟨url, hMem, hSays⟩ := hHolds .endpoint (by decide)
  have hMem : url ∈ given.endpoints := endpoints_or hSome file ▸ hMem
  cases (hBlank url hMem).symm.trans hSays

/-- A blank text that is given does not change anything: the resolution is the one without it, and
the text of the file is used if it is not blank. Blank endpoints that are given do not make a plan,
and it is as if they were not given exactly if there are none, if those of the file are blank as
well, or if the settings are refused before the endpoints are looked at. -/
theorem blank_hides_endpoints_only (env : Environment) (files : Files) (given : Draft) :
    (∀ t : TextSetting, ¬SaysText (t.ofDraft given) →
      resolve env files given = resolve env files (t.clear given) ∧
      ∀ file plan, Loads env files given file → SaysText (t.ofDraft file) →
        resolve env files given = .ok plan →
        ∃ v : Values, v.Of given file ∧ plan.Carries v ∧ t.ofValues v = t.ofDraft file) ∧
    ∀ file, Loads env files given file → AllBlank given.endpoints →
      (resolve env files given = resolve env files given.withoutEndpoints ↔
        given.endpoints = [] ∨ AllBlank file.endpoints ∨
          ∃ c ∈ Condition.ofReading, ¬c.Holds (given.or file).values) ∧
      (given.endpoints ≠ [] → ∀ plan, resolve env files given ≠ .ok plan) := by
  refine ⟨fun t hBlank => ⟨?_, fun file plan hLoads hSays hPlan => ?_⟩,
    fun file hLoads hBlank => ⟨resolve_eq_withoutEndpoints_iff hLoads hBlank, fun hSome =>
      resolve_ne_ok_of_allBlank hLoads hSome hBlank⟩⟩
  · exact resolve_congr (file_clear t given).symm (or_clear hBlank)
  · have hOf := values_of given file
    have hEnds := ends_resolve hLoads hOf
    rw [hPlan] at hEnds
    exact ⟨_, hOf, hEnds.of_ok.1, (taken_text hOf t).unique (.second hBlank hSays)⟩

/-- Settings that leave the endpoints to a file. -/
def keyAndRecipient : Draft where
  file := some "settings.toml"
  privateKey := some "0xac0974bec39a17e36ba4a6b4d238ff944bacb478cbed5efcae784d7bf4f2ff80"
  recipient := some "0x0000000000000000000000000000000000000001"

def oneEndpoint : Files := fun _ => .ok "[spammer]\nrpc_url = [\"http://127.0.0.1:8545\"]\n"

/-- One blank endpoint hides the endpoint of the file, and there is no plan. -/
theorem blank_endpoint_hides_file :
    (∃ plan, resolve (fun _ => none) oneEndpoint keyAndRecipient = .ok plan ∧
      plan.endpoints = ["http://127.0.0.1:8545"]) ∧
    resolve (fun _ => none) oneEndpoint { keyAndRecipient with endpoints := [""] } =
      .error (.failure (.configuration .noEndpoint)) := by
  constructor
  · have hPlan : (resolve (fun _ => none) oneEndpoint keyAndRecipient).toOption.map
        Plan.endpoints = some ["http://127.0.0.1:8545"] := by decide +kernel
    cases hResolve : resolve (fun _ => none) oneEndpoint keyAndRecipient with
    | error stop =>
      rw [hResolve] at hPlan
      cases hPlan
    | ok plan =>
      rw [hResolve] at hPlan
      exact ⟨plan, rfl, Option.some.inj hPlan⟩
  · have hLoads : Loads (fun _ => none) oneEndpoint { keyAndRecipient with endpoints := [""] }
        { endpoints := ["http://127.0.0.1:8545"] } := .loaded rfl rfl (by decide +kernel)
    rw [resolve_of_loads hLoads]
    have hRead : ({ keyAndRecipient with endpoints := [""] }.or
        { endpoints := ["http://127.0.0.1:8545"] }).readings.isOk = true := by decide +kernel
    cases hReadings : ({ keyAndRecipient with endpoints := [""] }.or
        { endpoints := ["http://127.0.0.1:8545"] }).readings with
    | error stop =>
      rw [hReadings] at hRead
      cases hRead
    | ok r => exact toPlan_of_allBlank hReadings (by decide +kernel)

end TxLoad.Settings
