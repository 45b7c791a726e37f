import TxLoad.Run.Plan
import TxLoad.Settings.File
import TxLoad.Settings.Substitution
import TxLoad.Settings.Units

/-! # From settings to a plan

The settings of the command line and the environment are completed by those of the settings file,
if one is named, and then by fixed values. Key, recipient, amount and pause are read in this order,
and at last the plan is checked.
-/

namespace TxLoad.Settings

/-- What is read from a path: a text, or why there is none. -/
abbrev Files := String → Except String String

def defaultAmount : Binary64 := .ofRatio false 6 1000

def defaultPause : Binary64 := .ofInt 1

def defaultSubmitLimit : Word64 := 30

/-- The settings of the file at a path. Placeholders are replaced before anything is read. -/
def load (env : Environment) (files : Files) (path : String) : Except Misconfiguration Draft :=
  match files path with
  | .error cause => .error (.unreadableFile path cause)
  | .ok text =>
    match draftOfText? (substitute env text) with
    | none => .error (.malformedFile path)
    | some draft => .ok draft

def accountOf (key : Option String) : Except Misconfiguration Account :=
  match key with
  | none => .error .keyUnset
  | some text => (Account.ofText text).mapError .key

def recipientOf (recipient : Option String) : Except Misconfiguration Address :=
  match recipient with
  | none => .error .recipientUnset
  | some text =>
    match Hex.readFixed 160 (Text.trim text) with
    | .error error => .error (.recipient text error)
    | .ok value => .ok ⟨value⟩

/-- An amount must be a number that is not below zero. -/
def amountOf (amount : Binary64) : Except Stop Word256 :=
  let refuse (cause : Option String) : Except Stop Word256 :=
    .error (.failure (.configuration (.amount amount.text cause)))
  if !amount.isFinite || amount.isBelowZero then refuse none
  else
    match partsOf amount with
    | .ok parts => .ok parts
    | .error (.invalid cause) => refuse (some cause)
    | .error (.fault fault) => .error (.fault fault)

def pauseOf (pause : Binary64) : Except Misconfiguration Duration :=
  (spanOf pause).mapError fun cause => .pause pause.text cause

def misconfigured {α : Type} : Except Misconfiguration α → Except Stop α :=
  Except.mapError fun cause => .failure (.configuration cause)

/-- The plan of settings to which nothing is added any more but fixed values. -/
def Draft.toPlan (d : Draft) : Except Stop Plan := do
  let account ← misconfigured (accountOf d.privateKey)
  let recipient ← misconfigured (recipientOf d.recipient)
  let amount ← amountOf (d.amount.getD defaultAmount)
  let pause ← misconfigured (pauseOf (d.pause.getD defaultPause))
  let plan : Plan := {
    account, recipient, amount, pause
    endpoints := d.endpoints
    count := d.count.getD 1
    batchSize := d.batchSize.getD 1
    slots := d.slots
    beacon := Text.nonBlank d.beacon
    submitLimit := .ofSecs (d.submitLimit.getD defaultSubmitLimit).toNat
    metricsPort := d.metricsPort }
  plan.check.mapError .failure
  return plan

/-- The plan of the given settings and of the settings file that they name. -/
def resolve (env : Environment) (files : Files) (given : Draft) : Except Stop Plan := do
  let file ← match given.file with
    | none => pure {}
    | some path => misconfigured (load env files path)
  (given.or file).toPlan

end TxLoad.Settings
