import TxLoad.Settings.Draft
import TxLoad.Toml.Reader

/-! # Settings files

A settings file may hold settings in its table `spammer`; all else in it is ignored. The settings
have the names of the options, with underscores, and no others are allowed there. The table may
also be given as an array of the settings in a fixed order, of which any number may be left out at
the end.
-/

namespace TxLoad.Settings

open Toml (Node)

/-- Reads a setting that may be missing; one that is there must have the right type. -/
def optional {α : Type} (read : Node → Option α) : Option Node → Option (Option α)
  | none => some none
  | some node => (read node).map some

def listed {α : Type} (read : Node → Option α) : Option Node → Option (List α)
  | none => some []
  | some (.array items) => items.mapM read
  | some _ => none

def text? : Node → Option String
  | .string text => some text
  | _ => none

/-- An integer may stand for a floating-point number. -/
def real? : Node → Option Binary64
  | .real x => some x
  | .integer n => some (.ofInt n)
  | _ => none

def word? (bits : Nat) : Node → Option (BitVec bits)
  | .integer (.ofNat n) => if n < wordCount bits then some (BitVec.ofNat bits n) else none
  | _ => none

/-- The names of the settings, in the order of the array. -/
def settingNames : List String :=
  ["private_key", "recipient", "rpc_url", "amount", "count", "batch_size", "sleep", "slots",
    "beacon_rpc_url", "submit_timeout", "metrics_port"]

/-- The settings that are found under their names. -/
def draftOf? (find : String → Option Node) : Option Draft := do
  return {
    privateKey := ← optional text? (find "private_key")
    recipient := ← optional text? (find "recipient")
    endpoints := ← listed text? (find "rpc_url")
    amount := ← optional real? (find "amount")
    count := ← optional (word? 64) (find "count")
    batchSize := ← optional (word? 64) (find "batch_size")
    pause := ← optional real? (find "sleep")
    slots := ← listed (word? 8) (find "slots")
    beacon := ← optional text? (find "beacon_rpc_url")
    submitLimit := ← optional (word? 64) (find "submit_timeout")
    metricsPort := ← optional (word? 16) (find "metrics_port") }

/-- The name of the endpoints may be in the plural. -/
def canonicalName (name : String) : String := if name = "rpc_urls" then "rpc_url" else name

def draftOfEntries? (entries : List (String × Node)) : Option Draft :=
  let entries := entries.map fun (name, node) => (canonicalName name, node)
  let names := entries.map Prod.fst
  if names.all settingNames.contains && names.eraseDups.length = names.length then
    draftOf? fun name => entries.lookup name
  else none

/-- The settings that are found at their places. -/
def draftOfList? (items : List Node) : Option Draft :=
  draftOf? fun name => (settingNames.zip items).lookup name

/-- The settings of a document. -/
def draftOfDocument? (document : Toml.Table) : Option Draft :=
  match document.get? "spammer" with
  | none => some {}
  | some (.table t) => draftOfEntries? t.entries
  | some (.record entries) => draftOfEntries? entries
  | some (.array items) => draftOfList? items
  | some (.tables elements) => draftOfList? (elements.map Node.table)
  | some _ => none

/-- The settings of a file with this text. -/
def draftOfText? (text : String) : Option Draft := Toml.read? text >>= draftOfDocument?

end TxLoad.Settings
