import TxLoad.CommandLine.Invocation
import TxLoad.Endpoint.Genesis
import TxLoad.Endpoint.Pool
import TxLoad.Run.Course
import TxLoad.Run.Verdict
import TxLoad.Settings.Resolution

/-! # A session

A session is what the program does for one command line. The settings are resolved and the pool of
nodes is put together before any node is asked; a run or a check follows, and the session ends well
or with a complaint.
-/

namespace TxLoad

/-- What a session depends on besides its command line. -/
structure Surroundings (σ : Type) where
  environment : Settings.Environment
  files : Settings.Files
  clock : Clock
  nodes : Endpoint.Nodes σ
  server : Server σ

inductive Ending
  | success
  /-- The session stopped; `task` is what it was about, where that is told. -/
  | stopped (task : Option String) (stop : Stop)
  deriving DecidableEq, Repr

namespace Ending

def stopText : Stop → String
  | .failure failure => failure.message
  | .fault fault => fault.message
  | .cut => "cut off"

/-- The lines of a text, indented. -/
def indented (text : String) : String :=
  String.intercalate "\n" ((text.splitOn "\n").map ("    " ++ ·))

/-- What is complained of; nothing after a success. -/
def complaint : Ending → String
  | success => ""
  | stopped none stop => "Error: " ++ stopText stop
  | stopped (some task) stop =>
    "Error: " ++ task ++ "\n\nCaused by:\n" ++ indented (stopText stop)

def status : Ending → Nat
  | success => 0
  | stopped _ (.fault _) => 101
  | stopped _ _ => 1

end Ending

namespace Session

variable {σ : Type}

/-- The pool of the usable addresses; what is noticed about them is told either way. -/
def openPool (urls : List String) : Act (Endpoint.PoolState σ) Endpoint.Pool := do
  let (pool, notices) := Endpoint.Pool.ofUrls urls
  for notice in notices do Act.notice notice
  Act.ofExcept (pool.mapError .failure)

/-- The notice of a run's failure. -/
def noticeOf (failure : Failure) : Notice :=
  if failure.isConfiguration then .invalidConfiguration failure else .runFailed failure

/-- Carries out a plan, and tells of its failure. -/
def carryOut (s : Surroundings σ) (pool : Endpoint.Pool) (plan : Plan) :
    Act (Endpoint.PoolState σ) Totals :=
  let network := pool.network s.nodes (Genesis.fetch s.server)
  tryCatch (plan.execute network s.clock) fun stop => do
    match stop with
    | .failure failure => Act.notice (noticeOf failure)
    | _ => pure ()
    throw stop

def spam (s : Surroundings σ) (draft : Settings.Draft) : Act (Endpoint.PoolState σ) Unit := do
  let plan ← Act.ofExcept (Settings.resolve s.environment s.files draft)
  let pool ← openPool plan.endpoints
  let totals ← carryOut s pool plan
  if totals.failed ≠ 0 then Act.notice (.someRejected totals.failed)

/-- The hash of the transaction that is to be checked. -/
def hashOf (text : String) : Except Stop Hash :=
  match Hex.readFixed 256 text with
  | .ok value => .ok ⟨value⟩
  | .error error => .error (.failure (.configuration (.transactionHash error)))

/-- What a check is about, in the complaint about its result. -/
def checkTask : String := "Revert check"

/-- Runs an action that ends the session. -/
def finish (task : Option String) (act : Act (Endpoint.PoolState σ) Unit)
    (w : World (Endpoint.PoolState σ)) : Ending × World (Endpoint.PoolState σ) :=
  match act w with
  | (.ok (), w) => (.success, w)
  | (.error stop, w) => (.stopped task stop, w)

/-- Checks a transaction. Only a stop of the check itself is told with its task. -/
def check (s : Surroundings σ) (hash url : String) (w : World (Endpoint.PoolState σ)) :
    Ending × World (Endpoint.PoolState σ) :=
  let prepare : Act (Endpoint.PoolState σ) (Hash × Endpoint.Pool) := do
    let hash ← Act.ofExcept (hashOf hash)
    return (hash, ← openPool [url])
  match prepare w with
  | (.error stop, w) => (.stopped none stop, w)
  | (.ok (hash, pool), w) =>
    finish (some checkTask) (Verdict.ensureSucceeded (pool.archive s.nodes) hash) w

/-- Carries out a command. -/
def run (s : Surroundings σ) (command : CommandLine.Command) (nodes : σ) :
    Ending × World (Endpoint.PoolState σ) :=
  let w : World (Endpoint.PoolState σ) := { network := { nodes }, notices := [.started] }
  match command with
  | .spam draft => finish none (spam s draft) w
  | .revertCheck hash url => check s hash url w

/-- All notices of a session. The notices of a pool that was in use come after those of the run. -/
def noticesOf (w : World (Endpoint.PoolState σ)) : List Notice := w.notices ++ w.network.notices

end Session

end TxLoad
