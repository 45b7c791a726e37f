import TxLoad.Binary64.Decimal
import TxLoad.Telemetry.Tally

/-! # The text in which a tally is served

Families of samples in the order of their names, each with a help line and a type line. A family
appears once something of it was observed.
-/

namespace TxLoad.Telemetry

inductive Family
  | latency
  | batches
  | fallbacks
  | slotWait
  | rejections
  | sent
  deriving DecidableEq, Repr

namespace Family

/-- All families, in the order of their names. -/
def all : List Family := [latency, batches, fallbacks, slotWait, rejections, sent]

def name : Family → String
  | latency => "spammer_batch_dispatch_seconds"
  | batches => "spammer_batches_total"
  | fallbacks => "spammer_gas_estimation_fallbacks_total"
  | slotWait => "spammer_slot_wait_seconds"
  | rejections => "spammer_transactions_failed_total"
  | sent => "spammer_transactions_sent_total"

def help : Family → String
  | latency => "Time from first submission to last acknowledgement in a batch"
  | batches => "Batches dispatched"
  | fallbacks => "Batches that used the fallback gas limit"
  | slotWait => "Most recent wait for a target slot"
  | rejections => "Transactions rejected by the RPC endpoint, by reason"
  | sent => "Transactions acknowledged by the RPC endpoint"

def typeName : Family → String
  | latency => "histogram"
  | slotWait => "gauge"
  | _ => "counter"

end Family

/-- The upper bounds of the buckets into which latencies are sorted, in seconds. -/
def latencyBounds : List Binary64 :=
  [(1, 100), (5, 100), (1, 10), (25, 100), (5, 10), (1, 1), (25, 10), (5, 1), (10, 1), (30, 1)].map
    fun (n, d) => .ofRatio false n d

/-- A sample: a suffix of the family's name, a label with its value, and the number. -/
structure Sample where
  suffix : String := ""
  label : Option (String × String) := none
  number : String

def Sample.line (family : Family) (s : Sample) : String :=
  let label := match s.label with
    | none => ""
    | some (name, value) => "\x7b" ++ name ++ "=\"" ++ value ++ "\"\x7d"
  family.name ++ s.suffix ++ label ++ " " ++ s.number

/-- The kinds of rejections, in the order of their names. -/
def sortedKinds : List Rejection.Kind :=
  [.aborted, .alreadyKnown, .insufficientFunds, .nonceTooLow, .rpc, .timeout, .underpriced]

def counter (n : Nat) : List Sample := if n = 0 then [] else [⟨"", none, toString n⟩]

/-- How many latencies each bucket and those before it hold, their sum and their number. -/
def latencySamples (latencies : List Binary64) : List Sample :=
  let count := toString latencies.length
  let sum := latencies.foldl Binary64.plus Binary64.zero
  latencyBounds.map (fun bound =>
      ⟨"_bucket", some ("le", bound.text), toString (latencies.countP (·.atMost bound))⟩)
    ++ [⟨"_bucket", some ("le", "+Inf"), count⟩, ⟨"_sum", none, sum.text⟩, ⟨"_count", none, count⟩]

def samples (t : Tally) : Family → List Sample
  | .latency => if t.latencies.isEmpty then [] else latencySamples t.latencies
  | .batches => counter t.batches
  | .fallbacks => counter t.fallbacks
  | .slotWait => t.slotWait.toList.map fun wait => ⟨"", none, wait.text⟩
  | .rejections =>
    (sortedKinds.filter fun kind => t.failed kind ≠ 0).map fun kind =>
      ⟨"", some ("reason", kind.name), toString (t.failed kind)⟩
  | .sent => counter t.sent

def familyLines (t : Tally) (family : Family) : List String :=
  match samples t family with
  | [] => []
  | samples =>
    ("# HELP " ++ family.name ++ " " ++ family.help)
      :: ("# TYPE " ++ family.name ++ " " ++ family.typeName)
      :: samples.map (Sample.line family)

def lines (t : Tally) : List String := Family.all.flatMap (familyLines t)

/-- The status and the lines with which a request for a path is answered. -/
def respond (t : Tally) (path : String) : Nat × List String :=
  if path = "/metrics" then (200, lines t) else (404, [])

/-- What listening on a port in use fails with. -/
def portInUse (port : Nat) : Failure :=
  .internal (.cannotListen port "Address already in use (os error 98)")

end TxLoad.Telemetry
