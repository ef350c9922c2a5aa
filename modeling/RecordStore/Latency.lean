namespace RecordStore

-- The closest number with 53 significant bits; of two as close, the one with an even last bit.
def roundBits (n : Nat) : Nat :=
  if n < 1 <<< 53 then n
  else
    let unit := 1 <<< (n.log2 - 52)
    let whole := n / unit
    let rest := n % unit
    if 2 * rest > unit ∨ (2 * rest = unit ∧ whole % 2 = 1) then (whole + 1) * unit
    else whole * unit

def showNanos (n : Int) : String :=
  (if n < 0 then "-" else "") ++ toString (roundBits n.natAbs) ++ ".0"

def padLeft (width : Nat) (text : String) : String :=
  String.ofList (List.replicate (width - text.utf8ByteSize) ' ') ++ text

def padRight (width : Nat) (text : String) : String :=
  text ++ String.ofList (List.replicate (width - text.utf8ByteSize) ' ')

structure LatencyStats where
  name : String
  nanos : List Int64 := []

structure LatencyReport where
  name : String
  count : Nat
  perSecond : UInt64
  p50 : Int
  p90 : Int
  p99 : Int
  p999 : Int
  max : Int
deriving DecidableEq, Repr

namespace LatencyStats

def record (stats : LatencyStats) (nanos : Int64) : LatencyStats :=
  { stats with nanos := stats.nanos ++ [nanos] }

def sorted (stats : LatencyStats) : List Int64 := stats.nanos.mergeSort (fun a b => decide (a ≤ b))

def perSecond (stats : LatencyStats) : UInt64 :=
  let total : Int64 := stats.nanos.foldl (· + ·) 0
  let seconds := (if total < 1 then 1 else total).toFloat / 1000000000.0
  ((UInt64.ofNat stats.nanos.length).toFloat / seconds).toUInt64

def percentile (stats : LatencyStats) (percent : Float) : Int :=
  let last := stats.nanos.length - 1
  let place := ((percent / 100.0) * (UInt64.ofNat last).toFloat).toUInt64.toNat
  (stats.sorted.getD (min place last) 0).toInt

def report (stats : LatencyStats) : LatencyReport :=
  if stats.nanos.isEmpty then
    { name := stats.name, count := 0, perSecond := 0, p50 := 0, p90 := 0, p99 := 0, p999 := 0,
      max := 0 }
  else
    { name := stats.name
      count := stats.nanos.length
      perSecond := stats.perSecond
      p50 := stats.percentile 50.0
      p90 := stats.percentile 90.0
      p99 := stats.percentile 99.0
      p999 := stats.percentile 99.9
      max := (stats.sorted.getLastD 0).toInt }

end LatencyStats

namespace LatencyReport

def render (report : LatencyReport) : String :=
  let row (label value : String) : String := "  " ++ padRight 14 label ++ value ++ "\n"
  let time (label : String) (n : Int) : String := row label (padLeft 8 (showNanos n) ++ " ns")
  "=== " ++ report.name ++ " ===\n" ++
    row "Total ops:" (padLeft 12 (toString report.count)) ++
    row "ops/sec:" (padLeft 12 (toString report.perSecond)) ++
    time "p50:" report.p50 ++ time "p90:" report.p90 ++ time "p99:" report.p99 ++
    time "p99.9:" report.p999 ++ time "max:" report.max

def tableRow (report : LatencyReport) : String :=
  "| " ++ padRight 38 report.name ++ padLeft 14 (toString report.perSecond) ++
    padLeft 12 (showNanos report.p50) ++ padLeft 12 (showNanos report.p99) ++
    padLeft 12 (showNanos report.max) ++ " |\n"

def summary (reports : List LatencyReport) : String :=
  let rule := String.ofList (List.replicate 92 '-') ++ "\n"
  "\nSummary Table:\n" ++ rule ++
    padRight 40 "| Operation" ++ padLeft 14 "ops/sec" ++ padLeft 12 "p50(ns)" ++
    padLeft 12 "p99(ns)" ++ padLeft 14 "max(ns) |" ++ "\n" ++ rule ++
    String.join (reports.map tableRow) ++ rule

end LatencyReport

end RecordStore
