import ApigateBenchmark.GatewayPython.Gateway
import ApigateBenchmark.Library.CumulativeCounter
import ApigateBenchmark.Library.OrderStatistics
import ApigateBenchmark.Library.PythonJson

/-!
# The resource report

`collect_resources.py`: one HTTP request per container for the samples cAdvisor has buffered, which are
clipped to the window of the run and aggregated into a JSON report. Figures are exact rationals where
Python has floats; a rate that comes out infinite is the rational that the interpreter has for it.

What docker and cAdvisor answer is given for each container argument by its position, so one name given
twice may be answered in two ways. A reply is the bytes received and the length it declares; reading one
that is cut short raises `IncompleteRead`. Messages to stderr are effects that say what they are about.
-/

namespace ApigateBenchmark.LoadTests

open CumulativeCounter (highest lowest)
open Python

structure Sample where
  ts : ℚ
  cpuPct : ℚ
  memBytes : Int
  memRssBytes : Int
  cacheBytes : Int
  netRxBytes : Int
  netTxBytes : Int
  cpuThrottledNs : Int
  deriving DecidableEq

variable (python : Interpreter)

/-! ### Parsing -/

def code (c : Char) : Nat := c.toNat

def parseIso (ts : Str) : Except Exc ℚ :=
  let zoned := if ts.getLast? = some (code 'Z') then ts.dropLast ++ str "+00:00" else ts
  let truncated :=
    if zoned.contains (code '.') then
      let head := zoned.takeWhile (· ≠ code '.')
      let rest := (zoned.dropWhile (· ≠ code '.')).drop 1
      let i := (rest.takeWhile python.isDigit).length
      head ++ str "." ++ rest.take (min i 6) ++ rest.drop i
    else zoned
  python.timestamp truncated

/-- `_parse_iso(e['timestamp'])`; only a `str` has `endswith`. -/
def timestamp (entry : Value) : Except Exc ℚ := do
  match ← entry.item "timestamp" with
  | .str ts => parseIso python ts
  | _ => .error .attributeError

/-- `int(value.get(key) or 0)` -/
def intField (value : Value) (key : String) : Except Exc Int := do
  ((← value.get key).or (.int 0)).toInt python

def addInterface (total : Int × Int) (iface : Value) : Except Exc (Int × Int) := do
  let rx ← intField python iface "rx_bytes"
  let tx ← intField python iface "tx_bytes"
  return (total.1 + rx, total.2 + tx)

def sumNetwork (net : Value) : Except Exc (Int × Int) := do
  let rx ← intField python net "rx_bytes"
  let tx ← intField python net "tx_bytes"
  if rx ≠ 0 ∨ tx ≠ 0 then
    return (rx, tx)
  else
    let interfaces ← ((← net.get "interfaces").or (.list [])).iter
    interfaces.foldlM (addInterface python) (rx, tx)

/-- `entry.get('cpu', {}).get('usage', {}).get('total', 0)` -/
def cpuTotal (entry : Value) : Except Exc Value := do
  (← (← entry.getD "cpu" (.dict [])).getD "usage" (.dict [])).getD "total" (.int 0)

def throttledTime (entry : Value) : Except Exc Value := do
  (← (← entry.getD "cpu" (.dict [])).getD "cfs" (.dict [])).getD "throttled_time" (.int 0)

/-- The figure is a clamped rate; it is not computed unless time has passed. -/
def cpuPercent (dtNs : ℚ) (total prevTotal : Value) : Except Exc ℚ :=
  if 0 < dtNs then do
    match (← total.number).sub (← prevTotal.number) with
    | .finite increase => return max 0 (increase / dtNs * 100)
    | .infinity false => return python.infinity
    -- `max` stays with its first argument unless the second is greater, which NaN is not
    | .infinity true | .nan => return 0
  else .ok 0

/-- The body of the loop of `_to_samples`. -/
def toSample (prev cur : ℚ × Value) : Except Exc Sample := do
  let mem := (← cur.2.get "memory").or (.dict [])
  let (rx, tx) ← sumNetwork python ((← cur.2.get "network").or (.dict []))
  let total ← cpuTotal cur.2
  let prevTotal ← cpuTotal prev.2
  let throttled ← throttledTime cur.2
  let dtNs := (cur.1 - prev.1) * 10 ^ 9
  let cpuPct ← cpuPercent python dtNs total prevTotal
  return {
    ts := cur.1
    cpuPct := cpuPct
    memBytes := ← (((← mem.get "working_set").or (← mem.get "usage")).or (.int 0)).toInt python
    memRssBytes := ← intField python mem "rss"
    cacheBytes := ← intField python mem "cache"
    netRxBytes := rx
    netTxBytes := tx
    cpuThrottledNs := ← (throttled.or (.int 0)).toInt python
  }

def toSamples (raw : Value) : Except Exc (List Sample) := do
  let parsed ← (← raw.iter).mapM fun entry => return (← timestamp python entry, entry)
  (pairwise parsed).mapM fun pair => toSample python pair.1 pair.2

/-! ### Aggregation -/

/-- `round(x, 3)` -/
def round3 (x : ℚ) : ℚ := GoTime.roundEven (x * 1000) / 1000

def quantileIndex (xs : List ℚ) (q : ℚ) : ℚ := ((xs.length : ℚ) - 1) * q

def lowerIndex (xs : List ℚ) (q : ℚ) : Int := GoTime.truncate (quantileIndex xs q)

def upperIndex (xs : List ℚ) (q : ℚ) : Int := min (lowerIndex xs q + 1) (xs.length - 1)

def quantileSorted (xs : List ℚ) (q : ℚ) : Except Exc ℚ := do
  let idx := quantileIndex xs q
  let lo := lowerIndex xs q
  let hi := upperIndex xs q
  return (← index xs lo) * (1 - (idx - lo)) + (← index xs hi) * (idx - lo)

structure Stats (β : Type) where
  min : β
  avg : β
  p50 : β
  p95 : β
  p99 : β
  max : β
  deriving DecidableEq

def stats {β : Type} (fmt : ℚ → β) (values : List ℚ) : Except Exc (Stats β) :=
  if values = [] then
    let z := fmt 0
    .ok ⟨z, z, z, z, z, z⟩
  else do
    let srt := values.insertionSort (· ≤ ·)
    return {
      min := fmt (← index srt 0)
      avg := fmt (srt.sum / srt.length)
      p50 := fmt (← quantileSorted srt (50 / 100))
      p95 := fmt (← quantileSorted srt (95 / 100))
      p99 := fmt (← quantileSorted srt (99 / 100))
      max := fmt (← index srt (-1))
    }

structure Aggregate where
  samples : Nat
  cpuPct : Stats ℚ
  memBytes : Stats Int
  netRxBytes : Int
  netTxBytes : Int
  cpuThrottledMs : ℚ
  deriving DecidableEq

/-- `cpu_throttled_ms` before it is rounded. -/
def throttledMs (throttle : List Int) : ℚ := ((highest throttle - lowest throttle : Int) : ℚ) / 10 ^ 6

def aggregate (samples : List Sample) : Except Exc Aggregate := do
  let rx := samples.map Sample.netRxBytes
  let tx := samples.map Sample.netTxBytes
  let throttle := samples.map Sample.cpuThrottledNs
  return {
    samples := samples.length
    cpuPct := ← stats round3 (samples.map Sample.cpuPct)
    memBytes := ← stats GoTime.truncate (samples.map fun s => (s.memBytes : ℚ))
    netRxBytes := if rx = [] then 0 else highest rx - lowest rx
    netTxBytes := if tx = [] then 0 else highest tx - lowest tx
    cpuThrottledMs := if throttle = [] then 0 else round3 (throttledMs throttle)
  }

/-! ### Fetching -/

inductive Http where
  | failed (exc : Exc)
  | reply (contentLength : Option Nat) (received : Bytes)
  deriving DecidableEq

/-- `urlopen(url, timeout=...)` and `resp.read()` -/
def Http.read : Http → Except Exc Bytes
  | .failed exc => .error exc
  | .reply none received => .ok received
  | .reply (some contentLength) received =>
      if received.length < contentLength then .error .incompleteRead
      else .ok (received.take contentLength)

structure Answer where
  inspect : Except Exc String
  http : Http

/-- What a function of the script raises. -/
inductive Raised where
  | runtimeError (url : String) (cause : Exc)
  | other (exc : Exc)
  deriving DecidableEq

/-- The exceptions an `except RuntimeError` clause names. -/
def Raised.isRuntimeError : Raised → Bool
  | .runtimeError _ _ => true
  | .other exc => exc.isRuntimeError

def resolveId (output : Except Exc String) : Except Exc (Option String) :=
  match output with
  | .ok out =>
      let id := GatewayPython.strip out
      .ok (if id = "" then none else some id)
  | .error exc => if exc = .calledProcessError ∨ exc = .fileNotFoundError then .ok none else .error exc

def statsUrl (cadvisor containerId : String) (count : Int) : String :=
  String.ofList (cadvisor.toList.rdropWhile (· == '/')) ++ "/api/v2.0/stats/" ++ containerId ++
    "?type=docker&count=" ++ toString count

/-- The samples in any of the shapes cAdvisor has shipped. -/
def rawSamples : Value → Value
  | .list elements => .list elements
  | .dict ((_, .list elements) :: _) => .list elements
  | .dict ((_, .dict items) :: _) => ((items.lookup (str "stats")).getD .none).or (.list [])
  | _ => .list []

/-- `json.loads(resp.read().decode())` -/
def loadReply (http : Http) : Except Exc Value := do
  loads python (← decode (← http.read))

def fetchRaw (url : String) (http : Http) : Except Raised Value :=
  match loadReply python http with
  | .ok data => .ok (rawSamples data)
  | .error exc =>
      if exc.isOSError ∨ exc = .jsonDecodeError then .error (.runtimeError url exc) else .error (.other exc)

/-! ### The script -/

structure Args where
  cadvisor : String
  start : ℚ
  endTs : ℚ
  warmup : ℚ
  count : Int
  json : String
  quiet : Bool
  containers : List String

structure Report where
  windowS : ℚ
  warmupS : ℚ
  sampleCount : Nat
  containers : Dict String Aggregate

inductive Effect where
  | inspect (name : String)
  | urlopen (url : String)
  | warnNotFound (name : String)
  | warnFailed (name : String) (raised : Raised)
  | write (path : String) (report : Report)
  | printSummary (containers : Dict String Aggregate) (windowS warmupS : ℚ)

/-- The script waits for nothing that it does not get an answer to. -/
abbrev Script := Coroutine Effect Empty Raised

def orRaise {α : Type} : Except Exc α → Script α
  | .ok value => pure value
  | .error exc => Coroutine.raise (.other exc)

def inWindow (args : Args) (s : Sample) : Bool := args.start ≤ s.ts && s.ts ≤ args.endTs

def collectOne (args : Args) (name : String) (answer : Answer) : Script (List Sample) := do
  Coroutine.perform (.inspect name)
  match ← orRaise (resolveId answer.inspect) with
  | none => do
      Coroutine.perform (.warnNotFound name)
      return []
  | some cid =>
      let url := statsUrl args.cadvisor cid args.count
      Coroutine.perform (.urlopen url)
      match fetchRaw python url answer.http with
      | .error raised =>
          if raised.isRuntimeError then do
            Coroutine.perform (.warnFailed name raised)
            return []
          else Coroutine.raise raised
      | .ok raw => do
          let samples ← orRaise (toSamples python raw)
          return samples.filter (inWindow args)

/-- The comprehension of `main`, from the container argument at a position on. -/
def collectAll (args : Args) (world : Nat → Answer) :
    List String → Nat → Dict String (List Sample) → Script (Dict String (List Sample))
  | [], _, perContainer => pure perContainer
  | name :: rest, position, perContainer => do
      let samples ← collectOne python args name (world position)
      collectAll args world rest (position + 1) (perContainer.set name samples)

/-- The samples after the warmup, or all of them if none is left. -/
def keptSamples (args : Args) (samples : List Sample) : List Sample :=
  let cutoff := args.start + args.warmup
  let kept := samples.filter fun s => cutoff ≤ s.ts
  if kept = [] then samples else kept

def aggregateAll (args : Args) :
    List (String × List Sample) → Dict String Aggregate → Except Exc (Dict String Aggregate)
  | [], containers => .ok containers
  | (name, samples) :: rest, containers => do
      aggregateAll args rest (containers.set name (← aggregate (keptSamples args samples)))

def main (args : Args) (world : Nat → Answer) : Script Nat := do
  let perContainer ← collectAll python args world args.containers 0 Dict.empty
  let containers ← orRaise (aggregateAll args perContainer.items Dict.empty)
  let windowS := max (args.endTs - args.start) 0
  Coroutine.perform (.write args.json {
    windowS := round3 windowS
    warmupS := args.warmup
    sampleCount := (containers.items.map fun item => item.2.samples).sum
    containers := containers
  })
  if args.quiet then pure () else Coroutine.perform (.printSummary containers windowS args.warmup)
  return 0

end ApigateBenchmark.LoadTests
