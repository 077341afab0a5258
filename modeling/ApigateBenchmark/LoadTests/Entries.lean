import ApigateBenchmark.LoadTests.CollectResources
import Mathlib.Algebra.Group.Prod

/-!
# The entries of cAdvisor

The shape of an entry as cAdvisor writes it: counters are non-negative integers, objects may be missing,
and where the script provides for it they may be null. On such entries `_to_samples` raises nothing, and
each sample is a function of two consecutive entries.
-/

namespace ApigateBenchmark.LoadTests

open Python Value

variable (python : Interpreter)

/-! ### The shape -/

structure IsInterface (iface : Value) : Prop where
  object : iface.IsObject
  rx : ∀ value ∈ iface.field? "rx_bytes", value.IsCount
  tx : ∀ value ∈ iface.field? "tx_bytes", value.IsCount

structure IsEntry (entry : Value) : Prop where
  object : entry.IsObject
  timestamp : ∃ ts time, entry.field? "timestamp" = some (.str ts) ∧ parseIso python ts = .ok time
  cpu : ∀ value ∈ entry.path? ["cpu"], value.IsObject
  usage : ∀ value ∈ entry.path? ["cpu", "usage"], value.IsObject
  total : ∀ value ∈ entry.path? ["cpu", "usage", "total"], ∃ n : ℕ, value = .int n
  cfs : ∀ value ∈ entry.path? ["cpu", "cfs"], value.IsObject
  throttled : ∀ value ∈ entry.path? ["cpu", "cfs", "throttled_time"], value.IsCount
  memory : ∀ value ∈ entry.path? ["memory"], value = .none ∨ value.IsObject
  memoryCounts : ∀ key ∈ ["working_set", "usage", "rss", "cache"],
    ∀ value ∈ entry.path? ["memory", key], value.IsCount
  network : ∀ value ∈ entry.path? ["network"], value = .none ∨ value.IsObject
  networkCounts : ∀ key ∈ ["rx_bytes", "tx_bytes"], ∀ value ∈ entry.path? ["network", key], value.IsCount
  interfaces : ∀ value ∈ entry.path? ["network", "interfaces"],
    value = .none ∨ ∃ ifaces, value = .list ifaces ∧ ∀ iface ∈ ifaces, IsInterface iface

/-! ### What an entry says -/

def countAt (value : Value) (path : List String) : ℕ := ((value.path? path).getD .none).count

/-- The time `_parse_iso` reads. -/
def timeOf (entry : Value) : ℚ := (timestamp python entry).toOption.getD 0

def cpuTotalOf (entry : Value) : ℕ := countAt entry ["cpu", "usage", "total"]

def interfacesOf (entry : Value) : List Value :=
  match entry.path? ["network", "interfaces"] with
  | some (.list ifaces) => ifaces
  | _ => []

/-- Bytes received and bytes sent. -/
abbrev Traffic := ℕ × ℕ

def interfaceTraffic (iface : Value) : Traffic := (countAt iface ["rx_bytes"], countAt iface ["tx_bytes"])

def topTraffic (entry : Value) : Traffic :=
  (countAt entry ["network", "rx_bytes"], countAt entry ["network", "tx_bytes"])

def totalTraffic (ifaces : List Value) : Traffic := (ifaces.map interfaceTraffic).sum

/-- The source `_sum_network` chooses. -/
def networkTraffic (entry : Value) : Traffic :=
  if topTraffic entry = (0, 0) then totalTraffic (interfacesOf entry) else topTraffic entry

def memoryBytes (entry : Value) : ℕ :=
  if countAt entry ["memory", "working_set"] = 0 then countAt entry ["memory", "usage"]
  else countAt entry ["memory", "working_set"]

/-- The counters of cAdvisor have 64 bits, so that no figure is out of the range of a float. -/
structure CountersFit (entry : Value) : Prop where
  counts : ∀ path ∈ [["cpu", "usage", "total"], ["cpu", "cfs", "throttled_time"], ["memory", "working_set"],
    ["memory", "usage"], ["memory", "rss"], ["memory", "cache"], ["network", "rx_bytes"],
    ["network", "tx_bytes"]], countAt entry path < 2 ^ 64
  interfaces : ∀ iface ∈ interfacesOf entry,
    (interfaceTraffic iface).1 < 2 ^ 64 ∧ (interfaceTraffic iface).2 < 2 ^ 64

/-- The percentage of one core, between two times. -/
def cpuPctBetween (prev cur : ℚ × Value) : ℚ :=
  if 0 < (cur.1 - prev.1) * 10 ^ 9 then
    max 0 (((cpuTotalOf cur.2 : ℚ) - cpuTotalOf prev.2) / ((cur.1 - prev.1) * 10 ^ 9) * 100)
  else 0

def sampleOf (pair : (ℚ × Value) × (ℚ × Value)) : Sample where
  ts := pair.2.1
  cpuPct := cpuPctBetween pair.1 pair.2
  memBytes := memoryBytes pair.2.2
  memRssBytes := countAt pair.2.2 ["memory", "rss"]
  cacheBytes := countAt pair.2.2 ["memory", "cache"]
  netRxBytes := (networkTraffic pair.2.2).1
  netTxBytes := (networkTraffic pair.2.2).2
  cpuThrottledNs := countAt pair.2.2 ["cpu", "cfs", "throttled_time"]

def parsedEntries (raw : List Value) : List (ℚ × Value) := raw.map fun entry => (timeOf python entry, entry)

/-- A sample for each entry and the one before it. -/
def samplesOf (raw : List Value) : List Sample := (pairwise (parsedEntries python raw)).map sampleOf

/-! ### What the script reads -/

theorem intField_eq {object : Value} (h : object.IsObject) {key : String}
    (hcount : ∀ value ∈ object.field? key, value.IsCount) :
    intField python object key = .ok (((object.field? key).getD .none).count : ℕ) := by
  rw [intField, h.get_eq, ok_bind, (isCount_getD hcount).toInt_or_zero]

theorem addInterface_eq {iface : Value} (h : IsInterface iface) (total : Traffic) :
    addInterface python ((total.1 : Int), (total.2 : Int)) iface =
      .ok (((total + interfaceTraffic iface).1 : ℕ), ((total + interfaceTraffic iface).2 : ℕ)) := by
  have hone : ∀ key, countAt iface [key] = ((iface.field? key).getD .none).count := by
    intro key
    rw [countAt, path?]
    cases iface.field? key <;> rfl
  rw [addInterface, intField_eq python h.object h.rx, intField_eq python h.object h.tx]
  simp only [ok_bind, interfaceTraffic, hone, Prod.fst_add, Prod.snd_add, Nat.cast_add]
  rfl

theorem foldlM_addInterface {ifaces : List Value} (h : ∀ iface ∈ ifaces, IsInterface iface)
    (total : Traffic) :
    ifaces.foldlM (addInterface python) ((total.1 : Int), (total.2 : Int)) =
      .ok (((total + totalTraffic ifaces).1 : ℕ), ((total + totalTraffic ifaces).2 : ℕ)) := by
  induction ifaces generalizing total with
  | nil => rfl
  | cons iface rest ih =>
      obtain ⟨hiface, hrest⟩ := List.forall_mem_cons.mp h
      have hsum : total + interfaceTraffic iface + totalTraffic rest = total + totalTraffic (iface :: rest) :=
        add_assoc total (interfaceTraffic iface) (totalTraffic rest)
      rw [List.foldlM_cons, addInterface_eq python hiface, ok_bind, ih hrest, hsum]

/-! ### The parts of an entry -/

section

variable {python} {entry : Value}

theorem IsEntry.timestamp_eq (h : IsEntry python entry) :
    LoadTests.timestamp python entry = .ok (timeOf python entry) := by
  obtain ⟨ts, time, hts, htime⟩ := h.timestamp
  have hread : LoadTests.timestamp python entry = .ok time := by
    obtain ⟨items, rfl⟩ := h.object
    have hlookup : items.lookup (Python.str "timestamp") = some (.str ts) := hts
    rw [LoadTests.timestamp, item, hlookup]
    exact htime
  rw [timeOf, hread]
  rfl

theorem path?_singleton (value : Value) (key : String) : value.path? [key] = value.field? key := by
  rw [path?]
  cases value.field? key <;> rfl

theorem path?_pair (value : Value) (first second : String) :
    value.path? [first, second] = (value.field? first).bind fun inner => inner.field? second := by
  rw [path?]
  exact congrArg _ (funext fun inner => path?_singleton inner second)

theorem path?_triple (value : Value) (first second third : String) :
    value.path? [first, second, third] = (value.path? [first, second]).bind fun inner => inner.field? third := by
  rw [path?_pair, path?]
  cases value.field? first with
  | none => rfl
  | some inner => exact path?_pair inner second third

/-- Reading two objects deep, with empty objects for those that are missing. -/
theorem nested_getD (hentry : entry.IsObject) {outer inner : String}
    (houter : ∀ value ∈ entry.path? [outer], value.IsObject)
    (hinner : ∀ value ∈ entry.path? [outer, inner], value.IsObject) (key : String) (default : Value) :
    (do (← (← entry.getD outer (.dict [])).getD inner (.dict [])).getD key default) =
      Except.ok ((entry.path? [outer, inner, key]).getD default) := by
  have hor : ∀ value : Option Value, (∀ object ∈ value, object.IsObject) →
      (value.getD (.dict [])).IsObject := by
    intro value h
    cases value with
    | none => exact isObject_empty
    | some object => exact h object rfl
  rw [path?_singleton] at houter
  rw [path?_pair] at hinner
  rw [hentry.getD_eq, ok_bind, (hor _ houter).getD_eq, field?_getD_empty, ok_bind, (hor _ hinner).getD_eq,
    field?_getD_empty, ← path?_pair, ← path?_triple]

theorem IsEntry.cpuTotal_eq (h : IsEntry python entry) :
    cpuTotal entry = .ok (.int (cpuTotalOf entry)) := by
  rw [cpuTotal, nested_getD h.object h.cpu h.usage, cpuTotalOf, countAt]
  have htotal := h.total
  cases hfound : entry.path? ["cpu", "usage", "total"] with
  | none => rfl
  | some value =>
      obtain ⟨n, rfl⟩ := htotal value hfound
      rfl

theorem IsEntry.throttled_eq (h : IsEntry python entry) :
    ∃ value, throttledTime entry = .ok value ∧
      (value.or (.int 0)).toInt python = .ok (countAt entry ["cpu", "cfs", "throttled_time"] : ℕ) := by
  refine ⟨_, nested_getD h.object h.cpu h.cfs "throttled_time" (.int 0), ?_⟩
  have hcount := h.throttled
  rw [countAt]
  cases hfound : entry.path? ["cpu", "cfs", "throttled_time"] with
  | none => rfl
  | some value => exact (hcount value hfound).toInt_or_zero python

/-- An object of the entry that may be null, with what is under its keys. -/
theorem objectField (hentry : entry.IsObject) {key : String}
    (h : ∀ value ∈ entry.path? [key], value = .none ∨ value.IsObject) :
    ∃ value, entry.get key = .ok value ∧ (value.or (.dict [])).IsObject ∧
      ∀ inner, (value.or (.dict [])).field? inner = entry.path? [key, inner] := by
  rw [path?_singleton] at h
  obtain ⟨hobject, hfields⟩ := or_empty h
  refine ⟨_, hentry.get_eq key, hobject, fun inner => ?_⟩
  rw [hfields, path?_pair]

/-- A count of an object of the entry. -/
theorem intField_of_path (python : Interpreter) {object : Value} (hobject : object.IsObject) {outer key : String}
    (hpath : object.field? key = entry.path? [outer, key])
    (hcount : ∀ value ∈ entry.path? [outer, key], value.IsCount) :
    intField python object key = .ok (countAt entry [outer, key] : ℕ) := by
  rw [intField_eq python hobject (hpath ▸ hcount), hpath, countAt]

/-- The interfaces `_sum_network` goes over. -/
theorem IsEntry.interfaces_iter (h : IsEntry python entry) {network : Value} (hobject : network.IsObject)
    (hfield : network.field? "interfaces" = entry.path? ["network", "interfaces"]) :
    ∃ value, network.get "interfaces" = .ok value ∧
      (value.or (.list [])).iter = .ok (interfacesOf entry) ∧
      ∀ iface ∈ interfacesOf entry, IsInterface iface := by
  refine ⟨_, hobject.get_eq "interfaces", ?_⟩
  rw [hfield, interfacesOf]
  have hshape := h.interfaces
  cases hfound : entry.path? ["network", "interfaces"] with
  | none => exact ⟨rfl, fun iface hmem => absurd hmem List.not_mem_nil⟩
  | some value =>
      obtain rfl | ⟨ifaces, rfl, hifaces⟩ := hshape value hfound
      · exact ⟨rfl, fun iface hmem => absurd hmem List.not_mem_nil⟩
      · refine ⟨?_, hifaces⟩
        cases ifaces <;> rfl

theorem IsEntry.sumNetwork_eq (h : IsEntry python entry) :
    ∃ network, entry.get "network" = .ok network ∧
      sumNetwork python (network.or (.dict [])) =
        .ok (((networkTraffic entry).1 : ℕ), ((networkTraffic entry).2 : ℕ)) := by
  obtain ⟨network, hget, hobject, hfields⟩ := objectField h.object h.network
  refine ⟨network, hget, ?_⟩
  have hrx := intField_of_path python hobject (hfields "rx_bytes")
    (h.networkCounts "rx_bytes" (by decide))
  have htx := intField_of_path python hobject (hfields "tx_bytes")
    (h.networkCounts "tx_bytes" (by decide))
  rw [sumNetwork, hrx, htx, ok_bind, ok_bind, networkTraffic]
  by_cases hzero : topTraffic entry = (0, 0)
  · obtain ⟨hrx', htx'⟩ := Prod.mk.inj hzero
    have hstart : (0 : Int) ≠ 0 ∨ (0 : Int) ≠ 0 ↔ False := by decide
    obtain ⟨value, hget', hiter, hshape⟩ := h.interfaces_iter hobject (hfields "interfaces")
    have hfold := foldlM_addInterface python hshape 0
    rw [zero_add] at hfold
    rw [hrx', htx', Nat.cast_zero, if_neg hstart.mp, if_pos hzero, hget', ok_bind, hiter, ok_bind]
    exact hfold
  · have hnonzero : ((countAt entry ["network", "rx_bytes"] : ℕ) : Int) ≠ 0 ∨
        ((countAt entry ["network", "tx_bytes"] : ℕ) : Int) ≠ 0 := by
      by_contra hnone
      rw [not_or, not_not, not_not] at hnone
      exact hzero (Prod.ext (Int.natCast_eq_zero.mp hnone.1) (Int.natCast_eq_zero.mp hnone.2))
    rw [if_pos hnonzero, if_neg hzero]
    rfl

end

/-! ### The samples -/

theorem cpuPercent_eq (dtNs : ℚ) (total prevTotal : ℕ) :
    cpuPercent python dtNs (.int total) (.int prevTotal) =
      .ok (if 0 < dtNs then max 0 (((total : ℚ) - prevTotal) / dtNs * 100) else 0) := by
  rw [cpuPercent]
  split
  · simp only [number, ok_bind, FloatValue.sub, Int.cast_natCast]
    rfl
  · rfl

section

variable {python}

theorem toSample_eq {prev cur : ℚ × Value} (hprev : IsEntry python prev.2) (hcur : IsEntry python cur.2) :
    toSample python prev cur = .ok (sampleOf (prev, cur)) := by
  obtain ⟨memory, hmemory, hobject, hfields⟩ := objectField hcur.object hcur.memory
  obtain ⟨network, hnetwork, hsum⟩ := hcur.sumNetwork_eq
  obtain ⟨throttled, hthrottled, hthrottled'⟩ := hcur.throttled_eq
  have hcount : ∀ key ∈ ["working_set", "usage", "rss", "cache"],
      ∀ value ∈ (memory.or (.dict [])).field? key, value.IsCount := by
    intro key hkey
    rw [hfields]
    exact hcur.memoryCounts key hkey
  have hworking := (isCount_getD (hcount "working_set" (by decide))).or
    (isCount_getD (hcount "usage" (by decide)))
  have hrss := intField_of_path python hobject (hfields "rss")
    (hcur.memoryCounts "rss" (by decide))
  have hcache := intField_of_path python hobject (hfields "cache")
    (hcur.memoryCounts "cache" (by decide))
  have hbytes : ((((memory.or (.dict [])).field? "working_set").getD .none).or
      (((memory.or (.dict [])).field? "usage").getD .none)).count = memoryBytes cur.2 := by
    rw [hworking.2, hfields, hfields]
    rfl
  simp only [toSample, hmemory, hnetwork, hsum, hcur.cpuTotal_eq, hprev.cpuTotal_eq, hthrottled, ok_bind,
    cpuPercent_eq, hobject.get_eq, hworking.1.toInt_or_zero, hbytes, hrss, hcache, hthrottled']
  rfl

theorem toSamples_eq {raw : List Value} (h : ∀ entry ∈ raw, IsEntry python entry) :
    toSamples python (.list raw) = .ok (samplesOf python raw) := by
  have htimes : ∀ entry ∈ raw, (do return (← timestamp python entry, entry) : Except Exc (ℚ × Value)) =
      .ok (timeOf python entry, entry) := by
    intro entry hentry
    rw [(h entry hentry).timestamp_eq]
    rfl
  rw [toSamples, iter, ok_bind, mapM_ok htimes, ok_bind]
  refine mapM_ok fun pair hpair => ?_
  obtain ⟨hprev, hcur⟩ := mem_of_mem_pairwise hpair
  obtain ⟨prev, hprev', heq⟩ := List.mem_map.mp hprev
  obtain ⟨cur, hcur', heq'⟩ := List.mem_map.mp hcur
  apply toSample_eq
  · rw [← heq]
    exact h prev hprev'
  · rw [← heq']
    exact h cur hcur'

end

theorem length_samplesOf (raw : List Value) : (samplesOf python raw).length = raw.length - 1 := by
  rw [samplesOf, List.length_map, length_pairwise, parsedEntries, List.length_map]

/-- What a sample says of the later of its entries alone is said of all entries but the first. -/
theorem map_samplesOf {β : Type} (column : Sample → β) (reading : ℚ × Value → β)
    (h : ∀ pair, column (sampleOf pair) = reading pair.2) (raw : List Value) :
    (samplesOf python raw).map column = raw.tail.map fun entry => reading (timeOf python entry, entry) := by
  have htail : (parsedEntries python raw).tail.map reading =
      raw.tail.map fun entry => reading (timeOf python entry, entry) := by
    rw [parsedEntries, ← List.map_tail, List.map_map]
    rfl
  rw [← htail, ← map_snd_pairwise, samplesOf, List.map_map, List.map_map]
  exact List.map_congr_left fun pair _ => h pair

/-! ### Entries written out -/

def interfaceValue (iface : String × Traffic) : Value :=
  .dict [(Python.str "name", .str (Python.str iface.1)), (Python.str "rx_bytes", .int iface.2.1),
    (Python.str "tx_bytes", .int iface.2.2)]

/-- An entry with its CPU counter and its network counters, at the top level and for each interface. -/
def entryValue (ts : String) (total : ℕ) (top : Traffic) (ifaces : List (String × Traffic)) : Value :=
  .dict [(Python.str "timestamp", .str (Python.str ts)),
    (Python.str "cpu", .dict [(Python.str "usage", .dict [(Python.str "total", .int total)])]),
    (Python.str "network", .dict [(Python.str "rx_bytes", .int top.1), (Python.str "tx_bytes", .int top.2),
      (Python.str "interfaces", .list (ifaces.map interfaceValue))])]

section

variable {python} {ts : String} {total : ℕ} {top : Traffic} {ifaces : List (String × Traffic)}

theorem isInterface_interfaceValue (iface : String × Traffic) : IsInterface (interfaceValue iface) where
  object := ⟨_, rfl⟩
  rx := by
    rintro value h
    obtain rfl := Option.some.inj h
    exact .inr ⟨iface.2.1, rfl⟩
  tx := by
    rintro value h
    obtain rfl := Option.some.inj h
    exact .inr ⟨iface.2.2, rfl⟩

theorem isEntry_entryValue {time : ℚ} (hts : parseIso python (Python.str ts) = .ok time) :
    IsEntry python (entryValue ts total top ifaces) where
  object := ⟨_, rfl⟩
  timestamp := ⟨_, time, rfl, hts⟩
  cpu := by
    rintro value h
    obtain rfl := Option.some.inj h
    exact ⟨_, rfl⟩
  usage := by
    rintro value h
    obtain rfl := Option.some.inj h
    exact ⟨_, rfl⟩
  total := by
    rintro value h
    obtain rfl := Option.some.inj h
    exact ⟨total, rfl⟩
  cfs := fun value h => absurd h (Option.not_mem_none value)
  throttled := fun value h => absurd h (Option.not_mem_none value)
  memory := fun value h => absurd h (Option.not_mem_none value)
  memoryCounts := fun _ _ value h => absurd h (Option.not_mem_none value)
  network := by
    rintro value h
    obtain rfl := Option.some.inj h
    exact .inr ⟨_, rfl⟩
  networkCounts := by
    intro key hkey value h
    obtain rfl | hkey := List.mem_cons.mp hkey
    · obtain rfl := Option.some.inj h
      exact .inr ⟨top.1, rfl⟩
    · obtain rfl := List.mem_singleton.mp hkey
      obtain rfl := Option.some.inj h
      exact .inr ⟨top.2, rfl⟩
  interfaces := by
    rintro value h
    obtain rfl := Option.some.inj h
    refine .inr ⟨_, rfl, ?_⟩
    exact List.forall_mem_map.mpr fun iface _ => isInterface_interfaceValue iface

end

/-- A year begins, second by second. -/
def newYear : List (String × ℚ) :=
  [("2024-01-01T00:00:00+00:00", 1704067200), ("2024-01-01T00:00:01+00:00", 1704067201),
    ("2024-01-01T00:00:02+00:00", 1704067202)]

def newYearInterpreter : Interpreter where
  isSpace := fun c => c == 0x20
  isDigit := fun c => 0x30 ≤ c && c ≤ 0x39
  decimal := fun c => if 0x30 ≤ c ∧ c ≤ 0x39 then some (c - 0x30) else Option.none
  maxStrDigits := 4300
  nesting := 1000
  infinity := floatBound
  timestamp := fun text => match newYear.find? fun entry => Python.str entry.1 == text with
    | some entry => .ok entry.2
    | Option.none => .error .valueError

def newYearStamps : List String := ["2024-01-01T00:00:00Z", "2024-01-01T00:00:01Z", "2024-01-01T00:00:02Z"]

/-- Entries one second apart, with the CPU counter and the network counters of each. -/
def newYearSeries (rows : List (ℕ × Traffic × List (String × Traffic))) : List Value :=
  (newYearStamps.zip rows).map fun entry => entryValue entry.1 entry.2.1 entry.2.2.1 entry.2.2.2

theorem parseIso_newYearStamps :
    ∀ ts ∈ newYearStamps, ∃ time, parseIso newYearInterpreter (Python.str ts) = .ok time :=
  List.forall_mem_cons.mpr ⟨⟨1704067200, rfl⟩, List.forall_mem_cons.mpr ⟨⟨1704067201, rfl⟩,
    List.forall_mem_singleton.mpr ⟨1704067202, rfl⟩⟩⟩

theorem isEntry_newYearSeries (rows : List (ℕ × Traffic × List (String × Traffic))) :
    ∀ entry ∈ newYearSeries rows, IsEntry newYearInterpreter entry := by
  intro entry hentry
  obtain ⟨row, hrow, rfl⟩ := List.mem_map.mp hentry
  obtain ⟨time, htime⟩ := parseIso_newYearStamps row.1 (List.of_mem_zip hrow).1
  exact isEntry_entryValue htime

end ApigateBenchmark.LoadTests
