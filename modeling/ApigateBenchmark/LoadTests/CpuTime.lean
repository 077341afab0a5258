import ApigateBenchmark.LoadTests.Entries

/-!
# Where the CPU time goes

Each sample gives the CPU time between its entry and the one before as a percentage of the time that
passed. Turned back into nanoseconds, the samples of a series give all of it: what the counter rose from
entry to entry, where a fall counts as nothing.
-/

namespace ApigateBenchmark.LoadTests

open CumulativeCounter Python

variable {python : Interpreter}

/-- The nanoseconds of CPU time the samples stand for, each since the time before it. -/
def attributedNs (times : List ℚ) (samples : List Sample) : ℚ :=
  (times.zipWith (fun prev s => s.cpuPct / 100 * ((s.ts - prev) * 10 ^ 9)) samples).sum

def cpuTotals (raw : List Value) : List Int := raw.map fun entry => (cpuTotalOf entry : Int)

/-- The sum of the increases, a fall counting as nothing. -/
def clampedIncreases (totals : List Int) : Int :=
  ((pairwise totals).map fun pair => max 0 (pair.2 - pair.1)).sum

theorem clampedIncreases_of_neverFalls {totals : List Int} (h : NeverFalls totals) :
    clampedIncreases totals = rise totals := by
  rw [← counted_of_neverFalls h]
  induction totals with
  | nil => rfl
  | cons prev rest ih =>
      cases rest with
      | nil => rfl
      | cons cur rest =>
          obtain ⟨hle, hrest⟩ := List.isChain_cons_cons.mp h
          have hstep : max 0 (cur - prev) = increase prev cur := by
            rw [increase, if_pos hle, max_eq_right (sub_nonneg.mpr hle)]
          have hih := ih hrest
          rw [clampedIncreases] at hih ⊢
          rw [pairwise_cons_cons, List.map_cons, List.sum_cons, hih, hstep, counted]

theorem cpuPctBetween_nonneg (prev cur : ℚ × Value) : 0 ≤ cpuPctBetween prev cur := by
  rw [cpuPctBetween]
  split
  · exact le_max_left _ _
  · exact le_rfl

/-- Over a span of positive length the percentage stands for the increase. -/
theorem cpuPctBetween_span {prev cur : ℚ × Value} (h : prev.1 < cur.1) :
    cpuPctBetween prev cur / 100 * ((cur.1 - prev.1) * 10 ^ 9) =
      (max 0 ((cpuTotalOf cur.2 : Int) - cpuTotalOf prev.2) : Int) := by
  have hspan : 0 < (cur.1 - prev.1) * 10 ^ 9 := mul_pos (sub_pos.mpr h) (by norm_num)
  have hscale : 0 ≤ (cur.1 - prev.1) * 10 ^ 9 / 100 := div_nonneg hspan.le (by norm_num)
  rw [cpuPctBetween, if_pos hspan]
  generalize (cur.1 - prev.1) * 10 ^ 9 = span at *
  calc max 0 (((cpuTotalOf cur.2 : ℚ) - cpuTotalOf prev.2) / span * 100) / 100 * span
      = max 0 (((cpuTotalOf cur.2 : ℚ) - cpuTotalOf prev.2) / span * 100) * (span / 100) := by ring
    _ = max 0 (((cpuTotalOf cur.2 : ℚ) - cpuTotalOf prev.2) / span * 100 * (span / 100)) := by
        rw [max_mul_of_nonneg _ _ hscale, zero_mul]
    _ = max 0 ((cpuTotalOf cur.2 : ℚ) - cpuTotalOf prev.2) := by
        congr 1
        field_simp
    _ = (max 0 ((cpuTotalOf cur.2 : Int) - cpuTotalOf prev.2) : Int) := by push_cast; rfl

theorem attributedNs_pairwise {parsed : List (ℚ × Value)}
    (hincreasing : (parsed.map Prod.fst).IsChain (· < ·)) :
    attributedNs (parsed.map Prod.fst) ((pairwise parsed).map sampleOf) =
      clampedIncreases (cpuTotals (parsed.map Prod.snd)) := by
  induction parsed with
  | nil => rfl
  | cons prev rest ih =>
      cases rest with
      | nil => rfl
      | cons cur rest =>
          obtain ⟨hlt, hrest⟩ := List.isChain_cons_cons.mp hincreasing
          have hih := ih hrest
          have hspan := cpuPctBetween_span hlt
          simp only [attributedNs, clampedIncreases, cpuTotals, List.map_cons, pairwise_cons_cons,
            List.zipWith_cons_cons, List.sum_cons, Int.cast_add] at hih ⊢
          rw [hih]
          exact congrArg (· + _) hspan

/-- The samples carry the times of the entries after the first, and give the CPU time between them. -/
structure Conserves (times : List ℚ) (totals : List Int) (samples : List Sample) : Prop where
  length : samples.length = times.length - 1
  ts : samples.map Sample.ts = times.tail
  nonneg : ∀ s ∈ samples, 0 ≤ s.cpuPct
  increases : attributedNs times samples = clampedIncreases totals
  rise : NeverFalls totals → attributedNs times samples = rise totals

theorem cpu_time_conserved {raw : List Value} (hraw : ∀ entry ∈ raw, IsEntry python entry) {times : List ℚ}
    (htimes : raw.mapM (timestamp python) = .ok times) (hincreasing : times.IsChain (· < ·)) :
    ∃ samples, toSamples python (.list raw) = .ok samples ∧ samples.length = raw.length - 1 ∧
      Conserves times (cpuTotals raw) samples := by
  obtain rfl : raw.map (timeOf python) = times := by
    rw [mapM_ok fun entry hentry => (hraw entry hentry).timestamp_eq] at htimes
    exact Except.ok.inj htimes
  have hfst : (parsedEntries python raw).map Prod.fst = raw.map (timeOf python) := by
    rw [parsedEntries, List.map_map]
    rfl
  have hsnd : (parsedEntries python raw).map Prod.snd = raw := by
    rw [parsedEntries, List.map_map]
    exact List.map_id raw
  have hincreases := attributedNs_pairwise (hfst ▸ hincreasing)
  rw [hfst, hsnd, ← samplesOf] at hincreases
  refine ⟨_, toSamples_eq hraw, length_samplesOf python raw, ?_⟩
  exact {
    length := by rw [length_samplesOf, List.length_map]
    ts := by
      rw [map_samplesOf python Sample.ts Prod.fst (fun _ => rfl), List.map_tail]
    nonneg := List.forall_mem_map.mpr fun pair _ => cpuPctBetween_nonneg pair.1 pair.2
    increases := hincreases
    rise := fun hnever => by rw [hincreases, clampedIncreases_of_neverFalls hnever]
  }

/-- Two microseconds of CPU time, and a restart. -/
def restartSeries : List Value := newYearSeries [(1000, (0, 0), []), (3000, (0, 0), []), (500, (0, 0), [])]

theorem cpu_time_conserved_newYear :
    ∃ samples, toSamples newYearInterpreter (.list restartSeries) = .ok samples ∧
      samples.length = restartSeries.length - 1 ∧
      Conserves [1704067200, 1704067201, 1704067202] (cpuTotals restartSeries) samples :=
  cpu_time_conserved (isEntry_newYearSeries _) rfl (by decide +kernel)

end ApigateBenchmark.LoadTests
