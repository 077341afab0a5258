import ApigateBenchmark.LoadTests.Statistics

/-!
# What the counters counted

`_aggregate` reports for each cumulative counter how far its extremes are apart. That is what the counter
counted in the window as long as it does not fall. A counter that restarts inside the window may count
more than its extremes are apart, or less.
-/

namespace ApigateBenchmark.LoadTests

open CumulativeCounter Python

theorem round3_zero : round3 0 = 0 := by
  have hzero : GoTime.roundEven 0 = 0 := by exact_mod_cast GoTime.roundEven_intCast 0
  rw [round3, zero_mul, hzero, Int.cast_zero, zero_div]

theorem throttledMs_eq (throttle : List Int) : throttledMs throttle = ((spread throttle : Int) : ℚ) / 10 ^ 6 := rfl

/-- What `_aggregate` makes of any samples. -/
structure Aggregates (samples : List Sample) (report : Aggregate) : Prop where
  count : report.samples = samples.length
  cpuPct : stats round3 (samples.map Sample.cpuPct) = .ok report.cpuPct
  cpuPct_ordered : report.cpuPct.Ordered
  memBytes : stats GoTime.truncate (samples.map fun s => (s.memBytes : ℚ)) = .ok report.memBytes
  memBytes_ordered : report.memBytes.Ordered
  netRxBytes : report.netRxBytes = spread (samples.map Sample.netRxBytes)
  netTxBytes : report.netTxBytes = spread (samples.map Sample.netTxBytes)
  cpuThrottledMs : report.cpuThrottledMs = round3 (throttledMs (samples.map Sample.cpuThrottledNs))

theorem aggregate_spec (samples : List Sample) :
    ∃ report, aggregate samples = .ok report ∧ Aggregates samples report := by
  obtain ⟨cpu, hcpu, hcpuOrdered⟩ := stats_ordered round3_mono (samples.map Sample.cpuPct)
  obtain ⟨mem, hmem, hmemOrdered⟩ := stats_ordered truncate_mono (samples.map fun s => (s.memBytes : ℚ))
  have hdelta : ∀ readings : List Int,
      (if readings = [] then 0 else highest readings - lowest readings) = spread readings := by
    intro readings
    split
    · rename_i hnil
      rw [hnil, spread_nil]
    · rfl
  have hthrottled : ∀ readings : List Int,
      (if readings = [] then 0 else round3 (throttledMs readings)) = round3 (throttledMs readings) := by
    intro readings
    split
    · rename_i hnil
      rw [hnil, throttledMs_eq, spread_nil, Int.cast_zero, zero_div, round3_zero]
    · rfl
  refine ⟨{
    samples := samples.length
    cpuPct := cpu
    memBytes := mem
    netRxBytes := spread (samples.map Sample.netRxBytes)
    netTxBytes := spread (samples.map Sample.netTxBytes)
    cpuThrottledMs := round3 (throttledMs (samples.map Sample.cpuThrottledNs))
  }, ?_, ⟨rfl, hcpu, hcpuOrdered, hmem, hmemOrdered, rfl, rfl, rfl⟩⟩
  simp only [aggregate, hcpu, hmem, hdelta, hthrottled, bind, Except.bind, pure, Except.pure]

/-- The report gives for each counter the sum of its increases, which is the last reading minus the first
if it does not fall. -/
structure CountsIncreases (samples : List Sample) (report : Aggregate) : Prop where
  rx : report.netRxBytes = counted (samples.map Sample.netRxBytes)
  tx : report.netTxBytes = counted (samples.map Sample.netTxBytes)
  throttled : throttledMs (samples.map Sample.cpuThrottledNs) =
    ((counted (samples.map Sample.cpuThrottledNs) : Int) : ℚ) / 10 ^ 6
  rounded : report.cpuThrottledMs = round3 (throttledMs (samples.map Sample.cpuThrottledNs))
  rx_rise : NeverFalls (samples.map Sample.netRxBytes) →
    report.netRxBytes = rise (samples.map Sample.netRxBytes)
  tx_rise : NeverFalls (samples.map Sample.netTxBytes) →
    report.netTxBytes = rise (samples.map Sample.netTxBytes)
  throttled_rise : NeverFalls (samples.map Sample.cpuThrottledNs) →
    throttledMs (samples.map Sample.cpuThrottledNs) =
      ((rise (samples.map Sample.cpuThrottledNs) : Int) : ℚ) / 10 ^ 6

/-- Counters count up from zero. -/
def CountersNonneg (samples : List Sample) : Prop :=
  ∀ s ∈ samples, 0 ≤ s.netRxBytes ∧ 0 ≤ s.netTxBytes ∧ 0 ≤ s.cpuThrottledNs

instance (samples : List Sample) : Decidable (CountersNonneg samples) :=
  List.decidableBAll (fun s : Sample => 0 ≤ s.netRxBytes ∧ 0 ≤ s.netTxBytes ∧ 0 ≤ s.cpuThrottledNs) samples

theorem throttledMs_eq_iff (throttle : List Int) :
    throttledMs throttle = ((counted throttle : Int) : ℚ) / 10 ^ 6 ↔ spread throttle = counted throttle := by
  rw [throttledMs_eq, div_left_inj' (by norm_num), Int.cast_inj]

/-- The report is right about the three counters exactly if the extremes of each tell what it counted. -/
theorem deltas_count_iff {samples : List Sample} (hnonneg : CountersNonneg samples) :
    (∃ report, aggregate samples = .ok report ∧ CountsIncreases samples report) ↔
      SpreadTells (samples.map Sample.netRxBytes) ∧ SpreadTells (samples.map Sample.netTxBytes) ∧
        SpreadTells (samples.map Sample.cpuThrottledNs) := by
  have hrx : ∀ reading ∈ samples.map Sample.netRxBytes, 0 ≤ reading :=
    List.forall_mem_map.mpr fun s hs => (hnonneg s hs).1
  have htx : ∀ reading ∈ samples.map Sample.netTxBytes, 0 ≤ reading :=
    List.forall_mem_map.mpr fun s hs => (hnonneg s hs).2.1
  have hthrottle : ∀ reading ∈ samples.map Sample.cpuThrottledNs, 0 ≤ reading :=
    List.forall_mem_map.mpr fun s hs => (hnonneg s hs).2.2
  obtain ⟨report, hreport, hspec⟩ := aggregate_spec samples
  rw [← spread_eq_counted_iff hrx, ← spread_eq_counted_iff htx, ← spread_eq_counted_iff hthrottle]
  constructor
  · rintro ⟨other, hother, hcounts⟩
    obtain rfl : report = other := Except.ok.inj (hreport.symm.trans hother)
    exact ⟨hspec.netRxBytes.symm.trans hcounts.rx, hspec.netTxBytes.symm.trans hcounts.tx,
      (throttledMs_eq_iff _).mp hcounts.throttled⟩
  · rintro ⟨hrx', htx', hthrottle'⟩
    refine ⟨report, hreport, ?_⟩
    exact {
      rx := hspec.netRxBytes.trans hrx'
      tx := hspec.netTxBytes.trans htx'
      throttled := (throttledMs_eq_iff _).mpr hthrottle'
      rounded := hspec.cpuThrottledMs
      rx_rise := fun h => hspec.netRxBytes.trans (spread_of_neverFalls h)
      tx_rise := fun h => hspec.netTxBytes.trans (spread_of_neverFalls h)
      throttled_rise := fun h => by rw [throttledMs_eq, spread_of_neverFalls h]
    }

/-! ### A restart in the window -/

/-- A sample at each second, of a container that receives and does nothing else. -/
def receiving (rx : List Int) : List Sample :=
  rx.zipIdx.map fun reading => ⟨reading.2, 0, 0, 0, 0, reading.1, 0, 0⟩

theorem deltas_count_steady :
    ∃ report, aggregate (receiving [100, 300, 350]) = .ok report ∧
      CountsIncreases (receiving [100, 300, 350]) report :=
  (deltas_count_iff (by decide)).mpr ⟨.inl (by decide), .inl (by decide), .inl (by decide)⟩

/-- 200 bytes before the restart and 80 after it are reported as 250. -/
theorem deltas_restart_lost :
    ¬ ∀ samples : List Sample, CountersNonneg samples →
      ∃ report, aggregate samples = .ok report ∧ CountsIncreases samples report := by
  intro h
  obtain ⟨report, hreport, hcounts⟩ := h (receiving [100, 300, 50, 80]) (by decide)
  obtain ⟨other, hother, hspec⟩ := aggregate_spec (receiving [100, 300, 50, 80])
  obtain rfl : report = other := Except.ok.inj (hreport.symm.trans hother)
  exact absurd (hspec.netRxBytes.symm.trans hcounts.rx) (by decide)

end ApigateBenchmark.LoadTests
