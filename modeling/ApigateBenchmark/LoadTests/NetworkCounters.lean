import ApigateBenchmark.LoadTests.CounterDeltas
import ApigateBenchmark.LoadTests.Entries
import Mathlib.Algebra.Order.Monoid.Prod

/-!
# The source of the network counters

`_sum_network` takes the top-level counters of an entry when one of them is not zero, and otherwise the
sum over the interfaces. Where cAdvisor populates the top level with the first interface, the source
changes once that interface has seen its first byte, and what the other interfaces have counted is gone
from one sample to the next.
-/

namespace ApigateBenchmark.LoadTests

open CumulativeCounter Python

variable {python : Interpreter}

/-! ### The series -/

/-- The same interfaces, and none has counted backwards. -/
def Advances (prev cur : Value) : Prop :=
  List.Forall₂ (fun before after => before.field? "name" = after.field? "name" ∧
    interfaceTraffic before ≤ interfaceTraffic after) (interfacesOf prev) (interfacesOf cur)

/-- The top-level counters are those of the first interface. -/
def MirrorsFirst (entry : Value) : Prop :=
  ∃ first rest, interfacesOf entry = first :: rest ∧ topTraffic entry = interfaceTraffic first

structure NetworkSeries (python : Interpreter) (raw : List Value) : Prop where
  entries : ∀ entry ∈ raw, IsEntry python entry
  advances : raw.IsChain Advances
  topLevel : (∀ entry ∈ raw, topTraffic entry = (0, 0)) ∨ ∀ entry ∈ raw, MirrorsFirst entry

/-- When the top-level counters leave zero, they start above what the interfaces have counted so far. -/
def SourceKept (prev cur : Value) : Prop :=
  topTraffic prev = (0, 0) → topTraffic cur ≠ (0, 0) → totalTraffic (interfacesOf prev) ≤ topTraffic cur

instance (prev cur : Value) : Decidable (SourceKept prev cur) :=
  inferInstanceAs (Decidable (_ → _ → _))

/-! ### One step -/

theorem totalTraffic_mono {prev cur : Value} (h : Advances prev cur) :
    totalTraffic (interfacesOf prev) ≤ totalTraffic (interfacesOf cur) := by
  rw [totalTraffic, totalTraffic]
  refine List.Forall₂.sum_le_sum ?_
  rw [List.forall₂_map_left_iff, List.forall₂_map_right_iff]
  exact h.imp fun _ _ hsame => hsame.2

theorem topTraffic_mono {prev cur : Value} (h : Advances prev cur) (hprev : MirrorsFirst prev)
    (hcur : MirrorsFirst cur) : topTraffic prev ≤ topTraffic cur := by
  obtain ⟨before, others, hinterfaces, htop⟩ := hprev
  obtain ⟨after, others', hinterfaces', htop'⟩ := hcur
  rw [Advances, hinterfaces, hinterfaces'] at h
  obtain _ | ⟨hfirst, -⟩ := h
  rw [htop, htop']
  exact hfirst.2

theorem networkTraffic_le_iff {raw : List Value} (hseries : NetworkSeries python raw) {prev cur : Value}
    (hprev : prev ∈ raw) (hcur : cur ∈ raw) (hadvances : Advances prev cur) :
    networkTraffic prev ≤ networkTraffic cur ↔ SourceKept prev cur := by
  rw [networkTraffic, networkTraffic, SourceKept]
  by_cases hzero : topTraffic prev = (0, 0)
  · rw [if_pos hzero, forall_prop_of_true hzero]
    by_cases hzero' : topTraffic cur = (0, 0)
    · rw [if_pos hzero']
      exact iff_of_true (totalTraffic_mono hadvances) fun h => absurd hzero' h
    · rw [if_neg hzero', forall_prop_of_true hzero']
  · -- the top level is populated, and has counted already
    have hmirrors := hseries.topLevel.resolve_left fun h => hzero (h prev hprev)
    have hmono := topTraffic_mono hadvances (hmirrors prev hprev) (hmirrors cur hcur)
    have hzero' : topTraffic cur ≠ (0, 0) := by
      intro h
      rw [h] at hmono
      exact hzero (le_antisymm hmono (Prod.mk_le_mk.mpr ⟨Nat.zero_le _, Nat.zero_le _⟩))
    rw [if_neg hzero, if_neg hzero']
    exact iff_of_true hmono fun h => absurd h hzero

/-! ### The samples -/

/-- The network counters of the samples never fall, and are reported as the last minus the first. -/
structure NetworkMonotone (samples : List Sample) : Prop where
  rx : NeverFalls (samples.map Sample.netRxBytes)
  tx : NeverFalls (samples.map Sample.netTxBytes)
  report : ∃ report, aggregate samples = .ok report ∧
    report.netRxBytes = rise (samples.map Sample.netRxBytes) ∧
    report.netTxBytes = rise (samples.map Sample.netTxBytes)

theorem networkMonotone_iff (samples : List Sample) :
    NetworkMonotone samples ↔
      NeverFalls (samples.map Sample.netRxBytes) ∧ NeverFalls (samples.map Sample.netTxBytes) := by
  constructor
  · intro h
    exact ⟨h.rx, h.tx⟩
  · rintro ⟨hrx, htx⟩
    obtain ⟨report, hreport, hspec⟩ := aggregate_spec samples
    exact ⟨hrx, htx, report, hreport, hspec.netRxBytes.trans (spread_of_neverFalls hrx),
      hspec.netTxBytes.trans (spread_of_neverFalls htx)⟩

/-- A sample has the traffic of the later of its entries. -/
theorem neverFalls_samples_iff (python : Interpreter) (raw : List Value) :
    NeverFalls ((samplesOf python raw).map Sample.netRxBytes) ∧
        NeverFalls ((samplesOf python raw).map Sample.netTxBytes) ↔
      raw.tail.IsChain fun prev cur => networkTraffic prev ≤ networkTraffic cur := by
  have hrx := map_samplesOf python Sample.netRxBytes
    (fun entry => ((networkTraffic entry.2).1 : Int)) (fun _ => rfl) raw
  have htx := map_samplesOf python Sample.netTxBytes
    (fun entry => ((networkTraffic entry.2).2 : Int)) (fun _ => rfl) raw
  rw [hrx, htx, NeverFalls, NeverFalls, List.isChain_map, List.isChain_map, ← isChain_and]
  refine List.IsChain.iff fun prev cur => ?_
  rw [Int.ofNat_le, Int.ofNat_le]
  exact Prod.le_def.symm

theorem network_monotone_iff {raw : List Value} (hseries : NetworkSeries python raw) :
    (∃ samples, toSamples python (.list raw) = .ok samples ∧ NetworkMonotone samples) ↔
      raw.tail.IsChain SourceKept := by
  have hchain := isChain_congr hseries.advances.tail fun prev hprev cur hcur hadvances =>
    networkTraffic_le_iff hseries (List.mem_of_mem_tail hprev) (List.mem_of_mem_tail hcur) hadvances
  rw [toSamples_eq hseries.entries, ← hchain, ← neverFalls_samples_iff python]
  constructor
  · rintro ⟨samples, hsamples, hmonotone⟩
    rw [← networkMonotone_iff]
    cases hsamples
    exact hmonotone
  · intro h
    exact ⟨_, rfl, (networkMonotone_iff _).mpr h⟩

/-! ### An interface that wakes up -/

theorem advances_entryValue {ts ts' : String} {total total' : ℕ} {top top' : Traffic}
    {ifaces ifaces' : List (String × Traffic)}
    (h : List.Forall₂ (fun before after => before.1 = after.1 ∧ before.2 ≤ after.2) ifaces ifaces') :
    Advances (entryValue ts total top ifaces) (entryValue ts' total' top' ifaces') := by
  change List.Forall₂ _ (ifaces.map interfaceValue) (ifaces'.map interfaceValue)
  rw [List.forall₂_map_left_iff, List.forall₂_map_right_iff]
  refine h.imp fun before after hsame => ⟨?_, hsame.2⟩
  change some (Value.str (str before.1)) = some (Value.str (str after.1))
  rw [hsame.1]

/-- The counters of two interfaces, the first of them at the top level as well. -/
def twoInterfaces (first second : Traffic) : ℕ × Traffic × List (String × Traffic) :=
  (0, first, [("eth0", first), ("eth1", second)])

theorem networkSeries_two {first first' first'' second second' second'' : Traffic} (h : first ≤ first')
    (h' : first' ≤ first'') (k : second ≤ second') (k' : second' ≤ second'') :
    NetworkSeries newYearInterpreter (newYearSeries
      [twoInterfaces first second, twoInterfaces first' second', twoInterfaces first'' second'']) where
  entries := isEntry_newYearSeries _
  advances := .cons_cons (advances_entryValue (.cons ⟨rfl, h⟩ (.cons ⟨rfl, k⟩ .nil)))
    (.cons_cons (advances_entryValue (.cons ⟨rfl, h'⟩ (.cons ⟨rfl, k'⟩ .nil))) (.singleton _))
  topLevel := by
    right
    intro entry hentry
    obtain ⟨row, hrow, rfl⟩ := List.mem_map.mp hentry
    have hrows := (List.of_mem_zip hrow).2
    have hshape : ∃ first second, row.2 = twoInterfaces first second := by
      simp only [List.mem_cons, List.not_mem_nil, or_false] at hrows
      obtain hrow | hrow | hrow := hrows
      · exact ⟨_, _, hrow⟩
      · exact ⟨_, _, hrow⟩
      · exact ⟨_, _, hrow⟩
    obtain ⟨one, other, hshape⟩ := hshape
    rw [hshape]
    exact ⟨_, _, rfl, rfl⟩

def busySeries : List Value :=
  newYearSeries [twoInterfaces (5, 1) (500, 0), twoInterfaces (6, 1) (1000, 0), twoInterfaces (10, 2) (1500, 0)]

theorem network_monotone_busy :
    ∃ samples, toSamples newYearInterpreter (.list busySeries) = .ok samples ∧ NetworkMonotone samples :=
  (network_monotone_iff (networkSeries_two (by decide) (by decide) (by decide) (by decide))).mpr
    (by decide +kernel)

/-- The first interface receives its first bytes between the last two entries. -/
def wakingSeries : List Value :=
  newYearSeries [twoInterfaces (0, 0) (500, 0), twoInterfaces (0, 0) (1000, 0), twoInterfaces (10, 0) (1500, 0)]

/-- 1000 bytes of the second interface are gone when the first receives 10. -/
theorem network_falls_on_waking :
    ¬ ∀ (python : Interpreter) (raw : List Value), NetworkSeries python raw →
      ∃ samples, toSamples python (.list raw) = .ok samples ∧ NetworkMonotone samples := by
  intro h
  have hseries : NetworkSeries newYearInterpreter wakingSeries :=
    networkSeries_two (by decide) (by decide) (by decide) (by decide)
  obtain ⟨samples, hsamples, hmonotone⟩ := h newYearInterpreter wakingSeries hseries
  obtain rfl : samplesOf newYearInterpreter wakingSeries = samples :=
    Except.ok.inj ((toSamples_eq hseries.entries).symm.trans hsamples)
  have hchain := (neverFalls_samples_iff newYearInterpreter wakingSeries).mp ⟨hmonotone.rx, hmonotone.tx⟩
  exact absurd hchain (by decide +kernel)

end ApigateBenchmark.LoadTests
