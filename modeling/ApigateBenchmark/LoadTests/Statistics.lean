import ApigateBenchmark.LoadTests.CollectResources
import Mathlib.Data.Int.ConditionallyCompleteOrder

/-!
# Summary statistics

All figures of `stats` but the average are points of one increasing broken line, the values in their
order joined by straight lines: the minimum is its start, the maximum its end, and the quantiles lie in
between. So they come in the order of their fractions, and they can only grow with the values.
-/

namespace ApigateBenchmark.LoadTests

open OrderStatistics Python

/-- The point of the line at a fraction of its length. -/
def quantile (xs : List ℚ) (q : ℚ) : ℚ := interpolate (atRank xs) (quantileIndex xs q)

/-! ### The indices -/

section

variable {xs : List ℚ} {p q : ℚ}

theorem length_sub_one_nonneg (hne : xs ≠ []) : 0 ≤ (xs.length : ℚ) - 1 := by
  have hpos : 1 ≤ xs.length := List.length_pos_iff.mpr hne
  rw [sub_nonneg]
  exact_mod_cast hpos

theorem quantileIndex_nonneg (hne : xs ≠ []) (hq : 0 ≤ q) : 0 ≤ quantileIndex xs q :=
  mul_nonneg (length_sub_one_nonneg hne) hq

theorem quantileIndex_mono (hne : xs ≠ []) (hpq : p ≤ q) : quantileIndex xs p ≤ quantileIndex xs q :=
  mul_le_mul_of_nonneg_left hpq (length_sub_one_nonneg hne)

theorem quantileIndex_zero (xs : List ℚ) : quantileIndex xs 0 = (0 : ℕ) := by
  rw [quantileIndex, mul_zero, Nat.cast_zero]

theorem quantileIndex_one (hne : xs ≠ []) : quantileIndex xs 1 = (xs.length - 1 : ℕ) := by
  have hpos : 1 ≤ xs.length := List.length_pos_iff.mpr hne
  rw [quantileIndex, mul_one, Nat.cast_sub hpos, Nat.cast_one]

theorem floor_quantileIndex_le (hne : xs ≠ []) (hq' : q ≤ 1) : ⌊quantileIndex xs q⌋₊ ≤ xs.length - 1 := by
  have hle := quantileIndex_mono hne hq'
  rw [quantileIndex_one hne] at hle
  exact Nat.floor_le_of_le hle

theorem lowerIndex_eq (hne : xs ≠ []) (hq : 0 ≤ q) : lowerIndex xs q = (⌊quantileIndex xs q⌋₊ : ℕ) := by
  have hidx := quantileIndex_nonneg hne hq
  rw [lowerIndex, GoTime.truncate_of_nonneg hidx, Int.natCast_floor_eq_floor hidx]

theorem upperIndex_eq (hne : xs ≠ []) (hq : 0 ≤ q) :
    upperIndex xs q = (min (⌊quantileIndex xs q⌋₊ + 1) (xs.length - 1) : ℕ) := by
  have hpos : 1 ≤ xs.length := List.length_pos_iff.mpr hne
  rw [upperIndex, lowerIndex_eq hne hq]
  omega

/-- Both indices are positions of the list. -/
theorem indices_inside (hne : xs ≠ []) (hq : 0 ≤ q) (hq' : q ≤ 1) :
    0 ≤ lowerIndex xs q ∧ lowerIndex xs q ≤ upperIndex xs q ∧ upperIndex xs q < xs.length := by
  have hpos : 1 ≤ xs.length := List.length_pos_iff.mpr hne
  have hfloor := floor_quantileIndex_le hne hq'
  rw [upperIndex_eq hne hq, lowerIndex_eq hne hq]
  omega

end

/-! ### The line -/

section

variable {xs : List ℚ}

theorem index_eq_atRank (hne : xs ≠ []) (n : ℕ) :
    index xs (min n (xs.length - 1) : ℕ) = .ok (atRank xs n) := by
  obtain ⟨hlt, hrank⟩ := atRank_eq hne n
  rw [index_eq hlt, hrank]

theorem quantileSorted_eq (hne : xs ≠ []) {q : ℚ} (hq : 0 ≤ q) (hq' : q ≤ 1) :
    quantileSorted xs q = .ok (quantile xs q) := by
  have hfloor := floor_quantileIndex_le hne hq'
  have hlower : index xs (lowerIndex xs q) = .ok (atRank xs ⌊quantileIndex xs q⌋₊) := by
    have h := index_eq_atRank hne ⌊quantileIndex xs q⌋₊
    rwa [min_eq_left hfloor, ← lowerIndex_eq hne hq] at h
  have hupper : index xs (upperIndex xs q) = .ok (atRank xs (⌊quantileIndex xs q⌋₊ + 1)) := by
    rw [upperIndex_eq hne hq, index_eq_atRank hne]
  rw [quantileSorted]
  simp only [hlower, hupper, bind, Except.bind, pure, Except.pure]
  rw [quantile, interpolate, lowerIndex_eq hne hq, Int.cast_natCast]

theorem index_first (hne : xs ≠ []) : index xs 0 = .ok (quantile xs 0) := by
  have h := index_eq_atRank hne 0
  rw [quantile, quantileIndex_zero, interpolate_natCast]
  simpa using h

theorem index_last (hne : xs ≠ []) : index xs (-1) = .ok (quantile xs 1) := by
  have hpos : 1 ≤ xs.length := List.length_pos_iff.mpr hne
  have hposition : index xs (-1) = index xs (xs.length - 1 : ℕ) := by
    have hneg : (-1 : Int) < 0 := by decide
    have hcast : (-1 : Int) + xs.length = (xs.length - 1 : ℕ) := by omega
    have hnat : ¬ ((xs.length - 1 : ℕ) : Int) < 0 := Int.not_lt.mpr (Int.natCast_nonneg _)
    simp only [index, if_pos hneg, hcast, if_neg hnat]
  have h := index_eq_atRank hne (xs.length - 1)
  rw [min_self] at h
  rw [quantile, quantileIndex_one hne, interpolate_natCast, hposition, h]

theorem quantile_mono (hne : xs ≠ []) (hsorted : xs.Pairwise (· ≤ ·)) {p q : ℚ} (hp : 0 ≤ p) (hpq : p ≤ q) :
    quantile xs p ≤ quantile xs q :=
  interpolate_mono (atRank_mono hsorted) (quantileIndex_nonneg hne hp) (quantileIndex_mono hne hpq)

theorem quantile_le_quantile {ys : List ℚ} (hne : xs ≠ []) (h : List.Forall₂ (· ≤ ·) xs ys) {q : ℚ}
    (hq : 0 ≤ q) : quantile xs q ≤ quantile ys q := by
  have hidx : quantileIndex ys q = quantileIndex xs q := by
    rw [quantileIndex, quantileIndex, h.length_eq]
  rw [quantile, quantile, hidx]
  exact interpolate_le_interpolate (atRank_le_atRank h) (quantileIndex_nonneg hne hq)

theorem quantile_zero_mem (hne : xs ≠ []) : quantile xs 0 ∈ xs := by
  obtain ⟨hlt, hrank⟩ := atRank_eq hne 0
  rw [quantile, quantileIndex_zero, interpolate_natCast, hrank]
  exact List.getElem_mem hlt

theorem quantile_one_mem (hne : xs ≠ []) : quantile xs 1 ∈ xs := by
  obtain ⟨hlt, hrank⟩ := atRank_eq hne (xs.length - 1)
  rw [quantile, quantileIndex_one hne, interpolate_natCast, hrank]
  exact List.getElem_mem hlt

/-- The ends of the line are the bounds of the list. -/
theorem mem_between (hne : xs ≠ []) (hsorted : xs.Pairwise (· ≤ ·)) {x : ℚ} (hx : x ∈ xs) :
    quantile xs 0 ≤ x ∧ x ≤ quantile xs 1 := by
  obtain ⟨i, hi, rfl⟩ := List.getElem_of_mem hx
  have hrank : atRank xs i = xs[i] := by
    obtain ⟨hlt, h⟩ := atRank_eq hne i
    have hmin : min i (xs.length - 1) = i := by omega
    simpa only [hmin] using h
  rw [quantile, quantile, quantileIndex_zero, quantileIndex_one hne, interpolate_natCast,
    interpolate_natCast, ← hrank]
  exact ⟨atRank_mono hsorted (Nat.zero_le i), atRank_mono hsorted (by omega)⟩

end

/-! ### The average -/

def average (xs : List ℚ) : ℚ := xs.sum / xs.length

theorem length_pos_cast {xs : List ℚ} (hne : xs ≠ []) : (0 : ℚ) < xs.length :=
  Nat.cast_pos.mpr (List.length_pos_iff.mpr hne)

theorem le_average {xs : List ℚ} (hne : xs ≠ []) {bound : ℚ} (h : ∀ x ∈ xs, bound ≤ x) :
    bound ≤ average xs := by
  have hsum := List.card_nsmul_le_sum xs bound h
  rw [average, le_div_iff₀ (length_pos_cast hne), mul_comm, ← nsmul_eq_mul]
  exact hsum

theorem average_le {xs : List ℚ} (hne : xs ≠ []) {bound : ℚ} (h : ∀ x ∈ xs, x ≤ bound) :
    average xs ≤ bound := by
  have hsum := List.sum_le_card_nsmul xs bound h
  rw [average, div_le_iff₀ (length_pos_cast hne), mul_comm, ← nsmul_eq_mul]
  exact hsum

theorem average_le_average {xs ys : List ℚ} (h : List.Forall₂ (· ≤ ·) xs ys) : average xs ≤ average ys := by
  rw [average, average, h.length_eq]
  exact div_le_div_of_nonneg_right h.sum_le_sum (Nat.cast_nonneg _)

/-! ### The figures -/

section

variable {β : Type} (fmt : ℚ → β)

/-- The figures of a list in its order. -/
def figures (srt : List ℚ) : Stats β where
  min := fmt (quantile srt 0)
  avg := fmt (average srt)
  p50 := fmt (quantile srt (50 / 100))
  p95 := fmt (quantile srt (95 / 100))
  p99 := fmt (quantile srt (99 / 100))
  max := fmt (quantile srt 1)

theorem stats_eq {values : List ℚ} (hne : values ≠ []) :
    stats fmt values = .ok (figures fmt (values.insertionSort (· ≤ ·))) := by
  have hsrt := insertionSort_ne_nil hne
  have hquantile : ∀ q : ℚ, 0 ≤ q → q ≤ 1 →
      quantileSorted (values.insertionSort (· ≤ ·)) q = .ok (quantile (values.insertionSort (· ≤ ·)) q) :=
    fun q hq hq' => quantileSorted_eq hsrt hq hq'
  rw [stats, if_neg hne]
  simp only [index_first hsrt, index_last hsrt, hquantile (50 / 100) (by norm_num) (by norm_num),
    hquantile (95 / 100) (by norm_num) (by norm_num), hquantile (99 / 100) (by norm_num) (by norm_num),
    bind, Except.bind, pure, Except.pure]
  rfl

end

/-- The figures come in the order of their names. -/
structure Stats.Ordered {β : Type} [LE β] (s : Stats β) : Prop where
  min_le_p50 : s.min ≤ s.p50
  p50_le_p95 : s.p50 ≤ s.p95
  p95_le_p99 : s.p95 ≤ s.p99
  p99_le_max : s.p99 ≤ s.max
  min_le_avg : s.min ≤ s.avg
  avg_le_max : s.avg ≤ s.max

/-- No figure is above the one of the other summary. -/
structure Stats.Below {β : Type} [LE β] (s t : Stats β) : Prop where
  min : s.min ≤ t.min
  avg : s.avg ≤ t.avg
  p50 : s.p50 ≤ t.p50
  p95 : s.p95 ≤ t.p95
  p99 : s.p99 ≤ t.p99
  max : s.max ≤ t.max

section

variable {β : Type} [Preorder β] {fmt : ℚ → β} (hfmt : Monotone fmt)

include hfmt

theorem figures_ordered {srt : List ℚ} (hne : srt ≠ []) (hsorted : srt.Pairwise (· ≤ ·)) :
    (figures fmt srt).Ordered := by
  have hmono : ∀ p q : ℚ, 0 ≤ p → p ≤ q → fmt (quantile srt p) ≤ fmt (quantile srt q) :=
    fun p q hp hpq => hfmt (quantile_mono hne hsorted hp hpq)
  exact {
    min_le_p50 := hmono _ _ le_rfl (by norm_num)
    p50_le_p95 := hmono _ _ (by norm_num) (by norm_num)
    p95_le_p99 := hmono _ _ (by norm_num) (by norm_num)
    p99_le_max := hmono _ _ (by norm_num) (by norm_num)
    min_le_avg := hfmt (le_average hne fun x hx => (mem_between hne hsorted hx).1)
    avg_le_max := hfmt (average_le hne fun x hx => (mem_between hne hsorted hx).2)
  }

theorem figures_below {xs ys : List ℚ} (hne : xs ≠ []) (h : List.Forall₂ (· ≤ ·) xs ys) :
    (figures fmt xs).Below (figures fmt ys) := by
  have hgrow : ∀ q : ℚ, 0 ≤ q → fmt (quantile xs q) ≤ fmt (quantile ys q) :=
    fun q hq => hfmt (quantile_le_quantile hne h hq)
  exact {
    min := hgrow _ le_rfl
    avg := hfmt (average_le_average h)
    p50 := hgrow _ (by norm_num)
    p95 := hgrow _ (by norm_num)
    p99 := hgrow _ (by norm_num)
    max := hgrow _ (by norm_num)
  }

/-- Of an empty list too the figures come in order. -/
theorem stats_ordered (values : List ℚ) : ∃ s, stats fmt values = .ok s ∧ s.Ordered := by
  by_cases hne : values = []
  · exact ⟨_, by rw [stats, if_pos hne], ⟨le_rfl, le_rfl, le_rfl, le_rfl, le_rfl, le_rfl⟩⟩
  · have hsorted := List.pairwise_insertionSort (· ≤ ·) values
    exact ⟨_, stats_eq fmt hne, figures_ordered hfmt (insertionSort_ne_nil hne) hsorted⟩

end

/-! ### What a summary promises -/

/-- The summary depends on the values as a whole, and grows with them. -/
structure Summarizes {β : Type} [Preorder β] (fmt : ℚ → β) (values : List ℚ) (s : Stats β) : Prop where
  ordered : s.Ordered
  permuted : ∀ permuted, values.Perm permuted → stats fmt permuted = .ok s
  min_mem : ∃ value ∈ values, s.min = fmt value
  max_mem : ∃ value ∈ values, s.max = fmt value
  grows : ∀ larger, List.Forall₂ (· ≤ ·) values larger → ∃ t, stats fmt larger = .ok t ∧ s.Below t

/-- On a list that is not empty the interpolation stays inside, and if the list is sorted it grows with
the fraction. -/
structure Interpolates (xs : List ℚ) : Prop where
  inside : ∀ q, 0 ≤ q → q ≤ 1 →
    0 ≤ lowerIndex xs q ∧ lowerIndex xs q ≤ upperIndex xs q ∧ upperIndex xs q < xs.length
  increasing : xs.Pairwise (· ≤ ·) → ∀ p q, 0 ≤ p → p ≤ q → q ≤ 1 →
    ∃ a b, quantileSorted xs p = .ok a ∧ quantileSorted xs q = .ok b ∧ a ≤ b

theorem interpolates {xs : List ℚ} (hne : xs ≠ []) : Interpolates xs where
  inside := fun _ hq hq' => indices_inside hne hq hq'
  increasing := fun hsorted _ _ hp hpq hq =>
    ⟨_, _, quantileSorted_eq hne hp (hpq.trans hq), quantileSorted_eq hne (hp.trans hpq) hq,
      quantile_mono hne hsorted hp hpq⟩

theorem stats_summarizes {β : Type} [Preorder β] {fmt : ℚ → β} (hfmt : Monotone fmt) {values : List ℚ}
    (hne : values ≠ []) :
    (∃ s, stats fmt values = .ok s ∧ Summarizes fmt values s) ∧ Interpolates values := by
  have hsorted := List.pairwise_insertionSort (· ≤ ·) values
  have hperm := List.perm_insertionSort (· ≤ ·) values
  have hsrt := insertionSort_ne_nil hne
  refine ⟨⟨_, stats_eq fmt hne, ?_⟩, interpolates hne⟩
  exact {
    ordered := figures_ordered hfmt hsrt hsorted
    permuted := by
      intro permuted h
      have hne' : permuted ≠ [] := fun hnil => hne (List.perm_nil.mp (hnil ▸ h))
      rw [stats_eq fmt hne', insertionSort_eq_of_perm h]
    min_mem := ⟨_, hperm.mem_iff.mp (quantile_zero_mem hsrt), rfl⟩
    max_mem := ⟨_, hperm.mem_iff.mp (quantile_one_mem hsrt), rfl⟩
    grows := by
      intro larger h
      have hne' : larger ≠ [] := by
        rintro rfl
        exact hne (List.forall₂_nil_right_iff.mp h)
      exact ⟨_, stats_eq fmt hne', figures_below hfmt hsrt (forall₂_insertionSort h)⟩
  }

/-! ### The two formats -/

theorem round3_mono : Monotone round3 := by
  intro x y hxy
  have hround := GoTime.roundEven_mono (mul_le_mul_of_nonneg_right hxy (by norm_num : (0 : ℚ) ≤ 1000))
  exact div_le_div_of_nonneg_right (Int.cast_le.mpr hround) (by norm_num)

theorem truncate_mono : Monotone GoTime.truncate := fun _ _ hxy => GoTime.truncate_mono hxy

theorem stats_summarizes_round3 :
    (∃ s, stats round3 [3, 1, 2] = .ok s ∧ Summarizes round3 [3, 1, 2] s) ∧ Interpolates [3, 1, 2] :=
  stats_summarizes round3_mono (by decide)

end ApigateBenchmark.LoadTests
