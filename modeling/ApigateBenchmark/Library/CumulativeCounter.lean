import Mathlib.Algebra.Order.Ring.Defs
import Mathlib.Data.List.Chain
import Mathlib.Data.List.MinMax
import Mathlib.Tactic.Linarith
import Mathlib.Tactic.Ring

/-!
# Cumulative counters

A counter counts up from zero and may restart. What it has counted over a series of readings is the sum
of its increases, where a reading below the one before it is an increase from zero. A series is taken
apart at its first fall: up to there it climbs from the first reading to a crest, and what it counts
after that it counts from zero. The distance of the highest reading from the lowest is what was counted
if the counter never falls, and otherwise only by coincidence.
-/

namespace CumulativeCounter

variable {α : Type*}

/-! ### From one reading to the next -/

theorem isChain_and {R S : α → α → Prop} (l : List α) :
    l.IsChain (fun x y => R x y ∧ S x y) ↔ l.IsChain R ∧ l.IsChain S := by
  induction l with
  | nil => exact iff_of_true .nil ⟨.nil, .nil⟩
  | cons x rest ih =>
      cases rest with
      | nil => exact iff_of_true (.singleton x) ⟨.singleton x, .singleton x⟩
      | cons y rest =>
          rw [List.isChain_cons_cons, List.isChain_cons_cons, List.isChain_cons_cons, ih]
          exact and_and_and_comm

/-- Two relations that agree on every step of the list. -/
theorem isChain_congr {P R S : α → α → Prop} {l : List α} (hP : l.IsChain P)
    (h : ∀ x ∈ l, ∀ y ∈ l, P x y → (R x y ↔ S x y)) : l.IsChain R ↔ l.IsChain S := by
  have hforget : ∀ T : α → α → Prop, l.IsChain T ↔ l.IsChain fun x y => P x y ∧ T x y := by
    intro T
    rw [isChain_and, and_iff_right hP]
  rw [hforget R, hforget S]
  exact List.IsChain.iff_of_mem_imp fun x y hx hy => and_congr_right fun hxy => h x hx y hy hxy

/-! ### The first fall -/

section

variable [LinearOrder α]

def NeverFalls (readings : List α) : Prop := readings.IsChain (· ≤ ·)

instance (readings : List α) : Decidable (NeverFalls readings) :=
  inferInstanceAs (Decidable (readings.IsChain (· ≤ ·)))

/-- The last reading before the counter first falls. -/
def crest : α → List α → α
  | first, [] => first
  | first, next :: rest => if first ≤ next then crest next rest else first

/-- The readings from the first fall on. -/
def sinceFall : α → List α → List α
  | _, [] => []
  | first, next :: rest => if first ≤ next then sinceFall next rest else next :: rest

theorem le_crest (first : α) (rest : List α) : first ≤ crest first rest := by
  induction rest generalizing first with
  | nil => exact le_rfl
  | cons next rest ih =>
      rw [crest]
      split
      · rename_i hle
        exact hle.trans (ih next)
      · exact le_rfl

/-- What comes before the first fall lies between the first reading and the crest. -/
theorem between_or_mem_sinceFall {first reading : α} {rest : List α} (h : reading ∈ first :: rest) :
    (first ≤ reading ∧ reading ≤ crest first rest) ∨ reading ∈ sinceFall first rest := by
  induction rest generalizing first with
  | nil =>
      obtain rfl := List.mem_singleton.mp h
      exact .inl ⟨le_rfl, le_rfl⟩
  | cons next rest ih =>
      rw [crest, sinceFall]
      split
      · rename_i hle
        obtain rfl | hmem := List.mem_cons.mp h
        · exact .inl ⟨le_rfl, hle.trans (le_crest next rest)⟩
        · exact (ih hmem).imp_left fun hbetween => ⟨hle.trans hbetween.1, hbetween.2⟩
      · obtain rfl | hmem := List.mem_cons.mp h
        · exact .inl ⟨le_rfl, le_rfl⟩
        · exact .inr hmem

theorem sinceFall_subset (first : α) (rest : List α) : sinceFall first rest ⊆ first :: rest := by
  induction rest generalizing first with
  | nil => exact List.nil_subset _
  | cons next rest ih =>
      rw [sinceFall]
      split
      · exact List.subset_cons_of_subset _ (ih next)
      · exact List.subset_cons_self _ _

theorem crest_mem (first : α) (rest : List α) : crest first rest ∈ first :: rest := by
  induction rest generalizing first with
  | nil => exact List.mem_singleton_self first
  | cons next rest ih =>
      rw [crest]
      split
      · exact List.mem_cons_of_mem _ (ih next)
      · exact List.mem_cons_self

theorem neverFalls_iff_sinceFall (first : α) (rest : List α) :
    NeverFalls (first :: rest) ↔ sinceFall first rest = [] := by
  induction rest generalizing first with
  | nil => exact iff_of_true (List.isChain_singleton first) rfl
  | cons next rest ih =>
      rw [NeverFalls, List.isChain_cons_cons, sinceFall]
      split
      · rename_i hle
        rw [and_iff_right hle]
        exact ih next
      · rename_i hfall
        exact iff_of_false (fun h => hfall h.1) (List.cons_ne_nil _ _)

/-- At the first fall the counter goes below its crest. -/
theorem head_sinceFall_lt {first next : α} {rest tail : List α} (h : sinceFall first rest = next :: tail) :
    next < crest first rest := by
  induction rest generalizing first with
  | nil => cases h
  | cons second rest ih =>
      rw [sinceFall] at h
      rw [crest]
      split at h
      · rename_i hle
        rw [if_pos hle]
        exact ih h
      · rename_i hfall
        rw [if_neg hfall]
        cases h
        exact not_le.mp hfall

theorem crest_of_neverFalls {first : α} {rest : List α} (h : NeverFalls (first :: rest)) :
    crest first rest = (first :: rest).getLast (List.cons_ne_nil first rest) := by
  induction rest generalizing first with
  | nil => rfl
  | cons next rest ih =>
      obtain ⟨hle, hrest⟩ := List.isChain_cons_cons.mp h
      rw [crest, if_pos hle, ih hrest, List.getLast_cons (List.cons_ne_nil next rest)]

end

/-! ### Increases -/

variable [CommRing α] [LinearOrder α]

def increase (prev cur : α) : α := if prev ≤ cur then cur - prev else cur

/-- The sum of the increases from each reading to the next. -/
def counted : List α → α
  | [] => 0
  | [_] => 0
  | prev :: cur :: rest => increase prev cur + counted (cur :: rest)

/-- What a counter that starts at zero has counted. -/
def countedFromZero : List α → α
  | [] => 0
  | first :: rest => first + counted (first :: rest)

def highest (readings : List α) : α := readings.max?.getD 0

def lowest (readings : List α) : α := readings.min?.getD 0

/-- The last reading minus the first. -/
def rise (readings : List α) : α := readings.getLast?.getD 0 - readings.head?.getD 0

/-- The distance of the highest reading from the lowest. -/
def spread (readings : List α) : α := highest readings - lowest readings

theorem highest_mem {readings : List α} (h : readings ≠ []) : highest readings ∈ readings := by
  obtain ⟨first, rest, rfl⟩ := List.exists_cons_of_ne_nil h
  exact (List.max?_eq_some_iff.mp rfl).1

theorem le_highest {readings : List α} {reading : α} (h : reading ∈ readings) :
    reading ≤ highest readings := by
  cases readings with
  | nil => exact absurd h List.not_mem_nil
  | cons first rest => exact (List.max?_eq_some_iff.mp rfl).2 reading h

theorem lowest_mem {readings : List α} (h : readings ≠ []) : lowest readings ∈ readings := by
  obtain ⟨first, rest, rfl⟩ := List.exists_cons_of_ne_nil h
  exact (List.min?_eq_some_iff.mp rfl).1

theorem lowest_le {readings : List α} {reading : α} (h : reading ∈ readings) :
    lowest readings ≤ reading := by
  cases readings with
  | nil => exact absurd h List.not_mem_nil
  | cons first rest => exact (List.min?_eq_some_iff.mp rfl).2 reading h

theorem spread_nil : spread ([] : List α) = 0 := sub_self 0

theorem counted_cons (first : α) (rest : List α) :
    counted (first :: rest) = crest first rest - first + countedFromZero (sinceFall first rest) := by
  induction rest generalizing first with
  | nil => simp only [crest, sinceFall, countedFromZero, counted, sub_self, add_zero]
  | cons next rest ih =>
      rw [counted, increase, crest, sinceFall]
      split
      · rw [ih next]
        ring
      · rw [countedFromZero, sub_self, zero_add]

/-! ### Readings that are not negative -/

section

variable [IsStrictOrderedRing α]

theorem increase_nonneg {prev cur : α} (h : 0 ≤ cur) : 0 ≤ increase prev cur := by
  rw [increase]
  split
  · rename_i hle
    exact sub_nonneg.mpr hle
  · exact h

theorem counted_nonneg {readings : List α} (h : ∀ reading ∈ readings, 0 ≤ reading) : 0 ≤ counted readings := by
  induction readings with
  | nil => exact le_rfl
  | cons prev rest ih =>
      cases rest with
      | nil => exact le_rfl
      | cons cur rest =>
          have hrest := List.forall_mem_of_forall_mem_cons h
          exact add_nonneg (increase_nonneg (hrest cur List.mem_cons_self)) (ih hrest)

/-- A counter that starts at zero has counted at least what it shows. -/
theorem le_countedFromZero {readings : List α} (h : ∀ reading ∈ readings, 0 ≤ reading) {reading : α}
    (hmem : reading ∈ readings) : reading ≤ countedFromZero readings := by
  induction readings generalizing reading with
  | nil => exact absurd hmem List.not_mem_nil
  | cons first rest ih =>
      have hrest := List.forall_mem_of_forall_mem_cons h
      rw [countedFromZero]
      obtain rfl | hlater := List.mem_cons.mp hmem
      · exact le_add_of_nonneg_right (counted_nonneg h)
      · cases rest with
        | nil => exact absurd hlater List.not_mem_nil
        | cons next rest =>
            have hnext := ih hrest hlater
            have hfirst := h first List.mem_cons_self
            rw [countedFromZero] at hnext
            rw [counted, increase]
            split
            · linarith
            · linarith

end

/-! ### The spread of a series -/

/-- The series falls, and what its extremes are apart happens to be what was counted: what it has counted
since its first fall, from zero, and its lowest reading since then make up the first reading; or it stood
still before it fell, has been at zero since, and has counted since then what its highest reading since
then is, which is no lower than the first. -/
def Coincides (first : α) (rest : List α) : Prop :=
  sinceFall first rest ≠ [] ∧
    (countedFromZero (sinceFall first rest) + lowest (sinceFall first rest) = first ∨
      (crest first rest = first ∧ lowest (sinceFall first rest) = 0 ∧
        countedFromZero (sinceFall first rest) = highest (sinceFall first rest) ∧
        first ≤ highest (sinceFall first rest)))

instance (first : α) (rest : List α) : Decidable (Coincides first rest) :=
  inferInstanceAs (Decidable (sinceFall first rest ≠ [] ∧ (_ ∨ _)))

/-- The extremes of the series tell what was counted. -/
def SpreadTells : List α → Prop
  | [] => True
  | first :: rest => NeverFalls (first :: rest) ∨ Coincides first rest

instance (readings : List α) : Decidable (SpreadTells readings) :=
  match readings with
  | [] => isTrue trivial
  | first :: rest => inferInstanceAs (Decidable (NeverFalls (first :: rest) ∨ Coincides first rest))

theorem rise_cons_of_neverFalls {first : α} {rest : List α} (h : NeverFalls (first :: rest)) :
    rise (first :: rest) = crest first rest - first := by
  rw [rise, List.getLast?_eq_some_getLast (List.cons_ne_nil first rest), crest_of_neverFalls h]
  rfl

theorem counted_of_neverFalls {readings : List α} (h : NeverFalls readings) :
    counted readings = rise readings := by
  cases readings with
  | nil => exact (sub_self 0).symm
  | cons first rest =>
      rw [rise_cons_of_neverFalls h, counted_cons, (neverFalls_iff_sinceFall first rest).mp h,
        countedFromZero, add_zero]

theorem spread_of_neverFalls {readings : List α} (h : NeverFalls readings) :
    spread readings = rise readings := by
  cases readings with
  | nil => rfl
  | cons first rest =>
      have hbetween : ∀ reading ∈ first :: rest, first ≤ reading ∧ reading ≤ crest first rest := by
        intro reading hmem
        refine (between_or_mem_sinceFall hmem).resolve_right ?_
        rw [(neverFalls_iff_sinceFall first rest).mp h]
        exact List.not_mem_nil
      have hhighest : highest (first :: rest) = crest first rest :=
        le_antisymm (hbetween _ (highest_mem (List.cons_ne_nil _ _))).2 (le_highest (crest_mem first rest))
      have hlowest : lowest (first :: rest) = first :=
        le_antisymm (lowest_le List.mem_cons_self) (hbetween _ (lowest_mem (List.cons_ne_nil _ _))).1
      rw [spread, hhighest, hlowest, rise_cons_of_neverFalls h]

/-- The highest reading is the crest, unless it comes after the first fall. -/
theorem highest_eq_max (first : α) (rest : List α) (hfalls : sinceFall first rest ≠ []) :
    highest (first :: rest) = max (crest first rest) (highest (sinceFall first rest)) := by
  apply le_antisymm
  · obtain hbetween | hmem := between_or_mem_sinceFall (highest_mem (List.cons_ne_nil first rest))
    · exact le_max_of_le_left hbetween.2
    · exact le_max_of_le_right (le_highest hmem)
  · exact max_le (le_highest (crest_mem first rest))
      (le_highest (sinceFall_subset first rest (highest_mem hfalls)))

theorem lowest_eq_min (first : α) (rest : List α) (hfalls : sinceFall first rest ≠ []) :
    lowest (first :: rest) = min first (lowest (sinceFall first rest)) := by
  apply le_antisymm
  · exact le_min (lowest_le List.mem_cons_self)
      (lowest_le (sinceFall_subset first rest (lowest_mem hfalls)))
  · obtain hbetween | hmem := between_or_mem_sinceFall (lowest_mem (List.cons_ne_nil first rest))
    · exact min_le_of_left_le hbetween.1
    · exact min_le_of_right_le (lowest_le hmem)

section

variable [IsStrictOrderedRing α]

/-- The arithmetic of a counter that has fallen: `top` is its reading before the fall, and since the fall
it has been between `low` and `high` and has counted `since`. -/
theorem span_eq_iff {first top low high since : α} (hfirst : 0 ≤ first) (hlow : 0 ≤ low)
    (hspan : low ≤ high) (hhigh : high ≤ since) (hcrest : first ≤ top) (hfall : low < top) :
    max top high - min first low = top - first + since ↔
      since + low = first ∨ (top = first ∧ low = 0 ∧ since = high ∧ first ≤ high) := by
  constructor
  · intro h
    obtain htop | htop := le_total high top
    · left
      rw [max_eq_left htop] at h
      obtain hmin | hmin := le_total first low
      · rw [min_eq_left hmin] at h
        linarith
      · rw [min_eq_right hmin] at h
        linarith
    · rw [max_eq_right htop] at h
      obtain hmin | hmin := le_total first low
      · rw [min_eq_left hmin] at h
        exact absurd hfall (by linarith)
      · right
        rw [min_eq_right hmin] at h
        exact ⟨by linarith, by linarith, by linarith, by linarith⟩
  · rintro (h | ⟨hstill, hzero, hsame, hback⟩)
    · -- all that came after the fall is below the first reading
      rw [max_eq_left (by linarith), min_eq_right (by linarith)]
      linarith
    · rw [max_eq_right (by linarith), min_eq_right (by linarith)]
      linarith

theorem spread_eq_counted_iff_coincides {first : α} {rest : List α}
    (hnonneg : ∀ reading ∈ first :: rest, 0 ≤ reading) (hfalls : sinceFall first rest ≠ []) :
    spread (first :: rest) = counted (first :: rest) ↔ Coincides first rest := by
  have hsince : ∀ reading ∈ sinceFall first rest, 0 ≤ reading := fun reading hmem =>
    hnonneg reading (sinceFall_subset first rest hmem)
  have hhigh := le_countedFromZero hsince (highest_mem hfalls)
  have hlow := hsince _ (lowest_mem hfalls)
  have hspan := lowest_le (highest_mem hfalls)
  have hcrest := le_crest first rest
  have hfirst := hnonneg first List.mem_cons_self
  -- the counter is above zero before it falls
  have hfall : lowest (sinceFall first rest) < crest first rest := by
    obtain ⟨next, tail, hnext⟩ := List.exists_cons_of_ne_nil hfalls
    refine lt_of_le_of_lt (lowest_le ?_) (head_sinceFall_lt hnext)
    rw [hnext]
    exact List.mem_cons_self
  rw [spread, highest_eq_max first rest hfalls, lowest_eq_min first rest hfalls, counted_cons, Coincides,
    and_iff_right hfalls]
  exact span_eq_iff hfirst hlow hspan hhigh hcrest hfall

theorem spread_eq_counted_iff {readings : List α} (hnonneg : ∀ reading ∈ readings, 0 ≤ reading) :
    spread readings = counted readings ↔ SpreadTells readings := by
  cases readings with
  | nil => exact iff_of_true spread_nil trivial
  | cons first rest =>
      rw [SpreadTells, neverFalls_iff_sinceFall]
      by_cases hfalls : sinceFall first rest = []
      · have hnever := (neverFalls_iff_sinceFall first rest).mpr hfalls
        rw [spread_of_neverFalls hnever, counted_of_neverFalls hnever]
        exact iff_of_true rfl (.inl hfalls)
      · rw [spread_eq_counted_iff_coincides hnonneg hfalls, or_iff_right hfalls]

example : SpreadTells [10, 12, 5, (5 : Int)] ∧ ¬ SpreadTells [10, 12, 5, (6 : Int)] := by decide

end

end CumulativeCounter
