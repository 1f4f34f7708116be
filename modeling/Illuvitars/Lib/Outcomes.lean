import Illuvitars.Lib.Chances

/-!
# The outcomes that a table can be set to

A draw has the rank of its number in a cumulative table of chances. Whoever sets the table after the numbers are known
can give them any ranks that do not fall where the numbers rise, and no others.

* `threshold`: the least number that is to pass an entry;
* `rank_tableFor`: the table of the thresholds gives every number the rank that is wanted for it;
* `exists_table_iff`: the ranks that some table gives.
-/

namespace Chances

variable {N n k l x y : ℕ} {ds : List (ℕ × ℕ)}

/-- A larger number has passed at least as many entries. -/
theorem rank_mono {cs : List ℕ} (h : x ≤ y) : rank cs x ≤ rank cs y := by
  unfold rank
  refine List.countP_mono_left fun c _ hc => ?_
  simp only [decide_eq_true_eq] at hc ⊢
  omega

/-- The least of the numbers that are wanted with a rank above `k`, or `N`. -/
def threshold (N : ℕ) : List (ℕ × ℕ) → ℕ → ℕ
  | [], _ => N
  | (x, r) :: ds, k => if k < r then min x (threshold N ds k) else threshold N ds k

theorem threshold_le : threshold N ds k ≤ N := by
  induction ds with
  | nil => exact le_refl N
  | cons d ds ih =>
    unfold threshold
    split <;> omega

/-- Higher ranks have higher thresholds. -/
theorem threshold_mono (h : k ≤ l) : threshold N ds k ≤ threshold N ds l := by
  induction ds with
  | nil => exact le_refl N
  | cons d ds ih =>
    unfold threshold
    split <;> split <;> omega

theorem threshold_le_iff (hx : x < N) : threshold N ds k ≤ x ↔ ∃ d ∈ ds, k < d.2 ∧ d.1 ≤ x := by
  induction ds with
  | nil => simp [threshold, hx]
  | cons d ds ih =>
    unfold threshold
    split
    · rename_i hk
      simp [hk, ih]
    · rename_i hk
      simp [hk, ih]

/-- The table of the thresholds. -/
def tableFor (N n : ℕ) (ds : List (ℕ × ℕ)) : List ℕ := (List.range n).map (threshold N ds)

@[simp] theorem length_tableFor : (tableFor N n ds).length = n := by simp [tableFor]

theorem tableFor_ascending : (tableFor N n ds).Pairwise (· ≤ ·) := by
  unfold tableFor
  rw [List.pairwise_map]
  exact List.pairwise_lt_range.imp fun h => threshold_mono h.le

theorem tableFor_le : ∀ c ∈ tableFor N n ds, c ≤ N := by
  unfold tableFor
  simp only [List.mem_map]
  rintro c ⟨k, -, rfl⟩
  exact threshold_le

/-- The numbers below `m` among those below `n`. -/
theorem countP_lt_range (m n : ℕ) : (List.range n).countP (fun k => decide (k < m)) = min m n := by
  induction n with
  | zero => simp
  | succ n ih =>
    rw [List.range_succ, List.countP_append, ih]
    by_cases h : n < m
    · simp [h]
      omega
    · simp [h]
      omega

/-- **The table of the thresholds gives every number its rank**, if the ranks do not fall where the numbers rise. -/
theorem rank_tableFor (hmono : ∀ d ∈ ds, ∀ e ∈ ds, d.1 ≤ e.1 → d.2 ≤ e.2) {d : ℕ × ℕ} (hd : d ∈ ds) (hN : d.1 < N)
    (hn : d.2 ≤ n) : rank (tableFor N n ds) d.1 = d.2 := by
  have hpassed : ∀ k, threshold N ds k ≤ d.1 ↔ k < d.2 := by
    intro k
    rw [threshold_le_iff hN]
    constructor
    · rintro ⟨e, he, hk, hle⟩
      have := hmono e he d hd hle
      omega
    · intro hk
      exact ⟨d, hd, hk, le_refl _⟩
  calc rank (tableFor N n ds) d.1
      = (List.range n).countP (fun k => decide (k < d.2)) := by
        rw [rank, tableFor, List.countP_map]
        exact List.countP_congr fun k _ => by simp [hpassed]
    _ = min d.2 n := countP_lt_range d.2 n
    _ = d.2 := by omega

/-- **The ranks that some table gives** are those that do not fall where the numbers rise. -/
theorem exists_table_iff (hN : ∀ d ∈ ds, d.1 < N) :
    (∃ cs : List ℕ, cs.length = n ∧ cs.Pairwise (· ≤ ·) ∧ (∀ c ∈ cs, c ≤ N) ∧ ∀ d ∈ ds, rank cs d.1 = d.2) ↔
      (∀ d ∈ ds, d.2 ≤ n) ∧ ∀ d ∈ ds, ∀ e ∈ ds, d.1 ≤ e.1 → d.2 ≤ e.2 := by
  constructor
  · rintro ⟨cs, rfl, -, -, hrank⟩
    refine ⟨?_, ?_⟩
    · intro d hd
      rw [← hrank d hd]
      exact rank_le_length
    · intro d hd e he hle
      rw [← hrank d hd, ← hrank e he]
      exact rank_mono hle
  · rintro ⟨hn, hmono⟩
    exact ⟨tableFor N n ds, length_tableFor, tableFor_ascending, tableFor_le,
      fun d hd => rank_tableFor hmono hd (hN d hd) (hn d hd)⟩

end Chances
