import Mathlib.Algebra.GroupWithZero.Nat
import Mathlib.Data.List.TakeWhile
import Mathlib.Logic.Function.Iterate

/-!
# Maximal runs in a list

The maximal runs of the elements with a property, as a scanner finds them that skips what does not have the property and
then reads as far as it goes.

* `runs p xs` are the runs, from left to right; a block between two elements without it is one (`runs_append`);
* `first p xs` is what the scanner reads and `rest p xs` what it leaves: the head (`head_runs`) and the runs of the
  tail (`runs_rest`);
* `skip_iterate_eq_nil_iff`: after `n` runs nothing is left to skip to iff there are no more;
* `runs_eq_cons_iff`: a first run of two elements or more, taken apart behind its first element;
* `FirstRun`: the first run and what stands before and behind it, which is what the scanner reads and leaves;
* `runs_induction`, `sum_length_runs`: the runs and what separates them fit into the list;
* `runs_flatMap`: blocks with separators in front are runs.
-/

namespace MaximalRuns

variable {α : Type} {p : α → Bool} {x : α} {xs ys : List α}

/-- The maximal runs of elements with `p`, from left to right. -/
def runs (p : α → Bool) (xs : List α) : List (List α) := (xs.splitOnP (!p ·)).filter (!·.isEmpty)

/-- The list from its first element with `p` on. -/
def skip (p : α → Bool) (xs : List α) : List α := xs.dropWhile (!p ·)

def first (p : α → Bool) (xs : List α) : List α := (skip p xs).takeWhile p

/-- What follows the first run. -/
def rest (p : α → Bool) (xs : List α) : List α := (skip p xs).dropWhile p

@[simp] theorem runs_nil : runs p [] = [] := rfl

@[simp] theorem skip_of_pos (h : p x = true) : skip p (x :: xs) = x :: xs := by
  simp [skip, h]

@[simp] theorem skip_of_neg (h : p x = false) : skip p (x :: xs) = skip p xs := by
  simp [skip, h]

theorem first_append_rest : first p xs ++ rest p xs = skip p xs := List.takeWhile_append_dropWhile

theorem of_mem_first (h : x ∈ first p xs) : p x = true := List.mem_takeWhile_imp h

theorem head_skip : ∀ y ∈ (skip p xs).head?, p y = true := by
  intro y hy
  have h := List.head?_dropWhile_not (!p ·) xs
  rw [show xs.dropWhile (!p ·) = skip p xs from rfl, hy] at h
  simpa using h

/-- After the first run the list ends or goes on with an element without `p`. -/
theorem head_rest : ∀ y ∈ (rest p xs).head?, p y = false := by
  intro y hy
  have h := List.head?_dropWhile_not p (skip p xs)
  rw [show (skip p xs).dropWhile p = rest p xs from rfl, hy] at h
  simpa using h

/-! ## What the scanner reads and leaves -/

theorem runs_of_neg (h : p x = false) : runs p (x :: xs) = runs p xs := by
  simp [runs, List.splitOnP_cons_eq_if_modifyHead, h]

theorem runs_skip : runs p (skip p xs) = runs p xs := by
  induction xs with
  | nil => rfl
  | cons x xs ih =>
    cases h : p x with
    | false => rw [skip_of_neg h, runs_of_neg h, ih]
    | true => rw [skip_of_pos h]

/-- A block of elements with `p` is a run of its own where the list ends or goes on without `p`. -/
theorem runs_append (hxs : xs ≠ []) (hp : ∀ x ∈ xs, p x = true) (hys : ∀ y ∈ ys.head?, p y = false) :
    runs p (xs ++ ys) = xs :: runs p ys := by
  have hp' : ∀ x ∈ xs, (!p x) = false := by simpa using hp
  cases ys with
  | nil => simp [runs, List.splitOnP_eq_singleton hp', hxs]
  | cons y ys =>
    have hy : p y = false := hys y rfl
    rw [runs_of_neg hy, runs, List.splitOnP_append_cons_of_forall_mem hp' y (by simp [hy])]
    simp [runs, hxs]

theorem skip_eq_nil_of_first (h : first p xs = []) : skip p xs = [] := by
  cases hs : skip p xs with
  | nil => rfl
  | cons y ys =>
    have hy : p y = true := head_skip y (by rw [hs]; rfl)
    rw [first, hs, List.takeWhile_cons_of_pos hy] at h
    cases h

/-- The first run and those of what follows it. -/
theorem runs_of_first (h : first p xs ≠ []) : runs p xs = first p xs :: runs p (rest p xs) := by
  rw [← runs_skip, ← first_append_rest]
  exact runs_append h (fun _ hx => of_mem_first hx) head_rest

theorem runs_eq_nil_of_first (h : first p xs = []) : runs p xs = [] := by
  rw [← runs_skip, skip_eq_nil_of_first h, runs_nil]

theorem head_runs : (runs p xs).headD [] = first p xs := by
  by_cases h : first p xs = []
  · rw [runs_eq_nil_of_first h, h]
    rfl
  · rw [runs_of_first h]
    rfl

theorem runs_rest : runs p (rest p xs) = (runs p xs).tail := by
  by_cases h : first p xs = []
  · rw [runs_eq_nil_of_first h, rest, skip_eq_nil_of_first h]
    rfl
  · rw [runs_of_first h]
    rfl

/-- The runs that are left when the scanner has read `n`. -/
theorem runs_iterate (n : Nat) : runs p ((rest p)^[n] xs) = (runs p xs).drop n := by
  induction n generalizing xs with
  | zero => rfl
  | succ n ih => rw [Function.iterate_succ_apply, ih, runs_rest, List.drop_tail]

/-- The run that the scanner reads then. -/
theorem first_iterate (n : Nat) : first p ((rest p)^[n] xs) = (runs p xs).getD n [] := by
  rw [← head_runs, runs_iterate]
  simp [List.headD_eq_head?_getD]

theorem skip_eq_nil_iff : skip p xs = [] ↔ runs p xs = [] := by
  constructor
  · intro h
    rw [← runs_skip, h, runs_nil]
  · intro h
    refine skip_eq_nil_of_first ?_
    rw [← head_runs, h]
    rfl

/-- The scanner has nothing left after `n` runs iff there are no more. -/
theorem skip_iterate_eq_nil_iff (n : Nat) : skip p ((rest p)^[n] xs) = [] ↔ (runs p xs).length ≤ n := by
  rw [skip_eq_nil_iff, runs_iterate, List.drop_eq_nil_iff]

/-- A list that starts inside a run is its first run and the rest. -/
theorem first_append_rest_of_pos (h : ∀ y ∈ xs.head?, p y = true) : first p xs ++ rest p xs = xs := by
  rw [first_append_rest]
  cases xs with
  | nil => rfl
  | cons x xs => exact skip_of_pos (h x rfl)

/-- The first element of a run, the rest of the run and the other runs. -/
theorem runs_of_skip (h : skip p xs = x :: ys) (hys : ∀ y ∈ ys.head?, p y = true) :
    runs p xs = (x :: first p ys) :: runs p (rest p ys) := by
  have hx : p x = true := head_skip x (by rw [h]; rfl)
  have hrun : ∀ y ∈ x :: first p ys, p y = true := by
    intro y hy
    rcases List.mem_cons.1 hy with rfl | hy
    · exact hx
    · exact of_mem_first hy
  calc runs p xs = runs p (x :: ys) := by rw [← h, runs_skip]
    _ = runs p ((x :: first p ys) ++ rest p ys) := by rw [List.cons_append, first_append_rest_of_pos hys]
    _ = (x :: first p ys) :: runs p (rest p ys) := runs_append (List.cons_ne_nil _ _) hrun head_rest

/-- A block of elements with `p` is read whole. -/
theorem first_append (hp : ∀ x ∈ xs, p x = true) (hys : ∀ y ∈ ys.head?, p y = false) (hxs : xs ≠ []) :
    first p (xs ++ ys) = xs ∧ rest p (xs ++ ys) = ys := by
  have h := runs_append hxs hp hys
  have hfirst : first p (xs ++ ys) = xs := by
    rw [← head_runs, h]
    rfl
  have hskip : skip p (xs ++ ys) = xs ++ ys := by
    cases xs with
    | nil => exact absurd rfl hxs
    | cons x xs => exact skip_of_pos (hp x List.mem_cons_self)
  refine ⟨hfirst, ?_⟩
  have hcat : first p (xs ++ ys) ++ rest p (xs ++ ys) = skip p (xs ++ ys) := first_append_rest
  rw [hfirst, hskip] at hcat
  exact List.append_cancel_left hcat

/-- A first run of two elements or more, as the scanner sees it behind the first element. -/
theorem runs_eq_cons_iff {xs₀ : List α} {fields : List (List α)} :
    runs p xs = (x :: xs₀) :: fields ∧ xs₀ ≠ [] ↔ ∃ y ys, skip p xs = x :: y :: ys ∧ p y = true ∧
      first p (y :: ys) = xs₀ ∧ runs p (rest p (y :: ys)) = fields := by
  constructor
  · rintro ⟨hruns, hne⟩
    obtain ⟨y, ys, rfl⟩ := List.exists_cons_of_ne_nil hne
    have hfirst : first p xs = x :: y :: ys := by
      rw [← head_runs, hruns]
      rfl
    have hrun : ∀ z ∈ y :: ys, p z = true := fun z hz => of_mem_first (hfirst ▸ List.mem_cons_of_mem x hz)
    obtain ⟨hfirst', hrest'⟩ : first p (y :: (ys ++ rest p xs)) = y :: ys ∧
        rest p (y :: (ys ++ rest p xs)) = rest p xs := first_append hrun head_rest hne
    refine ⟨y, ys ++ rest p xs, ?_, hrun y List.mem_cons_self, hfirst', ?_⟩
    · rw [← first_append_rest, hfirst]
      rfl
    · rw [hrest', runs_rest, hruns]
      rfl
  · rintro ⟨y, ys, hskip, hy, rfl, rfl⟩
    have hhead : ∀ z ∈ (y :: ys).head?, p z = true := by
      intro z hz
      cases hz
      exact hy
    refine ⟨runs_of_skip hskip hhead, ?_⟩
    simp [first, hy]

/-! ## The first run -/

/-- `run` is the first run of `xs`, between `before` and `behind`. -/
structure FirstRun (p : α → Bool) (xs before run behind : List α) : Prop where
  split : xs = before ++ run ++ behind
  of_before : ∀ x ∈ before, p x = false
  of_run : ∀ x ∈ run, p x = true
  run_ne_nil : run ≠ []
  of_behind : ∀ x ∈ behind.head?, p x = false

theorem skip_append (h : ∀ x ∈ xs, p x = false) : skip p (xs ++ ys) = skip p ys := by
  rw [skip, List.dropWhile_append_of_pos (by simpa using h), skip]

/-- The scanner reads the first run and leaves what follows it. -/
theorem FirstRun.first_rest {before run behind : List α} (h : FirstRun p xs before run behind) :
    first p xs = run ∧ rest p xs = behind := by
  have hskip : skip p xs = skip p (run ++ behind) := by
    rw [h.split, List.append_assoc, skip_append h.of_before]
  obtain ⟨hfirst, hrest⟩ := first_append h.of_run h.of_behind h.run_ne_nil
  exact ⟨by rw [← hfirst, first, first, hskip], by rw [← hrest, rest, rest, hskip]⟩

/-- A list has a first run, or no element with `p` at all. -/
theorem exists_firstRun (p : α → Bool) (xs : List α) :
    (∀ x ∈ xs, p x = false) ∨ ∃ before run behind, FirstRun p xs before run behind := by
  by_cases h : first p xs = []
  · refine .inl fun x hx => ?_
    have hskip := skip_eq_nil_of_first h
    simpa using List.dropWhile_eq_nil_iff.1 hskip x hx
  · refine .inr ⟨xs.takeWhile (!p ·), first p xs, rest p xs, ?_, ?_, fun _ => of_mem_first, h, head_rest⟩
    · rw [List.append_assoc, first_append_rest]
      exact List.takeWhile_append_dropWhile.symm
    · intro x hx
      simpa using List.mem_takeWhile_imp hx

/-- Without an element with `p` the scanner reads and leaves nothing. -/
theorem first_rest_of_forall (h : ∀ x ∈ xs, p x = false) : first p xs = [] ∧ rest p xs = [] := by
  have hskip : skip p xs = [] := List.dropWhile_eq_nil_iff.2 (by simpa using h)
  exact ⟨by rw [first, hskip]; rfl, by rw [rest, hskip]; rfl⟩

/-! ## All runs -/

/-- The rule for runs: what holds of a list without runs, and of a list if it holds of what its first run leaves. -/
theorem runs_induction {motive : List α → Prop} (hnil : ∀ xs, first p xs = [] → motive xs)
    (hrest : ∀ xs, first p xs ≠ [] → motive (rest p xs) → motive xs) (xs : List α) : motive xs := by
  by_cases h : first p xs = []
  · exact hnil xs h
  · have hlen : (rest p xs).length < xs.length := by
      have hcat : (first p xs ++ rest p xs).length = (skip p xs).length := by rw [first_append_rest]
      have hskip : (skip p xs).length ≤ xs.length := List.length_dropWhile_le _ xs
      have hpos := List.length_pos_iff.2 h
      rw [List.length_append] at hcat
      omega
    exact hrest xs h (runs_induction hnil hrest (rest p xs))
termination_by xs.length

/-- A run is not empty, and all its elements have the property. -/
theorem of_mem_runs (h : ys ∈ runs p xs) : ys ≠ [] ∧ ∀ x ∈ ys, p x = true := by
  induction xs using runs_induction (p := p) with
  | hnil xs hfirst =>
    rw [runs_eq_nil_of_first hfirst] at h
    cases h
  | hrest xs hfirst ih =>
    rw [runs_of_first hfirst] at h
    rcases List.mem_cons.1 h with rfl | h
    · exact ⟨hfirst, fun _ hx => of_mem_first hx⟩
    · exact ih h

/-- What follows a run and has runs of its own starts with an element that belongs to none. -/
theorem length_skip_rest (h : rest p xs ≠ []) : (skip p (rest p xs)).length + 1 ≤ (rest p xs).length := by
  obtain ⟨y, ys, hys⟩ := List.exists_cons_of_ne_nil h
  have hy : p y = false := head_rest y (by rw [hys]; rfl)
  rw [hys, skip_of_neg hy, List.length_cons]
  exact Nat.succ_le_succ (List.length_dropWhile_le _ ys)

/-- **The runs fit into the list, with one element between two of them.** -/
theorem sum_length_runs (p : α → Bool) (xs : List α) :
    ((runs p xs).map List.length).sum + (runs p xs).length ≤ (skip p xs).length + 1 := by
  induction xs using runs_induction (p := p) with
  | hnil xs hfirst => simp [runs_eq_nil_of_first hfirst]
  | hrest xs hfirst ih =>
    have hcat : (first p xs).length + (rest p xs).length = (skip p xs).length := by
      rw [← List.length_append, first_append_rest]
    rw [runs_of_first hfirst, List.map_cons, List.sum_cons, List.length_cons]
    by_cases hrest : rest p xs = []
    · simp only [hrest, runs_nil, List.map_nil, List.sum_nil, List.length_nil] at hcat ⊢
      omega
    · have := length_skip_rest hrest
      omega

/-- Blocks with a separator in front of each are runs. -/
theorem runs_flatMap {sep : α} (hsep : p sep = false) {fs : List (List α)}
    (hf : ∀ f ∈ fs, f ≠ [] ∧ ∀ x ∈ f, p x = true) : runs p (fs.flatMap (sep :: ·)) = fs := by
  induction fs with
  | nil => rfl
  | cons f fs ih =>
    obtain ⟨hne, hall⟩ := hf f List.mem_cons_self
    have hhead : ∀ y ∈ (fs.flatMap (sep :: ·)).head?, p y = false := by
      cases fs with
      | nil => simp
      | cons g gs => simpa using hsep
    rw [List.flatMap_cons, List.cons_append, runs_of_neg hsep, runs_append hne hall hhead,
      ih fun g hg => hf g (List.mem_cons_of_mem f hg)]

end MaximalRuns
