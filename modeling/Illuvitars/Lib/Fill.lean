import Mathlib.Data.List.Basic
import Illuvitars.Lib.Word

/-!
# Filling an array by nested loops

A list of parameters, each with an amount, and a generator that produces one item and threads a state. The outer loop
runs over the parameters, the inner one as often as the amount says; every round writes one item at the index and
increments it (`fillParams`). The flat specification repeats each parameter as often as its amount says (`units`) and
maps the generator over the list (`generate`).

* `fillParams_eq`: with enough room the nested loops are the flat specification, also where the generator reverts;
  `fillParams_fill` for two of them on one array;
* `generate_ok`, `generate_eq_mapIdx`: if the `i`-th state of the chain is `c i`, the `i`-th item is the one generated
  there;
* `items_eq_iff`: when two lists of items are equal;
* `generate_measure`: what every item adds to the state.
-/

namespace Fill

open Evm

variable {P I σ : Type}

/-! ## The loops -/

/-- The state of the loops: the array, the next index, and the state of the generator. -/
structure Filling (I σ : Type) where
  items : List I
  idx : Uint256
  state : σ

/-- The body of the inner loop. -/
def fillOne (gen : σ → Exec (I × σ)) (f : Filling I σ) : Exec (Filling I σ) := do
  let (item, state) ← gen f.state
  let items ← store f.items f.idx.toNat item
  let idx ← checkedAdd f.idx 1
  pure { items, idx, state }

/-- The inner loop. -/
def fillTimes (gen : σ → Exec (I × σ)) : ℕ → Filling I σ → Exec (Filling I σ)
  | 0, f => .ok f
  | n + 1, f => do
    let f ← fillOne gen f
    fillTimes gen n f

/-- The outer loop. -/
def fillParams (gen : P → σ → Exec (I × σ)) (amount : P → ℕ) : List P → Filling I σ → Exec (Filling I σ)
  | [], f => .ok f
  | p :: ps, f => do
    let f ← fillTimes (gen p) (amount p) f
    fillParams gen amount ps f

/-! ## The flat specification -/

/-- Each parameter repeated as often as its amount says. -/
def units (amount : P → ℕ) (ps : List P) : List P := ps.flatMap (fun p => List.replicate (amount p) p)

@[simp] theorem units_nil (amount : P → ℕ) : units amount [] = [] := rfl

@[simp] theorem units_cons (amount : P → ℕ) (p : P) (ps : List P) :
    units amount (p :: ps) = List.replicate (amount p) p ++ units amount ps := rfl

theorem units_append (amount : P → ℕ) (ps qs : List P) : units amount (ps ++ qs) = units amount ps ++ units amount qs :=
  List.flatMap_append

theorem length_units (amount : P → ℕ) (ps : List P) : (units amount ps).length = (ps.map amount).sum := by
  induction ps with
  | nil => rfl
  | cons p ps ih => rw [units_cons, List.length_append, List.length_replicate, ih, List.map_cons, List.sum_cons]

/-- Mapped parameters with the same amounts have the mapped units. -/
theorem units_map {Q : Type} {amount : P → ℕ} {amount' : Q → ℕ} {f : P → Q} (hf : ∀ p, amount' (f p) = amount p)
    (ps : List P) : units amount' (ps.map f) = (units amount ps).map f := by
  induction ps with
  | nil => rfl
  | cons p ps ih => rw [List.map_cons, units_cons, units_cons, List.map_append, List.map_replicate, hf, ih]

/-- A unit is one of the parameters. -/
theorem mem_of_mem_units {amount : P → ℕ} {ps : List P} {u : P} (h : u ∈ units amount ps) : u ∈ ps := by
  obtain ⟨p, hp, hu⟩ := List.mem_flatMap.1 h
  rw [List.eq_of_mem_replicate hu]
  exact hp

/-- The items of a list of units, and the last state. -/
def generate (gen : P → σ → Exec (I × σ)) : List P → σ → Exec (List I × σ)
  | [], s => .ok ([], s)
  | u :: us, s => do
    let (item, s) ← gen u s
    let (items, s) ← generate gen us s
    pure (item :: items, s)

/-! ## Refinement -/

/-- The array holds `done`, then `rest`, and the index is behind `done`. -/
def filled (done rest : List I) (s : σ) : Filling I σ where
  items := done ++ rest
  idx := BitVec.ofNat 256 done.length
  state := s

/-- One round writes one item behind those already written. -/
theorem fillOne_eq (gen : σ → Exec (I × σ)) {done rest : List I} {x : I} {s : σ}
    (h : (done ++ x :: rest).length < 2 ^ 256) :
    fillOne gen (filled done (x :: rest) s) = gen s >>= fun r => pure (filled (done ++ [r.1]) rest r.2) := by
  rw [List.length_append, List.length_cons] at h
  have hidx : (BitVec.ofNat 256 done.length).toNat = done.length := by
    rw [BitVec.toNat_ofNat, Nat.mod_eq_of_lt (by omega)]
  have hstore : ∀ y, store (done ++ x :: rest) done.length y = .ok (done ++ y :: rest) := by
    intro y
    rw [store_of_lt (by simp)]
    simp
  have hnext : checkedAdd (BitVec.ofNat 256 done.length) 1#256 = .ok (BitVec.ofNat 256 (done.length + 1)) := by
    rw [checkedAdd_ok_iff, hidx, BitVec.toNat_ofNat, Nat.mod_eq_of_lt (by omega)]
    rfl
  cases hg : gen s with
  | error e => simp [fillOne, filled, hg]
  | ok r => simp [fillOne, filled, hg, hidx, hstore, hnext]

/-- The inner loop is the flat specification on copies of one parameter. -/
theorem fillTimes_eq (gen : P → σ → Exec (I × σ)) (p : P) (n : ℕ) (done rest : List I) (s : σ) (hn : n ≤ rest.length)
    (h : (done ++ rest).length < 2 ^ 256) :
    fillTimes (gen p) n (filled done rest s) =
      generate gen (List.replicate n p) s >>= fun r => pure (filled (done ++ r.1) (rest.drop n) r.2) := by
  induction n generalizing done rest s with
  | zero => simp [fillTimes, generate]
  | succ n ih =>
    cases rest with
    | nil => simp at hn
    | cons x rest =>
      rw [fillTimes, fillOne_eq (gen p) h, List.replicate_succ, generate]
      cases hg : gen p s with
      | error e => rfl
      | ok r =>
        obtain ⟨item, s'⟩ := r
        have ih := ih (done ++ [item]) rest s' (Nat.le_of_succ_le_succ hn) (by simpa using h)
        simp only [ok_bind, pure_eq_ok] at ih ⊢
        rw [ih]
        cases hr : generate gen (List.replicate n p) s' with
        | error e => rfl
        | ok r' => simp

/-- The items of two lists of units. -/
theorem generate_append (gen : P → σ → Exec (I × σ)) (vs us : List P) (s : σ) :
    generate gen (us ++ vs) s =
      generate gen us s >>= fun r => generate gen vs r.2 >>= fun r' => pure (r.1 ++ r'.1, r'.2) := by
  induction us generalizing s with
  | nil =>
    rw [List.nil_append, generate, ok_bind]
    cases generate gen vs s <;> rfl
  | cons u us ih =>
    rw [List.cons_append, generate, generate]
    cases hg : gen u s with
    | error e => rfl
    | ok r =>
      simp only [ok_bind]
      rw [ih r.2]
      cases hr : generate gen us r.2 with
      | error e => rfl
      | ok r' =>
        simp only [ok_bind, pure_eq_ok]
        cases generate gen vs r'.2 <;> rfl

/-- There is one item for each unit. -/
theorem length_of_generate {gen : P → σ → Exec (I × σ)} {us : List P} {s s' : σ} {items : List I}
    (h : generate gen us s = .ok (items, s')) : items.length = us.length := by
  induction us generalizing s items with
  | nil =>
    cases h
    rfl
  | cons u us ih =>
    rw [generate, bind_ok_iff] at h
    obtain ⟨⟨item, s₁⟩, -, h⟩ := h
    obtain ⟨⟨items₁, s₂⟩, hr, h⟩ := bind_ok_iff.1 h
    cases h
    rw [List.length_cons, List.length_cons, ih hr]

/-- **The nested loops are the flat specification**, as long as there is room for the units. -/
theorem fillParams_eq (gen : P → σ → Exec (I × σ)) (amount : P → ℕ) (ps : List P) (done rest : List I) (s : σ)
    (hn : (units amount ps).length ≤ rest.length) (h : (done ++ rest).length < 2 ^ 256) :
    fillParams gen amount ps (filled done rest s) =
      generate gen (units amount ps) s >>= fun r =>
        pure (filled (done ++ r.1) (rest.drop (units amount ps).length) r.2) := by
  induction ps generalizing done rest s with
  | nil => simp [fillParams, generate]
  | cons p ps ih =>
    rw [units_cons, List.length_append, List.length_replicate] at hn
    rw [fillParams, fillTimes_eq gen p _ done rest s (by omega) h, units_cons, generate_append]
    cases hg : generate gen (List.replicate (amount p) p) s with
    | error e => rfl
    | ok r =>
      obtain ⟨items, s'⟩ := r
      have hlen : items.length = amount p := by rw [length_of_generate hg, List.length_replicate]
      have h' : ((done ++ items) ++ rest.drop (amount p)).length < 2 ^ 256 := by
        simp only [List.length_append, List.length_drop] at h ⊢
        omega
      have ih := ih (done ++ items) (rest.drop (amount p)) s' (by rw [List.length_drop]; omega) h'
      simp only [ok_bind, pure_eq_ok] at ih ⊢
      rw [ih]
      cases hr : generate gen (units amount ps) s' with
      | error e => rfl
      | ok r' => simp [List.drop_drop]

/-- The array after the loops, when the specification returns. -/
theorem fillParams_ok {gen : P → σ → Exec (I × σ)} {amount : P → ℕ} {ps : List P} {s s' : σ} {items : List I}
    (h : generate gen (units amount ps) s = .ok (items, s')) (done rest : List I) (hn : items.length ≤ rest.length)
    (hsize : (done ++ rest).length < 2 ^ 256) :
    fillParams gen amount ps (filled done rest s) = .ok (filled (done ++ items) (rest.drop items.length) s') := by
  have hlen := length_of_generate h
  rw [fillParams_eq gen amount ps done rest s (hlen ▸ hn) hsize, h, ok_bind, hlen, pure_eq_ok]

/-- Two loops, one after the other, on an array that has room for their units and no more. -/
theorem fillParams_fill {Q : Type} (g : P → σ → Exec (I × σ)) (h : Q → σ → Exec (I × σ)) (amount : P → ℕ)
    (amount' : Q → ℕ) (ps : List P) (qs : List Q) (rest : List I) (s : σ)
    (hlen : rest.length = (units amount ps).length + (units amount' qs).length) (hsize : rest.length < 2 ^ 256) :
    (fillParams g amount ps (filled [] rest s) >>= fun f => fillParams h amount' qs f >>= fun f => pure f.items) =
      generate g (units amount ps) s >>= fun r =>
        generate h (units amount' qs) r.2 >>= fun r' => pure (r.1 ++ r'.1) := by
  rw [fillParams_eq g amount ps [] rest s (by omega) (by rwa [List.nil_append])]
  cases hg : generate g (units amount ps) s with
  | error e => rfl
  | ok r =>
    have hr : r.1.length = (units amount ps).length := length_of_generate hg
    simp only [ok_bind, pure_eq_ok, List.nil_append]
    rw [fillParams_eq h amount' qs _ _ _ (by rw [List.length_drop]; omega)
      (by rw [List.length_append, List.length_drop]; omega)]
    cases hh : generate h (units amount' qs) r.2 with
    | error e => rfl
    | ok r' => simp only [ok_bind, pure_eq_ok, filled, List.drop_drop, ← hlen, List.drop_length, List.append_nil]

/-! ## The chain of states -/

/-- **If every unit generates its item at its state of the chain, so does the list.** -/
theorem generate_ok {g : P → σ → Exec (I × σ)} {us : List P} {c : ℕ → σ}
    (h : ∀ i (hi : i < us.length), ∃ x, g us[i] (c i) = .ok (x, c (i + 1))) :
    ∃ items, generate g us (c 0) = .ok (items, c us.length) ∧
      ∀ i (hi : i < us.length), ∃ x, items[i]? = some x ∧ g us[i] (c i) = .ok (x, c (i + 1)) := by
  induction us generalizing c with
  | nil => exact ⟨[], rfl, fun i hi => absurd hi (Nat.not_lt_zero i)⟩
  | cons u us ih =>
    obtain ⟨x, hx⟩ : ∃ x, g u (c 0) = .ok (x, c 1) := h 0 (by simp)
    have htail : ∀ i (hi : i < us.length), ∃ y, g us[i] (c (i + 1)) = .ok (y, c (i + 1 + 1)) := by
      intro i hi
      exact h (i + 1) (by simpa using hi)
    -- the rest of the list starts one state later
    obtain ⟨items, hok, hitems⟩ := ih (c := fun i => c (i + 1)) htail
    refine ⟨x :: items, ?_, ?_⟩
    · have hok' : generate g us (c 1) = .ok (items, c (us.length + 1)) := hok
      simp [generate, hx, hok']
    · intro i hi
      cases i with
      | zero => exact ⟨x, rfl, hx⟩
      | succ i => exact hitems i (by simpa using hi)

/-- **If every unit generates a known item at its state of the chain, the list generates those items.** -/
theorem generate_eq_mapIdx {g : P → σ → Exec (I × σ)} {us : List P} {c : ℕ → σ} {x : ℕ → P → I}
    (h : ∀ i u, us[i]? = some u → g u (c i) = .ok (x i u, c (i + 1))) :
    generate g us (c 0) = .ok (us.mapIdx x, c us.length) := by
  induction us generalizing c x with
  | nil => rfl
  | cons u us ih =>
    have hu : g u (c 0) = .ok (x 0 u, c 1) := h 0 u rfl
    -- the rest of the list starts one state later
    have ih := ih (c := fun i => c (i + 1)) (x := fun i => x (i + 1)) fun i v hv => h (i + 1) v (by simpa using hv)
    rw [generate, hu, ok_bind]
    simp only [ih, ok_bind, pure_eq_ok, List.mapIdx_cons, List.length_cons]

/-- Two lists with an item for each unit are equal iff their items are. -/
theorem items_eq_iff {J : Type} {us : List P} {xs : List I} {ys : List J} {f : I → J} {A : ℕ → P → Prop}
    (hxs : xs.length = us.length) (hys : ys.length = us.length)
    (h : ∀ i u, us[i]? = some u → ∃ x y, xs[i]? = some x ∧ ys[i]? = some y ∧ (f x = y ↔ A i u)) :
    xs.map f = ys ↔ ∀ i u, us[i]? = some u → A i u := by
  constructor
  · rintro rfl i u hu
    obtain ⟨x, y, hx, hy, hiff⟩ := h i u hu
    rw [List.getElem?_map, hx] at hy
    exact hiff.1 (Option.some.inj hy)
  · intro hA
    refine List.ext_getElem? fun i => ?_
    rw [List.getElem?_map]
    cases hu : us[i]? with
    | none =>
      have hi := List.getElem?_eq_none_iff.1 hu
      rw [List.getElem?_eq_none (by omega), List.getElem?_eq_none (by omega)]
      rfl
    | some u =>
      obtain ⟨x, y, hx, hy, hiff⟩ := h i u hu
      rw [hx, hy, Option.map_some, hiff.2 (hA i u hu)]

/-- A measure of the state that every item increases by the same amount. -/
theorem generate_measure {g : P → σ → Exec (I × σ)} {m : σ → ℕ} {k : ℕ}
    (hg : ∀ u s x s', g u s = .ok (x, s') → m s' = m s + k) {us : List P} {s s' : σ} {items : List I}
    (h : generate g us s = .ok (items, s')) : m s' = m s + k * us.length := by
  induction us generalizing s items with
  | nil =>
    cases h
    rfl
  | cons u us ih =>
    rw [generate, bind_ok_iff] at h
    obtain ⟨⟨item, s₁⟩, hu, h⟩ := h
    obtain ⟨⟨items₁, s₂⟩, hr, h⟩ := bind_ok_iff.1 h
    cases h
    rw [ih hr, hg u s item s₁ hu, List.length_cons, Nat.mul_succ]
    omega

/-- Mapped units generate what the units generate. -/
theorem generate_map {Q : Type} {g : P → σ → Exec (I × σ)} {h : Q → σ → Exec (I × σ)} {f : P → Q}
    (hf : ∀ u s, h (f u) s = g u s) (us : List P) (s : σ) : generate h (us.map f) s = generate g us s := by
  induction us generalizing s with
  | nil => rfl
  | cons u us ih =>
    rw [List.map_cons, generate, generate, hf u s]
    simp only [ih]

/-- Mapped parameters with the same amounts generate what the parameters generate. -/
theorem generate_units_map {Q : Type} {g : P → σ → Exec (I × σ)} {h : Q → σ → Exec (I × σ)} {f : P → Q}
    {amount : P → ℕ} {amount' : Q → ℕ} (ha : ∀ p, amount' (f p) = amount p) (hf : ∀ u s, h (f u) s = g u s)
    (ps : List P) (s : σ) : generate h (units amount' (ps.map f)) s = generate g (units amount ps) s := by
  rw [units_map ha, generate_map hf]

/-- Units of two kinds, those of the first kind before those of the second. -/
theorem generate_sum {P Q : Type} {g : P ⊕ Q → σ → Exec (I × σ)} (ps : List P) (qs : List Q) (s : σ) :
    generate g (ps.map .inl ++ qs.map .inr) s =
      generate (fun p => g (.inl p)) ps s >>= fun r =>
        generate (fun q => g (.inr q)) qs r.2 >>= fun r' => pure (r.1 ++ r'.1, r'.2) := by
  rw [generate_append, generate_map (g := fun p => g (.inl p)) (fun _ _ => rfl)]
  simp only [generate_map (g := fun q => g (.inr q)) (f := Sum.inr) (fun _ _ => rfl)]

/-! ## Merging parameters -/

/-- Two neighbouring parameters of one kind are replaced by one of that kind with the sum of their amounts. -/
inductive Merges {K : Type} (kind : P → K) (amount : P → ℕ) : List P → List P → Prop
  | mk (l r : List P) {p q m : P} : kind p = kind m → kind q = kind m → amount m = amount p + amount q →
      Merges kind amount (l ++ p :: q :: r) (l ++ m :: r)

/-- Merging changes no kind of a unit. -/
theorem Merges.units_kind {K : Type} {kind : P → K} {amount : P → ℕ} {ps qs : List P}
    (h : Merges kind amount ps qs) : (units amount ps).map kind = (units amount qs).map kind := by
  obtain ⟨l, r, hp, hq, hm⟩ := h
  simp only [units_append, units_cons, List.map_append, List.map_replicate, hp, hq, hm, List.replicate_add,
    List.append_assoc]

end Fill
