import Illuvitars.Lib.Fill

/-!
# Numbers and arrays of a script

A script computes with unbounded integers and with arrays that have holes and grow; an exception is the execution that
reverts with its text. The integers here are never negative.

* `divMod`, `toNumber`, `newArray`, `defined`: the operations that may throw;
* `assign`: a write into an array, also behind its end;
* `assignParams_eq`: nested loops that assign item by item are the flat specification of `Fill`, without any condition
  on the room in the array; `assignParams_fill` for two of them on an array of the right length.
-/

namespace Script

open Evm Fill

variable {α P I σ : Type}

/-! ## Operations -/

/-- Throw an exception. -/
def exception (text : String) : Exec α := .error (.error text)

/-- Quotient and remainder. -/
def divMod (a b : ℕ) : Exec (ℕ × ℕ) := if b = 0 then exception "division-by-zero" else .ok (a / b, a % b)

/-- The conversion to a number, which is exact below `2 ^ 53`. -/
def toNumber (n : ℕ) : Exec ℕ := if n < 2 ^ 53 then .ok n else exception "overflow"

/-- `new Array(n)`: nothing but holes. -/
def newArray (n : ℕ) : Exec (List (Option α)) :=
  if n < 2 ^ 32 then .ok (List.replicate n none) else exception "Invalid array length"

/-- The value of an entry that may be `undefined`, where it is used. -/
def defined : Option α → Exec α
  | some x => .ok x
  | none => exception "undefined"

/-- `xs[i] = x`: behind the end the array grows, with holes in between. -/
def assign (xs : List (Option α)) (i : ℕ) (x : α) : List (Option α) :=
  if i < xs.length then xs.set i (some x) else xs ++ List.replicate (i - xs.length) none ++ [some x]

theorem divMod_of_pos {a b : ℕ} (h : 0 < b) : divMod a b = .ok (a / b, a % b) := if_neg h.ne'

/-- The length of a new array must be below `2 ^ 32`, and then it is a number. -/
theorem newArray_ok_iff {n : ℕ} {xs : List (Option α)} :
    toNumber n >>= newArray = .ok xs ↔ n < 2 ^ 32 ∧ xs = List.replicate n none := by
  simp only [bind_ok_iff, toNumber, newArray, exception]
  constructor
  · rintro ⟨m, hm, hxs⟩
    split at hm
    · cases hm
      split at hxs
      · cases hxs
        exact ⟨‹_›, rfl⟩
      · cases hxs
    · cases hm
  · rintro ⟨hn, rfl⟩
    exact ⟨n, if_pos (by omega), if_pos hn⟩

/-- The write behind the items that are already there. -/
theorem assign_behind (done : List α) (rest : List (Option α)) (x : α) :
    assign (done.map some ++ rest) done.length x = (done ++ [x]).map some ++ rest.drop 1 := by
  unfold assign
  cases rest with
  | nil => simp
  | cons y rest => simp

/-! ## Loops -/

/-- The state of the loops: the array, the next index, and the state of the generator. -/
structure Assigning (I σ : Type) where
  items : List (Option I)
  idx : ℕ
  state : σ

/-- The body of the inner loop. -/
def assignOne (gen : σ → Exec (I × σ)) (f : Assigning I σ) : Exec (Assigning I σ) := do
  let (item, state) ← gen f.state
  pure { items := assign f.items f.idx item, idx := f.idx + 1, state }

/-- The inner loop. -/
def assignTimes (gen : σ → Exec (I × σ)) : ℕ → Assigning I σ → Exec (Assigning I σ)
  | 0, f => .ok f
  | n + 1, f => do
    let f ← assignOne gen f
    assignTimes gen n f

/-- The outer loop. -/
def assignParams (gen : P → σ → Exec (I × σ)) (amount : P → ℕ) : List P → Assigning I σ → Exec (Assigning I σ)
  | [], f => .ok f
  | p :: ps, f => do
    let f ← assignTimes (gen p) (amount p) f
    assignParams gen amount ps f

/-- The array holds `done`, then `rest`, and the index is behind `done`. -/
def assigned (done : List I) (rest : List (Option I)) (s : σ) : Assigning I σ where
  items := done.map some ++ rest
  idx := done.length
  state := s

/-- One round assigns one item behind those already assigned. -/
theorem assignOne_eq (gen : σ → Exec (I × σ)) (done : List I) (rest : List (Option I)) (s : σ) :
    assignOne gen (assigned done rest s) = gen s >>= fun r => pure (assigned (done ++ [r.1]) (rest.drop 1) r.2) := by
  cases hg : gen s with
  | error e => simp only [assignOne, assigned, hg, error_bind]
  | ok r =>
    simp only [assignOne, assigned, hg, ok_bind, pure_eq_ok, assign_behind, List.length_append, List.length_singleton]

/-- The rounds on a list of units. -/
def assignUnits (gen : P → σ → Exec (I × σ)) : List P → Assigning I σ → Exec (Assigning I σ)
  | [], f => .ok f
  | u :: us, f => do
    let f ← assignOne (gen u) f
    assignUnits gen us f

theorem assignUnits_append (gen : P → σ → Exec (I × σ)) (us vs : List P) (f : Assigning I σ) :
    assignUnits gen (us ++ vs) f = assignUnits gen us f >>= assignUnits gen vs := by
  induction us generalizing f with
  | nil => rfl
  | cons u us ih =>
    rw [List.cons_append, assignUnits, assignUnits]
    cases assignOne (gen u) f with
    | error e => rfl
    | ok g => exact ih g

/-- The inner loop runs over copies of its parameter, -/
theorem assignTimes_eq (gen : P → σ → Exec (I × σ)) (p : P) (n : ℕ) (f : Assigning I σ) :
    assignTimes (gen p) n f = assignUnits gen (List.replicate n p) f := by
  induction n generalizing f with
  | zero => rfl
  | succ n ih =>
    rw [assignTimes, List.replicate_succ, assignUnits]
    simp only [ih]

/-- and the outer loop over all units. -/
theorem assignParams_eq_units (gen : P → σ → Exec (I × σ)) (amount : P → ℕ) (ps : List P) (f : Assigning I σ) :
    assignParams gen amount ps f = assignUnits gen (units amount ps) f := by
  induction ps generalizing f with
  | nil => rfl
  | cons p ps ih =>
    rw [assignParams, assignTimes_eq, units_cons, assignUnits_append]
    simp only [ih]

/-- The rounds on a list of units assign the items of the flat specification. -/
theorem assignUnits_eq (gen : P → σ → Exec (I × σ)) (us : List P) (done : List I) (rest : List (Option I)) (s : σ) :
    assignUnits gen us (assigned done rest s) =
      generate gen us s >>= fun r => pure (assigned (done ++ r.1) (rest.drop us.length) r.2) := by
  induction us generalizing done rest s with
  | nil => simp [assignUnits, generate]
  | cons u us ih =>
    rw [assignUnits, assignOne_eq, generate]
    cases hg : gen u s with
    | error e => rfl
    | ok r =>
      simp only [ok_bind, pure_eq_ok] at ih ⊢
      rw [ih]
      cases hr : generate gen us r.2 with
      | error e => rfl
      | ok r' => simp

/-- **The nested loops are the flat specification.** -/
theorem assignParams_eq (gen : P → σ → Exec (I × σ)) (amount : P → ℕ) (ps : List P) (done : List I)
    (rest : List (Option I)) (s : σ) :
    assignParams gen amount ps (assigned done rest s) =
      generate gen (units amount ps) s >>= fun r =>
        pure (assigned (done ++ r.1) (rest.drop (units amount ps).length) r.2) := by
  rw [assignParams_eq_units, assignUnits_eq]

/-- Two loops fill an array that has room for their items and no more. -/
theorem assignParams_fill {Q : Type} {g : P → σ → Exec (I × σ)} {h : Q → σ → Exec (I × σ)} {amount : P → ℕ}
    {amount' : Q → ℕ} {ps : List P} {qs : List Q} {s t u : σ} {xs ys : List I} {items : List (Option I)}
    (hxs : generate g (units amount ps) s = .ok (xs, t)) (hys : generate h (units amount' qs) t = .ok (ys, u))
    (hitems : items.length = xs.length + ys.length) :
    (assignParams g amount ps (assigned [] items s) >>= fun f =>
      assignParams h amount' qs f >>= fun f => pure f.items) = .ok ((xs ++ ys).map some) := by
  have hend : items.length ≤ (units amount ps).length + (units amount' qs).length := by
    rw [hitems, length_of_generate hxs, length_of_generate hys]
  rw [assignParams_eq, hxs, ok_bind, pure_eq_ok, ok_bind, assignParams_eq, hys, ok_bind, pure_eq_ok, ok_bind, assigned,
    List.drop_drop, List.drop_eq_nil_of_le hend, List.append_nil, List.nil_append, pure_eq_ok]

example : assign [some 1, none] 3 7 = [some 1, none, none, some 7] := by decide

end Script
