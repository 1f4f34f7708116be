import Mathlib.Logic.Basic

/-!
# Executions that may revert

A call of a contract function either returns a value or reverts, and a revert undoes everything the call did. `Exec α`
is the type of such executions; state is passed explicitly, so a reverted call leaves the caller with the old state.

* `bind_ok_iff`, `bind_error_iff` take a sequence of two executions apart; `Returns` is about the value returned;
* `require` is the check with a reason, `index` the bounds-checked read and `store` the bounds-checked write of an
  array, `slice` a part of one.
-/

namespace Evm

/-- Why an execution reverts. -/
inductive Revert
  /-- `require` or `revert` with a reason. -/
  | error (reason : String)
  /-- A check inserted by the compiler: `0x11` arithmetic, `0x12` division by zero, `0x21` enum conversion, `0x32`
  array bounds. -/
  | panic (code : Nat)
  /-- A revert without a reason: value sent to a function that is not payable, or a callee's failure passed on. -/
  | empty
deriving DecidableEq, Repr

/-- An execution: a value, or a revert. -/
abbrev Exec := Except Revert

variable {α β : Type}

/-! ## Sequences -/

@[simp] theorem ok_bind (a : α) (f : α → Exec β) : (Except.ok a : Exec α) >>= f = f a := rfl

@[simp] theorem pure_eq_ok (a : α) : (pure a : Exec α) = .ok a := rfl

@[simp] theorem error_bind (e : Revert) (f : α → Exec β) : (Except.error e : Exec α) >>= f = .error e := rfl

/-- A sequence returns iff both parts do. -/
theorem bind_ok_iff {x : Exec α} {f : α → Exec β} {b : β} : x >>= f = .ok b ↔ ∃ a, x = .ok a ∧ f a = .ok b := by
  cases x with
  | error e => simp
  | ok a => simp

/-- A sequence reverts iff one of the parts does. -/
theorem bind_error_iff {x : Exec α} {f : α → Exec β} {e : Revert} :
    x >>= f = .error e ↔ x = .error e ∨ ∃ a, x = .ok a ∧ f a = .error e := by
  cases x with
  | error e' => simp
  | ok a => simp

/-- An execution does not both return and revert. -/
theorem not_ok_of_error {x : Exec α} {e : Revert} (h : x = .error e) (a : α) : x ≠ .ok a := by
  rw [h]; exact fun h' => by cases h'

/-! ## What is returned -/

/-- The execution returns a value with `P`. -/
def Returns (P : α → Prop) : Exec α → Prop
  | .ok a => P a
  | .error _ => False

instance (P : α → Prop) [DecidablePred P] (x : Exec α) : Decidable (Returns P x) :=
  match x with
  | .ok a => inferInstanceAs (Decidable (P a))
  | .error _ => inferInstanceAs (Decidable False)

theorem returns_iff {P : α → Prop} {x : Exec α} : Returns P x ↔ ∃ a, x = .ok a ∧ P a := by
  cases x with
  | error e => simp [Returns]
  | ok a => simp [Returns]

/-! ## Checks -/

/-- Go on if `c` holds, revert with `reason` otherwise. -/
def require (c : Prop) [Decidable c] (reason : String) : Exec Unit := if c then .ok () else .error (.error reason)

variable {c : Prop} [Decidable c] {reason : String}

@[simp] theorem require_ok_iff {u : Unit} : require c reason = .ok u ↔ c := by
  unfold require; split <;> simp_all

theorem require_pos (h : c) : require c reason = .ok () := if_pos h

theorem require_neg (h : ¬c) : require c reason = .error (.error reason) := if_neg h

@[simp] theorem require_error_iff {e : Revert} : require c reason = .error e ↔ ¬c ∧ e = .error reason := by
  unfold require
  split
  · simp_all
  · simp_all [eq_comm]

/-! ## Reasons that do not occur -/

/-- The execution does not revert with `e`. -/
def Avoids (e : Revert) (x : Exec α) : Prop := x ≠ .error e

variable {e : Revert}

theorem Avoids.ok (a : α) : Avoids e (.ok a : Exec α) := by
  intro h
  cases h

theorem Avoids.bind {x : Exec α} {f : α → Exec β} (hx : Avoids e x) (hf : ∀ a, x = .ok a → Avoids e (f a)) :
    Avoids e (x >>= f) := by
  intro h
  rcases bind_error_iff.1 h with h | ⟨a, ha, h⟩
  · exact hx h
  · exact hf a ha h

theorem Avoids.require (he : e ≠ .error reason) : Avoids e (require c reason) := by
  intro h
  exact he (require_error_iff.1 h).2

/-- A check that holds does not revert at all. -/
theorem Avoids.require_pos (h : c) : Avoids e (Evm.require c reason) := by
  rw [Evm.require_pos h]
  exact .ok ()

/-! ## Arrays -/

/-- Read `xs[i]`, with the compiler's bounds check. -/
def index (xs : List α) (i : Nat) : Exec α :=
  match xs[i]? with
  | some x => .ok x
  | none => .error (.panic 0x32)

@[simp] theorem index_ok_iff {xs : List α} {i : Nat} {x : α} : index xs i = .ok x ↔ xs[i]? = some x := by
  unfold index
  cases xs[i]? <;> simp

/-- A read inside the bounds returns. -/
theorem index_of_lt {xs : List α} {i : Nat} (h : i < xs.length) : index xs i = .ok xs[i] := by
  simp [h]

/-- A read outside the bounds reverts. -/
theorem index_of_ge {xs : List α} {i : Nat} (h : xs.length ≤ i) : index xs i = .error (.panic 0x32) := by
  simp [index, List.getElem?_eq_none h]

/-- Write `xs[i] = x`, with the compiler's bounds check. -/
def store (xs : List α) (i : Nat) (x : α) : Exec (List α) :=
  if i < xs.length then .ok (xs.set i x) else .error (.panic 0x32)

/-- A write inside the bounds returns the updated array. -/
theorem store_of_lt {xs : List α} {i : Nat} (h : i < xs.length) (x : α) : store xs i x = .ok (xs.set i x) := if_pos h

/-- A difference of two lengths. -/
def subLength (a b : Nat) : Exec Nat := if b ≤ a then .ok (a - b) else .error (.panic 0x11)

theorem subLength_of_le {a b : Nat} (h : b ≤ a) : subLength a b = .ok (a - b) := if_pos h

/-- The slice `xs[i:j]` of an array in the call data. -/
def slice (xs : List α) (i j : Nat) : Exec (List α) :=
  if i ≤ j ∧ j ≤ xs.length then .ok ((xs.drop i).take (j - i)) else .error .empty

/-- The slice between a prefix and a suffix is what stands between them. -/
theorem slice_middle (xs ys zs : List α) :
    slice (xs ++ ys ++ zs) xs.length (xs.length + ys.length) = .ok ys := by
  have h : xs.length ≤ xs.length + ys.length ∧ xs.length + ys.length ≤ (xs ++ ys ++ zs).length := by
    simp only [List.length_append]
    omega
  rw [slice, if_pos h, Nat.add_sub_cancel_left, List.append_assoc, List.drop_left, List.take_left]

end Evm
