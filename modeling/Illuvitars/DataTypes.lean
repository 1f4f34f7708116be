import Illuvitars.Lib.Word

/-!
# The shared enumerations of the contracts

In the order of the source, which is the order of their encodings.
-/

namespace Illuvitars

inductive AccessoryType
  | skin | body | eyeWear | headWear | props
deriving DecidableEq, Repr

inductive BoxType
  | virtual | bronze | silver | gold | platinum | diamond
deriving DecidableEq, Repr

inductive ExpressionType
  | normal | expressionA | expressionB
deriving DecidableEq, Repr

inductive FinishType
  | normal | holo
deriving DecidableEq, Repr

inductive BackgroundLine
  | dots | flash | hex | rain | spotlight | mozart | affinity | arena | token | encounter
deriving DecidableEq, Repr

open Evm

/-- The conversion `AccessoryType(n)`: an encoding out of range reverts. -/
def AccessoryType.ofUint8 (n : Uint8) : Exec AccessoryType :=
  match n.toNat with
  | 0 => .ok .skin
  | 1 => .ok .body
  | 2 => .ok .eyeWear
  | 3 => .ok .headWear
  | 4 => .ok .props
  | _ => .error (.panic 0x21)

/-- The conversion `ExpressionType(n)`. -/
def ExpressionType.ofUint8 (n : Uint8) : Exec ExpressionType :=
  match n.toNat with
  | 0 => .ok .normal
  | 1 => .ok .expressionA
  | 2 => .ok .expressionB
  | _ => .error (.panic 0x21)

/-- The conversion to `AccessoryType` returns iff the number encodes one of the five types. -/
theorem AccessoryType.ofUint8_ok {n : Uint8} : (∃ t, AccessoryType.ofUint8 n = .ok t) ↔ n.toNat < 5 := by
  unfold AccessoryType.ofUint8
  split <;> simp_all
  omega

/-- The encoding of a box type. -/
def BoxType.encoding : BoxType → ℕ
  | .virtual => 0
  | .bronze => 1
  | .silver => 2
  | .gold => 3
  | .platinum => 4
  | .diamond => 5

/-- The encoding of an accessory type. -/
def AccessoryType.encoding : AccessoryType → ℕ
  | .skin => 0
  | .body => 1
  | .eyeWear => 2
  | .headWear => 3
  | .props => 4

theorem AccessoryType.encoding_lt (t : AccessoryType) : t.encoding < 5 := by
  cases t <;> decide

theorem AccessoryType.encoding_inj {t t' : AccessoryType} : t.encoding = t'.encoding ↔ t = t' := by
  cases t <;> cases t' <;> simp [AccessoryType.encoding]

/-- The conversion takes an encoding back. -/
theorem AccessoryType.ofUint8_ok_iff {n : Uint8} {t : AccessoryType} :
    AccessoryType.ofUint8 n = .ok t ↔ n.toNat = t.encoding := by
  unfold AccessoryType.ofUint8
  split
  · cases t <;> simp_all [AccessoryType.encoding]
  · cases t <;> simp_all [AccessoryType.encoding]
  · cases t <;> simp_all [AccessoryType.encoding]
  · cases t <;> simp_all [AccessoryType.encoding]
  · cases t <;> simp_all [AccessoryType.encoding]
  · cases t <;> simp_all [AccessoryType.encoding]

/-- The conversion to `ExpressionType` returns iff the number encodes one of the three expressions. -/
theorem ExpressionType.ofUint8_ok {n : Uint8} : (∃ t, ExpressionType.ofUint8 n = .ok t) ↔ n.toNat < 3 := by
  unfold ExpressionType.ofUint8
  split <;> simp_all
  omega

/-- The encoding of an expression. -/
def ExpressionType.encoding : ExpressionType → ℕ
  | .normal => 0
  | .expressionA => 1
  | .expressionB => 2

theorem ExpressionType.ofUint8_ok_iff {n : Uint8} {e : ExpressionType} :
    ExpressionType.ofUint8 n = .ok e ↔ n.toNat = e.encoding := by
  unfold ExpressionType.ofUint8
  split
  · cases e <;> simp_all [ExpressionType.encoding]
  · cases e <;> simp_all [ExpressionType.encoding]
  · cases e <;> simp_all [ExpressionType.encoding]
  · cases e <;> simp_all [ExpressionType.encoding]

end Illuvitars
