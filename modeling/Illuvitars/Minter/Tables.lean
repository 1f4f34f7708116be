import Illuvitars.Minter.Storage

/-!
# The tables of the generators

The values that `_initializePortraitMintInfo`, `_initializeAccessoryMintInfo` and `_initializeBackgroundGenerationInfo`
write; an entry that is not written is zero or empty. `Tables.Consistent` is what the generators need of them: every
divisor and every array selected by earlier draws is nonzero or nonempty, and small enough for the 8-bit casts
(`initialTables_consistent`).
-/

namespace Illuvitars
namespace Minter

open Evm

def backgroundTierChances (tier : Uint8) (boxType : BoxType) : Vector Uint16 TIER_CHANCE_LEN :=
  match tier.toNat, boxType with
  | 1, .bronze => #v[6457, 9201, 9758, 9919]
  | 1, .silver => #v[3948, 7443, 9191, 9838]
  | 1, .gold => #v[1067, 4800, 7733, 9333]
  | 1, .platinum => #v[143, 1000, 2929, 7500]
  | 1, .diamond => #v[48, 435, 1525, 3946]
  | 2, .bronze => #v[8700, 9624, 9874, 9956]
  | 2, .silver => #v[6912, 8442, 9462, 9887]
  | 2, .gold => #v[2775, 5203, 7746, 9307]
  | 2, .platinum => #v[385, 962, 2693, 7308]
  | 2, .diamond => #v[126, 378, 1324, 3690]
  | 3, .bronze => #v[8636, 9859, 9942, 9978]
  | 3, .silver => #v[7248, 9387, 9743, 9941]
  | 3, .gold => #v[3512, 7610, 8683, 9561]
  | 3, .platinum => #v[750, 2250, 3375, 7375]
  | 3, .diamond => #v[253, 928, 1561, 3671]
  | 4, .bronze => #v[8499, 9854, 9976, 9989]
  | 4, .silver => #v[7042, 9380, 9899, 9971]
  | 4, .gold => #v[3416, 7900, 9466, 9786]
  | 4, .platinum => #v[1081, 3513, 5945, 8107]
  | 4, .diamond => #v[428, 1711, 3315, 4652]
  | 5, .bronze => #v[8402, 9830, 9975, 9996]
  | 5, .silver => #v[6846, 9270, 9876, 9988]
  | 5, .gold => #v[3200, 7680, 9440, 9920]
  | 5, .platinum => #v[1000, 3400, 6100, 9300]
  | 5, .diamond => #v[535, 2246, 4652, 7326]
  | _, _ => #v[0, 0, 0, 0]

def backgroundLines (tier : Uint8) : List BackgroundLine :=
  match tier.toNat with
  | 0 => [.dots]
  | 1 => [.flash]
  | 2 => [.hex, .rain]
  | 3 => [.spotlight, .mozart]
  | 4 => [.affinity, .arena]
  | 5 => [.token, .encounter]
  | _ => []

def backgroundStages (tier : Uint8) (line : BackgroundLine) : List Uint8 :=
  match tier.toNat, line with
  | 0, .dots => [1]
  | 1, .flash => [1]
  | 2, .hex => [2]
  | 2, .rain => [3]
  | 3, .spotlight => [3]
  | 3, .mozart => [2]
  | 4, .affinity => [1]
  | 4, .arena => [1]
  | 5, .token => [1, 2]
  | 5, .encounter => [3]
  | _, _ => []

def backgroundVariations (tier : Uint8) (line : BackgroundLine) (stage : Uint8) : Uint8 :=
  match tier.toNat, line, stage.toNat with
  | 0, .dots, 1 => 10
  | 1, .flash, 1 => 10
  | 2, .hex, 2 => 8
  | 2, .rain, 3 => 8
  | 3, .spotlight, 3 => 5
  | 3, .mozart, 2 => 8
  | 4, .affinity, 1 => 5
  | 4, .arena, 1 => 2
  | 5, .token, 1 => 1
  | 5, .token, 2 => 1
  | 5, .encounter, 3 => 2
  | _, _, _ => 0

/-- The tables that the initialiser writes. -/
def initialTables : Tables where
  expressionProbability := #v[5000, 8000, 10000]
  stageProbability := #v[4500, 8000, 10000]
  backgroundTierChances := backgroundTierChances
  backgroundLines := backgroundLines
  backgroundStages := backgroundStages
  backgroundVariations := backgroundVariations
  illuvialCounts := #v[3, 6, 5, 4, 4, 3]

/-- The tables before the initialiser has run. -/
def Tables.zero : Tables where
  expressionProbability := #v[0, 0, 0]
  stageProbability := #v[0, 0, 0]
  backgroundTierChances := fun _ _ => #v[0, 0, 0, 0]
  backgroundLines := fun _ => []
  backgroundStages := fun _ _ => []
  backgroundVariations := fun _ _ _ => 0
  illuvialCounts := #v[0, 0, 0, 0, 0, 0]

/-! ## Cross-consistency -/

/-- An array that a draw may index: not empty, and its length survives the cast to 8 bits. -/
def Drawable {α : Type} (xs : List α) : Prop := xs ≠ [] ∧ xs.length < 2 ^ 8

instance {α : Type} [DecidableEq α] (xs : List α) : Decidable (Drawable xs) := inferInstanceAs (Decidable (_ ∧ _))

/-- Every draw of the generators has something to draw from, whatever the earlier draws were. -/
structure Tables.Consistent (t : Tables) : Prop where
  illuvials : ∀ tier (h : tier < 6), t.illuvialCounts[tier] ≠ 0
  lines : ∀ tier < 6, Drawable (t.backgroundLines (BitVec.ofNat 8 tier))
  stages : ∀ tier < 6, ∀ line ∈ t.backgroundLines (BitVec.ofNat 8 tier),
    Drawable (t.backgroundStages (BitVec.ofNat 8 tier) line)
  variations : ∀ tier < 6, ∀ line ∈ t.backgroundLines (BitVec.ofNat 8 tier),
    ∀ stage ∈ t.backgroundStages (BitVec.ofNat 8 tier) line,
      t.backgroundVariations (BitVec.ofNat 8 tier) line stage ≠ 0
  expressions : t.expressionProbability[2] = MAX_CHANCE
  accessoryStages : t.stageProbability[2] = MAX_CHANCE

/-- The chances for the stages of accessories end with `MAX_CHANCE`. -/
theorem Tables.Consistent.maxStage_mem {t : Tables} (h : t.Consistent) : MAX_CHANCE ∈ t.stageProbability.toList := by
  rw [← h.accessoryStages, Vector.mem_toList_iff]
  exact Vector.getElem_mem _

theorem initialTables_consistent : initialTables.Consistent where
  illuvials := by decide
  lines := by decide
  stages := by decide
  variations := by decide
  expressions := rfl
  accessoryStages := rfl

end Minter
end Illuvitars
