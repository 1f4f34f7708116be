import Illuvitars.DataTypes
import Illuvitars.Layer.Base

/-!
# The accessory layer

An accessory blueprint is documented as three digits `abc`: box type, tier and accessory type. The parser collects the
digits in a buffer of two bytes and then reads a third, so it accepts no string at all (`parseBlueprint_error`): it does
what the format says exactly on the strings that the format rejects (`acceptsExactly_iff`).
-/

namespace Illuvitars
namespace AccessoryLayer

open Evm Minting BaseIlluvitar

structure Metadata where
  tier : Uint8
  accessoryType : AccessoryType
deriving DecidableEq, Repr

/-! ## The parser -/

/-- The loop over the bytes of the blueprint, with the write index `j` and the buffer `parsedData`. -/
def collectDigits : List Uint8 → Uint8 → List Uint8 → Exec (List Uint8)
  | [], _, parsedData => .ok parsedData
  | c :: cs, j, parsedData =>
    if isDecimal c then do
      let digit ← checkedSub c 0x30
      let parsedData ← store parsedData j.toNat digit
      let j ← checkedAdd j 1
      collectDigits cs j parsedData
    else collectDigits cs j parsedData

def parseBlueprint (blueprint : List Uint8) : Exec Metadata := do
  let parsedData ← collectDigits blueprint 0 (List.replicate 2 0)
  let tier ← index parsedData 1
  let encoding ← index parsedData 2
  let accessoryType ← AccessoryType.ofUint8 encoding
  pure { tier, accessoryType }

def mintFor : Receiver Metadata → (sender recipient : Address) → (quantity : Uint256) → (mintingBlob : List Uint8) →
    Storage Metadata → Exec (Storage Metadata) :=
  BaseIlluvitar.mintFor parseBlueprint

/-- The loop returns a buffer of the same size, or finds it full. -/
theorem collectDigits_cases (cs : List Uint8) (j : Uint8) (buf : List Uint8) (hbuf : buf.length < 256) :
    (∃ buf', collectDigits cs j buf = .ok buf' ∧ buf'.length = buf.length) ∨
      collectDigits cs j buf = .error (.panic 0x32) := by
  induction cs generalizing j buf with
  | nil => exact .inl ⟨buf, rfl, rfl⟩
  | cons c cs ih =>
    rw [collectDigits]
    split
    · rename_i hc
      obtain ⟨d, hd⟩ : ∃ d, checkedSub c 0x30 = .ok d := ⟨_, if_pos (isDecimal_iff.1 hc).1⟩
      rw [hd, ok_bind]
      by_cases hj : j.toNat < buf.length
      · -- the write index is inside the buffer, so its increment does not overflow
        obtain ⟨j', hj', -⟩ := checkedAdd_of_lt (show j.toNat + (1 : Uint8).toNat < 2 ^ 8 by
          have : (1 : Uint8).toNat = 1 := rfl
          omega)
        rw [store_of_lt hj, ok_bind, hj', ok_bind]
        have ih := ih j' (buf.set j.toNat d) (by rwa [List.length_set])
        rwa [List.length_set] at ih
      · right
        rw [store, if_neg hj, error_bind]
    · exact ih j buf hbuf

/-- **The parser accepts no string**: it always runs out of its buffer. -/
theorem parseBlueprint_error (blueprint : List Uint8) : parseBlueprint blueprint = .error (.panic 0x32) := by
  rw [parseBlueprint]
  rcases collectDigits_cases blueprint 0 (List.replicate 2 0) (by decide) with ⟨buf, hok, hlen⟩ | herr
  · rw [List.length_replicate] at hlen
    rw [hok, ok_bind, index_of_lt (by omega), ok_bind, index_of_ge (by omega), error_bind]
  · rw [herr, error_bind]

/-! ## The documented format -/

/-- The digits of a byte string. -/
def digits (blueprint : List Uint8) : List Uint8 := (blueprint.filter isDecimal).map (· - 0x30)

/-- The blueprint is documented: its digits are a box type, a tier and the encoding of an accessory type. -/
def Documented (blueprint : List Uint8) : Prop :=
  ∃ boxType tier encoding, digits blueprint = [boxType, tier, encoding] ∧ encoding.toNat < 5

/-- The blueprint is documented and means `m`. -/
def Means (blueprint : List Uint8) (m : Metadata) : Prop :=
  ∃ boxType encoding, digits blueprint = [boxType, m.tier, encoding] ∧
    AccessoryType.ofUint8 encoding = .ok m.accessoryType

/-- A documented blueprint means something. -/
theorem documented_iff {blueprint : List Uint8} : Documented blueprint ↔ ∃ m, Means blueprint m := by
  constructor
  · rintro ⟨boxType, tier, encoding, hd, h5⟩
    obtain ⟨t, ht⟩ := AccessoryType.ofUint8_ok.2 h5
    exact ⟨⟨tier, t⟩, boxType, encoding, hd, ht⟩
  · rintro ⟨m, boxType, encoding, hd, ht⟩
    exact ⟨boxType, m.tier, encoding, hd, AccessoryType.ofUint8_ok.1 ⟨_, ht⟩⟩

/-- The layer treats the blueprint as the format says: the parser returns `m` iff the blueprint means `m`, and then the
bridge can mint it as `m`. -/
structure AcceptsExactly (blueprint : List Uint8) : Prop where
  parsed : ∀ m, parseBlueprint blueprint = .ok m ↔ Means blueprint m
  minted : ∀ m, Means blueprint m → MintsAs parseBlueprint blueprint m

/-- **The layer treats a blueprint as the format says iff the blueprint is not documented**, since it accepts none; and
no call of `mintFor` succeeds. -/
theorem acceptsExactly_iff (blueprint : List Uint8) :
    (AcceptsExactly blueprint ↔ ¬Documented blueprint) ∧
      ∀ (receiver : Receiver Metadata) (sender recipient : Address) (quantity tokenId : Uint256)
        (s s' : Storage Metadata),
        mintFor receiver sender recipient quantity (mintingBlob tokenId blueprint) s ≠ .ok s' := by
  have hparse : ∀ m, parseBlueprint blueprint ≠ .ok m := not_ok_of_error (parseBlueprint_error blueprint)
  refine ⟨⟨?_, ?_⟩, ?_⟩
  · intro h hdoc
    obtain ⟨m, hm⟩ := documented_iff.1 hdoc
    exact hparse m ((h.parsed m).2 hm)
  · intro hdoc
    have hparsed : ∀ m, parseBlueprint blueprint = .ok m ↔ Means blueprint m := by
      intro m
      refine iff_of_false (hparse m) ?_
      intro hm
      exact hdoc (documented_iff.2 ⟨m, hm⟩)
    exact ⟨hparsed, fun m hm => mintsAs_iff.2 ((hparsed m).2 hm)⟩
  · intro receiver sender recipient quantity tokenId s s' hok
    exact hparse _ (parsed_of_mintFor hok)

/-- The blueprint `532`, an eye wear of tier 3 from a diamond box: the parser rejects it, and the bridge of a new layer
cannot mint it. -/
theorem documented_not_accepted :
    Means ("532".toList.map Decimal.code) ⟨3, .eyeWear⟩ ∧ ¬AcceptsExactly ("532".toList.map Decimal.code) ∧
      parseBlueprint ("532".toList.map Decimal.code) = .error (.panic 0x32) ∧
      mintFor (fun _ _ _ s => .ok s) 7 8 1 (mintingBlob 1 ("532".toList.map Decimal.code))
        (Storage.deployed 7 ⟨0, .skin⟩) = .error (.panic 0x32) := by
  have hmeans : Means ("532".toList.map Decimal.code) ⟨3, .eyeWear⟩ := ⟨5, 2, by decide, rfl⟩
  refine ⟨hmeans, ?_, by decide, ?_⟩
  · intro h
    exact absurd ((h.parsed _).2 hmeans) (by decide)
  · rw [mintFor, BaseIlluvitar.mintFor, split_mintingBlob]
    rfl

end AccessoryLayer
end Illuvitars
