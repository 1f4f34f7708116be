import Illuvitars.Layer.Base

/-!
# The portrait layer

A portrait blueprint is documented as `a,b,c,d,e,f`: a tier digit and the ids of five bonded accessories. The parser
looks for a second digit where this format has its first comma, so it decodes no blueprint of the format
(`blueprint_rejected`), and the bridge can mint none.
-/

namespace Illuvitars
namespace PortraitLayer

open Evm Decimal Minting BaseIlluvitar

structure Metadata where
  tier : Uint8
  skinId : Uint256
  bodyId : Uint256
  eyeId : Uint256
  headId : Uint256
  propsId : Uint256
deriving DecidableEq, Repr

/-! ## The parser

The loops walk a cursor of eight bits through the buffer. Each is a recursion on the part of the buffer that the cursor
has not passed; the increment of the cursor is checked. -/

/-- `_skipNonDecimal`, from the cursor `p` on the bytes `a[p..]`. -/
def skipNonDecimalFrom : List Uint8 → Uint8 → Exec Uint8
  | [], p => .ok p
  | c :: cs, p =>
    if isDecimal c then .ok p
    else do
      let p ← checkedAdd p 1
      skipNonDecimalFrom cs p

def skipNonDecimal (a : List Uint8) (offset : Uint8) : Exec Uint8 := skipNonDecimalFrom (a.drop offset.toNat) offset

/-- The loop of `_atoi`, from the cursor `p` on the bytes `a[p..]`. -/
def atoiFrom : List Uint8 → Uint256 → Uint8 → Exec (Uint256 × Uint8)
  | [], i, p => .ok (i, p)
  | c :: cs, i, p =>
    if !isDecimal c then .ok (i, p)
    else do
      let tens ← checkedMul i 10
      let digit ← checkedSub c 0x30
      let i ← checkedAdd tens (digit.setWidth 256)
      let p ← checkedAdd p 1
      atoiFrom cs i p

def atoi (a : List Uint8) (offset : Uint8) : Exec (Uint256 × Uint8) := do
  let p ← skipNonDecimal a offset
  atoiFrom (a.drop p.toNat) 0 p

def parseBlueprint (blueprint : List Uint8) : Exec Metadata := do
  let p ← skipNonDecimal blueprint 0
  let next ← checkedAdd p 1
  let second ← index blueprint next.toNat
  require (isDecimal second = true) "Wrong blueprint format"
  let first ← index blueprint p.toNat
  let p ← checkedAdd p 1
  let tier ← checkedSub first 0x30
  let (skinId, p) ← atoi blueprint p
  let (bodyId, p) ← atoi blueprint p
  let (eyeId, p) ← atoi blueprint p
  let (headId, p) ← atoi blueprint p
  let (propsId, p) ← atoi blueprint p
  let p ← skipNonDecimal blueprint p
  require (p.toNat = blueprint.length) "Wrong blueprint format"
  pure { tier, skinId, bodyId, eyeId, headId, propsId }

def mintFor : Receiver Metadata → (sender recipient : Address) → (quantity : Uint256) → (mintingBlob : List Uint8) →
    Storage Metadata → Exec (Storage Metadata) :=
  BaseIlluvitar.mintFor parseBlueprint

/-! ## The documented format -/

/-- The blueprint `a,b,c,d,e,f`. -/
def blueprint (a : ℕ) (b c d e f : Uint256) : List Uint8 :=
  decimal a ++ [b, c, d, e, f].flatMap (fun id => 0x2C :: decimal id.toNat)

/-- The layer decodes `a,b,c,d,e,f` as these numbers: the parser returns them, and the bridge can mint them. -/
structure Decodes (a : ℕ) (b c d e f : Uint256) : Prop where
  parsed : parseBlueprint (blueprint a b c d e f) = .ok ⟨BitVec.ofNat 8 a, b, c, d, e, f⟩
  minted : MintsAs parseBlueprint (blueprint a b c d e f) ⟨BitVec.ofNat 8 a, b, c, d, e, f⟩

/-- A blueprint that starts with one digit and a byte that is no digit is rejected. -/
theorem parseBlueprint_single_digit {c c' : Uint8} (cs : List Uint8) (hc : isDecimal c = true)
    (hc' : isDecimal c' = false) : parseBlueprint (c :: c' :: cs) = .error (.error "Wrong blueprint format") := by
  have hskip : skipNonDecimal (c :: c' :: cs) 0 = .ok 0 := by
    show skipNonDecimalFrom (c :: c' :: cs) 0 = .ok 0
    rw [skipNonDecimalFrom, if_pos hc]
  have hnext : checkedAdd (0 : Uint8) 1 = .ok 1 := rfl
  have hsecond : index (c :: c' :: cs) (1 : Uint8).toNat = .ok c' := rfl
  rw [parseBlueprint, hskip, ok_bind, hnext, ok_bind, hsecond, ok_bind, require_neg (by simp [hc']), error_bind]

/-- **No blueprint of the documented format is decoded**: the parser rejects each of them, and no call of `mintFor`
with one succeeds. -/
theorem blueprint_rejected (a : Fin 10) (b c d e f : Uint256) :
    parseBlueprint (blueprint a b c d e f) = .error (.error "Wrong blueprint format") ∧ ¬Decodes a b c d e f ∧
      ∀ (receiver : Receiver Metadata) (sender recipient : Address) (quantity tokenId : Uint256)
        (s s' : Storage Metadata),
        mintFor receiver sender recipient quantity (mintingBlob tokenId (blueprint a b c d e f)) s ≠ .ok s' := by
  have hparse : parseBlueprint (blueprint a b c d e f) = .error (.error "Wrong blueprint format") := by
    have hfirst : isDecimal (code (Nat.digitChar a)) = true := by
      have hdigit : (Nat.digitChar a).isDigit = true := by simp
      exact isDecimal_iff.2 (toNat_code hdigit).2
    rw [blueprint, decimal_of_lt a.isLt]
    exact parseBlueprint_single_digit _ hfirst (by decide)
  refine ⟨hparse, ?_, ?_⟩
  · intro h
    rw [h.parsed] at hparse
    cases hparse
  · intro receiver sender recipient quantity tokenId s s' hok
    rw [parsed_of_mintFor hok] at hparse
    cases hparse

/-- The blueprint `3,20,31,42,53,68`: the parser rejects it, and the bridge of a new layer cannot mint it. -/
theorem blueprint_not_decoded :
    blueprint 3 20 31 42 53 68 = "3,20,31,42,53,68".toList.map code ∧ ¬Decodes 3 20 31 42 53 68 ∧
      parseBlueprint (blueprint 3 20 31 42 53 68) = .error (.error "Wrong blueprint format") ∧
      mintFor (fun _ _ _ s => .ok s) 7 8 1 (mintingBlob 1 (blueprint 3 20 31 42 53 68))
        (Storage.deployed 7 ⟨0, 0, 0, 0, 0, 0⟩) = .error (.error "Wrong blueprint format") := by
  refine ⟨by decide, ?_, by decide, ?_⟩
  · intro h
    exact absurd h.parsed (by decide)
  · rw [mintFor, BaseIlluvitar.mintFor, split_mintingBlob]
    rfl

end PortraitLayer
end Illuvitars
