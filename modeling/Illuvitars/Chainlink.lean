import Mathlib.Logic.Function.Basic
import Illuvitars.Lib.Word

/-!
# The VRF consumer

`VRFRequestIDBase` and `VRFConsumerBaseUpgradeable`: a request pays LINK to the coordinator with `transferAndCall`,
derives its id from the consumer's own nonce, and increments the nonce. All data hashed by the contracts are sequences
of 32-byte words, so `keccak256` is a function of a list of words.
-/

namespace Illuvitars

open Evm

/-- The hash function, on the words that `abi.encode` of static values concatenates. -/
abbrev Keccak := List Uint256 → Uint256

namespace VRFConsumerBase

/-- The storage of the consumer. -/
structure Storage where
  LINK : Address
  vrfCoordinator : Address
  nonces : Bytes32 → Uint256

def USER_SEED_PLACEHOLDER : Uint256 := 0

variable (keccak256 : Keccak)

def makeVRFInputSeed (keyHash : Bytes32) (userSeed : Uint256) (requester : Address) (nonce : Uint256) : Uint256 :=
  keccak256 [keyHash, userSeed, requester.setWidth 256, nonce]

def makeRequestId (keyHash : Bytes32) (vRFInputSeed : Uint256) : Bytes32 := keccak256 [keyHash, vRFInputSeed]

/-- The id of the request that the consumer `this` makes with the given nonce. -/
def requestIdAt (this : Address) (keyHash : Bytes32) (nonce : Uint256) : Bytes32 :=
  makeRequestId keccak256 keyHash (makeVRFInputSeed keccak256 keyHash USER_SEED_PLACEHOLDER this nonce)

/-- `requestRandomness`: `transferAndCall` is the LINK token's function, acting on the state outside of the consumer. -/
def requestRandomness {X : Type} (this : Address)
    (transferAndCall : (link recipient : Address) → (value : Uint256) → (data : List Uint256) → X → Exec X)
    (keyHash : Bytes32) (fee : Uint256) (s : Storage) (x : X) : Exec (Storage × X × Bytes32) := do
  let x ← transferAndCall s.LINK s.vrfCoordinator fee [keyHash, USER_SEED_PLACEHOLDER] x
  let vRFSeed := makeVRFInputSeed keccak256 keyHash USER_SEED_PLACEHOLDER this (s.nonces keyHash)
  let nonce ← checkedAdd (s.nonces keyHash) 1
  pure ({ s with nonces := Function.update s.nonces keyHash nonce }, x, makeRequestId keccak256 keyHash vRFSeed)

/-- What a successful request does. -/
theorem requestRandomness_ok_iff {X : Type} {this : Address}
    {transferAndCall : Address → Address → Uint256 → List Uint256 → X → Exec X} {keyHash : Bytes32} {fee : Uint256}
    {s s' : Storage} {x x' : X} {id : Bytes32} :
    requestRandomness keccak256 this transferAndCall keyHash fee s x = .ok (s', x', id) ↔
      transferAndCall s.LINK s.vrfCoordinator fee [keyHash, USER_SEED_PLACEHOLDER] x = .ok x' ∧
      id = requestIdAt keccak256 this keyHash (s.nonces keyHash) ∧
      ∃ nonce : Uint256, nonce.toNat = (s.nonces keyHash).toNat + 1 ∧
        s' = { s with nonces := Function.update s.nonces keyHash nonce } := by
  simp only [requestRandomness, requestIdAt, bind_ok_iff, checkedAdd_ok_iff, pure_eq_ok, Except.ok.injEq,
    Prod.mk.injEq]
  constructor
  · rintro ⟨x₁, hx, nonce, hn, hs, rfl, hid⟩
    exact ⟨hx, hid.symm, nonce, by simpa using hn, hs.symm⟩
  · rintro ⟨hx, hid, nonce, hn, hs⟩
    exact ⟨x', hx, nonce, by simpa using hn, hs.symm, rfl, hid.symm⟩

end VRFConsumerBase

end Illuvitars
