import Mathlib.Logic.Function.Basic
import Illuvitars.Layer.Minting

/-!
# The base of the layers

`BaseIlluvitar` is a token contract whose tokens carry metadata of type `M`, decoded from the blueprint of a minting
blob. A layer fixes `M` and `parseBlueprint`; everything else is the same in both.

* `mintFor_ok_iff`: exactly when a mint succeeds and what it stores;
* `mintsAs_iff`: the bridge can mint a blueprint as `m` iff the layer parses it as `m`.
-/

namespace Illuvitars
namespace BaseIlluvitar

open Evm Minting

/-- Checks if a byte is the code of a decimal digit. -/
def isDecimal (char : Uint8) : Bool := 0x30 ≤ char.toNat && char.toNat < 0x3A

theorem isDecimal_iff {char : Uint8} : isDecimal char = true ↔ Decimal.IsDigit char := by
  simp [isDecimal, Decimal.IsDigit]

structure Storage (M : Type) where
  owners : Uint256 → Address
  balances : Address → Uint256
  imxMinter : Address
  metadataInitialized : Uint256 → Bool
  metadata : Uint256 → M

variable {M : Type}

/-- The storage of a new layer with the given bridge. -/
def Storage.deployed (imxMinter : Address) (m : M) : Storage M :=
  ⟨fun _ => 0, fun _ => 0, imxMinter, fun _ => false, fun _ => m⟩

/-- What `onERC721Received` of the recipient does, given the operator, the token id and the storage it finds: it
refuses, or accepts after calls of its own that may have changed the storage. Accounts without code accept. -/
abbrev Receiver (M : Type) := (recipient operator : Address) → (tokenId : Uint256) → Storage M → Exec (Storage M)

def safeMint (receiver : Receiver M) (operator recipient : Address) (tokenId : Uint256) (s : Storage M) :
    Exec (Storage M) := do
  require (recipient ≠ 0) "ERC721: mint to the zero address"
  require (s.owners tokenId = 0) "ERC721: token already minted"
  let balance ← checkedAdd (s.balances recipient) 1
  receiver recipient operator tokenId { s with
    balances := Function.update s.balances recipient balance
    owners := Function.update s.owners tokenId recipient }

/-- The `_mint` of a layer with the given parser. -/
def mint (parseBlueprint : List Uint8 → Exec M) (receiver : Receiver M) (operator recipient : Address)
    (tokenId : Uint256) (blueprint : List Uint8) (s : Storage M) : Exec (Storage M) := do
  let s ← safeMint receiver operator recipient tokenId s
  let metadata ← parseBlueprint blueprint
  pure { s with
    metadata := Function.update s.metadata tokenId metadata
    metadataInitialized := Function.update s.metadataInitialized tokenId true }

def mintFor (parseBlueprint : List Uint8 → Exec M) (receiver : Receiver M) (sender recipient : Address)
    (quantity : Uint256) (mintingBlob : List Uint8) (s : Storage M) : Exec (Storage M) := do
  require (quantity = 1) "Amount must be 1"
  require (sender = s.imxMinter) "caller is not minter"
  let (id, blueprint) ← split mintingBlob
  mint parseBlueprint receiver sender recipient id blueprint s

variable {parseBlueprint : List Uint8 → Exec M} {receiver : Receiver M} {sender recipient : Address}
  {quantity tokenId : Uint256} {blueprint blob : List Uint8} {s s' : Storage M} {m : M}

theorem mint_ok_iff :
    mint parseBlueprint receiver sender recipient tokenId blueprint s = .ok s' ↔
      ∃ s₁ m, safeMint receiver sender recipient tokenId s = .ok s₁ ∧ parseBlueprint blueprint = .ok m ∧
        s' = { s₁ with
          metadata := Function.update s₁.metadata tokenId m
          metadataInitialized := Function.update s₁.metadataInitialized tokenId true } := by
  simp only [mint, bind_ok_iff, pure_eq_ok, Except.ok.injEq]
  constructor
  · rintro ⟨s₁, h₁, m, hm, rfl⟩
    exact ⟨s₁, m, h₁, hm, rfl⟩
  · rintro ⟨s₁, m, h₁, hm, rfl⟩
    exact ⟨s₁, h₁, m, hm, rfl⟩

/-- Exactly when a mint succeeds, and what it stores. -/
theorem mintFor_ok_iff :
    mintFor parseBlueprint receiver sender recipient quantity blob s = .ok s' ↔
      quantity = 1 ∧ sender = s.imxMinter ∧ ∃ id blueprint, split blob = .ok (id, blueprint) ∧
        mint parseBlueprint receiver sender recipient id blueprint s = .ok s' := by
  simp only [mintFor, bind_ok_iff, require_ok_iff, Prod.exists]
  constructor
  · rintro ⟨_, hq, _, hs, id, bp, hsplit, hmint⟩
    exact ⟨hq, hs, id, bp, hsplit, hmint⟩
  · rintro ⟨hq, hs, id, bp, hsplit, hmint⟩
    exact ⟨(), hq, (), hs, id, bp, hsplit, hmint⟩

/-! ## Minting a blueprint -/

/-- The bridge can mint the blueprint as `m`: its calls with quantity 1 succeed and store `m`, wherever the token itself
can be minted. -/
def MintsAs (parseBlueprint : List Uint8 → Exec M) (blueprint : List Uint8) (m : M) : Prop :=
  ∀ (receiver : Receiver M) (sender recipient : Address) (tokenId : Uint256) (s s₁ : Storage M), sender = s.imxMinter →
    safeMint receiver sender recipient tokenId s = .ok s₁ →
    ∃ s', mintFor parseBlueprint receiver sender recipient 1 (mintingBlob tokenId blueprint) s = .ok s' ∧
      s'.metadata tokenId = m ∧ s'.metadataInitialized tokenId = true

/-- A blueprint that is minted has been parsed. -/
theorem parsed_of_split (hsplit : split blob = .ok (tokenId, blueprint))
    (h : mintFor parseBlueprint receiver sender recipient quantity blob s = .ok s') :
    parseBlueprint blueprint = .ok (s'.metadata tokenId) := by
  obtain ⟨-, -, id, bp, hsplit', hmint⟩ := mintFor_ok_iff.1 h
  rw [hsplit] at hsplit'
  cases hsplit'
  obtain ⟨s₁, m, -, hm, rfl⟩ := mint_ok_iff.1 hmint
  simpa using hm

theorem parsed_of_mintFor
    (h : mintFor parseBlueprint receiver sender recipient quantity (mintingBlob tokenId blueprint) s = .ok s') :
    parseBlueprint blueprint = .ok (s'.metadata tokenId) :=
  parsed_of_split split_mintingBlob h

/-- A new layer mints any token for an account without code. -/
theorem safeMint_deployed (imxMinter : Address) (m : M) :
    ∃ s₁, safeMint (fun _ _ _ s => .ok s) imxMinter 1 0 (Storage.deployed imxMinter m) = .ok s₁ :=
  ⟨_, rfl⟩

/-- **The bridge can mint a blueprint as `m` iff the layer parses it as `m`.** -/
theorem mintsAs_iff : MintsAs parseBlueprint blueprint m ↔ parseBlueprint blueprint = .ok m := by
  constructor
  · intro h
    obtain ⟨s₁, h₁⟩ := safeMint_deployed 1 m
    obtain ⟨s', hok, hm, -⟩ := h _ 1 1 0 _ s₁ rfl h₁
    rw [← hm]
    exact parsed_of_mintFor hok
  · intro h receiver sender recipient tokenId s s₁ hs h₁
    refine ⟨_, mintFor_ok_iff.2 ⟨rfl, hs, tokenId, blueprint, split_mintingBlob,
      mint_ok_iff.2 ⟨s₁, m, h₁, h, rfl⟩⟩, ?_, ?_⟩
    · simp
    · simp

end BaseIlluvitar
end Illuvitars
