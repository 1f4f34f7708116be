import Illuvitars.Lib.Reentrancy
import Illuvitars.Layer.Base

/-!
# The calls of a layer

All calls that change a layer between its deployment and an upgrade: minting, the transfers and approvals of the token
contract, the sale flags, the base URI and the ownership. A safe mint and a safe transfer call the recipient back, who
may call the layer again.

* `Call`, `call`: the calls and what they do;
* `call_mintFor`: the mint is that of `BaseIlluvitar.mintFor`, with a recipient who calls back;
* `call_effect`: everything that a successful call can do.
-/

namespace Illuvitars
namespace BaseIlluvitar

open Evm Minting

/-! ## Calls and the world -/

inductive Function
  | mintFor (recipient : Address) (quantity : Uint256) (mintingBlob : List Uint8)
  | transferFrom (holder recipient : Address) (tokenId : Uint256)
  | safeTransferFrom (holder recipient : Address) (tokenId : Uint256)
  | approve (recipient : Address) (tokenId : Uint256)
  | setApprovalForAll (operator : Address) (approved : Bool)
  | markForSale (tokenId : Uint256) (sale : Bool)
  | setBaseUri (baseUri : String)
  | transferOwnership (newOwner : Address)
  | renounceOwnership
deriving DecidableEq

/-- The functions that neither give a token nor mark one. -/
def Function.Quiet : Function → Prop
  | .approve _ _ | .setApprovalForAll _ _ | .setBaseUri _ | .transferOwnership _ | .renounceOwnership => True
  | _ => False

structure Call where
  sender : Address
  function : Function
deriving DecidableEq

/-- The storage of a layer, and the calls that have taken effect so far, in this order. -/
structure World (M : Type) extends Storage M where
  openForSale : Uint256 → Bool
  tokenApprovals : Uint256 → Address
  operatorApprovals : Address → Address → Bool
  owner : Address
  baseUri : String
  calls : List Call

variable {M : Type}

def World.record (c : Call) (w : World M) : World M := { w with calls := w.calls ++ [c] }

@[simp] theorem World.record_toStorage (c : Call) (w : World M) : (w.record c).toStorage = w.toStorage := rfl

@[simp] theorem World.record_openForSale (c : Call) (w : World M) : (w.record c).openForSale = w.openForSale := rfl

@[simp] theorem World.record_calls (c : Call) (w : World M) : (w.record c).calls = w.calls ++ [c] := rfl

/-! ## The token contract -/

def ownerOf (w : World M) (tokenId : Uint256) : Exec Address := do
  require (w.owners tokenId ≠ 0) "ERC721: owner query for nonexistent token"
  pure (w.owners tokenId)

def isApprovedOrOwner (w : World M) (spender : Address) (tokenId : Uint256) : Exec Bool := do
  require (w.owners tokenId ≠ 0) "ERC721: operator query for nonexistent token"
  let owner := w.owners tokenId
  pure (spender = owner || w.tokenApprovals tokenId = spender || w.operatorApprovals owner spender)

def transfer (holder recipient : Address) (tokenId : Uint256) (w : World M) : Exec (World M) := do
  let owner ← ownerOf w tokenId
  require (owner = holder) "ERC721: transfer of token that is not own"
  require (recipient ≠ 0) "ERC721: transfer to the zero address"
  let left ← checkedSub (w.balances holder) 1
  let balances := Function.update w.balances holder left
  let gained ← checkedAdd (balances recipient) 1
  pure { w with
    tokenApprovals := Function.update w.tokenApprovals tokenId 0
    balances := Function.update balances recipient gained
    owners := Function.update w.owners tokenId recipient }

/-- `transferFrom`, and the first part of `safeTransferFrom`. -/
def checkedTransfer (sender holder recipient : Address) (tokenId : Uint256) (w : World M) : Exec (World M) := do
  let approved ← isApprovedOrOwner w sender tokenId
  require (approved = true) "ERC721: transfer caller is not owner nor approved"
  transfer holder recipient tokenId w

def approve (sender recipient : Address) (tokenId : Uint256) (w : World M) : Exec (World M) := do
  let owner ← ownerOf w tokenId
  require (recipient ≠ owner) "ERC721: approval to current owner"
  require (sender = owner ∨ w.operatorApprovals owner sender = true)
    "ERC721: approve caller is not owner nor approved for all"
  pure { w with tokenApprovals := Function.update w.tokenApprovals tokenId recipient }

def setApprovalForAll (sender operator : Address) (approved : Bool) (w : World M) : Exec (World M) := do
  require (sender ≠ operator) "ERC721: approve to caller"
  pure { w with operatorApprovals :=
    Function.update w.operatorApprovals sender (Function.update (w.operatorApprovals sender) operator approved) }

/-! ## The layer's own functions -/

def markForSale (sender : Address) (tokenId : Uint256) (sale : Bool) (w : World M) : Exec (World M) := do
  let owner ← ownerOf w tokenId
  require (owner = sender) "Not token owner"
  pure { w with openForSale := Function.update w.openForSale tokenId sale }

def setBaseUri (sender : Address) (baseUri : String) (w : World M) : Exec (World M) := do
  require (w.owner = sender) "Ownable: caller is not the owner"
  pure { w with baseUri }

def transferOwnership (sender newOwner : Address) (w : World M) : Exec (World M) := do
  require (w.owner = sender) "Ownable: caller is not the owner"
  require (newOwner ≠ 0) "Ownable: new owner is the zero address"
  pure { w with owner := newOwner }

def renounceOwnership (sender : Address) (w : World M) : Exec (World M) := do
  require (w.owner = sender) "Ownable: caller is not the owner"
  pure { w with owner := 0 }

/-- An account that accepts a token without further calls. -/
def accepting : Receiver M := fun _ _ _ s => .ok s

/-- What a call does. The callee is the recipient of a safe mint or transfer; it finds the token in its hands already,
but a new token without its metadata. -/
def call (parseBlueprint : List Uint8 → Exec M) : Reentrancy.Contract (World M) Call
  | c@⟨sender, .mintFor recipient quantity mintingBlob⟩, hook, w => do
    require (quantity = 1) "Amount must be 1"
    require (sender = w.imxMinter) "caller is not minter"
    let (id, blueprint) ← split mintingBlob
    let s ← safeMint accepting sender recipient id w.toStorage
    let w ← hook ({ w with toStorage := s }.record c)
    let metadata ← parseBlueprint blueprint
    pure { w with
      metadata := Function.update w.metadata id metadata
      metadataInitialized := Function.update w.metadataInitialized id true }
  | c@⟨sender, .transferFrom holder recipient tokenId⟩, _, w => do
    let w ← checkedTransfer sender holder recipient tokenId w
    pure (w.record c)
  | c@⟨sender, .safeTransferFrom holder recipient tokenId⟩, hook, w => do
    let w ← checkedTransfer sender holder recipient tokenId w
    hook (w.record c)
  | c@⟨sender, .approve recipient tokenId⟩, _, w => do
    let w ← approve sender recipient tokenId w
    pure (w.record c)
  | c@⟨sender, .setApprovalForAll operator approved⟩, _, w => do
    let w ← setApprovalForAll sender operator approved w
    pure (w.record c)
  | c@⟨sender, .markForSale tokenId sale⟩, _, w => do
    let w ← markForSale sender tokenId sale w
    pure (w.record c)
  | c@⟨sender, .setBaseUri baseUri⟩, _, w => do
    let w ← setBaseUri sender baseUri w
    pure (w.record c)
  | c@⟨sender, .transferOwnership newOwner⟩, _, w => do
    let w ← transferOwnership sender newOwner w
    pure (w.record c)
  | c@⟨sender, .renounceOwnership⟩, _, w => do
    let w ← renounceOwnership sender w
    pure (w.record c)

/-! ## Deployment -/

/-- The world after `initialize`, with the nested initialisers of the base contracts; `empty` is the metadata of an
unused slot. -/
def initializeLayer (empty : M) (sender imxMinter : Address) : Exec (World M) := do
  require (imxMinter ≠ 0) "Minter cannot zero"
  pure { Storage.deployed imxMinter empty with
    openForSale := fun _ => false
    tokenApprovals := fun _ => 0
    operatorApprovals := fun _ _ => false
    owner := sender
    baseUri := ""
    calls := [] }

/-- The layer has just been deployed and initialised. -/
def Deployed (empty : M) (w : World M) : Prop := ∃ sender imxMinter, initializeLayer empty sender imxMinter = .ok w

abbrev Reachable (parseBlueprint : List Uint8 → Exec M) (empty : M) : World M → Prop :=
  Lts.Reachable (Deployed empty) (Reentrancy.Step (call parseBlueprint))

/-- A new layer is empty. -/
theorem Deployed.fresh {empty : M} {w : World M} (h : Deployed empty w) :
    w.calls = [] ∧ (∀ id, w.owners id = 0) ∧ (∀ id, w.metadataInitialized id = false) ∧
      ∀ id, w.openForSale id = false := by
  obtain ⟨sender, imxMinter, h⟩ := h
  simp only [initializeLayer, bind_ok_iff, pure_eq_ok, Except.ok.injEq] at h
  obtain ⟨-, -, rfl⟩ := h
  exact ⟨rfl, fun _ => rfl, fun _ => rfl, fun _ => rfl⟩

/-! ## Effects -/

section Effects

variable {parseBlueprint : List Uint8 → Exec M} {hook : World M → Exec (World M)} {w w' : World M} {c : Call}

/-- A safe mint creates the token and calls its recipient. -/
theorem safeMint_eq (receiver : Receiver M) (operator recipient : Address) (tokenId : Uint256) (s : Storage M) :
    safeMint receiver operator recipient tokenId s =
      safeMint accepting operator recipient tokenId s >>= receiver recipient operator tokenId := by
  unfold safeMint
  cases require (recipient ≠ 0) "ERC721: mint to the zero address" with
  | error e => rfl
  | ok _ =>
    cases require (s.owners tokenId = 0) "ERC721: token already minted" with
    | error e => rfl
    | ok _ =>
      cases checkedAdd (s.balances recipient) 1 with
      | error e => rfl
      | ok balance => rfl

/-- The mint is that of `BaseIlluvitar.mintFor`, with a recipient who does what the callee does. -/
theorem call_mintFor (hook : World M → Exec (World M)) (w : World M) (sender recipient : Address) (quantity : Uint256)
    (blob : List Uint8) :
    (call parseBlueprint ⟨sender, .mintFor recipient quantity blob⟩ hook w).map World.toStorage =
      mintFor parseBlueprint (fun _ _ _ s => (hook ({ w with toStorage := s }.record
        ⟨sender, .mintFor recipient quantity blob⟩)).map World.toStorage) sender recipient quantity blob
        w.toStorage := by
  simp only [call, mintFor, mint, safeMint_eq (fun _ _ _ s => (hook _).map World.toStorage)]
  cases require (quantity = 1) "Amount must be 1" with
  | error e => rfl
  | ok _ =>
    cases require (sender = w.imxMinter) "caller is not minter" with
    | error e => rfl
    | ok _ =>
      cases split blob with
      | error e => rfl
      | ok p =>
        obtain ⟨id, blueprint⟩ := p
        simp only [ok_bind]
        cases safeMint accepting sender recipient id w.toStorage with
        | error e => rfl
        | ok s =>
          simp only [ok_bind]
          cases hook _ with
          | error e => rfl
          | ok w' =>
            cases parseBlueprint blueprint with
            | error e => rfl
            | ok m => rfl

/-- Everything that a successful call can do. -/
inductive Effect (parseBlueprint : List Uint8 → Exec M) (hook : World M → Exec (World M)) (w : World M) :
    Call → World M → Prop
  | mint {recipient blob id blueprint balances m w'} : split blob = .ok (id, blueprint) → recipient ≠ 0 →
      w.owners id = 0 →
      hook ({ w with balances, owners := Function.update w.owners id recipient }.record
        ⟨w.imxMinter, .mintFor recipient 1 blob⟩) = .ok w' → parseBlueprint blueprint = .ok m →
      Effect parseBlueprint hook w ⟨w.imxMinter, .mintFor recipient 1 blob⟩ { w' with
        metadata := Function.update w'.metadata id m
        metadataInitialized := Function.update w'.metadataInitialized id true }
  | transfer {sender holder recipient id tokenApprovals balances} : w.owners id = holder → holder ≠ 0 →
      recipient ≠ 0 → Effect parseBlueprint hook w ⟨sender, .transferFrom holder recipient id⟩
        ({ w with tokenApprovals, balances, owners := Function.update w.owners id recipient }.record
          ⟨sender, .transferFrom holder recipient id⟩)
  | safeTransfer {sender holder recipient id tokenApprovals balances w'} : w.owners id = holder → holder ≠ 0 →
      recipient ≠ 0 →
      hook ({ w with tokenApprovals, balances, owners := Function.update w.owners id recipient }.record
        ⟨sender, .safeTransferFrom holder recipient id⟩) = .ok w' →
      Effect parseBlueprint hook w ⟨sender, .safeTransferFrom holder recipient id⟩ w'
  | mark {sender id sale} : w.owners id = sender → sender ≠ 0 →
      Effect parseBlueprint hook w ⟨sender, .markForSale id sale⟩
        ({ w with openForSale := Function.update w.openForSale id sale }.record ⟨sender, .markForSale id sale⟩)
  | approval {c tokenApprovals operatorApprovals owner baseUri} : c.function.Quiet →
      Effect parseBlueprint hook w c ({ w with tokenApprovals, operatorApprovals, owner, baseUri }.record c)

theorem ownerOf_ok_iff {tokenId : Uint256} {owner : Address} :
    ownerOf w tokenId = .ok owner ↔ w.owners tokenId = owner ∧ owner ≠ 0 := by
  simp only [ownerOf, bind_ok_iff, require_ok_iff, exists_const, pure_eq_ok, Except.ok.injEq]
  constructor
  · rintro ⟨h, rfl⟩
    exact ⟨rfl, h⟩
  · rintro ⟨rfl, h⟩
    exact ⟨h, rfl⟩

/-- A transfer moves a token of its holder. -/
theorem checkedTransfer_ok {sender holder recipient : Address} {tokenId : Uint256}
    (h : checkedTransfer sender holder recipient tokenId w = .ok w') :
    w.owners tokenId = holder ∧ holder ≠ 0 ∧ recipient ≠ 0 ∧ ∃ tokenApprovals balances,
      w' = { w with tokenApprovals, balances, owners := Function.update w.owners tokenId recipient } := by
  simp only [checkedTransfer, transfer, bind_ok_iff, require_ok_iff, exists_const, ownerOf_ok_iff, pure_eq_ok,
    Except.ok.injEq] at h
  obtain ⟨approved, -, -, owner, ⟨howner, hne⟩, rfl, hrecipient, left, -, gained, -, rfl⟩ := h
  exact ⟨howner, hne, hrecipient, _, _, rfl⟩

/-- **A successful call has its effect.** -/
theorem call_effect (h : call parseBlueprint c hook w = .ok w') : Effect parseBlueprint hook w c w' := by
  obtain ⟨sender, function⟩ := c
  cases function with
  | mintFor recipient quantity blob =>
    simp only [call, bind_ok_iff, require_ok_iff, exists_const, Prod.exists, pure_eq_ok, Except.ok.injEq] at h
    obtain ⟨rfl, rfl, id, bp, hsplit, s, hmint, w₂, hhook, m, hm, rfl⟩ := h
    simp only [safeMint, accepting, bind_ok_iff, require_ok_iff, exists_const, Except.ok.injEq] at hmint
    obtain ⟨hrecipient, hfree, balance, -, rfl⟩ := hmint
    exact .mint hsplit hrecipient hfree hhook hm
  | transferFrom holder recipient tokenId =>
    simp only [call, bind_ok_iff, pure_eq_ok, Except.ok.injEq] at h
    obtain ⟨w₁, h₁, rfl⟩ := h
    obtain ⟨hholder, hne, hrecipient, approvals, balances, rfl⟩ := checkedTransfer_ok h₁
    exact .transfer hholder hne hrecipient
  | safeTransferFrom holder recipient tokenId =>
    simp only [call, bind_ok_iff] at h
    obtain ⟨w₁, h₁, hhook⟩ := h
    obtain ⟨hholder, hne, hrecipient, approvals, balances, rfl⟩ := checkedTransfer_ok h₁
    exact .safeTransfer hholder hne hrecipient hhook
  | approve recipient tokenId =>
    simp only [call, approve, bind_ok_iff, pure_eq_ok, Except.ok.injEq] at h
    obtain ⟨w₁, ⟨owner, -, -, -, -, -, rfl⟩, rfl⟩ := h
    exact .approval trivial
  | setApprovalForAll operator approved =>
    simp only [call, setApprovalForAll, bind_ok_iff, pure_eq_ok, Except.ok.injEq] at h
    obtain ⟨w₁, ⟨-, -, rfl⟩, rfl⟩ := h
    exact .approval trivial
  | markForSale tokenId sale =>
    simp only [call, markForSale, bind_ok_iff, ownerOf_ok_iff, require_ok_iff, exists_const, pure_eq_ok,
      Except.ok.injEq] at h
    obtain ⟨w₁, ⟨owner, ⟨howner, hne⟩, rfl, rfl⟩, rfl⟩ := h
    exact .mark howner hne
  | setBaseUri baseUri =>
    simp only [call, setBaseUri, bind_ok_iff, pure_eq_ok, Except.ok.injEq] at h
    obtain ⟨w₁, ⟨-, -, rfl⟩, rfl⟩ := h
    exact .approval trivial
  | transferOwnership newOwner =>
    simp only [call, transferOwnership, bind_ok_iff, pure_eq_ok, Except.ok.injEq] at h
    obtain ⟨w₁, ⟨-, -, -, -, rfl⟩, rfl⟩ := h
    exact .approval trivial
  | renounceOwnership =>
    simp only [call, renounceOwnership, bind_ok_iff, pure_eq_ok, Except.ok.injEq] at h
    obtain ⟨w₁, ⟨-, -, rfl⟩, rfl⟩ := h
    exact .approval trivial

end Effects

end BaseIlluvitar
end Illuvitars
