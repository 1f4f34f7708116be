import Illuvitars.Lib.Holdings
import Illuvitars.Lib.Tokens
import Illuvitars.Layer.Serial

/-!
# Who holds the tokens

Runs with callbacks are sequences of calls without (`serializable`), so what follows looks at one call at a time.

* `MayTransfer`: who may move a token; `Does`: what a call without callbacks does, and the right it needs (`call_does`);
* `holdings_of_reachable`: balances count the tokens of their accounts, each token was minted once, and who can move it;
* `custody_of_run`: an account's tokens stay its own as long as neither it nor anyone it has approved makes a call,
  whatever all others do.
-/

namespace Illuvitars
namespace BaseIlluvitar

open Evm Minting Reentrancy Erc721

variable {M : Type} {parseBlueprint : List Uint8 → Exec M} {w w' : World M} {c : Call} {id : Uint256} {empty m : M}

/-! ## What a call does -/

/-- The sender may move the token of the holder. -/
def MayTransfer (w : World M) (sender holder : Address) (tokenId : Uint256) : Prop :=
  w.owners tokenId = holder ∧ holder ≠ 0 ∧
    (sender = holder ∨ w.tokenApprovals tokenId = sender ∨ w.operatorApprovals holder sender = true)

/-- The owner and the operators may approve an account for a token. -/
def MayApprove (w : World M) (sender : Address) (tokenId : Uint256) : Prop :=
  w.owners tokenId ≠ 0 ∧ (sender = w.owners tokenId ∨ w.operatorApprovals (w.owners tokenId) sender = true)

/-- The function moves the token from the holder to the recipient. -/
def Function.Transfers (holder recipient : Address) (tokenId : Uint256) (f : Function) : Prop :=
  f = .transferFrom holder recipient tokenId ∨ f = .safeTransferFrom holder recipient tokenId

/-- Everything that a call without callbacks can do. -/
inductive Does (w : World M) : Call → World M → Prop
  | mint {recipient blob id bp balance m} : split blob = .ok (id, bp) → recipient ≠ 0 → w.owners id = 0 →
      balance.toNat = (w.balances recipient).toNat + 1 → Does w ⟨w.imxMinter, .mintFor recipient 1 blob⟩
        (({ w with
          balances := Function.update w.balances recipient balance
          owners := Function.update w.owners id recipient }.record
          ⟨w.imxMinter, .mintFor recipient 1 blob⟩).write id m)
  | transfer {c holder recipient id balances} : c.function.Transfers holder recipient id →
      MayTransfer w c.sender holder id → recipient ≠ 0 → Erc20.Moves w.balances balances holder recipient 1 →
      Does w c ({ w with
        tokenApprovals := Function.update w.tokenApprovals id 0
        balances
        owners := Function.update w.owners id recipient }.record c)
  | mark {sender id sale} : w.owners id = sender → sender ≠ 0 → Does w ⟨sender, .markForSale id sale⟩
      ({ w with openForSale := Function.update w.openForSale id sale }.record ⟨sender, .markForSale id sale⟩)
  | approve {sender recipient id} : MayApprove w sender id → Does w ⟨sender, .approve recipient id⟩
      ({ w with tokenApprovals := Function.update w.tokenApprovals id recipient }.record
        ⟨sender, .approve recipient id⟩)
  | setApprovalForAll {sender operator approved} : Does w ⟨sender, .setApprovalForAll operator approved⟩
      ({ w with
        operatorApprovals := Function.update w.operatorApprovals sender
          (Function.update (w.operatorApprovals sender) operator approved) }.record
        ⟨sender, .setApprovalForAll operator approved⟩)
  | setBaseUri {baseUri} : Does w ⟨w.owner, .setBaseUri baseUri⟩
      ({ w with baseUri }.record ⟨w.owner, .setBaseUri baseUri⟩)
  | transferOwnership {newOwner} : newOwner ≠ 0 → Does w ⟨w.owner, .transferOwnership newOwner⟩
      ({ w with owner := newOwner }.record ⟨w.owner, .transferOwnership newOwner⟩)
  | renounceOwnership : Does w ⟨w.owner, .renounceOwnership⟩
      ({ w with owner := 0 }.record ⟨w.owner, .renounceOwnership⟩)

/-- A transfer needs the right to it, and moves one token. -/
theorem checkedTransfer_does {sender holder recipient : Address} {tokenId : Uint256}
    (h : checkedTransfer sender holder recipient tokenId w = .ok w') :
    MayTransfer w sender holder tokenId ∧ recipient ≠ 0 ∧ ∃ balances,
      Erc20.Moves w.balances balances holder recipient 1 ∧
      w' = { w with
        tokenApprovals := Function.update w.tokenApprovals tokenId 0
        balances
        owners := Function.update w.owners tokenId recipient } := by
  simp only [checkedTransfer, transfer, isApprovedOrOwner, ownerOf_ok_iff, bind_ok_iff, require_ok_iff, exists_const,
    pure_eq_ok, Except.ok.injEq] at h
  obtain ⟨approved, ⟨-, rfl⟩, htrue, owner, ⟨howner, hne⟩, rfl, hrecipient, left, hleft, gained, hgained, rfl⟩ := h
  have hmoves : Erc20.Moves w.balances _ owner recipient 1 :=
    Erc20.transfer_moves (bind_ok_iff.2 ⟨left, hleft, bind_ok_iff.2 ⟨gained, hgained, rfl⟩⟩)
  simp only [howner, Bool.or_eq_true, decide_eq_true_eq, or_assoc] at htrue
  exact ⟨⟨howner, hne, htrue⟩, hrecipient, _, hmoves, rfl⟩

/-- **What a call without callbacks does.** -/
theorem call_does (h : call parseBlueprint c .ok w = .ok w') : Does w c w' := by
  obtain ⟨sender, function⟩ := c
  cases function with
  | mintFor recipient quantity blob =>
    obtain ⟨rfl, rfl, id, bp, s, w₁, m, hsplit, hmint, hcallee, -, rfl⟩ := call_mint_ok_iff.1 h
    cases hcallee
    simp only [safeMint, accepting, bind_ok_iff, require_ok_iff, exists_const, Except.ok.injEq] at hmint
    obtain ⟨hrecipient, hfree, balance, hbalance, rfl⟩ := hmint
    exact .mint hsplit hrecipient hfree (checkedAdd_ok_iff.1 hbalance)
  | transferFrom holder recipient tokenId =>
    obtain ⟨w₁, h₁, h₂⟩ := bind_ok_iff.1 h
    cases h₂
    obtain ⟨hmay, hrecipient, balances, hmoves, rfl⟩ := checkedTransfer_does h₁
    exact .transfer (.inl rfl) hmay hrecipient hmoves
  | safeTransferFrom holder recipient tokenId =>
    obtain ⟨w₁, h₁, h₂⟩ := bind_ok_iff.1 h
    cases h₂
    obtain ⟨hmay, hrecipient, balances, hmoves, rfl⟩ := checkedTransfer_does h₁
    exact .transfer (.inr rfl) hmay hrecipient hmoves
  | approve recipient tokenId =>
    simp only [call, approve, bind_ok_iff, ownerOf_ok_iff, require_ok_iff, exists_const, pure_eq_ok,
      Except.ok.injEq] at h
    obtain ⟨w₁, ⟨owner, ⟨rfl, hne⟩, -, hsender, rfl⟩, rfl⟩ := h
    exact .approve ⟨hne, hsender⟩
  | setApprovalForAll operator approved =>
    simp only [call, setApprovalForAll, bind_ok_iff, pure_eq_ok, Except.ok.injEq] at h
    obtain ⟨w₁, ⟨-, -, rfl⟩, rfl⟩ := h
    exact .setApprovalForAll
  | markForSale tokenId sale =>
    simp only [call, markForSale, bind_ok_iff, ownerOf_ok_iff, require_ok_iff, exists_const, pure_eq_ok,
      Except.ok.injEq] at h
    obtain ⟨w₁, ⟨owner, ⟨howner, hne⟩, rfl, rfl⟩, rfl⟩ := h
    exact .mark howner hne
  | setBaseUri baseUri =>
    simp only [call, setBaseUri, bind_ok_iff, require_ok_iff, exists_const, pure_eq_ok, Except.ok.injEq] at h
    obtain ⟨w₁, ⟨rfl, rfl⟩, rfl⟩ := h
    exact .setBaseUri
  | transferOwnership newOwner =>
    simp only [call, transferOwnership, bind_ok_iff, require_ok_iff, exists_const, pure_eq_ok, Except.ok.injEq] at h
    obtain ⟨w₁, ⟨rfl, hne, rfl⟩, rfl⟩ := h
    exact .transferOwnership hne
  | renounceOwnership =>
    simp only [call, renounceOwnership, bind_ok_iff, require_ok_iff, exists_const, pure_eq_ok, Except.ok.injEq] at h
    obtain ⟨w₁, ⟨rfl, rfl⟩, rfl⟩ := h
    exact .renounceOwnership

/-! ## Balances -/

/-- The call is a mint. -/
def Call.isMint : Call → Bool
  | ⟨_, .mintFor _ _ _⟩ => true
  | _ => false

/-- The token that a mint creates. -/
def Call.mintedId : Call → Option Uint256
  | ⟨_, .mintFor _ _ blob⟩ => (split blob).toOption.map Prod.fst
  | _ => none

/-- The tokens that the calls have created, in this order. -/
def mintedIds (calls : List Call) : List Uint256 := calls.filterMap Call.mintedId

/-- The tokens that exist. -/
def minted (owners : Uint256 → Address) (id : Uint256) : Bool := decide (owners id ≠ 0)

/-- Balances count tokens, tokens count mints, what exists was minted once, and what does not exist is not approved for
anyone. -/
structure Held (w : World M) : Prop where
  balances : ∀ a ≠ 0, (w.balances a).toNat = holdings w.owners a
  nobody : w.balances 0 = 0
  supply : holdings (minted w.owners) true = w.calls.countP Call.isMint
  once : (mintedIds w.calls).Nodup
  exist : ∀ id, id ∈ mintedIds w.calls ↔ w.owners id ≠ 0
  approvals : ∀ id, w.owners id = 0 → w.tokenApprovals id = 0

theorem minted_update (owners : Uint256 → Address) {recipient : Address} (hrecipient : recipient ≠ 0) :
    minted (Function.update owners id recipient) = Function.update (minted owners) id true := by
  funext id'
  by_cases h : id' = id
  · subst h
    simpa [minted] using hrecipient
  · simp [minted, h]

/-- A token that is new adds to the supply, -/
theorem supply_mint {owners : Uint256 → Address} {recipient : Address} (hrecipient : recipient ≠ 0)
    (hfree : owners id = 0) :
    holdings (minted (Function.update owners id recipient)) true = holdings (minted owners) true + 1 := by
  have h := holdings_update (minted owners) id true true
  have hnew : minted owners id = false := by simp [minted, hfree]
  rwa [← minted_update owners hrecipient, hnew, if_neg (by decide), if_pos rfl, Nat.add_zero] at h

/-- one that changes hands does not. -/
theorem supply_transfer {owners : Uint256 → Address} {recipient : Address} (hrecipient : recipient ≠ 0)
    (hid : owners id ≠ 0) :
    holdings (minted (Function.update owners id recipient)) true = holdings (minted owners) true := by
  have hold : minted owners id = true := by simpa [minted] using hid
  rw [minted_update owners hrecipient, ← hold, Function.update_eq_self]

theorem mintedIds_mint {sender recipient : Address} {quantity : Uint256} {blob bp : List Uint8} {calls : List Call}
    (hsplit : split blob = .ok (id, bp)) :
    mintedIds (calls ++ [⟨sender, .mintFor recipient quantity blob⟩]) = mintedIds calls ++ [id] := by
  have hid : Call.mintedId ⟨sender, .mintFor recipient quantity blob⟩ = some id := by
    simp only [Call.mintedId, hsplit]
    rfl
  rw [mintedIds, List.filterMap_append, List.filterMap_cons_some hid]
  rfl

/-- A call that is no mint creates nothing. -/
theorem mintedIds_of_not_isMint {calls : List Call} (hc : c.isMint = false) :
    mintedIds (calls ++ [c]) = mintedIds calls := by
  have hid : c.mintedId = none := by
    obtain ⟨sender, function⟩ := c
    cases function with
    | mintFor => cases hc
    | _ => rfl
  rw [mintedIds, List.filterMap_append, List.filterMap_cons_none hid, List.filterMap_nil, List.append_nil]
  rfl

/-- What no mint changes, if the tokens that exist stay the same. -/
theorem Held.exist_of_not_isMint (hw : Held w) (hc : c.isMint = false) {owners : Uint256 → Address}
    (howners : ∀ id, owners id = 0 ↔ w.owners id = 0) :
    (mintedIds (w.calls ++ [c])).Nodup ∧ ∀ id, id ∈ mintedIds (w.calls ++ [c]) ↔ owners id ≠ 0 := by
  rw [mintedIds_of_not_isMint hc]
  exact ⟨hw.once, fun id => (hw.exist id).trans (howners id).not.symm⟩

/-- A call that moves no token. -/
theorem Held.quiet (hw : Held w) (hc : c.isMint = false) (hcalls : w'.calls = w.calls ++ [c])
    (howners : w'.owners = w.owners) (hbalances : w'.balances = w.balances)
    (happrovals : ∀ id, w.owners id = 0 → w'.tokenApprovals id = 0) : Held w' := by
  have hexist := hw.exist_of_not_isMint hc fun _ => Iff.rfl
  refine ⟨?_, hbalances ▸ hw.nobody, ?_, hcalls ▸ hexist.1, ?_, howners ▸ happrovals⟩
  · rw [hbalances, howners]
    exact hw.balances
  · rw [howners, hcalls, List.countP_append, List.countP_singleton, hc]
    exact hw.supply
  · rw [hcalls, howners]
    exact hexist.2

/-- One call keeps the balances. -/
theorem Held.step (hw : Held w) (h : Does w c w') : Held w' := by
  cases h with
  | mint hsplit hrecipient hfree hbalance =>
    rename_i recipient blob id bp balance m
    have hids : mintedIds (w.calls ++ [⟨w.imxMinter, .mintFor recipient 1 blob⟩]) = mintedIds w.calls ++ [id] :=
      mintedIds_mint hsplit
    have hnew : id ∉ mintedIds w.calls := fun hid => (hw.exist id).1 hid hfree
    refine ⟨?_, ?_, ?_, ?_, ?_, ?_⟩
    · intro a ha
      have h := holdings_update w.owners id recipient a
      rw [hfree, if_neg ha, Nat.add_zero] at h
      show (Function.update w.balances recipient balance a).toNat = holdings (Function.update w.owners id recipient) a
      rw [h, ← hw.balances a ha]
      by_cases he : a = recipient
      · subst he
        rw [Function.update_self, hbalance, if_pos rfl]
      · rw [Function.update_of_ne he, if_neg he, Nat.add_zero]
    · show Function.update w.balances recipient balance 0 = 0
      rw [Function.update_of_ne hrecipient.symm]
      exact hw.nobody
    · show holdings (minted (Function.update w.owners id recipient)) true = List.countP _ (w.calls ++ [_])
      rw [supply_mint hrecipient hfree, hw.supply, List.countP_append]
      rfl
    · show (mintedIds (w.calls ++ [_])).Nodup
      rw [hids]
      exact hw.once.append (List.nodup_singleton id) (by simpa using hnew)
    · intro id'
      show id' ∈ mintedIds (w.calls ++ [_]) ↔ Function.update w.owners id recipient id' ≠ 0
      rw [hids, List.mem_append, List.mem_singleton, hw.exist]
      by_cases he : id' = id
      · subst he
        simpa using hrecipient
      · simp [he]
    · intro id' hid'
      by_cases he : id' = id
      · subst he
        exact hw.approvals id' hfree
      · exact hw.approvals id' (by simpa [World.write, World.record, Function.update_of_ne he] using hid')
  | transfer hf hmay hrecipient hmoves =>
    rename_i holder recipient id balances
    obtain ⟨howner, hne, -⟩ := hmay
    have hmint : c.isMint = false := by
      obtain ⟨sender, function⟩ := c
      rcases hf with rfl | rfl <;> rfl
    have hone : (1 : Uint256).toNat = 1 := rfl
    have hexist := hw.exist_of_not_isMint hmint (owners_update_eq_zero (howner ▸ hne) hrecipient)
    refine ⟨?_, ?_, ?_, hexist.1, hexist.2, ?_⟩
    · intro a ha
      have h := holdings_update w.owners id recipient a
      have hmove := hmoves a
      rw [howner] at h
      rw [hone] at hmove
      have hbal := hw.balances a ha
      show (balances a).toNat = holdings (Function.update w.owners id recipient) a
      omega
    · have hmove := hmoves 0
      rw [if_neg hne.symm, if_neg hrecipient.symm, hw.nobody] at hmove
      exact BitVec.eq_of_toNat_eq hmove
    · show holdings (minted (Function.update w.owners id recipient)) true = List.countP _ (w.calls ++ [c])
      rw [supply_transfer hrecipient (howner ▸ hne), hw.supply, List.countP_append, List.countP_singleton, hmint]
      rfl
    · intro id' hid'
      by_cases he : id' = id
      · subst he
        exact Function.update_self _ _ _
      · have hid : w.owners id' = 0 := by simpa [World.record, Function.update_of_ne he] using hid'
        exact (Function.update_of_ne he _ _).trans (hw.approvals id' hid)
  | mark => exact hw.quiet rfl rfl rfl rfl hw.approvals
  | approve hmay =>
    rename_i sender recipient id
    refine hw.quiet rfl rfl rfl rfl ?_
    intro id' hid'
    have he : id' ≠ id := fun he => hmay.1 (he ▸ hid')
    exact (Function.update_of_ne he _ _).trans (hw.approvals id' hid')
  | setApprovalForAll => exact hw.quiet rfl rfl rfl rfl hw.approvals
  | setBaseUri => exact hw.quiet rfl rfl rfl rfl hw.approvals
  | transferOwnership => exact hw.quiet rfl rfl rfl rfl hw.approvals
  | renounceOwnership => exact hw.quiet rfl rfl rfl rfl hw.approvals

/-- The balances of a reachable layer. -/
theorem held_reachable (h : Reachable parseBlueprint empty w) : Held w := by
  refine h.serial_invariant ?_ (fun hw hok => hw.step (call_does hok))
  rintro w ⟨sender, imxMinter, h0⟩
  simp only [initializeLayer, bind_ok_iff, pure_eq_ok, Except.ok.injEq] at h0
  obtain ⟨-, -, rfl⟩ := h0
  refine ⟨?_, rfl, ?_, List.nodup_nil, ?_, fun _ _ => rfl⟩
  · intro a ha
    exact (holdings_const_of_ne (T := Uint256) ha.symm).symm
  · have hnone : minted (fun _ => 0) = fun _ => false := rfl
    show holdings (minted (fun _ => 0)) true = 0
    rw [hnone, holdings_const_of_ne (by decide)]
  · intro id
    show id ∈ [] ↔ (0 : Address) ≠ 0
    simp

/-- The tokens of an account are some of the tokens, and not all if another account has one. -/
theorem Held.balance_lt (hw : Held w) {a : Address} (ha : a ≠ 0) (hid : w.owners id ≠ 0) (hother : w.owners id ≠ a) :
    (w.balances a).toNat < w.calls.countP Call.isMint := by
  rw [hw.balances a ha, ← hw.supply]
  refine Set.ncard_lt_ncard ⟨?_, ?_⟩
  · intro id' hid'
    have hid' : w.owners id' = a := hid'
    simpa [minted, hid'] using ha
  · intro hsub
    exact hother (hsub (show minted w.owners id = true by simpa [minted] using hid))

/-- A transfer that the sender may make passes its checks, unless there are as many tokens as ids. -/
theorem Held.checkedTransfer_iff (hw : Held w) (hsupply : w.calls.countP Call.isMint < 2 ^ 256)
    {sender holder recipient : Address} {tokenId : Uint256} :
    (∃ w', checkedTransfer sender holder recipient tokenId w = .ok w') ↔
      MayTransfer w sender holder tokenId ∧ recipient ≠ 0 := by
  constructor
  · rintro ⟨w', h⟩
    obtain ⟨hmay, hrecipient, -⟩ := checkedTransfer_does h
    exact ⟨hmay, hrecipient⟩
  · rintro ⟨⟨howner, hne, hright⟩, hrecipient⟩
    have hone : (1 : Uint256).toNat = 1 := rfl
    -- the holder has the token, so its balance is not zero
    have hpos : 0 < (w.balances holder).toNat := by
      rw [hw.balances holder hne]
      exact (Set.ncard_pos).2 ⟨tokenId, howner⟩
    obtain ⟨left, hleft⟩ := (exists_toNat_eq (w := 256)).2 (show (w.balances holder).toNat - 1 < 2 ^ 256 by
      have := (w.balances holder).isLt
      omega)
    have hleft' : checkedSub (w.balances holder) 1 = .ok left := checkedSub_ok_iff.2 (by omega)
    have hroom : (Function.update w.balances holder left recipient).toNat + 1 < 2 ^ 256 := by
      by_cases he : recipient = holder
      · subst he
        have := (w.balances recipient).isLt
        rw [Function.update_self]
        omega
      · rw [Function.update_of_ne he]
        have := hw.balance_lt hrecipient (howner ▸ hne) (howner ▸ Ne.symm he)
        omega
    obtain ⟨gained, hgained⟩ := (exists_toNat_eq (w := 256)).2 hroom
    have hgained' : checkedAdd (Function.update w.balances holder left recipient) 1 = .ok gained :=
      checkedAdd_ok_iff.2 hgained
    have happroved : (decide (sender = holder) || decide (w.tokenApprovals tokenId = sender) ||
        w.operatorApprovals holder sender) = true := by
      simpa [or_assoc] using hright
    simp only [checkedTransfer, transfer, isApprovedOrOwner, ownerOf_ok_iff, bind_ok_iff, require_ok_iff,
      exists_const, pure_eq_ok, Except.ok.injEq]
    subst howner
    exact ⟨_, true, ⟨hne, happroved⟩, rfl, w.owners tokenId, ⟨rfl, hne⟩, rfl, hrecipient, left, hleft', gained,
      hgained', rfl⟩

section Transfers

variable {hook : World M → Exec (World M)} {sender holder recipient : Address}

/-- Nobody is called back by `transferFrom`, -/
theorem transferFrom_ok_iff :
    (∃ w', call parseBlueprint ⟨sender, .transferFrom holder recipient id⟩ hook w = .ok w') ↔
      ∃ w₁, checkedTransfer sender holder recipient id w = .ok w₁ := by
  constructor
  · rintro ⟨w', h⟩
    obtain ⟨w₁, h₁, -⟩ := bind_ok_iff.1 h
    exact ⟨w₁, h₁⟩
  · rintro ⟨w₁, h₁⟩
    exact ⟨_, bind_ok_iff.2 ⟨w₁, h₁, rfl⟩⟩

/-- while the recipient of a `safeTransferFrom` has to accept the token, which it has already. -/
theorem safeTransferFrom_ok_iff :
    (∃ w', call parseBlueprint ⟨sender, .safeTransferFrom holder recipient id⟩ hook w = .ok w') ↔
      (∃ w₁, checkedTransfer sender holder recipient id w = .ok w₁) ∧
        ∀ w₁, checkedTransfer sender holder recipient id w = .ok w₁ →
          ∃ w', hook (w₁.record ⟨sender, .safeTransferFrom holder recipient id⟩) = .ok w' := by
  constructor
  · rintro ⟨w', h⟩
    obtain ⟨w₁, h₁, h₂⟩ := bind_ok_iff.1 h
    refine ⟨⟨w₁, h₁⟩, ?_⟩
    intro w₂ h₃
    obtain rfl : w₁ = w₂ := Except.ok.inj (h₁.symm.trans h₃)
    exact ⟨w', h₂⟩
  · rintro ⟨⟨w₁, h₁⟩, haccepts⟩
    obtain ⟨w', h₂⟩ := haccepts w₁ h₁
    exact ⟨w', bind_ok_iff.2 ⟨w₁, h₁, h₂⟩⟩

end Transfers

/-- **Balances count the tokens of their accounts, and the tokens that exist are those minted, each once**, in every
reachable layer and whatever recipients do while they are called back; and with fewer tokens than ids a transfer goes
through iff its sender may make it and, where the recipient is asked, it accepts. -/
theorem holdings_of_reachable (h : Reachable parseBlueprint empty w) :
    (∀ a ≠ 0, (w.balances a).toNat = Set.ncard {id | w.owners id = a}) ∧ w.balances 0 = 0 ∧
    Set.ncard {id | w.owners id ≠ 0} = w.calls.countP Call.isMint ∧
    (mintedIds w.calls).Nodup ∧ (∀ id, id ∈ mintedIds w.calls ↔ w.owners id ≠ 0) ∧
    (∀ id, w.owners id = 0 → w.tokenApprovals id = 0) ∧
    (w.calls.countP Call.isMint < 2 ^ 256 → ∀ sender holder recipient id hook,
      ((∃ w', call parseBlueprint ⟨sender, .transferFrom holder recipient id⟩ hook w = .ok w') ↔
        MayTransfer w sender holder id ∧ recipient ≠ 0) ∧
      ((∃ w', call parseBlueprint ⟨sender, .safeTransferFrom holder recipient id⟩ hook w = .ok w') ↔
        (MayTransfer w sender holder id ∧ recipient ≠ 0) ∧
          ∀ w₁, checkedTransfer sender holder recipient id w = .ok w₁ →
            ∃ w', hook (w₁.record ⟨sender, .safeTransferFrom holder recipient id⟩) = .ok w')) := by
  have hw := held_reachable h
  have hsupply := hw.supply
  simp only [holdings, minted, decide_eq_true_eq] at hsupply
  refine ⟨hw.balances, hw.nobody, hsupply, hw.once, hw.exist, hw.approvals, ?_⟩
  intro hfew sender holder recipient id hook
  rw [transferFrom_ok_iff, safeTransferFrom_ok_iff, hw.checkedTransfer_iff hfew]
  exact ⟨Iff.rfl, Iff.rfl⟩

/-! ## Custody -/

/-- The account has approved the other one for all its tokens or for one of them. -/
def Trusts (w : World M) (a o : Address) : Prop :=
  w.operatorApprovals a o = true ∨ ∃ id, w.owners id = a ∧ w.tokenApprovals id = o

/-- The tokens that an account had in `w` are still its own, approved for the same accounts and with the same mark, and
what it has gained is approved for nobody. -/
structure Kept (a : Address) (w w' : World M) : Prop where
  operators : ∀ o, w'.operatorApprovals a o = w.operatorApprovals a o
  tokens : ∀ id, w.owners id = a → w'.owners id = a ∧ w'.tokenApprovals id = w.tokenApprovals id ∧
    w'.openForSale id = w.openForSale id
  gained : ∀ id, w'.owners id = a → w.owners id ≠ a → w'.tokenApprovals id = 0

theorem Kept.refl (a : Address) (w : World M) : Kept a w w :=
  ⟨fun _ => rfl, fun _ h => ⟨h, rfl, rfl⟩, fun _ h hne => (hne h).elim⟩

section Custody

variable {a : Address} {w₁ : World M}

/-- The account comes to trust nobody new. -/
theorem Kept.not_trusts (hw : Kept a w w') {o : Address} (ho : o ≠ 0) (htrust : ¬Trusts w a o) : ¬Trusts w' a o := by
  rintro (hoperator | ⟨id, howner, happroved⟩)
  · exact htrust (.inl ((hw.operators o).symm.trans hoperator))
  · by_cases hid : w.owners id = a
    · exact htrust (.inr ⟨id, hid, (hw.tokens id hid).2.1.symm.trans happroved⟩)
    · exact ho (happroved.symm.trans (hw.gained id howner hid))

/-- Its tokens cannot be moved -/
theorem Kept.not_mayTransfer (hw : Kept a w w₁) {sender holder : Address} (hsender : sender ≠ a)
    (htrust : ¬Trusts w a sender) (hid : w.owners id = a) : ¬MayTransfer w₁ sender holder id := by
  rintro ⟨hholder, -, hright⟩
  obtain ⟨howner, happroved, -⟩ := hw.tokens id hid
  obtain rfl : a = holder := howner.symm.trans hholder
  rcases hright with hself | htoken | hoperator
  · exact hsender hself
  · exact htrust (.inr ⟨id, hid, happroved.symm.trans htoken⟩)
  · exact htrust (.inl ((hw.operators _).symm.trans hoperator))

/-- or approved by anyone else. -/
theorem Kept.not_mayApprove (hw : Kept a w w₁) {sender : Address} (hsender : sender ≠ a) (htrust : ¬Trusts w a sender)
    (hid : w₁.owners id = a) : ¬MayApprove w₁ sender id := by
  rintro ⟨-, hright⟩
  rw [hid] at hright
  rcases hright with hself | hoperator
  · exact hsender hself
  · exact htrust (.inl ((hw.operators _).symm.trans hoperator))

/-- One call of an account that is neither the owner nor trusted. -/
theorem Kept.step (hw : Kept a w w₁) (hheld : Held w₁) (ha : a ≠ 0) (hsender : c.sender ≠ a)
    (htrust : ¬Trusts w a c.sender) (h : Does w₁ c w') : Kept a w w' := by
  cases h with
  | mint hsplit hrecipient hfree hbalance =>
    rename_i recipient blob id bp balance m
    refine ⟨hw.operators, ?_, ?_⟩
    · intro id' hid'
      obtain ⟨howner, happroved, hmark⟩ := hw.tokens id' hid'
      -- a token of the account is not free
      have hne : id' ≠ id := fun he => ha (howner.symm.trans (he ▸ hfree))
      exact ⟨(Function.update_of_ne hne _ _).trans howner, happroved, hmark⟩
    · intro id' hid' hnew
      by_cases he : id' = id
      · subst he
        exact hheld.approvals id' hfree
      · exact hw.gained id' ((Function.update_of_ne he _ _).symm.trans hid') hnew
  | transfer hf hmay hrecipient hmoves =>
    rename_i holder recipient id balances
    refine ⟨hw.operators, ?_, ?_⟩
    · intro id' hid'
      obtain ⟨howner, happroved, hmark⟩ := hw.tokens id' hid'
      have hne : id' ≠ id := fun he => hw.not_mayTransfer hsender htrust (he ▸ hid') hmay
      exact ⟨(Function.update_of_ne hne _ _).trans howner, (Function.update_of_ne hne _ _).trans happroved, hmark⟩
    · intro id' hid' hnew
      by_cases he : id' = id
      · subst he
        exact Function.update_self _ _ _
      · exact (Function.update_of_ne he _ _).trans
          (hw.gained id' ((Function.update_of_ne he _ _).symm.trans hid') hnew)
  | mark hid hne =>
    rename_i sender id sale
    refine ⟨hw.operators, ?_, hw.gained⟩
    intro id' hid'
    obtain ⟨howner, happroved, hmark⟩ := hw.tokens id' hid'
    have hne' : id' ≠ id := fun he => hsender (hid.symm.trans (he ▸ howner))
    exact ⟨howner, happroved, (Function.update_of_ne hne' _ _).trans hmark⟩
  | approve hmay =>
    rename_i sender recipient id
    have hother : ∀ id', w₁.owners id' = a → id' ≠ id := by
      rintro id' hid' rfl
      exact hw.not_mayApprove hsender htrust hid' hmay
    refine ⟨hw.operators, ?_, ?_⟩
    · intro id' hid'
      obtain ⟨howner, happroved, hmark⟩ := hw.tokens id' hid'
      exact ⟨howner, (Function.update_of_ne (hother id' howner) _ _).trans happroved, hmark⟩
    · intro id' hid' hnew
      exact (Function.update_of_ne (hother id' hid') _ _).trans (hw.gained id' hid' hnew)
  | setApprovalForAll =>
    rename_i sender operator approved
    refine ⟨?_, hw.tokens, hw.gained⟩
    intro o
    show Function.update w₁.operatorApprovals sender _ a o = _
    rw [Function.update_of_ne hsender.symm]
    exact hw.operators o
  | setBaseUri => exact ⟨hw.operators, hw.tokens, hw.gained⟩
  | transferOwnership => exact ⟨hw.operators, hw.tokens, hw.gained⟩
  | renounceOwnership => exact ⟨hw.operators, hw.tokens, hw.gained⟩

/-- A sequence of such calls. -/
theorem Kept.sequential {cs : List Call} (hw : Kept a w w₁) (hheld : Held w₁) (ha : a ≠ 0)
    (hcs : ∀ c ∈ cs, c.sender ≠ a ∧ ¬Trusts w a c.sender)
    (h : sequential (call parseBlueprint) cs w₁ = .ok w') : Kept a w w' := by
  induction cs generalizing w₁ with
  | nil =>
    cases h
    exact hw
  | cons c cs ih =>
    obtain ⟨w₂, h₁, h₂⟩ := bind_ok_iff.1 h
    obtain ⟨hsender, htrust⟩ := hcs c List.mem_cons_self
    have hdoes := call_does h₁
    exact ih (hw.step hheld ha hsender htrust hdoes) (hheld.step hdoes)
      (fun c hc => hcs c (List.mem_cons_of_mem _ hc)) h₂

/-- Who keeps its tokens keeps its balance, or gains. -/
theorem Kept.balance_le (hw : Kept a w w') (ha : a ≠ 0) (hheld : Held w) (hheld' : Held w') :
    (w.balances a).toNat ≤ (w'.balances a).toNat := by
  rw [hheld.balances a ha, hheld'.balances a ha]
  exact Set.ncard_le_ncard fun id hid => (hw.tokens id hid).1

/-- **Nobody takes a token from an account that does not act and trusts nobody who does**: whatever the other accounts
call, and whatever they do when they are called back, the tokens stay with it, and so do their approvals and marks; and
its balance is never lower than it was before, at the start or at any later point `u` of the run. -/
theorem custody_of_run {js ks : List (Call × Hook Call)} {u : World M} (ha : a ≠ 0)
    (h : Reachable parseBlueprint empty w) (hjs : Lts.Run (Step (call parseBlueprint)) w js u)
    (hks : Lts.Run (Step (call parseBlueprint)) u ks w')
    (hothers : ∀ c ∈ w'.calls.drop w.calls.length, c.sender ≠ 0 ∧ c.sender ≠ a ∧ ¬Trusts w a c.sender) :
    Kept a w w' ∧ (w.balances a).toNat ≤ (u.balances a).toNat ∧ (u.balances a).toNat ≤ (w'.balances a).toNat := by
  obtain ⟨cs₁, hcalls₁, hseq₁⟩ := serial_of_run hjs
  obtain ⟨cs₂, hcalls₂, hseq₂⟩ := serial_of_run hks
  rw [hcalls₂, hcalls₁, List.append_assoc, List.drop_left] at hothers
  have hheld := held_reachable h
  have hheld₁ := held_reachable (h.run hjs)
  have hheld₂ := held_reachable ((h.run hjs).run hks)
  have hfirst : Kept a w u := (Kept.refl a w).sequential hheld ha
    (fun c hc => (hothers c (List.mem_append_left _ hc)).2) hseq₁
  have hall : Kept a w w' := hfirst.sequential hheld₁ ha
    (fun c hc => (hothers c (List.mem_append_right _ hc)).2) hseq₂
  -- at `u` the account still trusts none of the senders
  have hlast : Kept a u w' := (Kept.refl a u).sequential hheld₁ ha (fun c hc => by
    obtain ⟨hzero, hsender, htrust⟩ := hothers c (List.mem_append_right _ hc)
    exact ⟨hsender, hfirst.not_trusts hzero htrust⟩) hseq₂
  exact ⟨hall, hfirst.balance_le ha hheld hheld₁, hlast.balance_le ha hheld₁ hheld₂⟩

end Custody

end BaseIlluvitar

namespace PortraitLayer

open BaseIlluvitar Reentrancy Minting

/-- Account 3 holds the one token there is, and can pass it on. -/
theorem holdings_of_reachable_reentrant :
    ((after [reentrantMint]).balances 3).toNat = Set.ncard {id | (after [reentrantMint]).owners id = 3} ∧
    (after [reentrantMint]).balances 3 = 1 ∧
    (∃ w', call parseBlueprint ⟨3, .transferFrom 3 4 1⟩ .ok (after [reentrantMint]) = .ok w') ∧
    1 ∈ mintedIds (after [reentrantMint]).calls := by
  obtain ⟨hbalances, -, -, -, hexist, -, htransfer⟩ := holdings_of_reachable (after_reachable [reentrantMint])
  refine ⟨hbalances 3 (by decide), by decide, ?_, (hexist 1).2 (by decide)⟩
  refine (htransfer ?_ 3 3 4 1 .ok).1.2 ⟨⟨by decide, by decide, .inl rfl⟩, by decide⟩
  rw [show (after [reentrantMint]).calls.countP Call.isMint = 1 by decide]
  decide

/-- Account 2 tries to get the token back, and the bridge mints another one. -/
def others : List (Call × Hook Call) :=
  [(⟨2, .transferFrom 3 2 1⟩, .accept), (⟨7, .mintFor 2 1 (mintingBlob 2 [0x31, 0x32])⟩, .accept)]

/-- Account 3 keeps its token. -/
theorem custody_of_run_others : (after [reentrantMint]).owners 1 = 3 ∧
    Kept 3 (after [reentrantMint]) (transactions (call parseBlueprint) others (after [reentrantMint])) ∧
    ((after [reentrantMint]).balances 3).toNat ≤
      ((transactions (call parseBlueprint) others (after [reentrantMint])).balances 3).toNat := by
  have happrovals : (after [reentrantMint]).tokenApprovals = Function.update (fun _ => 0) 1 0 := rfl
  have hoperators : (after [reentrantMint]).operatorApprovals = fun _ _ => false := rfl
  have htrust : ∀ o ≠ 0, ¬Trusts (after [reentrantMint]) 3 o := by
    rintro o ho (h | ⟨id, -, h⟩)
    · simp [hoperators] at h
    · rw [happrovals, Function.update_eq_self] at h
      exact ho h.symm
  have hcalls : ∀ c ∈ (transactions (call parseBlueprint) others (after [reentrantMint])).calls.drop
      (after [reentrantMint]).calls.length, c.sender ≠ 0 ∧ c.sender ≠ 3 := by decide
  obtain ⟨hkept, hstart, hend⟩ := custody_of_run (by decide) (after_reachable [reentrantMint]) (.nil _)
    (run_transactions others _) fun c hc => ⟨(hcalls c hc).1, (hcalls c hc).2, htrust _ (hcalls c hc).1⟩
  exact ⟨by decide, hkept, hstart.trans hend⟩

end PortraitLayer
end Illuvitars
