import Illuvitars.Lib.Sequential
import Illuvitars.Layer.Correspondence

/-!
# Callbacks without effect of their own

A recipient who is called back in the middle of a mint or of a safe transfer may call the layer again, before the
metadata of the new token are written. Still no run with callbacks does more than a run without: the calls that have
taken effect, made one after the other by accounts that accept at once, leave the same layer.

* `World.describe pending`: the layer with the metadata of the tokens in `pending` written already, which is where the
  sequence of calls is ahead of the run;
* `call_describe`: a call that calls nobody back does the same on both;
* `keeps_serial`: every call keeps the run and the sequence together;
* `serial_of_run`: runs are serializable; `reachable_serial_iff`: callbacks reach no new state.
-/

namespace Illuvitars
namespace BaseIlluvitar

open Evm Minting Reentrancy

variable {M : Type} {parseBlueprint : List Uint8 → Exec M} {w w' : World M} {c : Call} {id : Uint256} {empty m : M}
  {pending : Uint256 → Option M}

/-! ## Described in advance -/

/-- The layer with the metadata of the pending tokens written already. -/
def World.describe (pending : Uint256 → Option M) (w : World M) : World M :=
  { w with
    metadata := fun id => (pending id).getD (w.metadata id)
    metadataInitialized := fun id => (pending id).isSome || w.metadataInitialized id }

@[simp] theorem World.describe_none (w : World M) : w.describe (fun _ => none) = w := rfl

@[simp] theorem World.describe_owners : (w.describe pending).owners = w.owners := rfl

@[simp] theorem World.describe_balances : (w.describe pending).balances = w.balances := rfl

@[simp] theorem World.describe_tokenApprovals : (w.describe pending).tokenApprovals = w.tokenApprovals := rfl

@[simp] theorem World.describe_operatorApprovals :
    (w.describe pending).operatorApprovals = w.operatorApprovals := rfl

/-- The end of a mint. -/
def World.write (id : Uint256) (m : M) (w : World M) : World M :=
  { w with
    metadata := Function.update w.metadata id m
    metadataInitialized := Function.update w.metadataInitialized id true }

/-- A token whose metadata are written is one more that is described, -/
theorem World.write_describe :
    (w.describe pending).write id m = w.describe (Function.update pending id (some m)) := by
  have hmeta : Function.update (fun id' => (pending id').getD (w.metadata id')) id m =
      fun id' => (Function.update pending id (some m) id').getD (w.metadata id') := by
    funext id'
    by_cases he : id' = id
    · subst he
      simp
    · simp [he]
  have hinit : Function.update (fun id' => (pending id').isSome || w.metadataInitialized id') id true =
      fun id' => (Function.update pending id (some m) id').isSome || w.metadataInitialized id' := by
    funext id'
    by_cases he : id' = id
    · subst he
      simp
    · simp [he]
  simp only [World.write, World.describe, hmeta, hinit]

/-- also if it is written first and the others are described after it. -/
theorem World.describe_write (h : pending id = none) :
    (w.write id m).describe pending = w.describe (Function.update pending id (some m)) := by
  have hmeta : (fun id' => (pending id').getD (Function.update w.metadata id m id')) =
      fun id' => (Function.update pending id (some m) id').getD (w.metadata id') := by
    funext id'
    by_cases he : id' = id
    · subst he
      simp [h]
    · simp [he]
  have hinit : (fun id' => (pending id').isSome || Function.update w.metadataInitialized id true id') =
      fun id' => (Function.update pending id (some m) id').isSome || w.metadataInitialized id' := by
    funext id'
    by_cases he : id' = id
    · subst he
      simp
    · simp [he]
  simp only [World.write, World.describe, hmeta, hinit]

/-! ## Calls on the described layer -/

/-- A transfer reads and writes no metadata. -/
theorem checkedTransfer_describe {sender holder recipient : Address} {tokenId : Uint256}
    (h : checkedTransfer sender holder recipient tokenId w = .ok w') :
    checkedTransfer sender holder recipient tokenId (w.describe pending) = .ok (w'.describe pending) := by
  simp only [checkedTransfer, transfer, isApprovedOrOwner, ownerOf, bind_ok_iff, require_ok_iff, exists_const,
    pure_eq_ok, Except.ok.injEq] at h ⊢
  obtain ⟨approved, ⟨hne, happ⟩, htrue, owner, ⟨-, howner⟩, hholder, hrecipient, left, hleft, gained, hgained, rfl⟩ := h
  exact ⟨approved, ⟨hne, happ⟩, htrue, owner, ⟨hne, howner⟩, hholder, hrecipient, left, hleft, gained, hgained, rfl⟩

/-- The function calls nobody back. -/
def Function.Plain : Function → Prop
  | .mintFor _ _ _ | .safeTransferFrom _ _ _ => False
  | _ => True

/-- **A call that calls nobody back does the same on the described layer**, whoever would be called back. -/
theorem call_describe {hook hook' : World M → Exec (World M)} (hc : c.function.Plain)
    (h : call parseBlueprint c hook w = .ok w') :
    call parseBlueprint c hook' (w.describe pending) = .ok (w'.describe pending) := by
  obtain ⟨sender, function⟩ := c
  cases function with
  | mintFor => cases hc
  | safeTransferFrom => cases hc
  | transferFrom holder recipient tokenId =>
    obtain ⟨w₁, h₁, h₂⟩ := bind_ok_iff.1 h
    cases h₂
    exact bind_ok_iff.2 ⟨_, checkedTransfer_describe h₁, rfl⟩
  | approve recipient tokenId =>
    simp only [call, approve, ownerOf, bind_ok_iff, require_ok_iff, exists_const, pure_eq_ok, Except.ok.injEq] at h ⊢
    obtain ⟨w₁, ⟨owner, howner, hne, happ, rfl⟩, rfl⟩ := h
    exact ⟨_, ⟨owner, howner, hne, happ, rfl⟩, rfl⟩
  | setApprovalForAll operator approved =>
    simp only [call, setApprovalForAll, bind_ok_iff, require_ok_iff, exists_const, pure_eq_ok, Except.ok.injEq] at h ⊢
    obtain ⟨w₁, ⟨hne, rfl⟩, rfl⟩ := h
    exact ⟨_, ⟨hne, rfl⟩, rfl⟩
  | markForSale tokenId sale =>
    simp only [call, markForSale, ownerOf, bind_ok_iff, require_ok_iff, exists_const, pure_eq_ok,
      Except.ok.injEq] at h ⊢
    obtain ⟨w₁, ⟨owner, howner, hsender, rfl⟩, rfl⟩ := h
    exact ⟨_, ⟨owner, howner, hsender, rfl⟩, rfl⟩
  | setBaseUri baseUri =>
    simp only [call, setBaseUri, bind_ok_iff, require_ok_iff, exists_const, pure_eq_ok, Except.ok.injEq] at h ⊢
    obtain ⟨w₁, ⟨howner, rfl⟩, rfl⟩ := h
    exact ⟨_, ⟨howner, rfl⟩, rfl⟩
  | transferOwnership newOwner =>
    simp only [call, transferOwnership, bind_ok_iff, require_ok_iff, exists_const, pure_eq_ok,
      Except.ok.injEq] at h ⊢
    obtain ⟨w₁, ⟨howner, hne, rfl⟩, rfl⟩ := h
    exact ⟨_, ⟨howner, hne, rfl⟩, rfl⟩
  | renounceOwnership =>
    simp only [call, renounceOwnership, bind_ok_iff, require_ok_iff, exists_const, pure_eq_ok,
      Except.ok.injEq] at h ⊢
    obtain ⟨w₁, ⟨howner, rfl⟩, rfl⟩ := h
    exact ⟨_, ⟨howner, rfl⟩, rfl⟩

/-- A call that calls nobody back is one call more, and leaves the tokens that exist. -/
theorem call_plain {hook : World M → Exec (World M)} (hc : c.function.Plain)
    (h : call parseBlueprint c hook w = .ok w') :
    w'.calls = w.calls ++ [c] ∧ ∀ id, w.owners id ≠ 0 → w'.owners id ≠ 0 := by
  cases call_effect h with
  | mint => cases hc
  | safeTransfer => cases hc
  | transfer hholder hne hrecipient =>
    exact ⟨rfl, fun id hid => ((owners_update_eq_zero (hholder ▸ hne) hrecipient id).not).2 hid⟩
  | mark => exact ⟨rfl, fun _ hid => hid⟩
  | approval => exact ⟨rfl, fun _ hid => hid⟩

/-- A new token reads and writes no metadata. -/
theorem safeMint_describe {sender recipient : Address} {s : Storage M}
    (h : safeMint accepting sender recipient id w.toStorage = .ok s) :
    safeMint accepting sender recipient id (w.describe pending).toStorage =
      .ok ({ w with toStorage := s }.describe pending).toStorage := by
  simp only [safeMint, accepting, bind_ok_iff, require_ok_iff, exists_const, Except.ok.injEq] at h ⊢
  obtain ⟨hrecipient, hfree, balance, hbalance, rfl⟩ := h
  exact ⟨hrecipient, hfree, balance, hbalance, rfl⟩

/-- A token is minted once. -/
theorem safeMint_free {sender recipient : Address} {s s' : Storage M}
    (h : safeMint accepting sender recipient id s = .ok s') : s.owners id = 0 := by
  simp only [safeMint, bind_ok_iff, require_ok_iff] at h
  obtain ⟨_, -, _, hfree, -⟩ := h
  exact hfree

/-- When a mint succeeds, with the layer its callee finds and the layer it leaves. -/
theorem call_mint_ok_iff {hook : World M → Exec (World M)} {sender recipient : Address} {quantity : Uint256}
    {blob : List Uint8} :
    call parseBlueprint ⟨sender, .mintFor recipient quantity blob⟩ hook w = .ok w' ↔
      quantity = 1 ∧ sender = w.imxMinter ∧ ∃ id bp s w₁ m, split blob = .ok (id, bp) ∧
        safeMint accepting sender recipient id w.toStorage = .ok s ∧
        hook ({ w with toStorage := s }.record ⟨sender, .mintFor recipient quantity blob⟩) = .ok w₁ ∧
        parseBlueprint bp = .ok m ∧ w' = w₁.write id m := by
  simp only [call, bind_ok_iff, require_ok_iff, exists_const, Prod.exists, pure_eq_ok, Except.ok.injEq]
  constructor
  · rintro ⟨hq, hs, id, bp, hsplit, s, hmint, w₁, hhook, m, hm, rfl⟩
    exact ⟨hq, hs, id, bp, s, w₁, m, hsplit, hmint, hhook, hm, rfl⟩
  · rintro ⟨hq, hs, id, bp, s, w₁, m, hsplit, hmint, hhook, hm, rfl⟩
    exact ⟨hq, hs, id, bp, hsplit, s, hmint, w₁, hhook, m, hm, rfl⟩

/-! ## The run and the sequence together -/

/-- The calls that have taken effect since `w₀`, made one after the other from `w₀` on, lead to the layer in which the
pending tokens are described. -/
structure Serial (parseBlueprint : List Uint8 → Exec M) (w₀ : World M) (pending : Uint256 → Option M)
    (w : World M) : Prop where
  exist : ∀ id, pending id ≠ none → w.owners id ≠ 0
  calls : ∃ cs, w.calls = w₀.calls ++ cs ∧ sequential (call parseBlueprint) cs w₀ = .ok (w.describe pending)

variable {w₀ : World M}

/-- One more call of the sequence. -/
theorem Serial.extend {pending' : Uint256 → Option M} (h : Serial parseBlueprint w₀ pending w)
    (hcalls : w'.calls = w.calls ++ [c]) (hexist : ∀ id, pending' id ≠ none → w'.owners id ≠ 0)
    (hcall : call parseBlueprint c .ok (w.describe pending) = .ok (w'.describe pending')) :
    Serial parseBlueprint w₀ pending' w' := by
  obtain ⟨cs, hcs, hseq⟩ := h.calls
  refine ⟨hexist, cs ++ [c], ?_, sequential_extend hseq hcall⟩
  rw [hcalls, hcs, List.append_assoc]

/-- The callee of a mint finds the new token pending. -/
theorem Serial.mint (h : Serial parseBlueprint w₀ pending w) {recipient : Address} {blob bp : List Uint8}
    {s : Storage M} (hsplit : split blob = .ok (id, bp))
    (hmint : safeMint accepting w.imxMinter recipient id w.toStorage = .ok s) (hm : parseBlueprint bp = .ok m) :
    Serial parseBlueprint w₀ (Function.update pending id (some m))
      ({ w with toStorage := s }.record ⟨w.imxMinter, .mintFor recipient 1 blob⟩) := by
  have hdescribed : safeMint accepting w.imxMinter recipient id (w.describe pending).toStorage =
      .ok ({ w with toStorage := s }.describe pending).toStorage := safeMint_describe hmint
  simp only [safeMint, accepting, bind_ok_iff, require_ok_iff, exists_const, Except.ok.injEq] at hmint
  obtain ⟨hrecipient, hfree, balance, -, rfl⟩ := hmint
  refine h.extend rfl ?_ ?_
  · intro id' hid'
    by_cases he : id' = id
    · subst he
      simpa using hrecipient
    · simp only [Function.update_of_ne he] at hid'
      simpa [Function.update_of_ne he] using h.exist id' hid'
  · exact call_mint_ok_iff.2 ⟨rfl, rfl, id, bp, _, _, m, hsplit, hdescribed, rfl, hm, World.write_describe.symm⟩

/-- **Every call keeps the run and the sequence together**, if its callee does. -/
theorem keeps_serial : Keeps (call parseBlueprint) (fun (i : World M × (Uint256 → Option M)) (w : World M) =>
    Serial parseBlueprint i.1 i.2 w) := by
  rintro c hook hhook ⟨w₀, pending⟩ w w' hw hok
  by_cases hc : c.function.Plain
  · obtain ⟨hcalls, hexist⟩ := call_plain hc hok
    exact hw.extend hcalls (fun id hid => hexist id (hw.exist id hid)) (call_describe hc hok)
  · obtain ⟨sender, function⟩ := c
    cases function with
    | mintFor recipient quantity blob =>
      obtain ⟨rfl, rfl, id, bp, s, w₁, m, hsplit, hmint, hcallee, hm, rfl⟩ := call_mint_ok_iff.1 hok
      have h₁ := hhook (w₀, Function.update pending id (some m)) _ w₁ (hw.mint hsplit hmint hm) hcallee
      have hfree := safeMint_free hmint
      have hnone : pending id = none := by
        by_contra hid
        exact hw.exist id hid hfree
      refine ⟨?_, ?_⟩
      · intro id' hid'
        have hne : id' ≠ id := fun he => hid' (he ▸ hnone)
        exact h₁.exist id' (by simpa [Function.update_of_ne hne] using hid')
      · show ∃ cs, w₁.calls = w₀.calls ++ cs ∧ sequential _ cs w₀ = .ok ((w₁.write id m).describe pending)
        rw [World.describe_write hnone]
        exact h₁.calls
    | safeTransferFrom holder recipient tokenId =>
      obtain ⟨w₁, htransfer, hcallee⟩ := bind_ok_iff.1 hok
      obtain ⟨hholder, hne, hrecipient, approvals, balances, heq⟩ := checkedTransfer_ok htransfer
      have hcall : call parseBlueprint ⟨sender, .safeTransferFrom holder recipient tokenId⟩ .ok (w.describe pending) =
          .ok ((w₁.record ⟨sender, .safeTransferFrom holder recipient tokenId⟩).describe pending) :=
        bind_ok_iff.2 ⟨_, checkedTransfer_describe htransfer, rfl⟩
      refine hhook (w₀, pending) _ w' (hw.extend ?_ ?_ hcall) hcallee
      · rw [heq]
        rfl
      · intro id hid
        rw [heq]
        exact ((owners_update_eq_zero (hholder ▸ hne) hrecipient id).not).2 (hw.exist id hid)
    | _ => exact absurd trivial hc

/-! ## Runs -/

/-- A run is serial: where it ends, nothing is pending. -/
theorem serial_of_run {ts : List (Call × Hook Call)} (h : Lts.Run (Step (call parseBlueprint)) w ts w') :
    ∃ cs, w'.calls = w.calls ++ cs ∧ sequential (call parseBlueprint) cs w = .ok w' := by
  have hstart : Serial parseBlueprint w (fun _ => none) w :=
    ⟨fun id hid => absurd rfl hid, [], (List.append_nil _).symm, rfl⟩
  have hend : Serial parseBlueprint w (fun _ => none) w' :=
    run_invariant (i := (w, fun _ => none)) keeps_serial h hstart
  exact hend.calls

/-- A layer is reached iff its own calls, made one after the other, lead to it. -/
theorem reachable_serial_iff : Reachable parseBlueprint empty w ↔
    ∃ w₀, Deployed empty w₀ ∧ sequential (call parseBlueprint) w.calls w₀ = .ok w := by
  constructor
  · rintro ⟨w₀, ts, h0, hrun⟩
    obtain ⟨cs, hcalls, hseq⟩ := serial_of_run hrun
    rw [h0.fresh.1, List.nil_append] at hcalls
    exact ⟨w₀, h0, hcalls ▸ hseq⟩
  · rintro ⟨w₀, h0, hseq⟩
    exact reachable_iff_sequential (fun _ hrun => (serial_of_run hrun).imp fun _ h => h.2) |>.2 ⟨w₀, _, h0, hseq⟩

/-- **Callbacks do nothing that calls one after the other could not do**: every run, with all calls that recipients make
in the middle of mints and transfers, ends where the calls that have taken effect end when they are made in their order
by accounts that accept at once. So a layer is reached iff its own calls lead to it without callbacks. -/
theorem serializable (parseBlueprint : List Uint8 → Exec M) (empty : M) :
    (∀ w ts w', Lts.Run (Step (call parseBlueprint)) w ts w' → ∃ cs, w'.calls = w.calls ++ cs ∧
      sequential (call parseBlueprint) cs w = .ok w' ∧ Lts.Run (Step (call parseBlueprint)) w (accepted cs) w') ∧
    ∀ w, Reachable parseBlueprint empty w ↔
      ∃ w₀, Deployed empty w₀ ∧ sequential (call parseBlueprint) w.calls w₀ = .ok w := by
  refine ⟨?_, fun w => reachable_serial_iff⟩
  intro w ts w' hrun
  obtain ⟨cs, hcalls, hseq⟩ := serial_of_run hrun
  exact ⟨cs, hcalls, hseq, run_sequential hseq⟩

/-- The invariant rule for layers: it is enough to look at calls without callbacks. -/
theorem Reachable.serial_invariant {I : World M → Prop} (h0 : ∀ {w}, Deployed empty w → I w)
    (hcall : ∀ {c w w'}, I w → call parseBlueprint c .ok w = .ok w' → I w') (h : Reachable parseBlueprint empty w) :
    I w := by
  obtain ⟨w₀, hw₀, hseq⟩ := reachable_serial_iff.1 h
  exact sequential_invariant hcall hseq (h0 hw₀)

end BaseIlluvitar

namespace PortraitLayer

open BaseIlluvitar Reentrancy

/-- A mint during which the recipient marks the token, passes it on and tries to have it minted again is the sequence of
a mint, a mark and a transfer. -/
theorem serializable_reentrant : ∃ cs, (after [reentrantMint]).calls = cs ∧ cs.length = 3 ∧
    sequential (call parseBlueprint) cs genesis = .ok (after [reentrantMint]) := by
  obtain ⟨cs, hcalls, hseq, -⟩ := (serializable parseBlueprint ⟨0, 0, 0, 0, 0, 0⟩).1 genesis [reentrantMint] _
    (run_transactions [reentrantMint] genesis)
  have hcs : (after [reentrantMint]).calls = cs := hcalls
  refine ⟨cs, hcs, ?_, hseq⟩
  rw [← hcs]
  decide

end PortraitLayer
end Illuvitars
