import Mathlib.Data.Set.Insert
import Mathlib.Data.List.Infix
import Illuvitars.Layer.Accessory
import Illuvitars.Layer.Calls
import Illuvitars.Layer.Portrait

/-!
# Tokens and metadata

A layer writes the metadata of a new token only after its recipient has been called back, so in the middle of a mint
the token exists without metadata. `Corresponds pending` is what holds at every moment, with the tokens in `pending`
still to be described; every call keeps it (`keeps_corresponds`), a mint by demanding of its callee that the new token
stays pending. Between transactions nothing is pending (`correspondence_reachable`), in both layers
(`layers_correspond`).
-/

namespace Illuvitars
namespace BaseIlluvitar

open Evm Minting Reentrancy

variable {M : Type} {parseBlueprint : List Uint8 → Exec M} {w w' : World M} {c : Call} {id : Uint256} {empty : M}

/-! ## The mints of a token -/

structure Mint where
  sender : Address
  quantity : Uint256
  blueprint : List Uint8
deriving DecidableEq

/-- The call as a mint of the token. -/
def Call.mintOf (id : Uint256) : Call → Option Mint
  | ⟨sender, .mintFor _ quantity blob⟩ =>
    match split blob with
    | .ok (id', blueprint) => if id' = id then some ⟨sender, quantity, blueprint⟩ else none
    | .error _ => none
  | _ => none

/-- The mints of the token among the calls. -/
def mintsOf (id : Uint256) (calls : List Call) : List Mint := calls.filterMap (Call.mintOf id)

theorem mintsOf_record (id : Uint256) (c : Call) (w : World M) :
    mintsOf id (w.record c).calls = mintsOf id w.calls ++ (c.mintOf id).toList := by
  rw [mintsOf, World.record_calls, List.filterMap_append, mintsOf]
  cases h : c.mintOf id with
  | none => simp [h]
  | some m => simp [h]

theorem mintOf_mint {sender recipient : Address} {blob blueprint : List Uint8} {id id' : Uint256}
    (h : split blob = .ok (id', blueprint)) :
    Call.mintOf id ⟨sender, .mintFor recipient 1 blob⟩ = if id' = id then some ⟨sender, 1, blueprint⟩ else none := by
  simp [Call.mintOf, h]

theorem mintOf_mint_self {sender recipient : Address} {blob blueprint : List Uint8}
    (h : split blob = .ok (id, blueprint)) :
    Call.mintOf id ⟨sender, .mintFor recipient 1 blob⟩ = some ⟨sender, 1, blueprint⟩ := by
  rw [mintOf_mint h, if_pos rfl]

theorem mintOf_of_quiet (h : c.function.Quiet) : c.mintOf id = none := by
  obtain ⟨sender, function⟩ := c
  cases function <;> first | rfl | cases h

theorem mem_mintsOf_record {mint : Mint} (h : c.mintOf id = some mint) (w : World M) :
    mint ∈ mintsOf id (w.record c).calls := by
  rw [mintsOf_record, h]
  simp

/-! ## The invariant -/

/-- Tokens and metadata correspond, but for the tokens in `pending`, which have no metadata yet. -/
structure Corresponds (parseBlueprint : List Uint8 → Exec M) (pending : Set Uint256) (w : World M) : Prop where
  exist : ∀ id ∈ pending, w.owners id ≠ 0
  initialized : ∀ id, w.metadataInitialized id = true ↔ w.owners id ≠ 0 ∧ id ∉ pending
  unminted : ∀ id, w.owners id = 0 → mintsOf id w.calls = []
  minted : ∀ id, w.owners id ≠ 0 → ∃ blueprint, mintsOf id w.calls = [⟨w.imxMinter, 1, blueprint⟩] ∧
    (id ∉ pending → parseBlueprint blueprint = .ok (w.metadata id))
  forSale : ∀ id, w.openForSale id = true → w.owners id ≠ 0

variable {pending : Set Uint256}

/-- What neither creates a token nor describes one. -/
theorem Corresponds.frame (h : Corresponds parseBlueprint pending w)
    (howners : ∀ id, w'.owners id = 0 ↔ w.owners id = 0) (hmetadata : w'.metadata = w.metadata)
    (hinit : w'.metadataInitialized = w.metadataInitialized)
    (hminter : w'.imxMinter = w.imxMinter) (hmints : ∀ id, mintsOf id w'.calls = mintsOf id w.calls)
    (hsale : ∀ id, w'.openForSale id = true → w.owners id ≠ 0) : Corresponds parseBlueprint pending w' where
  exist id hid := (howners id).not.2 (h.exist id hid)
  initialized id := by rw [hinit, h.initialized id, Ne, Ne, howners id]
  unminted id hid := by rw [hmints]; exact h.unminted id ((howners id).1 hid)
  minted id hid := by
    rw [hmints, hminter, hmetadata]
    exact h.minted id ((howners id).not.1 hid)
  forSale id hid := (howners id).not.2 (hsale id hid)

/-- A token that changes hands. -/
theorem owners_update_eq_zero {recipient : Address} (hid : w.owners id ≠ 0) (hrecipient : recipient ≠ 0)
    (id' : Uint256) : Function.update w.owners id recipient id' = 0 ↔ w.owners id' = 0 := by
  by_cases h : id' = id
  · subst h
    rw [Function.update_self]
    exact iff_of_false hrecipient hid
  · rw [Function.update_of_ne h]

/-- A new token is pending. -/
theorem Corresponds.create (h : Corresponds parseBlueprint pending w) {recipient : Address}
    {blob blueprint : List Uint8} (balances : Address → Uint256) (hsplit : split blob = .ok (id, blueprint))
    (hrecipient : recipient ≠ 0)
    (hfree : w.owners id = 0) : Corresponds parseBlueprint (insert id pending)
      ({ w with balances, owners := Function.update w.owners id recipient }.record
        ⟨w.imxMinter, .mintFor recipient 1 blob⟩) := by
  have hfresh : id ∉ pending := fun hid => h.exist id hid hfree
  refine ⟨?_, ?_, ?_, ?_, ?_⟩
  · rintro id' (rfl | hid')
    · simpa using hrecipient
    · have hne : id' ≠ id := fun he => hfresh (he ▸ hid')
      simpa [Function.update_of_ne hne] using h.exist id' hid'
  · intro id'
    by_cases he : id' = id
    · subst he
      simpa [hfree] using h.initialized id'
    · simpa [Function.update_of_ne he, he] using h.initialized id'
  · intro id' hid'
    by_cases he : id' = id
    · subst he
      exact absurd (by simpa using hid') hrecipient
    · rw [mintsOf_record, mintOf_mint hsplit, if_neg (Ne.symm he)]
      simpa using h.unminted id' (by simpa [Function.update_of_ne he] using hid')
  · intro id' hid'
    by_cases he : id' = id
    · subst he
      refine ⟨blueprint, ?_, fun hno => absurd (Set.mem_insert id' pending) hno⟩
      rw [mintsOf_record, mintOf_mint hsplit, if_pos rfl, show mintsOf id' _ = [] from h.unminted id' hfree]
      rfl
    · obtain ⟨bp, hmints, hparse⟩ := h.minted id' (by simpa [Function.update_of_ne he] using hid')
      refine ⟨bp, ?_, fun hno => hparse fun hin => hno (Set.mem_insert_of_mem id hin)⟩
      rw [mintsOf_record, mintOf_mint hsplit, if_neg (Ne.symm he)]
      simpa using hmints
  · intro id' hid'
    have hex : w.owners id' ≠ 0 := h.forSale id' hid'
    have he : id' ≠ id := fun he => hex (he ▸ hfree)
    simpa [Function.update_of_ne he] using hex

/-- A token that is described with the blueprint of its mint is not pending any more. -/
theorem Corresponds.describe (h : Corresponds parseBlueprint (insert id pending) w) (hfresh : id ∉ pending)
    {mint : Mint} {m : M} (hmint : mint ∈ mintsOf id w.calls)
    (hparse : parseBlueprint mint.blueprint = .ok m) :
    Corresponds parseBlueprint pending { w with
      metadata := Function.update w.metadata id m
      metadataInitialized := Function.update w.metadataInitialized id true } := by
  have hid : w.owners id ≠ 0 := h.exist id (Set.mem_insert id pending)
  refine ⟨fun id' hid' => h.exist id' (Set.mem_insert_of_mem id hid'), ?_, h.unminted, ?_, h.forSale⟩
  · intro id'
    by_cases he : id' = id
    · subst he
      simp only [Function.update_self, true_iff]
      exact ⟨hid, hfresh⟩
    · simpa [Function.update_of_ne he, he] using h.initialized id'
  · intro id' hid'
    obtain ⟨bp, hmints, hparse'⟩ := h.minted id' hid'
    refine ⟨bp, hmints, fun hno => ?_⟩
    by_cases he : id' = id
    · subst he
      rw [hmints, List.mem_singleton] at hmint
      cases hmint
      simpa using hparse
    · simpa [Function.update_of_ne he] using hparse' (by simp [he, hno])

/-! ## Calls -/

/-- A call that is no mint keeps the mints. -/
theorem mintsOf_record_of_none (h : c.mintOf id = none) : mintsOf id (w.record c).calls = mintsOf id w.calls := by
  rw [mintsOf_record, h, Option.toList_none, List.append_nil]

/-- **Every call keeps the correspondence, with the same tokens pending**, and only adds to the calls that have taken
effect. -/
theorem keeps_corresponds : Keeps (call parseBlueprint) (fun (i : Set Uint256 × List Call) (w : World M) =>
    Corresponds parseBlueprint i.1 w ∧ i.2 <+: w.calls) := by
  rintro c hook hhook ⟨pending, calls⟩ w w' ⟨hw, hcalls⟩ hok
  have hadd : ∀ c : Call, calls <+: w.calls ++ [c] := fun c => hcalls.trans (List.prefix_append _ _)
  cases call_effect hok with
  | mint hsplit hrecipient hfree hcallee hparse =>
    -- the callee leaves the new token pending, and keeps the record of its mint
    rename_i id bp balances m w₁
    have hfresh : id ∉ pending := fun hid => hw.exist id hid hfree
    have hcreate := hw.create balances hsplit hrecipient hfree
    obtain ⟨hcorr, hgrow⟩ := hhook (insert id pending, _) _ w₁ ⟨hcreate, List.prefix_rfl⟩ hcallee
    have hmint := (hgrow.filterMap (Call.mintOf id)).subset (mem_mintsOf_record (mintOf_mint_self hsplit) _)
    exact ⟨hcorr.describe hfresh hmint hparse, (hadd _).trans hgrow⟩
  | transfer hholder hne hrecipient =>
    refine ⟨?_, hadd _⟩
    exact hw.frame (owners_update_eq_zero (hholder ▸ hne) hrecipient) rfl rfl rfl
      (fun id => mintsOf_record_of_none rfl) hw.forSale
  | safeTransfer hholder hne hrecipient hcallee =>
    refine hhook (pending, calls) _ w' ⟨?_, hadd _⟩ hcallee
    exact hw.frame (owners_update_eq_zero (hholder ▸ hne) hrecipient) rfl rfl rfl
      (fun id => mintsOf_record_of_none rfl) hw.forSale
  | mark hsender hne =>
    rename_i sender id sale
    refine ⟨hw.frame (fun _ => Iff.rfl) rfl rfl rfl (fun id => mintsOf_record_of_none rfl) ?_, hadd _⟩
    intro id' hid'
    by_cases he : id' = id
    · subst he
      exact hsender ▸ hne
    · exact hw.forSale id' (by simpa [Function.update_of_ne he] using hid')
  | approval hq =>
    refine ⟨?_, hadd _⟩
    exact hw.frame (fun _ => Iff.rfl) rfl rfl rfl (fun id => mintsOf_record_of_none (mintOf_of_quiet hq)) hw.forSale

/-- A new layer has no tokens. -/
theorem corresponds_deployed (h : Deployed empty w) : Corresponds parseBlueprint ∅ w ∧ [] <+: w.calls := by
  obtain ⟨hcalls, howners, hinit, hsale⟩ := h.fresh
  refine ⟨⟨?_, ?_, ?_, ?_, ?_⟩, List.nil_prefix⟩
  · simp
  · simp [howners, hinit]
  · intro id _
    rw [hcalls]
    rfl
  · intro id hid
    exact absurd (howners id) hid
  · simp [hsale]

/-- A mint whose blueprint is rejected fails. -/
theorem call_rejected {sender recipient : Address} {quantity : Uint256} {blob blueprint : List Uint8}
    (hsplit : split blob = .ok (id, blueprint)) (hparse : ∀ m, parseBlueprint blueprint ≠ .ok m)
    (hook : World M → Exec (World M)) (w w' : World M) :
    call parseBlueprint ⟨sender, .mintFor recipient quantity blob⟩ hook w ≠ .ok w' := by
  intro h
  cases call_effect h with
  | mint hsplit' _ _ _ hm =>
    rw [hsplit] at hsplit'
    cases hsplit'
    exact hparse _ hm
  | approval hq => cases hq

/-! ## Between transactions -/

/-- Tokens and metadata correspond. -/
structure Correspondence (parseBlueprint : List Uint8 → Exec M) (w : World M) : Prop where
  /-- The tokens that exist have metadata. -/
  initialized : ∀ id, w.metadataInitialized id = true ↔ w.owners id ≠ 0
  /-- A token that does not exist has not been minted. -/
  unminted : ∀ id, w.owners id = 0 → mintsOf id w.calls = []
  /-- A token has been minted once, by the bridge and with quantity 1, and has the metadata of that mint's blueprint. -/
  minted : ∀ id, w.owners id ≠ 0 → ∃ blueprint, mintsOf id w.calls = [⟨w.imxMinter, 1, blueprint⟩] ∧
    parseBlueprint blueprint = .ok (w.metadata id)
  /-- It stays, and so does its metadata. -/
  stays : ∀ ts w', Lts.Run (Step (call parseBlueprint)) w ts w' → w.calls <+: w'.calls ∧
    ∀ id, w.owners id ≠ 0 → w'.owners id ≠ 0 ∧ w'.metadata id = w.metadata id
  /-- A mint whose blueprint is rejected fails, wherever it is made, and as a transaction leaves the layer as it is. -/
  rejected : ∀ sender recipient quantity blob id blueprint, split blob = .ok (id, blueprint) →
    (∀ m, parseBlueprint blueprint ≠ .ok m) →
    (∀ hook w₁ w', call parseBlueprint ⟨sender, .mintFor recipient quantity blob⟩ hook w₁ ≠ .ok w') ∧
      ∀ hook, transact (call parseBlueprint) (⟨sender, .mintFor recipient quantity blob⟩, hook) w = w
  forSale : ∀ id, w.openForSale id = true → w.owners id ≠ 0

/-- Nothing is pending between transactions. -/
theorem corresponds_run (hw : Corresponds parseBlueprint ∅ w) {ts : List (Call × Hook Call)}
    (h : Lts.Run (Step (call parseBlueprint)) w ts w') : Corresponds parseBlueprint ∅ w' ∧ w.calls <+: w'.calls :=
  run_invariant (i := (∅, w.calls)) keeps_corresponds h ⟨hw, List.prefix_rfl⟩

theorem corresponds_reachable (h : Reachable parseBlueprint empty w) : Corresponds parseBlueprint ∅ w :=
  (reachable_invariant (i := (∅, [])) keeps_corresponds (fun h0 => corresponds_deployed h0) h).1

/-- **In a reachable layer tokens and metadata correspond.** -/
theorem correspondence_reachable (h : Reachable parseBlueprint empty w) : Correspondence parseBlueprint w := by
  have hw := corresponds_reachable h
  refine ⟨?_, hw.unminted, ?_, ?_, ?_, hw.forSale⟩
  · intro id
    simpa using hw.initialized id
  · intro id hid
    obtain ⟨bp, hmints, hparse⟩ := hw.minted id hid
    exact ⟨bp, hmints, hparse (Set.notMem_empty id)⟩
  · intro ts w' hrun
    obtain ⟨hw', hgrow⟩ := corresponds_run hw hrun
    refine ⟨hgrow, fun id hid => ?_⟩
    obtain ⟨bp, hmints, hparse⟩ := hw.minted id hid
    -- the mint of the token is still the only one on record
    have hmem : (⟨w.imxMinter, 1, bp⟩ : Mint) ∈ mintsOf id w'.calls :=
      (hgrow.filterMap (Call.mintOf id)).subset (by rw [← mintsOf, hmints]; simp)
    have hid' : w'.owners id ≠ 0 := by
      intro h0
      rw [hw'.unminted id h0] at hmem
      cases hmem
    obtain ⟨bp', hmints', hparse'⟩ := hw'.minted id hid'
    rw [hmints', List.mem_singleton, Mint.mk.injEq] at hmem
    obtain ⟨-, -, rfl⟩ := hmem
    have hsame := (hparse' (Set.notMem_empty id)).symm.trans (hparse (Set.notMem_empty id))
    exact ⟨hid', Except.ok.inj hsame⟩
  · intro sender recipient quantity blob id bp hsplit hparse
    refine ⟨call_rejected hsplit hparse, fun hook => ?_⟩
    rcases transact_cases (call parseBlueprint) (⟨sender, .mintFor recipient quantity blob⟩, hook) w with
      ⟨w', hok, -⟩ | heq
    · exact absurd hok (call_rejected hsplit hparse _ w w')
    · exact heq

end BaseIlluvitar

/-! ## The two layers -/

open Evm Minting BaseIlluvitar Reentrancy

namespace PortraitLayer

/-- The portrait layers that are reached by transactions after their deployment. -/
abbrev Reachable : World Metadata → Prop := BaseIlluvitar.Reachable parseBlueprint ⟨0, 0, 0, 0, 0, 0⟩

end PortraitLayer

namespace AccessoryLayer

abbrev Reachable : World Metadata → Prop := BaseIlluvitar.Reachable parseBlueprint ⟨0, .skin⟩

end AccessoryLayer

/-- **In both layers tokens and metadata correspond between transactions.** -/
theorem layers_correspond :
    (∀ w, PortraitLayer.Reachable w → Correspondence PortraitLayer.parseBlueprint w) ∧
      ∀ w, AccessoryLayer.Reachable w → Correspondence AccessoryLayer.parseBlueprint w :=
  ⟨fun _ h => correspondence_reachable h, fun _ h => correspondence_reachable h⟩

namespace PortraitLayer

/-- A layer with the bridge 7. -/
def genesis : World Metadata :=
  { Storage.deployed 7 ⟨0, 0, 0, 0, 0, 0⟩ with
    openForSale := fun _ => false
    tokenApprovals := fun _ => 0
    operatorApprovals := fun _ _ => false
    owner := 9
    baseUri := ""
    calls := [] }

theorem genesis_reachable : Reachable genesis := Lts.Reachable.of_start ⟨9, 7, rfl⟩

/-- The layer after transactions. -/
def after (ts : List (Call × Hook Call)) : World Metadata := transactions (call parseBlueprint) ts genesis

theorem after_reachable (ts : List (Call × Hook Call)) : Reachable (after ts) :=
  Lts.Reachable.run genesis_reachable (run_transactions ts genesis)

/-- The bridge mints token 1 with the blueprint `12` for account 2, who marks it for sale and passes it on to account 3
while it is called back, and tries in vain to have it minted again. -/
def reentrantMint : Call × Hook Call :=
  (⟨7, .mintFor 2 1 (mintingBlob 1 [0x31, 0x32])⟩,
    .call ⟨2, .markForSale 1 true⟩ .accept (.call ⟨2, .transferFrom 2 3 1⟩ .accept
      (.call ⟨7, .mintFor 2 1 (mintingBlob 1 [0x31, 0x32])⟩ .accept .accept)))

end PortraitLayer

/-- The portrait layer after a mint with calls of the recipient, and a new accessory layer. -/
theorem layers_correspond_reentrant :
    ((PortraitLayer.after [PortraitLayer.reentrantMint]).owners 1 = 3 ∧
      (PortraitLayer.after [PortraitLayer.reentrantMint]).metadata 1 = ⟨1, 2, 0, 0, 0, 0⟩ ∧
      Correspondence PortraitLayer.parseBlueprint (PortraitLayer.after [PortraitLayer.reentrantMint])) ∧
    ∃ w, AccessoryLayer.Reachable w ∧ Correspondence AccessoryLayer.parseBlueprint w := by
  have hdeployed : ∃ w : World AccessoryLayer.Metadata, Deployed ⟨0, .skin⟩ w := ⟨_, 9, 7, rfl⟩
  obtain ⟨w, hw⟩ := hdeployed
  have hreach : AccessoryLayer.Reachable w := Lts.Reachable.of_start hw
  exact ⟨⟨by decide, by decide, layers_correspond.1 _ (PortraitLayer.after_reachable _)⟩, w, hreach,
    layers_correspond.2 w hreach⟩

end Illuvitars
