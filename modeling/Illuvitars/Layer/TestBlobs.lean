import Illuvitars.Layer.Mintable

/-!
# The minting blobs of the tests

`makePortraitMintingBlob` and `makeAccessoryMintingBlob` of the tests build blobs for `mintFor`, with the box type in
front of the tier. The layers refuse all of them (`blobs_refused`): the portrait parser takes the box type for the tier
and finds one run too many, and the accessory parser rejects every blueprint.
-/

namespace Illuvitars

open Evm Decimal Minting BaseIlluvitar MaximalRuns Reentrancy

/-- The blob `{tokenId}:{boxType tier,skinId,bodyId,eyeId,headId,propsId}`, without the space. -/
def makePortraitMintingBlob (tokenId : Uint256) (boxType : BoxType) (tier : ℕ)
    (skinId bodyId eyeId headId propsId : Uint256) : List Uint8 :=
  mintingBlob tokenId (decimal boxType.encoding ++ decimal tier ++
    ([skinId, bodyId, eyeId, headId, propsId].map fun id => decimal id.toNat).flatMap (0x2C :: ·))

/-- The blob `{tokenId}:{boxType tier accessoryType}`, without the spaces. -/
def makeAccessoryMintingBlob (tokenId : Uint256) (boxType : BoxType) (tier : ℕ) (accessoryType : AccessoryType) :
    List Uint8 :=
  mintingBlob tokenId (decimal boxType.encoding ++ decimal tier ++ decimal accessoryType.encoding)

/-- Whoever calls `mintFor` with the blob, in any state and whatever the recipient does, the layer stays as it is. -/
def Refused {M : Type} (parseBlueprint : List Uint8 → Exec M) (blob : List Uint8) : Prop :=
  ∀ (sender recipient : Address) (quantity : Uint256) (hook : Hook Call) (w : World M),
    transact (call parseBlueprint) (⟨sender, .mintFor recipient quantity blob⟩, hook) w = w

/-- A blob with a blueprint that is rejected is refused. -/
theorem refused_of_parse {M : Type} {parseBlueprint : List Uint8 → Exec M} {tokenId : Uint256} {blueprint : List Uint8}
    (h : ∀ m, parseBlueprint blueprint ≠ .ok m) : Refused parseBlueprint (mintingBlob tokenId blueprint) := by
  intro sender recipient quantity hook w
  rcases transact_cases (call parseBlueprint)
    (⟨sender, .mintFor recipient quantity (mintingBlob tokenId blueprint)⟩, hook) w with ⟨w', hok, -⟩ | heq
  · exact absurd hok (call_rejected split_mintingBlob h _ w w')
  · exact heq

/-- A blueprint whose first run is followed by five others is rejected. -/
theorem PortraitLayer.parse_six_runs {run : List Uint8} {fields : List (List Uint8)}
    (hrun : run ≠ [] ∧ ∀ c ∈ run, isDecimal c = true) (hfields : ∀ f ∈ fields, f ≠ [] ∧ ∀ c ∈ f, isDecimal c = true)
    (hlen : 4 < fields.length) (m : PortraitLayer.Metadata) :
    PortraitLayer.parseBlueprint (run ++ fields.flatMap (0x2C :: ·)) ≠ .ok m := by
  intro h
  obtain ⟨-, d, ds, fields', hruns, -, hfour, -⟩ := PortraitLayer.parseBlueprint_ok_iff.1 h
  have hhead : ∀ c ∈ (fields.flatMap (0x2C :: ·)).head?, isDecimal c = false := by
    intro c hc
    cases fields with
    | nil => simp at hc
    | cons f fs =>
      cases hc
      decide
  rw [runs_append hrun.1 hrun.2 hhead, runs_flatMap (by decide) hfields] at hruns
  cases hruns
  omega

/-- **Both layers refuse all blobs that the tests build for them.** -/
theorem blobs_refused :
    (∀ tokenId boxType tier skinId bodyId eyeId headId propsId, Refused PortraitLayer.parseBlueprint
      (makePortraitMintingBlob tokenId boxType tier skinId bodyId eyeId headId propsId)) ∧
    ∀ tokenId boxType tier accessoryType, Refused AccessoryLayer.parseBlueprint
      (makeAccessoryMintingBlob tokenId boxType tier accessoryType) := by
  constructor
  · intro tokenId boxType tier skinId bodyId eyeId headId propsId
    refine refused_of_parse (PortraitLayer.parse_six_runs ?_ ?_ (by simp))
    · refine ⟨by simp [decimal_ne_nil], ?_⟩
      intro c hc
      rcases List.mem_append.1 hc with hc | hc
      · exact (PortraitLayer.decimal_run _).2 c hc
      · exact (PortraitLayer.decimal_run _).2 c hc
    · intro f hf
      obtain ⟨id, -, rfl⟩ := List.mem_map.1 hf
      exact PortraitLayer.decimal_run _
  · intro tokenId boxType tier accessoryType
    refine refused_of_parse fun m h => ?_
    rw [AccessoryLayer.parseBlueprint_error] at h
    cases h

/-- The blob of the first portrait test. -/
example : makePortraitMintingBlob 1 .diamond 3 20 31 42 53 68 = "{1}:{53,20,31,42,53,68}".toList.map code := by decide

end Illuvitars
