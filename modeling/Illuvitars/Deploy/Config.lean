import Illuvitars.Minter.Outside

/-!
# The deployed configuration

`deploy/config.ts`, the prices and chances of the boxes that are sold, and `deploy/04_init_Minter.ts`, the transactions
that write them into the Minter. The configuration has its own enumeration of the boxes, without the virtual one.

* `mintInfo_valid`: the setters accept all tables of the configuration;
* `initMinter_run`: what the script writes if the owner runs it;
* `configured_initMinter`, `configured_run`: after the script a reachable Minter is `Configured`, and it stays so until
  a chance or a price of accessories is set again.
-/

namespace Illuvitars
namespace Deploy

open Evm Minter

inductive BoxType
  | bronze | silver | gold | platinum | diamond
deriving DecidableEq, Repr

/-- The same box in the contract. -/
def BoxType.toContract : BoxType → Illuvitars.BoxType
  | .bronze => .bronze
  | .silver => .silver
  | .gold => .gold
  | .platinum => .platinum
  | .diamond => .diamond

/-- `utils.parseEther`, of an amount in hundredths of an ether. -/
def parseEther (cents : ℕ) : Uint256 := BitVec.ofNat 256 (cents * 10 ^ 16)

def PORTRAIT_MINT_INFO : BoxType → PortraitMintInfo
  | .bronze => { price := parseEther 5, tierChances := #v[8000, 9700, 9930, 9980], holoProbability := 200 }
  | .silver => { price := parseEther 10, tierChances := #v[6100, 8800, 9700, 9950], holoProbability := 200 }
  | .gold => { price := parseEther 25, tierChances := #v[2400, 6600, 8800, 9700], holoProbability := 200 }
  | .platinum => { price := parseEther 75, tierChances := #v[500, 2000, 4250, 8250], holoProbability := 300 }
  | .diamond => { price := parseEther 250, tierChances := #v[200, 1000, 2500, 5000], holoProbability := 500 }

def ACCESSORY_MINT_INFO : BoxType → AccessoryMintInfo
  | .bronze =>
    { randomPrice := parseEther 5, semiRandomPrice := parseEther 10, tierChances := #v[8100, 9200, 9700, 9900] }
  | .silver =>
    { randomPrice := parseEther 10, semiRandomPrice := parseEther 20, tierChances := #v[3000, 7600, 8800, 9700] }
  | .gold =>
    { randomPrice := parseEther 15, semiRandomPrice := parseEther 30, tierChances := #v[1500, 4700, 7200, 9000] }
  | .platinum =>
    { randomPrice := parseEther 20, semiRandomPrice := parseEther 40, tierChances := #v[500, 2000, 5300, 8000] }
  | .diamond =>
    { randomPrice := parseEther 25, semiRandomPrice := parseEther 50, tierChances := #v[100, 600, 2800, 6000] }

/-- The loop of the script runs from `Bronze` to `Diamond`. -/
def boxTypes : List BoxType := [.bronze, .silver, .gold, .platinum, .diamond]

/-- One round of the script. -/
def setMintInfo (msg : Msg) (i : BoxType) : List (Msg × Op) :=
  [(msg, .setPortraitMintInfo i.toContract (PORTRAIT_MINT_INFO i)),
   (msg, .setAccessoryMintInfo i.toContract (ACCESSORY_MINT_INFO i))]

/-- The transactions of the script. -/
def initMinter (msg : Msg) : List (Msg × Op) := boxTypes.flatMap (setMintInfo msg)

/-! ## The tables -/

theorem BoxType.mem_boxTypes (i : BoxType) : i ∈ boxTypes := by
  cases i <;> decide

theorem BoxType.toContract_ne_virtual (i : BoxType) : i.toContract ≠ .virtual := by
  cases i <;> decide

theorem BoxType.toContract_inj {i j : BoxType} : i.toContract = j.toContract ↔ i = j := by
  cases i <;> cases j <;> simp [BoxType.toContract]

/-- Every box but the virtual one is configured. -/
theorem BoxType.exists_toContract {b : Illuvitars.BoxType} (h : b ≠ .virtual) : ∃ i : BoxType, i.toContract = b := by
  cases b with
  | virtual => exact absurd rfl h
  | bronze => exact ⟨.bronze, rfl⟩
  | silver => exact ⟨.silver, rfl⟩
  | gold => exact ⟨.gold, rfl⟩
  | platinum => exact ⟨.platinum, rfl⟩
  | diamond => exact ⟨.diamond, rfl⟩

/-- **The setters accept the tables of the configuration.** -/
theorem mintInfo_valid (i : BoxType) :
    ValidTierChances (PORTRAIT_MINT_INFO i).tierChances ∧ ValidTierChances (ACCESSORY_MINT_INFO i).tierChances := by
  cases i <;> exact ⟨⟨by decide, by decide⟩, by decide, by decide⟩

/-! ## The script -/

section Script

variable {X : Type} (chain : Chain X) {msg : Msg} {w : World X}

/-- One round of the owner. -/
theorem setMintInfo_run (hmsg : msg.value = 0) (howner : w.storage.owner = msg.sender) (i : BoxType) :
    transactions chain (setMintInfo msg i) w = { w with storage := { w.storage with
      portraitMintInfo := Function.update w.storage.portraitMintInfo i.toContract (PORTRAIT_MINT_INFO i)
      accessoryMintInfo := Function.update w.storage.accessoryMintInfo i.toContract (ACCESSORY_MINT_INFO i) } } := by
  obtain ⟨hp, ha⟩ := mintInfo_valid i
  have hp := validateTierChances_ok_iff (u := ()).2 hp
  have ha := validateTierChances_ok_iff (u := ()).2 ha
  simp [setMintInfo, transactions, transact, call, setPortraitMintInfo, setAccessoryMintInfo, nonPayable, onlyOwner,
    require, hmsg, howner, i.toContract_ne_virtual, hp, ha]

/-- **What some rounds of the owner write.** -/
theorem setMintInfo_runs (hmsg : msg.value = 0) (is : List BoxType) (howner : w.storage.owner = msg.sender) :
    ∃ portraits accessories, transactions chain (is.flatMap (setMintInfo msg)) w = { w with storage := { w.storage with
        portraitMintInfo := portraits, accessoryMintInfo := accessories } } ∧
      ∀ i, portraits i.toContract =
          (if i ∈ is then PORTRAIT_MINT_INFO i else w.storage.portraitMintInfo i.toContract) ∧
        accessories i.toContract =
          (if i ∈ is then ACCESSORY_MINT_INFO i else w.storage.accessoryMintInfo i.toContract) := by
  induction is generalizing w with
  | nil => exact ⟨_, _, rfl, fun i => ⟨by simp, by simp⟩⟩
  | cons j is ih =>
    have hround := setMintInfo_run chain hmsg howner j
    obtain ⟨portraits, accessories, hrun, hinfo⟩ := ih (w := transactions chain (setMintInfo msg j) w)
      (by rw [hround]; exact howner)
    refine ⟨portraits, accessories, ?_, fun i => ?_⟩
    · rw [hround] at hrun
      rw [← hrun, ← hround]
      rfl
    · obtain ⟨hp, ha⟩ := hinfo i
      rw [hround] at hp ha
      rw [hp, ha]
      by_cases hij : i = j
      · subst hij
        simp
      · have hne : i.toContract ≠ j.toContract := mt BoxType.toContract_inj.1 hij
        simp [hij, Function.update_of_ne hne]

/-- The tables of the initialiser, and the chances and prices of the configuration for accessories. -/
structure Configured (s : Storage) : Prop where
  tables : s.tables = initialTables
  accessories : ∀ i : BoxType, s.accessoryMintInfo i.toContract = ACCESSORY_MINT_INFO i

theorem Configured.valid {s : Storage} (hs : Configured s) {b : Illuvitars.BoxType} (hb : b ≠ .virtual) :
    ValidTierChances (s.accessoryMintInfo b).tierChances := by
  obtain ⟨i, rfl⟩ := BoxType.exists_toContract hb
  rw [hs.accessories i]
  exact (mintInfo_valid i).2

/-- **After the script a reachable Minter is configured.** -/
theorem configured_initMinter {chain : Chain X} (h : Reachable chain w) (hmsg : msg.value = 0)
    (howner : w.storage.owner = msg.sender) : Configured (transactions chain (initMinter msg) w).storage := by
  obtain ⟨portraits, accessories, hrun, hinfo⟩ := setMintInfo_runs chain hmsg boxTypes howner
  rw [initMinter, hrun]
  refine ⟨(Reachable.fixed h).2, fun i => ?_⟩
  rw [← if_pos (c := i ∈ boxTypes) i.mem_boxTypes (t := ACCESSORY_MINT_INFO i)]
  exact (hinfo i).2

/-- Everything but a call that sets prices and chances of accessories. -/
def KeepsMintInfo : Label → Prop
  | .call _ (.setAccessoryMintInfo _ _) => False
  | _ => True

/-- A successful call keeps the configuration, unless it sets prices and chances of accessories. -/
theorem Configured.effect {chain : Chain X} {op : Op} {w' : World X} (h : Configured w.storage)
    (hop : KeepsMintInfo (.call msg op)) (he : Effect chain msg w op w') : Configured w'.storage := by
  refine ⟨he.fixed.2.1.trans h.tables, fun i => ?_⟩
  rw [← h.accessories i]
  cases he with
  | setAccessoryMintInfo => exact absurd hop id
  | admin _ hs =>
    obtain ⟨_, _, _, _, _, hs⟩ := hs
    rw [hs]
  | _ => rfl

/-- **A configured Minter stays configured** in every run without such a call. -/
theorem configured_run {chain : Chain X} {w' : World X} {ls : List Label} (h : Reachable chain w)
    (hc : Configured w.storage) (hls : ∀ l ∈ ls, KeepsMintInfo l) (hr : Lts.Run (Step chain) w ls w') :
    Configured w'.storage := by
  have hI : Reachable chain w' ∧ Configured w'.storage := by
    refine hr.invariant (I := fun w => Reachable chain w ∧ Configured w.storage) ?_ hls ⟨h, hc⟩
    rintro w l w' hl ⟨hw, hc⟩ hs
    refine ⟨hw.snoc hs, ?_⟩
    rcases step_cases hs (Reachable.fixed hw).1 with ⟨msg, op, rfl, -, he⟩ | ⟨hstorage, -⟩
    · exact hc.effect hl he
    · rw [hstorage]
      exact hc
  exact hI.2

end Script

end Deploy
end Illuvitars
