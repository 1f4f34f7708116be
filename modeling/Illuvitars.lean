import Illuvitars.Lib.Runs
import Illuvitars.Lib.Tiling
import Illuvitars.Minter.Ledger
import Illuvitars.Lib.Tokens
import Illuvitars.Minter.FlatResults
import Illuvitars.Minter.Outside
import Illuvitars.Minter.TokenIds
import Illuvitars.Minter.Readable
import Illuvitars.Minter.Finality
import Illuvitars.Minter.Payment
import Illuvitars.Minter.Fulfilment
import Illuvitars.Minter.Lockstep
import Illuvitars.Layer.Minting
import Illuvitars.Layer.Base
import Illuvitars.Layer.Portrait
import Illuvitars.Layer.Accessory
import Illuvitars.Lib.Rights
import Illuvitars.Oracle.AccessControl
import Illuvitars.Oracle.PriceOracle
import Illuvitars.Oracle.Conversion
import Illuvitars.Oracle.RoleUpdates
import Illuvitars.Minter.SIlvPrice
import Illuvitars.Minter.Records
import Illuvitars.Lib.MaximalRuns
import Illuvitars.Layer.PortraitFormat
import Illuvitars.Layer.DecimalReader
import Illuvitars.Lib.Chances
import Illuvitars.Minter.Odds
import Illuvitars.Minter.PortraitOdds
import Illuvitars.Layer.Calls
import Illuvitars.Layer.Correspondence
import Illuvitars.Layer.SaleFlag
import Illuvitars.Lib.Script
import Illuvitars.Reference.Generator
import Illuvitars.Deploy.Config
import Illuvitars.Reference.Agreement
import Illuvitars.Layer.Serial
import Illuvitars.Layer.Custody
import Illuvitars.Lib.Journal
import Illuvitars.Minter.Authority
import Illuvitars.Minter.EventLog
import Illuvitars.Minter.Treasury
import Illuvitars.Lib.Postpone
import Illuvitars.Minter.Timing
import Illuvitars.Reference.Portraits
import Illuvitars.Lib.Draws
import Illuvitars.Minter.JointOdds
import Illuvitars.Lib.Powers
import Illuvitars.Oracle.Coalitions
import Illuvitars.Minter.Recovery
import Illuvitars.Minter.Settlement
import Illuvitars.Layer.Mintable
import Illuvitars.Layer.TestBlobs
import Illuvitars.Minter.Market
import Illuvitars.Oracle.AuditTrail
import Illuvitars.Lib.Outcomes
import Illuvitars.Minter.OwnerPower
import Illuvitars.Lib.Callbacks
import Illuvitars.Minter.Callbacks
import Illuvitars.Minter.Reentrancy
