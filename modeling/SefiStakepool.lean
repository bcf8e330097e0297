import SefiStakepool.Foundation.Exec
import SefiStakepool.Foundation.Machine
import SefiStakepool.Foundation.KeyedMap
import SefiStakepool.Foundation.GenerationalStore
import SefiStakepool.Foundation.Arena
import SefiStakepool.Foundation.Sheet
import SefiStakepool.Foundation.Shuffle
import SefiStakepool.Foundation.Raffle
import SefiStakepool.Contract.Handle
import SefiStakepool.Contract.Effect
import SefiStakepool.Accounting
import SefiStakepool.Chain.World
import SefiStakepool.Chain.Refinement
import SefiStakepool.Chain.Reference
import SefiStakepool.Chain.Solvency
import SefiStakepool.Chain.Aggregate
import SefiStakepool.Chain.Ledger
import SefiStakepool.Contract.Entries
import SefiStakepool.Chain.Backing
import SefiStakepool.Chain.Weights
import SefiStakepool.Chain.Authority
import SefiStakepool.Chain.Migration
import SefiStakepool.Chain.Recovery
import SefiStakepool.Contract.Query
import SefiStakepool.Chain.Registry
import SefiStakepool.Chain.Isolation
import SefiStakepool.Chain.Keys
import SefiStakepool.Chain.Pot
import SefiStakepool.Chain.Records
import SefiStakepool.Chain.Answers
import SefiStakepool.Chain.Unstaking
import SefiStakepool.Contract.Weigh
import SefiStakepool.Chain.Draw
import SefiStakepool.Chain.Privacy
import SefiStakepool.Chain.Panics
import SefiStakepool.Chain.Commuting
import SefiStakepool.Chain.Requests
import SefiStakepool.Chain.Flows
import SefiStakepool.Chain.Handling
import SefiStakepool.Chain.Discipline
import SefiStakepool.Chain.Exit
import SefiStakepool.Chain.Control
import SefiStakepool.Chain.Access
import SefiStakepool.Chain.Rounds
import SefiStakepool.Chain.Prizes
