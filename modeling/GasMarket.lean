import GasMarket.Market.Command
import GasMarket.Proofs.Codec.RoundTrip
import GasMarket.Proofs.Commands
import GasMarket.Proofs.Decimal.Exactness
import GasMarket.Proofs.Ledger.Grants
import GasMarket.Proofs.Ledger.Order
import GasMarket.Proofs.Ledger.Payouts
import GasMarket.Proofs.Pricing.Admission
import GasMarket.Proofs.Pricing.EmptyBlocks
import GasMarket.Proofs.Pricing.Envelope
import GasMarket.Proofs.Pricing.FullBlocks
import GasMarket.Proofs.Pricing.LastBlock
import GasMarket.Proofs.Pricing.LearningRate
import GasMarket.Proofs.Pricing.Monotone
import GasMarket.Proofs.Pricing.Precision
import GasMarket.Proofs.Pricing.Priority
import GasMarket.Proofs.Pricing.Reference
import GasMarket.Proofs.Pricing.RequiredFee
import GasMarket.Proofs.Resumption
