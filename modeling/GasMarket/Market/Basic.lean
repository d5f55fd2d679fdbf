import GasMarket.Genesis
import GasMarket.Settlement
import GasMarket.Storage

namespace GasMarket

structure Market where
  config : Config
  params : Params
  state : Controller
  height : UInt64
  events : List Event
  feeAccounts : FeeAccounts
  funds : Funds
  rates : Rates
  gasCap : Option UInt64
  storage : Storage

namespace Market

def collectorAddress : Address := ⟨0xfee1⟩

def distributionAddress : Address := ⟨0xd157⟩

def initialFunds (c : Config) : Funds where
  accounts := (Accounts.empty.addModule c.feeCollector collectorAddress).addModule
    c.distribution distributionAddress
  bank := { Bank.empty with
    modules := (Table.empty.insert c.feeCollector collectorAddress).insert
      c.distribution distributionAddress }
  allowances := .empty

def emit (m : Market) (event : Event) : Market := { m with events := m.events ++ [event] }

def drainEvents (m : Market) : List Event × Market := (m.events, { m with events := [] })

def adopt (m : Market) (p : Params) (s : Controller) : Market :=
  { m with params := p, state := s, storage := m.storage.save p s }

def adoptState (m : Market) (s : Controller) : Market :=
  { m with state := s, storage := m.storage.saveState s }

def snapshot (m : Market) : Except Error (Option (Params × Controller)) :=
  m.storage.published.snapshot

def exportGenesis (m : Market) : Genesis := ⟨m.params, m.state⟩

def baseGasPrice (m : Market) : Price := m.state.baseGasPrice m.params

def gasPrice (m : Market) (denom : String) : Except Error Price :=
  m.state.gasPrice m.params m.rates denom

def gasPrices (m : Market) : List Price := [m.baseGasPrice]

def priority (m : Market) (tx : Tx) : Nat := tx.priority m.params.feeDenom

def checkFee (m : Market) (tx : Tx) (context : Context) : Except Error Admission :=
  m.state.checkFee m.params m.rates tx context

end Market

end GasMarket
