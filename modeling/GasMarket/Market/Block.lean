import GasMarket.Market.Basic

namespace GasMarket.Market

def initGenesis (m : Market) (g : Genesis) : Outcome Market Unit :=
  match g.params.validateUnder m.gasCap, g.state.validate g.params with
  | .error e, _ => .failed m e
  | .ok (), .error e => .failed m e
  | .ok (), .ok () => .done (m.adopt g.params g.state) ()

def load (m : Market) : Outcome Market Unit :=
  match m.snapshot with
  | .error e => .failed m e
  | .ok (some (p, s)) => m.initGenesis ⟨p, s⟩
  | .ok none => m.initGenesis (.build m.config)

def new (c : Config) : Except Error Market := do
  let funds := initialFunds c
  let feeAccounts ← FeeAccounts.resolve funds.accounts c.feeCollector c.distribution
  let g := Genesis.build c
  let loaded := load {
    config := c
    params := g.params
    state := g.state
    height := 0
    events := []
    feeAccounts
    funds
    rates := .empty
    gasCap := none
    storage := .empty }
  match loaded.result with
  | .ok () => return loaded.state
  | .error e => throw e

def beginBlock (m : Market) (height : UInt64) : Market := { m with height }

def endBlock (m : Market) (height : UInt64) : Outcome Market (Option BlockUpdate) :=
  let m := { m with height }
  if ¬ m.params.enabled then .done m none
  else match m.state.nextBlock m.params with
    | .error e => .failed m e
    | .ok (s, update) =>
      .done ((m.adoptState s).emit (.feeMarketUpdate update.baseFee update.learningRate height))
        (some update)

/-- Replaces the params on behalf of the authority, and starts over with a fresh controller. -/
def updateParams (m : Market) (authority : Address) (p : Params) : Outcome Market Unit :=
  if authority ≠ m.config.authority then .failed m (.unauthorized m.config.authority authority)
  else match p.validateUnder m.gasCap with
    | .error e => .failed m e
    | .ok () => .done (m.adopt p (.new p)) ()

end GasMarket.Market
