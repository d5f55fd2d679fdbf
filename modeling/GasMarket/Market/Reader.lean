import GasMarket.Market.Basic

namespace GasMarket

/-- Answers from the published slots of its market, which every query is given, with the
configuration and the rates of the moment it was made. -/
structure MarketReader where
  config : Config
  rates : Rates

def Market.reader (m : Market) : MarketReader := ⟨m.config, m.rates⟩

def Slots.both (published : Slots) : Except Error (Params × Controller) := do
  match ← published.snapshot with
  | some both => return both
  | none => throw (.invalidState "fee market is missing from storage")

namespace MarketReader

def snapshot (_ : MarketReader) (published : Slots) : Except Error (Params × Controller) :=
  published.both

def params (_ : MarketReader) (published : Slots) : Except Error Params :=
  published.both.map Prod.fst

def state (_ : MarketReader) (published : Slots) : Except Error Controller :=
  published.both.map Prod.snd

def baseGasPrice (_ : MarketReader) (published : Slots) : Except Error Price := do
  let (p, s) ← published.both
  return s.baseGasPrice p

def gasPrice (r : MarketReader) (published : Slots) (denom : String) : Except Error Price := do
  let (p, s) ← published.both
  s.gasPrice p r.rates denom

def checkFee (r : MarketReader) (published : Slots) (tx : Tx) (context : Context) :
    Except Error Admission := do
  let (p, s) ← published.both
  s.checkFee p r.rates tx context

end MarketReader

end GasMarket
