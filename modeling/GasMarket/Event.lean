import GasMarket.Address
import GasMarket.Coin

namespace GasMarket

inductive Event
  | txFee (payer : Address) (required tip : Coin)
  | txRefund (payee : Address) (refund : Coin)
  | feeMarketUpdate (baseFee learningRate : Decimal) (height : UInt64)
  deriving DecidableEq

def Event.name : Event → String
  | .txFee .. => "tx_fee"
  | .txRefund .. => "tx_refund"
  | .feeMarketUpdate .. => "fee_market_update"

end GasMarket
