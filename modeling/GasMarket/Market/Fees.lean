import GasMarket.Controller.Update
import GasMarket.Market.Basic

namespace GasMarket.Market

def deduct (m : Market) (tx : Tx) (required tip : Coin) : Outcome Market Charge :=
  let charged := m.feeAccounts.deduct tx required tip m.funds
  let m := { m with funds := charged.state }
  match charged.result with
  | .ok charge => .done (m.emit charge.event) charge
  | .error e => .failed m e

def recorded (m : Market) (gasUsed : UInt64) : Except Error Controller :=
  if m.params.enabled then m.state.recordGas gasUsed else .ok m.state

/-- Records the gas of a transaction and publishes it before any funds move; the charge is settled
at the price before the gas was recorded. -/
def refund (m : Market) (tx : Tx) (charge : Charge) (gasUsed : UInt64) (success : Bool) :
    Outcome Market Refund :=
  if tx.gasLimit < gasUsed then .failed m (.gasUsedExceedsLimit gasUsed tx.gasLimit)
  else match m.recorded gasUsed with
    | .error e => .failed m e
    | .ok s =>
      match m.state.requiredFee m.params m.rates gasUsed charge.required.denom with
      | .error e => .failed m e
      | .ok used =>
        let m := if s = m.state then m else m.adoptState s
        let settled :=
          m.feeAccounts.refund charge used success m.params.distributeFees m.funds
        let m := { m with funds := settled.state }
        match settled.result with
        | .ok refund => .done (refund.event?.elim m m.emit) refund
        | .error e => .failed m e

def execute (m : Market) (tx : Tx) (context : Context) (gasUsed : UInt64) (success : Bool) :
    Outcome Market Refund :=
  (Outcome.ofExcept m (m.checkFee tx context)).andThen fun admission m =>
    (m.deduct tx admission.required admission.tip).andThen fun charge m =>
      m.refund tx charge gasUsed success

end GasMarket.Market
