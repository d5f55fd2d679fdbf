import GasMarket.Address.Checksum
import GasMarket.Coin
import GasMarket.Text.Quoted

namespace GasMarket

inductive Error
  | invalidGasLimit
  | tooManyFeeCoins (count : Nat)
  | insufficientFee (required offered : Coin)
  | unknownDenom (denom : String)
  | insufficientFunds (address : Address) (amount : Coin)
  | feeGrantDenied (granter grantee : Address) (reason : String)
  | blockGasOverflow (used additional max : UInt64)
  | unknownAccount (address : Address)
  | gasUsedExceedsLimit (used limit : UInt64)
  | sendDisabled (denom : String)
  | invalidParams (reason : String)
  | unauthorized (expected got : Address)
  | invalidState (reason : String)
  | arithmetic (fault : ArithmeticFault)
  | missingModuleAccount (name : String)
  | storage (reason : String)
  deriving DecidableEq

namespace Error

def tag : Error → String
  | invalidGasLimit => "invalid_gas_limit"
  | tooManyFeeCoins .. => "too_many_fee_coins"
  | insufficientFee .. => "insufficient_fee"
  | unknownDenom .. => "unknown_denom"
  | insufficientFunds .. => "insufficient_funds"
  | feeGrantDenied .. => "fee_grant_denied"
  | blockGasOverflow .. => "block_gas_overflow"
  | unknownAccount .. => "unknown_account"
  | gasUsedExceedsLimit .. => "gas_used_exceeds_limit"
  | sendDisabled .. => "send_disabled"
  | invalidParams .. => "invalid_params"
  | unauthorized .. => "unauthorized"
  | invalidState .. => "invalid_state"
  | arithmetic .overflow => "arithmetic_overflow"
  | arithmetic .divisionByZero => "division_by_zero"
  | missingModuleAccount .. => "missing_module_account"
  | storage .. => "storage"

def message : Error → String
  | invalidGasLimit => "Gas limit must be greater than zero"
  | tooManyFeeCoins count => s!"Fee must be paid in a single denomination, got {count}"
  | insufficientFee required offered =>
    s!"Insufficient fee: required={required.toText} got={offered.toText}"
  | unknownDenom denom => s!"Unknown fee denomination: {denom}"
  | insufficientFunds address amount =>
    s!"Insufficient funds: {address.checksummed} cannot pay {amount.toText}"
  | feeGrantDenied granter grantee reason =>
    s!"Fee grant denied: {granter.checksummed} does not cover {grantee.checksummed}: {reason}"
  | blockGasOverflow used additional max =>
    s!"Block gas overflow: used={used} additional={additional} max={max}"
  | unknownAccount address => s!"Unknown account: {address.checksummed}"
  | gasUsedExceedsLimit used limit => s!"Gas used exceeds gas limit: used={used} limit={limit}"
  | sendDisabled denom => s!"Transfers of {denom} are disabled"
  | invalidParams reason => s!"Invalid params: {reason}"
  | unauthorized expected got =>
    s!"Unauthorized: expected={expected.checksummed} got={got.checksummed}"
  | invalidState reason => s!"Invalid state: {reason}"
  | arithmetic .overflow => "Arithmetic overflow"
  | arithmetic .divisionByZero => "Division by zero"
  | missingModuleAccount name => s!"Module account does not exist: {name}"
  | storage reason => s!"Storage failure: {Text.quoted reason}"

def isFatal : Error → Bool
  | invalidState .. | arithmetic .. | missingModuleAccount .. | storage .. => true
  | _ => false

end Error

end GasMarket
