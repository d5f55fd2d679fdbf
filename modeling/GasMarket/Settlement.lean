import GasMarket.Accounts
import GasMarket.Admission
import GasMarket.Allowances
import GasMarket.Bank
import GasMarket.Event
import GasMarket.Outcome

namespace GasMarket

structure Funds where
  accounts : Accounts
  bank : Bank
  allowances : Allowances

def Funds.empty : Funds := ⟨.empty, .empty, .empty⟩

structure Charge where
  payer : Address
  required : Coin
  tip : Coin
  deriving DecidableEq

def Charge.event (c : Charge) : Event := .txFee c.payer c.required c.tip

structure Refund where
  payee : Address
  refund : Coin
  distributed : Coin
  deriving DecidableEq

def Refund.event? (r : Refund) : Option Event :=
  if r.refund.IsZero then none else some (.txRefund r.payee r.refund)

def Charge.unused (c : Charge) (used : Coin) : Coin :=
  ⟨c.required.denom, BitVec.ofNat 256 (c.required.amount.toNat - used.amount.toNat)⟩

/-- What goes back to the payer and what is distributed.  The tip goes back when execution
failed, and otherwise stays or is distributed. -/
def Charge.division (c : Charge) (used : Coin) (success distribute : Bool) :
    Except Error (Coin × Coin) :=
  if ¬ success then do return (← (c.unused used).add c.tip, .zero c.tip.denom)
  else if distribute then .ok (c.unused used, c.tip)
  else .ok (c.unused used, .zero c.tip.denom)

structure FeeAccounts where
  collectorName : String
  collector : Address
  distribution : Address
  deriving DecidableEq

namespace FeeAccounts

def moduleAddress (accounts : Accounts) (name : String) : Except Error Address :=
  match accounts.modules.get? name with
  | some address => .ok address
  | none => .error (.missingModuleAccount name)

def resolve (accounts : Accounts) (collector distribution : String) :
    Except Error FeeAccounts := do
  return {
    collectorName := collector
    collector := ← moduleAddress accounts collector
    distribution := ← moduleAddress accounts distribution }

def collect (f : FeeAccounts) (payer : Address) (fee : Coin) (bank : Bank) :
    Except BankFault Bank :=
  if fee.IsZero then .ok bank
  else do
    bank.sendEnabled [fee]
    bank.sendToModule payer f.collectorName [fee]

def pay (f : FeeAccounts) (receiver : Address) (amount : Coin) (bank : Bank) :
    Except Error Bank :=
  (bank.send f.collector receiver [amount]).mapError fun fault =>
    .invalidState
      s!"Fee collector cannot pay {amount.toText} to {receiver.checksummed}: {fault.message}"

def giveBack (f : FeeAccounts) (payer : Address) (fee : Coin) (bank : Bank) :
    Except Error Bank :=
  if fee.IsZero then .ok bank else f.pay payer fee bank

/-- Spends the grant that a charge is made under, if there is one, once the fee has been
collected.  A denied grant undoes the collection. -/
def settleGrant (f : FeeAccounts) (tx : Tx) (fee : Coin) (funds : Funds) : Outcome Funds Unit :=
  match tx.feeGranter with
  | none => .done funds ()
  | some granter =>
    match funds.allowances.spend granter tx.payer [fee] with
    | .ok allowances => .done { funds with allowances } ()
    | .error refusal =>
      match f.giveBack tx.feePayer fee funds.bank with
      | .ok bank => .failed { funds with bank } (.feeGrantDenied granter tx.payer refusal.reason)
      | .error e => .failed funds e

def deduct (f : FeeAccounts) (tx : Tx) (required tip : Coin) (funds : Funds) :
    Outcome Funds Charge :=
  if ¬ funds.accounts.Exists tx.feePayer then .failed funds (.unknownAccount tx.feePayer)
  else match required.add tip with
    | .error e => .failed funds e
    | .ok fee =>
      match f.collect tx.feePayer fee funds.bank with
      | .error fault => .failed funds fault.error
      | .ok bank =>
        (f.settleGrant tx fee { funds with bank }).andThen fun _ funds =>
          .done funds ⟨tx.feePayer, required, tip⟩

def payOut (f : FeeAccounts) (receiver : Address) (amount : Coin) (funds : Funds) :
    Outcome Funds Unit :=
  if amount.IsZero then .done funds ()
  else
    let funds := { funds with accounts := funds.accounts.create receiver }
    match f.pay receiver amount funds.bank with
    | .ok bank => .done { funds with bank } ()
    | .error e => .failed funds e

/-- Settles a charge once it is known which fee was used.  The distribution account is paid
first. -/
def refund (f : FeeAccounts) (charge : Charge) (used : Coin) (success distribute : Bool)
    (funds : Funds) : Outcome Funds Refund :=
  if used.denom ≠ charge.required.denom then
    .failed funds (.invalidState
      s!"used fee {used.toText} is not in the denom of the charged {charge.required.toText}")
  else match charge.division used success distribute with
    | .error e => .failed funds e
    | .ok (back, distributed) =>
      (f.payOut f.distribution distributed funds).andThen fun _ funds =>
        (f.payOut charge.payer back funds).andThen fun _ funds =>
          .done funds ⟨charge.payer, back, distributed⟩

end FeeAccounts

end GasMarket
