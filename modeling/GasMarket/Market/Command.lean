import GasMarket.Market.Block

namespace GasMarket

inductive Command
  | beginBlock (height : UInt64)
  | endBlock (height : UInt64)
  | updateParams (authority : Address) (params : Params)
  deriving DecidableEq

namespace Market

def handle (m : Market) : Command → Outcome Market Unit
  | .beginBlock height => .done (m.beginBlock height) ()
  | .endBlock height => (m.endBlock height).andThen fun _ m => .done m ()
  | .updateParams authority p => m.updateParams authority p

def run (m : Market) : List Command → Outcome Market Unit
  | [] => .done m ()
  | command :: rest =>
    let handled := m.handle command
    match handled.result with
    | .ok () => run handled.state rest
    | .error e => if e.isFatal then handled else run handled.state rest

end Market

end GasMarket
