import GasMarket.Address
import GasMarket.Controller.Validity
import GasMarket.Params.Violation

namespace GasMarket

structure Config where
  authority : Address
  feeCollector : String
  distribution : String
  calibration : Calibration
  targetGas : UInt64
  deriving DecidableEq

def Config.default : Config where
  authority := ⟨0x7b5fe22b5446f7c62ea27b8bd71cef94e03f3df2⟩
  feeCollector := "fee_collector"
  distribution := "distribution"
  calibration := .eip1559
  targetGas := Params.defaultTarget

structure Genesis where
  params : Params
  state : Controller
  deriving DecidableEq

namespace Genesis

def new (p : Params) : Genesis := ⟨p, .new p⟩

def build (c : Config) : Genesis :=
  new ((Params.ofCalibration c.calibration).withTarget c.targetGas)

def default : Genesis := build .default

def validate (g : Genesis) : Except Error Unit := do
  g.params.validate
  g.state.validate g.params

end Genesis

end GasMarket
