namespace GasMarket

inductive Rounding
  | truncate | ceil | halfAwayFromZero
  deriving DecidableEq

def Rounding.divide : Rounding → Int → Int → Int
  | .truncate, n, d => n.tdiv d
  | .ceil, n, d => -((-n).fdiv d)
  | .halfAwayFromZero, n, d =>
    n.sign * d.sign * ((2 * n.natAbs + d.natAbs) / (2 * d.natAbs) : Nat)

@[simp] theorem Rounding.zero_divide (r : Rounding) (d : Int) : r.divide 0 d = 0 := by
  cases r <;> simp [Rounding.divide]

end GasMarket
