import GasMarket.Table
import Mathlib.Algebra.GroupWithZero.Nat

namespace GasMarket.Table

variable {κ : Type} {υ : Type} [DecidableEq κ] (w : κ → υ → Nat)

def total (t : Table κ υ) : Nat := (t.entries.map fun e => w e.1 e.2).sum

def weight (t : Table κ υ) (k : κ) : Nat := (t.get? k).elim 0 (w k)

theorem sum_put (k : κ) (v : υ) (entries : List (κ × υ)) :
    ((put k v entries).map fun e => w e.1 e.2).sum + (find? k entries).elim 0 (w k) =
      (entries.map fun e => w e.1 e.2).sum + w k v := by
  induction entries with
  | nil => simp [put, find?]
  | cons e rest ih =>
    obtain ⟨key, u⟩ := e
    by_cases h : key = k
    · subst h
      simp [put, find?]
      omega
    · simp only [put, find?, h, ↓reduceIte, List.map_cons, List.sum_cons]
      omega

theorem total_insert (t : Table κ υ) (k : κ) (v : υ) :
    (t.insert k v).total w + t.weight w k = t.total w + w k v :=
  sum_put w k v t.entries

theorem weight_le_total (t : Table κ υ) (k : κ) : t.weight w k ≤ t.total w := by
  unfold weight total get?
  induction t.entries with
  | nil => simp [find?]
  | cons e rest ih =>
    obtain ⟨key, u⟩ := e
    by_cases h : key = k
    · subst h
      simp [find?]
    · simp only [find?, h, ↓reduceIte, List.map_cons, List.sum_cons]
      exact Nat.le_trans ih (Nat.le_add_left _ _)

end GasMarket.Table
