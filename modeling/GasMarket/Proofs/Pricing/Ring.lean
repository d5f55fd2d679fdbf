import GasMarket.Proofs.Pricing.Update

/-! The ring as a sliding window.  Read backwards from the current slot it lists the gas of blocks
from the current one back in time, and each step of a block does one thing to that list. -/

namespace GasMarket

def lastBlocks (slots : Nat) (past : List Nat) : List Nat := (past.take slots).rightpad slots 0

section LastBlocks

variable (slots : Nat) (past : List Nat) (gas : Nat)

@[simp] theorem lastBlocks_zero : lastBlocks 0 past = [] := by simp [lastBlocks, List.rightpad]

@[simp] theorem lastBlocks_nil : lastBlocks slots [] = List.replicate slots 0 := by
  simp [lastBlocks, List.rightpad]

@[simp] theorem lastBlocks_cons :
    lastBlocks (slots + 1) (gas :: past) = gas :: lastBlocks slots past := by
  simp [lastBlocks, List.rightpad]

@[simp] theorem length_lastBlocks : (lastBlocks slots past).length = slots := by
  have hle := List.length_take_le slots past
  unfold lastBlocks List.rightpad
  rw [List.length_append, List.length_replicate]
  exact Nat.add_sub_of_le hle

theorem sum_lastBlocks : (lastBlocks slots past).sum = (past.take slots).sum := by
  simp [lastBlocks, List.rightpad]

theorem dropLast_lastBlocks :
    (lastBlocks (slots + 1) past).dropLast = lastBlocks slots past := by
  induction slots generalizing past with
  | zero => cases past with
    | nil => rfl
    | cons gas past => simp
  | succ slots ih =>
    cases past with
    | nil => rw [lastBlocks_nil, lastBlocks_nil, List.dropLast_replicate, Nat.add_sub_cancel]
    | cons gas past =>
      have hlater : lastBlocks (slots + 1) past ≠ [] :=
        List.ne_nil_of_length_eq_add_one (length_lastBlocks (slots + 1) past)
      rw [lastBlocks_cons, lastBlocks_cons, List.dropLast_cons_of_ne_nil hlater, ih]

theorem getElem?_lastBlocks {slots i : Nat} (h : i < slots) :
    (lastBlocks slots past)[i]? = some (past.getD i 0) := by
  induction slots generalizing past i with
  | zero => exact absurd h (Nat.not_lt_zero i)
  | succ slots ih =>
    cases past with
    | nil => simp [h]
    | cons gas past =>
      cases i with
      | zero => simp
      | succ i =>
        rw [lastBlocks_cons, List.getElem?_cons_succ, ih past (Nat.lt_of_succ_lt_succ h),
          List.getD_cons_succ]

end LastBlocks

namespace Controller

def recent (s : Controller) : List Nat :=
  ((s.window.take (s.index.toNat + 1)).reverse ++ (s.window.drop (s.index.toNat + 1)).reverse).map
    UInt64.toNat

variable {s : Controller}

theorem recent_perm (s : Controller) : (s.window.map UInt64.toNat).Perm s.recent := by
  have hparts := ((s.window.take (s.index.toNat + 1)).reverse_perm.append
    (s.window.drop (s.index.toNat + 1)).reverse_perm).symm
  rw [List.take_append_drop] at hparts
  exact hparts.map UInt64.toNat

@[simp] theorem length_recent (s : Controller) : s.recent.length = s.window.length := by
  rw [← s.recent_perm.length_eq, List.length_map]

theorem totalGas_eq_sum_recent (s : Controller) : s.totalGas = s.recent.sum := by
  rw [totalGas_eq, s.recent_perm.sum_nat]

theorem exists_split (h : s.index.toNat < s.window.length) : ∃ before after,
    s.window = before ++ s.currentGas :: after ∧ s.index.toNat = before.length := by
  refine ⟨s.window.take s.index.toNat, s.window.drop (s.index.toNat + 1), ?_, ?_⟩
  · rw [currentGas, List.getElem?_eq_getElem h, Option.getD_some, List.getElem_cons_drop,
      List.take_append_drop]
  · rw [List.length_take, Nat.min_eq_left (Nat.le_of_lt h)]

theorem recent_of_split {before after : List UInt64} {gas : UInt64}
    (hwindow : s.window = before ++ gas :: after) (hindex : s.index.toNat = before.length) :
    s.recent = (gas :: (before.reverse ++ after.reverse)).map UInt64.toNat := by
  have hwindow' : s.window = (before ++ [gas]) ++ after := by
    rw [hwindow, List.append_cons]
  have hindex' : s.index.toNat + 1 = (before ++ [gas]).length := by
    rw [hindex, List.length_append, List.length_singleton]
  rw [recent, hwindow', hindex', List.take_left, List.drop_left, List.reverse_append]
  rfl

theorem recent_eq_cons (h : s.index.toNat < s.window.length) :
    s.recent = s.currentGas.toNat :: s.recent.tail := by
  obtain ⟨before, after, hwindow, hindex⟩ := exists_split h
  rw [recent_of_split hwindow hindex]
  rfl

theorem recent_filled (h : s.index.toNat < s.window.length) (gas : UInt64) :
    recent { s with window := s.window.set s.index.toNat gas } = gas.toNat :: s.recent.tail := by
  obtain ⟨before, after, hwindow, hindex⟩ := exists_split h
  have hfilled : s.window.set s.index.toNat gas = before ++ gas :: after := by
    rw [hwindow, hindex, List.set_append_right _ _ (Nat.le_refl _), Nat.sub_self,
      List.set_cons_zero]
  rw [recent_of_split hwindow hindex]
  exact recent_of_split hfilled hindex

theorem toNat_index_advanced {p : Params} (h : s.Valid p) (rate fee : Decimal) :
    (s.advanced rate fee).index.toNat = (s.index.toNat + 1) % s.window.length := by
  change (UInt64.ofNat ((s.index.toNat + 1) % s.window.length)).toNat = _
  rw [UInt64.toNat_ofNat', Nat.mod_eq_of_lt]
  calc (s.index.toNat + 1) % s.window.length
      < s.window.length := Nat.mod_lt _ (Nat.zero_lt_of_lt h.index_lt)
    _ = p.window.toNat := h.length_window
    _ < 2 ^ 64 := p.window.toNat_lt

theorem recent_advanced {p : Params} (h : s.Valid p) (rate fee : Decimal) :
    (s.advanced rate fee).recent = 0 :: s.recent.dropLast := by
  obtain ⟨before, after, hwindow, hindex⟩ := exists_split h.index_lt
  have hlength : s.window.length = before.length + (after.length + 1) := by
    rw [hwindow, List.length_append, List.length_cons]
  have hnext := toNat_index_advanced h rate fee
  have hcleared : (s.advanced rate fee).window =
      s.window.set ((s.index.toNat + 1) % s.window.length) 0 := rfl
  rw [recent_of_split hwindow hindex]
  cases after with
  | nil =>
    have hwrap : (s.index.toNat + 1) % s.window.length = 0 := by
      rw [hlength, hindex, List.length_nil, Nat.zero_add, Nat.mod_self]
    rw [hwrap, hwindow] at hcleared
    rw [hwrap] at hnext
    cases before with
    | nil => exact recent_of_split (hcleared.trans (List.nil_append _).symm) hnext
    | cons oldest before =>
      have hlist :
          List.map UInt64.toNat (s.currentGas :: ((oldest :: before).reverse ++ [].reverse)) =
          List.map UInt64.toNat (s.currentGas :: before.reverse) ++ [oldest.toNat] := by
        simp
      rw [recent_of_split (hcleared.trans (List.nil_append _).symm) hnext, hlist,
        List.dropLast_concat]
      simp
  | cons oldest after =>
    have hinside : (s.index.toNat + 1) % s.window.length = before.length + 1 := by
      rw [hlength, hindex, List.length_cons]
      apply Nat.mod_eq_of_lt
      omega
    have hsplit : (s.advanced rate fee).window = (before ++ [s.currentGas]) ++ 0 :: after := by
      rw [hcleared, hinside, hwindow, List.append_cons, List.set_append_right]
      · simp
      · simp
    have hlist :
        List.map UInt64.toNat (s.currentGas :: (before.reverse ++ (oldest :: after).reverse)) =
        List.map UInt64.toNat (s.currentGas :: (before.reverse ++ after.reverse)) ++
          [oldest.toNat] := by
      simp
    rw [hinside] at hnext
    rw [recent_of_split hsplit (by rw [hnext, List.length_append, List.length_singleton]), hlist,
      List.dropLast_concat]
    simp

def age (s : Controller) (slot : Nat) : Nat :=
  if slot ≤ s.index.toNat then s.index.toNat - slot else s.index.toNat + s.window.length - slot

theorem age_lt (h : s.index.toNat < s.window.length) {slot : Nat} (hslot : slot < s.window.length) :
    s.age slot < s.window.length := by
  unfold age
  split <;> omega

theorem getElem?_window (h : s.index.toNat < s.window.length) {slot : Nat}
    (hslot : slot < s.window.length) :
    s.window[slot]?.map UInt64.toNat = s.recent[s.age slot]? := by
  unfold recent age
  rw [List.getElem?_map]
  congr 1
  have hleft : (s.window.take (s.index.toNat + 1)).length = s.index.toNat + 1 := by
    rw [List.length_take, Nat.min_eq_left h]
  have hright :
      (s.window.drop (s.index.toNat + 1)).length = s.window.length - (s.index.toNat + 1) :=
    List.length_drop
  split
  case isTrue hle =>
    rw [List.getElem?_append_left (by rw [List.length_reverse, hleft]; omega),
      List.getElem?_reverse (by rw [hleft]; omega), hleft, List.getElem?_take]
    rw [if_pos (by omega)]
    congr 1
    omega
  case isFalse hgt =>
    rw [List.getElem?_append_right (by rw [List.length_reverse, hleft]; omega), List.length_reverse,
      hleft, List.getElem?_reverse (by rw [hright]; omega), hright, List.getElem?_drop]
    congr 1
    omega

end Controller

end GasMarket
