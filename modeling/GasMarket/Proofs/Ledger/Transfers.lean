import GasMarket.Proofs.Ledger.Bank
import Mathlib.Algebra.BigOperators.Group.List.Basic
import Mathlib.Data.BitVec
import Mathlib.Tactic.Abel

namespace GasMarket

namespace Coin

def total (coins : List Coin) (denom : String) : Nat := (coins.map (·.worth denom)).sum

theorem total_cons (coin : Coin) (coins : List Coin) (denom : String) :
    total (coin :: coins) denom = coin.worth denom + total coins denom := List.sum_cons

theorem worth_self (coin : Coin) : coin.worth coin.denom = coin.amount.toNat := if_pos rfl

theorem total_eq_zero {coins : List Coin} {denom : String} (h : denom ∉ coins.map Coin.denom) :
    total coins denom = 0 := by
  apply List.sum_eq_zero
  intro worth hworth
  obtain ⟨coin, hmem, rfl⟩ := List.mem_map.1 hworth
  exact if_neg fun hdenom => h (List.mem_map.2 ⟨coin, hmem, hdenom⟩)

end Coin

namespace Bank

def share (account address : Address) (amount : Nat) : Amount :=
  if account = address then .ofNat 256 amount else 0

theorem share_zero (account address : Address) : share account address 0 = 0 := ite_self _

theorem share_add (account address : Address) (amount more : Nat) :
    share account address (amount + more) =
      share account address amount + share account address more := by
  unfold share
  split
  · exact BitVec.ofNat_add ..
  · exact (add_zero _).symm

/-- In the arithmetic of words, an amount of each denomination went from one account to another. -/
def Moved (b b' : Bank) (sender receiver : Address) (amount : String → Nat) : Prop :=
  ∀ address denom, b'.balance address denom = b.balance address denom -
    share sender address (amount denom) + share receiver address (amount denom)

/-- In plain numbers, an amount of each denomination went from one account to another. -/
structure Sent (b b' : Bank) (sender receiver : Address) (amount : String → Nat) : Prop
    extends Kept b b' where
  holding : ∀ address denom,
    b'.holding address denom + (if sender = address then amount denom else 0) =
      b.holding address denom + if receiver = address then amount denom else 0

def CoversInTurn (b : Bank) (sender receiver : Address) : List Coin → Prop
  | [] => True
  | coin :: rest => coin.amount.toNat ≤ b.holding sender coin.denom ∧
      (b.move sender receiver coin).CoversInTurn sender receiver rest

def afterSend (b : Bank) (sender receiver : Address) (coins : List Coin) : Bank :=
  match b.send sender receiver coins with
  | .ok b' => b'
  | .error _ => b

variable {b mid b' : Bank} {sender receiver : Address} {coin : Coin} {coins : List Coin}

section Words

theorem Moved.refl (b : Bank) (sender receiver : Address) :
    b.Moved b sender receiver fun _ => 0 := by
  intro address denom
  rw [share_zero, share_zero, sub_zero, add_zero]

theorem Moved.trans {amount more : String → Nat} (h : b.Moved mid sender receiver amount)
    (h' : mid.Moved b' sender receiver more) :
    b.Moved b' sender receiver fun denom => amount denom + more denom := by
  intro address denom
  rw [h' address denom, h address denom, share_add, share_add]
  abel

theorem Moved.to_self {amount : String → Nat} (h : b.Moved b' sender sender amount)
    (address : Address) (denom : String) : b'.balance address denom = b.balance address denom := by
  rw [h address denom]
  exact sub_add_cancel _ _

theorem share_worth (account address : Address) (coin : Coin) (denom : String) :
    share account address (coin.worth denom) =
      if (account, coin.denom) = (address, denom) then coin.amount else 0 := by
  unfold share Coin.worth
  by_cases haddress : account = address
  · by_cases hdenom : coin.denom = denom
    · simp [haddress, hdenom]
    · simp [hdenom]
  · simp [haddress]

theorem balance_debit (b : Bank) (account address : Address) (coin : Coin) (denom : String) :
    (b.debit account coin).balance address denom =
      b.balance address denom - share account address (coin.worth denom) := by
  rw [debit, balance_setBalance, share_worth]
  split
  case isTrue hkey =>
    cases hkey
    rfl
  case isFalse => exact (sub_zero _).symm

theorem balance_credit (b : Bank) (account address : Address) (coin : Coin) (denom : String) :
    (b.credit account coin).balance address denom =
      b.balance address denom + share account address (coin.worth denom) := by
  rw [credit, balance_setBalance, share_worth]
  split
  case isTrue hkey =>
    cases hkey
    rfl
  case isFalse => exact (add_zero _).symm

theorem moved_move (b : Bank) (sender receiver : Address) (coin : Coin) :
    b.Moved (b.move sender receiver coin) sender receiver coin.worth := by
  intro address denom
  rw [move_eq, balance_credit, balance_debit]

theorem moved_foldl (b : Bank) (sender receiver : Address) (coins : List Coin) :
    b.Moved (coins.foldl (·.move sender receiver ·) b) sender receiver (Coin.total coins) := by
  induction coins generalizing b with
  | nil => exact .refl b sender receiver
  | cons coin rest ih =>
    have hmoved := (moved_move b sender receiver coin).trans (ih (b.move sender receiver coin))
    intro address denom
    rw [Coin.total_cons]
    exact hmoved address denom

end Words

section Numbers

theorem Sent.refl (b : Bank) (sender receiver : Address) : b.Sent b sender receiver fun _ => 0 where
  toKept := .refl b
  holding address denom := by rw [ite_self, ite_self]

theorem Transfer.sent (h : b.Transfer b' sender receiver coin) :
    b.Sent b' sender receiver coin.worth :=
  ⟨h.toKept, h.holding⟩

theorem Sent.trans {amount more : String → Nat} (h : b.Sent mid sender receiver amount)
    (h' : mid.Sent b' sender receiver more) :
    b.Sent b' sender receiver fun denom => amount denom + more denom where
  toKept := h.toKept.trans h'.toKept
  holding address denom := by
    have hfirst := h.holding address denom
    have hsecond := h'.holding address denom
    grind

theorem total_le_move {rest : List Coin}
    (hcover : ∀ denom, Coin.total (coin :: rest) denom ≤ b.holding sender denom)
    (receiver : Address) :
    coin.amount.toNat ≤ b.holding sender coin.denom ∧
      ∀ denom, Coin.total rest denom ≤ (b.move sender receiver coin).holding sender denom := by
  have hcoin : coin.amount.toNat ≤ b.holding sender coin.denom := by
    have hsum := hcover coin.denom
    rw [Coin.total_cons, Coin.worth_self] at hsum
    omega
  refine ⟨hcoin, fun denom => ?_⟩
  have hleft := holding_le_move hcoin receiver denom
  have hsum := hcover denom
  rw [Coin.total_cons] at hsum
  omega

theorem coversInTurn_of_total (hcover : ∀ denom, Coin.total coins denom ≤ b.holding sender denom) :
    b.CoversInTurn sender receiver coins := by
  induction coins generalizing b with
  | nil => trivial
  | cons coin rest ih =>
    obtain ⟨hcoin, hrest⟩ := total_le_move hcover receiver
    exact ⟨hcoin, ih hrest⟩

theorem CoversInTurn.total_le (hother : sender ≠ receiver)
    (h : b.CoversInTurn sender receiver coins)
    (denom : String) : Coin.total coins denom ≤ b.holding sender denom := by
  induction coins generalizing b with
  | nil => exact Nat.zero_le _
  | cons coin rest ih =>
    obtain ⟨hcoin, hrest⟩ := h
    have hlater := ih hrest
    have hleft := holding_move_of_ne hother.symm hcoin denom
    rw [Coin.total_cons]
    omega

theorem sent_foldl (hb : b.Bounded)
    (hcover : ∀ denom, Coin.total coins denom ≤ b.holding sender denom) (receiver : Address) :
    b.Sent (coins.foldl (·.move sender receiver ·) b) sender receiver (Coin.total coins) := by
  induction coins generalizing b with
  | nil => exact .refl b sender receiver
  | cons coin rest ih =>
    obtain ⟨hcoin, hrest⟩ := total_le_move hcover receiver
    have hmove := transfer_move hb hcoin receiver
    have hsent := hmove.sent.trans (ih (hmove.toKept.bounded hb) hrest)
    refine ⟨hsent.toKept, fun address denom => ?_⟩
    rw [Coin.total_cons]
    exact hsent.holding address denom

theorem total_le_of_nodup (hkinds : (coins.map Coin.denom).Nodup)
    (hcover : ∀ coin ∈ coins, coin.amount.toNat ≤ b.holding sender coin.denom) (denom : String) :
    Coin.total coins denom ≤ b.holding sender denom := by
  induction coins with
  | nil => exact Nat.zero_le _
  | cons coin rest ih =>
    rw [List.map_cons, List.nodup_cons] at hkinds
    obtain ⟨hcoin, hrest⟩ := List.forall_mem_cons.1 hcover
    rw [Coin.total_cons]
    by_cases hdenom : coin.denom = denom
    · subst hdenom
      rw [Coin.total_eq_zero hkinds.1, Coin.worth_self]
      exact hcoin
    · rw [Coin.worth, if_neg hdenom, Nat.zero_add]
      exact ih hkinds.2 hrest

end Numbers

/-- Coins are sent if each on its own may be, and nothing changes otherwise.  What moves is their
sum in the arithmetic of words; it is their sum in plain numbers, and no subtraction goes below
zero, if the sender covers it, as it does if no denomination is repeated. -/
theorem balances_of_send (b : Bank) (sender receiver : Address) (coins : List Coin) :
    ((∃ b', b.send sender receiver coins = .ok b') ↔ ∀ coin ∈ coins, b.Admits sender coin) ∧
      (∀ fault, b.send sender receiver coins = .error fault →
        b.afterSend sender receiver coins = b) ∧
      ∀ b', b.send sender receiver coins = .ok b' → b.afterSend sender receiver coins = b' ∧
        b.Moved b' sender receiver (Coin.total coins) ∧
        (sender = receiver → ∀ address denom, b'.balance address denom = b.balance address denom) ∧
        (sender ≠ receiver → (b.CoversInTurn sender receiver coins ↔
          ∀ denom, Coin.total coins denom ≤ b.holding sender denom)) ∧
        ((coins.map Coin.denom).Nodup → ∀ denom, Coin.total coins denom ≤ b.holding sender denom) ∧
        (b.Bounded → (∀ denom, Coin.total coins denom ≤ b.holding sender denom) →
          b.CoversInTurn sender receiver coins ∧ b.Sent b' sender receiver (Coin.total coins)) := by
  refine ⟨?_, ?_, ?_⟩
  · constructor
    · rintro ⟨b', hsend⟩
      exact (send_coins_eq_ok_iff.1 hsend).1
    · exact fun hadmits => ⟨_, send_coins_eq_ok_iff.2 ⟨hadmits, rfl⟩⟩
  · intro fault hsend
    rw [afterSend, hsend]
  · intro b' hsend
    have hafter : b.afterSend sender receiver coins = b' := by rw [afterSend, hsend]
    obtain ⟨hadmits, rfl⟩ := send_coins_eq_ok_iff.1 hsend
    have hmoved := moved_foldl b sender receiver coins
    refine ⟨hafter, hmoved, ?_, ?_, ?_, ?_⟩
    · rintro rfl
      exact hmoved.to_self
    · exact fun hother => ⟨CoversInTurn.total_le hother, coversInTurn_of_total⟩
    · exact fun hkinds => total_le_of_nodup hkinds fun coin hmem => (hadmits coin hmem).2
    · exact fun hb hcover => ⟨coversInTurn_of_total hcover, sent_foldl hb hcover receiver⟩

/-- Two coins that are each covered, but not together: the sender, who had seven, is left with all
but three of the amounts there are. -/
theorem overdrawn_by_repeated_denom :
    let b : Bank := empty.setBalance ⟨1⟩ "stake" 7
    let coins : List Coin := [⟨"stake", 5⟩, ⟨"stake", 5⟩]
    b.Bounded ∧ ∃ b', b.send ⟨1⟩ ⟨2⟩ coins = .ok b' ∧
      b.holding ⟨1⟩ "stake" < Coin.total coins "stake" ∧ b'.holding ⟨1⟩ "stake" = Amount.size - 3 :=
  ⟨bounded_single _ _ _, _, rfl, by decide, by decide⟩

end Bank

end GasMarket
