import GasMarket.Codec.Tx
import GasMarket.Proofs.Codec.Controller
import GasMarket.Proofs.Codec.Event
import GasMarket.Proofs.Json.Spare

namespace GasMarket

open Codec Json

theorem Tx.faithful (tx : Tx) : Faithful tx := by
  have hfee : Faithful tx.fee := faithful_list fun coin _ => coin.faithful
  have hmsgs : Faithful tx.msgs := faithful_list fun msg _ => faithful_string msg
  have hgranter : nullable (some (encode tx.feeGranter)) = some tx.feeGranter :=
    (faithful_granter tx.feeGranter).decode_encode
  refine faithful_record rfl (fun _ => rfl) rfl (by decide) ?_ ?_
  · simp only [List.map_cons, List.map_nil, (faithful_address _).required, hgranter, hfee.required,
      (faithful_word _).required, hmsgs.required]
    rfl
  · simp only [List.forall_mem_cons, (faithful_address _).plain, (faithful_granter _).plain,
      hfee.plain, (faithful_word _).plain, hmsgs.plain, true_and]
    exact List.forall_mem_nil _

namespace Codec

section Numbers

variable {α : Type} [Codec α]

theorem numbers_list {as : List α} (h : ∀ a ∈ as, (encode a).numbers = 0) :
    (encode as).numbers = 0 := by
  change (Json.array (as.map encode)).numbers = 0
  rw [numbers_array, List.map_map, List.sum_eq_zero_iff_forall_eq_nat]
  exact List.forall_mem_map.2 h

theorem numbers_granter (granter : Option Address) : (encode granter).numbers = 0 := by
  cases granter with
  | none => rfl
  | some a => rfl

theorem numbers_tx (tx : Tx) : (encode tx).numbers = 1 := by
  have hfee : (encode tx.fee).numbers = 0 := numbers_list fun coin _ => rfl
  have hmsgs : (encode tx.msgs).numbers = 0 := numbers_list fun msg _ => rfl
  calc (encode tx).numbers
      = (encode tx.payer).numbers + ((encode tx.feeGranter).numbers + ((encode tx.fee).numbers +
          ((encode tx.gasLimit).numbers + ((encode tx.msgs).numbers + 0)))) := numbers_object _
    _ = 0 + (0 + (0 + (1 + (0 + 0)))) := by
        rw [numbers_granter, hfee, hmsgs]
        rfl

end Numbers

variable {α : Type} [Codec α] {decimals : α → List Decimal}

/-- What is written of a value is read as that value, unless one of its decimals is the least
of all.  What is read of any text is written as a text of the same value, and never as one
that another value has. -/
structure RoundTrips (α : Type) [Codec α] (decimals : α → List Decimal) : Prop where
  written_iff : ∀ a : α, ofText (toText a) = some a ↔ ∀ d ∈ decimals a, -Decimal.bound < d.units
  reread : ∀ {text : String} {a : α}, ofText text = some a → ofText (toText a) = some a
  toText_inj : ∀ {text text' : String} {a a' : α}, ofText text = some a → ofText text' = some a' →
    (toText a = toText a' ↔ a = a')

theorem roundTrips_of
    (hdecoded : ∀ {text : String} {a : α}, ofText text = some a → ∃ v, decode v = some a)
    (hlt : ∀ {v : Json} {a : α}, decode v = some a → ∀ d ∈ decimals a, -Decimal.bound < d.units)
    (hwritten : ∀ {a : α}, (∀ d ∈ decimals a, -Decimal.bound < d.units) →
      ofText (toText a) = some a) :
    RoundTrips α decimals := by
  have hread {text : String} {a : α} (h : ofText text = some a) :
      ∀ d ∈ decimals a, -Decimal.bound < d.units := by
    obtain ⟨v, hv⟩ := hdecoded h
    exact hlt hv
  refine ⟨fun a => ⟨hread, hwritten⟩, fun h => hwritten (hread h),
    fun h h' => ⟨fun htext => ?_, ?_⟩⟩
  · have hagain := hwritten (hread h)
    rw [htext, hwritten (hread h')] at hagain
    exact (Option.some.inj hagain).symm
  · rintro rfl
    rfl

theorem roundTrips_of_faithful
    (hofText : ∀ text, (ofText text : Option α) = (parse? text).bind decode)
    (hlt : ∀ {v : Json} {a : α}, decode v = some a → ∀ d ∈ decimals a, -Decimal.bound < d.units)
    (hfaithful : ∀ {a : α}, (∀ d ∈ decimals a, -Decimal.bound < d.units) → Faithful a) :
    RoundTrips α decimals := by
  refine roundTrips_of (fun h => ?_) hlt fun h => ?_
  · rw [hofText] at h
    obtain ⟨v, -, hv⟩ := Option.bind_eq_some_iff.1 h
    exact ⟨v, hv⟩
  · rw [hofText]
    exact (hfaithful h).parse

theorem roundTrips_of_few_numbers {isAddress : List Token → Bool}
    (hofText : ∀ text, (ofText text : Option α) = (parseSparing? isAddress text).bind decode)
    (hfaithful : ∀ a : α, Faithful a) (hfew : ∀ a : α, (encode a).numbers < 20) :
    RoundTrips α fun _ => [] := by
  refine roundTrips_of (fun h => ?_) (fun _ => List.forall_mem_nil _) fun {a} _ => ?_
  · rw [hofText] at h
    obtain ⟨v, -, hv⟩ := Option.bind_eq_some_iff.1 h
    exact ⟨v, hv⟩
  · rw [hofText, toText, parseSparing?_compact (hfaithful a).plain (hfew a)]
    exact (hfaithful a).decode_encode

theorem roundTrips_decimal : RoundTrips Decimal fun d => [d] :=
  roundTrips_of_faithful (fun _ => rfl)
    (fun h => List.forall_mem_singleton.2 (lt_of_decode_decimal h))
    fun h => faithful_decimal (h _ List.mem_cons_self)

theorem roundTrips_price : RoundTrips Price fun price => [price.amount] :=
  roundTrips_of_faithful (fun _ => rfl)
    (fun h => List.forall_mem_singleton.2 (Price.lt_of_decode h))
    fun h => Price.faithful (h _ List.mem_cons_self)

theorem roundTrips_of_forall_faithful
    (hofText : ∀ text, (ofText text : Option α) = (parse? text).bind decode)
    (hfaithful : ∀ a : α, Faithful a) : RoundTrips α fun _ => [] :=
  roundTrips_of_faithful hofText (fun _ => List.forall_mem_nil _) fun {a} _ => hfaithful a

theorem roundTrips_event : RoundTrips Event Event.decimals :=
  roundTrips_of Event.exists_decode_of_ofText Event.lt_of_decode Event.ofText_toText

end Codec

namespace Genesis

theorem lt_of_mem_decimals {v : Json} {g : Genesis} (h : decode v = some g) :
    ∀ d ∈ g.decimals, -Decimal.bound < d.units :=
  List.forall_mem_append.2 (lt_of_decode h)

theorem faithful_of_decimals {g : Genesis} (h : ∀ d ∈ g.decimals, -Decimal.bound < d.units) :
    Faithful g := by
  obtain ⟨hparams, hstate⟩ := List.forall_mem_append.1 h
  exact faithful hparams hstate

theorem ofText_toText_iff (g : Genesis) :
    ofText g.toText = some g ↔ ∀ d ∈ g.decimals, -Decimal.bound < d.units := by
  constructor
  · intro h
    obtain ⟨v, -, hv⟩ := Option.bind_eq_some_iff.1 h
    exact lt_of_mem_decimals hv
  · exact fun h => ofText_toText (faithful_of_decimals h)

end Genesis

/-- All that has a JSON form is read back from its text, and a genesis from its pretty text too. -/
theorem Codec.roundTrips_forms :
    RoundTrips Decimal (fun d => [d]) ∧ RoundTrips Amount (fun _ => []) ∧
    RoundTrips Address (fun _ => []) ∧ RoundTrips Coin (fun _ => []) ∧
    RoundTrips Price (fun price => [price.amount]) ∧ RoundTrips Calibration (fun _ => []) ∧
    RoundTrips Params Params.decimals ∧ RoundTrips Controller Controller.decimals ∧
    RoundTrips BlockUpdate BlockUpdate.decimals ∧ RoundTrips Config (fun _ => []) ∧
    RoundTrips Genesis Genesis.decimals ∧ RoundTrips Tx (fun _ => []) ∧
    RoundTrips Event Event.decimals ∧
    ∀ g : Genesis, ofText g.toText = some g ↔ ∀ d ∈ g.decimals, -Decimal.bound < d.units := by
  refine ⟨roundTrips_decimal, ?amount, ?address, ?coin, roundTrips_price, ?calibration, ?params,
    ?controller, ?update, ?config, ?genesis, ?tx, roundTrips_event, Genesis.ofText_toText_iff⟩
  case amount => exact roundTrips_of_forall_faithful (fun _ => rfl) faithful_amount
  case address =>
    refine roundTrips_of_few_numbers (fun _ => rfl) faithful_address fun a => ?_
    change 0 < 20
    decide
  case coin => exact roundTrips_of_forall_faithful (fun _ => rfl) Coin.faithful
  case calibration => exact roundTrips_of_forall_faithful (fun _ => rfl) faithful_calibration
  case params => exact roundTrips_of_faithful (fun _ => rfl) Params.lt_of_decode Params.faithful
  case controller =>
    exact roundTrips_of_faithful (fun _ => rfl) Controller.lt_of_decode Controller.faithful
  case update =>
    exact roundTrips_of_faithful (fun _ => rfl) BlockUpdate.lt_of_decode BlockUpdate.faithful
  case config =>
    refine roundTrips_of_few_numbers (fun _ => rfl) Config.faithful fun c => ?_
    change 1 < 20
    decide
  case genesis =>
    exact roundTrips_of_faithful (fun _ => rfl) Genesis.lt_of_mem_decimals
      Genesis.faithful_of_decimals
  case tx =>
    refine roundTrips_of_few_numbers (fun _ => rfl) Tx.faithful fun tx => ?_
    rw [numbers_tx]
    decide

example : (ofText "[\"stake\", 7]" : Option Coin) = some ⟨"stake", 7⟩ := by decide +kernel

end GasMarket
