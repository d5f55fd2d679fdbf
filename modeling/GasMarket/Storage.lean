import GasMarket.Codec.Controller

/-! Two slots of text, one for the params and one for the controller.  What is written is staged
until it is published, all of it together. -/

namespace GasMarket

inductive Slot
  | params | state
  deriving DecidableEq

structure Slots where
  params : Option String
  state : Option String
  deriving DecidableEq

namespace Slots

def empty : Slots := ⟨none, none⟩

def put (s : Slots) (text : String) : Slot → Slots
  | .params => { s with params := some text }
  | .state => { s with state := some text }

def onto (s below : Slots) : Slots := ⟨s.params <|> below.params, s.state <|> below.state⟩

def read {α : Type} [Codec α] : Option String → Except Error (Option α)
  | none => .ok none
  | some text =>
    match Codec.ofText text with
    | some a => .ok (some a)
    | none => .error (.storage "slot does not decode")

def readParams (s : Slots) : Except Error (Option Params) := read s.params

def readState (s : Slots) : Except Error (Option Controller) := read s.state

def snapshot (s : Slots) : Except Error (Option (Params × Controller)) := do
  match ← s.readParams, ← s.readState with
  | some p, some c => return some (p, c)
  | _, _ => return none

end Slots

structure Storage where
  published : Slots
  staged : Slots
  deriving DecidableEq

namespace Storage

def empty : Storage := ⟨.empty, .empty⟩

def put (s : Storage) (slot : Slot) (text : String) : Storage :=
  { s with staged := s.staged.put text slot }

def publish (s : Storage) : Storage := ⟨s.staged.onto s.published, .empty⟩

def saveParams (s : Storage) (p : Params) : Storage :=
  (s.put .params (Codec.toText p)).publish

def saveState (s : Storage) (c : Controller) : Storage :=
  (s.put .state (Codec.toText c)).publish

def save (s : Storage) (p : Params) (c : Controller) : Storage :=
  ((s.put .params (Codec.toText p)).put .state (Codec.toText c)).publish

@[simp] theorem published_saveState (s : Storage) (c : Controller) :
    (s.saveState c).published =
      ⟨s.staged.params <|> s.published.params, some (Codec.toText c)⟩ := rfl

end Storage

end GasMarket
