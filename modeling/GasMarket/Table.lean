namespace GasMarket

variable {κ : Type} {υ : Type} [DecidableEq κ]

namespace Table

def find? (k : κ) : List (κ × υ) → Option υ
  | [] => none
  | (key, v) :: rest => if key = k then some v else find? k rest

def put (k : κ) (v : υ) : List (κ × υ) → List (κ × υ)
  | [] => [(k, v)]
  | (key, w) :: rest => if key = k then (key, v) :: rest else (key, w) :: put k v rest

@[simp] theorem mem_keys_put (k key : κ) (v : υ) (entries : List (κ × υ)) :
    key ∈ (put k v entries).map Prod.fst ↔ key = k ∨ key ∈ entries.map Prod.fst := by
  induction entries with
  | nil => simp [put]
  | cons e rest ih =>
    obtain ⟨first, w⟩ := e
    by_cases h : first = k
    · subst h
      simp [put]
    · simp only [put, h, ↓reduceIte, List.map_cons, List.mem_cons, ih]
      exact or_left_comm

theorem nodup_keys_put {k : κ} {v : υ} {entries : List (κ × υ)}
    (h : (entries.map Prod.fst).Nodup) : ((put k v entries).map Prod.fst).Nodup := by
  induction entries with
  | nil => simp [put]
  | cons e rest ih =>
    obtain ⟨first, w⟩ := e
    rw [List.map_cons, List.nodup_cons] at h
    by_cases hk : first = k
    · subst hk
      simpa [put] using h
    · simp only [put, hk, ↓reduceIte, List.map_cons, List.nodup_cons, mem_keys_put]
      exact ⟨by simpa using h.1, ih h.2⟩

@[simp] theorem find?_put (k key : κ) (v : υ) (entries : List (κ × υ)) :
    find? key (put k v entries) = if k = key then some v else find? key entries := by
  induction entries with
  | nil => simp [put, find?]
  | cons e rest ih =>
    obtain ⟨first, w⟩ := e
    by_cases h : first = k
    · subst h
      simp only [put, find?, ↓reduceIte]
      split <;> rfl
    · simp only [put, find?, h, ↓reduceIte, ih]
      by_cases hf : first = key
      · subst hf
        simp [Ne.symm h]
      · simp [hf]

end Table

structure Table (κ υ : Type) [DecidableEq κ] where
  entries : List (κ × υ)
  distinct : (entries.map Prod.fst).Nodup

namespace Table

def empty : Table κ υ := ⟨[], List.nodup_nil⟩

instance : Inhabited (Table κ υ) := ⟨empty⟩

def get? (t : Table κ υ) (k : κ) : Option υ := find? k t.entries

def insert (t : Table κ υ) (k : κ) (v : υ) : Table κ υ :=
  ⟨put k v t.entries, nodup_keys_put t.distinct⟩

def insertAll (t : Table κ υ) (entries : List (κ × υ)) : Table κ υ :=
  entries.foldl (fun t e => t.insert e.1 e.2) t

@[simp] theorem get?_insert (t : Table κ υ) (k key : κ) (v : υ) :
    (t.insert k v).get? key = if k = key then some v else t.get? key :=
  find?_put k key v t.entries

end Table

end GasMarket
