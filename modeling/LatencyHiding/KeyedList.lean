set_option autoImplicit false

namespace LatencyHiding

structure KeyedList (κ ν : Type) where
  entries : List (κ × ν) := []
  deriving DecidableEq

namespace KeyedList

variable {κ ν : Type} [DecidableEq κ]

def empty : KeyedList κ ν := ⟨[]⟩

def isEmpty (m : KeyedList κ ν) : Bool := m.entries.isEmpty

def keys (m : KeyedList κ ν) : List κ := m.entries.map Prod.fst

def values (m : KeyedList κ ν) : List ν := m.entries.map Prod.snd

def find (key : κ) : List (κ × ν) → Option ν
  | [] => none
  | (k, v) :: rest => if k = key then some v else find key rest

def get? (m : KeyedList κ ν) (key : κ) : Option ν := find key m.entries

def getD (m : KeyedList κ ν) (key : κ) (default : ν) : ν := (m.get? key).getD default

def contains (m : KeyedList κ ν) (key : κ) : Bool := (m.get? key).isSome

@[simp] theorem get?_empty (key : κ) : (empty : KeyedList κ ν).get? key = none := rfl

variable [LT κ] [DecidableLT κ]

def place (key : κ) (value : ν) : List (κ × ν) → List (κ × ν)
  | [] => [(key, value)]
  | (k, v) :: rest =>
    if k = key then (key, value) :: rest
    else if key < k then (key, value) :: (k, v) :: rest
    else (k, v) :: place key value rest

def set (m : KeyedList κ ν) (key : κ) (value : ν) : KeyedList κ ν := ⟨place key value m.entries⟩

/-- Replace the value of `key`, or `default` if it has none, by its image under `f`. -/
def alter (m : KeyedList κ ν) (key : κ) (default : ν) (f : ν → ν) : KeyedList κ ν :=
  m.set key (f (m.getD key default))

def ofList (entries : List (κ × ν)) : KeyedList κ ν :=
  entries.foldl (fun m (k, v) => m.set k v) empty

theorem find_place_self (key : κ) (value : ν) (entries : List (κ × ν)) :
    find key (place key value entries) = some value := by
  induction entries with
  | nil => simp [place, find]
  | cons e rest ih =>
    simp only [place]
    split
    · simp [find]
    · split
      · simp [find]
      · simp_all [find]

theorem find_place_of_ne {key other : κ} (h : other ≠ key) (value : ν) (entries : List (κ × ν)) :
    find other (place key value entries) = find other entries := by
  induction entries with
  | nil => simp [place, find, Ne.symm h]
  | cons e rest ih =>
    simp only [place]
    split
    · simp_all [find, Ne.symm h]
    · split
      · simp [find, Ne.symm h]
      · simp [find, ih]

@[simp] theorem get?_set_self (m : KeyedList κ ν) (key : κ) (value : ν) :
    (m.set key value).get? key = some value :=
  find_place_self key value m.entries

@[simp] theorem get?_set_of_ne {key other : κ} (h : other ≠ key) (m : KeyedList κ ν) (value : ν) :
    (m.set key value).get? other = m.get? other :=
  find_place_of_ne h value m.entries

end KeyedList

end LatencyHiding
