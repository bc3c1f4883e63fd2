/-!
# Keyed lists

Finite maps kept as lists of pairs in which the order of the entries can be seen: a JSON object, a
row, the entries of a store. No key is written twice by the operations below.

* `get?`, `has`, `keys`: reading;
* `put`: a value for a key; a known key keeps its place, a new one goes last;
* `erase`: an entry taken out, the others stay in order;
* `swapErase`: an entry taken out, and the last entry moves into its place;
* `putSorted`: a value for a key in a list ordered by key;
* `get?_put_self`, `get?_put_of_ne`: what `put` does to `get?`.
-/

namespace DualStore.Keyed

variable {α : Type}

def get? (key : String) : List (String × α) → Option α
  | [] => none
  | (k, v) :: rest => if k = key then some v else get? key rest

def has (key : String) : List (String × α) → Bool
  | [] => false
  | (k, _) :: rest => k = key || has key rest

def keys (entries : List (String × α)) : List String := entries.map Prod.fst

/-- Gives a key a value: a known key keeps its place, a new one goes last. -/
def put (key : String) (value : α) : List (String × α) → List (String × α)
  | [] => [(key, value)]
  | (k, v) :: rest => if k = key then (key, value) :: rest else (k, v) :: put key value rest

/-- Takes out the entry of a key; the others keep their order. -/
def erase (key : String) : List (String × α) → List (String × α)
  | [] => []
  | (k, v) :: rest => if k = key then rest else (k, v) :: erase key rest

def lastToFront : List α → List α
  | [] => []
  | x :: rest =>
    match lastToFront rest with
    | [] => [x]
    | y :: others => y :: x :: others

/-- Takes out the entry of a key; the last entry of the list moves into its place. -/
def swapErase (key : String) : List (String × α) → List (String × α)
  | [] => []
  | (k, v) :: rest => if k = key then lastToFront rest else (k, v) :: swapErase key rest

/-- Gives a key a value in a list that is ordered by key. -/
def putSorted (key : String) (value : α) : List (String × α) → List (String × α)
  | [] => [(key, value)]
  | (k, v) :: rest =>
    if k = key then (key, value) :: rest
    else if key < k then (key, value) :: (k, v) :: rest
    else (k, v) :: putSorted key value rest

/-- The entries ordered by key; of several entries for one key the last counts. -/
def sorted (entries : List (String × α)) : List (String × α) :=
  entries.foldl (fun acc entry => putSorted entry.1 entry.2 acc) []

/-- The entries with each key once, where it came first, with the value that came last. -/
def merged (entries : List (String × α)) : List (String × α) :=
  entries.foldl (fun acc entry => put entry.1 entry.2 acc) []

@[simp] theorem get?_put_self (key : String) (value : α) (entries : List (String × α)) :
    get? key (put key value entries) = some value := by
  induction entries with
  | nil => simp [put, get?]
  | cons entry rest ih =>
    obtain ⟨k, v⟩ := entry
    by_cases h : k = key
    · simp [put, get?, h]
    · simp [put, get?, h, ih]

theorem get?_put_of_ne {key other : String} (h : key ≠ other) (value : α)
    (entries : List (String × α)) : get? other (put key value entries) = get? other entries := by
  induction entries with
  | nil => simp [put, get?, h]
  | cons entry rest ih =>
    obtain ⟨k, v⟩ := entry
    by_cases hk : k = key
    · subst hk
      simp [put, get?, h]
    · by_cases ho : k = other
      · simp [put, get?, hk, if_pos ho]
      · simp [put, get?, hk, ho, ih]

theorem has_eq_isSome (key : String) (entries : List (String × α)) :
    has key entries = (get? key entries).isSome := by
  induction entries with
  | nil => rfl
  | cons entry rest ih =>
    obtain ⟨k, v⟩ := entry
    by_cases h : k = key
    · simp [has, get?, h]
    · simp [has, get?, h, ih]

example : swapErase "b" [("a", 1), ("b", 2), ("c", 3), ("d", 4)] = [("a", 1), ("d", 4), ("c", 3)] :=
  by
  decide

end DualStore.Keyed
