import DualStore.Json.Basic

/-!
# The cache

Values by key, each with a deadline. A value whose deadline has come is not found any more; it
leaves when its key is asked for, or when any value is put.

* `Cache`, `Cache.get`, `Cache.put`, `Cache.del`: the cache and its calls, at a time in
  milliseconds;
* `CacheError`: a deadline that the clock cannot express makes the cache unusable.
-/

namespace DualStore

inductive CacheError where
  | deadlineOverflow
  | poisoned
  deriving DecidableEq, Repr

def CacheError.message : CacheError → String
  | .deadlineOverflow => "cache backend error: deadline out of range"
  | .poisoned => "cache lock poisoned"

/-- A cached value and the time from which on it is gone. -/
structure CacheEntry where
  value : Json
  deadline : Nat

/-- The cache; the time to live of values put without one is in seconds. -/
structure Cache where
  defaultSeconds : Nat := 300
  entries : List (String × CacheEntry) := []
  isPoisoned : Bool := false

namespace Cache

/-- The greatest number of seconds that the clock can express. -/
def maxSeconds : Nat := 9223372036854775807

/-- The number of entries, those that are gone but not yet removed included. -/
def size (c : Cache) : Nat := if c.isPoisoned then 0 else c.entries.length

def get (c : Cache) (now : Nat) (key : String) : Except CacheError (Option Json) × Cache :=
  if c.isPoisoned then (.error .poisoned, c)
  else
    match Keyed.get? key c.entries with
    | none => (.ok none, c)
    | some entry =>
      if now < entry.deadline then (.ok (some entry.value), c)
      else (.ok none, { c with entries := Keyed.erase key c.entries })

/-- The time to live of a value, in seconds. -/
def lifetime (c : Cache) (seconds : Int) : Nat :=
  if 0 < seconds then seconds.toNat else c.defaultSeconds

/-- Puts a value at a time; without a positive number of seconds it lives as long as the default
says. -/
def put (c : Cache) (now : Nat) (key : String) (value : Json) (seconds : Int) :
    Except CacheError Unit × Cache :=
  if c.isPoisoned then (.error .poisoned, c)
  else
    let kept := c.entries.filter fun entry => now < entry.2.deadline
    let life := c.lifetime seconds
    if maxSeconds < now / 1000 + life then
      (.error .deadlineOverflow, { c with entries := kept, isPoisoned := true })
    else (.ok (), { c with entries := Keyed.put key ⟨value, now + life * 1000⟩ kept })

def eraseAll (entries : List (String × CacheEntry)) : List String → List (String × CacheEntry)
  | [] => entries
  | key :: rest => eraseAll (Keyed.erase key entries) rest

def del (c : Cache) (keys : List String) : Except CacheError Unit × Cache :=
  if c.isPoisoned then (.error .poisoned, c)
  else (.ok (), { c with entries := eraseAll c.entries keys })

end Cache

end DualStore
