import DualStore.Keyed

/-!
# Identities from a clock

An identity holds the milliseconds since an epoch, the number of a node, and a sequence number
inside the millisecond. Each node counts for itself; a clock that runs backwards is held at its last
reading, and when the sequence numbers of a millisecond are used up the next reading that is later
is awaited.

* `Generator`, `Generator.tick`: the state of a node, and one step of it;
* `identity`: the number made of milliseconds, node and sequence;
* `Supply`, `Supply.draw`: the nodes and the clock, and one identity.
-/

namespace DualStore.Snowflake

/-- The epoch, 2020-01-01, in milliseconds since 1970. -/
def epoch : Int := 1577836800000

def nodeCount : Int := 1024

def perMillisecond : Nat := 4096

/-- The number of a node; numbers wrap around. -/
def nodeOf (n : Int) : Int := n % nodeCount

/-- The number made of a time, a node and a sequence number. -/
def identity (time node : Int) (sequence : Nat) : Int :=
  (time - epoch) * 4194304 + node * 4096 + sequence

/-- What a node remembers: the time and the sequence number of its last identity. -/
structure Generator where
  last : Int := 0
  sequence : Nat := 0
  deriving DecidableEq, Repr

/-- A clock: its present reading and the readings to come; behind them it moves only while someone
waits for it. -/
structure Clock where
  present : Int
  upcoming : List Int
  deriving DecidableEq, Repr

def Clock.read (c : Clock) : Int × Clock :=
  match c.upcoming with
  | [] => (c.present, c)
  | t :: rest => (t, ⟨t, rest⟩)

/-- The first reading later than a time. -/
def Clock.await (time : Int) (upcoming : List Int) : Int × Clock :=
  match upcoming.dropWhile fun t => t ≤ time with
  | [] => (time + 1, ⟨time + 1, []⟩)
  | t :: rest => (t, ⟨t, rest⟩)

/-- One identity of a node: the time and the sequence number, and the clock after it. -/
def Generator.tick (g : Generator) (c : Clock) : Generator × Clock :=
  let (reading, c) := c.read
  let now := max reading g.last
  if now = g.last then
    if g.sequence + 1 < perMillisecond then (⟨now, g.sequence + 1⟩, c)
    else
      let (now, c) := Clock.await g.last c.upcoming
      (⟨now, 0⟩, c)
  else (⟨now, 0⟩, c)

/-- All nodes that have drawn identities, and the clock. -/
structure Supply where
  generators : List (Int × Generator) := []
  clock : Clock
  deriving Repr

def findGenerator (node : Int) : List (Int × Generator) → Generator
  | [] => {}
  | (n, g) :: rest => if n = node then g else findGenerator node rest

def putGenerator (node : Int) (g : Generator) : List (Int × Generator) → List (Int × Generator)
  | [] => [(node, g)]
  | (n, h) :: rest => if n = node then (node, g) :: rest else (n, h) :: putGenerator node g rest

def Supply.draw (s : Supply) (node : Int) : Int × Supply :=
  let node := nodeOf node
  let (g, clock) := (findGenerator node s.generators).tick s.clock
  (identity g.last node g.sequence, ⟨putGenerator node g s.generators, clock⟩)

def Supply.drawMany (s : Supply) (node : Int) : Nat → List Int × Supply
  | 0 => ([], s)
  | n + 1 =>
    let (id, s) := s.draw node
    let (ids, s) := s.drawMany node n
    (id :: ids, s)

/-- The node in an identity. -/
def nodeBits (id : Int) : Int := id / 4096 % nodeCount

/-- Whether identities are in ascending order without repetition. -/
def isIncreasing : List Int → Bool
  | a :: b :: rest => a < b && isIncreasing (b :: rest)
  | _ => true

example : (Supply.drawMany ⟨[], ⟨1600000000000, []⟩⟩ 5 3).1.map nodeBits = [5, 5, 5] := by decide

end DualStore.Snowflake
