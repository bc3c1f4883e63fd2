import Mathlib.Algebra.Group.Int.Defs
import Mathlib.Algebra.Group.Nat.Defs
import Mathlib.Data.List.Nodup
import DualStore.Identity.Snowflake

/-!
# Drawn identities never repeat

Identities that are drawn for any nodes, whatever the clock shows. Each node moves forward with
every identity, in time or within a millisecond, even if the clock runs backwards; and the bits of
the node keep the identities of different nodes apart.

* `InRange`, `Clock.Within`: times that an identity can hold;
* `Generator.IsBefore`, `identity_lt`: the order of what a node remembers, and of its identities;
* `tick_spec`: one identity of a node;
* `Supply.drawEach`, `Supply.Timely`: identities for any nodes, and what is assumed of the clock;
* `draw_spec`, `drawEach_spec`: one of them, and all of them by induction;
* `drawn_once`: the main statement.
-/

namespace DualStore.Snowflake

/-! ## Times and words -/

/-- Whether a time can be held in an identity: it lies behind the epoch, by less than 2^41
milliseconds. -/
def InRange (time : Int) : Prop := epoch < time ∧ time < epoch + 2 ^ 41

instance (time : Int) : Decidable (InRange time) :=
  inferInstanceAs (Decidable (epoch < time ∧ time < epoch + 2 ^ 41))

/-- Whether a clock only shows times that an identity can hold. -/
def Clock.Within (c : Clock) : Prop := ∀ t ∈ c.present :: c.upcoming, InRange t

instance (c : Clock) : Decidable c.Within :=
  inferInstanceAs (Decidable (∀ t ∈ c.present :: c.upcoming, InRange t))

/-- The word of a time, a node and a sequence number, side by side. -/
def word (time node : Int) (sequence : Nat) : BitVec 64 :=
  BitVec.ofInt 64 (time - epoch) <<< 22 ||| BitVec.ofInt 64 node <<< 12 ||| BitVec.ofNat 64 sequence

theorem perMillisecond_pos : 0 < perMillisecond := by decide

theorem nodeOf_range (node : Int) : 0 ≤ nodeOf node ∧ nodeOf node < 1024 := by
  unfold nodeOf nodeCount
  omega

variable {time node : Int} {sequence : Nat}

/-- An identity is positive and leaves the sign bit free. -/
theorem identity_range (htime : InRange time) (hnode : 0 ≤ node ∧ node < 1024)
    (hsequence : sequence < perMillisecond) :
    0 < identity time node sequence ∧ identity time node sequence < 2 ^ 63 := by
  unfold InRange epoch at htime
  unfold perMillisecond at hsequence
  unfold identity epoch
  omega

/-- Numbers that do not overlap are put side by side by adding them. -/
theorem or_parts {a n : Nat} (hn : n < 1024) (hsequence : sequence < 4096) :
    a * 2 ^ 22 ||| n * 2 ^ 12 ||| sequence = a * 2 ^ 22 + n * 2 ^ 12 + sequence := by
  have hlow : n * 2 ^ 12 ||| sequence = n * 2 ^ 12 + sequence := by
    rw [Nat.mul_comm]
    exact (Nat.two_pow_add_eq_or_of_lt (by omega) n).symm
  have hhigh : a * 2 ^ 22 ||| (n * 2 ^ 12 + sequence) = a * 2 ^ 22 + (n * 2 ^ 12 + sequence) := by
    rw [Nat.mul_comm a]
    exact (Nat.two_pow_add_eq_or_of_lt (by omega) a).symm
  rw [Nat.or_assoc, hlow, hhigh, Nat.add_assoc]

theorem ofNat_parts {a n : Nat} (ha : a < 2 ^ 41) (hn : n < 1024) (hsequence : sequence < 4096) :
    BitVec.ofNat 64 (a * 2 ^ 22 + n * 2 ^ 12 + sequence)
      = BitVec.ofNat 64 a <<< 22 ||| BitVec.ofNat 64 n <<< 12 ||| BitVec.ofNat 64 sequence := by
  apply BitVec.eq_of_toNat_eq
  simp only [BitVec.toNat_or, BitVec.toNat_shiftLeft, BitVec.toNat_ofNat, Nat.shiftLeft_eq]
  rw [Nat.mod_eq_of_lt (show a < 2 ^ 64 by omega), Nat.mod_eq_of_lt (show n < 2 ^ 64 by omega),
    Nat.mod_eq_of_lt (show a * 2 ^ 22 < 2 ^ 64 by omega),
    Nat.mod_eq_of_lt (show n * 2 ^ 12 < 2 ^ 64 by omega),
    Nat.mod_eq_of_lt (show sequence < 2 ^ 64 by omega), or_parts hn hsequence,
    Nat.mod_eq_of_lt (by omega)]

/-- The parts of an identity do not overlap, so it is the word of its parts. -/
theorem ofInt_identity (htime : InRange time) (hnode : 0 ≤ node ∧ node < 1024)
    (hsequence : sequence < perMillisecond) :
    BitVec.ofInt 64 (identity time node sequence) = word time node sequence := by
  obtain ⟨hbehind, hbefore⟩ := htime
  obtain ⟨a, ha⟩ := Int.eq_ofNat_of_zero_le (Int.sub_nonneg.mpr (Int.le_of_lt hbehind))
  obtain ⟨n, rfl⟩ := Int.eq_ofNat_of_zero_le hnode.1
  have hsum : identity time n sequence = ((a * 2 ^ 22 + n * 2 ^ 12 + sequence : Nat) : Int) := by
    rw [identity, ha]
    omega
  rw [hsum, word, ha, BitVec.ofInt_natCast, BitVec.ofInt_natCast, BitVec.ofInt_natCast]
  exact ofNat_parts (by omega) (by omega) hsequence

/-- The ten bits of an identity above its sequence number are the low ones of its node. -/
theorem bits_identity (htime : InRange time) (hsequence : sequence < perMillisecond) :
    BitVec.ofInt 64 (identity time (nodeOf node) sequence) >>> 12 &&& 1023#64
      = BitVec.ofInt 64 node &&& 1023#64 := by
  have hrange := identity_range htime (nodeOf_range node) hsequence
  have hlow : ∀ x : Nat, x &&& 1023 = x % 1024 := fun x => Nat.and_two_pow_sub_one_eq_mod x 10
  apply BitVec.eq_of_toNat_eq
  simp only [BitVec.toNat_and, BitVec.toNat_ushiftRight, BitVec.toNat_ofInt, BitVec.toNat_ofNat,
    Nat.shiftRight_eq_div_pow, Nat.reducePow, Nat.reduceMod, hlow]
  unfold perMillisecond at hsequence
  unfold identity nodeOf nodeCount at hrange ⊢
  omega

/-- Identities of different nodes are different. -/
theorem nodeOf_eq_of_identity {earlier later node other : Int} {first second : Nat}
    (h : identity earlier (nodeOf node) first = identity later (nodeOf other) second)
    (hfirst : first < perMillisecond) (hsecond : second < perMillisecond) :
    nodeOf node = nodeOf other := by
  have hnode := nodeOf_range node
  have hother := nodeOf_range other
  unfold perMillisecond at hfirst hsecond
  unfold identity at h
  omega

/-! ## One node -/

namespace Generator

/-- Whether a node has drawn another identity between two of its states. -/
def IsBefore (g h : Generator) : Prop :=
  g.last < h.last ∨ g.last = h.last ∧ g.sequence < h.sequence

theorem IsBefore.trans {g h k : Generator} (hgh : g.IsBefore h) (hhk : h.IsBefore k) :
    g.IsBefore k := by
  unfold IsBefore at *
  omega

/-- Whether a state is that of a node that has drawn an identity. -/
structure HasDrawn (g : Generator) : Prop where
  inRange : InRange g.last
  sequence_lt : g.sequence < perMillisecond

/-- Whether a state is that of a node, which may not have drawn yet. -/
def IsReached (g : Generator) : Prop := g = {} ∨ g.HasDrawn

/-- Of two identities of a node the later one is greater. -/
theorem identity_lt {g h : Generator} (hbefore : g.IsBefore h) (hg : g.HasDrawn) :
    identity g.last node g.sequence < identity h.last node h.sequence := by
  have hsequence := hg.sequence_lt
  unfold perMillisecond at hsequence
  unfold identity
  rcases hbefore with hlater | ⟨hsame, hnext⟩ <;> omega

/-- Whether a node has to wait for its next identity: the clock shows no later time, and all
sequence numbers are used up. -/
def MustWait (g : Generator) (c : Clock) : Prop :=
  c.read.1 ≤ g.last ∧ perMillisecond ≤ g.sequence + 1

/-- Whether a later time is to come if a node has to wait for its next identity. -/
def IsServed (g : Generator) (c : Clock) : Prop :=
  g.MustWait c → ∃ t ∈ c.read.2.upcoming, g.last < t

instance (g : Generator) (c : Clock) : Decidable (g.IsServed c) :=
  inferInstanceAs (Decidable (c.read.1 ≤ g.last ∧ perMillisecond ≤ g.sequence + 1 →
    ∃ t ∈ c.read.2.upcoming, g.last < t))

end Generator

theorem Clock.Within.read {c : Clock} (h : c.Within) : InRange c.read.1 ∧ c.read.2.Within := by
  obtain ⟨hpresent, hupcoming⟩ := List.forall_mem_cons.mp h
  unfold Clock.read
  split
  · exact ⟨hpresent, h⟩
  · next t rest heq =>
    rw [heq] at hupcoming
    exact ⟨hupcoming t List.mem_cons_self, hupcoming⟩

/-- Waiting ends at a later reading, and the clock goes on behind it. -/
theorem Clock.await_spec {upcoming : List Int} (hupcoming : ∀ t ∈ upcoming, InRange t)
    {time : Int} (hlater : ∃ t ∈ upcoming, time < t) :
    time < (Clock.await time upcoming).1 ∧ InRange (Clock.await time upcoming).1
      ∧ (Clock.await time upcoming).2.Within := by
  induction upcoming with
  | nil =>
    obtain ⟨t, ht, -⟩ := hlater
    exact absurd ht List.not_mem_nil
  | cons first rest ih =>
    obtain ⟨hfirst, hrest⟩ := List.forall_mem_cons.mp hupcoming
    by_cases hpassed : first ≤ time
    · have hskip : Clock.await time (first :: rest) = Clock.await time rest := by
        rw [Clock.await, Clock.await, List.dropWhile_cons_of_pos (by simpa using hpassed)]
      rw [hskip]
      obtain ⟨t, ht, hlt⟩ := hlater
      rcases List.mem_cons.mp ht with rfl | ht
      · omega
      · exact ih hrest ⟨t, ht, hlt⟩
    · have hstop : Clock.await time (first :: rest) = (first, ⟨first, rest⟩) := by
        rw [Clock.await, List.dropWhile_cons_of_neg (by simpa using hpassed)]
      rw [hstop]
      exact ⟨Int.not_le.mp hpassed, hfirst, hupcoming⟩

/-- **One identity of a node** moves it forward, whatever the clock shows: it is held at its last
time while the clock is behind it. -/
theorem Generator.tick_spec {g : Generator} {c : Clock} (hg : g.IsReached) (hc : c.Within)
    (hserved : g.IsServed c) :
    (g.tick c).1.HasDrawn ∧ g.IsBefore (g.tick c).1 ∧ (g.tick c).2.Within := by
  obtain ⟨hreading, hrest⟩ := hc.read
  rw [Generator.tick]
  by_cases hahead : g.last < c.read.1
  · have hmax : max c.read.1 g.last = c.read.1 := Int.max_eq_left (Int.le_of_lt hahead)
    simp only [hmax, if_neg (Int.ne_of_gt hahead)]
    exact ⟨⟨hreading, perMillisecond_pos⟩, .inl hahead, hrest⟩
  · -- A clock that is not ahead shows no time before the epoch, so the node has drawn before.
    have hmax : max c.read.1 g.last = g.last := Int.max_eq_right (Int.not_lt.mp hahead)
    have hdrawn : g.HasDrawn := by
      rcases hg with rfl | hdrawn
      · have hbehind := hreading.1
        unfold epoch at hbehind
        exact absurd (show (0 : Int) < c.read.1 by omega) hahead
      · exact hdrawn
    simp only [hmax, if_true]
    split
    · next hnext => exact ⟨⟨hdrawn.inRange, hnext⟩, .inr ⟨rfl, Nat.lt_succ_self _⟩, hrest⟩
    · next hused =>
      have hlater := hserved ⟨Int.not_lt.mp hahead, Nat.not_lt.mp hused⟩
      obtain ⟨hlt, hrange, hwithin⟩ :=
        Clock.await_spec (fun t ht => hrest t (List.mem_cons_of_mem _ ht)) hlater
      exact ⟨⟨hrange, perMillisecond_pos⟩, .inl hlt, hwithin⟩

/-! ## All nodes -/

theorem findGenerator_put_self (node : Int) (g : Generator) (known : List (Int × Generator)) :
    findGenerator node (putGenerator node g known) = g := by
  induction known with
  | nil => simp [putGenerator, findGenerator]
  | cons entry rest ih =>
    obtain ⟨n, h⟩ := entry
    rw [putGenerator]
    split
    · simp [findGenerator]
    · next hne => rw [findGenerator, if_neg hne, ih]

theorem findGenerator_put_of_ne {node other : Int} (hne : node ≠ other) (g : Generator)
    (known : List (Int × Generator)) :
    findGenerator other (putGenerator node g known) = findGenerator other known := by
  induction known with
  | nil => simp [putGenerator, findGenerator, hne]
  | cons entry rest ih =>
    obtain ⟨n, h⟩ := entry
    rw [putGenerator]
    split
    · next heq => simp [findGenerator, hne, heq]
    · rw [findGenerator, findGenerator, ih]

namespace Supply

def drawEach (s : Supply) : List Int → List Int × Supply
  | [] => ([], s)
  | node :: rest =>
    let (id, s) := s.draw node
    let (ids, s) := s.drawEach rest
    (id :: ids, s)

def stateOf (s : Supply) (node : Int) : Generator := findGenerator (nodeOf node) s.generators

/-- Whether a later time is to come whenever a node has to wait while identities are drawn. -/
def Timely (s : Supply) : List Int → Prop
  | [] => True
  | node :: rest => (s.stateOf node).IsServed s.clock ∧ (s.draw node).2.Timely rest

instance decidableTimely : (s : Supply) → (nodes : List Int) → Decidable (s.Timely nodes)
  | _, [] => inferInstanceAs (Decidable True)
  | s, node :: rest =>
    have := decidableTimely (s.draw node).2 rest
    inferInstanceAs (Decidable ((s.stateOf node).IsServed s.clock ∧ (s.draw node).2.Timely rest))

/-- Whether the clock only shows times that an identity can hold, and all nodes are in states that
such a clock leaves. -/
structure IsReached (s : Supply) : Prop where
  clock : s.clock.Within
  states : ∀ node, (s.stateOf node).IsReached

/-- Whether an identity is that of a state of a node behind the present one. -/
def Draws (s : Supply) (node id : Int) : Prop :=
  ∃ g : Generator, g.HasDrawn ∧ (s.stateOf node).IsBefore g
    ∧ id = identity g.last (nodeOf node) g.sequence

/-- What is known of two identities, each drawn for a node: they are different, and the second one
is greater if the nodes are the same. -/
def IsBehind (first second : Int × Int) : Prop :=
  first.2 ≠ second.2 ∧ (nodeOf first.1 = nodeOf second.1 → first.2 < second.2)

theorem stateOf_congr (s : Supply) {node other : Int} (h : nodeOf node = nodeOf other) :
    s.stateOf node = s.stateOf other := by
  rw [stateOf, stateOf, h]

/-- **One identity** for a node moves this node forward and leaves the others as they are. -/
theorem draw_spec {s : Supply} {node : Int} (hs : s.IsReached)
    (hserved : (s.stateOf node).IsServed s.clock) :
    ∃ g : Generator, g.HasDrawn ∧ (s.stateOf node).IsBefore g
      ∧ (s.draw node).1 = identity g.last (nodeOf node) g.sequence
      ∧ (s.draw node).2.stateOf node = g
      ∧ (∀ other, nodeOf other ≠ nodeOf node → (s.draw node).2.stateOf other = s.stateOf other)
      ∧ (s.draw node).2.IsReached := by
  obtain ⟨hdrawn, hbefore, hclock⟩ :=
    Generator.tick_spec (hs.states node) hs.clock hserved
  have hself : (s.draw node).2.stateOf node = ((s.stateOf node).tick s.clock).1 :=
    findGenerator_put_self _ _ _
  have hothers : ∀ other, nodeOf other ≠ nodeOf node →
      (s.draw node).2.stateOf other = s.stateOf other := fun other hne =>
    findGenerator_put_of_ne hne.symm _ _
  refine ⟨_, hdrawn, hbefore, rfl, hself, hothers, hclock, fun other => ?_⟩
  by_cases hsame : nodeOf other = nodeOf node
  · rw [stateOf_congr _ hsame, hself]
    exact .inr hdrawn
  · rw [hothers other hsame]
    exact hs.states other

/-- An identity that is drawn behind that of a node. -/
theorem isBehind_draw {s : Supply} {node other id : Int} (hs : s.IsReached)
    (hserved : (s.stateOf node).IsServed s.clock) (hother : (s.draw node).2.Draws other id) :
    s.Draws other id ∧ IsBehind (node, (s.draw node).1) (other, id) := by
  obtain ⟨g, hg, hbefore, hid, hself, hothers, -⟩ := draw_spec hs hserved
  obtain ⟨h, hh, hafter, rfl⟩ := hother
  by_cases hsame : nodeOf other = nodeOf node
  · rw [stateOf_congr _ hsame, hself] at hafter
    have hlt : (s.draw node).1 < identity h.last (nodeOf other) h.sequence := by
      rw [hid, hsame]
      exact Generator.identity_lt hafter hg
    refine ⟨⟨h, hh, ?_, rfl⟩, Int.ne_of_lt hlt, fun _ => hlt⟩
    rw [stateOf_congr _ hsame]
    exact hbefore.trans hafter
  · rw [hothers other hsame] at hafter
    refine ⟨⟨h, hh, hafter, rfl⟩, fun heq => hsame ?_, fun heq => absurd heq.symm hsame⟩
    have heq : identity g.last (nodeOf node) g.sequence
        = identity h.last (nodeOf other) h.sequence := hid.symm.trans heq
    exact (nodeOf_eq_of_identity heq hg.sequence_lt hh.sequence_lt).symm

/-- Identities drawn one after the other, by induction on the nodes: each of them is one of its
node, and lies behind all those before it. -/
theorem drawEach_spec {s : Supply} {nodes : List Int} (hs : s.IsReached)
    (htimely : s.Timely nodes) :
    List.Forall₂ s.Draws nodes (s.drawEach nodes).1
      ∧ (nodes.zip (s.drawEach nodes).1).Pairwise IsBehind := by
  induction nodes generalizing s with
  | nil => exact ⟨.nil, .nil⟩
  | cons node rest ih =>
    obtain ⟨hserved, hrest⟩ := htimely
    obtain ⟨g, hg, hbefore, hid, -, -, hafter⟩ := draw_spec hs hserved
    obtain ⟨hdrawn, hpairs⟩ := ih hafter hrest
    refine ⟨.cons ⟨g, hg, hbefore, hid⟩ (hdrawn.imp fun other id h =>
      (isBehind_draw hs hserved h).1), List.pairwise_cons.mpr ⟨?_, hpairs⟩⟩
    rintro ⟨other, id⟩ hmem
    exact (isBehind_draw hs hserved (List.forall₂_zip hdrawn hmem)).2

end Supply

/-- **Identities are drawn once only.** For any nodes, and any clock whose readings lie behind the
epoch by less than 2^41 milliseconds, in any order, as long as a later reading is to come whenever a
node has to wait for one: each identity is positive and leaves the sign bit free, it is the word of
some time, its node and some sequence number, and its bits 12 to 21 are the low ten bits of the
number of the node; no identity is drawn twice; and those for numbers that are equal modulo the
number of nodes ascend in the order in which they are drawn. -/
theorem drawn_once {clock : Clock} {nodes : List Int} (within : clock.Within)
    (timely : Supply.Timely ⟨[], clock⟩ nodes) :
    List.Forall₂ (fun node id => 0 < id ∧ id < 2 ^ 63
        ∧ (∃ time sequence, InRange time ∧ sequence < perMillisecond
          ∧ BitVec.ofInt 64 id = word time (nodeOf node) sequence)
        ∧ BitVec.ofInt 64 id >>> 12 &&& 1023#64 = BitVec.ofInt 64 node &&& 1023#64)
      nodes (Supply.drawEach ⟨[], clock⟩ nodes).1
    ∧ (Supply.drawEach ⟨[], clock⟩ nodes).1.Nodup
    ∧ (nodes.zip (Supply.drawEach ⟨[], clock⟩ nodes).1).Pairwise fun first second =>
        first.1 % 1024 = second.1 % 1024 → first.2 < second.2 := by
  have hreached : Supply.IsReached ⟨[], clock⟩ := ⟨within, fun _ => .inl rfl⟩
  obtain ⟨hdrawn, hpairs⟩ := Supply.drawEach_spec hreached timely
  have hids : (nodes.zip (Supply.drawEach ⟨[], clock⟩ nodes).1).map Prod.snd
      = (Supply.drawEach ⟨[], clock⟩ nodes).1 :=
    List.map_snd_zip (Nat.le_of_eq hdrawn.length_eq.symm)
  refine ⟨hdrawn.imp ?_, ?_, hpairs.imp fun h => h.2⟩
  · rintro node _ ⟨g, hg, -, rfl⟩
    obtain ⟨hpos, hlt⟩ := identity_range hg.inRange (nodeOf_range node) hg.sequence_lt
    exact ⟨hpos, hlt, ⟨g.last, g.sequence, hg.inRange, hg.sequence_lt,
      ofInt_identity hg.inRange (nodeOf_range node) hg.sequence_lt⟩,
      bits_identity hg.inRange hg.sequence_lt⟩
  · rw [← hids, List.Nodup, List.pairwise_map]
    exact hpairs.imp fun h => h.1

/-- A clock that stands still, runs backwards and recovers. -/
def restlessClock : Clock :=
  ⟨1600000000000, [1600000000000, 1600000000000, 1599999999000, 1600000000001]⟩

/-- One node draws three identities, the second while the clock has run backwards, and in between
the node of a negative number draws one. -/
theorem drawn_once_restless :
    restlessClock.Within ∧ Supply.Timely ⟨[], restlessClock⟩ [5, -1, 1029, 5]
      ∧ ∃ first other second third,
        (Supply.drawEach ⟨[], restlessClock⟩ [5, -1, 1029, 5]).1 = [first, other, second, third]
          ∧ first < second ∧ second < third ∧ other ≠ second
          ∧ BitVec.ofInt 64 other >>> 12 &&& 1023#64 = 1023#64 := by
  have within : restlessClock.Within := by decide
  have timely : Supply.Timely ⟨[], restlessClock⟩ [5, -1, 1029, 5] := by decide
  have hids : (Supply.drawEach ⟨[], restlessClock⟩ [5, -1, 1029, 5]).1
      = [92959198412820480, 92959198416990208, 92959198412820481, 92959198417014784] := by decide
  obtain ⟨hdrawn, hnodup, hpairs⟩ := drawn_once within timely
  rw [hids] at hdrawn hnodup hpairs
  refine ⟨within, timely, _, _, _, _, hids, ?_, ?_, ?_, ?_⟩
  · exact List.rel_of_pairwise_cons hpairs
      (show ((1029 : Int), (92959198412820481 : Int)) ∈ _ by simp) (by decide)
  · exact List.rel_of_pairwise_cons hpairs.tail.tail
      (show ((5 : Int), (92959198417014784 : Int)) ∈ _ by simp) (by decide)
  · exact List.rel_of_pairwise_cons hnodup.tail (List.mem_cons_self)
  · cases hdrawn with
    | cons _ hrest =>
      cases hrest with
      | cons hother _ => exact hother.2.2.2

end DualStore.Snowflake
