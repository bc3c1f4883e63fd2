import Mathlib.Data.List.Induction
import DualStore.Cache
import DualStore.Proofs.KeyedEntries

/-!
# The cache as a map with deadlines

As long as the clock can express every deadline, a key of the cache has the value that the last call
naming it put there, until the deadline of that value. A put whose deadline is beyond the clock
fails and leaves a cache that answers nothing any more.

* `Call`, `perform`, `performAll`: the calls, and a cache behind calls one after the other;
* `Call.Names`, `LastPut`, `deadlineOf`: what a history of calls says about a key;
* `Reflects`: a cache that agrees with its history; `Reflects.next`: one call;
* `reflects_performAll`, `isPoisoned_performAll`: any calls, with and without a deadline that is out
  of range;
* `found_until_deadline`: what every call answers and leaves behind.
-/

namespace DualStore.Cache

/-! ## Calls -/

/-- A call of a cache. -/
inductive Call where
  | get (key : String)
  | put (key : String) (value : Json) (seconds : Int)
  | del (keys : List String)

/-- What a call answers, a value only if it asks for one, and the cache behind it. -/
def perform (c : Cache) (now : Nat) : Call → Except CacheError (Option Json) × Cache
  | .get key => c.get now key
  | .put key value seconds =>
    ((c.put now key value seconds).1.map fun _ => none, (c.put now key value seconds).2)
  | .del keys => ((c.del keys).1.map fun _ => none, (c.del keys).2)

/-- The cache behind calls one after the other, each with the time at which it is made. -/
def performAll (c : Cache) : List (Nat × Call) → Cache
  | [] => c
  | (now, call) :: rest => (c.perform now call).2.performAll rest

/-- Whether a call puts a value under a key or deletes the key. -/
def Call.Names (key : String) : Call → Prop
  | .get _ => False
  | .put named _ _ => named = key
  | .del keys => key ∈ keys

/-- The last call that named a key was made at a time and put a value there for some seconds. -/
def LastPut (past : List (Nat × Call)) (key : String) (time : Nat) (value : Json)
    (seconds : Int) : Prop :=
  ∃ before after, past = before ++ (time, .put key value seconds) :: after
    ∧ ∀ done ∈ after, ¬done.2.Names key

/-- The time from which on a value that was put at a time is gone: after the seconds it was put for
if they are positive, else after those of the default. -/
def deadlineOf (defaultSeconds time : Nat) (seconds : Int) : Nat :=
  time + (if 0 < seconds then seconds.toNat else defaultSeconds) * 1000

/-- Whether the clock can express the deadline of a value that a call puts. -/
def Call.InRange (defaultSeconds now : Nat) : Call → Prop
  | .put _ _ seconds => deadlineOf defaultSeconds now seconds / 1000 ≤ maxSeconds
  | _ => True

instance (defaultSeconds now : Nat) (call : Call) : Decidable (call.InRange defaultSeconds now) :=
  match call with
  | .get _ => .isTrue trivial
  | .put _ _ seconds => Nat.decLe (deadlineOf defaultSeconds now seconds / 1000) maxSeconds
  | .del _ => .isTrue trivial

/-- What a call leaves under the keys that it names. -/
def Call.left (defaultSeconds now : Nat) : Call → Option CacheEntry
  | .put _ value seconds => some ⟨value, deadlineOf defaultSeconds now seconds⟩
  | _ => none

/-! ## Histories -/

variable {defaultSeconds now : Nat} {past : List (Nat × Call)} {call : Call} {c : Cache}

theorem performAll_append (c : Cache) (past later : List (Nat × Call)) :
    c.performAll (past ++ later) = (c.performAll past).performAll later := by
  induction past generalizing c with
  | nil => rfl
  | cons done rest ih => exact ih _

/-- The last put of a key behind one more call: that call, or the one before if the key is not
named again. -/
theorem lastPut_concat {key : String} {time : Nat} {value : Json} {seconds : Int} :
    LastPut (past ++ [(now, call)]) key time value seconds
      ↔ (time = now ∧ call = .put key value seconds)
        ∨ ¬call.Names key ∧ LastPut past key time value seconds := by
  constructor
  · rintro ⟨before, after, hpast, hafter⟩
    rcases List.eq_nil_or_concat after with rfl | ⟨others, done, rfl⟩
    · obtain ⟨-, hlast⟩ := List.append_inj' hpast rfl
      obtain ⟨rfl, rfl⟩ := Prod.mk.inj (List.singleton_inj.mp hlast)
      exact .inl ⟨rfl, rfl⟩
    · rw [List.concat_eq_append, ← List.cons_append, ← List.append_assoc] at hpast
      obtain ⟨rfl, hlast⟩ := List.append_inj' hpast rfl
      obtain rfl := List.singleton_inj.mp hlast
      rw [List.concat_eq_append] at hafter
      have hnames := hafter (now, call) (List.mem_append_right _ List.mem_cons_self)
      exact .inr ⟨hnames, before, others, rfl, fun done hdone =>
        hafter done (List.mem_append_left _ hdone)⟩
  · rintro (⟨rfl, rfl⟩ | ⟨hnames, before, after, rfl, hafter⟩)
    · exact ⟨past, [], rfl, by simp⟩
    · refine ⟨before, after ++ [(now, call)], by simp, fun done hdone => ?_⟩
      rcases List.mem_append.mp hdone with hdone | hdone
      · exact hafter done hdone
      · rw [List.mem_singleton.mp hdone]
        exact hnames

/-- Whether a cache is usable and agrees with a history: every entry is that of the last put of its
key, and the entry of a last put is there unless its deadline has come at some call. -/
structure Reflects (defaultSeconds : Nat) (past : List (Nat × Call)) (c : Cache) : Prop where
  usable : c.isPoisoned = false
  default : c.defaultSeconds = defaultSeconds
  nodup : (Keyed.keys c.entries).Nodup
  put : ∀ key entry, Keyed.get? key c.entries = some entry →
    ∃ time seconds, LastPut past key time entry.value seconds
      ∧ entry.deadline = deadlineOf defaultSeconds time seconds
  kept : ∀ key time value seconds, LastPut past key time value seconds →
    Keyed.get? key c.entries = some ⟨value, deadlineOf defaultSeconds time seconds⟩
      ∨ ∃ done ∈ past, deadlineOf defaultSeconds time seconds ≤ done.1

namespace Reflects

theorem empty (defaultSeconds : Nat) : Reflects defaultSeconds [] { defaultSeconds } where
  usable := rfl
  default := rfl
  nodup := List.nodup_nil
  put := fun _ _ h => by cases h
  kept := by
    rintro key time value seconds ⟨before, after, hpast, -⟩
    simp at hpast

/-- A cache agrees with one more call if the keys that the call names have what it leaves, and the
others what they had, unless that has gone. -/
theorem concat (h : Reflects defaultSeconds past c) {next : Cache}
    (usable : next.isPoisoned = false) (default : next.defaultSeconds = defaultSeconds)
    (nodup : (Keyed.keys next.entries).Nodup)
    (named : ∀ key, call.Names key →
      Keyed.get? key next.entries = call.left defaultSeconds now)
    (others : ∀ key, ¬call.Names key → ∀ entry,
      (Keyed.get? key next.entries = some entry → Keyed.get? key c.entries = some entry)
        ∧ (Keyed.get? key c.entries = some entry → now < entry.deadline →
          Keyed.get? key next.entries = some entry)) :
    Reflects defaultSeconds (past ++ [(now, call)]) next where
  usable := usable
  default := default
  nodup := nodup
  put := by
    intro key entry hentry
    by_cases hnames : call.Names key
    · rw [named key hnames] at hentry
      cases call with
      | put name value seconds =>
        obtain rfl := Option.some.inj hentry
        have hcall : Call.put name value seconds = .put key value seconds :=
          congrArg (Call.put · value seconds) hnames
        exact ⟨now, seconds, lastPut_concat.mpr (.inl ⟨rfl, hcall⟩), rfl⟩
      | get _ | del _ => cases hentry
    · have hbefore := (others key hnames entry).1 hentry
      obtain ⟨time, seconds, hlast, hdeadline⟩ := h.put key entry hbefore
      exact ⟨time, seconds, lastPut_concat.mpr (.inr ⟨hnames, hlast⟩), hdeadline⟩
  kept := by
    intro key time value seconds hlast
    rcases lastPut_concat.mp hlast with ⟨rfl, rfl⟩ | ⟨hnames, hlast⟩
    · exact .inl (named key rfl)
    · rcases h.kept key time value seconds hlast with hentry | ⟨done, hdone, hgone⟩
      · by_cases halive : now < deadlineOf defaultSeconds time seconds
        · exact .inl ((others key hnames _).2 hentry halive)
        · exact .inr ⟨(now, call), by simp, Nat.not_lt.mp halive⟩
      · exact .inr ⟨done, List.mem_append_left _ hdone, hgone⟩

end Reflects

/-! ## Deleted and swept entries -/

section Entries

variable {entries : List (String × CacheEntry)}

theorem nodup_eraseAll (h : (Keyed.keys entries).Nodup) (keys : List String) :
    (Keyed.keys (eraseAll entries keys)).Nodup := by
  induction keys generalizing entries with
  | nil => exact h
  | cons key rest ih => exact ih (h.sublist ((Keyed.erase_sublist key entries).map Prod.fst))

/-- Taking out one key leaves the others. -/
theorem get?_erase (h : (Keyed.keys entries).Nodup) (name key : String) :
    Keyed.get? key (Keyed.erase name entries)
      = if key = name then none else Keyed.get? key entries := by
  rw [Keyed.erase_eq_filter h, Keyed.get?_filter (fun key => key ≠ name)]
  by_cases hkey : key = name <;> simp [hkey]

/-- Exactly the deleted keys are gone. -/
theorem get?_eraseAll (h : (Keyed.keys entries).Nodup) (keys : List String) (key : String) :
    Keyed.get? key (eraseAll entries keys)
      = if key ∈ keys then none else Keyed.get? key entries := by
  induction keys generalizing entries with
  | nil => simp [eraseAll]
  | cons name rest ih =>
    have hrest := h.sublist ((Keyed.erase_sublist name entries).map Prod.fst)
    rw [eraseAll, ih hrest, get?_erase h]
    by_cases hname : key = name <;> by_cases hmem : key ∈ rest <;> simp [hname, hmem]

/-- An entry is there behind a sweep if it was there before and has not gone. -/
theorem get?_sweep (h : (Keyed.keys entries).Nodup) (now : Nat) (key : String)
    (entry : CacheEntry) :
    Keyed.get? key (entries.filter fun e => now < e.2.deadline) = some entry
      ↔ Keyed.get? key entries = some entry ∧ now < entry.deadline := by
  have hkept := h.sublist ((List.filter_sublist (p := fun e => now < e.2.deadline)).map Prod.fst)
  rw [Keyed.get?_eq_some_iff hkept, Keyed.get?_eq_some_iff h, List.mem_filter, decide_eq_true_eq]

end Entries

/-! ## One call -/

/-- What a cache finds under a key: the value there, unless it has gone. -/
def found (c : Cache) (now : Nat) (key : String) : Option Json :=
  match Keyed.get? key c.entries with
  | some entry => if now < entry.deadline then some entry.value else none
  | none => none

/-- Asking for a key answers what is found there; a value that has gone leaves. -/
theorem get_eq_found (hopen : ¬c.isPoisoned = true) (now : Nat) (key : String) :
    c.get now key = (.ok (c.found now key), c) ∨
      ∃ entry, Keyed.get? key c.entries = some entry ∧ entry.deadline ≤ now
        ∧ c.get now key
          = (.ok (c.found now key), { c with entries := Keyed.erase key c.entries }) := by
  rw [Cache.get, if_neg hopen, found]
  cases hentry : Keyed.get? key c.entries with
  | none => exact .inl rfl
  | some entry =>
    by_cases halive : now < entry.deadline
    · exact .inl (by simp only [if_pos halive])
    · exact .inr ⟨entry, rfl, Nat.not_lt.mp halive, by simp only [if_neg halive]⟩

/-- A put sweeps the entries that have gone, and fails if the clock cannot express its deadline. -/
theorem put_eq_sweep (hopen : ¬c.isPoisoned = true) (now : Nat) (key : String) (value : Json)
    (seconds : Int) :
    c.put now key value seconds
      = if (Call.put key value seconds).InRange c.defaultSeconds now then
          (.ok (), { c with
            entries := Keyed.put key ⟨value, deadlineOf c.defaultSeconds now seconds⟩
              (c.entries.filter fun entry => now < entry.2.deadline) })
        else
          (.error .deadlineOverflow, { c with
            entries := c.entries.filter fun entry => now < entry.2.deadline
            isPoisoned := true }) := by
  have hseconds : deadlineOf c.defaultSeconds now seconds / 1000
      = now / 1000 + c.lifetime seconds := by
    rw [deadlineOf, Nat.add_mul_div_right _ _ (by decide), lifetime]
  rw [Cache.put, if_neg hopen]
  by_cases hrange : now / 1000 + c.lifetime seconds ≤ maxSeconds
  · simp only [Call.InRange, hseconds, if_pos hrange, if_neg (Nat.not_lt.mpr hrange)]
    rfl
  · simp only [Call.InRange, hseconds, if_neg hrange, if_pos (Nat.not_le.mp hrange)]

namespace Reflects

theorem isOpen (h : Reflects defaultSeconds past c) : ¬c.isPoisoned = true := by
  rw [h.usable]
  exact Bool.false_ne_true

theorem get (h : Reflects defaultSeconds past c) (now : Nat) (key : String) :
    Reflects defaultSeconds (past ++ [(now, .get key)]) (c.get now key).2 := by
  have hunnamed : ∀ name, ¬(Call.get key).Names name := fun _ hnames => hnames
  rcases get_eq_found h.isOpen now key with heq | ⟨entry, hentry, hgone, heq⟩
  · rw [heq]
    exact h.concat h.usable h.default h.nodup (fun name hname => absurd hname (hunnamed name))
      fun _ _ _ => ⟨id, fun hget _ => hget⟩
  · rw [heq]
    refine h.concat h.usable h.default
      (h.nodup.sublist ((Keyed.erase_sublist key c.entries).map Prod.fst))
      (fun name hname => absurd hname (hunnamed name)) fun name _ other => ?_
    dsimp only
    rw [get?_erase h.nodup]
    by_cases hname : name = key
    · rw [if_pos hname, hname, hentry]
      refine ⟨fun hnone => (by cases hnone), fun hother hlt => ?_⟩
      rw [← Option.some.inj hother] at hlt
      exact absurd hgone (Nat.not_le.mpr hlt)
    · rw [if_neg hname]
      exact ⟨id, fun hget _ => hget⟩

theorem perform_get (h : Reflects defaultSeconds past c) (now : Nat) (key : String) :
    (c.perform now (.get key)).1 = .ok (c.found now key) := by
  rw [perform]
  rcases get_eq_found h.isOpen now key with heq | ⟨_, _, _, heq⟩ <;> rw [heq]

theorem put_inRange (h : Reflects defaultSeconds past c) {key : String} {value : Json}
    {seconds : Int} (hrange : (Call.put key value seconds).InRange defaultSeconds now) :
    (c.put now key value seconds).1 = .ok ()
      ∧ Reflects defaultSeconds (past ++ [(now, .put key value seconds)])
        (c.put now key value seconds).2 := by
  have hswept := h.nodup.sublist
    ((List.filter_sublist (p := fun e => decide (now < e.2.deadline))).map Prod.fst)
  rw [← h.default] at hrange
  rw [put_eq_sweep h.isOpen, if_pos hrange]
  refine ⟨rfl, h.concat h.usable h.default (Keyed.nodup_put hswept _ _) ?_ ?_⟩
  · rintro name (rfl : key = name)
    rw [← h.default]
    exact Keyed.get?_put_self _ _ _
  · intro name (hname : key ≠ name) entry
    dsimp only
    rw [Keyed.get?_put_of_ne hname, get?_sweep h.nodup]
    exact ⟨And.left, fun hget hlt => ⟨hget, hlt⟩⟩

theorem del (h : Reflects defaultSeconds past c) (now : Nat) (keys : List String) :
    (c.del keys).1 = .ok ()
      ∧ Reflects defaultSeconds (past ++ [(now, .del keys)]) (c.del keys).2 := by
  rw [Cache.del, if_neg h.isOpen]
  refine ⟨rfl, h.concat h.usable h.default (nodup_eraseAll h.nodup keys) ?_ ?_⟩
  · intro key (hkey : key ∈ keys)
    dsimp only
    rw [get?_eraseAll h.nodup, if_pos hkey]
    rfl
  · intro key (hkey : key ∉ keys) entry
    dsimp only
    rw [get?_eraseAll h.nodup, if_neg hkey]
    exact ⟨id, fun hget _ => hget⟩

/-- **One call whose deadline is in range**: it succeeds, and the cache agrees with it. -/
theorem next (h : Reflects defaultSeconds past c) (hrange : call.InRange defaultSeconds now) :
    (∃ answer, (c.perform now call).1 = .ok answer)
      ∧ Reflects defaultSeconds (past ++ [(now, call)]) (c.perform now call).2 := by
  cases call with
  | get key => exact ⟨⟨_, h.perform_get now key⟩, h.get now key⟩
  | put key value seconds =>
    obtain ⟨hok, hnext⟩ := h.put_inRange hrange
    exact ⟨⟨none, by rw [perform, hok]; rfl⟩, hnext⟩
  | del keys =>
    obtain ⟨hok, hnext⟩ := h.del now keys
    exact ⟨⟨none, by rw [perform, hok]; rfl⟩, hnext⟩

/-- What is found under a key is what the last call that named it put there, until its deadline. -/
theorem found_eq_some_iff (h : Reflects defaultSeconds past c)
    (inOrder : ∀ done ∈ past, done.1 ≤ now) (key : String) (value : Json) :
    c.found now key = some value
      ↔ ∃ time seconds, LastPut past key time value seconds
        ∧ now < deadlineOf defaultSeconds time seconds := by
  rw [found]
  constructor
  · intro hfound
    cases hentry : Keyed.get? key c.entries with
    | none => simp [hentry] at hfound
    | some entry =>
      simp only [hentry, Option.ite_none_right_eq_some, Option.some.injEq] at hfound
      obtain ⟨halive, rfl⟩ := hfound
      obtain ⟨time, seconds, hlast, hdeadline⟩ := h.put key entry hentry
      exact ⟨time, seconds, hlast, by rwa [← hdeadline]⟩
  · rintro ⟨time, seconds, hlast, halive⟩
    rcases h.kept key time value seconds hlast with hentry | ⟨done, hdone, hgone⟩
    · simp only [hentry, if_pos halive]
    · exact absurd (Nat.le_trans hgone (inOrder done hdone)) (Nat.not_le.mpr halive)

end Reflects

/-! ## Runs -/

/-- The calls before whose deadlines the clock can all express. -/
def AllInRange (defaultSeconds : Nat) (past : List (Nat × Call)) : Prop :=
  ∀ done ∈ past, done.2.InRange defaultSeconds done.1

theorem allInRange_concat :
    AllInRange defaultSeconds (past ++ [(now, call)])
      ↔ AllInRange defaultSeconds past ∧ call.InRange defaultSeconds now := by
  simp [AllInRange, or_imp, forall_and]

/-- The cache behind calls whose deadlines are in range agrees with them. -/
theorem reflects_performAll (h : AllInRange defaultSeconds past) :
    Reflects defaultSeconds past (performAll { defaultSeconds } past) := by
  induction past using List.reverseRecOn with
  | nil => exact .empty defaultSeconds
  | append_singleton past done ih =>
    obtain ⟨now, call⟩ := done
    obtain ⟨hpast, hrange⟩ := allInRange_concat.mp h
    rw [performAll_append]
    exact ((ih hpast).next hrange).2

/-- Without the lock every call fails and changes nothing. -/
theorem perform_of_isPoisoned (h : c.isPoisoned = true) (now : Nat) (call : Call) :
    c.perform now call = (.error .poisoned, c) := by
  cases call <;> simp [perform, Cache.get, Cache.put, Cache.del, h, Except.map]

theorem performAll_of_isPoisoned (h : c.isPoisoned = true) (past : List (Nat × Call)) :
    c.performAll past = c := by
  induction past with
  | nil => rfl
  | cons done rest ih =>
    obtain ⟨now, call⟩ := done
    rw [performAll, perform_of_isPoisoned h]
    exact ih

/-- The first call whose deadline is out of range fails and leaves a cache that is unusable. -/
theorem Reflects.perform_outOfRange (h : Reflects defaultSeconds past c)
    (hrange : ¬call.InRange defaultSeconds now) :
    (c.perform now call).1 = .error .deadlineOverflow
      ∧ (c.perform now call).2.isPoisoned = true := by
  cases call with
  | get key => exact absurd trivial hrange
  | del keys => exact absurd trivial hrange
  | put key value seconds =>
    rw [← h.default] at hrange
    rw [perform, put_eq_sweep h.isOpen, if_neg hrange]
    exact ⟨rfl, rfl⟩

/-- **A cache is unusable exactly behind a deadline that is out of range.** -/
theorem isPoisoned_performAll (defaultSeconds : Nat) (past : List (Nat × Call)) :
    (performAll { defaultSeconds } past).isPoisoned = true ↔ ¬AllInRange defaultSeconds past := by
  induction past using List.reverseRecOn with
  | nil => simp [performAll, AllInRange]
  | append_singleton past done ih =>
    obtain ⟨now, call⟩ := done
    rw [performAll_append, allInRange_concat]
    by_cases hpast : AllInRange defaultSeconds past
    · have h := reflects_performAll hpast
      by_cases hrange : call.InRange defaultSeconds now
      · simp [performAll, (h.next hrange).2.usable, hpast, hrange]
      · simp [performAll, (h.perform_outOfRange hrange).2, hrange]
    · rw [performAll_of_isPoisoned (ih.mpr hpast)]
      simp [ih, hpast]

/-- A call behind others succeeds exactly if no deadline up to its own is out of range. -/
theorem perform_ok_iff (defaultSeconds : Nat) (past : List (Nat × Call)) (now : Nat) (call : Call) :
    (∃ found, ((performAll { defaultSeconds } past).perform now call).1 = .ok found)
      ↔ AllInRange defaultSeconds (past ++ [(now, call)]) := by
  rw [allInRange_concat]
  by_cases hpast : AllInRange defaultSeconds past
  · have h := reflects_performAll hpast
    by_cases hrange : call.InRange defaultSeconds now
    · exact ⟨fun _ => ⟨hpast, hrange⟩, fun _ => (h.next hrange).1⟩
    · rw [(h.perform_outOfRange hrange).1]
      exact ⟨fun ⟨_, hfound⟩ => (by cases hfound), fun h => absurd h.2 hrange⟩
  · rw [perform_of_isPoisoned ((isPoisoned_performAll defaultSeconds past).mpr hpast)]
    exact ⟨fun ⟨_, hfound⟩ => (by cases hfound), fun h => absurd h.1 hpast⟩

theorem Reflects.entries_del (h : Reflects defaultSeconds past c) (now : Nat)
    (keys : List String) :
    (c.perform now (.del keys)).2.entries = eraseAll c.entries keys := by
  rw [perform, Cache.del, if_neg h.isOpen]

/-- The sweep of a put leaves the entries of other keys that have not gone. -/
theorem get?_perform_put {before : Cache}
    (hbefore : before.isPoisoned = true ∨ Reflects defaultSeconds past before) (key : String)
    (value : Json) (seconds : Int) {other : String} (hother : other ≠ key) {entry : CacheEntry}
    (hentry : Keyed.get? other before.entries = some entry) (halive : now < entry.deadline) :
    Keyed.get? other (before.perform now (.put key value seconds)).2.entries = some entry := by
  rcases hbefore with hpoisoned | h
  · rwa [perform_of_isPoisoned hpoisoned]
  · have hswept := (get?_sweep h.nodup now other entry).mpr ⟨hentry, halive⟩
    rw [perform, put_eq_sweep h.isOpen]
    split
    · exact (Keyed.get?_put_of_ne hother.symm _ _).trans hswept
    · exact hswept

/-- **What a call answers and leaves behind, whatever was called before.** It succeeds exactly if
the clock can express all deadlines up to its own, and fails at once behind one that is out of
range. A key has the value of the last put that named it, until its deadline, and no other; the
sweep of a put leaves what has not gone; exactly the deleted keys are gone. -/
theorem found_until_deadline (defaultSeconds : Nat) (past : List (Nat × Call)) (now : Nat)
    (inOrder : ∀ done ∈ past, done.1 ≤ now) (call : Call) :
    let before := performAll { defaultSeconds } past
    let answer := (before.perform now call).1
    let after := (before.perform now call).2
    ((∃ found, answer = .ok found) ↔ AllInRange defaultSeconds (past ++ [(now, call)]))
    ∧ (¬AllInRange defaultSeconds past → answer = .error .poisoned)
    ∧ (∀ key, call = .get key → AllInRange defaultSeconds past → ∀ value,
        answer = .ok (some value) ↔ ∃ time seconds, LastPut past key time value seconds
          ∧ now < deadlineOf defaultSeconds time seconds)
    ∧ (∀ key value seconds, call = .put key value seconds → ∀ other entry, other ≠ key →
        Keyed.get? other before.entries = some entry → now < entry.deadline →
          Keyed.get? other after.entries = some entry)
    ∧ (∀ keys, call = .del keys → AllInRange defaultSeconds past → ∀ key,
        Keyed.get? key after.entries
          = if key ∈ keys then none else Keyed.get? key before.entries) := by
  intro before answer after
  have hunusable : ¬AllInRange defaultSeconds past → before.isPoisoned = true :=
    (isPoisoned_performAll defaultSeconds past).mpr
  refine ⟨perform_ok_iff defaultSeconds past now call, ?_, ?_, ?_, ?_⟩
  · intro hpast
    exact congrArg Prod.fst (perform_of_isPoisoned (hunusable hpast) now call)
  · rintro key rfl hpast value
    have h := reflects_performAll hpast
    rw [← h.found_eq_some_iff inOrder key value,
      show answer = .ok (before.found now key) from h.perform_get now key, Except.ok.injEq]
  · rintro key value seconds rfl other entry hother hentry halive
    have hbefore : before.isPoisoned = true ∨ Reflects defaultSeconds past before := by
      by_cases hpast : AllInRange defaultSeconds past
      · exact .inr (reflects_performAll hpast)
      · exact .inl (hunusable hpast)
    exact get?_perform_put hbefore key value seconds hother hentry halive
  · rintro keys rfl hpast key
    have h := reflects_performAll hpast
    rw [show after.entries = eraseAll before.entries keys from h.entries_del now keys]
    exact get?_eraseAll h.nodup keys key

/-- Puts for a time of their own and for the default, a deletion, and a later put of the same key:
the key has what was put last. -/
def busyMorning : List (Nat × Call) :=
  [(1000, .put "menu" (.str "soup") 0), (1000, .put "table" (.int 4) 5), (2500, .get "menu"),
    (3000, .put "menu" (.str "stew") 2), (3000, .del ["table", "window"])]

theorem found_until_deadline_morning :
    (∀ done ∈ busyMorning, done.1 ≤ 4999) ∧ AllInRange 60 busyMorning
      ∧ ((performAll { defaultSeconds := 60 } busyMorning).perform 4999 (.get "menu")).1
        = .ok (some (.str "stew")) := by
  have hranges : AllInRange 60 busyMorning := by
    simp only [AllInRange, busyMorning]
    decide
  have hlast : LastPut busyMorning "menu" 3000 (.str "stew") 2 :=
    ⟨busyMorning.take 3, [(3000, .del ["table", "window"])], rfl, by simp [Call.Names]⟩
  have hmorning : ∀ done ∈ busyMorning, done.1 ≤ 4999 := by
    simp [busyMorning]
  exact ⟨hmorning, hranges,
    ((found_until_deadline 60 busyMorning 4999 hmorning (.get "menu")).2.2.1 "menu" rfl hranges
      _).mpr ⟨3000, 2, hlast, by decide⟩⟩

/-- A put for the greatest number of seconds fails, and so does every call behind it. -/
theorem deadline_beyond_clock :
    let cache : Cache := { defaultSeconds := 300 }
    let call := Call.put "menu" (.int 1) 9223372036854775807
    (cache.perform 1000 call).1 = .error .deadlineOverflow
      ∧ ((performAll cache [(1000, call)]).perform 1000 (.get "menu")).1 = .error .poisoned := by
  exact ⟨rfl, rfl⟩

end DualStore.Cache
