import Mathlib.Data.List.Induction
import DualStore.Keyed

/-!
# Entries of keyed lists

What the operations on keyed lists do to entries and keys, for lists in which no key has two
entries.

* `nodup_put`, `nodup_swapErase`: no operation gives a key two entries;
* `mem_put`, `mem_swapErase`: the entries after an operation;
* `mem_of_get?`, `get?_eq_some_iff`: reading as membership;
* `put_put`, `put_comm`: two values put one after the other;
* `keys_put_of_mem`, `put_of_get?`: a value for a key that is there;
* `putEach`, `keys_putEach`, `mem_putEach`: values put one after the other, and the keys and entries
  behind them;
* `erase_eq_filter`, `get?_filter`: entries taken out by their keys;
* `get?_swapErase_self`, `get?_swapErase_of_ne`, `get?_swapErase`: what taking out an entry does to
  reading;
* `IsSorted`, `isSorted_putSorted`, `get?_putSorted_self`, `get?_putSorted_of_ne`: lists that are
  ordered by key.
-/

namespace DualStore.Keyed

variable {α : Type}

theorem mem_keys {entries : List (String × α)} {e : String × α} (h : e ∈ entries) :
    e.1 ∈ keys entries := List.mem_map_of_mem h

theorem lastToFront_perm (xs : List α) : (lastToFront xs).Perm xs := by
  induction xs with
  | nil => exact .nil
  | cons y ys ih =>
    cases h : lastToFront ys with
    | nil =>
      rw [h] at ih
      rw [lastToFront, h, ← ih.nil_eq]
    | cons z zs =>
      rw [h] at ih
      rw [lastToFront, h]
      exact (List.Perm.swap y z zs).trans (ih.cons y)

theorem swapErase_perm (key : String) (entries : List (String × α)) :
    (swapErase key entries).Perm (erase key entries) := by
  induction entries with
  | nil => exact .nil
  | cons entry rest ih =>
    obtain ⟨k, v⟩ := entry
    by_cases h : k = key
    · simpa [swapErase, erase, h] using lastToFront_perm rest
    · simpa [swapErase, erase, h] using ih

theorem erase_sublist (key : String) (entries : List (String × α)) :
    (erase key entries).Sublist entries := by
  induction entries with
  | nil => exact .slnil
  | cons entry rest ih =>
    obtain ⟨k, v⟩ := entry
    by_cases h : k = key
    · simp [erase, h]
    · simpa [erase, h] using ih

/-- The last entry taken out, which is the only one of its key. -/
theorem erase_append_of_notMem {key : String} {entries : List (String × α)}
    (h : key ∉ keys entries) (value : α) : erase key (entries ++ [(key, value)]) = entries := by
  induction entries with
  | nil => simp [erase]
  | cons entry rest ih =>
    obtain ⟨k, v⟩ := entry
    simp only [keys, List.map_cons, List.mem_cons, not_or] at h
    rw [List.cons_append, erase, if_neg fun heq => h.1 heq.symm, ih h.2]

theorem nodup_swapErase {entries : List (String × α)} (h : (keys entries).Nodup) (key : String) :
    (keys (swapErase key entries)).Nodup := by
  have hperm := (swapErase_perm key entries).map Prod.fst
  exact hperm.nodup_iff.mpr (h.sublist ((erase_sublist key entries).map Prod.fst))

theorem keys_swapErase_subset (key : String) (entries : List (String × α)) {k : String}
    (h : k ∈ keys (swapErase key entries)) : k ∈ keys entries := by
  have hperm := (swapErase_perm key entries).map Prod.fst
  exact ((erase_sublist key entries).map Prod.fst).subset (hperm.mem_iff.mp h)

theorem mem_swapErase {entries : List (String × α)} (h : (keys entries).Nodup) (key : String)
    (e : String × α) : e ∈ swapErase key entries ↔ e ∈ entries ∧ e.1 ≠ key := by
  rw [(swapErase_perm key entries).mem_iff]
  induction entries with
  | nil => simp [erase]
  | cons entry rest ih =>
    obtain ⟨k, v⟩ := entry
    simp only [keys, List.map_cons, List.nodup_cons, List.mem_map, not_exists, not_and] at h
    have hrest := ih h.2
    by_cases hk : k = key
    · subst hk
      simp only [erase, if_pos, List.mem_cons]
      constructor
      · intro he
        exact ⟨.inr he, h.1 e he⟩
      · rintro ⟨rfl | he, hne⟩
        · exact absurd rfl hne
        · exact he
    · simp only [erase, if_neg hk, List.mem_cons, hrest]
      constructor
      · rintro (rfl | ⟨he, hne⟩)
        · exact ⟨.inl rfl, hk⟩
        · exact ⟨.inr he, hne⟩
      · rintro ⟨rfl | he, hne⟩
        · exact .inl rfl
        · exact .inr ⟨he, hne⟩

theorem mem_keys_put (key : String) (value : α) (entries : List (String × α)) (k : String) :
    k ∈ keys (put key value entries) ↔ k = key ∨ k ∈ keys entries := by
  induction entries with
  | nil => simp [put, keys]
  | cons entry rest ih =>
    obtain ⟨k', v⟩ := entry
    by_cases h : k' = key
    · subst h
      simp [put, keys]
    · have ih' : k ∈ (put key value rest).map Prod.fst ↔ k = key ∨ k ∈ rest.map Prod.fst := ih
      simp only [put, keys, if_neg h, List.map_cons, List.mem_cons, ih']
      exact or_left_comm

theorem put_of_notMem {key : String} {entries : List (String × α)} (h : key ∉ keys entries)
    (value : α) : put key value entries = entries ++ [(key, value)] := by
  induction entries with
  | nil => rfl
  | cons entry rest ih =>
    obtain ⟨k, v⟩ := entry
    simp only [keys, List.map_cons, List.mem_cons, not_or] at h
    rw [put, if_neg fun heq => h.1 heq.symm, ih h.2, List.cons_append]

/-- The first of two lists that has the key tells its value. -/
theorem get?_append (key : String) (first second : List (String × α)) :
    get? key (first ++ second) = (get? key first).or (get? key second) := by
  induction first with
  | nil => rfl
  | cons entry rest ih =>
    obtain ⟨k, v⟩ := entry
    by_cases h : k = key
    · simp [get?, h]
    · simp [get?, h, ih]

/-- Of two values put for one key the later one counts. -/
theorem put_put (key : String) (value earlier : α) (entries : List (String × α)) :
    put key value (put key earlier entries) = put key value entries := by
  induction entries with
  | nil => simp [put]
  | cons entry rest ih =>
    obtain ⟨k, v⟩ := entry
    by_cases h : k = key
    · simp [put, h]
    · simp [put, h, ih]

/-- Values for different keys may be put in either order if the place of one is known. -/
theorem put_comm {key other : String} {entries : List (String × α)} (h : key ∈ keys entries)
    (hne : other ≠ key) (value next : α) :
    put key value (put other next entries) = put other next (put key value entries) := by
  induction entries with
  | nil => exact absurd h List.not_mem_nil
  | cons entry rest ih =>
    obtain ⟨k, v⟩ := entry
    by_cases hkey : k = key
    · subst hkey
      simp [put, hne.symm]
    · by_cases hother : k = other
      · subst hother
        simp [put, hkey]
      · have hrest : key ∈ keys rest := by
          rcases List.mem_cons.mp h with heq | hmem
          · exact absurd heq.symm hkey
          · exact hmem
        simp [put, hkey, hother, ih hrest]

/-- Entries with new keys are put behind the others one after the other. -/
theorem foldl_put_of_nodup (earlier : List (String × α)) {later : List (String × α)}
    (h : (keys (earlier ++ later)).Nodup) :
    later.foldl (fun acc entry => put entry.1 entry.2 acc) earlier = earlier ++ later := by
  induction later generalizing earlier with
  | nil => simp
  | cons entry rest ih =>
    have hnew : entry.1 ∉ keys earlier := by
      simp only [keys, List.map_append, List.map_cons] at h
      have hdisjoint := (List.nodup_append.mp h).2.2
      intro hmem
      exact hdisjoint _ hmem _ List.mem_cons_self rfl
    have happend : earlier ++ [(entry.1, entry.2)] ++ rest = earlier ++ entry :: rest := by simp
    rw [List.foldl_cons, put_of_notMem hnew, ih _ (by rw [happend]; exact h), happend]

/-- Entries with each key once are merged already. -/
theorem merged_of_nodup {entries : List (String × α)} (h : (keys entries).Nodup) :
    merged entries = entries :=
  foldl_put_of_nodup [] h

theorem put_ne_nil (key : String) (value : α) (entries : List (String × α)) :
    put key value entries ≠ [] := by
  intro h
  have hmem := (mem_keys_put key value entries key).mpr (.inl rfl)
  rw [h] at hmem
  simp [keys] at hmem

theorem nodup_put {entries : List (String × α)} (h : (keys entries).Nodup) (key : String)
    (value : α) : (keys (put key value entries)).Nodup := by
  induction entries with
  | nil => simp [put, keys]
  | cons entry rest ih =>
    obtain ⟨k, v⟩ := entry
    obtain ⟨hk, hrest⟩ := List.nodup_cons.mp h
    by_cases hkey : k = key
    · subst hkey
      simpa [put, keys] using h
    · have hput : k ∉ keys (put key value rest) := by
        rw [mem_keys_put]
        rintro (hk' | hk')
        · exact hkey hk'
        · exact hk hk'
      have h := List.nodup_cons.mpr ⟨hput, ih hrest⟩
      simpa only [put, if_neg hkey, keys, List.map_cons] using h

theorem mem_put {entries : List (String × α)} (h : (keys entries).Nodup) (key : String) (value : α)
    (e : String × α) : e ∈ put key value entries ↔ e = (key, value) ∨ e ∈ entries ∧ e.1 ≠ key := by
  induction entries with
  | nil => simp [put]
  | cons entry rest ih =>
    obtain ⟨k, v⟩ := entry
    obtain ⟨hk, hrest⟩ := List.nodup_cons.mp h
    by_cases hkey : k = key
    · subst hkey
      simp only [put, if_pos, List.mem_cons]
      constructor
      · rintro (rfl | he)
        · exact .inl rfl
        · have hmem : e.1 ∈ keys rest := mem_keys he
          refine .inr ⟨.inr he, fun heq => hk ?_⟩
          rwa [heq] at hmem
      · rintro (rfl | ⟨rfl | he, hne⟩)
        · exact .inl rfl
        · exact absurd rfl hne
        · exact .inr he
    · simp only [put, if_neg hkey, List.mem_cons, ih hrest]
      constructor
      · rintro (rfl | he | ⟨he, hne⟩)
        · exact .inr ⟨.inl rfl, hkey⟩
        · exact .inl he
        · exact .inr ⟨.inr he, hne⟩
      · rintro (he | ⟨rfl | he, hne⟩)
        · exact .inr (.inl he)
        · exact .inl rfl
        · exact .inr (.inr ⟨he, hne⟩)

theorem mem_of_get? {key : String} {value : α} {entries : List (String × α)}
    (h : get? key entries = some value) : (key, value) ∈ entries := by
  induction entries with
  | nil => cases h
  | cons entry rest ih =>
    obtain ⟨k, v⟩ := entry
    rw [get?] at h
    split at h
    · next heq =>
      rw [heq, Option.some.inj h]
      exact List.mem_cons_self
    · exact List.mem_cons_of_mem _ (ih h)

theorem get?_eq_some_iff {entries : List (String × α)} (h : (keys entries).Nodup) (key : String)
    (value : α) : get? key entries = some value ↔ (key, value) ∈ entries := by
  induction entries with
  | nil => simp [get?]
  | cons entry rest ih =>
    obtain ⟨k, v⟩ := entry
    obtain ⟨hk, hrest⟩ := List.nodup_cons.mp h
    by_cases hkey : k = key
    · subst hkey
      have habsent : (k, value) ∉ rest := by
        intro hmem
        have hkey : k ∈ keys rest := mem_keys hmem
        exact hk hkey
      simp only [get?, if_pos, Option.some.injEq, List.mem_cons, Prod.mk.injEq, true_and, habsent,
        or_false]
      exact eq_comm
    · have hne : ¬ key = k := fun h => hkey h.symm
      simp only [get?, if_neg hkey, List.mem_cons, Prod.mk.injEq, hne, false_and, false_or,
        ih hrest]

theorem get?_swapErase_of_ne {entries : List (String × α)} (h : (keys entries).Nodup)
    {key other : String} (hne : key ≠ other) :
    get? other (swapErase key entries) = get? other entries := by
  apply Option.ext
  intro v
  rw [get?_eq_some_iff (nodup_swapErase h key), get?_eq_some_iff h, mem_swapErase h]
  exact ⟨fun h => h.1, fun h => ⟨h, fun heq => hne heq.symm⟩⟩

theorem get?_swapErase_self {entries : List (String × α)} (h : (keys entries).Nodup)
    (key : String) : get? key (swapErase key entries) = none := by
  cases hget : get? key (swapErase key entries) with
  | none => rfl
  | some v =>
    rw [get?_eq_some_iff (nodup_swapErase h key), mem_swapErase h] at hget
    exact absurd rfl hget.2

/-- What is read behind taking out an entry. -/
theorem get?_swapErase {entries : List (String × α)} (h : (keys entries).Nodup)
    (key other : String) :
    get? other (swapErase key entries) = if key = other then none else get? other entries := by
  by_cases heq : key = other
  · rw [if_pos heq, ← heq, get?_swapErase_self h]
  · rw [if_neg heq, get?_swapErase_of_ne h heq]

theorem has_iff_mem_keys (key : String) (entries : List (String × α)) :
    has key entries = true ↔ key ∈ keys entries := by
  induction entries with
  | nil => simp [has, keys]
  | cons entry rest ih =>
    obtain ⟨k, v⟩ := entry
    have ih' : has key rest = true ↔ key ∈ rest.map Prod.fst := ih
    simp only [has, keys, Bool.or_eq_true, decide_eq_true_eq, List.map_cons, List.mem_cons, ih']
    exact or_congr_left eq_comm

theorem get?_eq_none_iff (key : String) (entries : List (String × α)) :
    get? key entries = none ↔ key ∉ keys entries := by
  rw [← has_iff_mem_keys, has_eq_isSome]
  cases get? key entries <;> simp

/-- A value for a key that is there leaves the keys as they are. -/
theorem keys_put_of_mem {key : String} {entries : List (String × α)} (h : key ∈ keys entries)
    (value : α) : keys (put key value entries) = keys entries := by
  induction entries with
  | nil => exact absurd h List.not_mem_nil
  | cons entry rest ih =>
    obtain ⟨k, v⟩ := entry
    rw [put]
    split
    · next heq =>
      rw [keys, keys, List.map_cons, List.map_cons, heq]
    · next hne =>
      have hrest : key ∈ keys rest := by
        rcases List.mem_cons.mp h with heq | hmem
        · exact absurd heq.symm hne
        · exact hmem
      exact congrArg (k :: ·) (ih hrest)

/-- The value that a key has, put once more, changes nothing. -/
theorem put_of_get? {key : String} {value : α} {entries : List (String × α)}
    (h : get? key entries = some value) : put key value entries = entries := by
  induction entries with
  | nil => simp [get?] at h
  | cons entry rest ih =>
    obtain ⟨k, v⟩ := entry
    rw [get?] at h
    rw [put]
    split at h
    · next heq =>
      rw [if_pos heq, heq, Option.some.inj h]
    · next hne => rw [if_neg hne, ih h]

/-- The entry of a key that is there once is the only one that is taken out. -/
theorem erase_eq_filter {entries : List (String × α)} (h : (keys entries).Nodup) (key : String) :
    erase key entries = entries.filter fun entry => entry.1 ≠ key := by
  induction entries with
  | nil => rfl
  | cons entry rest ih =>
    obtain ⟨k, v⟩ := entry
    obtain ⟨hk, hrest⟩ := List.nodup_cons.mp h
    by_cases heq : k = key
    · subst heq
      have hothers : ∀ other ∈ rest, decide (other.1 ≠ k) = true := by
        intro other hother
        have hmem := mem_keys hother
        exact decide_eq_true fun hname => hk (hname ▸ hmem)
      rw [erase, if_pos rfl, List.filter_cons_of_neg (by simp), List.filter_eq_self.mpr hothers]
    · rw [erase, if_neg heq, ih hrest, List.filter_cons_of_pos (by simpa using heq)]

/-- What is read behind taking out entries by their keys. -/
theorem get?_filter (kept : String → Bool) (key : String) (entries : List (String × α)) :
    get? key (entries.filter fun entry => kept entry.1)
      = if kept key then get? key entries else none := by
  induction entries with
  | nil => simp [get?]
  | cons entry rest ih =>
    obtain ⟨k, v⟩ := entry
    by_cases heq : k = key
    · subst heq
      cases hkept : kept k <;> simp [get?, hkept, ih]
    · cases hkept : kept k <;> simp [get?, hkept, heq, ih]

/-! ## Values put one after the other -/

/-- The entries behind values put for keys one after the other. -/
def putEach (entries later : List (String × α)) : List (String × α) :=
  later.foldl (fun acc entry => put entry.1 entry.2 acc) entries

theorem putEach_append (entries later last : List (String × α)) :
    putEach entries (later ++ last) = putEach (putEach entries later) last := by
  rw [putEach, List.foldl_append]
  rfl

theorem putEach_concat (entries later : List (String × α)) (last : String × α) :
    putEach entries (later ++ [last]) = put last.1 last.2 (putEach entries later) :=
  putEach_append entries later [last]

theorem putEach_eq_nil_iff (entries later : List (String × α)) :
    putEach entries later = [] ↔ entries ++ later = [] := by
  rcases List.eq_nil_or_concat later with rfl | ⟨others, last, rfl⟩
  · rw [putEach, List.foldl_nil, List.append_nil]
  · rw [List.concat_eq_append, putEach_concat]
    simp [put_ne_nil]

theorem nodup_putEach {entries : List (String × α)} (h : (keys entries).Nodup)
    (later : List (String × α)) : (keys (putEach entries later)).Nodup := by
  induction later using List.reverseRecOn with
  | nil => exact h
  | append_singleton later last ih =>
    rw [putEach_concat]
    exact nodup_put ih last.1 last.2

/-- Of the values of a key the one that was put last counts. -/
theorem mem_putEach {entries : List (String × α)} (h : (keys entries).Nodup)
    (later : List (String × α)) (entry : String × α) :
    entry ∈ putEach entries later
      ↔ ∃ before after, entries ++ later = before ++ entry :: after ∧ entry.1 ∉ keys after := by
  induction later using List.reverseRecOn with
  | nil =>
    rw [List.append_nil]
    constructor
    · intro hmem
      obtain ⟨before, after, rfl⟩ := List.append_of_mem hmem
      rw [keys, List.map_append, List.map_cons] at h
      exact ⟨before, after, rfl, (List.nodup_cons.mp (List.nodup_append.mp h).2.1).1⟩
    · rintro ⟨before, after, rfl, -⟩
      exact List.mem_append_right _ List.mem_cons_self
  | append_singleton later last ih =>
    rw [putEach_concat, mem_put (nodup_putEach h later), ih]
    constructor
    · rintro (rfl | ⟨⟨before, after, heq, hafter⟩, hne⟩)
      · exact ⟨entries ++ later, [], by rw [List.append_assoc], List.not_mem_nil⟩
      · refine ⟨before, after ++ [last], ?_, ?_⟩
        · rw [← List.append_assoc, heq, List.append_assoc, List.cons_append]
        · rw [keys, List.map_append, List.mem_append, not_or]
          exact ⟨hafter, fun hlast => hne (List.mem_singleton.mp hlast)⟩
    · rintro ⟨before, after, heq, hafter⟩
      rw [← List.append_assoc] at heq
      rcases List.eq_nil_or_concat after with rfl | ⟨others, other, rfl⟩
      · exact .inl (List.singleton_inj.mp (List.append_inj' heq rfl).2).symm
      · rw [List.concat_eq_append, ← List.cons_append, ← List.append_assoc] at heq
        obtain ⟨hbefore, hother⟩ := List.append_inj' heq rfl
        obtain rfl := List.singleton_inj.mp hother
        rw [List.concat_eq_append, keys, List.map_append, List.mem_append, not_or] at hafter
        exact .inr ⟨⟨before, others, hbefore, hafter.1⟩, fun hsame =>
          hafter.2 (List.mem_singleton.mpr hsame)⟩

theorem eraseDups_concat (names : List String) (name : String) :
    (names ++ [name]).eraseDups
      = if name ∈ names then names.eraseDups else names.eraseDups ++ [name] := by
  rw [List.eraseDups_append]
  by_cases h : name ∈ names <;> simp [List.removeAll, h, List.eraseDups_cons]

theorem eraseDups_of_nodup {names : List String} (h : names.Nodup) : names.eraseDups = names := by
  induction names using List.reverseRecOn with
  | nil => rfl
  | append_singleton names name ih =>
    have hname : name ∉ names := fun hmem =>
      (List.nodup_append.mp h).2.2 name hmem name List.mem_cons_self rfl
    rw [eraseDups_concat, if_neg hname, ih (List.nodup_append.mp h).1]

/-- The keys stand in the order in which they came first. -/
theorem keys_putEach {entries : List (String × α)} (h : (keys entries).Nodup)
    (later : List (String × α)) :
    keys (putEach entries later) = (keys (entries ++ later)).eraseDups := by
  induction later using List.reverseRecOn with
  | nil => rw [List.append_nil, eraseDups_of_nodup h, putEach, List.foldl_nil]
  | append_singleton later last ih =>
    have hkeys : keys (entries ++ (later ++ [last])) = keys (entries ++ later) ++ [last.1] := by
      rw [← List.append_assoc, keys, List.map_append]
      rfl
    rw [putEach_concat, hkeys, eraseDups_concat, ← ih]
    by_cases hlast : last.1 ∈ keys (entries ++ later)
    · have hmem : last.1 ∈ keys (putEach entries later) := by
        rw [ih]
        exact List.mem_eraseDups.mpr hlast
      rw [if_pos hlast, keys_put_of_mem hmem]
    · have hnotMem : last.1 ∉ keys (putEach entries later) := by
        rw [ih]
        exact fun hmem => hlast (List.mem_eraseDups.mp hmem)
      rw [if_neg hlast, put_of_notMem hnotMem, keys, List.map_append]
      rfl

theorem nodup_merged (entries : List (String × α)) : (keys (merged entries)).Nodup :=
  have hnil : (keys ([] : List (String × α))).Nodup := List.nodup_nil
  nodup_putEach hnil entries

theorem mem_of_mem_merged {entries : List (String × α)} {entry : String × α}
    (h : entry ∈ merged entries) : entry ∈ entries := by
  have hnil : (keys ([] : List (String × α))).Nodup := List.nodup_nil
  obtain ⟨before, after, heq, -⟩ := (mem_putEach hnil entries entry).mp h
  rw [List.nil_append] at heq
  rw [heq]
  exact List.mem_append_right _ List.mem_cons_self

/-! ## Lists ordered by key -/

/-- Whether the keys are in ascending order, each once. -/
def IsSorted (entries : List (String × α)) : Prop := (keys entries).Pairwise (· < ·)

theorem IsSorted.nodup {entries : List (String × α)} (h : IsSorted entries) :
    (keys entries).Nodup := by
  refine List.Pairwise.imp ?_ h
  rintro a b hlt rfl
  exact String.lt_irrefl a hlt

theorem get?_putSorted_self (key : String) (value : α) (entries : List (String × α)) :
    get? key (putSorted key value entries) = some value := by
  induction entries with
  | nil => simp [putSorted, get?]
  | cons entry rest ih =>
    obtain ⟨k, v⟩ := entry
    rw [putSorted]
    split
    · simp [get?]
    · next hne =>
      split
      · simp [get?]
      · rw [get?, if_neg hne, ih]

theorem get?_putSorted_of_ne {key other : String} (h : key ≠ other) (value : α)
    (entries : List (String × α)) :
    get? other (putSorted key value entries) = get? other entries := by
  induction entries with
  | nil => simp [putSorted, get?, h]
  | cons entry rest ih =>
    obtain ⟨k, v⟩ := entry
    rw [putSorted]
    split
    · next heq =>
      subst heq
      simp [get?, h]
    · split
      · simp [get?, h]
      · by_cases hk : k = other
        · rw [get?, get?, if_pos hk, if_pos hk]
        · rw [get?, get?, if_neg hk, if_neg hk, ih]

theorem mem_putSorted {key : String} {value : α} {entries : List (String × α)} {e : String × α}
    (h : e ∈ putSorted key value entries) : e = (key, value) ∨ e ∈ entries := by
  induction entries with
  | nil => exact .inl (List.mem_singleton.mp h)
  | cons entry rest ih =>
    obtain ⟨k, v⟩ := entry
    rw [putSorted] at h
    split at h
    · exact (List.mem_cons.mp h).imp_right (List.mem_cons_of_mem _)
    · split at h
      · exact List.mem_cons.mp h
      · rcases List.mem_cons.mp h with rfl | h
        · exact .inr List.mem_cons_self
        · exact (ih h).imp_right (List.mem_cons_of_mem _)

theorem mem_keys_putSorted {key : String} {value : α} {entries : List (String × α)} {k : String}
    (h : k ∈ keys (putSorted key value entries)) : k = key ∨ k ∈ keys entries := by
  obtain ⟨e, he, rfl⟩ := List.mem_map.mp h
  rcases mem_putSorted he with rfl | he
  · exact .inl rfl
  · exact .inr (mem_keys he)

theorem isSorted_putSorted {entries : List (String × α)} (h : IsSorted entries) (key : String)
    (value : α) : IsSorted (putSorted key value entries) := by
  induction entries with
  | nil => simp [putSorted, IsSorted, keys]
  | cons entry rest ih =>
    obtain ⟨k, v⟩ := entry
    obtain ⟨hk, hrest⟩ := List.pairwise_cons.mp h
    rw [putSorted]
    split
    · next heq =>
      subst heq
      exact h
    · next hne =>
      split
      · next hlt =>
        refine List.pairwise_cons.mpr ⟨fun other hother => ?_, h⟩
        rcases List.mem_cons.mp hother with rfl | hother
        · exact hlt
        · exact String.lt_trans hlt (hk other hother)
      · next hge =>
        have hlt : k < key := by
          rw [← String.not_le]
          intro hle
          exact hne (String.le_antisymm (String.not_lt.mp hge) hle)
        refine List.pairwise_cons.mpr ⟨fun other hother => ?_, ih hrest⟩
        rcases mem_keys_putSorted hother with rfl | hother
        · exact hlt
        · exact hk other hother

end DualStore.Keyed
