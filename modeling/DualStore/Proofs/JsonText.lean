import DualStore.Json.Parser
import DualStore.Json.Printer
import DualStore.Proofs.KeyedEntries
import DualStore.Proofs.NumberTexts

/-!
# JSON texts written and read

The compact text of a value is read back as the value. Doubles are left out: their texts are the
shortest ones and are read by one multiplication, which may miss the last digit.

* `isExact`: the values whose texts give them back, within so many levels;
* `exists_piece_escaped`, `readString_escaped`: strings, character by character;
* `EndsValue`, `Reads`: what follows a value, and a reader that reads a value in front of it;
* `readItems_restItems`, `readFields_restFields`: arrays and objects, given readers of their parts;
* `readValue_chars`: values, level by level;
* `merged_of_isExact`: no key of such a value is there twice;
* `parse?_text`: whole texts.
-/

namespace DualStore.Json

open Decimal

/-- Whether the text of a value gives the value back: there is no double in it, its integers fit
into 64 bits with or without sign, its objects have each key once, and it is not nested deeper than
so many levels. -/
def isExact : Nat → Json → Bool
  | _, .null => true
  | _, .bool _ => true
  | _, .int n => decide (-(2 ^ 63) ≤ n) && decide (n < 2 ^ 64)
  | _, .float _ => false
  | _, .str _ => true
  | 0, .arr _ => false
  | 0, .obj _ => false
  | levels + 1, .arr items => items.all (isExact levels)
  | levels + 1, .obj fields =>
    decide (Keyed.keys fields).Nodup && fields.all fun field => isExact levels field.2

/-! ## Strings -/

theorem hexValue?_hexDigit {n : Nat} (h : n < 16) : hexValue? (hexDigit n) = some n := by
  have hall : ∀ d : Fin 16, hexValue? (hexDigit d.val) = some d.val := by decide
  exact hall ⟨n, h⟩

/-- A letter behind a backslash, unless it announces the number of a code unit. -/
theorem readPieces_letter {letter c : Char} (h : unescape? letter = some c) (hu : letter ≠ 'u')
    (rest : List Char) :
    readPieces ('\\' :: letter :: rest)
      = (readPieces rest).map fun read => (.char c :: read.1, read.2) := by
  rw [readPieces, h]
  · cases readPieces rest <;> rfl
  · intro _ _ _ _ _ heq
    exact absurd heq hu

theorem readPieces_codeUnit {a b c d : Char} {n : Nat} (h : codeUnit? a b c d = some n)
    (rest : List Char) :
    readPieces ('\\' :: 'u' :: a :: b :: c :: d :: rest)
      = (readPieces rest).map fun read => (.codeUnit n :: read.1, read.2) := by
  rw [readPieces, h]
  cases readPieces rest <;> rfl

theorem readPieces_plain {c : Char} (hquote : c ≠ '\x22') (hbackslash : c ≠ '\\')
    (hcontrol : ¬c.toNat < 32) (rest : List Char) :
    readPieces (c :: rest) = (readPieces rest).map fun read => (.char c :: read.1, read.2) := by
  have hplain : ¬(c.toNat < 32 ∨ c = '\\') := by
    rintro (h | h)
    · exact hcontrol h
    · exact hbackslash h
  rw [readPieces, if_neg hplain]
  · cases readPieces rest <;> rfl
  · exact hquote
  · intro _ _ _ _ _ h
    exact absurd h hbackslash
  · intro _ _ h
    exact absurd h hbackslash

theorem joinPieces_codeUnit {n : Nat} (h : n < 0xD800) (pieces : List Piece) :
    joinPieces (.codeUnit n :: pieces) = (joinPieces pieces).map (Char.ofNat n :: ·) := by
  have hlow : n < 0xD800 ∨ 0xDFFF < n := .inl h
  cases pieces with
  | nil => simp [joinPieces, hlow]
  | cons piece pieces => cases piece <;> simp [joinPieces, hlow]

/-- A character is written so that its parts are read before those of the text behind it and make
the character again. -/
theorem exists_piece_escaped (c : Char) :
    ∃ piece, (∀ rest, readPieces (escaped c ++ rest)
        = (readPieces rest).map fun read => (piece :: read.1, read.2)) ∧
      ∀ pieces, joinPieces (piece :: pieces) = (joinPieces pieces).map (c :: ·) := by
  have hshort : ∀ letter : Char, unescape? letter = some c → letter ≠ 'u' →
      ∃ piece, (∀ rest, readPieces ('\\' :: letter :: rest)
          = (readPieces rest).map fun read => (piece :: read.1, read.2)) ∧
        ∀ pieces, joinPieces (piece :: pieces) = (joinPieces pieces).map (c :: ·) := by
    intro letter hletter hu
    exact ⟨.char c, readPieces_letter hletter hu, fun pieces => rfl⟩
  unfold escaped
  split
  · next h => exact hshort _ (by rw [h]; rfl) (by decide)
  split
  · next h => exact hshort _ (by rw [h]; rfl) (by decide)
  split
  · next h => exact hshort _ (by rw [h]; rfl) (by decide)
  split
  · next h => exact hshort _ (by rw [h]; rfl) (by decide)
  split
  · next h => exact hshort _ (by rw [h]; rfl) (by decide)
  split
  · next h => exact hshort _ (by rw [h]; rfl) (by decide)
  split
  · next h => exact hshort _ (by rw [h]; rfl) (by decide)
  split
  -- A control without a short form is written by its number.
  · next h =>
    have hunit : codeUnit? '0' '0' (hexDigit (c.toNat / 16)) (hexDigit (c.toNat % 16))
        = some c.toNat := by
      have hzero : hexValue? '0' = some 0 := rfl
      have hhigh := hexValue?_hexDigit (n := c.toNat / 16) (by omega)
      have hlow := hexValue?_hexDigit (n := c.toNat % 16) (by omega)
      simp only [codeUnit?, hzero, hhigh, hlow, Option.bind_eq_bind, Option.bind_some,
        Option.some.injEq]
      omega
    refine ⟨.codeUnit c.toNat, readPieces_codeUnit hunit, fun pieces => ?_⟩
    rw [joinPieces_codeUnit (by omega), Char.ofNat_toNat]
  · next hquote hbackslash _ _ _ _ _ hcontrol =>
    exact ⟨.char c, readPieces_plain hquote hbackslash hcontrol, fun pieces => rfl⟩

/-- The inside of a string is read up to its closing quote. -/
theorem readString_escaped (cs rest : List Char) :
    readString (cs.flatMap escaped ++ '\x22' :: rest) = some (String.ofList cs, rest) := by
  have hpieces : ∃ pieces, readPieces (cs.flatMap escaped ++ '\x22' :: rest) = some (pieces, rest) ∧
      joinPieces pieces = some cs := by
    induction cs with
    | nil => exact ⟨[], rfl, rfl⟩
    | cons c cs ih =>
      obtain ⟨pieces, hread, hjoin⟩ := ih
      obtain ⟨piece, hfirst, hback⟩ := exists_piece_escaped c
      refine ⟨piece :: pieces, ?_, ?_⟩
      · rw [List.flatMap_cons, List.append_assoc, hfirst, hread]
        rfl
      · rw [hback, hjoin]
        rfl
  obtain ⟨pieces, hread, hjoin⟩ := hpieces
  simp only [readString, hread, hjoin, Option.bind_eq_bind, Option.bind_some]

theorem readString_stringChars (s : String) (rest : List Char) :
    ∃ inside, stringChars s ++ rest = '\x22' :: inside ∧ readString inside = some (s, rest) := by
  refine ⟨s.toList.flatMap escaped ++ '\x22' :: rest, ?_, ?_⟩
  · rw [stringChars, List.cons_append, List.cons_append, List.append_assoc, List.singleton_append]
  · rw [readString_escaped, String.ofList_toList]

/-! ## Values -/

/-- What follows a value inside a text: nothing, or a mark that ends an item or a field. -/
def EndsValue (cs : List Char) : Prop := ∀ c, cs.head? = some c → c ∈ [',', ']', '\x7d']

theorem endsValue_nil : EndsValue [] := by
  intro c h
  simp at h

theorem endsValue_cons {c : Char} (h : c ∈ [',', ']', '\x7d']) (cs : List Char) :
    EndsValue (c :: cs) := by
  intro d hd
  simp only [List.head?_cons, Option.some.injEq] at hd
  rw [← hd]
  exact h

theorem EndsValue.endsNumber {cs : List Char} (h : EndsValue cs) : EndsNumber cs := by
  cases cs with
  | nil => exact endsNumber_nil
  | cons c rest =>
    have hc := h c rfl
    simp only [List.mem_cons, List.not_mem_nil, or_false] at hc
    rcases hc with rfl | rfl | rfl <;> exact ⟨Text.stopsAt_cons rfl _, rfl⟩

theorem skip_cons {c : Char} (h : isSpace c = false) (cs : List Char) : skip (c :: cs) = c :: cs :=
  Text.dropWhile_of_stopsAt (Text.stopsAt_cons h cs)

theorem not_isSpace_of_isDigit {c : Char} (h : c.isDigit = true) : isSpace c = false := by
  rw [Bool.eq_false_iff]
  intro hs
  simp only [isSpace, Bool.or_eq_true, decide_eq_true_eq] at hs
  rcases hs with ((rfl | rfl) | rfl) | rfl <;> exact absurd h (by decide)

/-- How the text of a value starts: not with a blank, and not with a mark that ends an array or an
object. -/
def Starts (cs : List Char) : Prop :=
  ∃ c rest, cs = c :: rest ∧ isSpace c = false ∧ c ≠ ']' ∧ c ≠ '\x7d'

theorem starts_digits (n : Nat) : Starts (digits n) := by
  obtain ⟨d, ds, hds, hd⟩ := exists_cons_digits n
  refine ⟨d, ds, hds, not_isSpace_of_isDigit hd, ?_, ?_⟩
  · rintro rfl
    exact absurd hd (by decide)
  · rintro rfl
    exact absurd hd (by decide)

theorem starts_chars {levels : Nat} {v : Json} (h : isExact levels v = true) :
    Starts (chars v) := by
  cases v with
  | null => exact ⟨_, _, rfl, rfl, by decide, by decide⟩
  | bool b => cases b <;> exact ⟨_, _, rfl, rfl, by decide, by decide⟩
  | int n =>
    cases n with
    | ofNat n => exact starts_digits n
    | negSucc n => exact ⟨_, _, rfl, rfl, by decide, by decide⟩
  | float x => cases levels <;> simp [isExact] at h
  | str s => exact ⟨_, _, rfl, rfl, by decide, by decide⟩
  | arr items => cases items <;> exact ⟨_, _, rfl, rfl, by decide, by decide⟩
  | obj fields => cases fields <;> exact ⟨_, _, rfl, rfl, by decide, by decide⟩

/-- The reader reads the value from its text wherever a value may end behind it. -/
structure Reads (reader : List Char → Option (Json × List Char)) (v : Json) : Prop where
  starts : Starts (chars v)
  reads : ∀ rest, EndsValue rest → reader (chars v ++ rest) = some (v, rest)

section Parts

variable {reader : List Char → Option (Json × List Char)}

/-- The reader reads the value behind blanks, too: there are none. -/
theorem Reads.skip {v : Json} (h : Reads reader v) {rest : List Char} (hrest : EndsValue rest) :
    reader (skip (chars v ++ rest)) = some (v, rest) := by
  obtain ⟨c, cs, hcs, hspace, _, _⟩ := h.starts
  have hread := h.reads rest hrest
  rw [hcs, List.cons_append] at hread ⊢
  rw [skip_cons hspace]
  exact hread

theorem endsValue_restItems (items : List Json) (rest : List Char) :
    EndsValue (restItems items ++ rest) := by
  cases items <;> exact endsValue_cons (by decide) _

theorem endsValue_restFields (fields : Fields) (rest : List Char) :
    EndsValue (restFields fields ++ rest) := by
  cases fields with
  | nil => exact endsValue_cons (by decide) _
  | cons field fields =>
    obtain ⟨key, v⟩ := field
    exact endsValue_cons (by decide) _

theorem length_lt_restItems (items : List Json) : items.length < (restItems items).length := by
  induction items with
  | nil => simp [restItems]
  | cons v items ih =>
    simp only [restItems, List.cons_append, List.length_cons, List.length_append]
    omega

theorem length_lt_restFields (fields : Fields) : fields.length < (restFields fields).length := by
  induction fields with
  | nil => simp [restFields]
  | cons field fields ih =>
    obtain ⟨key, v⟩ := field
    simp only [restFields, List.cons_append, List.length_cons, List.length_append]
    omega

/-- The items of an array are read one after the other up to the closing bracket. -/
theorem readItems_restItems {v : Json} {items : List Json} {fuel : Nat} (rest : List Char)
    (hreads : ∀ w ∈ v :: items, Reads reader w) (hfuel : items.length < fuel) :
    readItems reader fuel (chars v ++ (restItems items ++ rest)) = some (v :: items, rest) := by
  induction items generalizing v fuel with
  | nil =>
    cases fuel with
    | zero => simp at hfuel
    | succ fuel =>
      have hv := (hreads v List.mem_cons_self).skip (endsValue_restItems [] rest)
      rw [readItems, hv]
      rfl
  | cons w items ih =>
    cases fuel with
    | zero => simp at hfuel
    | succ fuel =>
      obtain ⟨hfirst, hothers⟩ := List.forall_mem_cons.mp hreads
      have hv := hfirst.skip (endsValue_restItems (w :: items) rest)
      have htail := ih hothers (by simpa using hfuel)
      have hcomma : Json.skip (restItems (w :: items) ++ rest)
          = ',' :: (chars w ++ (restItems items ++ rest)) := by
        rw [restItems, List.cons_append, List.cons_append, List.append_assoc]
        exact skip_cons rfl _
      rw [readItems, hv]
      simp only [hcomma, htail, Option.map_some]

/-- A key and its colon. -/
theorem readKey_stringChars (key : String) (rest : List Char) :
    readKey (stringChars key ++ ':' :: rest) = some (key, rest) := by
  obtain ⟨inside, hinside, hread⟩ := readString_stringChars key (':' :: rest)
  have hcolon : Json.skip (':' :: rest) = ':' :: rest := skip_cons rfl rest
  rw [hinside, readKey, skip_cons rfl]
  simp only [hread, hcolon]

/-- The fields of an object are read one after the other up to the closing brace. -/
theorem readFields_restFields {key : String} {v : Json} {fields : Fields} {fuel : Nat}
    (rest : List Char) (hreads : ∀ field ∈ (key, v) :: fields, Reads reader field.2)
    (hfuel : fields.length < fuel) :
    readFields reader fuel
        (stringChars key ++ ':' :: (chars v ++ (restFields fields ++ rest)))
      = some ((key, v) :: fields, rest) := by
  induction fields generalizing key v fuel with
  | nil =>
    cases fuel with
    | zero => simp at hfuel
    | succ fuel =>
      have hv := (hreads (key, v) List.mem_cons_self).skip (endsValue_restFields [] rest)
      rw [readFields, readKey_stringChars]
      simp only [hv]
      rfl
  | cons field fields ih =>
    obtain ⟨next, w⟩ := field
    cases fuel with
    | zero => simp at hfuel
    | succ fuel =>
      obtain ⟨hfirst, hothers⟩ := List.forall_mem_cons.mp hreads
      have hv := hfirst.skip (endsValue_restFields ((next, w) :: fields) rest)
      have htail := ih hothers (by simpa using hfuel)
      have hcomma : Json.skip (restFields ((next, w) :: fields) ++ rest)
          = ',' :: (stringChars next ++ ':' :: (chars w ++ (restFields fields ++ rest))) := by
        simp only [restFields, List.cons_append, List.append_assoc]
        exact skip_cons rfl _
      rw [readFields, readKey_stringChars]
      simp only [hv, hcomma, htail, Option.map_some]

end Parts

/-! ## Whole values -/

/-- A text that starts like a number is read as one. -/
theorem readScalar_number {c : Char} (h : c.isDigit = true ∨ c = '-') (cs : List Char) :
    readScalar (c :: cs) = readNumber (c :: cs) := by
  have hne : ∀ d : Char, d.isDigit = false → d ≠ '-' → c ≠ d := by
    rintro d hd hminus rfl
    rcases h with h | h
    · exact absurd (h.symm.trans hd) (by decide)
    · exact hminus h
  rw [readScalar]
  · intro _ heq
    exact absurd (List.cons.inj heq).1 (hne 'n' rfl (by decide))
  · intro _ heq
    exact absurd (List.cons.inj heq).1 (hne 't' rfl (by decide))
  · intro _ heq
    exact absurd (List.cons.inj heq).1 (hne 'f' rfl (by decide))
  · intro _ heq
    exact absurd (List.cons.inj heq).1 (hne '\x22' rfl (by decide))

/-- A text that starts neither like an array nor like an object is read the same way at every
level. -/
theorem readValue_scalar {levels : Nat} {c : Char} (hbracket : c ≠ '[') (hbrace : c ≠ '\x7b')
    (cs : List Char) : readValue levels (c :: cs) = readScalar (c :: cs) := by
  cases levels with
  | zero => rfl
  | succ levels =>
    rw [readValue]
    · intro _ heq
      exact hbracket (List.cons.inj heq).1
    · intro _ heq
      exact hbrace (List.cons.inj heq).1

theorem readValue_intChars {levels : Nat} {n : Int} {rest : List Char} (hlow : -(2 ^ 63) ≤ n)
    (hhigh : n < 2 ^ 64) (hrest : EndsNumber rest) :
    readValue levels (intChars n ++ rest) = some (.int n, rest) := by
  have hread := readNumber_intChars hlow hhigh hrest
  have hhead : ∃ c cs, intChars n = c :: cs ∧ (c.isDigit = true ∨ c = '-') := by
    cases n with
    | ofNat n =>
      obtain ⟨d, ds, hds, hd⟩ := exists_cons_digits n
      exact ⟨d, ds, hds, .inl hd⟩
    | negSucc n => exact ⟨_, _, rfl, .inr rfl⟩
  obtain ⟨c, cs, hcs, hc⟩ := hhead
  have hbracket : c ≠ '[' := by
    rintro rfl
    exact absurd hc (by decide)
  have hbrace : c ≠ '\x7b' := by
    rintro rfl
    exact absurd hc (by decide)
  rw [hcs, List.cons_append] at hread ⊢
  rw [readValue_scalar hbracket hbrace, readScalar_number hc, hread]

/-- Values that are neither arrays nor objects. -/
theorem readValue_scalarChars {levels : Nat} {v : Json} {rest : List Char}
    (h : isExact levels v = true) (harr : ∀ items, v ≠ .arr items)
    (hobj : ∀ fields, v ≠ .obj fields) (hrest : EndsNumber rest) :
    readValue levels (chars v ++ rest) = some (v, rest) := by
  cases v with
  | null =>
    have hchars : chars .null ++ rest = 'n' :: 'u' :: 'l' :: 'l' :: rest := rfl
    rw [hchars, readValue_scalar (by decide) (by decide)]
    rfl
  | bool b =>
    cases b with
    | false =>
      have hchars : chars (.bool false) ++ rest = 'f' :: 'a' :: 'l' :: 's' :: 'e' :: rest := rfl
      rw [hchars, readValue_scalar (by decide) (by decide)]
      rfl
    | true =>
      have hchars : chars (.bool true) ++ rest = 't' :: 'r' :: 'u' :: 'e' :: rest := rfl
      rw [hchars, readValue_scalar (by decide) (by decide)]
      rfl
  | int n =>
    have hrange : -(2 ^ 63) ≤ n ∧ n < 2 ^ 64 := by
      cases levels <;> simpa only [isExact, Bool.and_eq_true, decide_eq_true_eq] using h
    exact readValue_intChars hrange.1 hrange.2 hrest
  | float x => cases levels <;> simp [isExact] at h
  | str s =>
    obtain ⟨inside, hinside, hread⟩ := readString_stringChars s rest
    have hchars : chars (.str s) ++ rest = '\x22' :: inside := hinside
    rw [hchars, readValue_scalar (by decide) (by decide), readScalar, hread]
    rfl
  | arr items => exact absurd rfl (harr items)
  | obj fields => exact absurd rfl (hobj fields)

theorem readValue_arr {levels : Nat} {items : List Json} {rest : List Char}
    (hreads : ∀ v ∈ items, Reads (readValue levels) v) :
    readValue (levels + 1) (chars (.arr items) ++ rest) = some (.arr items, rest) := by
  cases items with
  | nil =>
    have hskip : skip (']' :: rest) = ']' :: rest := skip_cons rfl rest
    have hchars : chars (.arr []) ++ rest = '[' :: ']' :: rest := rfl
    rw [hchars, readValue, hskip]
    rfl
  | cons v items =>
    obtain ⟨c, cs, hcs, hspace, hbracket, _⟩ := (hreads v List.mem_cons_self).starts
    have hfuel : items.length < (chars v ++ (restItems items ++ rest)).length + 1 := by
      have hlength := length_lt_restItems items
      simp only [List.length_append]
      omega
    have hread := readItems_restItems rest hreads hfuel
    have hchars : chars (.arr (v :: items)) ++ rest
        = '[' :: (chars v ++ (restItems items ++ rest)) := by
      simp only [chars, List.cons_append, List.append_assoc]
    rw [hchars, readValue]
    simp only [hcs, List.cons_append] at hread ⊢
    rw [skip_cons hspace]
    split
    · next heq => exact absurd (List.cons.inj heq).1 hbracket
    · rw [hread]
      rfl

theorem readValue_obj {levels : Nat} {fields : Fields} {rest : List Char}
    (hreads : ∀ field ∈ fields, Reads (readValue levels) field.2) :
    readValue (levels + 1) (chars (.obj fields) ++ rest) = some (.obj fields, rest) := by
  cases fields with
  | nil =>
    have hskip : skip ('\x7d' :: rest) = '\x7d' :: rest := skip_cons rfl rest
    have hchars : chars (.obj []) ++ rest = '\x7b' :: '\x7d' :: rest := rfl
    rw [hchars, readValue, hskip]
    rfl
  | cons field fields =>
    obtain ⟨key, v⟩ := field
    have hfuel : fields.length
        < (stringChars key ++ ':' :: (chars v ++ (restFields fields ++ rest))).length + 1 := by
      have hlength := length_lt_restFields fields
      simp only [List.length_append, List.length_cons]
      omega
    have hread := readFields_restFields rest hreads hfuel
    have hchars : chars (.obj ((key, v) :: fields)) ++ rest
        = '\x7b' :: (stringChars key ++ ':' :: (chars v ++ (restFields fields ++ rest))) := by
      simp only [chars, List.cons_append, List.append_assoc]
    have hskip : skip (stringChars key ++ ':' :: (chars v ++ (restFields fields ++ rest)))
        = stringChars key ++ ':' :: (chars v ++ (restFields fields ++ rest)) := skip_cons rfl _
    rw [hchars, readValue, hskip]
    split
    · next heq => exact absurd (List.cons.inj heq).1 (by decide)
    · rw [hread]
      rfl

/-- The text of a value is read as the value, whatever may follow it, by induction on the levels. -/
theorem reads_readValue {levels : Nat} {v : Json} (h : isExact levels v = true) :
    Reads (readValue levels) v := by
  refine ⟨starts_chars h, ?_⟩
  induction levels generalizing v with
  | zero =>
    intro rest hrest
    refine readValue_scalarChars h ?_ ?_ hrest.endsNumber
    · rintro items rfl
      simp [isExact] at h
    · rintro fields rfl
      simp [isExact] at h
  | succ levels ih =>
    intro rest hrest
    cases v with
    | arr items =>
      rw [isExact, List.all_eq_true] at h
      exact readValue_arr fun v hv => ⟨starts_chars (h v hv), ih (h v hv)⟩
    | obj fields =>
      rw [isExact, Bool.and_eq_true, List.all_eq_true] at h
      exact readValue_obj fun field hf => ⟨starts_chars (h.2 field hf), ih (h.2 field hf)⟩
    | _ => exact readValue_scalarChars h (by simp) (by simp) hrest.endsNumber

theorem mergedItems_of_forall {items : List Json} (h : ∀ v ∈ items, merged v = v) :
    mergedItems items = items := by
  induction items with
  | nil => rfl
  | cons v items ih =>
    obtain ⟨hv, hitems⟩ := List.forall_mem_cons.mp h
    rw [mergedItems, hv, ih hitems]

theorem mergedFields_of_forall {fields : Fields} (h : ∀ field ∈ fields, merged field.2 = field.2) :
    mergedFields fields = fields := by
  induction fields with
  | nil => rfl
  | cons field fields ih =>
    obtain ⟨key, v⟩ := field
    obtain ⟨hv, hfields⟩ := List.forall_mem_cons.mp h
    rw [mergedFields, hv, ih hfields]

/-- Nothing is merged in a value whose objects have each key once. -/
theorem merged_of_isExact {levels : Nat} {v : Json} (h : isExact levels v = true) :
    merged v = v := by
  induction levels generalizing v with
  | zero => cases v <;> simp [isExact] at h <;> rfl
  | succ levels ih =>
    cases v with
    | arr items =>
      rw [isExact, List.all_eq_true] at h
      rw [merged, mergedItems_of_forall fun v hv => ih (h v hv)]
    | obj fields =>
      rw [isExact, Bool.and_eq_true, List.all_eq_true, decide_eq_true_eq] at h
      rw [merged, mergedFields_of_forall fun field hf => ih (h.2 field hf),
        Keyed.merged_of_nodup h.1]
    | _ => rfl

/-- **The text of a value is read as the value.** -/
theorem parse?_text {v : Json} (h : isExact maxLevels v = true) : parse? v.text = some v := by
  have hread := (reads_readValue h).skip endsValue_nil
  rw [List.append_nil] at hread
  have hraw : readRaw? v.text = some v := by
    rw [readRaw?, text, String.toList_ofList, hread]
    rfl
  rw [parse?, hraw, Option.map_some, merged_of_isExact h]

end DualStore.Json
