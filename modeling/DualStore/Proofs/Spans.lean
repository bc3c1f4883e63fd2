/-!
# Runs of characters

The readers of texts take the longest run of one class of characters off the front. If such a run is
written down and the text behind it does not go on with the class, the run comes back and nothing
behind it is touched.

* `StopsAt`: a text does not go on with a class of characters;
* `takeWhile_append_stopsAt`, `dropWhile_append_stopsAt`: a run in front of such a text.
-/

namespace DualStore.Text

variable {p : Char → Bool}

/-- No character of the class stands at the front of the text. -/
def StopsAt (p : Char → Bool) (cs : List Char) : Prop := ∀ c, cs.head? = some c → p c = false

theorem stopsAt_nil : StopsAt p [] := by
  intro c h
  simp at h

theorem stopsAt_cons {c : Char} (h : p c = false) (cs : List Char) : StopsAt p (c :: cs) := by
  intro d hd
  simp only [List.head?_cons, Option.some.injEq] at hd
  rw [← hd]
  exact h

theorem takeWhile_of_stopsAt {cs : List Char} (h : StopsAt p cs) : cs.takeWhile p = [] := by
  cases cs with
  | nil => rfl
  | cons c rest => simp [h c rfl]

theorem dropWhile_of_stopsAt {cs : List Char} (h : StopsAt p cs) : cs.dropWhile p = cs := by
  cases cs with
  | nil => rfl
  | cons c rest => simp [h c rfl]

theorem takeWhile_append_stopsAt {run rest : List Char} (hrun : run.all p = true)
    (hrest : StopsAt p rest) : (run ++ rest).takeWhile p = run := by
  rw [List.takeWhile_append_of_pos (List.all_eq_true.mp hrun), takeWhile_of_stopsAt hrest,
    List.append_nil]

theorem dropWhile_append_stopsAt {run rest : List Char} (hrun : run.all p = true)
    (hrest : StopsAt p rest) : (run ++ rest).dropWhile p = rest := by
  rw [List.dropWhile_append_of_pos (List.all_eq_true.mp hrun), dropWhile_of_stopsAt hrest]

end DualStore.Text
