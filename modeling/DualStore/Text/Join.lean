/-!
# Joining texts

Texts written one after the other with a separator between neighbours.

* `joinWith`: the joined text;
* `joinWith_nil`, `joinWith_singleton`, `joinWith_cons_cons`: its equations.
-/

namespace DualStore.Text

/-- The given texts in order, with `separator` between neighbours. -/
def joinWith (separator : String) : List String → String
  | [] => ""
  | [s] => s
  | s :: t :: rest => s ++ separator ++ joinWith separator (t :: rest)

@[simp] theorem joinWith_nil (separator : String) : joinWith separator [] = "" := rfl

@[simp] theorem joinWith_singleton (separator s : String) : joinWith separator [s] = s := rfl

theorem joinWith_cons_cons (separator s t : String) (rest : List String) :
    joinWith separator (s :: t :: rest) = s ++ separator ++ joinWith separator (t :: rest) := rfl

example : joinWith ", " ["a", "b", "c"] = "a, b, c" := by decide

end DualStore.Text
