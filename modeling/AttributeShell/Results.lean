/-!
Functions that may fail, over lists: the list of the results is there if each of them is.
-/

namespace AttributeShell

variable {ε α β : Type}

theorem mapM_eq_some_iff {f : α → Option β} {xs : List α} {ys : List β} :
    xs.mapM f = some ys ↔ xs.map f = ys.map some := by
  induction xs generalizing ys with
  | nil => cases ys <;> simp
  | cons x xs ih =>
    rw [List.mapM_cons, List.map_cons]
    cases f x with
    | none => cases ys <;> simp
    | some y =>
      cases ys with
      | nil => cases xs.mapM f <;> simp
      | cons first ys =>
        simp only [List.map_cons, List.cons.injEq, ← ih]
        cases xs.mapM f <;> simp

theorem mapM_eq_ok_iff {f : α → Except ε β} {xs : List α} {ys : List β} :
    xs.mapM f = .ok ys ↔ xs.map f = ys.map .ok := by
  induction xs generalizing ys with
  | nil => cases ys <;> simp [pure, Except.pure]
  | cons x xs ih =>
    rw [List.mapM_cons, List.map_cons]
    cases f x with
    | error error => cases ys <;> simp [bind, Except.bind]
    | ok y =>
      cases ys with
      | nil => cases xs.mapM f <;> simp [bind, Except.bind, pure, Except.pure]
      | cons first ys =>
        simp only [List.map_cons, List.cons.injEq, ← ih]
        cases xs.mapM f <;> simp [bind, Except.bind, pure, Except.pure]

end AttributeShell
