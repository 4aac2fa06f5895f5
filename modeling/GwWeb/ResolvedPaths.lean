import Mathlib.Data.List.Basic
import Mathlib.Data.List.Infix
import Mathlib.Tactic.Common

/-!
Absolute path names with their empty, `.` and `..` components resolved, links
aside.
-/

namespace ResolvedPaths

/-- `stack` holds the components resolved so far, the last one first. -/
def resolve (stack : List (List Char)) : List (List Char) → List (List Char)
  | [] => stack.reverse
  | c :: cs =>
      if c = [] ∨ c = ['.'] then resolve stack cs
      else if c = ['.', '.'] then resolve stack.tail cs
      else resolve (c :: stack) cs

/-- The components of a path, with `.` and `..` resolved. -/
def normalise (path : List Char) : List (List Char) := resolve [] (path.splitOn '/')

/-- The path is below the directory. -/
def Within (dir path : List Char) : Prop :=
  normalise dir <+: normalise path ∧ normalise path ≠ normalise dir

instance (dir path : List Char) : Decidable (Within dir path) :=
  inferInstanceAs (Decidable (_ ∧ _))

/-- A name of one component that stands for itself. -/
structure Plain (name : List Char) : Prop where
  slash : '/' ∉ name
  nonempty : name ≠ []
  dot : name ≠ ['.']
  dots : name ≠ ['.', '.']

theorem resolve_append (stack cs ds : List (List Char)) :
    resolve stack (cs ++ ds) = resolve (resolve stack cs).reverse ds := by
  induction cs generalizing stack with
  | nil => simp [resolve]
  | cons c cs ih =>
      simp only [List.cons_append, resolve]
      split
      · exact ih stack
      · split
        · exact ih stack.tail
        · exact ih (c :: stack)

theorem normalise_append (dir rest : List Char) :
    normalise (dir ++ '/' :: rest) = resolve (normalise dir).reverse (rest.splitOn '/') := by
  unfold normalise
  rw [List.splitOn_append_cons_self, resolve_append]

theorem normalise_plain {name : List Char} (h : Plain name) (dir : List Char) :
    normalise (dir ++ '/' :: name) = normalise dir ++ [name] := by
  rw [normalise_append, List.splitOn_eq_singleton h.slash]
  simp [resolve, h.nonempty, h.dot, h.dots]

theorem within_of_plain {name : List Char} (h : Plain name) (dir : List Char) :
    Within dir (dir ++ '/' :: name) := by
  unfold Within
  rw [normalise_plain h]
  exact ⟨List.prefix_append _ _, by simp⟩

end ResolvedPaths
