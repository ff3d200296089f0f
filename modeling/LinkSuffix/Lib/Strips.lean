import Mathlib.Data.List.Basic

/-!
# Lists up to blanks

`Strips blank p q`: `q` is `p` without some of its blanks. What a reader does at separators that are
not blanks, it does to both lists alike.
-/

namespace LinkSuffix.Lib

variable {α : Type*} {blank : α → Prop} {p q r : List α}

/-- `q` is `p` without some of its blanks. -/
inductive Strips (blank : α → Prop) : List α → List α → Prop
  | nil : Strips blank [] []
  | keep (a : α) {p q : List α} (h : Strips blank p q) : Strips blank (a :: p) (a :: q)
  | strip {a : α} (ha : blank a) {p q : List α} (h : Strips blank p q) : Strips blank (a :: p) q

namespace Strips

theorem refl (p : List α) : Strips blank p p := by
  induction p with
  | nil => exact .nil
  | cons a p ih => exact .keep a ih

theorem trans (h : Strips blank p q) (k : Strips blank q r) : Strips blank p r := by
  induction h generalizing r with
  | nil => exact k
  | keep a h ih =>
    cases k with
    | keep _ k => exact .keep a (ih k)
    | strip ha k => exact .strip ha (ih k)
  | strip ha h ih => exact .strip ha (ih k)

theorem append {p' q' : List α} (h : Strips blank p q) (k : Strips blank p' q') :
    Strips blank (p ++ p') (q ++ q') := by
  induction h with
  | nil => exact k
  | keep a h ih => exact .keep a ih
  | strip ha h ih => exact .strip ha ih

theorem reverse (h : Strips blank p q) : Strips blank p.reverse q.reverse := by
  induction h with
  | nil => exact .nil
  | keep a h ih =>
    rw [List.reverse_cons, List.reverse_cons]
    exact ih.append (refl [a])
  | strip ha h ih =>
    rw [List.reverse_cons]
    simpa using ih.append (.strip ha .nil)

theorem of_dropWhile {f : α → Bool} (hf : ∀ a, f a = true → blank a) (p : List α) :
    Strips blank p (p.dropWhile f) := by
  induction p with
  | nil => exact .nil
  | cons a p ih =>
    by_cases ha : f a = true
    · rw [List.dropWhile_cons_of_pos ha]
      exact .strip (hf a ha) ih
    · rw [List.dropWhile_cons_of_neg ha]
      exact refl (a :: p)

theorem of_filter {f : α → Bool} (hf : ∀ a, f a = false → blank a) (p : List α) :
    Strips blank p (p.filter f) := by
  induction p with
  | nil => exact .nil
  | cons a p ih =>
    cases ha : f a with
    | true =>
      rw [List.filter_cons_of_pos ha]
      exact .keep a ih
    | false =>
      rw [List.filter_cons_of_neg (by simp [ha])]
      exact .strip (hf a ha) ih

/-- A list without blanks is left as it is. -/
theorem eq_of_noBlank (h : Strips blank p q) (hp : ∀ a ∈ p, ¬blank a) : q = p := by
  induction h with
  | nil => rfl
  | keep a h ih => rw [ih fun b hb => hp b (List.mem_cons_of_mem a hb)]
  | strip ha h ih => exact absurd ha (hp _ List.mem_cons_self)

section Separator

variable [DecidableEq α] {sep : α}

theorem takeWhile_ne (hsep : ¬blank sep) (h : Strips blank p q) :
    Strips blank (p.takeWhile (· ≠ sep)) (q.takeWhile (· ≠ sep)) := by
  induction h with
  | nil => exact .nil
  | keep a h ih =>
    by_cases ha : a = sep
    · simp only [List.takeWhile_cons, ha, ne_eq, not_true_eq_false, decide_false,
        Bool.false_eq_true, if_false]
      exact .nil
    · simp only [List.takeWhile_cons, ha, ne_eq, not_false_eq_true, decide_true, if_true]
      exact .keep a ih
  | @strip a ha p q h ih =>
    have hne : a ≠ sep := fun heq => hsep (heq ▸ ha)
    rw [List.takeWhile_cons_of_pos (by simpa using hne)]
    exact .strip ha ih

/-- What follows the first separator. -/
theorem after (hsep : ¬blank sep) (h : Strips blank p q) :
    Strips blank ((p.dropWhile (· ≠ sep)).drop 1) ((q.dropWhile (· ≠ sep)).drop 1) := by
  induction h with
  | nil => exact .nil
  | keep a h ih =>
    by_cases ha : a = sep
    · simpa only [List.dropWhile_cons, ha, ne_eq, not_true_eq_false, decide_false,
        Bool.false_eq_true, if_false, List.drop_succ_cons, List.drop_zero] using h
    · simpa only [List.dropWhile_cons, ha, ne_eq, not_false_eq_true, decide_true, if_true] using ih
  | @strip a ha p q h ih =>
    have hne : a ≠ sep := fun heq => hsep (heq ▸ ha)
    rwa [List.dropWhile_cons_of_pos (by simpa using hne)]

end Separator

end Strips

end LinkSuffix.Lib
