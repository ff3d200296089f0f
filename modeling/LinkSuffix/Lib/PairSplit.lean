import Mathlib.Data.List.Basic

/-!
# Splitting at a doubled separator

Pieces between single separators, and a text that is split where two separators follow one another.
Where no piece is empty there is nothing to split.

* `splitOnPair`: the text between the pairs, which are found from the left.
* **`splitOnPair_join`**: a text of pieces stands whole in front of what follows it.
-/

namespace LinkSuffix.Lib

variable {α : Type} [DecidableEq α] {sep : α} {front piece tail : List α} {pieces : List (List α)}

/-- What is in front of the first of some pieces becomes a part of it. -/
def glue (front : List α) : List (List α) → List (List α)
  | [] => [front]
  | piece :: pieces => (front ++ piece) :: pieces

omit [DecidableEq α] in
theorem glue_append (front back : List α) (pieces : List (List α)) :
    glue front (glue back pieces) = glue (front ++ back) pieces := by
  cases pieces with
  | nil => rfl
  | cons piece pieces => simp only [glue, List.append_assoc]

/-- The pieces between doubled separators. -/
def splitOnPair (sep : α) : List α → List (List α)
  | [] => [[]]
  | [a] => [[a]]
  | a :: b :: rest =>
    if a = sep ∧ b = sep then [] :: splitOnPair sep rest else glue [a] (splitOnPair sep (b :: rest))

theorem splitOnPair_pair (sep : α) (rest : List α) :
    splitOnPair sep (sep :: sep :: rest) = [] :: splitOnPair sep rest := by
  rw [splitOnPair, if_pos ⟨rfl, rfl⟩]

/-- An element that is not part of a pair stays where it is. -/
theorem splitOnPair_cons {a : α} {rest : List α} (h : a ≠ sep ∨ rest.head? ≠ some sep) :
    splitOnPair sep (a :: rest) = glue [a] (splitOnPair sep rest) := by
  cases rest with
  | nil => rfl
  | cons b rest =>
    rw [splitOnPair, if_neg]
    rintro ⟨rfl, rfl⟩
    rcases h with h | h
    · exact h rfl
    · exact h rfl

theorem splitOnPair_ne_nil (sep : α) (as : List α) : splitOnPair sep as ≠ [] := by
  induction as using splitOnPair.induct sep with
  | case1 => exact List.cons_ne_nil _ _
  | case2 => exact List.cons_ne_nil _ _
  | case3 a b rest h ih =>
    rw [splitOnPair, if_pos h]
    exact List.cons_ne_nil _ _
  | case4 a b rest h ih =>
    rw [splitOnPair, if_neg h]
    cases splitOnPair sep (b :: rest) with
    | nil => exact List.cons_ne_nil _ _
    | cons first pieces => exact List.cons_ne_nil _ _

theorem splitOnPair_append (hpiece : sep ∉ piece) (tail : List α) :
    splitOnPair sep (piece ++ tail) = glue piece (splitOnPair sep tail) := by
  induction piece with
  | nil =>
    rw [List.nil_append]
    cases h : splitOnPair sep tail with
    | nil => exact absurd h (splitOnPair_ne_nil sep tail)
    | cons first pieces => rfl
  | cons a piece ih =>
    rw [List.mem_cons, not_or] at hpiece
    rw [List.cons_append, splitOnPair_cons (Or.inl (Ne.symm hpiece.1)), ih hpiece.2, glue_append]
    rfl

/-- **A text of pieces that are not empty is not split**: it stands whole in front of what follows. -/
theorem splitOnPair_join (hne : pieces ≠ []) (hpieces : ∀ piece ∈ pieces, piece ≠ [] ∧ sep ∉ piece)
    (tail : List α) :
    splitOnPair sep (List.intercalate [sep] pieces ++ tail) =
      glue (List.intercalate [sep] pieces) (splitOnPair sep tail) := by
  induction pieces with
  | nil => exact absurd rfl hne
  | cons piece pieces ih =>
    have hpiece := hpieces piece List.mem_cons_self
    cases pieces with
    | nil =>
      rw [List.intercalate_singleton]
      exact splitOnPair_append hpiece.2 tail
    | cons next pieces =>
      have hnext := hpieces next (List.mem_cons_of_mem _ List.mem_cons_self)
      have hrest := ih (List.cons_ne_nil next pieces) fun p hp =>
        hpieces p (List.mem_cons_of_mem _ hp)
      -- the separator is followed by the first character of the next piece
      have hhead : (List.intercalate [sep] (next :: pieces) ++ tail).head? ≠ some sep := by
        cases next with
        | nil => exact absurd rfl hnext.1
        | cons a next =>
          rw [List.intercalate_cons_cons_left]
          rintro h
          obtain rfl := Option.some.inj h
          exact hnext.2 List.mem_cons_self
      rw [List.intercalate_cons_cons, List.append_assoc, List.append_assoc,
        splitOnPair_append hpiece.2, List.singleton_append, splitOnPair_cons (Or.inr hhead), hrest,
        glue_append, glue_append]

end LinkSuffix.Lib
