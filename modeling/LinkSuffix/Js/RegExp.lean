import LinkSuffix.Text
import LinkSuffix.Lib.Pattern

/-!
# Pieces of regular expressions

What the regular expressions of the source are written with. Without the `u` flag, `i` folds the
case of ASCII letters alone where the pattern has nothing else.
-/

namespace LinkSuffix.RegExp

open Lib

/-- A text in any case. -/
def word (text : String) : Pattern Char :=
  .chain (text.toList.map fun c => .one fun d => d.toLower == c.toLower)

/-- A text as it is. -/
def literal (text : String) : Pattern Char := .chain (text.toList.map fun c => .one (· == c))

/-- `\s*`. -/
def spaces : Pattern Char := .many isJsSpace

/-- `\w`. -/
def isWordChar (c : Char) : Bool := c.isAlphanum || c == '_'

/-- `\b`. -/
def boundary : Pattern Char :=
  .look fun before after => before.any isWordChar != after.any isWordChar

/-- `$`. -/
def finish : Pattern Char := .look fun _ after => after.isNone

/-- `^`. -/
def start : Pattern Char := .look fun before _ => before.isNone

/-! ## What they match -/

theorem forall₂_spells {β γ δ : Type} [BEq δ] [LawfulBEq δ] {f : β → δ} {g : γ → δ} {word : List β}
    {m : List γ} :
    List.Forall₂ (fun b c => (g c == f b) = true) word m ↔ m.map g = word.map f := by
  have hcomm : ∀ b c, (g c == f b) = true ↔ f b = g c := fun b c => by rw [beq_iff_eq, eq_comm]
  rw [eq_comm, ← List.forall₂_eq_eq_eq, List.forall₂_map_left_iff, List.forall₂_map_right_iff]
  simp only [hcomm]

theorem mem_word {text : String} {s e : Place Char} :
    e ∈ (word text).ends s ↔
      ∃ m, m.map Char.toLower = text.toList.map Char.toLower ∧ s.2 = m ++ e.2 ∧
        e.1 = Pattern.after s.1 m := by
  rw [word, Pattern.mem_chain_ones]
  simp only [forall₂_spells]

theorem mem_literal {text : String} {s e : Place Char} :
    e ∈ (literal text).ends s ↔
      s.2 = text.toList ++ e.2 ∧ e.1 = Pattern.after s.1 text.toList := by
  have hspells : ∀ m : List Char,
      List.Forall₂ (fun b c => (c == b) = true) text.toList m ↔ m = text.toList := by
    intro m
    have h := @forall₂_spells _ _ _ _ _ id id text.toList m
    simpa using h
  rw [literal, Pattern.mem_chain_ones]
  simp only [hspells, exists_eq_left]

theorem mem_boundary {s e : Place Char} :
    e ∈ boundary.ends s ↔ s.1.any isWordChar ≠ s.2.head?.any isWordChar ∧ e = s := by
  rw [boundary, Pattern.mem_look, bne_iff_ne]

theorem mem_spaces {s e : Place Char} :
    e ∈ spaces.ends s ↔
      ∃ m, (∀ c ∈ m, isJsSpace c = true) ∧ s.2 = m ++ e.2 ∧ e.1 = Pattern.after s.1 m := by
  rw [spaces, Pattern.mem_many]

theorem literal_matchAt_none {text : String} {s : Place Char} (h : ¬ text.toList <+: s.2) :
    (literal text).matchAt s = none := by
  rw [Pattern.matchAt_eq, List.head?_eq_none_iff, List.eq_nil_iff_forall_not_mem]
  intro e he
  exact h ⟨e.2, (mem_literal.mp he).1.symm⟩

/-- After a text as it is, the match goes on from there. -/
theorem literal_seq {text : String} {second : Pattern Char} (prev : Option Char)
    (rest : List Char) :
    (Pattern.seq (literal text) second).matchAt (prev, text.toList ++ rest) =
      second.matchAt (Pattern.after prev text.toList, rest) := by
  refine Pattern.seq_matchAt (mem_literal.mpr ⟨rfl, rfl⟩) fun e he => ?_
  obtain ⟨hs, hlast⟩ := mem_literal.mp he
  exact Prod.ext hlast (List.append_cancel_left hs).symm

theorem finish_matchAt (prev : Option Char) (c : Char) (cs : List Char) :
    finish.matchAt (prev, c :: cs) = none := rfl

end LinkSuffix.RegExp
