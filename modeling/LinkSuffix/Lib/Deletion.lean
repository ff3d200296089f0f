import LinkSuffix.Lib.Pattern

/-!
# Deletions

What a pattern deletes from a text, whatever follows the text: so that the deletions from the parts
of a text are those from the whole.

* `UpTo`: a pattern whose matches all end at the first item of a kind. What it matches in a text
  that has such an item does not depend on what follows (`UpTo.append`, `UpTo.of_append`).
* `Deletes`: the pattern deletes these items from the text and no others. `Deletes.flatMap`:
  of texts one after the other.
-/

namespace LinkSuffix.Lib

namespace Pattern

variable {α : Type*} {pattern : Pattern α} {z : α} {word : List α → Prop}

/-! ## Matches up to an item -/

theorem split_first {w w' r r' : List α} (hw : z ∉ w) (hw' : z ∉ w')
    (h : w ++ z :: r = w' ++ z :: r') : w = w' ∧ r = r' := by
  induction w generalizing w' with
  | nil =>
    cases w' with
    | nil => exact ⟨rfl, (List.cons.inj h).2⟩
    | cons a w' => exact absurd ((List.cons.inj h).1 ▸ List.mem_cons_self) hw'
  | cons a w ih =>
    cases w' with
    | nil => exact absurd ((List.cons.inj h).1 ▸ List.mem_cons_self) hw
    | cons a' w' =>
      obtain ⟨rfl, htail⟩ := List.cons.inj h
      obtain ⟨rfl, hr⟩ := ih (fun hz => hw (List.mem_cons_of_mem a hz))
        (fun hz => hw' (List.mem_cons_of_mem a hz)) htail
      exact ⟨rfl, hr⟩

/-- The pattern matches the words of a kind, each of them closed by the first `z` of the text. -/
def UpTo (pattern : Pattern α) (z : α) (word : List α → Prop) : Prop :=
  ∀ s e, e ∈ pattern.ends s ↔ ∃ w, word w ∧ z ∉ w ∧ s.2 = w ++ z :: e.2 ∧ e.1 = some z

/-- Such a pattern has one end at most. -/
theorem UpTo.alone (h : UpTo pattern z word) {s e e' : Place α} (he : e ∈ pattern.ends s)
    (he' : e' ∈ pattern.ends s) : e' = e := by
  obtain ⟨w, -, hw, hs, hlast⟩ := (h s e).mp he
  obtain ⟨w', -, hw', hs', hlast'⟩ := (h s e').mp he'
  obtain ⟨-, hrest⟩ := split_first hw hw' (hs.symm.trans hs')
  exact Prod.ext (hlast'.trans hlast.symm) hrest.symm

theorem UpTo.matchAt_iff (h : UpTo pattern z word) {s e : Place α} :
    pattern.matchAt s = some e ↔
      ∃ w, word w ∧ z ∉ w ∧ s.2 = w ++ z :: e.2 ∧ e.1 = some z := by
  rw [← h]
  constructor
  · exact List.mem_of_mem_head?
  · intro he
    rw [matchAt_eq]
    cases hends : pattern.ends s with
    | nil =>
      rw [hends] at he
      exact absurd he List.not_mem_nil
    | cons e' others =>
      have he' : e' ∈ pattern.ends s := by
        rw [hends]
        exact List.mem_cons_self
      rw [List.head?_cons, h.alone he he']

theorem UpTo.append (h : UpTo pattern z word) {prev : Option α} {items : List α} {e : Place α}
    (he : pattern.matchAt (prev, items) = some e) (prev' : Option α) (rest : List α) :
    pattern.matchAt (prev', items ++ rest) = some (e.1, e.2 ++ rest) := by
  obtain ⟨w, hword, hw, rfl, hlast⟩ := h.matchAt_iff.mp he
  exact h.matchAt_iff.mpr ⟨w, hword, hw, by simp, hlast⟩

/-- What is matched in a text with a `z` is matched before the text is over. -/
theorem UpTo.of_append (h : UpTo pattern z word) {prev : Option α} {items rest : List α}
    {e : Place α} (hz : z ∈ items) (he : pattern.matchAt (prev, items ++ rest) = some e)
    (prev' : Option α) : ∃ e', pattern.matchAt (prev', items) = some e' := by
  obtain ⟨w, hword, hw, hs, -⟩ := h.matchAt_iff.mp he
  obtain ⟨tail, rfl, -⟩ | ⟨tail, rfl, htail⟩ := List.append_eq_append_iff.mp hs
  · exact absurd (List.mem_append_left tail hz) hw
  · cases tail with
    | nil =>
      rw [List.append_nil] at hz
      exact absurd hz hw
    | cons a tail =>
      obtain ⟨rfl, -⟩ := List.cons.inj htail
      exact ⟨(some z, tail), h.matchAt_iff.mpr ⟨w, hword, hw, rfl, rfl⟩⟩

theorem UpTo.mem_of_match (h : UpTo pattern z word) {prev : Option α} {items : List α}
    {e : Place α} (he : pattern.matchAt (prev, items) = some e) : z ∈ items := by
  obtain ⟨w, -, -, hs, -⟩ := h.matchAt_iff.mp he
  rw [show items = w ++ z :: e.2 from hs]
  exact List.mem_append_right w List.mem_cons_self

theorem UpTo.mem_of_searchFrom (h : UpTo pattern z word) {prev : Option α} {items : List α}
    {found : Place α × Place α} (hfound : pattern.searchFrom prev items = some found) :
    z ∈ items := by
  induction items generalizing prev with
  | nil =>
    rw [searchFrom_nil, Option.map_eq_some_iff] at hfound
    obtain ⟨e, he, -⟩ := hfound
    exact h.mem_of_match he
  | cons a as ih =>
    rw [searchFrom_cons, Option.or_eq_some_iff, Option.map_eq_some_iff] at hfound
    obtain ⟨e, he, -⟩ | ⟨-, hlater⟩ := hfound
    · exact h.mem_of_match he
    · exact List.mem_cons_of_mem a (ih hlater)

/-- Where nothing is matched in a text with a `z`, nothing is matched whatever follows. -/
theorem UpTo.none_append (h : UpTo pattern z word) {prev : Option α} {items : List α}
    (hz : z ∈ items) (hnone : pattern.matchAt (prev, items) = none) (prev' : Option α)
    (rest : List α) : pattern.matchAt (prev', items ++ rest) = none := by
  rw [Option.eq_none_iff_forall_ne_some]
  intro e he
  obtain ⟨e', he'⟩ := h.of_append hz he prev
  rw [hnone] at he'
  cases he'

/-- The first match in a text is the first one in the text and what follows. -/
theorem UpTo.searchFrom_append (h : UpTo pattern z word) {prev : Option α} {items : List α}
    {e : Place α} (he : (pattern.searchFrom prev items).map (·.2) = some e) (prev' : Option α)
    (rest : List α) :
    (pattern.searchFrom prev' (items ++ rest)).map (·.2) = some (e.1, e.2 ++ rest) := by
  have hz : z ∈ items := by
    obtain ⟨found, hfound, -⟩ := Option.map_eq_some_iff.mp he
    exact h.mem_of_searchFrom hfound
  induction items generalizing prev prev' with
  | nil => exact absurd hz List.not_mem_nil
  | cons a as ih =>
    rw [searchFrom_cons] at he
    rw [List.cons_append, searchFrom_cons, ← List.cons_append]
    cases hmatch : pattern.matchAt (prev, a :: as) with
    | some e' =>
      rw [hmatch] at he
      obtain rfl := Option.some.inj he
      rw [h.append hmatch prev' rest]
      rfl
    | none =>
      rw [hmatch, Option.map_none, Option.none_or] at he
      rw [h.none_append hz hmatch prev' rest, Option.map_none, Option.none_or]
      obtain ⟨found, hfound, -⟩ := Option.map_eq_some_iff.mp he
      exact ih he _ (h.mem_of_searchFrom hfound)

/-- The first match is the word at the end of the text, where there is none before it. -/
theorem UpTo.searchFrom_last (h : UpTo pattern z word) {prev : Option α} {items w : List α}
    (hnone : pattern.searchFrom prev items = none) (hword : word w) (hw : z ∉ w)
    (hlonger : ∀ items', items' ≠ [] → z ∉ items' → ¬ word (items' ++ w)) (prev' : Option α) :
    (pattern.searchFrom prev' (items ++ w ++ [z])).map (·.2) = some (some z, []) := by
  induction items generalizing prev prev' with
  | nil =>
    have hmatch : ∀ prev, pattern.matchAt (prev, w ++ [z]) = some (some z, []) := fun prev =>
      h.matchAt_iff.mpr ⟨w, hword, hw, rfl, rfl⟩
    rw [List.nil_append]
    cases hw' : w ++ [z] with
    | nil => simp at hw'
    | cons a as =>
      rw [hw'] at hmatch
      rw [searchFrom_cons, hmatch]
      rfl
  | cons a as ih =>
    rw [searchFrom_cons, Option.or_eq_none_iff, Option.map_eq_none_iff] at hnone
    have hlater : pattern.matchAt (prev', a :: as ++ w ++ [z]) = none := by
      by_cases hz : z ∈ a :: as
      · rw [List.append_assoc]
        exact h.none_append hz hnone.1 prev' (w ++ [z])
      · rw [Option.eq_none_iff_forall_ne_some]
        intro e he
        obtain ⟨w', hword', hz', hs, -⟩ := h.matchAt_iff.mp he
        have hzw : z ∉ a :: as ++ w := by
          rw [List.mem_append]
          rintro (hz' | hz')
          · exact hz hz'
          · exact hw hz'
        obtain ⟨rfl, -⟩ := @split_first _ z _ _ [] _ hzw hz' hs
        exact hlonger (a :: as) (List.cons_ne_nil a as) hz hword'
    rw [List.cons_append, List.cons_append, searchFrom_cons, ← List.cons_append,
      ← List.cons_append, hlater, Option.map_none, Option.none_or]
    exact ih hnone.2 _

/-- What matches at the end of a text alone changes nothing about a match before it. -/
theorem searchFrom_alt {other : Pattern α}
    (hother : ∀ prev a as, other.matchAt (prev, a :: as) = none) {prev : Option α}
    {items : List α} {found : Place α × Place α}
    (hfound : pattern.searchFrom prev items = some found) :
    (alt pattern other).searchFrom prev items = some found := by
  induction items generalizing prev with
  | nil =>
    rw [searchFrom_nil, Option.map_eq_some_iff] at hfound
    obtain ⟨e, he, rfl⟩ := hfound
    rw [searchFrom_nil, alt_matchAt, he, Option.some_or, Option.map_some]
  | cons a as ih =>
    rw [searchFrom_cons, Option.or_eq_some_iff] at hfound
    rw [searchFrom_cons, alt_matchAt, hother, Option.or_none]
    obtain hhere | ⟨hnone, hlater⟩ := hfound
    · rw [hhere, Option.some_or]
    · rw [hnone, Option.none_or]
      exact ih hlater

/-! ## Deletions -/

/-- The pattern deletes items of the text, whatever follows it, and leaves `left`. The first `skip`
items belong to the match before. -/
inductive Deletes (pattern : Pattern α) : Nat → List α → List α → Prop
  | done : Deletes pattern 0 [] []
  | skip {n : Nat} {a : α} {as left : List α} (h : Deletes pattern n as left) :
      Deletes pattern (n + 1) (a :: as) left
  | keep {a : α} {as left : List α}
      (hmatch : ∀ prev rest, pattern.matchAt (prev, a :: (as ++ rest)) = none)
      (h : Deletes pattern 0 as left) : Deletes pattern 0 (a :: as) (a :: left)
  | drop {n : Nat} {a : α} {as left : List α}
      (hmatch : ∀ prev rest, ∃ last,
        pattern.matchAt (prev, a :: (as ++ rest)) = some (last, as.drop n ++ rest))
      (h : Deletes pattern n as left) : Deletes pattern 0 (a :: as) left

namespace Deletes

variable {n : Nat} {items items' left left' : List α}

theorem le_length (h : Deletes pattern n items left) : n ≤ items.length := by
  induction h with
  | done => exact Nat.le_refl 0
  | skip h ih => exact Nat.succ_le_succ ih
  | keep => exact Nat.zero_le _
  | drop => exact Nat.zero_le _

theorem replaceFrom (h : Deletes pattern n items left) (prev : Option α) :
    pattern.replaceFrom [] prev n items = left := by
  induction h generalizing prev with
  | done => rw [Pattern.replaceFrom]
  | skip h ih =>
    rw [Pattern.replaceFrom]
    exact ih _
  | @keep a as left hmatch h ih =>
    have hnone := hmatch prev []
    rw [List.append_nil] at hnone
    rw [Pattern.replaceFrom, hnone]
    exact congrArg (a :: ·) (ih _)
  | @drop n a as left hmatch h ih =>
    obtain ⟨last, hsome⟩ := hmatch prev []
    rw [List.append_nil, List.append_nil] at hsome
    have hn := h.le_length
    have hskip : as.length - (as.drop n).length = n := by rw [List.length_drop]; omega
    rw [Pattern.replaceFrom, hsome]
    show [] ++ pattern.replaceFrom [] (some a) (as.length - (as.drop n).length) as = left
    rw [hskip]
    exact ih _

theorem replaceAll (h : Deletes pattern 0 items left) : pattern.replaceAll [] items = left :=
  h.replaceFrom none

theorem append (h : Deletes pattern n items left) (h' : Deletes pattern 0 items' left') :
    Deletes pattern n (items ++ items') (left ++ left') := by
  induction h with
  | done => exact h'
  | skip h ih => exact .skip ih
  | @keep a as left hmatch h ih =>
    refine @keep _ _ a (as ++ items') _ (fun prev rest => ?_) ih
    rw [List.append_assoc]
    exact hmatch prev (items' ++ rest)
  | @drop n a as left hmatch h ih =>
    refine @drop _ _ n a (as ++ items') _ (fun prev rest => ?_) ih
    rw [List.append_assoc, List.drop_append_of_le_length h.le_length, List.append_assoc]
    exact hmatch prev (items' ++ rest)

/-- Of texts one after the other. -/
theorem flatMap {ι : Type*} {parts : List ι} {text result : ι → List α}
    (h : ∀ part ∈ parts, Deletes pattern 0 (text part) (result part)) :
    Deletes pattern 0 (parts.flatMap text) (parts.flatMap result) := by
  induction parts with
  | nil => exact .done
  | cons part parts ih =>
    obtain ⟨hpart, hparts⟩ := List.forall_mem_cons.mp h
    exact hpart.append (ih hparts)

/-- A text in which the pattern matches nowhere stays. -/
theorem self (h : ∀ tail, tail ≠ [] → tail <:+ items → ∀ prev rest,
    pattern.matchAt (prev, tail ++ rest) = none) : Deletes pattern 0 items items := by
  induction items with
  | nil => exact .done
  | cons a as ih =>
    refine .keep (h (a :: as) (List.cons_ne_nil a as) (List.suffix_refl _)) (ih ?_)
    intro tail hne htail
    exact h tail hne (htail.trans (List.suffix_cons a as))

/-- A text that is one match goes. -/
theorem whole {a : α} {as : List α}
    (h : ∀ prev rest, ∃ last, pattern.matchAt (prev, a :: (as ++ rest)) = some (last, rest)) :
    Deletes pattern 0 (a :: as) [] := by
  have hskip : ∀ items : List α, Deletes pattern items.length items [] := by
    intro items
    induction items with
    | nil => exact .done
    | cons a as ih => exact .skip ih
  refine .drop (fun prev rest => ?_) (hskip as)
  rw [List.drop_length, List.nil_append]
  exact h prev rest

end Deletes

end Pattern

end LinkSuffix.Lib
