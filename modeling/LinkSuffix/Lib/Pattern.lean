import Mathlib.Data.List.Forall2

/-!
# Patterns

Regular expressions whose only repetitions are those of one item, matched as a backtracking matcher
does: `ends` lists the places where a match can end, in the order they are tried.
-/

namespace LinkSuffix.Lib

variable {α : Type*}

/-- A place in a text: the item before it, and what follows. -/
abbrev Place (α : Type*) := Option α × List α

inductive Pattern (α : Type*) where
  /-- An assertion on the items before and after the place. -/
  | look (f : Option α → Option α → Bool)
  /-- One item of a class. -/
  | one (p : α → Bool)
  | seq (first second : Pattern α)
  | alt (first second : Pattern α)
  /-- As many items of a class as there are. -/
  | many (p : α → Bool)
  /-- As few items of a class as will do. -/
  | few (p : α → Bool)

namespace Pattern

/-- The ends of `few`, the nearest first. -/
def fewEnds (p : α → Bool) : Option α → List α → List (Place α)
  | prev, [] => [(prev, [])]
  | prev, a :: as => (prev, a :: as) :: if p a then fewEnds p (some a) as else []

def ends : Pattern α → Place α → List (Place α)
  | look f, s => if f s.1 s.2.head? then [s] else []
  | one p, s =>
    match s.2 with
    | [] => []
    | a :: as => if p a then [(some a, as)] else []
  | seq first second, s => (first.ends s).flatMap second.ends
  | alt first second, s => first.ends s ++ second.ends s
  | many p, s => (fewEnds p s.1 s.2).reverse
  | few p, s => fewEnds p s.1 s.2

/-- Where a match that begins at the place ends. -/
def matchAt (pattern : Pattern α) (s : Place α) : Option (Place α) := (pattern.ends s).head?

/-- The first place where the pattern matches, and where that match ends. -/
def searchFrom (pattern : Pattern α) : Option α → List α → Option (Place α × Place α)
  | prev, [] => (pattern.matchAt (prev, [])).map ((prev, []), ·)
  | prev, a :: as =>
    match pattern.matchAt (prev, a :: as) with
    | some s => some ((prev, a :: as), s)
    | none => searchFrom pattern (some a) as

def search (pattern : Pattern α) (text : List α) : Option (Place α × Place α) :=
  pattern.searchFrom none text

def test (pattern : Pattern α) (text : List α) : Bool := (pattern.search text).isSome

/-- Nothing. -/
def empty : Pattern α := look fun _ _ => true

/-- One pattern after the other. -/
def chain : List (Pattern α) → Pattern α
  | [] => empty
  | [pattern] => pattern
  | pattern :: patterns => seq pattern (chain patterns)

/-- The first of the patterns that matches. -/
def oneOf : List (Pattern α) → Pattern α
  | [] => look fun _ _ => false
  | [pattern] => pattern
  | pattern :: patterns => alt pattern (oneOf patterns)

/-- The pattern, or nothing. -/
def maybe (pattern : Pattern α) : Pattern α := alt pattern empty

/-- The text with every match replaced, `skip` items after the last one. No match is empty. -/
def replaceFrom (pattern : Pattern α) (insert : List α) : Option α → Nat → List α → List α
  | _, _, [] => []
  | _, skip + 1, a :: as => replaceFrom pattern insert (some a) skip as
  | prev, 0, a :: as =>
    match pattern.matchAt (prev, a :: as) with
    | some s => insert ++ replaceFrom pattern insert (some a) (as.length - s.2.length) as
    | none => a :: replaceFrom pattern insert (some a) 0 as

def replaceAll (pattern : Pattern α) (insert text : List α) : List α :=
  pattern.replaceFrom insert none 0 text

/-- The items of a match. -/
def between (s e : Place α) : List α := s.2.take (s.2.length - e.2.length)

/-! ## Equations -/

section Equations

variable (pattern first second : Pattern α) (p : α → Bool) (prev : Option α) (a : α) (as : List α)
  (s : Place α)

theorem matchAt_eq : pattern.matchAt s = (pattern.ends s).head? := rfl

theorem ends_look (f : Option α → Option α → Bool) :
    (look f).ends s = if f s.1 s.2.head? then [s] else [] := rfl

theorem ends_one_nil : (one p).ends (prev, []) = [] := rfl

theorem ends_one_cons : (one p).ends (prev, a :: as) = if p a then [(some a, as)] else [] := rfl

theorem ends_seq : (seq first second).ends s = (first.ends s).flatMap second.ends := rfl

theorem ends_alt : (alt first second).ends s = first.ends s ++ second.ends s := rfl

theorem ends_many : (many p).ends s = (fewEnds p s.1 s.2).reverse := rfl

theorem ends_few : (few p).ends s = fewEnds p s.1 s.2 := rfl

theorem fewEnds_nil : fewEnds p prev [] = [(prev, [])] := rfl

theorem fewEnds_cons :
    fewEnds p prev (a :: as) = (prev, a :: as) :: if p a then fewEnds p (some a) as else [] := rfl

theorem searchFrom_nil :
    pattern.searchFrom prev [] = (pattern.matchAt (prev, [])).map ((prev, []), ·) := rfl

theorem searchFrom_cons :
    pattern.searchFrom prev (a :: as) =
      ((pattern.matchAt (prev, a :: as)).map ((prev, a :: as), ·)).or
        (pattern.searchFrom (some a) as) := by
  rw [searchFrom]
  cases pattern.matchAt (prev, a :: as) <;> rfl

theorem chain_nil : chain [] = (look fun _ _ => true : Pattern α) := rfl

theorem chain_singleton : chain [pattern] = pattern := rfl

theorem chain_cons_cons (patterns : List (Pattern α)) :
    chain (first :: second :: patterns) = seq first (chain (second :: patterns)) := rfl

theorem oneOf_singleton : oneOf [pattern] = pattern := rfl

theorem oneOf_cons_cons (patterns : List (Pattern α)) :
    oneOf (first :: second :: patterns) = alt first (oneOf (second :: patterns)) := rfl

end Equations

/-! ## Ends -/

/-- The item before the place that follows the items. -/
def after (prev : Option α) (items : List α) : Option α := items.getLast?.or prev

theorem after_append (prev : Option α) (items items' : List α) :
    after prev (items ++ items') = after (after prev items) items' := by
  simp [after, List.getLast?_append, Option.or_assoc]

theorem mem_one {p : α → Bool} {s e : Place α} :
    e ∈ (one p).ends s ↔ ∃ a, p a = true ∧ s.2 = a :: e.2 ∧ e.1 = some a := by
  obtain ⟨prev, _ | ⟨a, as⟩⟩ := s
  · simp [ends_one_nil]
  · by_cases ha : p a = true
    · simp only [ends_one_cons, ha, if_true, List.mem_singleton, List.cons.injEq, Prod.ext_iff]
      constructor
      · rintro ⟨he, rfl⟩
        exact ⟨a, ha, ⟨rfl, rfl⟩, he⟩
      · rintro ⟨b, -, ⟨rfl, rfl⟩, he⟩
        exact ⟨he, rfl⟩
    · simp only [ends_one_cons, if_neg ha, List.not_mem_nil, false_iff]
      rintro ⟨b, hb, hs, -⟩
      cases hs
      exact ha hb

theorem mem_chain_cons {pattern : Pattern α} {patterns : List (Pattern α)} {s e : Place α} :
    e ∈ (chain (pattern :: patterns)).ends s ↔
      ∃ e' ∈ pattern.ends s, e ∈ (chain patterns).ends e' := by
  cases patterns with
  | nil => simp [chain_singleton, chain_nil, ends_look]
  | cons next rest => simp [chain_cons_cons, ends_seq]

theorem mem_chain_nil {s e : Place α} : e ∈ (chain []).ends s ↔ e = s := by
  simp [chain_nil, ends_look]

/-- A chain of single items matches the texts they spell. -/
theorem mem_chain_ones {β : Type*} {p : β → α → Bool} {word : List β} {s e : Place α} :
    e ∈ (chain (word.map fun b => one (p b))).ends s ↔
      ∃ m, List.Forall₂ (fun b a => p b a = true) word m ∧ s.2 = m ++ e.2 ∧
        e.1 = after s.1 m := by
  induction word generalizing s with
  | nil =>
    rw [List.map_nil, mem_chain_nil]
    constructor
    · rintro rfl
      exact ⟨[], .nil, rfl, rfl⟩
    · rintro ⟨m, hm, hs, he⟩
      cases hm
      exact Prod.ext he hs.symm
  | cons b word ih =>
    rw [List.map_cons, mem_chain_cons]
    constructor
    · rintro ⟨e', he', he⟩
      obtain ⟨a, ha, hs, hlast⟩ := mem_one.mp he'
      obtain ⟨m, hm, hs', hlast'⟩ := ih.mp he
      refine ⟨a :: m, .cons ha hm, by rw [hs, hs', List.cons_append], ?_⟩
      rw [hlast', hlast]
      exact (after_append s.1 [a] m).symm
    · rintro ⟨_, hm, hs, hlast⟩
      obtain _ | ⟨ha, hm⟩ := hm
      rename_i a m
      refine ⟨(some a, m ++ e.2), mem_one.mpr ⟨a, ha, hs, rfl⟩, ih.mpr ⟨m, hm, rfl, ?_⟩⟩
      rw [hlast]
      exact after_append s.1 [a] m

theorem mem_fewEnds {p : α → Bool} {prev : Option α} {items : List α} {e : Place α} :
    e ∈ fewEnds p prev items ↔
      ∃ m, (∀ a ∈ m, p a = true) ∧ items = m ++ e.2 ∧ e.1 = after prev m := by
  induction items generalizing prev with
  | nil =>
    rw [fewEnds_nil, List.mem_singleton]
    constructor
    · rintro rfl
      exact ⟨[], by simp, rfl, rfl⟩
    · rintro ⟨m, -, hm, he⟩
      obtain ⟨rfl, hrest⟩ := List.append_eq_nil_iff.mp hm.symm
      exact Prod.ext he hrest
  | cons a as ih =>
    rw [fewEnds_cons, List.mem_cons]
    constructor
    · rintro (rfl | he)
      · exact ⟨[], by simp, rfl, rfl⟩
      · split at he
        case isTrue ha =>
          obtain ⟨m, hm, hs, hlast⟩ := ih.mp he
          refine ⟨a :: m, List.forall_mem_cons.mpr ⟨ha, hm⟩, by rw [hs, List.cons_append], ?_⟩
          rw [hlast]
          exact (after_append prev [a] m).symm
        case isFalse => exact absurd he List.not_mem_nil
    · rintro ⟨m, hm, hs, hlast⟩
      cases m with
      | nil => exact .inl (Prod.ext hlast hs.symm)
      | cons b m =>
        obtain ⟨rfl, rfl⟩ := List.cons.inj hs
        obtain ⟨ha, hm⟩ := List.forall_mem_cons.mp hm
        rw [if_pos ha]
        exact .inr (ih.mpr ⟨m, hm, rfl, by rw [hlast]; exact after_append prev [a] m⟩)

theorem mem_many {p : α → Bool} {s e : Place α} :
    e ∈ (many p).ends s ↔
      ∃ m, (∀ a ∈ m, p a = true) ∧ s.2 = m ++ e.2 ∧ e.1 = after s.1 m := by
  rw [ends_many, List.mem_reverse, mem_fewEnds]

theorem mem_look {f : Option α → Option α → Bool} {s e : Place α} :
    e ∈ (look f).ends s ↔ f s.1 s.2.head? = true ∧ e = s := by
  rw [ends_look]
  split
  case isTrue h => simp [h]
  case isFalse h => simp [h]

/-- What follows a match is the end of what there was. -/
theorem ends_suffix {pattern : Pattern α} {s e : Place α} (h : e ∈ pattern.ends s) :
    e.2 <:+ s.2 := by
  induction pattern generalizing s e with
  | look f => exact (mem_look.mp h).2 ▸ List.suffix_refl _
  | one p =>
    obtain ⟨a, -, hs, -⟩ := mem_one.mp h
    exact ⟨[a], hs.symm⟩
  | seq first second ihfirst ihsecond =>
    obtain ⟨e', he', he⟩ := List.mem_flatMap.mp h
    exact (ihsecond he).trans (ihfirst he')
  | alt first second ihfirst ihsecond =>
    obtain h | h := List.mem_append.mp h
    · exact ihfirst h
    · exact ihsecond h
  | many p =>
    obtain ⟨m, -, hs, -⟩ := mem_many.mp h
    exact ⟨m, hs.symm⟩
  | few p =>
    obtain ⟨m, -, hs, -⟩ := mem_fewEnds.mp h
    exact ⟨m, hs.symm⟩

theorem matchAt_suffix {pattern : Pattern α} {s e : Place α} (h : pattern.matchAt s = some e) :
    e.2 <:+ s.2 :=
  ends_suffix (List.mem_of_mem_head? h)

/-- After a pattern with one end, the match goes on from there. -/
theorem seq_matchAt {first second : Pattern α} {s e : Place α} (he : e ∈ first.ends s)
    (halone : ∀ e' ∈ first.ends s, e' = e) :
    (seq first second).matchAt s = second.matchAt e := by
  rw [matchAt_eq, ends_seq, matchAt_eq]
  cases hends : first.ends s with
  | nil =>
    rw [hends] at he
    exact absurd he List.not_mem_nil
  | cons e' others =>
    rw [hends] at halone
    obtain rfl := halone e' List.mem_cons_self
    rw [List.flatMap_cons, List.head?_append]
    cases hsecond : second.ends e' with
    | cons => rfl
    | nil =>
      rw [List.head?_nil, Option.none_or, List.head?_eq_none_iff, List.flatMap_eq_nil_iff]
      intro other hother
      rw [halone other (List.mem_cons_of_mem e' hother), hsecond]

theorem seq_matchAt_none {first second : Pattern α} {s : Place α} (h : first.matchAt s = none) :
    (seq first second).matchAt s = none := by
  rw [matchAt_eq, List.head?_eq_none_iff] at h ⊢
  rw [ends_seq, h, List.flatMap_nil]

theorem alt_matchAt (first second : Pattern α) (s : Place α) :
    (alt first second).matchAt s = (first.matchAt s).or (second.matchAt s) := by
  rw [matchAt_eq, ends_alt, List.head?_append]
  rfl

theorem oneOf_matchAt (patterns : List (Pattern α)) (s : Place α) :
    (oneOf patterns).matchAt s = patterns.findSome? (·.matchAt s) := by
  induction patterns with
  | nil => rfl
  | cons pattern patterns ih =>
    cases patterns with
    | nil =>
      rw [oneOf_singleton, List.findSome?_cons]
      cases pattern.matchAt s <;> rfl
    | cons next others =>
      rw [oneOf_cons_cons, alt_matchAt, ih, List.findSome?_cons (a := pattern)]
      cases pattern.matchAt s <;> rfl

/-- Where a pattern is not found it matches at no place. -/
theorem matchAt_none_of_searchFrom {pattern : Pattern α} {prev : Option α}
    {items tail : List α} (h : pattern.searchFrom prev items = none) (htail : tail <:+ items) :
    ∃ prev', pattern.matchAt (prev', tail) = none := by
  induction items generalizing prev with
  | nil =>
    rw [searchFrom_nil, Option.map_eq_none_iff] at h
    rw [List.suffix_nil.mp htail]
    exact ⟨prev, h⟩
  | cons a as ih =>
    rw [searchFrom_cons, Option.or_eq_none_iff, Option.map_eq_none_iff] at h
    obtain rfl | htail := List.suffix_cons_iff.mp htail
    · exact ⟨prev, h.1⟩
    · exact ih h.2 htail

/-- As few items as will do before a pattern lead to its first match. -/
theorem few_matchAt (stop : Pattern α) (prev : Option α) (items : List α) :
    (seq (few fun _ => true) stop).matchAt (prev, items) =
      (stop.searchFrom prev items).map (·.2) := by
  induction items generalizing prev with
  | nil =>
    rw [matchAt_eq, ends_seq, ends_few, fewEnds_nil, List.flatMap_singleton, searchFrom_nil,
      ← matchAt_eq]
    cases stop.matchAt (prev, []) <;> rfl
  | cons a as ih =>
    have hrest := ih (some a)
    rw [matchAt_eq, ends_seq, ends_few] at hrest
    rw [matchAt_eq, ends_seq, ends_few, fewEnds_cons, if_pos rfl, List.flatMap_cons,
      List.head?_append, hrest, searchFrom_cons, ← matchAt_eq]
    cases stop.matchAt (prev, a :: as) <;> rfl

end Pattern

end LinkSuffix.Lib
