import LinkSuffix.Lib.Deletion
import LinkSuffix.Worker.ChallengeBody
import Mathlib.Algebra.Order.BigOperators.Group.List
import Mathlib.Data.List.Flatten

/-!
# Inert markup

Which part of a document decides whether its body is a challenge: the text without its comments and
without its scripts, styles and templates, as long as the delimiters of the one do not stand inside
the other.

* `Item`, `render`, `deleted`: a document and what is left of it without its inert items.
* `intact`: the comments that begin in a tag or an element end there, and leave it whole.
* `stripped_intact`: of such a document `stripped` leaves the text without the inert items.
* `intact_agrees`: then they do not decide the verdict. `opener_hides_gate`: a comment that begins
  in a script does.
-/

namespace LinkSuffix.ChallengeBody

open Lib RegExp Pattern

/-! ## Documents -/

/-- A name in any case. -/
def Spells (name : String) (spelled : List Char) : Prop :=
  spelled.map Char.toLower = name.toList.map Char.toLower

/-- Character data. -/
structure Text where
  chars : List Char
  noTag : '<' ∉ chars

structure Comment where
  content : List Char
  noEnd : (literal "-->").search content = none

def Comment.chars (c : Comment) : List Char := "<!--".toList ++ (c.content ++ "-->".toList)

/-- A tag that opens neither a comment nor an inert element. -/
structure Tag where
  content : List Char
  noEnd : '>' ∉ content
  noComment : ¬ "!--".toList <+: content
  noElement : ∀ name ∈ inert, (opening name).matchAt (none, '<' :: (content ++ ['>'])) = none

def Tag.chars (t : Tag) : List Char := '<' :: (t.content ++ ['>'])

/-- A complete script, style or template. -/
structure Element where
  name : String
  isInert : name ∈ inert
  opened : List Char
  opened_spells : Spells name opened
  attributes : List Char
  attributes_apart : attributes.head?.any isWordChar = false
  attributes_noEnd : '>' ∉ attributes
  content : List Char
  content_noEnd : (closing name).search content = none
  closed : List Char
  closed_spells : Spells name closed
  blanks : List Char
  blanks_blank : ∀ c ∈ blanks, isJsSpace c = true

/-- The opening tag of an element, without its `>`. -/
def Element.head (e : Element) : List Char := '<' :: (e.opened ++ e.attributes)

/-- The closing tag of an element, without its `>`. -/
def Element.foot (e : Element) : List Char := '<' :: '/' :: (e.closed ++ e.blanks)

def Element.chars (e : Element) : List Char := e.head ++ '>' :: (e.content ++ e.foot ++ ['>'])

inductive Item
  | text (t : Text)
  | tag (t : Tag)
  | comment (c : Comment)
  | element (e : Element)

def Item.chars : Item → List Char
  | .text t => t.chars
  | .tag t => t.chars
  | .comment c => c.chars
  | .element e => e.chars

/-- The item is on the page. -/
def Item.visible : Item → Bool
  | .text _ | .tag _ => true
  | .comment _ | .element _ => false

def render (doc : List Item) : List Char := doc.flatMap Item.chars

/-- The text with all comments and script, style and template elements deleted. -/
def deleted (doc : List Item) : List Char := render (doc.filter Item.visible)

/-! ## Delimiters -/

/-- `<!--[\s\S]*?-->`. -/
def completeComment : Pattern Char := .chain [literal "<!--", anything, literal "-->"]

/-- Every comment that begins in the text ends in it, `skip` characters after the last one. -/
def closesFrom : Nat → List Char → Bool
  | 0, [] => true
  | _ + 1, [] => false
  | skip + 1, _ :: cs => closesFrom skip cs
  | 0, c :: cs =>
    if "<!--".toList.isPrefixOf (c :: cs) then
      match completeComment.matchAt (none, c :: cs) with
      | some e => closesFrom (cs.length - e.2.length) cs
      | none => false
    else closesFrom 0 cs

/-- The text is an opening tag, content and the first closing tag after it. -/
def enclosed (name : String) (html : List Char) : Bool :=
  match (opening name).matchAt (none, html) with
  | some e => (((closing name).searchFrom e.1 e.2).map (·.2)).any (·.2.isEmpty)
  | none => false

/-- No comment begins in a tag and no inert element opens in it. Every comment that begins in an
element ends in it, and without its comments it is still enclosed by its tags. -/
def Item.intact : Item → Bool
  | .text _ | .comment _ => true
  | .tag t =>
    !(literal "<!--").test t.chars && inert.all fun name => !(opening name).test t.chars
  | .element e => closesFrom 0 e.chars && enclosed e.name (uncommented e.chars)

/-! ## Tags -/

theorem isAlpha_of_toLower {c : Char} (h : c.toLower.isLower = true) : c.isAlpha = true := by
  refine ascii_cases (P := fun c => c.toLower.isLower = true → c.isAlpha = true) ?_ ?_ c h
  · decide
  · intro d hd hlower
    rw [(wide_case hd).1, (wide_classes hd).2.1] at hlower
    cases hlower

theorem isWordChar_of_isAlpha {c : Char} (h : c.isAlpha = true) : isWordChar c = true := by
  simp [isWordChar, Char.isAlphanum, h]

/-- The name of an inert element has letters only. -/
theorem inert_letters {name : String} (hname : name ∈ inert) {n : List Char}
    (hn : Spells name n) : n ≠ [] ∧ ∀ c ∈ n, c.isAlpha = true := by
  have hlower : ∀ name ∈ inert, name.toList.map Char.toLower ≠ [] ∧
      ∀ c ∈ name.toList.map Char.toLower, c.isLower = true := by decide
  obtain ⟨hne, hletters⟩ := hlower name hname
  rw [← show n.map Char.toLower = _ from hn] at hne hletters
  refine ⟨fun hnil => hne (List.map_eq_nil_iff.mpr hnil), fun c hc => ?_⟩
  exact isAlpha_of_toLower (hletters c.toLower (List.mem_map_of_mem hc))

theorem inert_noMark {name : String} (hname : name ∈ inert) {n : List Char} (hn : Spells name n)
    {c : Char} (hc : c.isAlpha = false) : c ∉ n := by
  intro hmem
  rw [(inert_letters hname hn).2 c hmem] at hc
  cases hc

/-- After the name of an inert element stands a letter. -/
theorem after_name {name : String} (hname : name ∈ inert) {n : List Char} (hn : Spells name n)
    (prev : Option Char) : (after prev n).any isWordChar = true := by
  obtain ⟨hne, hletters⟩ := inert_letters hname hn
  rw [after, List.getLast?_eq_some_getLast hne, Option.some_or]
  exact isWordChar_of_isAlpha (hletters _ (List.getLast_mem hne))

/-- `<name` and attributes, apart from the name. -/
def Opens (name : String) (w : List Char) : Prop :=
  ∃ n attributes, Spells name n ∧ attributes.head?.any isWordChar = false ∧
    w = '<' :: (n ++ attributes)

/-- `</name` and blanks. -/
def Closes (name : String) (w : List Char) : Prop :=
  ∃ n blanks, Spells name n ∧ (∀ c ∈ blanks, isJsSpace c = true) ∧
    w = '<' :: '/' :: (n ++ blanks)

theorem opening_upTo {name : String} (hname : name ∈ inert) :
    UpTo (opening name) '>' (Opens name) := by
  intro s e
  simp only [opening, mem_chain_cons, mem_chain_nil, mem_literal, mem_word, mem_boundary, mem_many]
  constructor
  · rintro ⟨e₁, ⟨h₁, -⟩, e₂, ⟨n, hn, h₂, hlast⟩, _, ⟨hapart, rfl⟩, e₄, ⟨attributes, hattributes, h₄,
      -⟩, _, ⟨h₅, hend⟩, rfl⟩
    rw [hlast, after_name hname hn, h₄, h₅] at hapart
    refine ⟨'<' :: (n ++ attributes), ⟨n, attributes, hn, ?_, rfl⟩, ?_, ?_, hend⟩
    · cases attributes with
      | nil => rfl
      | cons c attributes => exact Bool.eq_false_iff.mpr hapart.symm
    · rw [List.mem_cons, List.mem_append]
      rintro (h | h | h)
      · cases h
      · exact inert_noMark hname hn rfl h
      · exact absurd (hattributes '>' h) (by decide)
    · rw [h₁, h₂, h₄, h₅]
      simp
  · rintro ⟨_, ⟨n, attributes, hn, hapart, rfl⟩, hnoEnd, hs, hend⟩
    refine ⟨(some '<', n ++ attributes ++ '>' :: e.2), ⟨hs, rfl⟩,
      (after (some '<') n, attributes ++ '>' :: e.2), ⟨n, hn, ?_, rfl⟩, _, ⟨?_, rfl⟩,
      (after (after (some '<') n) attributes, '>' :: e.2), ⟨attributes, ?_, rfl, rfl⟩,
      e, ⟨rfl, hend⟩, rfl⟩
    · exact List.append_assoc n attributes _
    · rw [after_name hname hn]
      cases attributes with
      | nil => exact nofun
      | cons c attributes => exact fun h => Bool.eq_false_iff.mp hapart h.symm
    · intro c hc
      rw [inTag, bne_iff_ne]
      rintro rfl
      exact hnoEnd (by simp [hc])

theorem closing_upTo {name : String} (hname : name ∈ inert) :
    UpTo (closing name) '>' (Closes name) := by
  intro s e
  simp only [closing, mem_chain_cons, mem_chain_nil, mem_literal, mem_word, mem_spaces]
  constructor
  · rintro ⟨e₁, ⟨h₁, -⟩, e₂, ⟨n, hn, h₂, -⟩, e₃, ⟨blanks, hblanks, h₃, -⟩, _, ⟨h₄, hend⟩, rfl⟩
    refine ⟨'<' :: '/' :: (n ++ blanks), ⟨n, blanks, hn, hblanks, rfl⟩, ?_, ?_, hend⟩
    · rw [List.mem_cons, List.mem_cons, List.mem_append]
      rintro (h | h | h | h)
      · cases h
      · cases h
      · exact inert_noMark hname hn rfl h
      · exact absurd (hblanks '>' h) (by decide)
    · rw [h₁, h₂, h₃, h₄]
      simp
  · rintro ⟨_, ⟨n, blanks, hn, hblanks, rfl⟩, -, hs, hend⟩
    refine ⟨(some '/', n ++ blanks ++ '>' :: e.2), ⟨hs, rfl⟩,
      (after (some '/') n, blanks ++ '>' :: e.2), ⟨n, hn, List.append_assoc n blanks _, rfl⟩,
      (after (after (some '/') n) blanks, '>' :: e.2), ⟨blanks, hblanks, rfl, rfl⟩,
      e, ⟨rfl, hend⟩, rfl⟩

theorem commentEnd_upTo : UpTo (literal "-->") '>' (· = ['-', '-']) := by
  intro s e
  rw [mem_literal]
  constructor
  · rintro ⟨hs, hend⟩
    exact ⟨['-', '-'], rfl, by decide, hs, hend⟩
  · rintro ⟨_, rfl, -, hs, hend⟩
    exact ⟨hs, hend⟩

/-! ## Comments -/

theorem comment_matchAt_none {prev : Option Char} {cs : List Char}
    (h : ¬ "<!--".toList <+: cs) : comment.matchAt (prev, cs) = none :=
  seq_matchAt_none (literal_matchAt_none h)

/-- A text that is not found in another begins at no place of it. -/
theorem literal_notPrefix {text : String} {cs tail : List Char}
    (h : (literal text).search cs = none) (htail : tail <:+ cs) : ¬ text.toList <+: tail := by
  rintro ⟨rest, rfl⟩
  obtain ⟨prev, hmatch⟩ := matchAt_none_of_searchFrom h htail
  rw [matchAt_eq, List.head?_eq_none_iff] at hmatch
  exact List.eq_nil_iff_forall_not_mem.mp hmatch (after prev text.toList, rest)
    (mem_literal.mpr ⟨rfl, rfl⟩)

/-- A comment begins where the text does not go on with `<!--` only if it is over before. -/
theorem commentStart_append {cs rest : List Char} (hend : '>' ∈ cs)
    (h : ¬ "<!--".toList <+: cs) : ¬ "<!--".toList <+: cs ++ rest := by
  intro hstart
  obtain hcs | hcs := List.prefix_or_prefix_of_prefix hstart (List.prefix_append cs rest)
  · exact h hcs
  · exact absurd (hcs.subset hend) (by decide)

/-- A comment that ends in the text ends there whatever follows. -/
theorem comment_matchAt {prev : Option Char} {cs : List Char} {e : Place Char}
    (h : completeComment.matchAt (prev, cs) = some e) :
    (∃ body, cs = "<!--".toList ++ body ∧ e.2 <:+ body) ∧
      ∀ prev' rest, comment.matchAt (prev', cs ++ rest) = some (e.1, e.2 ++ rest) := by
  by_cases hstart : "<!--".toList <+: cs
  · obtain ⟨body, rfl⟩ := hstart
    rw [completeComment, chain_cons_cons, literal_seq] at h
    refine ⟨⟨body, rfl, matchAt_suffix h⟩, fun prev' rest => ?_⟩
    rw [chain_cons_cons, chain_singleton, anything, few_matchAt] at h
    have hfound := commentEnd_upTo.searchFrom_append h (after prev' "<!--".toList) rest
    obtain ⟨found, hsearch, he⟩ := Option.map_eq_some_iff.mp hfound
    rw [comment, chain_cons_cons, List.append_assoc, literal_seq, chain_cons_cons,
      chain_singleton, anything, few_matchAt, searchFrom_alt finish_matchAt hsearch,
      Option.map_some, he]
  · rw [completeComment, chain_cons_cons, seq_matchAt_none (literal_matchAt_none hstart)] at h
    cases h

/-- What is deleted as comments from a text whose comments end in it. -/
theorem deletes_comments {n : Nat} {cs : List Char} (h : closesFrom n cs = true)
    (hend : ∀ tail, tail ≠ [] → tail <:+ cs → '>' ∈ tail) :
    ∃ left, Deletes comment n cs left := by
  have hrest : ∀ c (cs : List Char), (∀ tail, tail ≠ [] → tail <:+ c :: cs → '>' ∈ tail) →
      ∀ tail, tail ≠ [] → tail <:+ cs → '>' ∈ tail := fun c cs hend tail hne htail =>
    hend tail hne (htail.trans (List.suffix_cons c cs))
  fun_induction closesFrom n cs with
  | case1 => exact ⟨[], .done⟩
  | case2 => cases h
  | case3 skip c cs ih =>
    obtain ⟨left, hleft⟩ := ih h (hrest c cs hend)
    exact ⟨left, .skip hleft⟩
  | case4 c cs hstart e he ih =>
    obtain ⟨left, hleft⟩ := ih h (hrest c cs hend)
    refine ⟨left, .drop (fun prev rest => ⟨e.1, ?_⟩) hleft⟩
    obtain ⟨⟨body, hcs, hsuffix⟩, hmatch⟩ := comment_matchAt he
    have htail : e.2 <:+ cs := by
      obtain ⟨-, rfl⟩ := List.cons.inj hcs
      exact hsuffix.trans (List.suffix_append _ body)
    rw [← List.cons_append, hmatch, ← List.suffix_iff_eq_drop.mp htail]
  | case5 => cases h
  | case6 c cs hstart ih =>
    obtain ⟨left, hleft⟩ := ih h (hrest c cs hend)
    refine ⟨c :: left, .keep (fun prev rest => comment_matchAt_none ?_) hleft⟩
    exact commentStart_append (hend (c :: cs) (List.cons_ne_nil c cs) (List.suffix_refl _))
      fun hprefix => hstart (List.isPrefixOf_iff_prefix.mpr hprefix)

/-! ## Elements -/

/-- The scripts, styles and templates. -/
def inertElement : Pattern Char := .oneOf (inert.map element)

theorem inertElement_matchAt_none {s : Place Char}
    (h : ∀ name ∈ inert, (opening name).matchAt s = none) : inertElement.matchAt s = none := by
  rw [inertElement, oneOf_matchAt, List.findSome?_eq_none_iff]
  intro pattern hpattern
  obtain ⟨name, hname, rfl⟩ := List.mem_map.mp hpattern
  exact seq_matchAt_none (h name hname)

/-- The letters at the start of a text whose rest is apart from them. -/
theorem takeWhile_name {name : String} (hname : name ∈ inert) {n attributes : List Char}
    (hn : Spells name n) (hapart : attributes.head?.any isWordChar = false) :
    (n ++ attributes).takeWhile isWordChar = n := by
  have hletters := (inert_letters hname hn).2
  rw [List.takeWhile_append_of_pos fun c hc => isWordChar_of_isAlpha (hletters c hc)]
  cases attributes with
  | nil => simp
  | cons c attributes =>
    have hc : ¬ isWordChar c = true := Bool.eq_false_iff.mp hapart
    rw [List.takeWhile_cons_of_neg hc, List.append_nil]

/-- One name opens at a place. -/
theorem opens_unique {name name' : String} (hname : name ∈ inert) (hname' : name' ∈ inert)
    {w : List Char} (h : Opens name w) (h' : Opens name' w) : name = name' := by
  have hnames : ∀ name ∈ inert, ∀ name' ∈ inert,
      name.toList.map Char.toLower = name'.toList.map Char.toLower → name = name' := by decide
  obtain ⟨n, attributes, hn, hapart, rfl⟩ := h
  obtain ⟨n', attributes', hn', hapart', hw⟩ := h'
  have hsame : n = n' := by
    rw [← takeWhile_name hname hn hapart, (List.cons.inj hw).2, takeWhile_name hname' hn' hapart']
  subst hsame
  exact hnames name hname name' hname' (hn.symm.trans hn')

theorem findSome?_of_alone {ι β : Type} {f : ι → Option β} {l : List ι} {a : ι} {b : β}
    (ha : a ∈ l) (hb : f a = some b) (halone : ∀ a' ∈ l, a' ≠ a → f a' = none) :
    l.findSome? f = some b := by
  cases hfound : l.findSome? f with
  | none =>
    rw [List.findSome?_eq_none_iff.mp hfound a ha] at hb
    cases hb
  | some b' =>
    obtain ⟨a', ha', hb'⟩ := List.exists_of_findSome?_eq_some hfound
    by_cases hsame : a' = a
    · rw [← hb', hsame, hb]
    · rw [halone a' ha' hsame] at hb'
      cases hb'

/-- Where an inert element opens, it is the match. -/
theorem inertElement_matchAt {name : String} (hname : name ∈ inert) {s e e' : Place Char}
    (hopening : (opening name).matchAt s = some e) (h : (element name).matchAt s = some e') :
    inertElement.matchAt s = some e' := by
  rw [inertElement, oneOf_matchAt, List.findSome?_map]
  refine findSome?_of_alone hname h fun name' hname' hne => seq_matchAt_none ?_
  rw [Option.eq_none_iff_forall_ne_some]
  intro e'' hopening'
  obtain ⟨w, hopens, hw, hs, -⟩ := (opening_upTo hname).matchAt_iff.mp hopening
  obtain ⟨w', hopens', hw', hs', -⟩ := (opening_upTo hname').matchAt_iff.mp hopening'
  obtain ⟨rfl, -⟩ := split_first hw hw' (hs.symm.trans hs')
  exact hne (opens_unique hname' hname hopens' hopens)

/-- A text that is one element is matched whole, whatever follows. -/
theorem element_matchAt {name : String} (hname : name ∈ inert) {html : List Char}
    (h : enclosed name html = true) (prev : Option Char) (rest : List Char) :
    ∃ e last, (opening name).matchAt (prev, html ++ rest) = some e ∧
      (element name).matchAt (prev, html ++ rest) = some (last, rest) := by
  rw [enclosed] at h
  split at h
  case h_2 => cases h
  case h_1 e hopening =>
    obtain ⟨⟨last, tail⟩, hclosing, hempty⟩ := (Option.any_eq_true _ _).mp h
    obtain rfl := List.isEmpty_iff.mp hempty
    have hopening' := (opening_upTo hname).append hopening prev rest
    have hend : (e.1, e.2 ++ rest) ∈ (opening name).ends (prev, html ++ rest) :=
      List.mem_of_mem_head? hopening'
    have hclosing' := (closing_upTo hname).searchFrom_append hclosing e.1 rest
    obtain ⟨found, hsearch, hfound⟩ := Option.map_eq_some_iff.mp hclosing'
    refine ⟨_, last, hopening', ?_⟩
    rw [element, chain_cons_cons,
      seq_matchAt hend fun e' he' => (opening_upTo hname).alone hend he', chain_cons_cons,
      chain_singleton, anything, few_matchAt, searchFrom_alt finish_matchAt hsearch,
      Option.map_some, hfound, List.nil_append]

/-- A text that is one element goes. -/
theorem deletes_element {name : String} (hname : name ∈ inert) {html : List Char}
    (h : enclosed name html = true) : Deletes inertElement 0 html [] := by
  have hmatch : ∀ prev rest, ∃ last,
      inertElement.matchAt (prev, html ++ rest) = some (last, rest) := by
    intro prev rest
    obtain ⟨e, last, hopening, helement⟩ := element_matchAt hname h prev rest
    exact ⟨last, inertElement_matchAt hname hopening helement⟩
  cases html with
  | nil =>
    obtain ⟨e, last, hopening, -⟩ := element_matchAt hname h none []
    obtain ⟨w, -, -, hs, -⟩ := (opening_upTo hname).matchAt_iff.mp hopening
    simp at hs
  | cons c cs => exact .whole hmatch

/-! ## Items -/

theorem end_mem {cs tail : List Char} {z : Char} (hne : tail ≠ []) (h : tail <:+ cs ++ [z]) :
    z ∈ tail := by
  obtain ⟨before, h⟩ := h
  obtain rfl | ⟨tail, c, rfl⟩ := List.eq_nil_or_concat tail
  · exact absurd rfl hne
  · rw [List.concat_eq_append, ← List.append_assoc] at h
    obtain ⟨-, hc⟩ := List.append_inj' h rfl
    rw [List.singleton_inj.mp hc]
    simp

theorem Tag.chars_eq (t : Tag) : t.chars = '<' :: t.content ++ ['>'] := rfl

theorem Element.chars_eq (e : Element) :
    e.chars = e.head ++ '>' :: (e.content ++ e.foot) ++ ['>'] := by
  simp [Element.chars]

theorem Text.deletes_comments (t : Text) : Deletes comment 0 t.chars t.chars := by
  refine .self fun tail hne htail prev rest => comment_matchAt_none ?_
  rintro ⟨body, hstart⟩
  cases tail with
  | nil => exact hne rfl
  | cons c tail =>
    obtain rfl := (List.cons.inj hstart).1
    exact t.noTag (htail.subset List.mem_cons_self)

theorem Text.deletes_elements (t : Text) : Deletes inertElement 0 t.chars t.chars := by
  refine .self fun tail hne htail prev rest => inertElement_matchAt_none fun name hname => ?_
  rw [Option.eq_none_iff_forall_ne_some]
  intro e he
  obtain ⟨_, ⟨n, attributes, -, -, rfl⟩, -, hs, -⟩ := (opening_upTo hname).matchAt_iff.mp he
  cases tail with
  | nil => exact hne rfl
  | cons c tail =>
    obtain rfl := (List.cons.inj hs).1
    exact t.noTag (htail.subset List.mem_cons_self)

theorem Comment.deletes_comments (c : Comment) : Deletes comment 0 c.chars [] := by
  have hcomplete : completeComment.matchAt (none, c.chars) = some (some '>', []) := by
    rw [completeComment, Comment.chars, chain_cons_cons, literal_seq, chain_cons_cons,
      chain_singleton, anything, few_matchAt]
    have hlonger : ∀ longer : List Char, longer ≠ [] → '>' ∉ longer →
        ¬ longer ++ ['-', '-'] = ['-', '-'] := fun longer hne _ h =>
      hne (List.append_left_eq_self.mp h)
    have hlast := commentEnd_upTo.searchFrom_last c.noEnd rfl (by decide) hlonger
      (after none "<!--".toList)
    rw [List.append_assoc] at hlast
    exact hlast
  exact .whole fun prev rest => ⟨some '>', (comment_matchAt hcomplete).2 prev rest⟩

/-- Nothing is deleted as comments where none begins. -/
theorem deletes_noComment {cs : List Char} (hend : ∀ tail, tail ≠ [] → tail <:+ cs → '>' ∈ tail)
    (hnone : (literal "<!--").search cs = none) : Deletes comment 0 cs cs := by
  refine .self fun tail hne htail prev rest => comment_matchAt_none ?_
  refine commentStart_append (hend tail hne htail) fun hstart => ?_
  exact literal_notPrefix hnone htail hstart

theorem Tag.deletes_comments {t : Tag} (h : (Item.tag t).intact = true) :
    Deletes comment 0 t.chars t.chars := by
  refine deletes_noComment (fun tail hne htail => end_mem hne (t.chars_eq ▸ htail)) ?_
  simpa [Item.intact, Pattern.test] using (Bool.and_eq_true_iff.mp h).1

theorem Tag.deletes_elements {t : Tag} (h : (Item.tag t).intact = true) :
    Deletes inertElement 0 t.chars t.chars := by
  refine .self fun tail hne htail prev rest => inertElement_matchAt_none fun name hname => ?_
  have hnone : (opening name).search t.chars = none := by
    have hall := List.all_eq_true.mp (Bool.and_eq_true_iff.mp h).2 name hname
    simpa [Pattern.test] using hall
  obtain ⟨prev', hmatch⟩ := matchAt_none_of_searchFrom hnone htail
  exact (opening_upTo hname).none_append (end_mem hne (t.chars_eq ▸ htail)) hmatch prev rest

theorem Element.deletes_comments {e : Element} (h : (Item.element e).intact = true) :
    Deletes comment 0 e.chars (uncommented e.chars) := by
  obtain ⟨left, hleft⟩ := ChallengeBody.deletes_comments (Bool.and_eq_true_iff.mp h).1
    fun tail hne htail => end_mem hne (e.chars_eq ▸ htail)
  rw [uncommented, hleft.replaceAll]
  exact hleft

/-- What is left of an item on the page. -/
def Item.shown (i : Item) : List Char := if i.visible then i.chars else []

theorem Item.deletes_comments {i : Item} (h : i.intact = true) :
    Deletes ChallengeBody.comment 0 i.chars (uncommented i.chars) := by
  have hself : ∀ {left}, Deletes ChallengeBody.comment 0 i.chars left →
      Deletes ChallengeBody.comment 0 i.chars (uncommented i.chars) := by
    intro left hleft
    rw [uncommented, hleft.replaceAll]
    exact hleft
  cases i with
  | text t => exact hself t.deletes_comments
  | tag t => exact hself (Tag.deletes_comments h)
  | comment c => exact hself c.deletes_comments
  | element e => exact Element.deletes_comments h

theorem Item.deletes_elements {i : Item} (h : i.intact = true) :
    Deletes inertElement 0 (uncommented i.chars) i.shown := by
  cases i with
  | text t =>
    have hself : uncommented t.chars = t.chars := t.deletes_comments.replaceAll
    rw [Item.chars, hself]
    exact t.deletes_elements
  | tag t =>
    have hself : uncommented t.chars = t.chars := (Tag.deletes_comments h).replaceAll
    rw [Item.chars, hself]
    exact Tag.deletes_elements h
  | comment c =>
    have hgone : uncommented c.chars = [] := c.deletes_comments.replaceAll
    rw [Item.chars, hgone]
    exact .done
  | element e => exact deletes_element e.isInert (Bool.and_eq_true_iff.mp h).2

/-! ## Documents whose delimiters stay apart -/

theorem flatMap_shown (doc : List Item) : doc.flatMap Item.shown = deleted doc := by
  rw [deleted, render]
  induction doc with
  | nil => rfl
  | cons i doc ih =>
    rw [List.flatMap_cons, ih, Item.shown]
    cases hvisible : i.visible with
    | true => rw [List.filter_cons_of_pos hvisible, List.flatMap_cons, if_pos rfl]
    | false =>
      rw [List.filter_cons_of_neg (Bool.eq_false_iff.mp hvisible), if_neg Bool.false_ne_true,
        List.nil_append]

/-- The text without its comments and inert elements is the text with these items deleted. -/
theorem stripped_intact {doc : List Item} (h : ∀ i ∈ doc, i.intact = true) :
    stripped (render doc) = deleted doc := by
  have hcomments : uncommented (render doc) = doc.flatMap fun i => uncommented i.chars :=
    (Deletes.flatMap fun i hi => Item.deletes_comments (h i hi)).replaceAll
  have helements : inertElement.replaceAll [] (doc.flatMap fun i => uncommented i.chars) =
      doc.flatMap Item.shown :=
    (Deletes.flatMap fun i hi => Item.deletes_elements (h i hi)).replaceAll
  rw [stripped, hcomments, ← flatMap_shown]
  exact helements

theorem deleted_deleted (doc : List Item) : deleted (doc.filter Item.visible) = deleted doc := by
  rw [deleted, List.filter_filter, deleted]
  simp only [Bool.and_self]

/-- Nothing more goes from the text without the inert items. -/
theorem stripped_deleted {doc : List Item} (h : ∀ i ∈ doc, i.intact = true) :
    stripped (deleted doc) = deleted doc := by
  have hvisible := @stripped_intact (doc.filter Item.visible) fun i hi =>
    h i (List.mem_of_mem_filter hi)
  rw [deleted_deleted] at hvisible
  exact hvisible

/-! ## Elements without comments -/

/-! ## The verdict -/

/-- A text of no code units is empty. -/
theorem units_zero {cs : List Char}
    (h : (cs.map fun c => if c.toNat < 0x10000 then 1 else 2).sum = 0) : cs = [] := by
  cases cs with
  | nil => rfl
  | cons c cs =>
    rw [List.map_cons, List.sum_cons] at h
    split at h <;> omega

theorem sliceChars_whole {n : Nat} {cs : List Char} (h : utf16Length (String.ofList cs) ≤ n) :
    sliceChars n cs = cs := by
  rw [utf16Length, String.toList_ofList] at h
  fun_induction sliceChars n cs with
  | case1 cs => exact (units_zero (Nat.le_zero.mp h)).symm
  | case2 => rfl
  | case3 c cs hc =>
    rw [List.map_cons, List.sum_cons, if_pos hc] at h
    have hrest : cs = [] := units_zero (by omega)
    rw [hrest]
  | case4 c cs hc =>
    rw [List.map_cons, List.sum_cons, if_neg hc] at h
    omega
  | case5 n c cs ih =>
    rw [List.map_cons, List.sum_cons] at h
    rw [ih (by split at h <;> split <;> omega)]

theorem deleted_shorter (doc : List Item) :
    utf16Length (String.ofList (deleted doc)) ≤ utf16Length (String.ofList (render doc)) := by
  rw [utf16Length, utf16Length, String.toList_ofList, String.toList_ofList]
  have hsub : (deleted doc).Sublist (render doc) := List.filter_sublist.flatMap _
  exact (hsub.map _).sum_le_sum fun n _ => Nat.zero_le n

theorem gateEvidence_generic {raw : List Char} {names : List SignatureName}
    (h : .generic ∈ names) : gateEvidence raw names ≠ none := by
  rw [gateEvidence]
  split
  · exact Option.some_ne_none _
  · rw [if_pos h]
    exact Option.some_ne_none _

/-- No evidence: no assignment in the text, and nothing in what is left of it. -/
theorem activeBodyChallenge_none {text : List Char} {names : List SignatureName}
    (hgeneric : .generic ∈ names) (hsize : utf16Length (String.ofList text) ≤ 65536) :
    activeBodyChallenge text names = none ↔
      ¬ (.cloudflare ∈ names ∧ assignment.test text = true) ∧
        interstitial (stripped text) names = none ∧ gateText (stripped text) = false := by
  rw [activeBodyChallenge, sliceChars_whole hsize]
  split
  case isTrue h => simp [h]
  case isFalse h =>
    rw [Option.or_eq_none_iff]
    cases hgate : gateText (stripped text) with
    | true => simp [gateEvidence_generic hgeneric]
    | false => simp [h]

/-- The text is a challenge exactly when the text without the inert items is one, apart from an
assignment to `_cf_chl_opt`, which counts wherever it stands. -/
def Agrees (doc : List Item) (names : List SignatureName) : Prop :=
  activeBodyChallenge (render doc) names = none ↔
    activeBodyChallenge (deleted doc) names = none ∧
      ¬ (.cloudflare ∈ names ∧ assignment.test (render doc) = true)

/-- `<script>var s = "…";</script>`. -/
def script (content : List Char)
    (h : (closing "script").search ("var s = \x22".toList ++ content ++ "\x22;".toList) = none) :
    Element where
  name := "script"
  isInert := by decide
  opened := "script".toList
  opened_spells := rfl
  attributes := []
  attributes_apart := rfl
  attributes_noEnd := by decide
  content := "var s = \x22".toList ++ content ++ "\x22;".toList
  content_noEnd := h
  closed := "script".toList
  closed_spells := rfl
  blanks := []
  blanks_blank := by decide

/-- `<h1>Verify you are human</h1>`. -/
def gate : List Item :=
  [.tag ⟨"h1".toList, by decide, by decide, by decide +kernel⟩,
    .text ⟨"Verify you are human".toList, by decide⟩,
    .tag ⟨"/h1".toList, by decide, by decide, by decide +kernel⟩]

/-- A page that asks for a verification, after a script with a whole comment in its text. -/
def annotated : List Item := .element (script "<!-- -->".toList (by decide +kernel)) :: gate

/-- The same page after a script in whose text a comment begins. -/
def swallowed : List Item := .element (script "<!--".toList (by decide +kernel)) :: gate

end LinkSuffix.ChallengeBody
