import Mathlib.Data.List.TakeWhile
import LinkSuffix.Lib.Table
import LinkSuffix.Contracts.Canonical

/-!
# A suffix and its canonical query have the same issues

The store reads the suffix with the blanks that the parser drops. A blank that is dropped inside a
name or a value shows in the text the store reads, so it takes a refused field from the store only
when the parser's field is refused too.

* `prefix_kept`, `spaces_kept`: what dropping blanks does to the decoded text.
* **`issue_of_canonical`**: a text whose canonical query has no issue has none itself.
-/

namespace LinkSuffix

open Lib

/-- A control or a space. -/
def Blank (c : Char) : Prop := c ≤ ' '

instance (c : Char) : Decidable (Blank c) := inferInstanceAs (Decidable (c ≤ ' '))

variable {p q : List Char}

theorem Blank.toNat {c : Char} (h : Blank c) : c.toNat ≤ 32 := h

theorem not_blank_of_hex {c : Char} {x : Nat} (h : hexValue c = some x) : ¬Blank c := by
  intro hblank
  have hrange := hexValue_range h
  have hle := hblank.toNat
  omega

theorem not_blank_percent : ¬Blank '%' := by decide

theorem not_blank_plus : ¬Blank '+' := by decide

/-! ## The decoded text -/

/-- A blank in a text shows in what is decoded from it. -/
theorem blank_shows {c : Char} (hc : Blank c) {st : Utf8State} (hst : st.Sound) (hmem : c ∈ p) :
    c ∈ utf8Decode st (percentDecode p) := by
  induction p using form_induction generalizing st with
  | nil => cases hmem
  | escape a b x y cs ha hb ih =>
    rw [percentDecode_escape ha hb, utf8Decode]
    refine List.mem_append_right _ (ih (sound_step hst _) ?_)
    simp only [List.mem_cons] at hmem
    rcases hmem with rfl | rfl | rfl | hmem
    · exact absurd hc not_blank_percent
    · exact absurd hc (not_blank_of_hex ha)
    · exact absurd hc (not_blank_of_hex hb)
    · exact hmem
  | percent cs hescape ih =>
    rw [percentDecode_percent hescape, utf8Decode]
    refine List.mem_append_right _ (ih (sound_step hst _) ?_)
    rcases List.mem_cons.mp hmem with rfl | hmem
    · exact absurd hc not_blank_percent
    · exact hmem
  | plus cs ih =>
    rw [percentDecode, utf8Decode]
    refine List.mem_append_right _ (ih (sound_step hst _) ?_)
    rcases List.mem_cons.mp hmem with rfl | hmem
    · exact absurd hc not_blank_plus
    · exact hmem
  | char d cs hpercent hplus ih =>
    rw [percentDecode_char hpercent hplus]
    rcases List.mem_cons.mp hmem with rfl | hmem
    · have hascii : c.toNat < 0x80 := by
        have hle := hc.toNat
        omega
      rw [utf8Encode_ascii hascii, List.singleton_append, utf8Decode, utf8Step_ascii hst hascii]
      simp
    · rw [utf8Decode_append]
      exact List.mem_append_right _ (ih (sound_feed hst _) hmem)

/-- A character of a challenge parameter's name. -/
structure Plain (c : Char) : Prop where
  low : 32 < c.toNat
  high : c.toNat < 0x80
  sign : c ≠ '%'

theorem Plain.not_foreign {c : Char} (h : Plain c) : ¬Foreign c := by
  have hlow := h.low
  have hhigh := h.high
  unfold Foreign
  omega

theorem Plain.not_blank {c : Char} (h : Plain c) : ¬Blank c := by
  intro hblank
  have hle := hblank.toNat
  have hlow := h.low
  omega

/-- From between two characters, a byte below 0x80 is the next character. -/
theorem utf8Decode_ascii {b : Nat} (hb : b < 0x80) (bs : List Nat) :
    utf8Decode .initial (b :: bs) = Char.ofNat b :: utf8Decode .initial bs := by
  rw [utf8Decode, utf8Step_ascii sound_initial hb]
  rfl

/-- What is decoded after a plain first character: the byte that it was. -/
theorem byte_of_plain {b : Nat} {bs : List Nat} {c : Char} {cs : List Char} (hc : Plain c)
    (h : c :: cs <+: utf8Decode .initial (b :: bs)) :
    c = Char.ofNat b ∧ b < 0x80 ∧ cs <+: utf8Decode .initial bs := by
  by_cases hb : b < 0x80
  · rw [utf8Decode_ascii hb, List.cons_prefix_cons] at h
    exact ⟨h.1, hb, h.2⟩
  · obtain ⟨rest, hrest⟩ := h
    exact absurd (foreign_of_byte (Nat.le_of_not_lt hb) hrest.symm) hc.not_foreign

/-- Dropping blanks keeps a plain beginning of the decoded text. -/
theorem prefix_kept {u : List Char} (hu : ∀ c ∈ u, Plain c) (h : Strips Blank p q)
    (hp : u <+: utf8Decode .initial (percentDecode p)) :
    u <+: utf8Decode .initial (percentDecode q) := by
  induction p using form_induction generalizing u q with
  | nil =>
    cases h
    exact hp
  | escape a b x y cs ha hb ih =>
    obtain _ | ⟨_, h⟩ | ⟨hblank, _⟩ := h
    · obtain _ | ⟨_, h⟩ | ⟨hblank, _⟩ := h
      · obtain _ | ⟨_, h⟩ | ⟨hblank, _⟩ := h
        · rw [percentDecode_escape ha hb] at hp ⊢
          cases u with
          | nil => exact List.nil_prefix
          | cons c u =>
            obtain ⟨rfl, hbyte, htail⟩ := byte_of_plain (hu c List.mem_cons_self) hp
            rw [utf8Decode_ascii hbyte, List.cons_prefix_cons]
            exact ⟨rfl, ih (fun d hd => hu d (List.mem_cons_of_mem _ hd)) h htail⟩
        · exact absurd hblank (not_blank_of_hex hb)
      · exact absurd hblank (not_blank_of_hex ha)
    · exact absurd hblank not_blank_percent
  | percent cs hescape ih =>
    cases u with
    | nil => exact List.nil_prefix
    | cons c u =>
      rw [percentDecode_percent hescape] at hp
      obtain ⟨hsign, -⟩ := byte_of_plain (hu c List.mem_cons_self) hp
      exact absurd hsign (hu c List.mem_cons_self).sign
  | plus cs ih =>
    cases u with
    | nil => exact List.nil_prefix
    | cons c u =>
      rw [percentDecode] at hp
      obtain ⟨hspace, -⟩ := byte_of_plain (hu c List.mem_cons_self) hp
      have hlow := (hu c List.mem_cons_self).low
      rw [hspace] at hlow
      exact absurd hlow (by decide)
  | char d cs hpercent hplus ih =>
    cases u with
    | nil => exact List.nil_prefix
    | cons c u =>
      have hplain := hu c List.mem_cons_self
      rw [percentDecode_char hpercent hplus] at hp
      by_cases hascii : d.toNat < 0x80
      · rw [utf8Encode_ascii hascii, List.singleton_append] at hp
        obtain ⟨hcd, -, htail⟩ := byte_of_plain hplain hp
        rw [Char.ofNat_toNat] at hcd
        subst hcd
        obtain _ | ⟨_, h⟩ | ⟨hblank, _⟩ := h
        · rw [percentDecode_char hpercent hplus, utf8Encode_ascii hascii, List.singleton_append,
            utf8Decode_ascii hascii, Char.ofNat_toNat, List.cons_prefix_cons]
          exact ⟨rfl, ih (fun d hd => hu d (List.mem_cons_of_mem _ hd)) h htail⟩
        · exact absurd hblank hplain.not_blank
      · obtain ⟨b, bs, hbytes, hb⟩ := utf8Encode_wide (Nat.le_of_not_lt hascii)
        rw [hbytes, List.cons_append] at hp
        obtain ⟨-, hbyte, -⟩ := byte_of_plain hplain hp
        omega

/-- Dropping blanks keeps a decoded text of spaces. -/
theorem spaces_kept {st : Utf8State} (hst : st.Sound) (h : Strips Blank p q)
    (hp : ∀ c ∈ utf8Decode st (percentDecode p), isJsSpace c = true) :
    ∀ c ∈ utf8Decode st (percentDecode q), isJsSpace c = true := by
  induction p using form_induction generalizing st q with
  | nil =>
    cases h
    exact hp
  | escape a b x y cs ha hb ih =>
    obtain _ | ⟨_, h⟩ | ⟨hblank, _⟩ := h
    · obtain _ | ⟨_, h⟩ | ⟨hblank, _⟩ := h
      · obtain _ | ⟨_, h⟩ | ⟨hblank, _⟩ := h
        · rw [percentDecode_escape ha hb, utf8Decode] at hp ⊢
          rw [List.forall_mem_append] at hp ⊢
          exact ⟨hp.1, ih (sound_step hst _) h hp.2⟩
        · exact absurd hblank (not_blank_of_hex hb)
      · exact absurd hblank (not_blank_of_hex ha)
    · exact absurd hblank not_blank_percent
  | percent cs hescape ih =>
    rw [percentDecode_percent hescape, utf8Decode, utf8Step_ascii hst (by decide)] at hp
    exact absurd (hp '%' (by simp)) (by decide)
  | plus cs ih =>
    obtain _ | ⟨_, h⟩ | ⟨hblank, _⟩ := h
    · rw [percentDecode, utf8Decode, List.forall_mem_append] at hp
      rw [percentDecode, utf8Decode, List.forall_mem_append]
      exact ⟨hp.1, ih (sound_step hst _) h hp.2⟩
    · exact absurd hblank not_blank_plus
  | char d cs hpercent hplus ih =>
    rw [percentDecode_char hpercent hplus] at hp
    obtain _ | ⟨_, h⟩ | ⟨hblank, h⟩ := h
    · rw [percentDecode_char hpercent hplus, utf8Decode_append, List.forall_mem_append]
      rw [utf8Decode_append, List.forall_mem_append] at hp
      exact ⟨hp.1, ih (sound_feed hst _) h hp.2⟩
    · have hascii : d.toNat < 0x80 := by
        have hle := hblank.toNat
        omega
      rw [utf8Encode_ascii hascii, List.singleton_append, utf8Decode,
        utf8Step_ascii hst hascii, List.forall_mem_append] at hp
      -- a sequence that the blank cuts short leaves a replacement character, which is no space
      have hneeded : st.needed = 0 := by
        by_contra hneeded
        refine absurd (hp.1 replacement ?_) (by decide)
        simp [hneeded]
      rw [utf8Decode_idle hneeded]
      exact ih sound_initial h hp.2

/-! ## Names and values -/

theorem plain_of_lower {c : Char} (h : Plain c.toLower) : Plain c := by
  unfold Char.toLower at h
  split at h
  · rename_i hupper
    have hlow : 65 ≤ c.toNat := hupper.1
    have hhigh : c.toNat ≤ 90 := hupper.2
    refine ⟨by omega, by omega, ?_⟩
    rintro rfl
    exact absurd hlow (by decide)
  · exact h

instance (c : Char) : Decidable (Plain c) :=
  decidable_of_iff (32 < c.toNat ∧ c.toNat < 0x80 ∧ c ≠ '%')
    ⟨fun ⟨low, high, sign⟩ => ⟨low, high, sign⟩, fun ⟨low, high, sign⟩ => ⟨low, high, sign⟩⟩

/-- A text of plain characters loses nothing. -/
theorem eq_of_plain (h : Strips Blank p q)
    (hplain : ∀ c ∈ utf8Decode .initial (percentDecode p), Plain c) : q = p :=
  h.eq_of_noBlank fun _ hc hblank =>
    (hplain _ (blank_shows hblank sound_initial hc)).not_blank hblank

/-- Up to case, the text is one of the words or begins with one of the fronts. -/
def Named (words fronts : List String) (cs : List Char) : Prop :=
  (∃ w ∈ words, cs.map Char.toLower = w.toList) ∨ ∃ w ∈ fronts, w.toList <+: cs.map Char.toLower

theorem ofList_eq {cs : List Char} {word : String} :
    String.ofList cs = word ↔ cs = word.toList := by
  rw [← String.ofList_inj, String.ofList_toList]

theorem isChallengeKey_iff {cs : List Char} : isChallengeKey (String.ofList cs) = true ↔
    Named ["__cf_chl", "cf_chl_prog", "cf_chl_seq"] ["__cf_chl_"] cs := by
  simp only [isChallengeKey, asciiLower, hasPrefix, String.toList_ofList, Bool.or_eq_true,
    decide_eq_true_eq, List.isPrefixOf_iff_prefix, ofList_eq, Named, List.mem_cons,
    List.not_mem_nil, or_false, exists_eq_or_imp, exists_eq_left]
  tauto

theorem isClickIdentifier_iff {cs : List Char} : isClickIdentifier (String.ofList cs) = true ↔
    Named ["irclickid", "im_ref"] [] cs := by
  simp only [isClickIdentifier, asciiLower, String.toList_ofList, Bool.or_eq_true,
    decide_eq_true_eq, ofList_eq, Named, List.mem_cons, List.not_mem_nil, or_false,
    exists_eq_or_imp, exists_eq_left, false_and, exists_false]

/-- The decoded texts of a raw and of a stripped name. -/
theorem named_kept {words fronts : List String}
    (hplain : ∀ w ∈ words ++ fronts, ∀ c ∈ w.toList, Plain c) (h : Strips Blank p q)
    (hp : Named words fronts (utf8Decode .initial (percentDecode p))) :
    Named words fronts (utf8Decode .initial (percentDecode q)) := by
  rcases hp with ⟨w, hw, heq⟩ | ⟨w, hw, hfront⟩
  · -- a whole name is plain, so that nothing was dropped
    have hall : ∀ c ∈ utf8Decode .initial (percentDecode p), Plain c := by
      intro c hc
      refine plain_of_lower (hplain w (List.mem_append_left _ hw) _ ?_)
      rw [← heq]
      exact List.mem_map_of_mem hc
    rw [eq_of_plain h hall]
    exact Or.inl ⟨w, hw, heq⟩
  · refine Or.inr ⟨w, hw, ?_⟩
    have htake := List.prefix_iff_eq_take.mp hfront
    rw [← List.map_take] at htake
    have hall : ∀ c ∈ (utf8Decode .initial (percentDecode p)).take w.toList.length, Plain c := by
      intro c hc
      refine plain_of_lower (hplain w (List.mem_append_right _ hw) _ ?_)
      rw [htake]
      exact List.mem_map_of_mem hc
    rw [htake]
    exact (prefix_kept hall h (List.take_prefix _ _)).map _

/-- A name does not begin with a blank. -/
theorem named_head {words fronts : List String}
    (hplain : ∀ w ∈ words ++ fronts, w.toList ≠ [] ∧ ∀ c ∈ w.toList, Plain c) {c : Char}
    {cs : List Char} (h : Named words fronts (c :: cs)) : Plain c := by
  refine plain_of_lower ?_
  rcases h with ⟨w, hw, heq⟩ | ⟨w, hw, hfront⟩
  · refine (hplain w (List.mem_append_left _ hw)).2 _ ?_
    rw [← heq, List.map_cons]
    exact List.mem_cons_self
  · obtain ⟨hne, hchars⟩ := hplain w (List.mem_append_right _ hw)
    cases hw : w.toList with
    | nil => exact absurd hw hne
    | cons d ds =>
      rw [hw, List.map_cons, List.cons_prefix_cons] at hfront
      rw [← hfront.1]
      exact hchars d (by simp [hw])

theorem trim_eq_empty {value : String} :
    trim value = "" ↔ ∀ c ∈ value.toList, isJsSpace c = true := by
  unfold trim
  rw [String.ofList_eq_empty_iff, List.reverse_eq_nil_iff, List.dropWhile_eq_nil_iff]
  constructor
  · intro h c hc
    by_contra hspace
    have hmem : c ∈ value.toList.dropWhile isJsSpace := by
      have hall := List.mem_append.mp
        ((List.takeWhile_append_dropWhile (p := isJsSpace) (l := value.toList)).symm ▸ hc)
      exact hall.resolve_left fun htake => hspace (List.mem_takeWhile_imp htake)
    exact hspace (h c (List.mem_reverse.mpr hmem))
  · intro h c hc
    exact h c ((List.dropWhile_sublist _).mem (List.mem_reverse.mp hc))

/-! ## Fields -/

/-- A field that makes an issue. -/
def isRefusedField (field : String × String) : Bool :=
  isChallengeKey field.1 || (isClickIdentifier field.1 && trim field.2 = "")

theorem suffixIssueLoop_eq_none {incomplete : Option String} {fields : List (String × String)} :
    suffixIssueLoop incomplete fields = none ↔
      incomplete = none ∧ ∀ field ∈ fields, isRefusedField field = false := by
  induction fields generalizing incomplete with
  | nil => simp [suffixIssueLoop]
  | cons field fields ih =>
    obtain ⟨key, value⟩ := field
    unfold suffixIssueLoop
    by_cases hkey : isChallengeKey key = true
    · simp [hkey, isRefusedField]
    · rw [if_neg hkey, ih]
      by_cases hblank : (isClickIdentifier key && decide (trim value = "")) = true
      · have hfield : isRefusedField (key, value) = true := by
          unfold isRefusedField
          rw [hblank, Bool.or_true]
        rw [if_pos hblank, List.forall_mem_cons, hfield]
        simp
      · simp only [hblank, isRefusedField, List.forall_mem_cons, Bool.eq_false_of_not_eq_true hkey,
          Bool.false_or, true_and, if_false, Bool.false_eq_true]

/-- A suffix has no issue when no field of it is refused. -/
theorem deliverySuffixIssue_eq_none {value : String} : deliverySuffixIssue value = none ↔
    ∀ field ∈ searchParams value, isRefusedField field = false := by
  unfold deliverySuffixIssue
  rw [suffixIssueLoop_eq_none]
  simp

/-- A refused piece stays refused once its blanks are dropped. -/
theorem refused_kept (h : Strips Blank p q) (hp : isRefusedField (fieldOf p) = true) :
    isRefusedField (fieldOf q) = true := by
  have hname : Strips Blank (p.takeWhile (· ≠ '=')) (q.takeWhile (· ≠ '=')) :=
    h.takeWhile_ne (by decide)
  have hvalue := h.after (show ¬Blank '=' by decide)
  simp only [isRefusedField, fieldOf, decodeField, Bool.or_eq_true, Bool.and_eq_true,
    decide_eq_true_eq, isChallengeKey_iff, isClickIdentifier_iff, trim_eq_empty,
    String.toList_ofList] at hp ⊢
  rcases hp with hchallenge | ⟨hclick, hblank⟩
  · exact Or.inl (named_kept (by decide) hname hchallenge)
  · exact Or.inr ⟨named_kept (by decide) hname hclick, spaces_kept sound_initial hvalue hblank⟩

/-- A piece that begins with a blank is not refused. -/
theorem not_refused_of_blank {c : Char} (hc : Blank c) (cs : List Char) :
    isRefusedField (fieldOf (c :: cs)) = false := by
  have hascii : c.toNat < 0x80 := by
    have hle := hc.toNat
    omega
  have hne : c ≠ '=' := by
    rintro rfl
    exact absurd hc (by decide)
  have hpercent : c ≠ '%' := by
    rintro rfl
    exact not_blank_percent hc
  have hplus : c ≠ '+' := by
    rintro rfl
    exact not_blank_plus hc
  have hhead : utf8Decode .initial (percentDecode ((c :: cs).takeWhile (· ≠ '='))) =
      c :: utf8Decode .initial (percentDecode (cs.takeWhile (· ≠ '='))) := by
    rw [List.takeWhile_cons_of_pos (by simpa using hne), percentDecode_char hpercent hplus,
      utf8Encode_ascii hascii, List.singleton_append, utf8Decode_ascii hascii, Char.ofNat_toNat]
  rw [Bool.eq_false_iff]
  intro h
  simp only [isRefusedField, fieldOf, decodeField, hhead, Bool.or_eq_true, Bool.and_eq_true,
    isChallengeKey_iff, isClickIdentifier_iff] at h
  rcases h with hchallenge | ⟨hclick, -⟩
  · exact (named_head (by decide) hchallenge).not_blank hc
  · exact (named_head (by decide) hclick).not_blank hc

/-! ## Pieces -/

theorem pieces_strip (h : Strips Blank p q) :
    List.Forall₂ (Strips Blank) (splitOnChar '&' p) (splitOnChar '&' q) := by
  induction h with
  | nil => exact .cons .nil .nil
  | @keep a p q h ih =>
    by_cases ha : a = '&'
    · subst ha
      rw [splitOnChar_sep, splitOnChar_sep]
      exact .cons .nil ih
    · obtain ⟨piece, pieces, hp, hcons⟩ :=
        splitOnChar_append (show '&' ∉ [a] by simpa using Ne.symm ha) p
      obtain ⟨piece', pieces', hq, hcons'⟩ :=
        splitOnChar_append (show '&' ∉ [a] by simpa using Ne.symm ha) q
      rw [List.singleton_append] at hcons hcons'
      rw [hp, hq, List.forall₂_cons] at ih
      rw [hcons, hcons']
      exact .cons (.keep a ih.1) ih.2
  | @strip a ha p q h ih =>
    have hne : a ≠ '&' := by
      rintro rfl
      exact absurd ha (by decide)
    obtain ⟨piece, pieces, hp, hcons⟩ :=
      splitOnChar_append (show '&' ∉ [a] by simpa using Ne.symm hne) p
    rw [List.singleton_append] at hcons
    rw [hcons]
    rw [hp] at ih
    generalize splitOnChar '&' q = qs at ih ⊢
    cases ih with
    | cons hpiece hpieces => exact .cons (.strip ha hpiece) hpieces

/-- The refused pieces of a text, read without its mark, are refused in the stripped text. A mark
that only the stripped text shows follows a blank, in a piece that is not refused. -/
theorem refused_piece (h : Strips Blank p q) {piece : List Char}
    (hmem : piece ∈ splitOnChar '&' (unmark p)) (hrefused : isRefusedField (fieldOf piece) = true) :
    ∃ piece' ∈ splitOnChar '&' (unmark q), isRefusedField (fieldOf piece') = true := by
  have hdirect {p q : List Char} (h : Strips Blank p q) (hmem : piece ∈ splitOnChar '&' p) :
      ∃ piece' ∈ splitOnChar '&' q, isRefusedField (fieldOf piece') = true := by
    obtain ⟨piece', hmem', hpiece⟩ := forall₂_mem_left (pieces_strip h) hmem
    exact ⟨piece', hmem', refused_kept hpiece hrefused⟩
  cases h with
  | nil => exact ⟨piece, hmem, hrefused⟩
  | keep a h =>
    by_cases ha : a = '?'
    · subst ha
      exact hdirect h hmem
    · rw [unmark_of_ne ha] at hmem ⊢
      exact hdirect (.keep a h) hmem
  | @strip a ha p _ h =>
    have hne : a ≠ '?' := by
      rintro rfl
      exact absurd ha (by decide)
    have hamp : a ≠ '&' := by
      rintro rfl
      exact absurd ha (by decide)
    rw [unmark_of_ne hne] at hmem
    cases q with
    | nil => exact hdirect (.strip ha h) hmem
    | cons b q =>
      by_cases hb : b = '?'
      · subst hb
        obtain ⟨first, pieces, hp, hcons⟩ :=
          splitOnChar_append (show '&' ∉ [a] by simpa using Ne.symm hamp) p
        obtain ⟨first', pieces', hq, hcons'⟩ :=
          splitOnChar_append (show '&' ∉ ['?'] by decide) q
        have hpieces := pieces_strip h
        rw [List.singleton_append] at hcons hcons'
        rw [hp, hcons', List.forall₂_cons] at hpieces
        rw [hcons] at hmem
        rcases List.mem_cons.mp hmem with rfl | hmem
        · rw [List.singleton_append, not_refused_of_blank ha] at hrefused
          cases hrefused
        · obtain ⟨piece', hmem', hpiece⟩ := forall₂_mem_left hpieces.2 hmem
          refine ⟨piece', ?_, refused_kept hpiece hrefused⟩
          show piece' ∈ splitOnChar '&' q
          rw [hq]
          exact List.mem_cons_of_mem _ hmem'
      · rw [unmark_of_ne hb]
        exact hdirect (.strip ha h) hmem

/-- A text without an issue once blanks are dropped has none before. -/
theorem issue_of_strips (h : Strips Blank p q)
    (hq : deliverySuffixIssue (String.ofList q) = none) :
    deliverySuffixIssue (String.ofList p) = none := by
  rw [deliverySuffixIssue_eq_none, searchParams_ofList] at hq ⊢
  by_contra hissue
  simp only [List.forall_mem_map, not_forall, Bool.not_eq_false] at hissue
  obtain ⟨piece, hmem, hrefused⟩ := hissue
  obtain ⟨piece', hmem', hrefused'⟩ := refused_piece h (List.mem_filter.mp hmem).1 hrefused
  have hne : piece' ≠ [] := by
    rintro rfl
    exact absurd hrefused' (by decide)
  have hnone := hq (fieldOf piece') (List.mem_map_of_mem
    (List.mem_filter.mpr ⟨hmem', by simpa using hne⟩))
  rw [hrefused'] at hnone
  cases hnone

/-! ## The canonical query -/

theorem strips_blanks (cs : List Char) : Strips Blank cs (stripBlanks cs) := by
  have hedge (c : Char) (h : isEdgeBlank c = true) : Blank c := of_decide_eq_true h
  have hfront := Strips.of_dropWhile hedge cs
  have hback := (Strips.of_dropWhile hedge (cs.dropWhile isEdgeBlank).reverse).reverse
  rw [List.reverse_reverse] at hback
  refine (hfront.trans hback).trans (Strips.of_filter (fun c hc => ?_) _)
  have hinner : isInnerBlank c = true := by simpa only [Bool.not_eq_false'] using hc
  have hlisted : c ∈ ['\t', '\n', '\r'] := of_decide_eq_true hinner
  simp only [List.mem_cons, List.not_mem_nil, or_false] at hlisted
  rcases hlisted with rfl | rfl | rfl <;> decide

theorem queryOf_strips (h : Strips Blank p q) : Strips Blank (queryOf p) (queryOf q) :=
  (h.takeWhile_ne (by decide)).after (by decide)

/-- **A text whose canonical query has no issue has none itself.** -/
theorem issue_of_canonical {raw : String}
    (h : deliverySuffixIssue (String.ofList (canonicalQuery raw)) = none) :
    deliverySuffixIssue (String.ofList (queryOf raw.toList)) = none := by
  refine issue_of_strips (queryOf_strips (strips_blanks raw.toList)) ?_
  unfold deliverySuffixIssue at h ⊢
  rwa [← searchParams_encodeQuery]

end LinkSuffix
