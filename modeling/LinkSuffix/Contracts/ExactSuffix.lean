import LinkSuffix.Contracts.CaptureSafety
import LinkSuffix.Js.JsonText
import Mathlib.Data.List.TakeWhile

/-!
# The exact suffix of a URL

What stands between the first `?` of a URL and its first `#` is extracted four times:
`extractExactQuerySuffix` of the web side (`url-security.ts`) and of the control server
(`exact-suffix.mjs`), `findExactSuffixUrl` of the browser journey (`resourcePolicy.ts`) and
`JsonlSuffixSource` of the Google Ads updater, which reads the URL from a log of events.

* `exactSuffix`: the suffix itself. `Agree`: what each of the four makes of a URL.
* **`extractors_agree`**: exactly when they agree. **`fragment_extracted`**: a fragment is taken for
  the suffix.

The indices of the source are UTF-16 units; they stand at `?` and `#`, so characters do.
-/

namespace LinkSuffix.ExactSuffix

/-! ## The extractors -/

/-- `text.indexOf(c, start)`. -/
def indexFrom (c : Char) (start : Nat) (cs : List Char) : Option Nat :=
  ((cs.drop start).findIdx? (· = c)).map (start + ·)

/-- `text.slice(start, stop)`. -/
def slice (start : Nat) (stop : Option Nat) (cs : List Char) : List Char :=
  match stop with
  | none => cs.drop start
  | some stop => (cs.take stop).drop start

/-- `extractExactQuerySuffix` of `url-security.ts`. -/
def webSuffix (input : String) : String :=
  let cs := input.toList
  match indexFrom '?' 0 cs with
  | none => ""
  | some question => String.ofList (slice (question + 1) (indexFrom '#' (question + 1) cs) cs)

/-- `extractExactQuerySuffix` of `exact-suffix.mjs`. -/
def controlSuffix (platform : Platform) (finalUrl : JsValue) : Option String :=
  if (captureUrlIssue platform finalUrl).isSome then none
  else
    match finalUrl with
    | .string url =>
      if url = "" ∨ (platform.parse url).isNone then none
      else
        let cs := url.toList
        let fragment := indexFrom '#' 0 cs
        match indexFrom '?' 0 cs with
        | none => none
        | some query =>
          if fragment.any (· < query) then none
          else
            let suffix := slice (query + 1) fragment cs
            if suffix = [] then none else some (String.ofList suffix)
    | _ => none

/-- What `findExactSuffixUrl` accepts. -/
def isSuffixUrl (P : UrlParser) (raw : String) : Bool :=
  let cs := raw.toList
  match indexFrom '?' 0 cs with
  | none => false
  | some queryStart =>
    let queryEnd := (indexFrom '#' (queryStart + 1) cs).getD cs.length
    queryStart + 1 < queryEnd && (P.parse raw).any Url.isWeb

def findExactSuffixUrl (P : UrlParser) (candidates : List JsValue) : Option String :=
  (candidates.filterMap JsValue.text?).find? (isSuffixUrl P)

/-- The last main document, from the end; nothing where an item is `null`, which throws. -/
def lastDocument : List JsValue → Option (Option JsValue)
  | [] => some none
  | .null :: _ => none
  | item :: items =>
    if ((item.get "ta_signal").get "main_document").isText "true" then some (some item)
    else lastDocument items

/-- The URL of a line, where it has one. A line that throws is skipped. -/
def lineUrl (line : List Char) : Option JsValue := do
  let ev ← parseJson line
  let events := (ev.get "events").items
  let document ← lastDocument events.reverse
  let url := (document.getD (events.getLast?.getD .undefined)).get "url"
  if url.truthy then some url else none

/-- `url.slice(url.indexOf("?") + 1)`, of a text or an array. -/
def afterQuestion : JsValue → Option JsValue
  | .string url => (indexFrom '?' 0 url.toList).map fun q =>
      .string (String.ofList (slice (q + 1) none url.toList))
  | .array items => (items.findIdx? fun item => item.isText "?").map fun q =>
      .array (items.drop (q + 1))
  | _ => none

/-- What follows the first `?` of a line's URL. -/
def lineQuery (line : List Char) : Option JsValue := (lineUrl line).bind afterQuestion

def logLines (log : List Char) : List (List Char) := (splitOnChar '\n' log).filter (· ≠ [])

/-- `JsonlSuffixSource.getSuffix` of a log that exists. -/
def getSuffix (log : List Char) : JsValue :=
  ((logLines log).reverse.findSome? lineQuery).getD (.string "")

/-! ## The suffix itself -/

/-- What stands between the first `?` and the first `#`, where something does. -/
def exactSuffix (url : String) : Option String :=
  match (url.toList.takeWhile (· ≠ '#')).dropWhile (· ≠ '?') with
  | _ :: c :: cs => some (String.ofList (c :: cs))
  | _ => none

/-- The last main document of a log: no line after its own has a URL. -/
def LastDocument (log : List Char) (front : List (List Char)) (url : String) : Prop :=
  ∃ line skipped ev document, logLines log = front ++ line :: skipped ∧
    parseJson line = some ev ∧ lastDocument (ev.get "events").items.reverse = some (some document) ∧
    document.get "url" = .string url ∧ ∀ l ∈ skipped, lineUrl l = none

/-- The four extractors make the suffix of a URL. -/
structure Agree (platform : Platform) (log : List Char) (url : String) : Prop where
  web : webSuffix url = (exactSuffix url).getD ""
  journey : findExactSuffixUrl platform.toUrlParser [.string url] = (exactSuffix url).map fun _ => url
  updater : getSuffix log = .string ((exactSuffix url).getD "")
  control : captureUrlIssue platform (.string url) = none →
    controlSuffix platform (.string url) = exactSuffix url

/-- The latest of some lines with a `?` in its URL has nothing after it. -/
def NothingBefore (front : List (List Char)) : Prop :=
  ∀ init line rest, front = init ++ line :: rest → (∀ l ∈ rest, lineQuery l = none) →
    ∀ query ∈ lineQuery line, query = .string ""

/-- No query, and none before; a query and no fragment; or a `?` at the end. -/
def Unambiguous (front : List (List Char)) (url : String) : Prop :=
  ('?' ∉ url.toList ∧ NothingBefore front) ∨ ('?' ∈ url.toList ∧ '#' ∉ url.toList) ∨
    ∃ start, url.toList = start ++ ['?'] ∧ '?' ∉ start

/-! ## Around the first `?` -/

theorem indexFrom_none {c : Char} {cs : List Char} (h : c ∉ cs) : indexFrom c 0 cs = none := by
  unfold indexFrom
  rw [List.drop_zero, List.findIdx?_eq_none_iff.mpr fun x hx => by
    simpa using fun heq : x = c => h (heq ▸ hx)]
  rfl

theorem findIdx_first {c : Char} {start rest : List Char} (h : c ∉ start) :
    (start ++ c :: rest).findIdx? (· = c) = some start.length := by
  induction start with
  | nil => simp [List.findIdx?_cons]
  | cons d start ih =>
    obtain ⟨hne, hmem⟩ := List.ne_and_not_mem_of_not_mem_cons h
    rw [List.cons_append, List.findIdx?_cons, ih hmem]
    simp [Ne.symm hne]

theorem indexFrom_first {c : Char} {start rest : List Char} (h : c ∉ start) :
    indexFrom c 0 (start ++ c :: rest) = some start.length := by
  unfold indexFrom
  rw [List.drop_zero, findIdx_first h, Option.map_some, Nat.zero_add]

/-- From a place on to a character, or to the end. -/
theorem slice_indexFrom (c : Char) (start : Nat) (cs : List Char) :
    slice start (indexFrom c start cs) cs = (cs.drop start).takeWhile (· ≠ c) := by
  unfold indexFrom slice
  by_cases h : c ∈ cs.drop start
  · obtain ⟨before, rest, hparts, hbefore⟩ := List.eq_append_cons_of_mem h
    rw [hparts, findIdx_first hbefore, Option.map_some]
    dsimp only
    rw [List.drop_take, hparts, Nat.add_sub_cancel_left, List.take_left,
      List.takeWhile_append_of_pos fun x hx => by simpa using fun heq : x = c => hbefore (heq ▸ hx)]
    simp
  · have hnone : (cs.drop start).findIdx? (· = c) = none :=
      List.findIdx?_eq_none_iff.mpr fun x hx => by simpa using fun heq : x = c => h (heq ▸ hx)
    rw [hnone, Option.map_none]
    exact (List.takeWhile_eq_self_iff.mpr fun x hx => by
      simpa using fun heq : x = c => h (heq ▸ hx)).symm

/-- A URL with a query, at its first `?`. -/
structure Split (url : String) (start rest : List Char) : Prop where
  parts : url.toList = start ++ '?' :: rest
  first : '?' ∉ start

variable {url : String} {start rest : List Char} {platform : Platform} {log : List Char}
  {front : List (List Char)}

theorem Split.drop (h : Split url start rest) : url.toList.drop (start.length + 1) = rest := by
  have hfront : (start ++ ['?']).length = start.length + 1 := by
    rw [List.length_append, List.length_singleton]
  rw [h.parts, List.append_cons, ← hfront, List.drop_left]

theorem exists_split (h : '?' ∈ url.toList) : ∃ start rest, Split url start rest := by
  obtain ⟨start, rest, hparts, hfirst⟩ := List.eq_append_cons_of_mem h
  exact ⟨start, rest, hparts, hfirst⟩

theorem Split.fragment_mem (h : Split url start rest) :
    '#' ∈ url.toList ↔ '#' ∈ start ∨ '#' ∈ rest := by
  rw [h.parts]
  simp

/-! ## The suffix -/

theorem exactSuffix_none (h : '?' ∉ url.toList) : exactSuffix url = none := by
  have hnone : (url.toList.takeWhile (· ≠ '#')).dropWhile (· ≠ '?') = [] :=
    List.dropWhile_eq_nil_iff.mpr fun c hc => by
      simpa using fun heq : c = '?' => h (heq ▸ (List.takeWhile_prefix _).subset hc)
  unfold exactSuffix
  rw [hnone]

/-- The text of a suffix, which is none where it is empty. -/
def given (suffix : List Char) : Option String :=
  if suffix = [] then none else some (String.ofList suffix)

theorem given_getD (suffix : List Char) : (given suffix).getD "" = String.ofList suffix := by
  unfold given
  split
  · rename_i h
    rw [h]
    rfl
  · rfl

theorem takeWhile_ne {c : Char} {cs : List Char} (h : c ∉ cs) : cs.takeWhile (· ≠ c) = cs :=
  List.takeWhile_eq_self_iff.mpr fun x hx => by simpa using fun heq : x = c => h (heq ▸ hx)

theorem takeWhile_before {c : Char} {cs : List Char} (h : c ∉ cs) (rest : List Char) :
    (cs ++ c :: rest).takeWhile (· ≠ c) = cs := by
  rw [List.takeWhile_append_of_pos fun x hx => by simpa using fun heq : x = c => h (heq ▸ hx)]
  simp

theorem Split.exactSuffix (h : Split url start rest) :
    ExactSuffix.exactSuffix url =
      if '#' ∈ start then none else given (rest.takeWhile (· ≠ '#')) := by
  unfold ExactSuffix.exactSuffix given
  rw [h.parts]
  by_cases hfragment : '#' ∈ start
  · rw [if_pos hfragment]
    obtain ⟨before, after, rfl, hbefore⟩ := List.eq_append_cons_of_mem hfragment
    have hmark : '?' ∉ before := fun hmem => h.first (List.mem_append_left _ hmem)
    rw [List.append_assoc, List.cons_append, takeWhile_before hbefore,
      List.dropWhile_eq_nil_iff.mpr fun x hx => by
        simpa using fun heq : x = '?' => hmark (heq ▸ hx)]
  · rw [if_neg hfragment, List.takeWhile_append_of_pos fun x hx => by
        simpa using fun heq : x = '#' => hfragment (heq ▸ hx),
      List.takeWhile_cons_of_pos (by decide), List.dropWhile_append_of_pos fun x hx => by
        simpa using fun heq : x = '?' => h.first (heq ▸ hx),
      List.dropWhile_cons_of_neg (by decide)]
    cases rest.takeWhile (· ≠ '#') with
    | nil => rfl
    | cons c cs => rfl

/-! ## What each extractor makes of it -/

theorem webSuffix_none (h : '?' ∉ url.toList) : webSuffix url = "" := by
  unfold webSuffix
  dsimp only
  rw [indexFrom_none h]

theorem Split.webSuffix (h : Split url start rest) :
    ExactSuffix.webSuffix url = String.ofList (rest.takeWhile (· ≠ '#')) := by
  have hindex : indexFrom '?' 0 url.toList = some start.length := by
    rw [h.parts]
    exact indexFrom_first h.first
  unfold ExactSuffix.webSuffix
  dsimp only
  rw [hindex]
  dsimp only
  rw [slice_indexFrom, h.drop]

theorem isSuffixUrl_none (P : UrlParser) (h : '?' ∉ url.toList) : isSuffixUrl P url = false := by
  unfold isSuffixUrl
  dsimp only
  rw [indexFrom_none h]

theorem Split.isSuffixUrl (h : Split url start rest) {P : UrlParser} {parsed : Url}
    (hparse : P.parse url = some parsed) (hweb : parsed.isWeb = true) :
    ExactSuffix.isSuffixUrl P url = decide (rest.takeWhile (· ≠ '#') ≠ []) := by
  have hindex : indexFrom '?' 0 url.toList = some start.length := by
    rw [h.parts]
    exact indexFrom_first h.first
  unfold ExactSuffix.isSuffixUrl
  dsimp only
  rw [hindex, hparse]
  dsimp only [Option.any_some]
  rw [hweb, Bool.and_true]
  unfold indexFrom
  rw [h.drop]
  refine decide_eq_decide.mpr ?_
  have hlength : url.toList.length = start.length + 1 + rest.length := by
    rw [h.parts, List.length_append, List.length_cons]
    omega
  cases rest with
  | nil =>
    rw [hlength]
    simp
  | cons c cs =>
    by_cases hc : c = '#'
    · subst hc
      simp [List.findIdx?_cons]
    · rw [List.takeWhile_cons_of_pos (by simpa using hc), List.findIdx?_cons]
      simp only [hc, decide_false, Bool.false_eq_true, if_false, ne_eq, List.cons_ne_nil,
        not_false_iff, iff_true]
      cases cs.findIdx? (· = '#') with
      | none =>
        rw [hlength, List.length_cons]
        simp
      | some i => simp

/-- The control server's extractor cuts at the first `#` of the whole URL. -/
theorem controlSuffix_eq (hissue : captureUrlIssue platform (.string url) = none) (hne : url ≠ "")
    {parsed : Url} (hparse : platform.parse url = some parsed) :
    controlSuffix platform (.string url) = exactSuffix url := by
  unfold controlSuffix
  rw [hissue, if_neg (by simp)]
  dsimp only
  rw [if_neg (by simp [hne, hparse])]
  by_cases hquery : '?' ∈ url.toList
  · obtain ⟨start, rest, h⟩ := exists_split hquery
    have hindex : indexFrom '?' 0 url.toList = some start.length := by
      rw [h.parts]
      exact indexFrom_first h.first
    rw [hindex, h.exactSuffix]
    dsimp only
    by_cases hfragment : '#' ∈ start
    · obtain ⟨before, after, rfl, hbefore⟩ := List.eq_append_cons_of_mem hfragment
      have hmark : indexFrom '#' 0 url.toList = some before.length := by
        rw [h.parts, List.append_assoc, List.cons_append]
        exact indexFrom_first hbefore
      rw [hmark, if_pos hfragment, if_pos (by simp)]
    · have hmark : indexFrom '#' 0 url.toList = indexFrom '#' (start.length + 1) url.toList := by
        have hdrop : url.toList.drop 0 = start ++ '?' :: rest := h.parts
        have hbefore : '#' ∉ start ++ ['?'] := by simp [hfragment]
        unfold indexFrom
        rw [hdrop, h.drop, List.append_cons]
        by_cases hrest : '#' ∈ rest
        · obtain ⟨before, after, rfl, hfirst⟩ := List.eq_append_cons_of_mem hrest
          rw [← List.append_assoc, findIdx_first (by
            simp only [List.mem_append, not_or] at hbefore ⊢
            exact ⟨hbefore, hfirst⟩), findIdx_first hfirst]
          simp only [List.length_append, List.length_singleton, Option.map_some, Nat.zero_add]
        · have hnone (cs : List Char) (h : '#' ∉ cs) : cs.findIdx? (· = '#') = none :=
            List.findIdx?_eq_none_iff.mpr fun x hx => by
              simpa using fun heq : x = '#' => h (heq ▸ hx)
          rw [hnone _ (by simp only [List.mem_append, not_or] at hbefore ⊢; exact ⟨hbefore, hrest⟩),
            hnone rest hrest]
          rfl
      have hafter : (indexFrom '#' (start.length + 1) url.toList).any (· < start.length) = false := by
        unfold indexFrom
        cases (url.toList.drop (start.length + 1)).findIdx? (· = '#') with
        | none => rfl
        | some i => simp; omega
      rw [hmark, hafter, if_neg hfragment, slice_indexFrom, h.drop]
      rfl
  · rw [indexFrom_none hquery, exactSuffix_none hquery]

theorem afterQuestion_none (h : '?' ∉ url.toList) : afterQuestion (.string url) = none := by
  unfold afterQuestion
  dsimp only
  rw [indexFrom_none h, Option.map_none]

theorem Split.afterQuestion (h : Split url start rest) :
    ExactSuffix.afterQuestion (.string url) = some (.string (String.ofList rest)) := by
  have hindex : indexFrom '?' 0 url.toList = some start.length := by
    rw [h.parts]
    exact indexFrom_first h.first
  unfold ExactSuffix.afterQuestion
  dsimp only
  rw [hindex, Option.map_some]
  unfold slice
  dsimp only
  rw [h.drop]

/-- The log is read back to the last main document, and beyond it where its URL has no `?`. -/
theorem getSuffix_eq (h : LastDocument log front url) (hne : url ≠ "") :
    getSuffix log = ((afterQuestion (.string url)).or (front.reverse.findSome? lineQuery)).getD
      (.string "") := by
  obtain ⟨line, skipped, ev, document, hlines, hparse, hdocument, hurl, hskipped⟩ := h
  have hline : lineUrl line = some (.string url) := by
    unfold lineUrl
    rw [hparse]
    simp [hdocument, hurl, JsValue.truthy, hne]
  have hquery : lineQuery line = afterQuestion (.string url) := by
    unfold lineQuery
    rw [hline, Option.bind_some]
  have hrest : skipped.reverse.findSome? lineQuery = none :=
    List.findSome?_eq_none_iff.mpr fun l hl => by
      unfold lineQuery
      rw [hskipped l (List.mem_reverse.mp hl), Option.bind_none]
  unfold getSuffix
  rw [hlines, List.reverse_append, List.reverse_cons, List.append_assoc, List.findSome?_append,
    hrest, Option.none_or, List.singleton_append, List.findSome?_cons, hquery]
  cases afterQuestion (.string url) <;> rfl

/-- Whether the lines before have a suffix. -/
theorem nothingBefore_iff (front : List (List Char)) :
    NothingBefore front ↔
      (front.reverse.findSome? lineQuery).getD (.string "") = .string "" := by
  have hlatest {init rest : List (List Char)} {line : List Char} {query : JsValue}
      (hparts : front = init ++ line :: rest) (hrest : ∀ l ∈ rest, lineQuery l = none)
      (hquery : lineQuery line = some query) : front.reverse.findSome? lineQuery = some query := by
    have hnone : rest.reverse.findSome? lineQuery = none :=
      List.findSome?_eq_none_iff.mpr fun l hl => hrest l (List.mem_reverse.mp hl)
    rw [hparts, List.reverse_append, List.reverse_cons, List.append_assoc, List.findSome?_append,
      hnone, Option.none_or, List.singleton_append, List.findSome?_cons, hquery]
  constructor
  · intro h
    cases hfind : front.reverse.findSome? lineQuery with
    | none => rfl
    | some query =>
      obtain ⟨later, line, earlier, hparts, hquery, hlater⟩ := List.findSome?_eq_some_iff.mp hfind
      have hfront : front = earlier.reverse ++ line :: later.reverse := by
        rw [← List.reverse_reverse front, hparts]
        simp
      exact h earlier.reverse line later.reverse hfront
        (fun l hl => hlater l (List.mem_reverse.mp hl)) query hquery
  · intro h init line rest hparts hrest query hquery
    rwa [hlatest hparts hrest hquery] at h

/-! ## Agreement -/

theorem ofList_eq_empty {cs : List Char} : String.ofList cs = "" ↔ cs = [] := by
  constructor
  · intro h
    have := congrArg String.toList h
    simpa using this
  · rintro rfl
    rfl

/-- With a query, they agree where the fragment is no part of what any takes. -/
theorem Split.agree (h : Split url start rest)
    (hjourney : findExactSuffixUrl platform.toUrlParser [.string url] =
      if rest.takeWhile (· ≠ '#') = [] then none else some url)
    (hupdater : getSuffix log = .string (String.ofList rest))
    (hcontrol : captureUrlIssue platform (.string url) = none →
      controlSuffix platform (.string url) = ExactSuffix.exactSuffix url) :
    Agree platform log url ↔ if '#' ∈ start then rest = [] else '#' ∉ rest := by
  have hsuffix := h.exactSuffix
  by_cases hfragment : '#' ∈ start
  · rw [if_pos hfragment] at hsuffix ⊢
    constructor
    · intro hagree
      have hlog := hagree.updater
      rw [hupdater, hsuffix] at hlog
      exact ofList_eq_empty.mp (JsValue.string.inj hlog)
    · rintro rfl
      refine ⟨?_, ?_, ?_, hcontrol⟩
      · rw [h.webSuffix, hsuffix]
        rfl
      · rw [hjourney, hsuffix]
        rfl
      · rw [hupdater, hsuffix]
        rfl
  · rw [if_neg hfragment] at hsuffix ⊢
    constructor
    · intro hagree hmem
      have hlog := hagree.updater
      rw [hupdater, hsuffix, given_getD] at hlog
      have hrest : rest = rest.takeWhile (· ≠ '#') := String.ofList_injective (JsValue.string.inj hlog)
      rw [hrest] at hmem
      simpa using List.mem_takeWhile_imp hmem
    · intro hrest
      have htake : rest.takeWhile (· ≠ '#') = rest := takeWhile_ne hrest
      rw [htake] at hsuffix hjourney
      refine ⟨?_, ?_, ?_, hcontrol⟩
      · rw [h.webSuffix, hsuffix, given_getD, htake]
      · rw [hjourney, hsuffix]
        unfold given
        split <;> rfl
      · rw [hupdater, hsuffix, given_getD]

theorem Split.unambiguous (h : Split url start rest) (front : List (List Char)) :
    Unambiguous front url ↔ if '#' ∈ start then rest = [] else '#' ∉ rest := by
  have hquery : '?' ∈ url.toList := by
    rw [h.parts]
    simp
  have hend : (∃ start', url.toList = start' ++ ['?'] ∧ '?' ∉ start') ↔ rest = [] := by
    constructor
    · rintro ⟨start', hparts, hfirst⟩
      rw [h.parts] at hparts
      have hstart := congrArg (List.takeWhile (· ≠ '?')) hparts
      rw [takeWhile_before h.first, takeWhile_before hfirst] at hstart
      rw [hstart] at hparts
      exact List.tail_eq_of_cons_eq (List.append_cancel_left hparts)
    · rintro rfl
      exact ⟨start, h.parts, h.first⟩
  unfold Unambiguous
  rw [hend, h.fragment_mem]
  simp only [hquery, not_true_eq_false, false_and, true_and, false_or]
  by_cases hfragment : '#' ∈ start
  · simp [hfragment]
  · rw [if_neg hfragment]
    constructor
    · rintro (hnone | rfl)
      · exact fun hmem => hnone (.inr hmem)
      · exact List.not_mem_nil
    · exact fun hrest => .inl fun hmem => hmem.elim hfragment hrest

/-- **The extractors agree** exactly on the URLs that are not ambiguous. -/
theorem extractors_agree (platform : Platform) (log : List Char) (front : List (List Char))
    (url : String) {parsed : Url} (hparse : platform.parse url = some parsed)
    (hweb : parsed.isWeb = true) (hne : url ≠ "") (hlog : LastDocument log front url) :
    Agree platform log url ↔ Unambiguous front url := by
  have hcontrol (hissue : captureUrlIssue platform (.string url) = none) :=
    controlSuffix_eq hissue hne hparse
  have hfind : findExactSuffixUrl platform.toUrlParser [.string url] =
      if isSuffixUrl platform.toUrlParser url = true then some url else none := by
    unfold findExactSuffixUrl
    cases h : isSuffixUrl platform.toUrlParser url <;> simp [JsValue.text?, h]
  have hsuffix := getSuffix_eq hlog hne
  by_cases hquery : '?' ∈ url.toList
  · obtain ⟨start, rest, h⟩ := exists_split hquery
    rw [h.afterQuestion, Option.some_or, Option.getD_some] at hsuffix
    rw [h.isSuffixUrl hparse hweb] at hfind
    have hjourney : findExactSuffixUrl platform.toUrlParser [.string url] =
        if rest.takeWhile (· ≠ '#') = [] then none else some url := by
      rw [hfind]
      by_cases htake : rest.takeWhile (· ≠ '#') = []
      · rw [htake]
        rfl
      · rw [if_neg htake, if_pos (decide_eq_true htake)]
    rw [h.agree hjourney hsuffix hcontrol, h.unambiguous]
  · rw [afterQuestion_none hquery, Option.none_or] at hsuffix
    rw [isSuffixUrl_none _ hquery] at hfind
    have hexact := exactSuffix_none hquery
    have hunambiguous : Unambiguous front url ↔ NothingBefore front := by
      constructor
      · rintro (⟨-, h⟩ | ⟨h, -⟩ | ⟨start, hparts, -⟩)
        · exact h
        · exact absurd h hquery
        · refine absurd ?_ hquery
          rw [hparts]
          simp
      · exact fun h => .inl ⟨hquery, h⟩
    rw [hunambiguous, nothingBefore_iff, ← hsuffix]
    constructor
    · intro hagree
      rw [hagree.updater, hexact]
      rfl
    · intro hlast
      refine ⟨?_, ?_, ?_, hcontrol⟩
      · rw [webSuffix_none hquery, hexact]
        rfl
      · rw [hfind, hexact]
        rfl
      · rw [hlast, hexact]
        rfl

section Sample

/-- A parser that knows one host. -/
def shopPlatform : Platform where
  parse raw :=
    if raw = "https://shop.example/item?irclickid=7" ∨
        raw = "https://shop.example/item?irclickid=7#top" then
      some {
        href := raw, withoutHash := "https://shop.example/item?irclickid=7"
        origin := "https://shop.example", protocol := "https:", hostname := "shop.example"
        pathname := "/item", search := "?irclickid=7" }
    else none
  parseFrom _ _ := none
  now := 0
  dateParse _ := .nan

/-- The event of a journey that ends on a URL. -/
def journey (url : String) : JsValue :=
  .object [("events", .array [.object [("url", .string url),
    ("ta_signal", .object [("main_document", .string "true")])]])]

/-- The log of that journey alone. -/
def journeyLog (url : String) : List Char := (journey url).jsonText 0 0 ++ ['\n']

theorem journeyLog_shop :
    LastDocument (journeyLog "https://shop.example/item?irclickid=7") []
      "https://shop.example/item?irclickid=7" := by
  have hlines : logLines (journeyLog "https://shop.example/item?irclickid=7") =
      [(journey "https://shop.example/item?irclickid=7").jsonText 0 0] := by decide +kernel
  have hregular : (journey "https://shop.example/item?irclickid=7").Regular := by
    simp [journey, JsValue.Regular, JsValue.RegularItems, JsValue.RegularFields]
  have hparse := @parseJson_stringify 0 _ hregular _ rfl [] (by decide)
  rw [List.append_nil] at hparse
  exact ⟨_, [], _, _, hlines, hparse, rfl, rfl, nofun⟩

theorem extractors_agree_shop :
    Agree shopPlatform (journeyLog "https://shop.example/item?irclickid=7")
        "https://shop.example/item?irclickid=7" ↔
      Unambiguous [] "https://shop.example/item?irclickid=7" :=
  extractors_agree shopPlatform _ [] _ rfl (by decide) (by decide) journeyLog_shop

/-- **A fragment is taken for the suffix** by the updater. -/
theorem fragment_extracted :
    ¬Agree shopPlatform (journeyLog "https://shop.example/item?irclickid=7#top")
        "https://shop.example/item?irclickid=7#top" := by
  intro h
  have hlog : (getSuffix (journeyLog "https://shop.example/item?irclickid=7#top")).text? =
      some "irclickid=7#top" := by decide +kernel
  have hexact : exactSuffix "https://shop.example/item?irclickid=7#top" = some "irclickid=7" := by
    decide +kernel
  have hupdater := congrArg JsValue.text? h.updater
  rw [hlog, hexact] at hupdater
  exact absurd hupdater (by decide)

end Sample

end LinkSuffix.ExactSuffix
