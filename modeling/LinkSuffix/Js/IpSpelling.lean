import LinkSuffix.Js.IpAddress

/-!
# The spelling of an address

`new URL` writes an IPv6 address in one way: lower case, no zeros in front, and the first longest run
of zero groups as `::`.

* `serialize`, `IpAddress.canonical`: the spelling.
* **`parseIpv6_serialize`**: the spelling written is read back as the address.
* `serialize_front`: how it begins.
-/

namespace LinkSuffix

def hexText (n : Nat) : List Char := Nat.toDigits 16 n

def joinGroups (groups : List Nat) : List Char := List.intercalate [':'] (groups.map hexText)

/-- The zero groups at the front. -/
def zeroRun (groups : List Nat) : Nat := (groups.takeWhile (· = 0)).length

/-- Where the first longest run of zero groups begins, and its length. -/
def longestRun (groups : List Nat) : Nat × Nat :=
  (List.range groups.length).foldl
    (fun best i => if best.2 < zeroRun (groups.drop i) then (i, zeroRun (groups.drop i)) else best)
    (0, 1)

/-- The IPv6 serializer: two zero groups or more are written as `::`. -/
def serialize (groups : List Nat) : List Char :=
  let (start, length) := longestRun groups
  if length ≤ 1 then joinGroups groups
  else joinGroups (groups.take start) ++ ':' :: ':' :: joinGroups (groups.drop (start + length))

example : serialize [0x2001, 0xdb8, 0, 0, 1, 0, 0, 1] = "2001:db8::1:0:0:1".toList := by decide +kernel

/-- The canonical spelling. -/
def IpAddress.canonical : IpAddress → String
  | .four ip => ".".intercalate (ip.octets.map toString)
  | .six ip => String.ofList (serialize ip.groups)

/-! ## Reading it back -/

theorem hexValue_digitChar : ∀ d < 16, hexValue d.digitChar = some d := by decide

theorem parseRadix_toDigits (n : Nat) : parseRadix 16 hexValue (Nat.toDigits 16 n) = some n := by
  induction n using Nat.strongRecOn with
  | ind n ih =>
    by_cases hsmall : n < 16
    · rw [Nat.toDigits_of_lt_base hsmall, parseRadix_single, hexValue_digitChar n hsmall]
      exact if_pos hsmall
    · have hmod : n % 16 < 16 := Nat.mod_lt n (by omega)
      rw [Nat.toDigits_of_base_le (by omega) (by omega), parseRadix_concat Nat.toDigits_ne_nil,
        ih (n / 16) (by omega), hexValue_digitChar _ hmod]
      simp only [Option.bind_some, if_pos hmod]
      exact congrArg some (by omega)

theorem hextet_hexText {n : Nat} (h : n < 65536) : hextet (hexText n) = some n := by
  unfold hextet hexText
  rw [if_pos ((Nat.length_toDigits_le_iff (by omega) (by omega)).mpr h), parseRadix_toDigits]

theorem hexText_ne_nil (n : Nat) : hexText n ≠ [] := Nat.toDigits_ne_nil

theorem hexText_hex (n : Nat) : ∀ c ∈ hexText n, (hexValue c).isSome = true :=
  (parseRadix_spec (parseRadix_toDigits n)).2.1

theorem colon_not_mem_hexText (n : Nat) : ':' ∉ hexText n := fun hmem =>
  absurd (hexText_hex n ':' hmem) (by decide)

theorem splitOnChar_joinGroups {groups : List Nat} (h : groups ≠ []) :
    splitOnChar ':' (joinGroups groups) = groups.map hexText ∧
      ∀ cs, splitOnChar ':' (joinGroups groups ++ ':' :: cs) =
        groups.map hexText ++ splitOnChar ':' cs := by
  refine splitOnChar_join (by simpa using h) fun piece hmem => ?_
  obtain ⟨n, -, rfl⟩ := List.mem_map.mp hmem
  exact colon_not_mem_hexText n

theorem hexTexts_ne_nil (groups : List Nat) : ∀ piece ∈ groups.map hexText, piece ≠ [] := by
  intro piece hmem
  obtain ⟨n, -, rfl⟩ := List.mem_map.mp hmem
  exact hexText_ne_nil n

theorem mapM_hextet {groups : List Nat} (h : ∀ group ∈ groups, group < 65536) :
    (groups.map hexText).mapM hextet = some groups := by
  induction groups with
  | nil => rfl
  | cons group groups ih =>
    rw [List.map_cons, List.mapM_cons, hextet_hexText (h group List.mem_cons_self),
      ih fun x hx => h x (List.mem_cons_of_mem group hx)]
    rfl

theorem tailGroups_hexText {groups : List Nat} (hne : groups ≠ [])
    (h : ∀ group ∈ groups, group < 65536) : tailGroups (groups.map hexText) = some groups := by
  induction groups with
  | nil => exact absurd rfl hne
  | cons group groups ih =>
    have hgroup := hextet_hexText (h group List.mem_cons_self)
    cases groups with
    | nil =>
      rw [List.map_cons, List.map_nil]
      unfold tailGroups
      rw [hgroup]
      rfl
    | cons next groups =>
      have hrest := ih (List.cons_ne_nil next groups) fun x hx => h x (List.mem_cons_of_mem group hx)
      rw [List.map_cons] at hrest
      rw [List.map_cons, List.map_cons, tailGroups_next, hgroup, hrest]
      rfl

theorem backGroups_joinGroups {groups : List Nat} (h : ∀ group ∈ groups, group < 65536) :
    backGroups (splitOnChar ':' (joinGroups groups)) = some groups := by
  unfold backGroups
  by_cases hne : groups = []
  · subst hne
    rfl
  · rw [(splitOnChar_joinGroups hne).1]
    have hpieces : groups.map hexText ≠ [[]] := fun heq =>
      hexTexts_ne_nil groups [] (heq ▸ List.mem_singleton_self []) rfl
    rw [if_neg hpieces, tailGroups_hexText hne h]

theorem parseIpv6_pieces {cs piece : List Char} {pieces : List (List Char)}
    (hsplit : splitOnChar ':' cs = piece :: pieces) (hne : piece ≠ []) :
    parseIpv6 cs = parsePieces (piece :: pieces) := by
  unfold parseIpv6
  rw [hsplit]
  cases piece with
  | nil => exact absurd rfl hne
  | cons c piece => rfl

theorem parsePieces_full {pieces : List (List Char)} (h : ∀ piece ∈ pieces, piece ≠ []) :
    parsePieces pieces = (tailGroups pieces).filter (·.length = 8) := by
  have hdrop : (pieces.dropWhile fun piece => decide (piece ≠ [])) = [] :=
    List.dropWhile_eq_nil_iff.mpr fun piece hmem => decide_eq_true (h piece hmem)
  unfold parsePieces
  rw [hdrop]

theorem parsePieces_split {front back : List (List Char)} (h : ∀ piece ∈ front, piece ≠ []) :
    parsePieces (front ++ [] :: back) =
      (front.mapM hextet).bind fun front => (backGroups back).bind (expand front) := by
  have hall : ∀ piece ∈ front, decide (piece ≠ []) = true := fun piece hmem =>
    decide_eq_true (h piece hmem)
  unfold parsePieces
  rw [List.dropWhile_append_of_pos hall, List.takeWhile_append_of_pos hall]
  simp

theorem zeroRun_spec (groups : List Nat) :
    zeroRun groups ≤ groups.length ∧
      groups = List.replicate (zeroRun groups) 0 ++ groups.drop (zeroRun groups) := by
  induction groups with
  | nil => exact ⟨Nat.le_refl 0, rfl⟩
  | cons group groups ih =>
    unfold zeroRun at ih ⊢
    by_cases hzero : group = 0
    · subst hzero
      rw [List.takeWhile_cons_of_pos (by rfl), List.length_cons]
      exact ⟨Nat.succ_le_succ ih.1, congrArg (0 :: ·) ih.2⟩
    · rw [List.takeWhile_cons_of_neg (by simpa using hzero)]
      exact ⟨Nat.zero_le _, rfl⟩

/-- A run of two groups or more is one of the address. -/
theorem longestRun_spec (groups : List Nat) :
    (longestRun groups).2 ≤ 1 ∨ (longestRun groups).1 < groups.length ∧
      (longestRun groups).2 = zeroRun (groups.drop (longestRun groups).1) := by
  have hall : ∀ (is : List Nat) (best : Nat × Nat), (∀ i ∈ is, i < groups.length) →
      (best.2 ≤ 1 ∨ best.1 < groups.length ∧ best.2 = zeroRun (groups.drop best.1)) →
      let found := is.foldl (fun best i => if best.2 < zeroRun (groups.drop i)
        then (i, zeroRun (groups.drop i)) else best) best
      found.2 ≤ 1 ∨ found.1 < groups.length ∧ found.2 = zeroRun (groups.drop found.1) := by
    intro is
    induction is with
    | nil => exact fun best _ h => h
    | cons i is ih =>
      intro best hlt h
      rw [List.foldl_cons]
      refine ih _ (fun j hj => hlt j (List.mem_cons_of_mem i hj)) ?_
      split
      · exact Or.inr ⟨hlt i List.mem_cons_self, rfl⟩
      · exact h
  exact hall (List.range groups.length) (0, 1) (fun i hi => List.mem_range.mp hi)
    (Or.inl (Nat.le_refl 1))

/-- **The spelling written is read back as the address.** -/
theorem parseIpv6_serialize {groups : List Nat} (hlength : groups.length = 8)
    (h : ∀ group ∈ groups, group < 65536) : parseIpv6 (serialize groups) = some groups := by
  have hne : groups ≠ [] := by
    rintro rfl
    cases hlength
  have hspec := longestRun_spec groups
  unfold serialize
  generalize hrun : longestRun groups = run at hspec ⊢
  obtain ⟨start, length⟩ := run
  dsimp only at hspec ⊢
  by_cases hshort : length ≤ 1
  · rw [if_pos hshort]
    have hpieces := (splitOnChar_joinGroups hne).1
    cases groups with
    | nil => exact absurd rfl hne
    | cons group groups =>
      rw [List.map_cons] at hpieces
      rw [parseIpv6_pieces hpieces (hexText_ne_nil group), ← List.map_cons,
        parsePieces_full (hexTexts_ne_nil _), tailGroups_hexText hne h]
      simp [hlength]
  · rw [if_neg hshort]
    obtain ⟨hstart, hlen⟩ := hspec.resolve_left hshort
    obtain ⟨hle, hzeros⟩ := zeroRun_spec (groups.drop start)
    rw [← hlen, List.drop_drop] at hzeros
    rw [← hlen, List.length_drop] at hle
    have hback : ∀ group ∈ groups.drop (start + length), group < 65536 := fun x hx =>
      h x (List.mem_of_mem_drop hx)
    have hfront : ∀ group ∈ groups.take start, group < 65536 := fun x hx =>
      h x (List.mem_of_mem_take hx)
    have hexpand : expand (groups.take start) (groups.drop (start + length)) = some groups := by
      unfold expand
      have hfrontLength : (groups.take start).length = start := by
        rw [List.length_take]
        omega
      have hbackLength : (groups.drop (start + length)).length = 8 - (start + length) := by
        rw [List.length_drop, hlength]
      rw [hfrontLength, hbackLength, if_pos (by omega),
        show 8 - (start + (8 - (start + length))) = length by omega, ← hzeros,
        List.take_append_drop]
    by_cases hzero : start = 0
    · subst hzero
      rw [List.take_zero] at hexpand ⊢
      unfold parseIpv6
      rw [show joinGroups [] ++ ':' :: ':' :: joinGroups (groups.drop (0 + length)) =
          ':' :: ':' :: joinGroups (groups.drop (0 + length)) from rfl, splitOnChar_sep,
        splitOnChar_sep]
      dsimp only
      rw [backGroups_joinGroups hback]
      exact hexpand
    · have htake : groups.take start ≠ [] := by
        simp [hzero, hne]
      have hsplit := (splitOnChar_joinGroups htake).2
        (':' :: joinGroups (groups.drop (start + length)))
      rw [splitOnChar_sep] at hsplit
      cases hparts : groups.take start with
      | nil => exact absurd hparts htake
      | cons group front =>
        rw [hparts] at hsplit hfront hexpand
        have hpieces := hsplit
        rw [List.map_cons, List.cons_append] at hpieces
        rw [parseIpv6_pieces hpieces (hexText_ne_nil group), ← List.cons_append, ← List.map_cons,
          parsePieces_split (hexTexts_ne_nil _), mapM_hextet hfront, backGroups_joinGroups hback]
        exact hexpand

theorem joinGroups_cons (a b : Nat) (rest : List Nat) :
    joinGroups (a :: b :: rest) = hexText a ++ ':' :: joinGroups (b :: rest) := by
  unfold joinGroups
  rw [List.map_cons, List.map_cons, List.intercalate_cons_cons, List.append_assoc]
  rfl

theorem joinGroups_append (a : Nat) (rest : List Nat) (cs : List Char) :
    ∃ tail, joinGroups (a :: rest) ++ ':' :: cs = hexText a ++ ':' :: tail := by
  cases rest with
  | nil => exact ⟨cs, by simp [joinGroups]⟩
  | cons b rest =>
    rw [joinGroups_cons, List.append_assoc]
    exact ⟨_, rfl⟩

/-- How the first two groups are written, where the first is not zero. -/
theorem serialize_front {a : Nat} (ha : a ≠ 0) (b c : Nat) (rest : List Nat) :
    (∃ tail, serialize (a :: b :: c :: rest) = hexText a ++ ':' :: (hexText b ++ ':' :: tail)) ∨
      b = 0 ∧ ∃ tail, serialize (a :: b :: c :: rest) = hexText a ++ ':' :: ':' :: tail := by
  have hspec := longestRun_spec (a :: b :: c :: rest)
  unfold serialize
  generalize longestRun (a :: b :: c :: rest) = run at hspec ⊢
  obtain ⟨start, length⟩ := run
  dsimp only at hspec ⊢
  by_cases hshort : length ≤ 1
  · rw [if_pos hshort, joinGroups_cons, joinGroups_cons]
    exact Or.inl ⟨_, rfl⟩
  · rw [if_neg hshort]
    obtain ⟨-, hlen⟩ := hspec.resolve_left hshort
    match start with
    | 0 =>
      rw [List.drop_zero] at hlen
      unfold zeroRun at hlen
      rw [List.takeWhile_cons_of_neg (by simpa using ha)] at hlen
      exact absurd hlen (by simp; omega)
    | 1 =>
      refine Or.inr ⟨?_, ?_⟩
      · by_contra hb
        rw [List.drop_one, List.tail_cons] at hlen
        unfold zeroRun at hlen
        rw [List.takeWhile_cons_of_neg (by simpa using hb)] at hlen
        exact absurd hlen (by simp; omega)
      · refine ⟨joinGroups ((a :: b :: c :: rest).drop (1 + length)), ?_⟩
        simp only [List.take_succ_cons, List.take_zero, joinGroups, List.map_cons, List.map_nil,
          List.intercalate_singleton]
    | start + 2 =>
      rw [List.take_succ_cons, List.take_succ_cons, joinGroups_cons, List.append_assoc,
        List.cons_append]
      obtain ⟨tail, htail⟩ := joinGroups_append b ((c :: rest).take start)
        (':' :: joinGroups ((a :: b :: c :: rest).drop (start + 2 + length)))
      rw [htail]
      exact Or.inl ⟨tail, rfl⟩

end LinkSuffix
