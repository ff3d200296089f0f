import LinkSuffix.Web.AddressText

/-!
# The canonical spelling of an address

How the spelling that `new URL` writes begins, and what the guards read in it.

* `SixText.canonical`, `serialize_lower`, `serialize_apart`: it is a text of the address, in lower
  case, with digits and colons only.
* `prefix_of_documentation`, `isPublicIpv6_serialize`: the documentation and the global addresses.
-/

namespace LinkSuffix.AddressPolicy

/-! ## The canonical spelling -/

theorem toDigits_lower (n : Nat) : ∀ c ∈ Nat.toDigits 16 n, lowerChar c = c := by
  have hdigit : ∀ d < 16, lowerChar d.digitChar = d.digitChar := by decide
  induction n using Nat.strongRecOn with
  | ind n ih =>
    intro c hc
    by_cases hsmall : n < 16
    · rw [Nat.toDigits_of_lt_base hsmall, List.mem_singleton] at hc
      rw [hc]
      exact hdigit n hsmall
    · rw [Nat.toDigits_of_base_le (by omega) (by omega), List.mem_append,
        List.mem_singleton] at hc
      obtain hc | rfl := hc
      · exact ih (n / 16) (by omega) c hc
      · exact hdigit _ (Nat.mod_lt n (by omega))

theorem mem_joinGroups {groups : List Nat} {c : Char} (h : c ∈ joinGroups groups) :
    c = ':' ∨ ∃ group, c ∈ hexText group := by
  induction groups with
  | nil => exact absurd h List.not_mem_nil
  | cons a groups ih =>
    cases groups with
    | nil =>
      rw [joinGroups, List.map_singleton, List.intercalate_singleton] at h
      exact .inr ⟨a, h⟩
    | cons b groups =>
      rw [joinGroups_cons, List.mem_append, List.mem_cons] at h
      obtain h | h | h := h
      · exact .inr ⟨a, h⟩
      · exact .inl h
      · exact ih h

theorem mem_serialize {groups : List Nat} {c : Char} (h : c ∈ serialize groups) :
    c = ':' ∨ ∃ group, c ∈ hexText group := by
  unfold serialize at h
  generalize longestRun groups = run at h
  obtain ⟨start, length⟩ := run
  dsimp only at h
  split at h
  · exact mem_joinGroups h
  · rw [List.mem_append, List.mem_cons, List.mem_cons] at h
    obtain h | h | h | h := h
    · exact mem_joinGroups h
    · exact .inl h
    · exact .inl h
    · exact mem_joinGroups h

theorem serialize_apart {groups : List Nat} {d : Char} (hne : d ≠ ':') (hhex : hexValue d = none) :
    d ∉ serialize groups := by
  intro hmem
  obtain h | ⟨group, h⟩ := mem_serialize hmem
  · exact hne h
  · have hsome := hexText_hex group d h
    rw [hhex] at hsome
    cases hsome

theorem serialize_lower (groups : List Nat) :
    (serialize groups).map lowerChar = serialize groups := by
  refine (List.map_congr_left fun c hc => ?_).trans (List.map_id _)
  obtain rfl | ⟨group, h⟩ := mem_serialize hc
  · decide
  · exact toDigits_lower group c h

namespace SixText

variable {groups : List Nat}

/-- The canonical spelling is one. -/
theorem canonical (hlength : groups.length = 8) (hlt : ∀ group ∈ groups, group < 65536) :
    SixText (String.ofList (serialize groups)) (String.ofList (serialize groups)) groups := by
  have hparse := parseIpv6_serialize hlength hlt
  refine ⟨isIP_ipv6 hparse, ?_, .inl rfl⟩
  rw [String.toList_ofList, (beforeZone_of_not_mem (percent_not_mem hparse)).1, hparse]

theorem normalized_canonical (hlength : groups.length = 8) (hlt : ∀ group ∈ groups, group < 65536) :
    normalizedIpv6 (String.ofList (serialize groups)) = String.ofList (serialize groups) := by
  rw [← String.toList_inj, (canonical hlength hlt).normalized, String.toList_ofList,
    (beforeZone_of_not_mem (percent_not_mem (parseIpv6_serialize hlength hlt))).1,
    serialize_lower]

end SixText

theorem mappedIpv4_serialize (groups : List Nat) :
    mappedIpv4 (String.ofList (serialize groups)) = none := by
  have hdot : '.' ∉ (serialize groups).drop 7 := fun hmem =>
    serialize_apart (by decide) (by decide) (List.mem_of_mem_drop hmem)
  rw [mappedIpv4, String.toList_ofList, splitOnChar_piece hdot]
  exact if_neg fun h => absurd h.2.1 (by simp)

/-- The canonical spelling of a documentation address begins as the guards expect. -/
theorem prefix_of_documentation {groups : List Nat} (hlength : groups.length = 8)
    (h : InDocumentation groups) :
    hasPrefix "2001:db8:" (String.ofList (serialize groups)) = true := by
  match groups, hlength, h with
  | a :: b :: c :: rest, _, h =>
    obtain ⟨rfl, hb⟩ := List.cons.inj h
    obtain ⟨rfl, -⟩ := List.cons.inj hb
    rw [hasPrefix_iff, String.toList_ofList]
    obtain ⟨tail, htail⟩ | ⟨hzero, -⟩ := @serialize_front 0x2001 (by decide) 0xdb8 c rest
    · exact ⟨tail, htail⟩
    · cases hzero

/-! ## Global addresses -/

/-- A group of four digits. -/
theorem hexText_four {n : Nat} (hle : 0x1000 ≤ n) (hlt : n < 0x10000) :
    hexText n = [(n / 16 / 16 / 16).digitChar, (n / 16 / 16 % 16).digitChar,
      (n / 16 % 16).digitChar, (n % 16).digitChar] := by
  rw [hexText, Nat.toDigits_of_base_le (by omega) (by omega),
    Nat.toDigits_of_base_le (by omega) (by omega), Nat.toDigits_of_base_le (by omega) (by omega),
    Nat.toDigits_of_lt_base (by omega)]
  rfl

theorem digitChar_plain : ∀ d < 16,
    (hexValue d.digitChar).isSome = true ∧ d.digitChar.isUpper = false := by
  decide

/-- One more digit. -/
theorem parseRadix_next {cs : List Char} {c : Char} {n : Nat} (hne : cs ≠ [])
    (h : parseRadix 16 hexValue (cs ++ [c]) = some n) :
    ∃ value d, parseRadix 16 hexValue cs = some value ∧ d < 16 ∧ n = 16 * value + d := by
  rw [parseRadix_concat hne] at h
  obtain ⟨value, hvalue, h⟩ := Option.bind_eq_some_iff.mp h
  obtain ⟨d, -, h⟩ := Option.bind_eq_some_iff.mp h
  split at h
  case isTrue hd => exact ⟨value, d, hvalue, hd, (Option.some.inj h).symm⟩
  case isFalse => cases h

/-- Four digits, the first of them 2 or 3. -/
theorem hextet_front {d x y z : Char} {n : Nat} (hd : d ∈ ['2', '3'])
    (h : hextet [d, x, y, z] = some n) : 0x2000 ≤ n ∧ n ≤ 0x3fff := by
  rw [hextet, if_pos (by simp)] at h
  obtain ⟨three, d₃, hthree, hd₃, rfl⟩ := @parseRadix_next [d, x, y] z n (by simp) h
  obtain ⟨two, d₂, htwo, hd₂, rfl⟩ := @parseRadix_next [d, x] y three (by simp) hthree
  obtain ⟨one, d₁, hone, hd₁, rfl⟩ := @parseRadix_next [d] x two (by simp) htwo
  have hfirst : one = 2 ∨ one = 3 := by
    rw [List.mem_cons, List.mem_singleton] at hd
    obtain rfl | rfl := hd
    · exact .inl (Option.some.inj (hone.symm.trans (by decide)))
    · exact .inr (Option.some.inj (hone.symm.trans (by decide)))
  omega

/-- The first group of a text, and where it ends. -/
theorem first_of_front {n : String} {groups : List Nat} (h : parseIpv6 n.toList = some groups)
    {first rest : List Char} (hn : n.toList = first ++ ':' :: rest) (hne : first ≠ [])
    (hfirst : ':' ∉ first) : hextet first = some (groups.getD 0 0) := by
  obtain ⟨piece, pieces, hsplit, hpiece⟩ := parseIpv6_first h
  rw [hn, splitOnChar_next hfirst] at hsplit
  obtain ⟨rfl, -⟩ := List.cons.inj hsplit
  obtain ⟨hnil, -⟩ | ⟨group, hgroup, hhead⟩ := hpiece
  · exact absurd hnil hne
  · cases groups with
    | nil => cases hhead
    | cons a groups =>
      obtain rfl := Option.some.inj hhead
      exact hgroup

/-- The canonical spelling of an address whose first group is not zero. -/
theorem serialize_groups {groups : List Nat} (hlength : groups.length = 8)
    (hfirst : groups.getD 0 0 ≠ 0) :
    (∃ tail, serialize groups = hexText (groups.getD 0 0) ++
        ':' :: (hexText (groups.getD 1 0) ++ ':' :: tail)) ∨
      groups.getD 1 0 = 0 ∧
        ∃ tail, serialize groups = hexText (groups.getD 0 0) ++ ':' :: ':' :: tail := by
  match groups, hlength with
  | a :: b :: c :: rest, _ => exact serialize_front hfirst b c rest

/-- The prefixes the proxy package refuses. -/
theorem refused_iff {groups : List Nat} (hlength : groups.length = 8)
    (hlt : ∀ group ∈ groups, group < 65536) :
    (∃ front ∈ ["2001:0:", "2001::", "2001:db8:", "2002:"],
        hasPrefix front (String.ofList (serialize groups)) = true) ↔
      groups.getD 0 0 = 0x2001 ∧ (groups.getD 1 0 = 0 ∨ groups.getD 1 0 = 0xdb8) ∨
        groups.getD 0 0 = 0x2002 := by
  have hparse : parseIpv6 (String.ofList (serialize groups)).toList = some groups := by
    rw [String.toList_ofList, parseIpv6_serialize hlength hlt]
  have h2001 : hextet "2001".toList = some 0x2001 := by decide
  have h2002 : hextet "2002".toList = some 0x2002 := by decide
  have hzero : hextet "0".toList = some 0 := by decide
  have hdb8 : hextet "db8".toList = some 0xdb8 := by decide
  simp only [List.mem_cons, List.not_mem_nil, or_false, exists_eq_or_imp, exists_eq_left,
    hasPrefix_iff]
  constructor
  · rintro (⟨rest, h⟩ | ⟨rest, h⟩ | ⟨rest, h⟩ | ⟨rest, h⟩)
    · obtain ⟨ha, hb⟩ := @groups_of_front _ _ hparse "2001".toList "0".toList rest h (by decide)
        (by decide) (by decide)
      obtain ⟨hnil, -⟩ | hb := hb
      · cases hnil
      · exact .inl ⟨(Option.some.inj (h2001.symm.trans ha)).symm,
          .inl (Option.some.inj (hzero.symm.trans hb)).symm⟩
    · obtain ⟨ha, hb⟩ := @groups_of_front _ _ hparse "2001".toList [] rest h (by decide)
        (by decide) (by decide)
      obtain ⟨-, hb⟩ | hb := hb
      · exact .inl ⟨(Option.some.inj (h2001.symm.trans ha)).symm, .inl hb⟩
      · cases hb
    · obtain ⟨ha, hb⟩ := @groups_of_front _ _ hparse "2001".toList "db8".toList rest h (by decide)
        (by decide) (by decide)
      obtain ⟨hnil, -⟩ | hb := hb
      · cases hnil
      · exact .inl ⟨(Option.some.inj (h2001.symm.trans ha)).symm,
          .inr (Option.some.inj (hdb8.symm.trans hb)).symm⟩
    · have ha := @first_of_front _ _ hparse "2002".toList rest h (by decide) (by decide)
      exact .inr (Option.some.inj (h2002.symm.trans ha)).symm
  · rintro (⟨ha, hb⟩ | ha)
    · obtain ⟨tail, htail⟩ | ⟨-, tail, htail⟩ := serialize_groups hlength (by omega)
      · rw [String.toList_ofList, htail, ha]
        obtain hb | hb := hb
        · rw [hb]
          exact .inl ⟨tail, rfl⟩
        · rw [hb]
          exact .inr (.inr (.inl ⟨tail, rfl⟩))
      · rw [String.toList_ofList, htail, ha]
        exact .inr (.inl ⟨tail, rfl⟩)
    · obtain ⟨tail, htail⟩ | ⟨-, tail, htail⟩ := serialize_groups hlength (by omega)
      · rw [String.toList_ofList, htail, ha]
        exact .inr (.inr (.inr ⟨_, rfl⟩))
      · rw [String.toList_ofList, htail, ha]
        exact .inr (.inr (.inr ⟨_, rfl⟩))

/-- How the canonical spelling of a global address begins. -/
theorem serialize_digits {groups : List Nat} (hlength : groups.length = 8)
    (hle : 0x2000 ≤ groups.getD 0 0) (hlt : groups.getD 0 0 ≤ 0x3fff) :
    ∃ d ∈ ['2', '3'], ∃ x < 16, ∃ y < 16, ∃ z < 16, ∃ tail, serialize groups =
      d :: x.digitChar :: y.digitChar :: z.digitChar :: ':' :: tail := by
  obtain ⟨tail, htail⟩ : ∃ tail, serialize groups = hexText (groups.getD 0 0) ++ ':' :: tail := by
    obtain ⟨tail, htail⟩ | ⟨-, tail, htail⟩ := serialize_groups hlength (by omega)
    · exact ⟨_, htail⟩
    · exact ⟨_, htail⟩
  rw [hexText_four (by omega) (by omega)] at htail
  generalize groups.getD 0 0 = a at *
  have hd : (a / 16 / 16 / 16).digitChar ∈ ['2', '3'] := by
    obtain h | h : a / 16 / 16 / 16 = 2 ∨ a / 16 / 16 / 16 = 3 := by omega
    · rw [h]
      decide
    · rw [h]
      decide
  exact ⟨_, hd, a / 16 / 16 % 16, by omega, a / 16 % 16, by omega, a % 16, by omega, tail, htail⟩

theorem isPublicIpv6_serialize {groups : List Nat} (hlength : groups.length = 8)
    (hlt : ∀ group ∈ groups, group < 65536) :
    isPublicIpv6 (String.ofList (serialize groups)) = true ↔ Global groups := by
  have hparse : parseIpv6 (String.ofList (serialize groups)).toList = some groups := by
    rw [String.toList_ofList, parseIpv6_serialize hlength hlt]
  have hrefused := refused_iff hlength hlt
  rw [isPublicIpv6, Bool.and_eq_true, Bool.not_eq_true', ← Bool.not_eq_true, List.any_eq_true,
    hrefused, Global, not_or]
  refine and_congr ?_ Iff.rfl
  rw [String.toList_ofList] at hparse ⊢
  constructor
  · intro hshape
    split at hshape
    case h_2 => cases hshape
    case h_1 d x y z rest hc =>
      rw [Bool.and_eq_true, decide_eq_true_eq, List.all_eq_true] at hshape
      obtain ⟨hd, hdigits⟩ := hshape
      have hcolon : ':' ∉ [d, x, y, z] := by
        rw [List.mem_cons]
        rintro (rfl | hmem)
        · exact absurd hd (by decide)
        · exact absurd (hdigits ':' hmem) (by decide)
      have hfirst := @first_of_front (String.ofList (serialize groups)) groups
        (by rw [String.toList_ofList, hparse]) [d, x, y, z] rest
        (by rw [String.toList_ofList, hc]; rfl) (by simp) hcolon
      exact hextet_front hd hfirst
  · rintro ⟨hle, hge⟩
    obtain ⟨d, hd, x, hx, y, hy, z, hz, tail, htail⟩ := serialize_digits hlength hle hge
    rw [htail]
    simp only [hd, decide_true, List.all_cons, List.all_nil, (digitChar_plain x hx).1,
      (digitChar_plain x hx).2, (digitChar_plain y hy).1, (digitChar_plain y hy).2,
      (digitChar_plain z hz).1, (digitChar_plain z hz).2, Bool.not_false, Bool.and_self]

end LinkSuffix.AddressPolicy
