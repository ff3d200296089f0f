import LinkSuffix.Js.Numeral
import LinkSuffix.Web.AddressPolicy

/-!
# The text of an address

What the guards of the address policy read in a text.

* `unbracket_bracketed`, `SixText`: the text without brackets and zone spells the address.
* `octet_text`, `blockedIpv4_eq`, `isPublicIpv4_eq`: an IPv4 address has one text, and the guards
  read its bytes.
* `reservedIpv6_iff`, `documentation_of_front`, `mapped_front`, `mappedIpv4_some`: what each test
  says of the groups.
-/

namespace LinkSuffix.AddressPolicy

/-! ## Brackets and zones -/

/-- A text without brackets. -/
def Plain (text : String) : Prop := '[' ∉ text.toList ∧ ']' ∉ text.toList

theorem unbracket_plain {text : String} (h : Plain text) : unbracket text = text := by
  have hlast : text.toList.getLast? ≠ some ']' := fun hlast => h.2 (List.mem_of_getLast? hlast)
  unfold unbracket
  dsimp only
  split
  case h_1 cs hcs => exact absurd (hcs ▸ List.mem_cons_self) h.1
  case h_2 => rw [if_neg hlast, String.ofList_toList]

theorem unbracket_bracketed {raw text : String} (h : Bracketed raw text) (hplain : Plain text) :
    unbracket raw = text := by
  obtain rfl | rfl := h
  · exact unbracket_plain hplain
  · have hcs : ("[" ++ text ++ "]").toList = '[' :: (text.toList ++ [']']) := by
      simp [String.toList_append]
    unfold unbracket
    dsimp only
    rw [hcs]
    show String.ofList (if (text.toList ++ [']']).getLast? = some ']' then
      (text.toList ++ [']']).dropLast else text.toList ++ [']']) = text
    rw [List.getLast?_append, List.getLast?_singleton, Option.some_or, if_pos rfl,
      List.dropLast_concat, String.ofList_toList]

theorem mem_map_lower {d : Char} (hd : d ∈ [':', '.', '0', '%', '[', ']']) {cs : List Char} :
    d ∈ cs.map lowerChar ↔ d ∈ cs := by
  rw [List.mem_map]
  constructor
  · rintro ⟨c, hc, hlower⟩
    rw [lowerChar_eq hd] at hlower
    exact hlower ▸ hc
  · intro hmem
    exact ⟨d, hmem, (lowerChar_eq hd d).mpr rfl⟩

theorem Plain.lower {text : String} (h : Plain text) : Plain (jsLower text) := by
  rw [Plain, jsLower_toList, mem_map_lower (by decide), mem_map_lower (by decide)]
  exact h

theorem Bracketed.lower {raw text : String} (h : Bracketed raw text) :
    Bracketed (jsLower raw) (jsLower text) := by
  obtain rfl | rfl := h
  · exact .inl rfl
  · refine .inr (String.toList_inj.mp ?_)
    rw [jsLower_toList]
    simp only [String.toList_append, List.map_append, jsLower_toList]
    rfl

theorem beforeZone_lower (cs : List Char) :
    beforeZone (cs.map lowerChar) = (beforeZone cs).map lowerChar := by
  have hzone : (fun c : Char => decide (c ≠ '%')) ∘ lowerChar = fun c => decide (c ≠ '%') := by
    funext c
    exact decide_eq_decide.mpr (not_congr (lowerChar_eq (by decide) c))
  unfold beforeZone
  rw [List.takeWhile_map, hzone]

theorem plain_of_chars {text : String}
    (h : ∀ c ∈ text.toList, (hexValue c).isSome = true ∨ c = '%' ∨ isZoneChar c = true) :
    Plain text := by
  constructor
  · intro hmem
    rcases h '[' hmem with h | h | h <;> exact absurd h (by decide)
  · intro hmem
    rcases h ']' hmem with h | h | h <;> exact absurd h (by decide)

/-! ## Texts of an IPv6 address -/

/-- A text of an IPv6 address, bracketed or not, and the text without brackets. -/
structure SixText (raw text : String) (groups : List Nat) : Prop where
  accepted : isIP text = 6
  spells : parseIpv6 (beforeZone text.toList) = some groups
  bracketed : Bracketed raw text

theorem spells_six {raw : String} {ip : Ipv6} :
    Spells raw (.six ip) ↔ ∃ text, SixText raw text ip.groups :=
  ⟨fun ⟨text, haccepted, hspells, hraw⟩ => ⟨text, haccepted, hspells, hraw⟩,
    fun ⟨text, h⟩ => ⟨text, h.accepted, h.spells, h.bracketed⟩⟩

namespace SixText

variable {raw text : String} {groups : List Nat}

theorem plain (h : SixText raw text groups) : Plain text := plain_of_chars (isIP_six h.accepted).2

theorem normalized (h : SixText raw text groups) :
    (normalizedIpv6 raw).toList = (beforeZone text.toList).map lowerChar := by
  rw [normalizedIpv6, String.toList_ofList, unbracket_bracketed h.bracketed.lower h.plain.lower,
    jsLower_toList, beforeZone_lower]

/-- What is tested spells the address. -/
theorem parse_normalized (h : SixText raw text groups) :
    parseIpv6 (normalizedIpv6 raw).toList = some groups := by
  rw [h.normalized, parseIpv6_lower, h.spells]

theorem version (h : SixText raw text groups) :
    isIP (String.ofList (beforeZone (unbracket raw).toList)) = 6 ∧
      isIP (normalizedIpv6 raw) = 6 := by
  rw [unbracket_bracketed h.bracketed h.plain]
  have hnormalized := isIP_ipv6 h.parse_normalized
  rw [String.ofList_toList] at hnormalized
  exact ⟨isIP_ipv6 h.spells, hnormalized⟩

end SixText

/-! ## Bytes -/

theorem digitChar_toNat {c : Char} (h : c.isDigit = true) :
    c.toNat - 48 < 10 ∧ (c.toNat - 48).digitChar = c := by
  refine ascii_cases (P := fun c => c.isDigit = true →
    c.toNat - 48 < 10 ∧ (c.toNat - 48).digitChar = c) (by decide) ?_ c h
  intro d hd hdigit
  rw [(wide_classes hd).2.2] at hdigit
  cases hdigit

/-- Digits without a zero in front are the decimal of their value. -/
theorem toDigits_of_digits {cs : List Char} (hne : cs ≠ []) (hdigits : ∀ c ∈ cs, c.isDigit = true)
    (hfront : cs.head? ≠ some '0') : Nat.toDigits 10 (Nat.ofDigitChars 10 cs 0) = cs := by
  induction cs using List.reverseRecOn with
  | nil => exact absurd rfl hne
  | append_singleton cs c ih =>
    obtain ⟨hlt, hchar⟩ := digitChar_toNat (hdigits c (List.mem_append_right cs (by simp)))
    have hvalue : Nat.ofDigitChars 10 (cs ++ [c]) 0 =
        10 * Nat.ofDigitChars 10 cs 0 + (c.toNat - 48) := by
      rw [Nat.ofDigitChars_eq_foldl, List.foldl_append, ← Nat.ofDigitChars_eq_foldl]
      rfl
    rw [hvalue]
    cases cs with
    | nil => rw [show Nat.ofDigitChars 10 [] 0 = 0 from rfl, Nat.mul_zero, Nat.zero_add,
        Nat.toDigits_of_lt_base hlt, hchar, List.nil_append]
    | cons d cs =>
      have hrest := ih (List.cons_ne_nil d cs)
        (fun x hx => hdigits x (List.mem_append_left [c] hx)) hfront
      have hpos : 0 < Nat.ofDigitChars 10 (d :: cs) 0 := by
        rw [Nat.pos_iff_ne_zero]
        intro hzero
        rw [hzero] at hrest
        obtain ⟨rfl, -⟩ := List.cons.inj hrest
        exact hfront rfl
      rw [Nat.toDigits_of_base_le (by decide) (by omega),
        show (10 * Nat.ofDigitChars 10 (d :: cs) 0 + (c.toNat - 48)) / 10 =
          Nat.ofDigitChars 10 (d :: cs) 0 by omega, hrest,
        show (10 * Nat.ofDigitChars 10 (d :: cs) 0 + (c.toNat - 48)) % 10 = c.toNat - 48 by omega,
        hchar]

/-- An octet is spelled in one way. -/
theorem octet_text {cs : List Char} {n : Nat} (h : octet cs = some n) :
    cs = (toString n).toList := by
  obtain ⟨hne, hdigits, hparse, -⟩ := octet_spec h
  have hlist : (toString n).toList = Nat.toDigits 10 n := Nat.toList_repr
  rw [parseDigits_eq hne hdigits] at hparse
  rw [hlist, ← Option.some.inj hparse]
  unfold octet at h
  split at h
  case isTrue hfront =>
    obtain rfl | hfront := hfront
    · rfl
    · exact (toDigits_of_digits hne hdigits hfront).symm
  case isFalse => cases h

theorem byteOf_toString : ∀ n < 256, byteOf (toString n) = some n := by
  intro n hn
  have hbyte : ((n : Rat).den = 1 ∧ 0 ≤ (n : Rat) ∧ (n : Rat) ≤ 255) :=
    ⟨Rat.den_natCast n, Nat.cast_nonneg n, by exact_mod_cast Nat.le_of_lt_succ hn⟩
  unfold byteOf
  rw [textToNumber_toString]
  dsimp only
  rw [if_pos hbyte, Rat.num_natCast, Int.toNat_natCast]

theorem mapM_eq_map {α β : Type} {f : α → Option β} {g : β → α} {xs : List α} {ys : List β}
    (h : xs.mapM f = some ys) (hg : ∀ x y, f x = some y → x = g y) : xs = ys.map g := by
  induction xs generalizing ys with
  | nil =>
    obtain rfl := Option.some.inj h
    rfl
  | cons x xs ih =>
    rw [List.mapM_cons] at h
    obtain ⟨y, hy, h⟩ := Option.bind_eq_some_iff.mp h
    obtain ⟨ys', hys, h⟩ := Option.bind_eq_some_iff.mp h
    obtain rfl := Option.some.inj h
    rw [List.map_cons, ← hg x y hy, ← ih hys]

/-- The parts of an IPv4 address are the decimals of its bytes. -/
theorem parseIpv4_parts {cs : List Char} {octets : List Nat} (h : parseIpv4 cs = some octets) :
    splitOnChar '.' cs = octets.map fun value => (toString value).toList := by
  obtain ⟨hall, -⟩ := Option.filter_eq_some_iff.mp h
  exact mapM_eq_map hall fun piece value hpiece => octet_text hpiece

theorem mapM_byteOf {octets : List Nat} (h : ∀ value ∈ octets, value ≤ 255) :
    (octets.map toString).mapM byteOf = some octets := by
  induction octets with
  | nil => rfl
  | cons value octets ih =>
    have hvalue := byteOf_toString value (Nat.lt_succ_of_le (h value List.mem_cons_self))
    rw [List.map_cons, List.mapM_cons, hvalue, ih fun x hx => h x (List.mem_cons_of_mem value hx)]
    rfl

/-- The guards of the web side and of the control server read the bytes. -/
theorem blockedIpv4_eq {cs : List Char} {octets : List Nat} (h : parseIpv4 cs = some octets) :
    blockedIpv4 (String.ofList cs) = reservedBytes octets := by
  obtain ⟨hlength, hle⟩ := parseIpv4_sound h
  have hparts : splitText '.' (String.ofList cs) = octets.map toString := by
    rw [splitText, String.toList_ofList, parseIpv4_parts h, List.map_map]
    exact List.map_congr_left fun value _ => String.ofList_toList
  have hbytes : ipv4Bytes (String.ofList cs) = some octets := by
    rw [ipv4Bytes, hparts, List.length_map, if_neg (by omega), mapM_byteOf hle]
  rw [blockedIpv4, hbytes]

/-- So does the guard of the proxy package. -/
def publicBytes (octets : List Nat) : Bool :=
  let a := octets.getD 0 0
  let b := octets.getD 1 0
  let c := octets.getD 2 0
  !(a = 0 || a = 10 || a = 127 || 224 ≤ a || (a = 100 && 64 ≤ b && b ≤ 127) ||
    (a = 169 && b = 254) || (a = 172 && 16 ≤ b && b ≤ 31) || (a = 192 && (b = 0 || b = 168)) ||
    (a = 198 && (b = 18 || b = 19 || (b = 51 && c = 100))) || (a = 203 && b = 0 && c = 113))

theorem isPublicIpv4_eq {cs : List Char} {octets : List Nat} (h : parseIpv4 cs = some octets) :
    isPublicIpv4 (String.ofList cs) = publicBytes octets := by
  have hoctets : ((splitOnChar '.' cs).map fun part => (parseDigits part).getD 0) = octets := by
    rw [parseIpv4_parts h, List.map_map]
    refine (List.map_congr_left fun value _ => ?_).trans (List.map_id octets)
    rw [Function.comp_apply, parseDigits_toString]
    rfl
  rw [isPublicIpv4, String.toList_ofList, hoctets]
  rfl

/-- The guards refuse the special addresses. -/
theorem special_refused {octets : List Nat} (h : SpecialBytes octets) :
    reservedBytes octets = true ∧ publicBytes octets = false := by
  by_cases hzero : octets = [0, 0, 0, 0]
  · subst hzero
    decide
  · unfold SpecialBytes at h
    unfold reservedBytes publicBytes
    simp only [hzero, false_or] at h
    generalize octets.getD 0 0 = a, octets.getD 1 0 = b, octets.getD 2 0 = c at h ⊢
    dsimp only
    obtain rfl | rfl | ⟨rfl, hb⟩ | ⟨rfl, rfl⟩ | ⟨rfl, rfl⟩ | ⟨ha, -⟩ | ⟨rfl, rfl, rfl⟩ |
      ⟨rfl, rfl, rfl⟩ | ⟨rfl, rfl, rfl⟩ := h
    · simp
    · simp
    · simp [hb]
    · simp
    · simp
    · simp [ha]
    · simp
    · simp
    · simp

/-! ## Masks -/

theorem and_mul_two_pow (a m k : Nat) : a &&& m * 2 ^ k = (a / 2 ^ k &&& m) * 2 ^ k := by
  refine Nat.eq_of_testBit_eq fun i => ?_
  simp only [Nat.testBit_and, Nat.testBit_mul_two_pow, Nat.testBit_div_two_pow]
  by_cases h : k ≤ i
  · simp [h]
  · simp [h]

/-- A mask of the `b` highest of `b + k` bits. -/
theorem and_mask {a k : Nat} (b : Nat) (h : a < 2 ^ (b + k)) :
    a &&& (2 ^ b - 1) * 2 ^ k = a / 2 ^ k * 2 ^ k := by
  have hhigh : a / 2 ^ k < 2 ^ b := by
    rw [Nat.div_lt_iff_lt_mul (Nat.two_pow_pos k), ← Nat.pow_add]
    exact h
  rw [and_mul_two_pow, Nat.and_two_pow_sub_one_eq_mod, Nat.mod_eq_of_lt hhigh]

/-- The three masks ask for a local address. -/
theorem masks_iff {first : Nat} (h : first < 65536) :
    (first &&& 0xfe00 = 0xfc00 ∨ first &&& 0xffc0 = 0xfe80 ∨ first &&& 0xff00 = 0xff00) ↔
      InLocal first := by
  have hprivate : first &&& 0xfe00 = first / 512 * 512 := @and_mask first 9 7 h
  have hlink : first &&& 0xffc0 = first / 64 * 64 := @and_mask first 6 10 h
  have hmulticast : first &&& 0xff00 = first / 256 * 256 := @and_mask first 8 8 h
  rw [hprivate, hlink, hmulticast, InLocal]
  omega

/-! ## What the tests say of the groups -/

section Tests

variable {n : String} {groups : List Nat}

theorem firstGroup_eq (h : parseIpv6 n.toList = some groups) :
    firstGroup n = groups.getD 0 0 := by
  obtain ⟨first, pieces, hsplit, hfirst⟩ := parseIpv6_first h
  have hgetD : ∀ group, groups.head? = some group → groups.getD 0 0 = group := by
    intro group hgroup
    cases groups with
    | nil => cases hgroup
    | cons a rest => exact Option.some.inj hgroup
  unfold firstGroup
  rw [hsplit]
  obtain ⟨rfl, hzero⟩ | ⟨group, hgroup, hhead⟩ := hfirst
  · rw [hgetD 0 hzero]
    rfl
  · obtain ⟨-, hhex, -⟩ := hextet_spec hgroup
    have hparse : parseRadix 16 hexValue first = some group := by
      unfold hextet at hgroup
      split at hgroup
      case isTrue => exact hgroup
      case isFalse => cases hgroup
    dsimp only
    rw [List.takeWhile_eq_self_iff.mpr hhex, hparse, hgetD group hhead]
    rfl

theorem first_lt (h : parseIpv6 n.toList = some groups) : groups.getD 0 0 < 65536 := by
  obtain ⟨hlength, hlt⟩ := parseIpv6_sound h
  cases groups with
  | nil => cases hlength
  | cons a rest => exact hlt a List.mem_cons_self

theorem reservedIpv6_iff (h : parseIpv6 n.toList = some groups) :
    reservedIpv6 n = true ↔
      InLocal (groups.getD 0 0) ∨ hasPrefix "2001:db8:" n = true := by
  rw [← masks_iff (first_lt h), reservedIpv6, firstGroup_eq h]
  simp only [Bool.or_eq_true, decide_eq_true_eq, or_assoc]

theorem hasPrefix_iff {pre text : String} :
    hasPrefix pre text = true ↔ ∃ rest, text.toList = pre.toList ++ rest := by
  rw [hasPrefix, List.isPrefixOf_iff_prefix]
  constructor
  · rintro ⟨rest, h⟩
    exact ⟨rest, h.symm⟩
  · rintro ⟨rest, h⟩
    exact ⟨rest, h.symm⟩

/-- The texts before the first two colons spell the first two groups. -/
theorem groups_of_front (h : parseIpv6 n.toList = some groups) {first second rest : List Char}
    (hn : n.toList = first ++ ':' :: (second ++ ':' :: rest)) (hne : first ≠ [])
    (hfirst : ':' ∉ first) (hsecond : ':' ∉ second) :
    hextet first = some (groups.getD 0 0) ∧
      (second = [] ∧ groups.getD 1 0 = 0 ∨ hextet second = some (groups.getD 1 0)) := by
  obtain ⟨third, pieces, hpieces⟩ := splitOnChar_ne_nil ':' rest
  have hsplit : splitOnChar ':' n.toList = first :: second :: third :: pieces := by
    rw [hn, ← hpieces, splitOnChar_next hfirst, splitOnChar_next hsecond]
  obtain ⟨a, b, tail, rfl, ha, hb⟩ := parseIpv6_second h hsplit hne
  exact ⟨ha, hb⟩

theorem documentation_of_front (h : parseIpv6 n.toList = some groups)
    (hfront : hasPrefix "2001:db8:" n = true) : InDocumentation groups := by
  obtain ⟨rest, hrest⟩ := hasPrefix_iff.mp hfront
  obtain ⟨ha, hb⟩ := @groups_of_front n groups h "2001".toList "db8".toList rest hrest (by decide)
    (by decide) (by decide)
  have hb := hb.resolve_left fun hnil => by cases hnil.1
  rw [show hextet "2001".toList = some 0x2001 by decide, Option.some_inj] at ha
  rw [show hextet "db8".toList = some 0xdb8 by decide, Option.some_inj] at hb
  obtain ⟨hlength, -⟩ := parseIpv6_sound h
  match groups, hlength, ha, hb with
  | a :: b :: rest, _, ha, hb =>
    rw [InDocumentation, show a = 0x2001 from ha.symm, show b = 0xdb8 from hb.symm]
    rfl

/-- What stands after `::ffff:`. -/
theorem groups_of_mapped (h : parseIpv6 n.toList = some groups) {rest : List Char}
    (hrest : n.toList = "::ffff:".toList ++ rest) :
    ∃ back, tailGroups (splitOnChar ':' rest) = some back ∧ back.length ≤ 6 ∧
      groups = List.replicate (7 - back.length) 0 ++ 0xffff :: back := by
  obtain ⟨piece, pieces, hpieces⟩ := splitOnChar_ne_nil ':' rest
  have hsplit : splitOnChar ':' n.toList = [] :: [] :: "ffff".toList :: piece :: pieces := by
    rw [hrest, ← hpieces,
      show "::ffff:".toList ++ rest = ':' :: ':' :: ("ffff".toList ++ ':' :: rest) from rfl,
      splitOnChar_sep, splitOnChar_sep, splitOnChar_next (by decide)]
  have hparse : (backGroups ("ffff".toList :: piece :: pieces)).bind (expand []) = some groups := by
    unfold parseIpv6 at h
    rw [hsplit] at h
    exact h
  obtain ⟨all, hback, hexpand⟩ := Option.bind_eq_some_iff.mp hparse
  rw [backGroups, if_neg (by simp)] at hback
  obtain ⟨group, back, hgroup, hmore, rfl⟩ := tailGroups_next_some hback
  have hffff : group = 0xffff :=
    (Option.some.inj ((by decide : hextet "ffff".toList = some 0xffff).symm.trans hgroup)).symm
  obtain ⟨hle, hgroups⟩ := expand_eq_some hexpand
  rw [List.length_nil, List.length_cons] at hle hgroups
  refine ⟨back, hpieces ▸ hmore, by omega, ?_⟩
  rw [hgroups, hffff, List.nil_append, show 8 - (0 + (back.length + 1)) = 7 - back.length by omega]

/-- After `::ffff:` the address begins with zeros and has another group. -/
theorem mapped_front (h : parseIpv6 n.toList = some groups)
    (hfront : hasPrefix "::ffff:" n = true) : groups.getD 0 0 = 0 ∧ 0xffff ∈ groups := by
  obtain ⟨rest, hrest⟩ := hasPrefix_iff.mp hfront
  obtain ⟨back, -, hle, rfl⟩ := groups_of_mapped h hrest
  refine ⟨?_, List.mem_append_right _ List.mem_cons_self⟩
  obtain ⟨k, hk⟩ : ∃ k, 7 - back.length = k + 1 := ⟨6 - back.length, by omega⟩
  rw [hk]
  rfl

/-- The bytes of a dotted tail are those of the mapped address. -/
theorem mappedBytes_dotted {octets : List Nat} (hlength : octets.length = 4)
    (hle : ∀ value ∈ octets, value ≤ 255) :
    mappedBytes (List.replicate 5 0 ++ 0xffff :: dottedGroups octets) = some octets := by
  match octets, hlength with
  | [a, b, c, d], _ =>
    simp only [List.mem_cons, List.not_mem_nil, or_false, forall_eq_or_imp, forall_eq] at hle
    have hfirst : (256 * a + b) / 256 = a ∧ (256 * a + b) % 256 = b := by omega
    have hsecond : (256 * c + d) / 256 = c ∧ (256 * c + d) % 256 = d := by omega
    simp [mappedBytes, dottedGroups, List.replicate, hfirst, hsecond]

/-- What the web side takes for a mapped address is one, and it tests its bytes. -/
theorem mappedIpv4_some (h : parseIpv6 n.toList = some groups) {ip : String}
    (hmapped : mappedIpv4 n = some ip) :
    ∃ bytes, mappedBytes groups = some bytes ∧ blockedIpv4 ip = reservedBytes bytes := by
  unfold mappedIpv4 at hmapped
  dsimp only at hmapped
  split at hmapped
  case isFalse => cases hmapped
  case isTrue hall =>
    obtain ⟨hfront, hparts, hdigits⟩ := hall
    obtain rfl := Option.some.inj hmapped
    obtain ⟨rest, hrest⟩ := hasPrefix_iff.mp hfront
    have hdrop : n.toList.drop 7 = rest := by
      rw [hrest]
      rfl
    rw [hdrop] at hparts hdigits ⊢
    obtain ⟨back, htail, -, rfl⟩ := groups_of_mapped h hrest
    have hcolon : ':' ∉ rest := by
      intro hmem
      obtain ⟨part, hpart, hc⟩ := (mem_splitOnChar (by decide : ':' ≠ '.')).1 hmem
      have hdigit := (Bool.and_eq_true_iff.mp (List.all_eq_true.mp hdigits part hpart)).2
      exact absurd (List.all_eq_true.mp hdigit ':' hc) (by decide)
    have hdot : '.' ∈ rest := by
      by_contra hdot
      rw [splitOnChar_piece hdot] at hparts
      cases hparts
    rw [splitOnChar_piece hcolon] at htail
    obtain ⟨group, hgroup, -⟩ | ⟨octets, hoctets, rfl⟩ := tailGroups_single htail
    · exact absurd ((hextet_spec hgroup).2.1 '.' hdot) (by decide)
    · obtain ⟨hlength, hle⟩ := parseIpv4_sound hoctets
      rw [(dottedGroups_sound hlength hle).1]
      exact ⟨octets, mappedBytes_dotted hlength hle, blockedIpv4_eq hoctets⟩

theorem groups_of_unspecified (h : parseIpv6 n.toList = some groups) (hn : n = "::") :
    groups = unspecified := by
  subst hn
  exact (Option.some.inj ((by decide : parseIpv6 "::".toList = some unspecified).symm.trans h)).symm

theorem groups_of_loopback (h : parseIpv6 n.toList = some groups) (hn : n = "::1") :
    groups = loopback := by
  subst hn
  exact (Option.some.inj ((by decide : parseIpv6 "::1".toList = some loopback).symm.trans h)).symm

end Tests

/-! ## Addresses apart -/

theorem mappedBytes_first {groups bytes : List Nat} (h : mappedBytes groups = some bytes) :
    groups.getD 0 0 = 0 ∧ 0xffff ∈ groups := by
  unfold mappedBytes at h
  split at h
  case h_2 => cases h
  case h_1 =>
    split at h
    case isFalse => cases h
    case isTrue hzero =>
      obtain ⟨rfl, rfl, rfl, rfl, rfl, rfl⟩ := hzero
      exact ⟨rfl, by simp⟩

theorem unspecified_ne_of_mem {groups : List Nat} (h : 0xffff ∈ groups) :
    groups ≠ unspecified ∧ groups ≠ loopback := by
  constructor
  · rintro rfl
    exact absurd h (by decide)
  · rintro rfl
    exact absurd h (by decide)

theorem documentation_first {groups : List Nat} (h : InDocumentation groups) :
    groups.getD 0 0 = 0x2001 ∧ groups.getD 1 0 = 0xdb8 := by
  match groups, h with
  | a :: b :: rest, h =>
    obtain ⟨rfl, hb⟩ := List.cons.inj h
    obtain ⟨rfl, -⟩ := List.cons.inj hb
    exact ⟨rfl, rfl⟩

theorem zero_apart {groups : List Nat} (h : groups.getD 0 0 = 0) :
    ¬InLocal (groups.getD 0 0) ∧ ¬InDocumentation groups ∧ ¬Global groups := by
  refine ⟨?_, fun hdoc => ?_, fun hglobal => ?_⟩
  · rw [h, InLocal]
    omega
  · have hfirst := (documentation_first hdoc).1
    omega
  · have hfirst := hglobal.1.1
    omega

/-- No special address is global but a documentation one of `3fff::/20`. -/
theorem Global.not_special {ip : Ipv6} (h : Global ip.groups)
    (hspecial : Special (.six ip)) : InNewDocumentation ip.groups := by
  obtain ⟨hrange, hdocumentation, -⟩ := h
  obtain hzero | hzero | hlocal | hdoc | hnew | ⟨bytes, hbytes, -⟩ := hspecial
  · rw [hzero] at hrange
    exact absurd hrange (by decide)
  · rw [hzero] at hrange
    exact absurd hrange (by decide)
  · unfold InLocal at hlocal
    omega
  · obtain ⟨hfirst, hsecond⟩ := documentation_first hdoc
    exact absurd ⟨hfirst, .inr hsecond⟩ hdocumentation
  · exact hnew
  · have hfirst := (mappedBytes_first hbytes).1
    omega

end LinkSuffix.AddressPolicy
