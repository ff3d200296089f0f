import LinkSuffix.Web.CanonicalAddress

/-!
# The verdicts on an address

What the guards of the address policy say of a text, by the address it spells.

* `SixText.isPublic_iff`, `SixText.isBlocked_iff`, `SixText.blockedTarget_iff`: the verdicts on a
  text of an IPv6 address, and `canonical_isPublic` and the like on the canonical one.
* `uniform_four`: the verdicts on a text of an IPv4 address.
* **`uniform_iff`**: when a text gets the verdicts of the canonical one and special addresses are
  refused. **`mapped_loopback_allowed`**: a loopback address is let through.
-/

namespace LinkSuffix.AddressPolicy

/-! ## The verdicts on an IPv6 address -/

namespace SixText

variable {raw text : String} {groups : List Nat}

theorem isBlocked_iff (h : SixText raw text groups) :
    isBlockedAddress raw = true ↔
      (normalizedIpv6 raw = "::" ∨ normalizedIpv6 raw = "::1") ∨
        (∃ bytes ∈ mappedBytes groups, reservedBytes bytes = true ∧
          mappedIpv4 (normalizedIpv6 raw) ≠ none) ∨
        InLocal (groups.getD 0 0) ∨ hasPrefix "2001:db8:" (normalizedIpv6 raw) = true := by
  have hparse := h.parse_normalized
  unfold isBlockedAddress
  rw [h.version.1]
  dsimp only
  rw [if_neg (by decide), if_neg (by decide)]
  split
  case isTrue hzero => exact ⟨fun _ => .inl hzero, fun _ => rfl⟩
  case isFalse hzero =>
    cases hmapped : mappedIpv4 (normalizedIpv6 raw) with
    | none =>
      dsimp only
      rw [reservedIpv6_iff hparse]
      constructor
      · exact fun hreserved => .inr (.inr hreserved)
      · rintro (hzero' | ⟨-, -, -, hnone⟩ | hreserved)
        · exact absurd hzero' hzero
        · exact absurd rfl hnone
        · exact hreserved
    | some ip =>
      obtain ⟨bytes, hbytes, hblocked⟩ := mappedIpv4_some hparse hmapped
      obtain ⟨hlocal, hdoc, -⟩ := zero_apart (mappedBytes_first hbytes).1
      dsimp only
      rw [hblocked]
      constructor
      · exact fun hreserved => .inr (.inl ⟨bytes, hbytes, hreserved, Option.some_ne_none ip⟩)
      · rintro (hzero' | ⟨bytes', hbytes', hreserved, -⟩ | hlocal' | hfront)
        · exact absurd hzero' hzero
        · rw [hbytes] at hbytes'
          rw [Option.some.inj hbytes']
          exact hreserved
        · exact absurd hlocal' hlocal
        · exact absurd (documentation_of_front hparse hfront) hdoc

theorem blockedTarget_iff (h : SixText raw text groups) :
    blockedTargetAddress raw = true ↔
      (normalizedIpv6 raw = "::" ∨ normalizedIpv6 raw = "::1") ∨
        hasPrefix "::ffff:" (normalizedIpv6 raw) = true ∨
        InLocal (groups.getD 0 0) ∨ hasPrefix "2001:db8:" (normalizedIpv6 raw) = true := by
  unfold blockedTargetAddress
  dsimp only
  rw [h.version.2, if_neg (by decide), if_neg (by decide), ← reservedIpv6_iff h.parse_normalized]
  split
  case isTrue hearly =>
    refine ⟨fun _ => ?_, fun _ => rfl⟩
    obtain hzero | hzero | hfront := hearly
    · exact .inl (.inl hzero)
    · exact .inl (.inr hzero)
    · exact .inr (.inl hfront)
  case isFalse hearly =>
    constructor
    · exact fun hreserved => .inr (.inr hreserved)
    · rintro ((hzero | hzero) | hfront | hreserved)
      · exact absurd (.inl hzero) hearly
      · exact absurd (.inr (.inl hzero)) hearly
      · exact absurd (.inr (.inr hfront)) hearly
      · exact hreserved

end SixText

/-! ## The verdict of the proxy package -/

theorem normalizedHost_bracketed {raw text : String} (h : Bracketed raw text) (hplain : Plain text)
    (hlast : text.toList.getLast? ≠ some '.') : normalizedHost raw = jsLower text := by
  have hlower : (jsLower text).toList.getLast? ≠ some '.' := by
    rw [jsLower_toList, List.getLast?_map]
    intro h
    obtain ⟨c, hc, hdot⟩ := Option.map_eq_some_iff.mp h
    rw [lowerChar_eq (by decide)] at hdot
    exact hlast (hdot ▸ hc)
  rw [normalizedHost, unbracket_bracketed h.lower hplain.lower]
  rw [if_neg hlower, String.ofList_toList]

/-- A zone is more than its `%`. -/
theorem isIP_zone {text : String} (h : isIP text = 6) (hzone : '%' ∈ text.toList) :
    ∃ front rest, text.toList = front ++ '%' :: rest ∧ rest ≠ [] := by
  have hparts := List.takeWhile_append_dropWhile (p := (· ≠ '%')) (l := text.toList)
  have hlength : text.toList.dropWhile (· ≠ '%') = [] ∨
      1 < (text.toList.dropWhile (· ≠ '%')).length := by
    unfold isIP at h
    dsimp only at h
    split at h
    · cases h
    · split at h
      case isTrue hsix => exact hsix.2.imp id fun hrest => hrest.1
      case isFalse => cases h
  obtain hnone | hlength := hlength
  · have hall := List.dropWhile_eq_nil_iff.mp hnone '%' hzone
    exact absurd rfl (of_decide_eq_true hall)
  · cases hrest : text.toList.dropWhile (· ≠ '%') with
    | nil =>
      rw [hrest] at hlength
      cases hlength
    | cons c rest =>
      have hhead := List.head?_dropWhile_not (· ≠ '%') text.toList
      rw [hrest] at hhead hparts hlength
      have hc : c = '%' := by simpa using hhead
      refine ⟨_, rest, (hc ▸ hparts).symm, ?_⟩
      rintro rfl
      exact absurd hlength (by simp)

theorem percent_mem_host {raw text : String} (h : Bracketed raw text) (hplain : Plain text)
    (haccepted : isIP text = 6) (hzone : '%' ∈ text.toList) :
    '%' ∈ (normalizedHost raw).toList := by
  obtain ⟨front, rest, htext, hne⟩ := isIP_zone haccepted hzone
  have hpercent : lowerChar '%' = '%' := by decide
  rw [normalizedHost, unbracket_bracketed h.lower hplain.lower, jsLower_toList, htext]
  rw [String.toList_ofList, List.map_append, List.map_cons, hpercent]
  split
  · have hrest : rest.map lowerChar ≠ [] := fun hnil => hne (List.map_eq_nil_iff.mp hnil)
    rw [List.dropLast_append_of_ne_nil (List.cons_ne_nil _ _), List.dropLast_cons_of_ne_nil hrest]
    exact List.mem_append_right _ List.mem_cons_self
  · exact List.mem_append_right _ List.mem_cons_self

/-- A host with a zone is refused. -/
theorem isPublicAddress_zone {P : UrlParser} (hP : ReadsIpv6 P) {raw : String}
    (hzone : '%' ∈ (normalizedHost raw).toList) : isPublicAddress P isIP raw = false := by
  have hsix : isIP (normalizedHost raw) = 6 →
      P.parse ("http://[" ++ normalizedHost raw ++ "]/") = none := by
    intro hsix
    have hread := hP _ hsix
    have hnone : parseIpv6 (normalizedHost raw).toList = none := by
      by_contra hsome
      obtain ⟨groups, hgroups⟩ := Option.ne_none_iff_exists'.mp hsome
      exact percent_not_mem hgroups hzone
    rw [hnone] at hread
    exact Option.map_eq_none_iff.mp hread
  have hfour : isIP (normalizedHost raw) ≠ 4 := by
    intro hfour
    obtain ⟨octets, hoctets⟩ := isIP_four hfour
    rcases (parseIpv4_chars hoctets).2.1 '%' hzone with h | h
    · exact absurd h (by decide)
    · exact absurd h (by decide)
  unfold isPublicAddress
  dsimp only
  by_cases hversion : isIP (normalizedHost raw) = 6
  · rw [if_pos hversion, hsix hversion]
    rfl
  · rw [if_neg hversion]
    dsimp only
    rw [if_neg hfour, decide_eq_false hversion]
    rfl

theorem percent_bracketed {raw text : String} (h : Bracketed raw text) :
    '%' ∈ raw.toList ↔ '%' ∈ text.toList := by
  obtain rfl | rfl := h
  · exact Iff.rfl
  · simp [String.toList_append]

namespace SixText

variable {P : UrlParser} {raw text : String} {groups : List Nat}

theorem isPublic_iff (hP : ReadsIpv6 P) (h : SixText raw text groups) :
    isPublicAddress P isIP raw = true ↔ '%' ∉ raw.toList ∧ Global groups := by
  obtain ⟨hlength, hlt⟩ := parseIpv6_sound h.spells
  by_cases hzone : '%' ∈ text.toList
  · have hhost := percent_mem_host h.bracketed h.plain h.accepted hzone
    rw [isPublicAddress_zone hP hhost, percent_bracketed h.bracketed]
    exact ⟨fun hfalse => (Bool.false_ne_true hfalse).elim, fun hno => absurd hzone hno.1⟩
  · have hparse : parseIpv6 text.toList = some groups := by
      rw [← (beforeZone_of_not_mem hzone).1, h.spells]
    have hhost := normalizedHost_bracketed h.bracketed h.plain (parseIpv6_chars hparse).2.2
    have hlower : parseIpv6 (jsLower text).toList = some groups := by
      rw [jsLower_toList, parseIpv6_lower, hparse]
    have hsix : isIP (jsLower text) = 6 := by
      rw [← String.ofList_toList (s := jsLower text)]
      exact isIP_ipv6 hlower
    have hread := hP _ hsix
    rw [hlower] at hread
    obtain ⟨url, hurl, hname⟩ := Option.map_eq_some_iff.mp hread
    have hcanonical : normalizedHost url.hostname = String.ofList (serialize groups) := by
      have hsixText := SixText.canonical hlength hlt
      have hbracketed : Bracketed url.hostname (String.ofList (serialize groups)) := by
        refine .inr (String.toList_inj.mp ?_)
        rw [hname]
        simp [String.toList_append]
      rw [normalizedHost_bracketed hbracketed hsixText.plain, ← String.toList_inj, jsLower_toList,
        String.toList_ofList, serialize_lower]
      rw [String.toList_ofList]
      exact (parseIpv6_chars (parseIpv6_serialize hlength hlt)).2.2
    have hversion := isIP_ipv6 (parseIpv6_serialize hlength hlt)
    unfold isPublicAddress
    dsimp only
    rw [hhost, if_pos hsix, hurl, Option.map_some, hcanonical]
    dsimp only
    rw [hversion, if_neg (by decide), decide_eq_true rfl, Bool.true_and,
      isPublicIpv6_serialize hlength hlt, percent_bracketed h.bracketed]
    exact ⟨fun hglobal => ⟨hzone, hglobal⟩, fun hboth => hboth.2⟩

end SixText

/-! ## The verdicts on the canonical spelling -/

section Canonical

variable {ip : Ipv6}

theorem canonical_text : SixText (IpAddress.six ip).canonical (IpAddress.six ip).canonical
    ip.groups :=
  SixText.canonical ip.length_groups ip.group_lt

theorem canonical_normalized :
    normalizedIpv6 (IpAddress.six ip).canonical = (IpAddress.six ip).canonical :=
  SixText.normalized_canonical ip.length_groups ip.group_lt

theorem canonical_zero :
    ((IpAddress.six ip).canonical = "::" ∨ (IpAddress.six ip).canonical = "::1") ↔
      ip.groups = unspecified ∨ ip.groups = loopback := by
  have hparse := (@canonical_text ip).parse_normalized
  rw [canonical_normalized] at hparse
  refine or_congr ⟨groups_of_unspecified hparse, fun h => ?_⟩
    ⟨groups_of_loopback hparse, fun h => ?_⟩
  · rw [IpAddress.canonical, h]
    decide
  · rw [IpAddress.canonical, h]
    decide

theorem canonical_documentation :
    hasPrefix "2001:db8:" (IpAddress.six ip).canonical = true ↔ InDocumentation ip.groups := by
  have hparse := (@canonical_text ip).parse_normalized
  rw [canonical_normalized] at hparse
  exact ⟨documentation_of_front hparse, prefix_of_documentation ip.length_groups⟩

theorem canonical_isPublic {P : UrlParser} (hP : ReadsIpv6 P) :
    isPublicAddress P isIP (IpAddress.six ip).canonical = true ↔ Global ip.groups := by
  rw [canonical_text.isPublic_iff hP]
  refine and_iff_right ?_
  rw [IpAddress.canonical, String.toList_ofList]
  exact serialize_apart (by decide) (by decide)

theorem canonical_isBlocked :
    isBlockedAddress (IpAddress.six ip).canonical = true ↔
      (ip.groups = unspecified ∨ ip.groups = loopback) ∨ InLocal (ip.groups.getD 0 0) ∨
        InDocumentation ip.groups := by
  rw [canonical_text.isBlocked_iff, canonical_normalized, canonical_zero, canonical_documentation]
  have hmapped : mappedIpv4 (IpAddress.six ip).canonical = none := mappedIpv4_serialize ip.groups
  rw [hmapped]
  simp

theorem canonical_blockedTarget :
    blockedTargetAddress (IpAddress.six ip).canonical = true ↔
      (ip.groups = unspecified ∨ ip.groups = loopback) ∨
        hasPrefix "::ffff:" (IpAddress.six ip).canonical = true ∨
        InLocal (ip.groups.getD 0 0) ∨ InDocumentation ip.groups := by
  rw [canonical_text.blockedTarget_iff, canonical_normalized, canonical_zero,
    canonical_documentation]

end Canonical

/-! ## Uniform verdicts -/

section Uniform

variable {P : UrlParser} {raw text : String} {ip : Ipv6}

/-- A text spelled out is refused by the web side where the canonical one is. -/
theorem SpelledOut.isBlocked (hraw : SpelledOut raw ip.groups) (h : SixText raw text ip.groups) :
    isBlockedAddress raw = true ↔ isBlockedAddress (IpAddress.six ip).canonical = true := by
  rw [h.isBlocked_iff, canonical_isBlocked]
  have hparse := h.parse_normalized
  constructor
  · rintro ((hzero | hzero) | ⟨bytes, hbytes, hreserved, hmapped⟩ | hlocal | hdoc)
    · exact .inl (.inl (groups_of_unspecified hparse hzero))
    · exact .inl (.inr (groups_of_loopback hparse hzero))
    · exact absurd ((hraw.mapped bytes hbytes).2 hreserved) hmapped
    · exact .inr (.inl hlocal)
    · exact .inr (.inr (documentation_of_front hparse hdoc))
  · rintro ((hzero | hzero) | hlocal | hdoc)
    · exact .inl (.inl (hraw.unspecified hzero))
    · exact .inl (.inr (hraw.loopback hzero))
    · exact .inr (.inr (.inl hlocal))
    · exact .inr (.inr (.inr (hraw.documentation hdoc)))

theorem SpelledOut.blockedTarget (hraw : SpelledOut raw ip.groups)
    (h : SixText raw text ip.groups) :
    blockedTargetAddress raw = true ↔
      blockedTargetAddress (IpAddress.six ip).canonical = true := by
  rw [h.blockedTarget_iff, canonical_blockedTarget, hraw.compressed]
  have hparse := h.parse_normalized
  constructor
  · rintro ((hzero | hzero) | hfront | hlocal | hdoc)
    · exact .inl (.inl (groups_of_unspecified hparse hzero))
    · exact .inl (.inr (groups_of_loopback hparse hzero))
    · exact .inr (.inl hfront)
    · exact .inr (.inr (.inl hlocal))
    · exact .inr (.inr (.inr (documentation_of_front hparse hdoc)))
  · rintro ((hzero | hzero) | hfront | hlocal | hdoc)
    · exact .inl (.inl (hraw.unspecified hzero))
    · exact .inl (.inr (hraw.loopback hzero))
    · exact .inr (.inl hfront)
    · exact .inr (.inr (.inl hlocal))
    · exact .inr (.inr (.inr (hraw.documentation hdoc)))

/-- The special addresses that the canonical spelling shows. -/
theorem SpelledOut.special (hraw : SpelledOut raw ip.groups) (hspecial : Special (.six ip)) :
    (ip.groups = AddressPolicy.unspecified ∨ ip.groups = AddressPolicy.loopback) ∨
      InLocal (ip.groups.getD 0 0) ∨
      InDocumentation ip.groups := by
  obtain hzero | hzero | hlocal | hdoc | hnew | ⟨bytes, hbytes, hspecial⟩ := hspecial
  · exact .inl (.inl hzero)
  · exact .inl (.inr hzero)
  · exact .inr (.inl hlocal)
  · exact .inr (.inr hdoc)
  · exact absurd hnew hraw.newDocumentation
  · exact absurd hspecial (hraw.mapped bytes hbytes).1

theorem SpelledOut.uniform (hP : ReadsIpv6 P) (h : SixText raw text ip.groups)
    (hraw : SpelledOut raw ip.groups) : Uniform P raw (.six ip) where
  isPublic := by
    rw [Bool.eq_iff_iff, h.isPublic_iff hP, canonical_isPublic hP]
    refine ⟨fun hboth => hboth.2, fun hglobal => ⟨fun hzone => ?_, hglobal⟩⟩
    exact hraw.zone hzone hglobal
  isBlocked := Bool.eq_iff_iff.mpr (hraw.isBlocked h)
  blockedTarget := Bool.eq_iff_iff.mpr (hraw.blockedTarget h)
  special := by
    intro hspecial
    have hshown := hraw.special hspecial
    refine ⟨?_, ?_, ?_⟩
    · rw [← Bool.not_eq_true, h.isPublic_iff hP]
      exact fun hboth => hraw.newDocumentation (hboth.2.not_special hspecial)
    · rw [hraw.isBlocked h, canonical_isBlocked]
      exact hshown
    · rw [hraw.blockedTarget h, canonical_blockedTarget]
      exact hshown.imp id .inr

/-- What the canonical spelling is refused for, the text is refused for. -/
theorem Uniform.isBlocked_six (huniform : Uniform P raw (.six ip)) (h : SixText raw text ip.groups) :
    ((normalizedIpv6 raw = "::" ∨ normalizedIpv6 raw = "::1") ∨
        (∃ bytes ∈ mappedBytes ip.groups, reservedBytes bytes = true ∧
          mappedIpv4 (normalizedIpv6 raw) ≠ none) ∨
        InLocal (ip.groups.getD 0 0) ∨ hasPrefix "2001:db8:" (normalizedIpv6 raw) = true) ↔
      (ip.groups = unspecified ∨ ip.groups = loopback) ∨ InLocal (ip.groups.getD 0 0) ∨
        InDocumentation ip.groups := by
  rw [← h.isBlocked_iff, ← canonical_isBlocked, huniform.isBlocked]

/-- What the canonical spelling of an address in the range of mapped ones is not refused for. -/
theorem mapped_shown {groups bytes : List Nat} (h : mappedBytes groups = some bytes) :
    ¬((groups = unspecified ∨ groups = loopback) ∨ InLocal (groups.getD 0 0) ∨
      InDocumentation groups) := by
  obtain ⟨hfirst, hmem⟩ := mappedBytes_first h
  obtain ⟨hlocal, hdoc, -⟩ := zero_apart hfirst
  obtain ⟨hunspecified, hloopback⟩ := unspecified_ne_of_mem hmem
  rintro ((hzero | hzero) | hlocal' | hdoc')
  · exact hunspecified hzero
  · exact hloopback hzero
  · exact hlocal hlocal'
  · exact hdoc hdoc'

theorem zero_first {groups : List Nat} (h : groups = unspecified ∨ groups = loopback) :
    groups.getD 0 0 = 0 ∧ 0xffff ∉ groups := by
  obtain rfl | rfl := h
  · exact ⟨rfl, by decide⟩
  · exact ⟨rfl, by decide⟩

/-- The first two addresses are refused by their spelling. -/
theorem Uniform.zero (huniform : Uniform P raw (.six ip)) (h : SixText raw text ip.groups)
    (hzero : ip.groups = unspecified ∨ ip.groups = loopback) :
    normalizedIpv6 raw = "::" ∨ normalizedIpv6 raw = "::1" := by
  obtain ⟨hfirst, hmem⟩ := zero_first hzero
  obtain ⟨hlocal, hdoc, -⟩ := zero_apart hfirst
  obtain hspelled | ⟨bytes, hbytes, -, -⟩ | hlocal' | hfront :=
    (huniform.isBlocked_six h).mpr (.inl hzero)
  · exact hspelled
  · exact absurd (mappedBytes_first hbytes).2 hmem
  · exact absurd hlocal' hlocal
  · exact absurd (documentation_of_front h.parse_normalized hfront) hdoc

theorem Uniform.documentation (huniform : Uniform P raw (.six ip))
    (h : SixText raw text ip.groups) (hdoc : InDocumentation ip.groups) :
    hasPrefix "2001:db8:" (normalizedIpv6 raw) = true := by
  have hparse := h.parse_normalized
  have hfirst := (documentation_first hdoc).1
  obtain (hzero | hzero) | ⟨bytes, hbytes, -, -⟩ | hlocal | hfront :=
    (huniform.isBlocked_six h).mpr (.inr (.inr hdoc))
  · have hother := (zero_first (.inl (groups_of_unspecified hparse hzero))).1
    omega
  · have hother := (zero_first (.inr (groups_of_loopback hparse hzero))).1
    omega
  · have hother := (mappedBytes_first hbytes).1
    omega
  · unfold InLocal at hlocal
    omega
  · exact hfront

/-- The newer documentation addresses are let through by the web side. -/
theorem Uniform.newDocumentation (huniform : Uniform P raw (.six ip))
    (hnew : InNewDocumentation ip.groups) : False := by
  have hrefused := (huniform.special (.inr (.inr (.inr (.inr (.inl hnew)))))).2.1
  have hfirst := hnew.1
  rw [huniform.isBlocked, canonical_isBlocked] at hrefused
  obtain hzero | hlocal | hdoc := hrefused
  · have hother := (zero_first hzero).1
    omega
  · unfold InLocal at hlocal
    omega
  · have hother := (documentation_first hdoc).1
    omega

/-- Of two spellings refused for the same, one is refused for `::ffff:` only with the other. -/
theorem compressed_of {raw raw' text text' : String} (h : SixText raw text ip.groups)
    (h' : SixText raw' text' ip.groups)
    (hsame : blockedTargetAddress raw = true → blockedTargetAddress raw' = true)
    (hfront : hasPrefix "::ffff:" (normalizedIpv6 raw) = true) :
    hasPrefix "::ffff:" (normalizedIpv6 raw') = true := by
  have hparse := h'.parse_normalized
  obtain ⟨hfirst, hmem⟩ := mapped_front h.parse_normalized hfront
  obtain ⟨hlocal, hdoc, -⟩ := zero_apart hfirst
  obtain ⟨hunspecified, hloopback⟩ := unspecified_ne_of_mem hmem
  obtain (hzero | hzero) | hfront' | hlocal' | hdoc' :=
    h'.blockedTarget_iff.mp (hsame (h.blockedTarget_iff.mpr (.inr (.inl hfront))))
  · exact absurd (groups_of_unspecified hparse hzero) hunspecified
  · exact absurd (groups_of_loopback hparse hzero) hloopback
  · exact hfront'
  · exact absurd hlocal' hlocal
  · exact absurd (documentation_of_front hparse hdoc') hdoc

theorem Uniform.spelledOut (hP : ReadsIpv6 P) (h : SixText raw text ip.groups)
    (huniform : Uniform P raw (.six ip)) : SpelledOut raw ip.groups where
  zone := by
    intro hzone hglobal
    have hpublic := (canonical_isPublic hP).mpr hglobal
    rw [← huniform.isPublic, h.isPublic_iff hP] at hpublic
    exact hpublic.1 hzone
  unspecified := by
    intro hzero
    refine (huniform.zero h (.inl hzero)).resolve_right fun hone => ?_
    have hloopback := groups_of_loopback h.parse_normalized hone
    rw [hzero] at hloopback
    cases hloopback
  loopback := by
    intro hone
    refine (huniform.zero h (.inr hone)).resolve_left fun hzero => ?_
    have hunspecified := groups_of_unspecified h.parse_normalized hzero
    rw [hone] at hunspecified
    cases hunspecified
  documentation := huniform.documentation h
  newDocumentation := huniform.newDocumentation
  compressed := by
    have hforth := compressed_of h canonical_text fun hraw => huniform.blockedTarget ▸ hraw
    have hback := compressed_of canonical_text h fun hcanonical =>
      huniform.blockedTarget.symm ▸ hcanonical
    rw [canonical_normalized] at hforth hback
    exact Bool.eq_iff_iff.mpr ⟨hforth, hback⟩
  mapped := by
    intro bytes hbytes
    have hshown := mapped_shown hbytes
    constructor
    · intro hspecial
      have hrefused := (huniform.special
        (.inr (.inr (.inr (.inr (.inr ⟨bytes, hbytes, hspecial⟩)))))).2.1
      rw [huniform.isBlocked, canonical_isBlocked] at hrefused
      exact hshown hrefused
    · intro hreserved
      by_contra hmapped
      exact hshown ((huniform.isBlocked_six h).mp
        (.inr (.inl ⟨bytes, hbytes, hreserved, hmapped⟩)))

end Uniform

/-! ## IPv4 addresses -/

section Four

variable {P : UrlParser} {text : String} {ip : Ipv4}

/-- An IPv4 address has one text. -/
theorem text_of_four (h : parseIpv4 text.toList = some ip.octets) :
    text = (IpAddress.four ip).canonical := by
  rw [← String.toList_inj, IpAddress.canonical, String.toList_intercalate, List.map_map,
    ← intercalate_splitOnChar '.' text.toList, parseIpv4_parts h]
  rfl

theorem four_plain (h : parseIpv4 text.toList = some ip.octets) :
    Plain text ∧ '%' ∉ text.toList := by
  have hchars := (parseIpv4_chars h).2.1
  refine ⟨⟨fun hmem => ?_, fun hmem => ?_⟩, fun hmem => ?_⟩
  · rcases hchars '[' hmem with h | h <;> exact absurd h (by decide)
  · rcases hchars ']' hmem with h | h <;> exact absurd h (by decide)
  · rcases hchars '%' hmem with h | h <;> exact absurd h (by decide)

theorem four_lower (h : parseIpv4 text.toList = some ip.octets) : jsLower text = text := by
  rw [← String.toList_inj, jsLower_toList]
  refine (List.map_congr_left fun c hc => ?_).trans (List.map_id _)
  obtain hdigit | rfl := (parseIpv4_chars h).2.1 c hc
  · exact (lowerChar_spec c).2.2.1 hdigit
  · decide

theorem four_version (h : parseIpv4 text.toList = some ip.octets) : isIP text = 4 := by
  have hversion := isIP_ipv4 h
  rw [String.ofList_toList] at hversion
  exact hversion

theorem four_isPublic {raw : String} (hraw : Bracketed raw text)
    (h : parseIpv4 text.toList = some ip.octets) :
    isPublicAddress P isIP raw = publicBytes ip.octets := by
  have hhost := normalizedHost_bracketed hraw (four_plain h).1 (parseIpv4_chars h).2.2
  have hpublic := isPublicIpv4_eq h
  rw [String.ofList_toList] at hpublic
  unfold isPublicAddress
  dsimp only
  rw [hhost, four_lower h, four_version h, if_neg (by decide)]
  dsimp only
  rw [four_version h, if_pos rfl, hpublic]

theorem four_blockedTarget {raw : String} (hraw : Bracketed raw text)
    (h : parseIpv4 text.toList = some ip.octets) :
    blockedTargetAddress raw = reservedBytes ip.octets := by
  have hnormalized : normalizedIpv6 raw = text := by
    rw [normalizedIpv6, unbracket_bracketed hraw.lower (four_plain h).1.lower, four_lower h,
      (beforeZone_of_not_mem (four_plain h).2).1, String.ofList_toList]
  have hblocked := blockedIpv4_eq h
  rw [String.ofList_toList] at hblocked
  unfold blockedTargetAddress
  dsimp only
  rw [hnormalized, four_version h, if_pos rfl, blockedTargetIpv4, hblocked]

theorem four_isBlocked {raw : String} (hraw : Bracketed raw text)
    (h : parseIpv4 text.toList = some ip.octets) : isBlockedAddress raw = blockedIpv4 raw := by
  unfold isBlockedAddress
  dsimp only
  rw [unbracket_bracketed hraw (four_plain h).1, (beforeZone_of_not_mem (four_plain h).2).1,
    String.ofList_toList, four_version h, if_pos rfl]

/-- A bracket is no part of a number. -/
theorem parseDecimal_bracket (cs : List Char) : parseDecimal ('[' :: cs) = none := by
  have hdigits (more : List Char) : parseDigits ('[' :: more) = none := by
    refine if_neg fun hall => ?_
    exact absurd (List.all_eq_true.mp hall.2 '[' List.mem_cons_self) (by decide)
  unfold parseDecimal
  rw [List.takeWhile_cons_of_pos (by decide)]
  dsimp only
  rw [List.takeWhile_cons_of_pos (by decide), List.cons_append, hdigits]

theorem byteOf_bracket : ∀ n < 256, byteOf (String.ofList ('[' :: (toString n).toList)) = none := by
  intro n _
  have hlist : (toString n).toList = Nat.toDigits 10 n := Nat.toList_repr
  have hspace : ∀ c ∈ '[' :: (toString n).toList, isJsSpace c = false := by
    intro c hc
    rcases List.mem_cons.mp hc with rfl | hc
    · decide
    · rw [hlist] at hc
      exact digit_not_space (Nat.isDigit_of_mem_toDigits (by decide) (by decide) hc)
  have hnan : textToNumber (String.ofList ('[' :: (toString n).toList)) = .nan := by
    unfold textToNumber
    rw [trim_eq (by rwa [String.toList_ofList]), String.toList_ofList]
    change parseUnsigned false ('[' :: (toString n).toList) = .nan
    unfold parseUnsigned
    rw [if_neg (by rintro h; cases h), parseDecimal_bracket]
  unfold byteOf
  rw [hnan]

/-- The web side reads no byte in a bracketed address. -/
theorem blockedIpv4_bracketed (h : parseIpv4 text.toList = some ip.octets) :
    blockedIpv4 ("[" ++ text ++ "]") = true := by
  have hparts := intercalate_splitOnChar '.' text.toList
  rw [parseIpv4_parts h] at hparts
  have hlength := ip.length_octets
  have hle := ip.octet_le
  generalize ip.octets = octets at hparts hlength hle
  match octets, hlength with
  | a :: b :: rest, _ =>
    rw [List.map_cons, List.map_cons, List.intercalate_cons_cons, List.append_assoc] at hparts
    have hdigits : ∀ c ∈ (toString a).toList, c.isDigit = true := by
      have hlist : (toString a).toList = Nat.toDigits 10 a := Nat.toList_repr
      rw [hlist]
      exact fun c hc => Nat.isDigit_of_mem_toDigits (by decide) (by decide) hc
    have hdot : '.' ∉ '[' :: (toString a).toList := by
      rw [List.mem_cons]
      rintro (hopen | hmem)
      · cases hopen
      · exact absurd (hdigits '.' hmem) (by decide)
    obtain ⟨tail, htail⟩ : ∃ tail, ("[" ++ text ++ "]").toList =
        ('[' :: (toString a).toList) ++ '.' :: tail := by
      rw [String.toList_append, String.toList_append, ← hparts]
      exact ⟨_, by simp; rfl⟩
    have hnone : ipv4Bytes ("[" ++ text ++ "]") = none := by
      unfold ipv4Bytes
      dsimp only
      split
      · rfl
      · rw [splitText, htail, splitOnChar_next hdot, List.map_cons, List.mapM_cons,
          byteOf_bracket a (Nat.lt_succ_of_le (hle a List.mem_cons_self))]
        rfl
    rw [blockedIpv4, hnone]

/-- The texts of an IPv4 address: the decimals of its bytes, and these in brackets. -/
theorem four_head {raw : String} (hraw : Bracketed raw text)
    (h : parseIpv4 text.toList = some ip.octets) :
    raw = text ∧ raw.toList.head? ≠ some '[' ∨
      raw = "[" ++ text ++ "]" ∧ raw.toList.head? = some '[' := by
  obtain rfl | rfl := hraw
  · exact .inl ⟨rfl, fun hhead => (four_plain h).1.1 (List.mem_of_head? hhead)⟩
  · exact .inr ⟨rfl, by simp [String.toList_append]⟩

theorem uniform_four {raw : String} (hraw : Bracketed raw text)
    (h : parseIpv4 text.toList = some ip.octets) :
    Uniform P raw (.four ip) ↔ Conforms raw (.four ip) := by
  have hcanonical := text_of_four h
  have hself : Bracketed text text := .inl rfl
  have hblocked : isBlockedAddress text = reservedBytes ip.octets := by
    have hbytes := blockedIpv4_eq h
    rw [String.ofList_toList] at hbytes
    rw [four_isBlocked hself h, hbytes]
  have hverdicts : isPublicAddress P isIP raw = isPublicAddress P isIP text ∧
      blockedTargetAddress raw = blockedTargetAddress text := by
    rw [four_isPublic hraw h, four_isPublic hself h, four_blockedTarget hraw h,
      four_blockedTarget hself h]
    exact ⟨rfl, rfl⟩
  constructor
  · intro huniform hhead
    obtain ⟨-, hno⟩ | ⟨rfl, -⟩ := four_head hraw h
    · exact absurd hhead hno
    · have hsame := huniform.isBlocked
      rw [← hcanonical, hblocked, four_isBlocked hraw h, blockedIpv4_bracketed h] at hsame
      exact hsame.symm
  · intro hconforms
    have hsame : isBlockedAddress raw = isBlockedAddress text := by
      obtain ⟨rfl, -⟩ | ⟨rfl, hhead⟩ := four_head hraw h
      · rfl
      · rw [hblocked, four_isBlocked hraw h, blockedIpv4_bracketed h]
        exact (hconforms hhead).symm
    refine ⟨hcanonical ▸ hverdicts.1, hcanonical ▸ hsame, hcanonical ▸ hverdicts.2, ?_⟩
    intro hspecial
    obtain ⟨hreserved, hpublic⟩ := special_refused hspecial
    rw [four_isPublic hraw h, hsame, hblocked, four_blockedTarget hraw h]
    exact ⟨hpublic, hreserved, hreserved⟩

end Four

/-! ## All texts -/

/-- **The verdicts on a text** are those on the canonical spelling, and no special address is let
through, exactly where the text conforms. -/
theorem uniform_iff {P : UrlParser} (hP : ReadsIpv6 P) {raw : String} {address : IpAddress}
    (h : Spells raw address) : Uniform P raw address ↔ Conforms raw address := by
  cases address with
  | four ip =>
    obtain ⟨text, -, hparse, hraw⟩ := h
    exact uniform_four hraw hparse
  | six ip =>
    obtain ⟨text, hsix⟩ := spells_six.mp h
    exact ⟨fun huniform => huniform.spelledOut hP hsix, fun hspelled => hspelled.uniform hP hsix⟩

/-- A parser of the URLs the proxy package builds for an IPv6 address. -/
def hostParser : UrlParser where
  parse raw :=
    (parseIpv6 (raw.toList.drop 8).dropLast.dropLast).map fun groups =>
      { href := raw
        withoutHash := raw
        origin := raw
        protocol := "http:"
        hostname := String.ofList ('[' :: serialize groups ++ [']'])
        pathname := "/"
        search := "" }
  parseFrom _ _ := none

theorem hostParser_reads : ReadsIpv6 hostParser := by
  intro text _
  have hinner : (("http://[" ++ text ++ "]/").toList.drop 8).dropLast.dropLast = text.toList := by
    have htext : ("http://[" ++ text ++ "]/").toList.drop 8 = text.toList ++ [']'] ++ ['/'] := by
      simp [String.toList_append]
    rw [htext, List.dropLast_concat, List.dropLast_concat]
  dsimp only [hostParser]
  rw [hinner, Option.map_map]
  rfl

def linkLocal : Ipv6 where
  groups := [0xfe80, 0, 0, 0, 0, 0, 0, 1]
  length_groups := rfl
  group_lt := by decide

theorem uniform_iff_linkLocal :
    Uniform hostParser "[FE80:0::1]" (.six linkLocal) ↔ Conforms "[FE80:0::1]" (.six linkLocal) :=
  uniform_iff hostParser_reads ⟨"FE80:0::1", by decide +kernel, by decide +kernel, .inr rfl⟩

def mappedLoopback : Ipv6 where
  groups := [0, 0, 0, 0, 0, 0xffff, 0x7f00, 1]
  length_groups := rfl
  group_lt := by decide

/-- The web side lets a loopback address through. -/
theorem mapped_loopback_allowed :
    ¬ ∀ (P : UrlParser) (raw : String) (address : IpAddress), ReadsIpv6 P → Spells raw address →
      Uniform P raw address := by
  intro hall
  have huniform := hall hostParser "::ffff:7f00:1" (.six mappedLoopback) hostParser_reads
    ⟨"::ffff:7f00:1", by decide +kernel, by decide +kernel, .inl rfl⟩
  have hspecial : Special (.six mappedLoopback) :=
    .inr (.inr (.inr (.inr (.inr ⟨[127, 0, 0, 1], rfl, .inl rfl⟩))))
  have hallowed : isBlockedAddress "::ffff:7f00:1" = false := by decide +kernel
  rw [(huniform.special hspecial).2.1] at hallowed
  cases hallowed

end LinkSuffix.AddressPolicy
