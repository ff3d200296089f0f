import LinkSuffix.Lib.Checked
import LinkSuffix.Proxy.Egress

/-!
# Coherent exits

What an exit identity is put together from. The last probe's text is taken for an address as it is,
and a lookup for that text may still name a time zone.

* `Composed`: every field of an identity was found for one address. `Coherent`: and that is an IP
  address.
* `fetch_composed`: a fetch composes what it returns.
* `Strayed`: a fetch that takes some other text for its address. `strayed_iff`.
* `Kept`: what is asked of the identity that a call returns.
* **`identities_coherent`**: a run keeps to it if and only if no fetch that decides a reply strays.
* `plain_text_verified`.
-/

namespace LinkSuffix.Egress

open Lib

section Identities

variable (engine : Engine) (world : World)

/-- An answer that was got through the proxy, or by a lookup for the address. -/
def Answered (ip : String) (parsed : Parsed) : Prop :=
  (obtained engine world).answer = some parsed ∨
    ∃ provider ∈ timezoneProviders ip, (runProvider engine world false provider).1 = some parsed

/-- A field is that of an answer. -/
def Drawn {β : Type} (ip : String) (identity : Identity) (field : Parsed → Option β) : Prop :=
  ∀ found, field identity.toParsed = some found →
    ∃ parsed, Answered engine world ip parsed ∧ field parsed = some found

/-- Every field of an identity was found for one address. -/
structure Composed (ip : String) (identity : Identity) : Prop where
  address : identity.ip = some ip
  zone : ∃ zone, identity.timezone = some zone ∧ engine.isZone zone = true
  timezone : Drawn engine world ip identity (·.timezone)
  country : Drawn engine world ip identity (·.country)
  state : Drawn engine world ip identity (·.state)
  city : Drawn engine world ip identity (·.city)
  asn : Drawn engine world ip identity (·.asn)
  organization : Drawn engine world ip identity (·.organization)
  isp : Drawn engine world ip identity (·.isp)

structure Coherent (ip : String) (identity : Identity) : Prop
    extends Composed engine world ip identity where
  isIP : isIP ip ≠ 0

/-- No provider names an address through the proxy, the last probe answers with a text that is not
one, and a lookup for that text names a time zone. -/
structure Strayed (ip : String) : Prop where
  agent : world.agent = true
  unnamed : (probe engine world {} egressProviders).ip = none
  plain : ∃ statusCode text, fetchBody (world.reply true icanhazip) = .ok (statusCode, text) ∧
    trim text = ip
  nonempty : ip ≠ ""
  other : isIP ip = 0
  zoned : ∃ provider ∈ timezoneProviders ip, ∃ geo,
    (runProvider engine world false provider).1 = some geo ∧ geo.timezone.isSome = true

variable {engine world}

/-! ## The answers -/

theorem runProvider_some {egress : Bool} {provider : Provider} {parsed : Parsed}
    (h : (runProvider engine world egress provider).1 = some parsed) :
    ∃ body, parsed = normalizeParsed engine body := by
  unfold runProvider at h
  split at h
  · cases h
  · split at h
    · cases h
    · rename_i body hbody
      exact ⟨body, (Option.some.inj h).symm⟩

theorem normalizeParsed_ip {body : Parsed} {ip : String}
    (h : (normalizeParsed engine body).ip = some ip) : isIP ip ≠ 0 :=
  of_decide_eq_true (Option.filter_eq_some_iff.mp h).2

theorem normalizeParsed_zone {body : Parsed} {zone : String}
    (h : (normalizeParsed engine body).timezone = some zone) : engine.isZone zone = true := by
  have hzone := of_decide_eq_true (Option.filter_eq_some_iff.mp h).2
  exact hzone.2.2

/-- What the first stage has is what a provider answered. -/
theorem probe_answer {providers : List Provider} {found : Probe} {parsed : Parsed}
    (h : (probe engine world found providers).answer = some parsed) :
    found.answer = some parsed ∨
      ∃ provider, (runProvider engine world true provider).1 = some parsed := by
  induction providers generalizing found with
  | nil => exact .inl h
  | cons provider providers ih =>
    unfold probe at h
    dsimp only at h
    split at h
    · exact .inr ⟨provider, h⟩
    · split at h
      · exact .inr ⟨provider, h⟩
      · rcases ih h with hasked | hlater
        · exact .inr ⟨provider, hasked⟩
        · exact .inr hlater

/-- Only a named address has a provider. -/
theorem probe_answered {parsed : Parsed}
    (h : (probe engine world {} egressProviders).answer = some parsed) :
    ∃ body, parsed = normalizeParsed engine body := by
  rcases probe_answer h with hnone | ⟨provider, hprovider⟩
  · cases hnone
  · exact runProvider_some hprovider

theorem plainProbe_some {ip : String} : (plainProbe world).1 = some ip ↔
    ∃ statusCode text, fetchBody (world.reply true icanhazip) = .ok (statusCode, text) ∧
      trim text = ip := by
  unfold plainProbe
  cases fetchBody (world.reply true icanhazip) with
  | error failure => exact ⟨nofun, fun ⟨_, _, htext, _⟩ => by cases htext⟩
  | ok answered =>
    constructor
    · intro h
      exact ⟨answered.1, answered.2, rfl, Option.some.inj h⟩
    · rintro ⟨_, _, htext, rfl⟩
      cases htext
      rfl

/-- The address is that of a provider, or the text of the last probe. -/
theorem obtained_ip {ip : String} (h : (obtained engine world).ip = some ip) :
    (isIP ip ≠ 0 ∧ (probe engine world {} egressProviders).ip = some ip) ∨
      ((probe engine world {} egressProviders).ip = none ∧ (plainProbe world).1 = some ip ∧
        ip ≠ "") := by
  unfold obtained at h
  dsimp only at h
  split at h
  · refine .inl ⟨?_, h⟩
    obtain ⟨parsed, hparsed, hip⟩ := Option.bind_eq_some_iff.mp h
    obtain ⟨body, rfl⟩ := probe_answered hparsed
    exact normalizeParsed_ip hip
  · rename_i hnone
    rw [Bool.not_eq_true, Option.isSome_eq_false_iff, Option.isNone_iff_eq_none] at hnone
    refine .inr ⟨hnone, ?_⟩
    split at h
    · rename_i text hsome
      obtain rfl := Option.some.inj h
      have hplain := Option.filter_eq_some_iff.mp hsome
      exact ⟨hplain.1, of_decide_eq_true hplain.2⟩
    · change (probe engine world {} egressProviders).ip = some ip at h
      rw [hnone] at h
      cases h

/-- The text of the last probe is the address, and all that is known. -/
theorem obtained_plain {ip : String}
    (hunnamed : (probe engine world {} egressProviders).ip = none)
    (hplain : (plainProbe world).1 = some ip) (hne : ip ≠ "") :
    (obtained engine world).answer = some { ip := some ip } ∧
      (obtained engine world).provider = none := by
  have hnone : ¬(probe engine world {} egressProviders).ip.isSome = true := by
    rw [hunnamed]
    exact nofun
  have hkept : (some ip).filter (fun text => decide (text ≠ "")) = some ip := by
    simp [Option.filter, hne]
  unfold obtained
  dsimp only
  rw [if_neg hnone, hplain, hkept]
  exact ⟨rfl, rfl⟩

theorem obtained_zone {parsed : Parsed} {zone : String}
    (h : (obtained engine world).answer = some parsed) (hzone : parsed.timezone = some zone) :
    engine.isZone zone = true := by
  have hprobe : ∀ parsed, (probe engine world {} egressProviders).answer = some parsed →
      parsed.timezone = some zone → engine.isZone zone = true := by
    intro parsed hparsed hfound
    obtain ⟨body, rfl⟩ := probe_answered hparsed
    exact normalizeParsed_zone hfound
  unfold obtained at h
  dsimp only at h
  split at h
  · exact hprobe parsed h hzone
  · split at h
    · obtain rfl := Option.some.inj h
      cases hzone
    · exact hprobe parsed h hzone

/-! ## A fetch -/

/-- A lookup returns what it knew, with the answer of the first provider that names a zone. -/
theorem lookup_ok {known : Parsed} {providers : List Provider} {attempts : List Attempt}
    {identity : Identity} (h : lookup engine world known attempts providers = .ok identity) :
    ∃ provider ∈ providers, ∃ geo, (runProvider engine world false provider).1 = some geo ∧
      geo.timezone.isSome = true ∧ identity.toParsed = merge known geo := by
  induction providers generalizing attempts with
  | nil => cases h
  | cons provider providers ih =>
    unfold lookup at h
    dsimp only at h
    split at h
    · rename_i geo hgeo
      obtain ⟨hfound, hzone⟩ := Option.filter_eq_some_iff.mp hgeo
      obtain rfl := Except.ok.inj h
      exact ⟨provider, List.mem_cons_self, geo, hfound, hzone, rfl⟩
    · obtain ⟨other, hmem, hother⟩ := ih h
      exact ⟨other, List.mem_cons_of_mem _ hmem, hother⟩

theorem lookup_zoned {known : Parsed} {providers : List Provider} {attempts : List Attempt}
    (h : ∃ provider ∈ providers, ∃ geo, (runProvider engine world false provider).1 = some geo ∧
      geo.timezone.isSome = true) :
    ∃ identity, lookup engine world known attempts providers = .ok identity := by
  induction providers generalizing attempts with
  | nil =>
    obtain ⟨provider, hmem, -⟩ := h
    cases hmem
  | cons provider providers ih =>
    unfold lookup
    dsimp only
    split
    · exact ⟨_, rfl⟩
    · rename_i hnone
      refine ih ?_
      obtain ⟨other, hmem, geo, hgeo, hzone⟩ := h
      rcases List.mem_cons.mp hmem with rfl | hlater
      · rw [hgeo] at hnone
        simp [Option.filter, hzone] at hnone
      · exact ⟨other, hlater, geo, hgeo, hzone⟩

/-- An identity is what the proxy has shown, or that with the answer of a lookup for its address. -/
theorem identify_ok {identity : Identity} (h : identify engine world = .ok identity) :
    ∃ known ip, (obtained engine world).answer = some known ∧ known.ip = some ip ∧
      (identity.toParsed = known ∧ known.timezone.isSome = true ∨
        ∃ provider ∈ timezoneProviders ip, ∃ geo,
          (runProvider engine world false provider).1 = some geo ∧ geo.timezone.isSome = true ∧
            identity.toParsed = merge known geo) := by
  unfold identify at h
  dsimp only at h
  split at h
  · rename_i known ip hknown hip
    unfold Probe.ip at hip
    rw [hknown] at hip
    refine ⟨known, ip, hknown, hip, ?_⟩
    split at h
    · rename_i provider hprovider
      have hfull := (Option.filter_eq_some_iff.mp hprovider).2
      rw [Bool.and_eq_true, Bool.and_eq_true] at hfull
      obtain rfl := Except.ok.inj h
      exact .inl ⟨rfl, hfull.1.1⟩
    · exact .inr (lookup_ok h)
  · cases h

theorem drawn_or {β : Type} {ip : String} {identity : Identity} {known geo : Parsed}
    {field : Parsed → Option β} (hknown : Answered engine world ip known)
    (hgeo : Answered engine world ip geo)
    (h : field identity.toParsed = (field known).or (field geo)) :
    Drawn engine world ip identity field := by
  intro found hfound
  rw [h] at hfound
  rcases Option.or_eq_some_iff.mp hfound with hfirst | ⟨-, hsecond⟩
  · exact ⟨known, hknown, hfirst⟩
  · exact ⟨geo, hgeo, hsecond⟩

/-- **A fetch** composes what it returns. -/
theorem fetch_composed {identity : Identity} (h : fetchProxyEgress engine world = .ok identity) :
    ∃ ip, (obtained engine world).ip = some ip ∧ Composed engine world ip identity := by
  unfold fetchProxyEgress at h
  split at h
  · obtain ⟨known, ip, hknown, hip, hparts⟩ := identify_ok h
    have hobtained : (obtained engine world).ip = some ip := by
      unfold Probe.ip
      rw [hknown]
      exact hip
    have hanswered : Answered engine world ip known := .inl hknown
    refine ⟨ip, hobtained, ?_⟩
    rcases hparts with ⟨hsame, hzone⟩ | ⟨provider, hmem, geo, hgeo, hzone, hmerged⟩
    · obtain ⟨zone, hzone⟩ := Option.isSome_iff_exists.mp hzone
      have hdrawn : ∀ {β : Type} (field : Parsed → Option β),
          Drawn engine world ip identity field := by
        intro β field found hfound
        rw [hsame] at hfound
        exact ⟨known, hanswered, hfound⟩
      refine ⟨?_, ⟨zone, ?_, obtained_zone hknown hzone⟩, hdrawn _, hdrawn _, hdrawn _, hdrawn _,
        hdrawn _, hdrawn _, hdrawn _⟩
      · rw [hsame]
        exact hip
      · rw [hsame]
        exact hzone
    · have hlooked : Answered engine world ip geo := .inr ⟨provider, hmem, hgeo⟩
      have hdrawn : ∀ {β : Type} (field : Parsed → Option β),
          (∀ known geo, field (merge known geo) = (field known).or (field geo)) →
            Drawn engine world ip identity field := by
        intro β field hfield
        refine drawn_or hanswered hlooked ?_
        rw [hmerged]
        exact hfield known geo
      refine ⟨?_, ?_, hdrawn _ fun _ _ => rfl, hdrawn _ fun _ _ => rfl, hdrawn _ fun _ _ => rfl,
        hdrawn _ fun _ _ => rfl, hdrawn _ fun _ _ => rfl, hdrawn _ fun _ _ => rfl,
        hdrawn _ fun _ _ => rfl⟩
      · rw [hmerged]
        exact hip
      · obtain ⟨zone, hzone⟩ := Option.isSome_iff_exists.mp hzone
        rw [hmerged]
        unfold merge
        dsimp only
        cases hown : known.timezone with
        | some own => exact ⟨own, rfl, obtained_zone hknown hown⟩
        | none =>
          refine ⟨zone, hzone, ?_⟩
          obtain ⟨body, rfl⟩ := runProvider_some hgeo
          exact normalizeParsed_zone hzone
  · cases h

/-- **A fetch strays** if and only if it returns an address that is none. -/
theorem strayed_iff {ip : String} : Strayed engine world ip ↔
    ∃ identity, fetchProxyEgress engine world = .ok identity ∧ identity.ip = some ip ∧
      isIP ip = 0 := by
  constructor
  · intro h
    obtain ⟨hknown, hprovider⟩ :=
      obtained_plain h.unnamed (plainProbe_some.mpr h.plain) h.nonempty
    obtain ⟨identity, hidentity⟩ := @lookup_zoned engine world { ip := some ip } _
      (obtained engine world).attempts h.zoned
    have hfetch : fetchProxyEgress engine world = .ok identity := by
      unfold fetchProxyEgress identify Probe.ip
      dsimp only
      rw [if_pos h.agent, hknown, hprovider]
      exact hidentity
    refine ⟨identity, hfetch, ?_, h.other⟩
    obtain ⟨provider, hmem, geo, hgeo, hzone, hmerged⟩ := lookup_ok hidentity
    rw [hmerged]
    rfl
  · rintro ⟨identity, hfetch, hip, hother⟩
    obtain ⟨ip', hobtained, hcomposed⟩ := fetch_composed hfetch
    obtain rfl : ip' = ip := by
      have haddress := hcomposed.address
      rw [hip] at haddress
      exact (Option.some.inj haddress).symm
    rcases obtained_ip hobtained with ⟨hisIP, -⟩ | ⟨hnone, hplain, hnonempty⟩
    · exact absurd hother hisIP
    · unfold fetchProxyEgress at hfetch
      split at hfetch
      · rename_i hagent
        obtain ⟨known, ip', hknown, hknownIp, hparts⟩ := identify_ok hfetch
        obtain ⟨hplainKnown, -⟩ := obtained_plain hnone hplain hnonempty
        rw [hplainKnown] at hknown
        obtain rfl := Option.some.inj hknown
        obtain rfl := Option.some.inj hknownIp
        rcases hparts with ⟨-, hzone⟩ | ⟨provider, hmem, geo, hgeo, hzone, -⟩
        · cases hzone
        · exact ⟨hagent, hnone, plainProbe_some.mp hplain, hnonempty, hother,
            provider, hmem, geo, hgeo, hzone⟩
      · cases hfetch

theorem composed_nonempty {identity : Identity}
    (h : fetchProxyEgress engine world = .ok identity) : ∃ ip, identity.ip = some ip ∧ ip ≠ "" := by
  obtain ⟨ip, hobtained, hcomposed⟩ := fetch_composed h
  refine ⟨ip, hcomposed.address, ?_⟩
  rcases obtained_ip hobtained with ⟨hisIP, -⟩ | ⟨-, -, hnonempty⟩
  · rintro rfl
    exact hisIP (by decide)
  · exact hnonempty

/-- A fetch that does not stray returns a coherent identity. -/
theorem fetch_coherent {identity : Identity} (h : fetchProxyEgress engine world = .ok identity)
    (hstrayed : ∀ ip, ¬Strayed engine world ip) : ∃ ip, Coherent engine world ip identity := by
  obtain ⟨ip, -, hcomposed⟩ := fetch_composed h
  refine ⟨ip, hcomposed, fun hother => hstrayed ip (strayed_iff.mpr ?_)⟩
  exact ⟨identity, h, hcomposed.address, hother⟩

end Identities

/-! ## Samples -/

section Samples

variable {engine : Engine} {proxyUrl : ProxyUrl} {samples : Int} {worlds : Nat → World}
  {identity : Identity} {identities : List Identity}

theorem mem_stableIps {ip : String} :
    ip ∈ stableIps identities ↔ ip ≠ "" ∧ ∃ sample ∈ identities, sample.ip = some ip := by
  simp [stableIps, and_comm]

/-- Without a direct URL, a verification returns the last of samples that agree. -/
theorem verify_ok (hdirect : proxyUrl.protocol ≠ "direct:") :
    verifyProxyEgressStability engine proxyUrl samples worlds = .ok identity ↔
      ∃ identities, ((List.range (sampleCount samples)).mapM fun i =>
          fetchProxyEgress engine (worlds i)) = .ok identities ∧
        (stableIps identities).card = 1 ∧ identities.getLast? = some identity := by
  unfold verifyProxyEgressStability
  rw [if_neg hdirect]
  constructor
  · intro h
    obtain ⟨identities, hsamples, hrest⟩ := bind_eq_ok.mp h
    refine ⟨identities, hsamples, ?_⟩
    dsimp only at hrest
    split at hrest
    · rename_i last hlast
      obtain ⟨hlast, hcard⟩ := Option.filter_eq_some_iff.mp hlast
      obtain rfl := pure_eq_ok.mp hrest
      exact ⟨of_decide_eq_true hcard, hlast⟩
    · cases hrest
  · rintro ⟨identities, hsamples, hcard, hlast⟩
    refine bind_eq_ok.mpr ⟨identities, hsamples, ?_⟩
    rw [hlast]
    simp [Option.filter, hcard]
    rfl

/-- All the samples saw one address, which is that of the last. -/
theorem verify_samples (hdirect : proxyUrl.protocol ≠ "direct:")
    (h : verifyProxyEgressStability engine proxyUrl samples worlds = .ok identity) :
    ∃ ip, (∀ i < sampleCount samples, ∃ sample,
        fetchProxyEgress engine (worlds i) = .ok sample ∧ sample.ip = some ip) ∧
      fetchProxyEgress engine (worlds (sampleCount samples - 1)) = .ok identity ∧
      identity.ip = some ip := by
  obtain ⟨identities, hsamples, hcard, hlast⟩ := (verify_ok hdirect).mp h
  have hmap := mapM_eq_ok.mp hsamples
  have hlength : sampleCount samples = identities.length := by
    simpa using congrArg List.length hmap
  have hsample : ∀ i (hi : i < identities.length),
      fetchProxyEgress engine (worlds i) = .ok identities[i] := by
    intro i hi
    have hget := congrArg (·[i]?) hmap
    simpa [hlength, hi] using hget
  obtain ⟨ip, hips⟩ := Finset.card_eq_one.mp hcard
  have hsame : ∀ i (hi : i < identities.length), identities[i].ip = some ip := by
    intro i hi
    obtain ⟨seen, hseen, hne⟩ := composed_nonempty (hsample i hi)
    have hmem : seen ∈ stableIps identities :=
      mem_stableIps.mpr ⟨hne, identities[i], List.getElem_mem hi, hseen⟩
    rw [hips, Finset.mem_singleton] at hmem
    rw [hseen, hmem]
  obtain ⟨hlt, hget⟩ := List.getElem?_eq_some_iff.mp (List.getLast?_eq_getElem? ▸ hlast)
  rw [hlength]
  refine ⟨ip, fun i hi => ⟨_, hsample i hi, hsame i hi⟩, ?_, ?_⟩
  · rw [hsample _ hlt, hget]
  · rw [← hget]
    exact hsame _ hlt

/-- Samples that all see one address are verified. -/
theorem verify_exists {ip : String} (hdirect : proxyUrl.protocol ≠ "direct:") (hne : ip ≠ "")
    (h : ∀ i < sampleCount samples, ∃ sample,
      fetchProxyEgress engine (worlds i) = .ok sample ∧ sample.ip = some ip) :
    ∃ identity, verifyProxyEgressStability engine proxyUrl samples worlds = .ok identity ∧
      identity.ip = some ip := by
  obtain ⟨identities, hsamples, hlength, hsame⟩ :=
    mapM_exists fun i hi => h i (List.mem_range.mp hi)
  rw [List.length_range] at hlength
  have hpos : identities ≠ [] := by
    rintro rfl
    have htwo : 2 ≤ sampleCount samples := by
      unfold sampleCount
      omega
    rw [← hlength] at htwo
    cases htwo
  have hlast := List.getLast?_eq_some_getLast hpos
  refine ⟨_, (verify_ok hdirect).mpr ⟨identities, hsamples, Finset.card_eq_one.mpr ⟨ip, ?_⟩, hlast⟩,
    hsame _ (List.getLast_mem hpos)⟩
  ext other
  rw [mem_stableIps, Finset.mem_singleton]
  constructor
  · rintro ⟨-, sample, hmem, hother⟩
    rw [hsame sample hmem] at hother
    exact (Option.some.inj hother).symm
  · rintro rfl
    exact ⟨hne, _, List.getLast_mem hpos, hsame _ (List.getLast_mem hpos)⟩

end Samples

/-! ## Runs -/

section Runs

variable (engine : Engine) (capacity : Nat)

/-- A fetch that a call of the run has made for a proxy. -/
def Fetched (calls : List Call) (href : String) (world : World) : Prop :=
  ∃ proxyUrl now failedAt, Call.resolve proxyUrl now world failedAt ∈ calls ∧ proxyUrl.href = href

/-- What is asked of a reply, with the calls up to it: a verified identity of a proxy is coherent,
and a verification saw its address in every sample. -/
def Kept (calls : List Call) (reply : Option (Except Failure Identity)) : Call → Prop
  | .resolve proxyUrl _ _ _ => ∀ identity, reply = some (.ok identity) → identity.verified = true →
    proxyUrl.protocol ≠ "direct:" →
    ∃ world ip, Fetched calls proxyUrl.href world ∧ Coherent engine world ip identity
  | .verify proxyUrl samples worlds => ∀ identity, reply = some (.ok identity) →
    identity.verified = true → proxyUrl.protocol ≠ "direct:" →
    ∃ ip, Coherent engine (worlds (sampleCount samples - 1)) ip identity ∧
      ∀ i < sampleCount samples, ∃ sample,
        fetchProxyEgress engine (worlds i) = .ok sample ∧ sample.ip = some ip
  | .reset => True

/-- A fetch that the call makes does not stray; samples do not all stray to one text. -/
def Sound (cache : Cache) : Call → Prop
  | .resolve proxyUrl now world _ => proxyUrl.protocol ≠ "direct:" →
    hit cache proxyUrl.href now = none → ∀ ip, ¬Strayed engine world ip
  | .verify proxyUrl samples worlds => proxyUrl.protocol ≠ "direct:" →
    ∀ ip, ¬∀ i < sampleCount samples, Strayed engine (worlds i) ip
  | .reset => True

variable {engine capacity}

theorem mem_putBounded {cache : Cache} {key : String} {entry : CacheEntry}
    {item : String × CacheEntry} (h : item ∈ putBounded capacity cache key entry) :
    item = (key, entry) ∨ item ∈ cache := by
  unfold putBounded at h
  split at h
  · obtain ⟨old, hold, hitem⟩ := List.mem_map.mp h
    split at hitem
    · exact .inl hitem.symm
    · exact .inr (hitem ▸ hold)
  · rcases List.mem_append.mp h with hkept | hnew
    · split at hkept
      · exact .inr (List.mem_of_mem_drop hkept)
      · exact .inr hkept
    · exact .inl (List.mem_singleton.mp hnew)

theorem hit_mem {cache : Cache} {key : String} {now : Int} {entry : CacheEntry}
    (h : hit cache key now = some entry) : (key, entry) ∈ cache := by
  obtain ⟨item, hitem, rfl⟩ := Option.map_eq_some_iff.mp (Option.filter_eq_some_iff.mp h).1
  have hkey := List.find?_some hitem
  obtain rfl : item.1 = key := of_decide_eq_true hkey
  exact List.mem_of_find?_eq_some hitem

/-- Every promise that is kept is that of a fetch the run has made, and none of them strays. -/
def Trusted (engine : Engine) (calls : List Call) (cache : Cache) : Prop :=
  ∀ item ∈ cache, Fetched calls item.1 item.2.promise ∧ ∀ ip, ¬Strayed engine item.2.promise ip

theorem Fetched.more {calls : List Call} {href : String} {world : World}
    (h : Fetched calls href world) (call : Call) : Fetched (calls ++ [call]) href world := by
  obtain ⟨proxyUrl, now, failedAt, hmem, hhref⟩ := h
  exact ⟨proxyUrl, now, failedAt, List.mem_append_left _ hmem, hhref⟩

theorem fetched_now (calls : List Call) (proxyUrl : ProxyUrl) (now failedAt : Int) (world : World) :
    Fetched (calls ++ [.resolve proxyUrl now world failedAt]) proxyUrl.href world :=
  ⟨proxyUrl, now, failedAt, List.mem_append_right _ List.mem_cons_self, rfl⟩

variable {calls : List Call} {cache : Cache} {call : Call}

theorem trusted_next (h : Trusted engine calls cache) (hsound : Sound engine cache call) :
    Trusted engine (calls ++ [call]) ((resolutions engine capacity).next cache call) := by
  have hkept : Trusted engine (calls ++ [call]) cache := fun item hitem =>
    ⟨(h item hitem).1.more call, (h item hitem).2⟩
  cases call with
  | reset => exact fun _ hitem => absurd hitem List.not_mem_nil
  | verify proxyUrl samples worlds => exact hkept
  | resolve proxyUrl now world failedAt =>
    change Trusted engine _ (resolveProxyEgress engine capacity cache proxyUrl now world failedAt).1
    unfold resolveProxyEgress
    split
    · exact hkept
    · rename_i hdirect
      split
      · exact hkept
      · rename_i hmiss
        intro item hitem
        rcases mem_putBounded hitem with rfl | hold
        · exact ⟨fetched_now calls proxyUrl now failedAt world, hsound hdirect hmiss⟩
        · exact hkept item hold

theorem kept_reply (h : Trusted engine calls cache) (hsound : Sound engine cache call) :
    Kept engine (calls ++ [call]) ((resolutions engine capacity).reply cache call) call := by
  cases call with
  | reset => trivial
  | verify proxyUrl samples worlds =>
    intro identity hreply _ hdirect
    obtain ⟨ip, hsamples, hlast, hip⟩ := verify_samples hdirect (Option.some.inj hreply)
    obtain ⟨ip', -, hcomposed⟩ := fetch_composed hlast
    obtain rfl : ip' = ip := by
      have haddress := hcomposed.address
      rw [hip] at haddress
      exact (Option.some.inj haddress).symm
    refine ⟨ip', ⟨hcomposed, fun hother => hsound hdirect ip' fun i hi => ?_⟩, hsamples⟩
    obtain ⟨sample, hsample, hseen⟩ := hsamples i hi
    exact strayed_iff.mpr ⟨sample, hsample, hseen, hother⟩
  | resolve proxyUrl now world failedAt =>
    intro identity hreply _ hdirect
    have hresult : (resolveProxyEgress engine capacity cache proxyUrl now world failedAt).2 =
        .ok identity := Option.some.inj hreply
    unfold resolveProxyEgress at hresult
    rw [if_neg hdirect] at hresult
    split at hresult
    · rename_i entry hentry
      obtain ⟨hfetched, hstrayed⟩ := h _ (hit_mem hentry)
      obtain ⟨ip, hcoherent⟩ := fetch_coherent hresult hstrayed
      exact ⟨entry.promise, ip, hfetched.more _, hcoherent⟩
    · rename_i hmiss
      obtain ⟨ip, hcoherent⟩ := fetch_coherent hresult (hsound hdirect hmiss)
      exact ⟨world, ip, fetched_now calls proxyUrl now failedAt world, hcoherent⟩

theorem lookup_verified {world : World} {known : Parsed} {providers : List Provider}
    {attempts : List Attempt} {identity : Identity}
    (h : lookup engine world known attempts providers = .ok identity) : identity.verified = true := by
  induction providers generalizing attempts with
  | nil => cases h
  | cons provider providers ih =>
    unfold lookup at h
    dsimp only at h
    split at h
    · obtain rfl := Except.ok.inj h
      rfl
    · exact ih h

theorem fetch_verified {world : World} {identity : Identity}
    (h : fetchProxyEgress engine world = .ok identity) : identity.verified = true := by
  unfold fetchProxyEgress identify at h
  dsimp only at h
  split at h
  · split at h
    · split at h
      · obtain rfl := Except.ok.inj h
        rfl
      · exact lookup_verified h
    · cases h
  · cases h

/-- A reply that keeps to what is asked was not strayed for. -/
theorem sound_of_kept
    (h : Kept engine calls ((resolutions engine capacity).reply cache call) call) :
    Sound engine cache call := by
  cases call with
  | reset => trivial
  | verify proxyUrl samples worlds =>
    intro hdirect ip hstrayed
    have hpos : 0 < sampleCount samples := by
      unfold sampleCount
      omega
    obtain ⟨identity, hidentity, hip⟩ := verify_exists hdirect (hstrayed 0 hpos).nonempty
      fun i hi => by
        obtain ⟨sample, hsample, hseen, -⟩ := strayed_iff.mp (hstrayed i hi)
        exact ⟨sample, hsample, hseen⟩
    obtain ⟨-, -, hlast, -⟩ := verify_samples hdirect hidentity
    obtain ⟨ip', hcoherent, -⟩ := h identity (congrArg some hidentity) (fetch_verified hlast) hdirect
    have haddress := hcoherent.address
    rw [hip] at haddress
    obtain rfl := Option.some.inj haddress
    exact hcoherent.isIP (hstrayed 0 hpos).other
  | resolve proxyUrl now world failedAt =>
    intro hdirect hmiss ip hstrayed
    obtain ⟨identity, hidentity, hip, hother⟩ := strayed_iff.mp hstrayed
    have hresult : (resolveProxyEgress engine capacity cache proxyUrl now world failedAt).2 =
        .ok identity := by
      unfold resolveProxyEgress
      rw [if_neg hdirect, hmiss]
      exact hidentity
    obtain ⟨_, ip', -, hcoherent⟩ :=
      h identity (congrArg some hresult) (fetch_verified hidentity) hdirect
    have haddress := hcoherent.address
    rw [hip] at haddress
    obtain rfl := Option.some.inj haddress
    exact hcoherent.isIP hother

end Runs

/-- **The identities of a run are coherent** if and only if no fetch that a call makes strays, nor
all the samples of a verification to one text. -/
theorem identities_coherent (engine : Engine) (capacity : Nat) (calls : List Call) :
    (∀ past call rest, calls = past ++ call :: rest →
      Kept engine (past ++ [call]) ((resolutions engine capacity).reply
        ((resolutions engine capacity).run [] past) call) call) ↔
    (resolutions engine capacity).Along (Sound engine) [] calls := by
  constructor
  · intro h
    exact EventSystem.along_of_split fun past call rest hsplit => sound_of_kept (h past call rest hsplit)
  · rintro h past call rest rfl
    have htrusted : Trusted engine past ((resolutions engine capacity).run [] past) :=
      EventSystem.history_inv (P := Trusted engine) (fun _ hitem => absurd hitem List.not_mem_nil)
        (fun _ _ halong hkept => trusted_next hkept (EventSystem.along_concat.mp halong).2) h.before
    exact kept_reply htrusted h.at

section Sample

def sampleEngine : Engine where
  isZone zone := zone = "Europe/Berlin"
  upper text := text
  syntaxError _ := "Unexpected token"
  nullError := "Cannot read properties of null"

/-- No provider is reached through the proxy, whose gateway answers for the last probe; one lookup
falls back to the address that asks. -/
def captiveWorld : World where
  reply egress url :=
    if egress = true then
      if url = icanhazip then .answered 200 "Session expired" else .failed none "socket hang up"
    else .answered 200 "\x7b\x22timezone\x22:\x22Europe/Berlin\x22\x7d"

/-- The identity is verified, and its address is "Session expired". -/
theorem plain_text_verified : ¬∀ past call rest,
    [Call.resolve ⟨"http:", "http://proxy.example:8080/"⟩ 0 captiveWorld 0] = past ++ call :: rest →
      Kept sampleEngine (past ++ [call]) ((resolutions sampleEngine 1000).reply
        ((resolutions sampleEngine 1000).run [] past) call) call := by
  intro h
  have hsound := sound_of_kept (h [] _ [] rfl)
  refine hsound (by decide) (by decide) "Session expired"
    ⟨rfl, by decide +kernel, ⟨200, "Session expired", by decide +kernel, by decide +kernel⟩,
      by decide, by decide +kernel, ?_⟩
  refine ⟨_, List.mem_cons_self, { timezone := some "Europe/Berlin" }, ?_, rfl⟩
  decide +kernel

end Sample

end LinkSuffix.Egress
