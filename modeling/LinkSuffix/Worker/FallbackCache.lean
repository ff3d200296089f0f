import LinkSuffix.Lib.Await
import LinkSuffix.Lib.Table
import Mathlib.Data.List.Sort

/-!
# The redirect fallback cache and the runs that share it

Before a continuous journey opens a browser, its run asks `redirectFallbackCache` for the preflight
of its hostname (`claim`), and records how the preflight ended (`recordCaptured`,
`recordBrowserRequired`). An entry whose probe is in flight sends the other journeys of its hostname
to the browser.

* `redirectRunner`: the runs of one worker process, each inside `resolveRedirectFirst` or done.
* `AsksAndAnswers`: the hostnames in flight are those of the runs inside a preflight.
* **`probes_settled`**: as long as no preflight stops or throws and no probe in flight is evicted,
  every claim is answered by a record.
* **`stopped_probe_never_answered`**: a preflight that stops leaves its hostname in flight.
-/

namespace LinkSuffix

open Lib

/-! ## The cache -/

/-- `RedirectFallbackEntry`, with its key in the map. -/
structure RedirectFallbackEntry where
  hostname : String
  reason : String
  fallbackCount : Nat
  skipUntil : Nat
  probeInFlight : Bool
  updatedAt : Nat
  deriving DecidableEq

/-- The entries in insertion order. -/
abbrev RedirectFallbackEntries := List RedirectFallbackEntry

/-- `RedirectFallbackClaim`. -/
structure RedirectFallbackClaim where
  attemptPreflight : Bool
  hostname : String
  reason : Option String := none
  cacheUntil : Option Nat := none
  periodicProbe : Bool
  deriving DecidableEq

/-- `MIN_TTL_MS`. -/
def minTtlMs : Nat := 15 * 60000

/-- `MAX_TTL_MS`. -/
def maxTtlMs : Nat := 60 * 60000

/-- The two fields of `AdaptiveRedirectFallbackCache` that its constructor bounds. -/
structure CacheLimits where
  ttlMs : Nat
  maxEntries : Nat
  entries_ge : 100 ≤ maxEntries

/-- The constructor of `AdaptiveRedirectFallbackCache`. -/
def CacheLimits.of (ttlMs maxEntries : Option Nat) : CacheLimits where
  ttlMs := min maxTtlMs (max minTtlMs (ttlMs.getD (30 * 60000)))
  maxEntries := min 50000 (max 100 (maxEntries.getD 10000))
  entries_ge := by omega

namespace RedirectFallbackEntries

/-- `this.entries.get(hostname)`. -/
def get (entries : RedirectFallbackEntries) (hostname : String) : Option RedirectFallbackEntry :=
  entries.find? fun entry => entry.hostname = hostname

/-- `this.entries.delete(hostname)`. -/
def delete (entries : RedirectFallbackEntries) (hostname : String) : RedirectFallbackEntries :=
  entries.filter fun entry => entry.hostname ≠ hostname

/-- The entries that the first loop of `prune` keeps. -/
def unexpired (entries : RedirectFallbackEntries) (limits : CacheLimits) (now : Nat) :
    RedirectFallbackEntries :=
  entries.filter fun entry => !(!entry.probeInFlight && entry.skipUntil + limits.ttlMs < now)

/-- `oldest` of `prune`: the first entry of the sorted ones. -/
def oldest (entries : RedirectFallbackEntries) : Option RedirectFallbackEntry :=
  (entries.insertionSort fun a b => a.updatedAt ≤ b.updatedAt).head?

/-- The second loop of `prune`, for at most that many rounds. -/
def evict (limits : CacheLimits) : Nat → RedirectFallbackEntries → RedirectFallbackEntries
  | 0, entries => entries
  | rounds + 1, entries =>
    if entries.length < limits.maxEntries then entries
    else
      match oldest entries with
      | none => entries
      | some entry => evict limits rounds (entries.delete entry.hostname)

def prune (entries : RedirectFallbackEntries) (limits : CacheLimits) (now : Nat) :
    RedirectFallbackEntries :=
  evict limits (entries.unexpired limits now).length (entries.unexpired limits now)

/-- The entry of a hostname that was not there. -/
def unclassified (hostname : String) (now : Nat) : RedirectFallbackEntry where
  hostname := hostname
  reason := "unclassified"
  fallbackCount := 0
  skipUntil := 0
  probeInFlight := true
  updatedAt := now

/-- The entry of a hostname whose probe starts. -/
def startProbe (now : Nat) (entry : RedirectFallbackEntry) : RedirectFallbackEntry :=
  { entry with probeInFlight := true, updatedAt := now }

def claim (entries : RedirectFallbackEntries) (limits : CacheLimits) (hostname : String)
    (now : Nat) : RedirectFallbackEntries × RedirectFallbackClaim :=
  match entries.get hostname with
  | none =>
    (entries.prune limits now ++ [unclassified hostname now],
      { attemptPreflight := true, hostname := hostname, periodicProbe := false })
  | some entry =>
    if entry.probeInFlight then
      (entries, { attemptPreflight := false, hostname := hostname, reason := some entry.reason
                  cacheUntil := some entry.skipUntil, periodicProbe := false })
    else if now < entry.skipUntil then
      (entries, { attemptPreflight := false, hostname := hostname, reason := some entry.reason
                  cacheUntil := some entry.skipUntil, periodicProbe := false })
    else
      (updateKey (·.hostname) hostname (startProbe now) entries,
        { attemptPreflight := true, hostname := hostname, reason := some entry.reason
          periodicProbe := 0 < entry.fallbackCount })

def recordCaptured (entries : RedirectFallbackEntries) (hostname : String) :
    RedirectFallbackEntries :=
  entries.delete hostname

/-- The entry that `recordBrowserRequired` sets. -/
def fallback (entries : RedirectFallbackEntries) (limits : CacheLimits) (hostname reason : String)
    (now : Nat) : RedirectFallbackEntry where
  hostname := hostname
  reason := if reason = "" then "browser_required" else reason
  fallbackCount := ((entries.get hostname).map (·.fallbackCount)).getD 0 + 1
  skipUntil := now + limits.ttlMs
  probeInFlight := false
  updatedAt := now

/-- `this.entries.set(…)` of `recordBrowserRequired`. -/
def setFallback (entries : RedirectFallbackEntries) (limits : CacheLimits)
    (hostname reason : String) (now : Nat) : RedirectFallbackEntries :=
  upsertKey (·.hostname) (entries.fallback limits hostname reason now) entries

def recordBrowserRequired (entries : RedirectFallbackEntries) (limits : CacheLimits)
    (hostname reason : String) (now : Nat) : RedirectFallbackEntries × Nat :=
  ((entries.setFallback limits hostname reason now).prune limits now, now + limits.ttlMs)

end RedirectFallbackEntries

/-! ## The runs -/

/-- `RedirectFirstResult['outcome']`. -/
inductive RedirectOutcome where
  | captured | browserRequired | stopped
  deriving DecidableEq

/-- How `resolveRedirectFirst` ends: with a result, of which the run hands these fields on, or with
a transport error of the proxy. -/
inductive PreflightEnd where
  | resolved (outcome : RedirectOutcome) (reason : String) (finalUrl : Option String)
  | threw
  deriving DecidableEq

/-- `RouteDecision`. -/
structure RouteDecision where
  outcome : String
  hostname : String
  reason : String
  preflightSkipped : Bool
  periodicProbe : Option Bool := none
  cacheUntil : Option Nat := none
  deriving DecidableEq

/-- A run inside `resolveRedirectFirst`. -/
structure Preflight where
  seedUrl : String
  claim : RedirectFallbackClaim
  deriving DecidableEq

/-- A journey that takes the redirect-first path, at the time it claims. -/
structure RedirectJourney where
  seedUrl : String
  now : Nat
  deriving DecidableEq

/-- The end of a preflight, at the time it is recorded. -/
structure PreflightAnswer where
  outcome : PreflightEnd
  now : Nat
  deriving DecidableEq

section Runner

variable (hostnameFor : String → String) (limits : CacheLimits)

/-- The claim of `attemptOnce`. -/
def startJourney (entries : RedirectFallbackEntries) (journey : RedirectJourney) :
    Piece RedirectFallbackEntries Preflight (Option RouteDecision) :=
  let claim := (entries.claim limits (hostnameFor journey.seedUrl) journey.now).2
  { state := (entries.claim limits (hostnameFor journey.seedUrl) journey.now).1
    calls := if claim.attemptPreflight then [⟨journey.seedUrl, claim⟩] else []
    reply :=
      if claim.attemptPreflight then none
      else some
        { outcome := "browser_fallback", hostname := claim.hostname
          reason := claim.reason.getD "browser_required", preflightSkipped := true
          cacheUntil := claim.cacheUntil } }

/-- What `attemptOnce` does with the end of its preflight. -/
def endPreflight (entries : RedirectFallbackEntries) (run : Preflight) (answer : PreflightAnswer) :
    Piece RedirectFallbackEntries Preflight (Option RouteDecision) :=
  match answer.outcome with
  | .threw => { state := entries, reply := none }
  | .resolved outcome reason finalUrl =>
    if outcome = .stopped then { state := entries, reply := none }
    else if outcome = .captured ∧ finalUrl.getD "" ≠ "" then
      { state := entries.recordCaptured (hostnameFor run.seedUrl)
        reply := some
          { outcome := "redirect_capture", hostname := run.claim.hostname, reason := reason
            preflightSkipped := false, periodicProbe := some run.claim.periodicProbe } }
    else
      let recorded :=
        entries.recordBrowserRequired limits (hostnameFor run.seedUrl) reason answer.now
      { state := recorded.1
        reply := some
          { outcome := "browser_fallback", hostname := run.claim.hostname, reason := reason
            preflightSkipped := false, periodicProbe := some run.claim.periodicProbe
            cacheUntil := some recorded.2 } }

/-- The runs of one worker process over its cache. -/
def redirectRunner : AwaitSystem RedirectFallbackEntries Preflight RedirectJourney PreflightAnswer
    (Option RouteDecision) where
  accept := startJourney hostnameFor limits
  resume := endPreflight hostnameFor limits
  silent := none

end Runner

abbrev RedirectEvent := AwaitEvent RedirectJourney PreflightAnswer

/-- A process whose cache is empty. -/
def freshRunner : InFlight RedirectFallbackEntries Preflight := ⟨[], []⟩

/-! ## What the cache does to its entries -/

namespace RedirectFallbackEntries

variable {entries : RedirectFallbackEntries} {limits : CacheLimits} {hostname reason : String}
  {now : Nat}

/-- The hostnames are the keys of the map. -/
def Keyed (entries : RedirectFallbackEntries) : Prop := (entries.map (·.hostname)).Nodup

/-- A probe of the hostname is in flight. -/
def probing (entries : RedirectFallbackEntries) (hostname : String) : Bool :=
  (entries.get hostname).any (·.probeInFlight)

/-- The entry that a full cache evicts is not in flight. -/
def Spares (entries : RedirectFallbackEntries) (limits : CacheLimits) (now : Nat) : Prop :=
  limits.maxEntries ≤ (entries.unexpired limits now).length →
    ∀ entry ∈ oldest (entries.unexpired limits now), entry.probeInFlight = false

instance : Decidable (entries.Spares limits now) := by
  unfold Spares
  infer_instance

theorem get_eq_some (h : entries.Keyed) {entry : RedirectFallbackEntry} :
    entries.get hostname = some entry ↔ entry ∈ entries ∧ entry.hostname = hostname :=
  find?_key_eq_some_iff h

theorem get_eq_none : entries.get hostname = none ↔ ∀ entry ∈ entries, entry.hostname ≠ hostname := by
  simp [get]

/-- A probe is in flight exactly when an entry of the hostname says so. -/
theorem probing_iff (h : entries.Keyed) :
    entries.probing hostname = true ↔
      ∃ entry ∈ entries, entry.hostname = hostname ∧ entry.probeInFlight = true := by
  unfold probing
  cases hget : entries.get hostname with
  | none =>
    rw [get_eq_none] at hget
    simp only [Option.any_none, Bool.false_eq_true, false_iff]
    rintro ⟨entry, hmem, hhost, -⟩
    exact hget entry hmem hhost
  | some entry =>
    obtain ⟨hmem, hhost⟩ := (get_eq_some h).mp hget
    constructor
    · exact fun hflight => ⟨entry, hmem, hhost, hflight⟩
    · rintro ⟨other, hother, hhost', hflight⟩
      rw [key_unique h hmem hother (hhost.trans hhost'.symm)]
      exact hflight

theorem oldest_mem {entry : RedirectFallbackEntry} (h : oldest entries = some entry) :
    entry ∈ entries :=
  (List.mem_insertionSort _).mp (List.mem_of_mem_head? h)

theorem oldest_isSome (h : entries ≠ []) : ∃ entry, oldest entries = some entry := by
  cases hold : oldest entries with
  | some entry => exact ⟨entry, rfl⟩
  | none =>
    have hperm := List.perm_insertionSort
      (fun a b : RedirectFallbackEntry => a.updatedAt ≤ b.updatedAt) entries
    rw [List.head?_eq_none_iff.mp hold] at hperm
    exact absurd hperm.nil_eq.symm h

theorem delete_length_lt {entry : RedirectFallbackEntry} (h : entry ∈ entries) :
    (entries.delete entry.hostname).length < entries.length := by
  refine List.length_filter_lt_length_iff_exists.mpr ⟨entry, h, ?_⟩
  simp

/-- A cache that has room evicts nothing. -/
theorem evict_of_lt (h : entries.length < limits.maxEntries) (rounds : Nat) :
    evict limits rounds entries = entries := by
  cases rounds with
  | zero => rfl
  | succ rounds => rw [evict, if_pos h]

/-- Evictions end with room for one more. -/
theorem evict_length {rounds : Nat} (h : entries.length ≤ rounds) :
    (evict limits rounds entries).length < limits.maxEntries := by
  have hmax := limits.entries_ge
  induction rounds generalizing entries with
  | zero =>
    show entries.length < limits.maxEntries
    omega
  | succ rounds ih =>
    by_cases hroom : entries.length < limits.maxEntries
    · rwa [evict_of_lt hroom]
    · have hnonempty : entries ≠ [] := by
        rintro rfl
        simp only [List.length_nil] at hroom
        omega
      obtain ⟨entry, hold⟩ := oldest_isSome hnonempty
      have hless := delete_length_lt (oldest_mem hold)
      simp only [evict, if_neg hroom, hold]
      exact ih (by omega)

theorem evict_sublist (rounds : Nat) : (evict limits rounds entries).Sublist entries := by
  induction rounds generalizing entries with
  | zero => exact List.Sublist.refl _
  | succ rounds ih =>
    unfold evict
    split
    · exact List.Sublist.refl _
    · split
      · exact List.Sublist.refl _
      · exact ih.trans List.filter_sublist

/-- **Pruning leaves room for one more.** -/
theorem prune_length : (entries.prune limits now).length < limits.maxEntries :=
  evict_length (Nat.le_refl _)

theorem prune_sublist : (entries.prune limits now).Sublist entries :=
  (evict_sublist _).trans List.filter_sublist

theorem Keyed.sublist {entries' : RedirectFallbackEntries} (h : entries.Keyed)
    (hsub : entries'.Sublist entries) : entries'.Keyed :=
  List.Nodup.sublist (hsub.map _) h

/-- What is in flight does not expire. -/
theorem mem_unexpired {entry : RedirectFallbackEntry} (h : entry ∈ entries)
    (hflight : entry.probeInFlight = true) : entry ∈ entries.unexpired limits now :=
  List.mem_filter.mpr ⟨h, by simp [hflight]⟩

/-- A cache within its bound evicts one entry at most. -/
theorem mem_evict {entry : RedirectFallbackEntry} (hlength : entries.length ≤ limits.maxEntries)
    (hspares : limits.maxEntries ≤ entries.length →
      ∀ old ∈ oldest entries, old.hostname ≠ entry.hostname)
    (h : entry ∈ entries) : entry ∈ evict limits entries.length entries := by
  by_cases hroom : entries.length < limits.maxEntries
  · rwa [evict_of_lt hroom]
  · obtain ⟨old, hold⟩ := oldest_isSome (List.ne_nil_of_mem h)
    have hless := delete_length_lt (oldest_mem hold)
    have hkept : entry ∈ entries.delete old.hostname := by
      refine List.mem_filter.mpr ⟨h, ?_⟩
      have hne := hspares (by omega) old hold
      simpa using fun heq => hne heq.symm
    obtain ⟨rounds, hrounds⟩ := Nat.exists_eq_add_one.mpr (List.length_pos_of_mem h)
    rw [hrounds]
    simp only [evict, if_neg hroom, hold]
    rwa [evict_of_lt (by omega)]

/-- **Pruning keeps what is in flight**, unless it is what a full cache evicts. -/
theorem probing_prune (h : entries.Keyed) (hlength : entries.length ≤ limits.maxEntries)
    (hspares : entries.Spares limits now) (hostname : String) :
    (entries.prune limits now).probing hostname = entries.probing hostname := by
  have hkeyed' : (entries.prune limits now).Keyed := h.sublist prune_sublist
  have hsub : (entries.unexpired limits now).Sublist entries := List.filter_sublist
  rw [Bool.eq_iff_iff, probing_iff hkeyed', probing_iff h]
  constructor
  · rintro ⟨entry, hmem, hentry⟩
    exact ⟨entry, prune_sublist.subset hmem, hentry⟩
  · rintro ⟨entry, hmem, hhost, hflight⟩
    refine ⟨entry, ?_, hhost, hflight⟩
    refine mem_evict (hsub.length_le.trans hlength) ?_ (mem_unexpired hmem hflight)
    intro hfull old hold heq
    have hidle := hspares hfull old hold
    have hsame : old = entry := key_unique h (hsub.subset (oldest_mem hold)) hmem heq
    rw [hsame, hflight] at hidle
    exact absurd hidle (by simp)

/-- The map's keys, and its bound. -/
structure Bounded (entries : RedirectFallbackEntries) (limits : CacheLimits) : Prop where
  keyed : entries.Keyed
  length : entries.length ≤ limits.maxEntries

theorem map_startProbe :
    (updateKey (·.hostname) hostname (startProbe now) entries).map (·.hostname) =
      entries.map (·.hostname) :=
  map_updateWhere fun _ _ => rfl

theorem probing_append {entry : RedirectFallbackEntry} (h : entries.get entry.hostname = none)
    (host : String) :
    probing (entries ++ [entry]) host =
      (entries.probing host || (host = entry.hostname && entry.probeInFlight)) := by
  have hget : get (entries ++ [entry]) host =
      (entries.get host).or (if entry.hostname = host then some entry else none) := by
    unfold get
    rw [List.find?_append]
    by_cases hhost : entry.hostname = host <;> simp [hhost]
  unfold probing
  rw [hget]
  by_cases hhost : entry.hostname = host
  · subst hhost
    simp [h]
  · simp [hhost, Ne.symm hhost]

theorem probing_delete (host : String) :
    (entries.delete hostname).probing host = (entries.probing host && host ≠ hostname) := by
  unfold probing get delete
  rw [List.find?_filter]
  by_cases hhost : host = hostname
  · subst hhost
    have hnone : entries.find? (fun entry => decide (decide (entry.hostname ≠ host) = true ∧
        decide (entry.hostname = host) = true)) = none := by
      refine List.find?_eq_none.mpr fun entry _ => ?_
      simp
    rw [hnone]
    simp
  · have hsame : (fun entry : RedirectFallbackEntry => decide
        (decide (entry.hostname ≠ hostname) = true ∧ decide (entry.hostname = host) = true)) =
          fun entry => decide (entry.hostname = host) := by
      funext entry
      by_cases hentry : entry.hostname = host
      · simp [hentry, hhost]
      · simp [hentry]
    rw [hsame]
    simp [hhost]

theorem get_startProbe (host : String) :
    get (updateKey (·.hostname) hostname (startProbe now) entries) host =
      (entries.get host).map fun entry =>
        if entry.hostname = hostname then startProbe now entry else entry :=
  find?_updateKey (f := startProbe now) (fun _ => rfl) hostname host

theorem get_setFallback_self :
    get (entries.setFallback limits hostname reason now) hostname =
      some (entries.fallback limits hostname reason now) := by
  have hfind : (upsertKey (·.hostname) (entries.fallback limits hostname reason now) entries).find?
      (fun entry => entry.hostname = (entries.fallback limits hostname reason now).hostname) =
        some (entries.fallback limits hostname reason now) := find?_upsertKey_self
  exact hfind

theorem get_setFallback_ne {host : String} (h : host ≠ hostname) :
    get (entries.setFallback limits hostname reason now) host = entries.get host :=
  find?_upsertKey_ne h

theorem probing_setFallback (host : String) :
    (entries.setFallback limits hostname reason now).probing host =
      (entries.probing host && host ≠ hostname) := by
  unfold probing
  by_cases hhost : host = hostname
  · subst hhost
    rw [get_setFallback_self]
    simp [fallback]
  · rw [get_setFallback_ne hhost]
    simp [hhost]

/-- **A claim**: it sends the journey to the browser and leaves the cache, or it starts the probe of
a hostname that had none. -/
theorem claim_spec (h : entries.Bounded limits)
    (hspares : entries.get hostname = none → entries.Spares limits now) :
    (entries.claim limits hostname now).1.Bounded limits ∧
      (((entries.claim limits hostname now).2.attemptPreflight = false ∧
          (entries.claim limits hostname now).1 = entries) ∨
        ((entries.claim limits hostname now).2.attemptPreflight = true ∧
          entries.probing hostname = false ∧
          ∀ host, (entries.claim limits hostname now).1.probing host =
            (entries.probing host || host = hostname))) := by
  unfold claim
  cases hget : entries.get hostname with
  | none =>
    have hroom : (entries.prune limits now).length < limits.maxEntries := prune_length
    have habsent : (entries.prune limits now).get hostname = none := by
      rw [get_eq_none] at hget ⊢
      exact fun entry hmem => hget entry (prune_sublist.subset hmem)
    refine ⟨⟨?_, ?_⟩, Or.inr ⟨rfl, by simp [probing, hget], fun host => ?_⟩⟩
    · refine nodup_map_concat (h.keyed.sublist prune_sublist) fun hmem => ?_
      obtain ⟨entry, hentry, hhost⟩ := List.mem_map.mp hmem
      exact get_eq_none.mp habsent entry hentry hhost
    · simp only [List.length_append, List.length_singleton]
      omega
    · show probing (entries.prune limits now ++ [unclassified hostname now]) host = _
      rw [probing_append habsent, probing_prune h.keyed h.length (hspares hget)]
      show (entries.probing host || (decide (host = hostname) && true)) = _
      rw [Bool.and_true]
  | some entry =>
    simp only
    split
    · exact ⟨h, Or.inl ⟨rfl, rfl⟩⟩
    · rename_i hidle
      split
      · exact ⟨h, Or.inl ⟨rfl, rfl⟩⟩
      · refine ⟨⟨?_, ?_⟩, Or.inr ⟨rfl, by simpa [probing, hget] using hidle, fun host => ?_⟩⟩
        · unfold Keyed
          rw [map_startProbe]
          exact h.keyed
        · simpa [updateKey, updateWhere] using h.length
        · unfold probing
          rw [get_startProbe]
          by_cases hhost : host = hostname
          · subst hhost
            have hentry := ((get_eq_some h.keyed).mp hget).2
            simp [hget, hentry, startProbe]
          · cases hother : entries.get host with
            | none => simp [hhost]
            | some other =>
              have hne : other.hostname ≠ hostname :=
                fun heq => hhost (((get_eq_some h.keyed).mp hother).2.symm.trans heq)
              simp [hhost, hne]

theorem claim_length (h : entries.length ≤ limits.maxEntries) :
    (entries.claim limits hostname now).1.length ≤ limits.maxEntries := by
  unfold claim
  split
  · have hroom : (entries.prune limits now).length < limits.maxEntries := prune_length
    simp only [List.length_append, List.length_singleton]
    omega
  · split
    · exact h
    · split
      · exact h
      · simpa [updateKey, updateWhere] using h

/-- A hostname with no probe in flight is attempted again once its time is over. -/
theorem claim_due (h : entries.probing hostname = false) :
    ∃ due, ∀ now, due ≤ now → (entries.claim limits hostname now).2.attemptPreflight = true := by
  unfold probing at h
  unfold claim
  cases hget : entries.get hostname with
  | none => exact ⟨0, fun now _ => rfl⟩
  | some entry =>
    have hidle : entry.probeInFlight = false := by simpa [hget] using h
    refine ⟨entry.skipUntil, fun now hdue => ?_⟩
    simp [hidle, Nat.not_lt.mpr hdue]

/-- A capture ends the probe of its hostname. -/
theorem recordCaptured_spec (h : entries.Bounded limits) :
    (entries.recordCaptured hostname).Bounded limits ∧
      ∀ host, (entries.recordCaptured hostname).probing host =
        (entries.probing host && host ≠ hostname) :=
  ⟨⟨h.keyed.sublist List.filter_sublist, (List.length_filter_le _ _).trans h.length⟩,
    probing_delete⟩

/-- A fallback ends the probe of its hostname, if the cache spares the others. -/
theorem recordBrowserRequired_spec (h : entries.Bounded limits)
    (hthere : entries.get hostname ≠ none)
    (hspares : (entries.setFallback limits hostname reason now).Spares limits now) :
    (entries.recordBrowserRequired limits hostname reason now).1.Bounded limits ∧
      ∀ host, (entries.recordBrowserRequired limits hostname reason now).1.probing host =
        (entries.probing host && host ≠ hostname) := by
  have hmem : hostname ∈ entries.map (·.hostname) := by
    obtain ⟨entry, hget⟩ := Option.ne_none_iff_exists'.mp hthere
    obtain ⟨hentry, hhost⟩ := (get_eq_some h.keyed).mp hget
    exact List.mem_map.mpr ⟨entry, hentry, hhost⟩
  have hset : entries.setFallback limits hostname reason now =
      updateKey (·.hostname) hostname (fun _ => entries.fallback limits hostname reason now)
        entries := if_pos hmem
  have hbounded : (entries.setFallback limits hostname reason now).Bounded limits := by
    rw [hset]
    constructor
    · have hkeys : (updateKey (·.hostname) hostname
          (fun _ => entries.fallback limits hostname reason now) entries).map (·.hostname) =
          entries.map (·.hostname) := by
        refine map_updateWhere fun entry hentry => ?_
        exact (of_decide_eq_true hentry).symm
      unfold Keyed
      rw [hkeys]
      exact h.keyed
    · simpa [updateKey, updateWhere] using h.length
  refine ⟨⟨hbounded.keyed.sublist prune_sublist, Nat.le_of_lt prune_length⟩, fun host => ?_⟩
  show ((entries.setFallback limits hostname reason now).prune limits now).probing host = _
  rw [probing_prune hbounded.keyed hbounded.length hspares, probing_setFallback]

/-- **What a full cache evicts is claimed again**: the next claim of a hostname whose probe was
evicted is told to attempt a second one. -/
theorem evicted_claims_again {old : RedirectFallbackEntry}
    (hfull : limits.maxEntries ≤ (entries.unexpired limits now).length)
    (hold : oldest (entries.unexpired limits now) = some old)
    (hnew : entries.get hostname = none) (later : Nat) :
    ((entries.claim limits hostname now).1.claim limits old.hostname later).2.attemptPreflight =
      true := by
  have hmem : old ∈ entries.unexpired limits now := oldest_mem hold
  have hne : hostname ≠ old.hostname :=
    (get_eq_none.mp hnew old (List.filter_sublist.subset hmem)).symm
  have hgone : ∀ entry ∈ entries.prune limits now, entry.hostname ≠ old.hostname := by
    obtain ⟨rounds, hrounds⟩ := Nat.exists_eq_add_one.mpr (List.length_pos_of_mem hmem)
    have hprune : entries.prune limits now =
        evict limits rounds ((entries.unexpired limits now).delete old.hostname) := by
      unfold prune
      rw [hrounds]
      simp only [evict, if_neg (Nat.not_lt.mpr hfull), hold]
    rw [hprune]
    intro entry hentry
    simpa using (List.mem_filter.mp ((evict_sublist rounds).subset hentry)).2
  have hnone : (entries.claim limits hostname now).1.get old.hostname = none := by
    unfold claim
    rw [hnew]
    refine get_eq_none.mpr fun entry hentry => ?_
    rcases List.mem_append.mp hentry with hentry | hentry
    · exact hgone entry hentry
    · rw [List.mem_singleton.mp hentry]
      exact hne
  show ((entries.claim limits hostname now).1.claim limits old.hostname later).2.attemptPreflight = _
  rw [claim, hnone]

end RedirectFallbackEntries

/-! ## The runs and the entries -/

section Runs

variable (hostnameFor : String → String) (limits : CacheLimits)

/-- The hostnames of the runs inside a preflight. -/
def outstanding (s : InFlight RedirectFallbackEntries Preflight) : List String :=
  s.calls.map fun run => hostnameFor run.seedUrl

/-- The hostname of the claim that the event makes, if the claim is told to attempt the preflight. -/
def asked (s : InFlight RedirectFallbackEntries Preflight) : RedirectEvent → List String
  | .input journey =>
    if (s.shared.claim limits (hostnameFor journey.seedUrl) journey.now).2.attemptPreflight then
      [hostnameFor journey.seedUrl]
    else []
  | .answer _ _ => []

/-- The run records how its preflight ended. -/
def PreflightEnd.recorded : PreflightEnd → Bool
  | .threw => false
  | .resolved outcome _ _ => outcome ≠ .stopped

/-- The reason that `recordBrowserRequired` is given. -/
def PreflightEnd.fallback : PreflightEnd → Option String
  | .threw => none
  | .resolved outcome reason finalUrl =>
    if outcome = .stopped ∨ (outcome = .captured ∧ finalUrl.getD "" ≠ "") then none
    else some reason

/-- The hostname of the record that the event makes. -/
def answered (s : InFlight RedirectFallbackEntries Preflight) : RedirectEvent → List String
  | .input _ => []
  | .answer n answer =>
    match s.calls[n]? with
    | none => []
    | some run => if answer.outcome.recorded then [hostnameFor run.seedUrl] else []

/-- A preflight that ends is captured or needs the browser, and what a full cache evicts is not in
flight. -/
def Recorded (s : InFlight RedirectFallbackEntries Preflight) : RedirectEvent → Prop
  | .input journey =>
    s.shared.get (hostnameFor journey.seedUrl) = none → s.shared.Spares limits journey.now
  | .answer n answer => ∀ run ∈ s.calls[n]?, answer.outcome.recorded = true ∧
      ∀ reason ∈ answer.outcome.fallback,
        (s.shared.setFallback limits (hostnameFor run.seedUrl) reason answer.now).Spares limits
          answer.now

instance (s : InFlight RedirectFallbackEntries Preflight) (e : RedirectEvent) :
    Decidable (Recorded hostnameFor limits s e) := by
  cases e <;> unfold Recorded <;> infer_instance

/-- The hostnames in flight are those of the runs inside a preflight, each of one run. -/
structure AsksAndAnswers (s : InFlight RedirectFallbackEntries Preflight) : Prop where
  bounded : s.shared.Bounded limits
  flight : ∀ host, (outstanding hostnameFor s).count host = if s.shared.probing host then 1 else 0

variable {hostnameFor limits} {s : InFlight RedirectFallbackEntries Preflight}
  {e : RedirectEvent}

theorem AsksAndAnswers.fresh : AsksAndAnswers hostnameFor limits freshRunner where
  bounded := ⟨List.nodup_nil, Nat.zero_le _⟩
  flight := by simp [outstanding, freshRunner, RedirectFallbackEntries.probing,
    RedirectFallbackEntries.get]

/-- A run inside a preflight has its hostname in flight. -/
theorem AsksAndAnswers.probing (h : AsksAndAnswers hostnameFor limits s) {run : Preflight}
    (hrun : run ∈ s.calls) : s.shared.probing (hostnameFor run.seedUrl) = true := by
  have hcount := h.flight (hostnameFor run.seedUrl)
  have hpos : 0 < (outstanding hostnameFor s).count (hostnameFor run.seedUrl) :=
    List.count_pos_iff.mpr (List.mem_map.mpr ⟨run, hrun, rfl⟩)
  by_contra hidle
  rw [if_neg hidle] at hcount
  omega

/-- A claim, made while the hostnames in flight are those of the runs. -/
theorem asks_accept (h : AsksAndAnswers hostnameFor limits s) (journey : RedirectJourney)
    (hrecorded : Recorded hostnameFor limits s (.input journey)) :
    AsksAndAnswers hostnameFor limits
      ((redirectRunner hostnameFor limits).events.next s (.input journey)) := by
  obtain ⟨hbounded, hclaim⟩ := RedirectFallbackEntries.claim_spec h.bounded hrecorded
  refine ⟨hbounded, fun host => ?_⟩
  show (((s.calls ++ (startJourney hostnameFor limits s.shared journey).calls).map
      fun run => hostnameFor run.seedUrl).count host) =
    if (s.shared.claim limits (hostnameFor journey.seedUrl) journey.now).1.probing host then 1
    else 0
  have hflight : (s.calls.map fun run => hostnameFor run.seedUrl).count host =
      if s.shared.probing host then 1 else 0 := h.flight host
  rcases hclaim with ⟨hskipped, hsame⟩ | ⟨hattempt, hidle, hprobing⟩
  · simp only [startJourney, hskipped, hsame, Bool.false_eq_true, if_false, List.append_nil]
    exact hflight
  · simp only [startJourney, hattempt, if_true, List.map_append, List.count_append, hflight,
      hprobing host]
    by_cases hhost : host = hostnameFor journey.seedUrl
    · simp [hhost, hidle]
    · simp [hhost, Ne.symm hhost]

/-- A preflight that ends suspends nothing. -/
@[simp] theorem endPreflight_calls {entries : RedirectFallbackEntries} {run : Preflight}
    {answer : PreflightAnswer} : (endPreflight hostnameFor limits entries run answer).calls = [] := by
  unfold endPreflight
  split
  · rfl
  · split
    · rfl
    · split <;> rfl

theorem endPreflight_length {entries : RedirectFallbackEntries} {run : Preflight}
    {answer : PreflightAnswer} (h : entries.length ≤ limits.maxEntries) :
    (endPreflight hostnameFor limits entries run answer).state.length ≤ limits.maxEntries := by
  unfold endPreflight
  split
  · exact h
  · split
    · exact h
    · split
      · exact (List.length_filter_le _ _).trans h
      · exact Nat.le_of_lt RedirectFallbackEntries.prune_length

/-- The end of a preflight, recorded while the hostnames in flight are those of the runs. -/
theorem asks_answer (h : AsksAndAnswers hostnameFor limits s) {n : Nat} {answer : PreflightAnswer}
    {run : Preflight} (hrun : s.calls[n]? = some run)
    (hrecorded : Recorded hostnameFor limits s (.answer n answer)) :
    AsksAndAnswers hostnameFor limits
      ((redirectRunner hostnameFor limits).events.next s (.answer n answer)) := by
  obtain ⟨hended, hspares⟩ := hrecorded run hrun
  have hflying := h.probing (List.mem_of_getElem? hrun)
  have hthere : s.shared.get (hostnameFor run.seedUrl) ≠ none := by
    intro hnone
    simp [RedirectFallbackEntries.probing, hnone] at hflying
  have hspec : (endPreflight hostnameFor limits s.shared run answer).state.Bounded limits ∧
      ∀ host, (endPreflight hostnameFor limits s.shared run answer).state.probing host =
        (s.shared.probing host && host ≠ hostnameFor run.seedUrl) := by
    unfold endPreflight
    cases hend : answer.outcome with
    | threw => simp [hend, PreflightEnd.recorded] at hended
    | resolved outcome reason finalUrl =>
      have hgoes : outcome ≠ .stopped := by simpa [hend, PreflightEnd.recorded] using hended
      by_cases hcaptured : outcome = .captured ∧ finalUrl.getD "" ≠ ""
      · simp only [if_neg hgoes, if_pos hcaptured]
        exact RedirectFallbackEntries.recordCaptured_spec h.bounded
      · simp only [if_neg hgoes, if_neg hcaptured]
        refine RedirectFallbackEntries.recordBrowserRequired_spec h.bounded hthere ?_
        refine hspares reason ?_
        rw [hend, PreflightEnd.fallback, if_neg (not_or.mpr ⟨hgoes, hcaptured⟩)]
        rfl
  obtain ⟨before, after, hcalls, herase⟩ := AwaitSystem.split_eraseIdx hrun
  rw [AwaitSystem.next_answer hrun]
  refine ⟨hspec.1, fun host => ?_⟩
  have hflight := h.flight host
  have hone := h.flight (hostnameFor run.seedUrl)
  rw [if_pos hflying] at hone
  show ((s.calls.eraseIdx n ++ (endPreflight hostnameFor limits s.shared run answer).calls).map
      fun run => hostnameFor run.seedUrl).count host =
    if (endPreflight hostnameFor limits s.shared run answer).state.probing host then 1 else 0
  unfold outstanding at hflight hone
  rw [hcalls] at hflight hone
  rw [endPreflight_calls, List.append_nil, herase, hspec.2 host]
  simp only [List.map_append, List.map_cons, List.count_append, List.count_cons] at hflight hone ⊢
  by_cases hhost : host = hostnameFor run.seedUrl
  · subst hhost
    simp only [beq_self_eq_true, if_true] at hone
    simp only [ne_eq, not_true_eq_false, decide_false, Bool.and_false, Bool.false_eq_true, if_false]
    omega
  · simpa [hhost, Ne.symm hhost] using hflight

/-- **Step lemma**. -/
theorem asks_step (s : InFlight RedirectFallbackEntries Preflight) (e : RedirectEvent)
    (h : AsksAndAnswers hostnameFor limits s) (hrecorded : Recorded hostnameFor limits s e) :
    AsksAndAnswers hostnameFor limits ((redirectRunner hostnameFor limits).events.next s e) := by
  cases e with
  | input journey => exact asks_accept h journey hrecorded
  | answer n answer =>
    cases hrun : s.calls[n]? with
    | none =>
      have hidle : (redirectRunner hostnameFor limits).events.next s (.answer n answer) = s := by
        show ((redirectRunner hostnameFor limits).step s (.answer n answer)).1 = s
        simp [AwaitSystem.step, hrun]
      rwa [hidle]
    | some run => exact asks_answer h hrun hrecorded

/-- **Every claim that was told to attempt the preflight is answered by one record**, or its run is
still inside the preflight. -/
theorem asked_perm {es : List RedirectEvent}
    (h : (redirectRunner hostnameFor limits).events.Along (Recorded hostnameFor limits) freshRunner
      es) :
    ((redirectRunner hostnameFor limits).events.collect (asked hostnameFor limits) freshRunner
        es).Perm
      ((redirectRunner hostnameFor limits).events.collect (answered hostnameFor) freshRunner es ++
        outstanding hostnameFor ((redirectRunner hostnameFor limits).events.run freshRunner es)) := by
  induction es using List.reverseRecOn with
  | nil => exact List.Perm.refl _
  | append_singleton es e ih =>
    obtain ⟨hbefore, hrecorded⟩ := EventSystem.along_concat.mp h
    have hperm := ih hbefore
    rw [EventSystem.collect_concat, EventSystem.collect_concat, EventSystem.run_concat]
    generalize (redirectRunner hostnameFor limits).events.run freshRunner es = s at *
    cases e with
    | input journey =>
      have hcalls : outstanding hostnameFor
          ((redirectRunner hostnameFor limits).events.next s (.input journey)) =
            outstanding hostnameFor s ++ asked hostnameFor limits s (.input journey) := by
        show (s.calls ++ (startJourney hostnameFor limits s.shared journey).calls).map _ = _
        rw [List.map_append]
        refine congrArg (outstanding hostnameFor s ++ ·) ?_
        simp only [startJourney, asked]
        split <;> rfl
      rw [hcalls]
      simp only [answered, List.append_nil]
      rw [← List.append_assoc]
      exact hperm.append_right _
    | answer n answer =>
      simp only [asked, List.append_nil]
      cases hrun : s.calls[n]? with
      | none =>
        have hidle : (redirectRunner hostnameFor limits).events.next s (.answer n answer) = s := by
          show ((redirectRunner hostnameFor limits).step s (.answer n answer)).1 = s
          simp [AwaitSystem.step, hrun]
        rw [hidle]
        simpa [answered, hrun] using hperm
      | some run =>
        obtain ⟨before, after, hcalls, herase⟩ := AwaitSystem.split_eraseIdx hrun
        have hended := (hrecorded run hrun).1
        rw [AwaitSystem.next_answer hrun]
        simp only [answered, hrun, hended, if_true, outstanding, redirectRunner,
          endPreflight_calls, List.append_nil, herase]
        refine hperm.trans ?_
        simp only [outstanding, hcalls, List.map_append, List.map_cons, List.append_assoc,
          List.singleton_append]
        exact List.Perm.append_left _ List.perm_middle

/-- The entries stay within the bound on every run. -/
theorem entries_le (es : List RedirectEvent) :
    ((redirectRunner hostnameFor limits).events.run freshRunner es).shared.length ≤
      limits.maxEntries := by
  let Fits (s : InFlight RedirectFallbackEntries Preflight) : Prop :=
    s.shared.length ≤ limits.maxEntries
  refine EventSystem.run_inv_true (P := Fits) (Nat.zero_le _) fun s e h => ?_
  have hnext := AwaitSystem.next_cases (redirectRunner hostnameFor limits) s e
  show Fits ((redirectRunner hostnameFor limits).events.next s e)
  generalize (redirectRunner hostnameFor limits).events.next s e = s' at hnext ⊢
  cases hnext with
  | idle n answer hnone => exact h
  | input journey => exact RedirectFallbackEntries.claim_length h
  | answer n answer run hrun => exact endPreflight_length h

/-- **Every preflight probe is settled**: as long as every preflight is captured or needs the
browser, and a full cache evicts no probe in flight, one probe of a hostname is outstanding at most,
every claim is answered, a hostname is in flight only while a run is inside its preflight, and a
hostname with no probe outstanding is attempted again once its time is over. -/
theorem probes_settled (hostnameFor : String → String) (limits : CacheLimits)
    (es : List RedirectEvent)
    (h : (redirectRunner hostnameFor limits).events.Along (Recorded hostnameFor limits) freshRunner
      es) :
    let s := (redirectRunner hostnameFor limits).events.run freshRunner es
    (∀ host, (outstanding hostnameFor s).count host ≤ 1) ∧
      ((redirectRunner hostnameFor limits).events.collect (asked hostnameFor limits) freshRunner
          es).Perm
        ((redirectRunner hostnameFor limits).events.collect (answered hostnameFor) freshRunner es ++
          outstanding hostnameFor s) ∧
      (∀ entry ∈ s.shared, entry.probeInFlight = true →
        entry.hostname ∈ outstanding hostnameFor s) ∧
      (∀ host, host ∉ outstanding hostnameFor s →
        ∃ due, ∀ now, due ≤ now → (s.shared.claim limits host now).2.attemptPreflight = true) ∧
      s.shared.length ≤ limits.maxEntries := by
  intro s
  have hinv : AsksAndAnswers hostnameFor limits s := EventSystem.run_inv .fresh asks_step h
  refine ⟨fun host => ?_, asked_perm h, fun entry hentry hflight => ?_, fun host hhost => ?_,
    entries_le es⟩
  · rw [hinv.flight host]
    split <;> omega
  · have hprobing := (RedirectFallbackEntries.probing_iff hinv.bounded.keyed).mpr
      ⟨entry, hentry, rfl, hflight⟩
    refine List.count_pos_iff.mp ?_
    rw [hinv.flight, if_pos hprobing]
    exact Nat.one_pos
  · have hidle : s.shared.probing host = false := by
      by_contra hprobing
      have hcount := hinv.flight host
      rw [if_pos (by simpa using hprobing), List.count_eq_zero.mpr hhost] at hcount
      omega
    exact RedirectFallbackEntries.claim_due hidle

end Runs

/-! ## A preflight that stops -/

namespace StoppedProbe

def host : String → String := fun _ => "tracker.example"

def limits : CacheLimits := .of none none

/-- A journey claims the preflight of its hostname. -/
def claims : RedirectEvent := .input ⟨"https://tracker.example/start", 1000⟩

/-- The preflight ends, at the time it is recorded. -/
def ends (outcome : RedirectOutcome) : RedirectEvent :=
  .answer 0 ⟨.resolved outcome "edge_response_stopped" none, 2000⟩

end StoppedProbe

/-- A preflight that needs the browser is recorded. -/
theorem probes_settled_fallback :
    ((redirectRunner StoppedProbe.host StoppedProbe.limits).events.run freshRunner
        [StoppedProbe.claims, StoppedProbe.ends .browserRequired]).calls.length = 0 ∧
      ∀ entry ∈ ((redirectRunner StoppedProbe.host StoppedProbe.limits).events.run freshRunner
        [StoppedProbe.claims, StoppedProbe.ends .browserRequired]).shared,
        entry.probeInFlight = true → entry.hostname ∈ ([] : List String) :=
  ⟨by decide, (probes_settled StoppedProbe.host StoppedProbe.limits
    [StoppedProbe.claims, StoppedProbe.ends .browserRequired] (by decide)).2.2.1⟩

/-- **A preflight that stops is never answered**: no run is inside a preflight, and the hostname
is still in flight. -/
theorem stopped_probe_never_answered :
    ¬∀ (hostnameFor : String → String) (limits : CacheLimits) (es : List RedirectEvent),
      let s := (redirectRunner hostnameFor limits).events.run freshRunner es
      s.calls = [] → ∀ entry ∈ s.shared, entry.probeInFlight = false := by
  intro hall
  have hidle := hall StoppedProbe.host StoppedProbe.limits
    [StoppedProbe.claims, StoppedProbe.ends .stopped] rfl
  exact absurd hidle (by decide)

end LinkSuffix
