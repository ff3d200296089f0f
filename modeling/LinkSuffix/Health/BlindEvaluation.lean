import LinkSuffix.Health.CampaignAlerts

/-!
# Evaluations with an unreadable source

A source that could not be read counts as an empty one, and an alert that an evaluation does not
raise is resolved.

* `SourceName`, `Decides`: which alerts the condition of each source decides.
* `KeepsOpen`: an evaluation closes no alert that an unreadable source decides.
* `SeenThrough`: what was read still raises every such alert.
* **`keepsOpen_iff`**; **`unreadable_registry_closes`**: an unreadable registry closes the alert of a
  failed delivery.
-/

namespace LinkSuffix.Health

/-! ## Sources and alerts -/

inductive SourceName where
  | capacity
  | bridge
  | registry
  | relationalShards
  | relationalDeliveries

def Sources.Unreadable (sources : Sources) : SourceName → Prop
  | .capacity => rejected sources.capacity = true
  | .bridge => rejected sources.bridge = true
  | .registry => rejected sources.registry = true
  | .relationalShards => rejected sources.relationalShards = true
  | .relationalDeliveries => rejected sources.relationalDeliveries = true

/-- The alerts of the services that a snapshot reports on. -/
def dependencyFingerprints : List String :=
  ["system:postgres-unhealthy", "system:redis-unhealthy", "system:leader-unhealthy"]

/-- The condition of the alert is read off the source. -/
def Decides (source : SourceName) (fingerprint : String) : Prop :=
  match source with
  | .capacity => fingerprint = "system:control-unreachable" ∨ fingerprint ∈ dependencyFingerprints ∨
      family fingerprint ∈ ["capacity".toList, "campaign".toList]
  | .bridge => fingerprint = "system:fleet-state-unavailable" ∨
      family fingerprint ∈ ["delivery".toList, "shard".toList]
  | .registry => fingerprint = "system:fleet-state-unavailable" ∨
      family fingerprint ∈ ["campaign".toList, "delivery".toList, "shard".toList]
  | .relationalShards => family fingerprint = "shard".toList
  | .relationalDeliveries => fingerprint = "system:fleet-state-unavailable" ∨
      family fingerprint ∈ ["delivery".toList, "shard".toList]

/-- The alert has a row that is not resolved. -/
def Open (table : Table) (fingerprint : String) : Prop :=
  ∃ row, table fingerprint = some row ∧ row.status ≠ .resolved

/-- An evaluation leaves every open alert open that a source decides which could not be read. -/
def KeepsOpen (now : Int) (clock : Clock) (sources : Sources) (table : Table) : Prop :=
  ∀ fingerprint, Open table fingerprint →
    (∃ source, sources.Unreadable source ∧ Decides source fingerprint) →
      Open (persistEvaluation now (evaluation clock sources) table) fingerprint

/-- A candidate has the fingerprint. -/
def Raises (candidates : List Candidate) (fingerprint : String) : Prop :=
  fingerprint ∈ candidates.map (·.fingerprint)

/-- The deliveries that were read. -/
def Sources.items (sources : Sources) : List JsValue :=
  deliveryItems sources.bridgeValue sources.deliveryRows

/-- What could be read still raises every open alert that an unreadable source decides. -/
structure SeenThrough (clock : Clock) (sources : Sources) (table : Table) : Prop where
  host : sources.Unreadable .capacity → ∀ fingerprint, Open table fingerprint →
    fingerprint ∉ dependencyFingerprints ∧ family fingerprint ≠ "capacity".toList
  /-- The registry's own rows raise the alerts of the campaigns. -/
  unlisted : sources.Unreadable .capacity → ∀ fingerprint, Open table fingerprint →
    family fingerprint = "campaign".toList → ∃ row ∈ sources.registryRows,
      Raises (rowCandidates clock.dateParse clock.now sources.registryRows row) fingerprint
  /-- The rows of the snapshot raise them, without the registry's. -/
  unregistered : sources.Unreadable .registry → ∀ fingerprint, Open table fingerprint →
    family fingerprint = "campaign".toList → ∃ row ∈ liveRows sources.capacityValue,
      Raises (rowCandidates clock.dateParse clock.now [] row) fingerprint
  unenrolled : sources.Unreadable .registry → ∀ fingerprint, Open table fingerprint →
    family fingerprint ≠ "delivery".toList ∧ family fingerprint ≠ "shard".toList
  deliveries : sources.Unreadable .bridge ∨ sources.Unreadable .relationalDeliveries →
    ∀ fingerprint, Open table fingerprint → family fingerprint = "delivery".toList →
      ∃ campaign ∈ enrolledCampaigns sources.registryRows sources.items,
        Raises (deliveryAlerts clock.dateParse clock.now sources.items campaign) fingerprint
  shards : sources.Unreadable .bridge ∨ sources.Unreadable .relationalShards ∨
      sources.Unreadable .relationalDeliveries →
    ∀ fingerprint, Open table fingerprint → family fingerprint = "shard".toList →
      ∃ entry ∈ shardCampaigns (enrolledCampaigns sources.registryRows sources.items),
        Raises (shardAlerts clock.dateParse clock.limits clock.now
          (mergedShards sources.bridgeValue sources.shardRows) entry.1 entry.2) fingerprint

/-! ## What stays open -/

variable {now : Int} {clock : Clock} {sources : Sources} {table : Table} {fingerprint : String}

/-- A row that was just seen is open. -/
theorem seen_open (now : Int) (candidate : Candidate) (row : Option Row) :
    (seen now candidate row).status ≠ .resolved := by
  cases row with
  | none =>
    unfold seen insertAlert
    dsimp only
    split <;> decide
  | some old =>
    unfold seen onConflict
    dsimp only
    split
    · decide
    · split
      · split <;> decide
      · split
        · decide
        · assumption

theorem open_persistEvaluation :
    Open (persistEvaluation now (evaluation clock sources) table) fingerprint ↔
      fingerprint ∈ (evaluation clock sources).fingerprints := by
  constructor
  · rintro ⟨row, hrow, hopen⟩
    by_contra hmem
    rw [persistEvaluation_of_not_mem hmem] at hrow
    obtain ⟨old, -, rfl⟩ := Option.map_eq_some_iff.mp hrow
    exact hopen (resolve_status now old)
  · intro hmem
    obtain ⟨candidate, hcandidate, rfl⟩ := List.mem_map.mp hmem
    exact ⟨_, persistEvaluation_of_mem hcandidate, seen_open now candidate _⟩

theorem keepsOpen_iff_raised :
    KeepsOpen now clock sources table ↔ ∀ fingerprint, Open table fingerprint →
      (∃ source, sources.Unreadable source ∧ Decides source fingerprint) →
        fingerprint ∈ (evaluation clock sources).fingerprints :=
  forall_congr' fun _ => imp_congr_right fun _ => imp_congr_right fun _ => open_persistEvaluation

/-! ## An unreadable source is empty -/

theorem toOption_of_rejected {α : Type} {source : Except String α} (h : rejected source = true) :
    source.toOption = none := Option.isNone_iff_eq_none.mp h

theorem capacityValue_unreadable (h : sources.Unreadable .capacity) :
    sources.capacityValue = .object [] := by
  unfold Sources.capacityValue
  rw [toOption_of_rejected h]
  rfl

theorem registryRows_unreadable (h : sources.Unreadable .registry) : sources.registryRows = [] := by
  unfold Sources.registryRows
  rw [toOption_of_rejected h]
  rfl

/-- An empty snapshot reports no service and no number. -/
theorem dependencyCandidates_empty : dependencyCandidates (.object []) = [] := by decide +kernel

theorem capacityCandidates_empty : capacityCandidates (.object []) = [] := rfl

theorem mem_flatMap_fingerprints {α : Type} {rows : List α} {alerts : α → List Candidate} :
    fingerprint ∈ (rows.flatMap alerts).map (·.fingerprint) ↔
      ∃ row ∈ rows, Raises (alerts row) fingerprint := by
  rw [List.map_flatMap, List.mem_flatMap]
  rfl

/-- The system's alerts: of the reads themselves, and of the services. -/
theorem mem_systemCandidates :
    fingerprint ∈ (systemCandidates sources).map (·.fingerprint) ↔
      ((sources.Unreadable .capacity ∧ fingerprint = "system:control-unreachable") ∨
        ((sources.Unreadable .bridge ∨ sources.Unreadable .registry ∨
          sources.Unreadable .relationalDeliveries) ∧
            fingerprint = "system:fleet-state-unavailable")) ∨
      fingerprint ∈ (dependencyCandidates sources.capacityValue).map (·.fingerprint) := by
  have hfleet : (rejected sources.bridge || rejected sources.registry ||
      rejected sources.relationalDeliveries) = true ↔ (sources.Unreadable .bridge ∨
        sources.Unreadable .registry ∨ sources.Unreadable .relationalDeliveries) := by
    unfold Sources.Unreadable
    rw [Bool.or_eq_true, Bool.or_eq_true, or_assoc]
  unfold systemCandidates
  rw [List.map_append, List.map_append, List.mem_append, List.mem_append]
  refine or_congr_left (or_congr ?_ ?_)
  · unfold Sources.Unreadable rejected
    cases sources.capacity with
    | error message => exact List.mem_singleton.trans (and_iff_right rfl).symm
    | ok capacity => exact iff_of_false List.not_mem_nil fun h => Bool.false_ne_true h.1
  · rw [← hfleet]
    split
    · rename_i h
      exact List.mem_singleton.trans (and_iff_right h).symm
    · rename_i h
      exact iff_of_false List.not_mem_nil fun hmem => h hmem.1

/-- A snapshot that could not be read raises no alert of the host. -/
theorem host_not_raised (h : sources.Unreadable .capacity)
    (hraised : fingerprint ∈ (evaluation clock sources).fingerprints) :
    fingerprint ∉ dependencyFingerprints ∧ family fingerprint ≠ "capacity".toList := by
  constructor
  · intro hmem
    have hfamily : family fingerprint = "system".toList :=
      (by decide : ∀ name ∈ dependencyFingerprints, family name = "system".toList) _ hmem
    rw [raised_system hfamily, mem_systemCandidates, capacityValue_unreadable h,
      dependencyCandidates_empty] at hraised
    rcases hraised with (⟨-, rfl⟩ | ⟨-, rfl⟩) | hnone
    · exact absurd hmem (by decide)
    · exact absurd hmem (by decide)
    · exact List.not_mem_nil hnone
  · intro hfamily
    rw [raised_capacity hfamily, capacityValue_unreadable h, capacityCandidates_empty] at hraised
    exact List.not_mem_nil hraised

/-- Without a snapshot the registry's rows are evaluated. -/
theorem raised_unlisted (h : sources.Unreadable .capacity)
    (hfamily : family fingerprint = "campaign".toList) :
    fingerprint ∈ (evaluation clock sources).fingerprints ↔ ∃ row ∈ sources.registryRows,
      Raises (rowCandidates clock.dateParse clock.now sources.registryRows row) fingerprint := by
  have hrows : campaignRows (.object []) sources.registryRows = sources.registryRows := rfl
  rw [raised_campaign hfamily, capacityValue_unreadable h]
  unfold campaignCandidates
  rw [hrows]
  exact mem_flatMap_fingerprints

/-- Without a registry the rows of the snapshot are evaluated alone. -/
theorem raised_unregistered (h : sources.Unreadable .registry)
    (hfamily : family fingerprint = "campaign".toList) :
    fingerprint ∈ (evaluation clock sources).fingerprints ↔
      ∃ row ∈ liveRows sources.capacityValue,
        Raises (rowCandidates clock.dateParse clock.now [] row) fingerprint := by
  have hrows : campaignRows sources.capacityValue [] = liveRows sources.capacityValue := by
    have hrecord : record sources.capacityValue = sources.capacityValue := by
      unfold Sources.capacityValue
      cases sources.capacity.toOption with
      | none => rfl
      | some capacity => cases capacity <;> rfl
    unfold campaignRows liveRows
    rw [hrecord]
    dsimp only
    split
    · rename_i hempty
      exact (List.isEmpty_iff.mp hempty).symm
    · rfl
  rw [raised_campaign hfamily, registryRows_unreadable h]
  unfold campaignCandidates
  rw [hrows]
  exact mem_flatMap_fingerprints

/-- Without a registry no campaign is enrolled. -/
theorem unenrolled_not_raised (h : sources.Unreadable .registry)
    (hraised : fingerprint ∈ (evaluation clock sources).fingerprints) :
    family fingerprint ≠ "delivery".toList ∧ family fingerprint ≠ "shard".toList := by
  constructor
  · intro hfamily
    rw [raised_delivery hfamily, registryRows_unreadable h] at hraised
    exact List.not_mem_nil hraised
  · intro hfamily
    rw [raised_shard hfamily, registryRows_unreadable h] at hraised
    exact List.not_mem_nil hraised

theorem raised_deliveries (hfamily : family fingerprint = "delivery".toList) :
    fingerprint ∈ (evaluation clock sources).fingerprints ↔
      ∃ campaign ∈ enrolledCampaigns sources.registryRows sources.items,
        Raises (deliveryAlerts clock.dateParse clock.now sources.items campaign) fingerprint :=
  (raised_delivery hfamily).trans mem_flatMap_fingerprints

theorem raised_shards (hfamily : family fingerprint = "shard".toList) :
    fingerprint ∈ (evaluation clock sources).fingerprints ↔
      ∃ entry ∈ shardCampaigns (enrolledCampaigns sources.registryRows sources.items),
        Raises (shardAlerts clock.dateParse clock.limits clock.now
          (mergedShards sources.bridgeValue sources.shardRows) entry.1 entry.2) fingerprint :=
  (raised_shard hfamily).trans mem_flatMap_fingerprints

/-! ## What an evaluation leaves open -/

/-- An unreadable fleet source is reported, and decides the alerts of deliveries or shards. -/
theorem fleet_raised (h : sources.Unreadable .bridge ∨ sources.Unreadable .registry ∨
    sources.Unreadable .relationalDeliveries) :
    "system:fleet-state-unavailable" ∈ (evaluation clock sources).fingerprints := by
  rw [raised_system (by decide), mem_systemCandidates]
  exact .inl (.inr ⟨h, rfl⟩)

/-- An evaluation that raises every alert that matters sees it in what was read. -/
theorem SeenThrough.of_raised (h : ∀ fingerprint, Open table fingerprint →
    (∃ source, sources.Unreadable source ∧ Decides source fingerprint) →
      fingerprint ∈ (evaluation clock sources).fingerprints) : SeenThrough clock sources table := by
  have hraised {fingerprint : String} (source : SourceName) (hunreadable : sources.Unreadable source)
      (hopen : Open table fingerprint) (hdecides : Decides source fingerprint) :
      fingerprint ∈ (evaluation clock sources).fingerprints :=
    h fingerprint hopen ⟨source, hunreadable, hdecides⟩
  refine ⟨?_, ?_, ?_, ?_, ?_, ?_⟩
  · intro hunreadable fingerprint hopen
    refine ⟨fun hmem => ?_, fun hfamily => ?_⟩
    · exact (host_not_raised hunreadable
        (hraised .capacity hunreadable hopen (.inr (.inl hmem)))).1 hmem
    · exact (host_not_raised hunreadable (hraised .capacity hunreadable hopen
        (.inr (.inr (by rw [hfamily]; decide))))).2 hfamily
  · intro hunreadable fingerprint hopen hfamily
    exact (raised_unlisted hunreadable hfamily).mp (hraised .capacity hunreadable hopen
      (.inr (.inr (by rw [hfamily]; decide))))
  · intro hunreadable fingerprint hopen hfamily
    exact (raised_unregistered hunreadable hfamily).mp (hraised .registry hunreadable hopen
      (.inr (by rw [hfamily]; decide)))
  · intro hunreadable fingerprint hopen
    refine ⟨fun hfamily => ?_, fun hfamily => ?_⟩
    · exact (unenrolled_not_raised hunreadable (hraised .registry hunreadable hopen
        (.inr (by rw [hfamily]; decide)))).1 hfamily
    · exact (unenrolled_not_raised hunreadable (hraised .registry hunreadable hopen
        (.inr (by rw [hfamily]; decide)))).2 hfamily
  · intro hunreadable fingerprint hopen hfamily
    have hdelivery : family fingerprint ∈ ["delivery".toList, "shard".toList] := by
      rw [hfamily]
      decide
    rw [← raised_deliveries hfamily]
    rcases hunreadable with hunreadable | hunreadable
    · exact hraised .bridge hunreadable hopen (.inr hdelivery)
    · exact hraised .relationalDeliveries hunreadable hopen (.inr hdelivery)
  · intro hunreadable fingerprint hopen hfamily
    have hshard : family fingerprint ∈ ["delivery".toList, "shard".toList] := by
      rw [hfamily]
      decide
    rw [← raised_shards hfamily]
    rcases hunreadable with hunreadable | hunreadable | hunreadable
    · exact hraised .bridge hunreadable hopen (.inr hshard)
    · exact hraised .relationalShards hunreadable hopen hfamily
    · exact hraised .relationalDeliveries hunreadable hopen (.inr hshard)

theorem SeenThrough.raised (h : SeenThrough clock sources table) (hopen : Open table fingerprint)
    {source : SourceName} (hunreadable : sources.Unreadable source)
    (hdecides : Decides source fingerprint) :
    fingerprint ∈ (evaluation clock sources).fingerprints := by
  cases source with
  | capacity =>
    rcases hdecides with rfl | hdependency | hfamily
    · rw [raised_system (by decide), mem_systemCandidates]
      exact .inl (.inl ⟨hunreadable, rfl⟩)
    · exact absurd hdependency (h.host hunreadable fingerprint hopen).1
    · rcases List.mem_cons.mp hfamily with hfamily | hfamily
      · exact absurd hfamily (h.host hunreadable fingerprint hopen).2
      · have hfamily := List.mem_singleton.mp hfamily
        exact (raised_unlisted hunreadable hfamily).mpr
          (h.unlisted hunreadable fingerprint hopen hfamily)
  | bridge =>
    rcases hdecides with rfl | hfamily
    · exact fleet_raised (.inl hunreadable)
    · rcases List.mem_cons.mp hfamily with hfamily | hfamily
      · exact (raised_deliveries hfamily).mpr
          (h.deliveries (.inl hunreadable) fingerprint hopen hfamily)
      · have hfamily := List.mem_singleton.mp hfamily
        exact (raised_shards hfamily).mpr
          (h.shards (.inl hunreadable) fingerprint hopen hfamily)
  | registry =>
    rcases hdecides with rfl | hfamily
    · exact fleet_raised (.inr (.inl hunreadable))
    · rcases List.mem_cons.mp hfamily with hfamily | hfamily
      · exact (raised_unregistered hunreadable hfamily).mpr
          (h.unregistered hunreadable fingerprint hopen hfamily)
      · have hnone := h.unenrolled hunreadable fingerprint hopen
        rcases List.mem_cons.mp hfamily with hfamily | hfamily
        · exact absurd hfamily hnone.1
        · exact absurd (List.mem_singleton.mp hfamily) hnone.2
  | relationalShards =>
    exact (raised_shards hdecides).mpr
      (h.shards (.inr (.inl hunreadable)) fingerprint hopen hdecides)
  | relationalDeliveries =>
    rcases hdecides with rfl | hfamily
    · exact fleet_raised (.inr (.inr hunreadable))
    · rcases List.mem_cons.mp hfamily with hfamily | hfamily
      · exact (raised_deliveries hfamily).mpr
          (h.deliveries (.inr hunreadable) fingerprint hopen hfamily)
      · have hfamily := List.mem_singleton.mp hfamily
        exact (raised_shards hfamily).mpr
          (h.shards (.inr (.inr hunreadable)) fingerprint hopen hfamily)

/-- No alert that an unreadable source decides is closed exactly where what was read still raises
every open one. -/
theorem keepsOpen_iff (now : Int) (clock : Clock) (sources : Sources) (table : Table) :
    KeepsOpen now clock sources table ↔ SeenThrough clock sources table := by
  rw [keepsOpen_iff_raised]
  exact ⟨.of_raised, fun h _ hopen ⟨_, hunreadable, hdecides⟩ =>
    h.raised hopen hunreadable hdecides⟩

/-! ## A registry that could not be read -/

/-- An open alert of a delivery that failed. -/
def failedRow : Row where
  alert :=
    { fingerprint := "delivery:alpha:failed"
      severity := .critical
      component := "alpha"
      scope := "delivery"
      code := "delivery_failed"
      title := "alpha Google Ads delivery failed"
      message := "Fleet delivery is failed."
      remediation := "Inspect the shard script logs." }
  status := .active
  occurrenceCount := 1
  firstSeenAt := 0
  lastSeenAt := 0
  openedAt := some 0

/-- Everything but the registry can be read, and reports the delivery as failed. -/
def unregisteredSources : Sources where
  capacity := .ok (.object [])
  bridge := .ok (.object [])
  registry := .error "connection refused"
  relationalShards := .ok []
  relationalDeliveries := .ok [.object [("campaignRecordId", .string "alpha"),
    ("status", .string "failed")]]

/-- An unreadable registry closes the alert of a failed delivery. -/
theorem unreadable_registry_closes :
    ¬KeepsOpen 1 (plainClock 1) unregisteredSources
      (Function.update empty "delivery:alpha:failed" (some failedRow)) := by
  intro h
  have hunreadable : unregisteredSources.Unreadable .registry := rfl
  have hopen : Open (Function.update empty "delivery:alpha:failed" (some failedRow))
      "delivery:alpha:failed" := ⟨failedRow, Function.update_self .., by decide⟩
  have hraised := open_persistEvaluation.mp
    (h "delivery:alpha:failed" hopen ⟨.registry, hunreadable, .inr (by decide)⟩)
  exact (unenrolled_not_raised hunreadable hraised).1 (by decide)

end LinkSuffix.Health
