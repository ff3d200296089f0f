import LinkSuffix.Health.Evaluation

/-!
# Families of alerts

The fingerprints of each family of `evaluateHealth`, and that no two families share one.

* `Family`, `family`: the family a fingerprint belongs to, by the text before its first colon.
* `systemCandidates_family`, `capacityCandidates_family`, `campaignCandidates_family`,
  `deliveryCandidates_family`, `shardCandidates_family`: where each family comes from.
-/

namespace LinkSuffix.Health

/-! ## Fingerprints -/

/-- The text before the first colon. -/
def family (fingerprint : String) : List Char := fingerprint.toList.takeWhile (· ≠ ':')

theorem family_append {first : String} {name : List Char} (hfirst : first.toList = name ++ [':'])
    (h : ':' ∉ name) (text : String) : family (first ++ text) = name := by
  have hkept : ∀ c ∈ name, decide (c ≠ ':') = true := fun c hc =>
    decide_eq_true fun heq => h (heq ▸ hc)
  unfold family
  rw [String.toList_append, hfirst, List.append_assoc, List.takeWhile_append_of_pos hkept]
  simp

def campaignKinds : List String := [":unexpected-stop", ":capture-stale", ":run-failed"]

def campaignFingerprint (id kind : String) : String := "campaign:" ++ id ++ kind

section Alerts

variable {dateParse : String → JsNumber} {now : Rat} {candidate : Candidate}

theorem campaignAlerts_fingerprint {id : String} {row : JsValue}
    (h : candidate ∈ campaignAlerts dateParse now id row) :
    ∃ kind ∈ campaignKinds, candidate.fingerprint = campaignFingerprint id kind := by
  unfold campaignAlerts at h
  extract_lets at h
  rcases List.mem_append.mp h with h | h
  · rcases List.mem_append.mp h with h | h
    · rw [List.mem_singleton.mp (List.mem_ite_nil_right.mp h).2]
      exact ⟨":unexpected-stop", by decide, rfl⟩
    · rw [List.mem_singleton.mp (List.mem_ite_nil_right.mp h).2]
      exact ⟨":capture-stale", by decide, rfl⟩
  · rw [List.mem_singleton.mp (List.mem_ite_nil_right.mp h).2]
    exact ⟨":run-failed", by decide, rfl⟩

theorem deliveryAlerts_fingerprint {items : List JsValue} {campaign : JsValue}
    (h : candidate ∈ deliveryAlerts dateParse now items campaign) :
    ∃ kind, candidate.fingerprint = "delivery:" ++ campaignId campaign ++ kind := by
  unfold deliveryAlerts at h
  extract_lets at h
  have hkind {p : Prop} [Decidable p] {alert : Candidate} {kind : String}
      (halert : alert.fingerprint = "delivery:" ++ campaignId campaign ++ kind)
      (h : candidate ∈ if p then [alert] else []) :
      ∃ kind, candidate.fingerprint = "delivery:" ++ campaignId campaign ++ kind := by
    rw [List.mem_singleton.mp (List.mem_ite_nil_right.mp h).2]
    exact ⟨kind, halert⟩
  rcases List.mem_append.mp h with h | h
  · rcases List.mem_append.mp h with h | h
    · rcases List.mem_append.mp h with h | h
      · rcases List.mem_append.mp h with h | h
        · exact hkind rfl h
        · exact hkind rfl h
      · exact hkind rfl h
    · exact hkind rfl h
  · exact hkind rfl h

theorem shardAlerts_fingerprint {limits : Limits} {shards : List JsValue} {shardId : String}
    {campaignCount : Nat}
    (h : candidate ∈ shardAlerts dateParse limits now shards shardId campaignCount) :
    ∃ kind, candidate.fingerprint = "shard:" ++ shardId ++ kind := by
  unfold shardAlerts at h
  extract_lets at h
  split at h
  · rw [List.mem_singleton.mp h]
    exact ⟨_, rfl⟩
  split at h
  · rw [List.mem_singleton.mp h]
    exact ⟨_, rfl⟩
  split at h
  · rw [List.mem_singleton.mp h]
    exact ⟨_, rfl⟩
  split at h
  · rw [List.mem_singleton.mp h]
    exact ⟨_, rfl⟩
  · cases h

end Alerts

/-! ## Where each family comes from -/

section Families

variable {clock : Clock} {sources : Sources} {candidate : Candidate}

theorem systemCandidates_family (h : candidate ∈ systemCandidates sources) :
    family candidate.fingerprint = "system".toList := by
  simp only [systemCandidates, dependencyCandidates, List.mem_append, List.mem_ite_nil_right,
    List.mem_singleton] at h
  rcases h with (h | ⟨-, rfl⟩) | (⟨-, rfl⟩ | ⟨-, rfl⟩) | ⟨-, rfl⟩
  · cases hcapacity : sources.capacity with
    | error message =>
      rw [hcapacity] at h
      rw [List.mem_singleton.mp h]
      exact (by decide : family "system:control-unreachable" = "system".toList)
    | ok capacity =>
      rw [hcapacity] at h
      cases h
  all_goals decide

theorem candidateIf_eq {value : Option Rat} {passes : Rat → Bool} {make : Rat → Candidate}
    (h : candidate ∈ candidateIf value passes make) : ∃ value, candidate = make value := by
  unfold candidateIf at h
  obtain ⟨value, -, hmake⟩ := Option.map_eq_some_iff.mp (Option.mem_toList.mp h)
  exact ⟨value, hmake.symm⟩

theorem capacityCandidates_family {capacity : JsValue}
    (h : candidate ∈ capacityCandidates capacity) :
    family candidate.fingerprint = "capacity".toList := by
  unfold capacityCandidates at h
  simp only [List.mem_append] at h
  rcases h with ((h | h) | h) | h
  · obtain ⟨value, rfl⟩ := candidateIf_eq h
    exact (by decide : family "capacity:cpu-sustained" = "capacity".toList)
  · obtain ⟨value, rfl⟩ := candidateIf_eq h
    exact (by decide : family "capacity:memory-sustained" = "capacity".toList)
  · obtain ⟨value, rfl⟩ := candidateIf_eq h
    exact (by decide : family "capacity:disk-low" = "capacity".toList)
  · split at h
    · rw [List.mem_singleton.mp (List.mem_ite_nil_right.mp h).2]
      exact (by decide : family "capacity:browser-pool-saturated" = "capacity".toList)
    · cases h

theorem campaignCandidates_family {capacity : JsValue} {registry : List JsValue}
    (h : candidate ∈ campaignCandidates clock.dateParse clock.now capacity registry) :
    family candidate.fingerprint = "campaign".toList := by
  obtain ⟨row, -, hrow⟩ := List.mem_flatMap.mp h
  unfold rowCandidates at hrow
  dsimp only at hrow
  split at hrow
  · cases hrow
  · obtain ⟨kind, -, hkind⟩ := campaignAlerts_fingerprint hrow
    rw [hkind]
    unfold campaignFingerprint
    rw [String.append_assoc]
    exact family_append rfl (by decide) _

theorem deliveryCandidates_family {registry items : List JsValue}
    (h : candidate ∈ deliveryCandidates clock.dateParse clock.now registry items) :
    family candidate.fingerprint = "delivery".toList := by
  obtain ⟨campaign, -, hcampaign⟩ := List.mem_flatMap.mp h
  obtain ⟨kind, hkind⟩ := deliveryAlerts_fingerprint hcampaign
  rw [hkind, String.append_assoc]
  exact family_append rfl (by decide) _

theorem shardCandidates_family {shards campaigns : List JsValue}
    (h : candidate ∈ shardCandidates clock.dateParse clock.limits clock.now shards campaigns) :
    family candidate.fingerprint = "shard".toList := by
  obtain ⟨entry, -, hentry⟩ := List.mem_flatMap.mp h
  obtain ⟨kind, hkind⟩ := shardAlerts_fingerprint hentry
  rw [hkind, String.append_assoc]
  exact family_append rfl (by decide) _

/-- The fingerprints of another family. -/
theorem not_mem_of_family {candidates : List Candidate} {name : List Char} {fingerprint : String}
    (h : ∀ candidate ∈ candidates, family candidate.fingerprint = name)
    (hname : family fingerprint ≠ name) : fingerprint ∉ candidates.map (·.fingerprint) := by
  intro hmem
  obtain ⟨candidate, hcandidate, rfl⟩ := List.mem_map.mp hmem
  exact hname (h candidate hcandidate)

theorem raised_iff (fingerprint : String) :
    fingerprint ∈ (evaluation clock sources).fingerprints ↔
      (((fingerprint ∈ (systemCandidates sources).map (·.fingerprint) ∨
        fingerprint ∈ (capacityCandidates sources.capacityValue).map (·.fingerprint)) ∨
      fingerprint ∈ (campaignCandidates clock.dateParse clock.now sources.capacityValue
        sources.registryRows).map (·.fingerprint)) ∨
      fingerprint ∈ (deliveryCandidates clock.dateParse clock.now sources.registryRows
        (deliveryItems sources.bridgeValue sources.deliveryRows)).map (·.fingerprint)) ∨
      fingerprint ∈ (shardCandidates clock.dateParse clock.limits clock.now
        (mergedShards sources.bridgeValue sources.shardRows) (enrolledCampaigns sources.registryRows
          (deliveryItems sources.bridgeValue sources.deliveryRows))).map (·.fingerprint) := by
  rw [mem_evaluation]
  unfold emitted
  dsimp only
  rw [List.map_append, List.map_append, List.map_append, List.map_append, List.mem_append,
    List.mem_append, List.mem_append, List.mem_append]

theorem raised_system {fingerprint : String} (h : family fingerprint = "system".toList) :
    fingerprint ∈ (evaluation clock sources).fingerprints ↔
      fingerprint ∈ (systemCandidates sources).map (·.fingerprint) := by
  rw [raised_iff,
    or_iff_left (not_mem_of_family (fun _ => shardCandidates_family) (by rw [h]; decide)),
    or_iff_left (not_mem_of_family (fun _ => deliveryCandidates_family) (by rw [h]; decide)),
    or_iff_left (not_mem_of_family (fun _ => campaignCandidates_family) (by rw [h]; decide)),
    or_iff_left (not_mem_of_family (fun _ => capacityCandidates_family) (by rw [h]; decide))]

theorem raised_capacity {fingerprint : String} (h : family fingerprint = "capacity".toList) :
    fingerprint ∈ (evaluation clock sources).fingerprints ↔
      fingerprint ∈ (capacityCandidates sources.capacityValue).map (·.fingerprint) := by
  rw [raised_iff,
    or_iff_left (not_mem_of_family (fun _ => shardCandidates_family) (by rw [h]; decide)),
    or_iff_left (not_mem_of_family (fun _ => deliveryCandidates_family) (by rw [h]; decide)),
    or_iff_left (not_mem_of_family (fun _ => campaignCandidates_family) (by rw [h]; decide)),
    or_iff_right (not_mem_of_family (fun _ => systemCandidates_family) (by rw [h]; decide))]

theorem raised_campaign {fingerprint : String} (h : family fingerprint = "campaign".toList) :
    fingerprint ∈ (evaluation clock sources).fingerprints ↔
      fingerprint ∈ (campaignCandidates clock.dateParse clock.now sources.capacityValue
        sources.registryRows).map (·.fingerprint) := by
  rw [raised_iff,
    or_iff_left (not_mem_of_family (fun _ => shardCandidates_family) (by rw [h]; decide)),
    or_iff_left (not_mem_of_family (fun _ => deliveryCandidates_family) (by rw [h]; decide)),
    or_iff_right (not_or_intro
      (not_mem_of_family (fun _ => systemCandidates_family) (by rw [h]; decide))
      (not_mem_of_family (fun _ => capacityCandidates_family) (by rw [h]; decide)))]

theorem raised_delivery {fingerprint : String} (h : family fingerprint = "delivery".toList) :
    fingerprint ∈ (evaluation clock sources).fingerprints ↔
      fingerprint ∈ (deliveryCandidates clock.dateParse clock.now sources.registryRows
        (deliveryItems sources.bridgeValue sources.deliveryRows)).map (·.fingerprint) := by
  rw [raised_iff,
    or_iff_left (not_mem_of_family (fun _ => shardCandidates_family) (by rw [h]; decide)),
    or_iff_right (not_or_intro (not_or_intro
      (not_mem_of_family (fun _ => systemCandidates_family) (by rw [h]; decide))
      (not_mem_of_family (fun _ => capacityCandidates_family) (by rw [h]; decide)))
      (not_mem_of_family (fun _ => campaignCandidates_family) (by rw [h]; decide)))]

theorem raised_shard {fingerprint : String} (h : family fingerprint = "shard".toList) :
    fingerprint ∈ (evaluation clock sources).fingerprints ↔
      fingerprint ∈ (shardCandidates clock.dateParse clock.limits clock.now
        (mergedShards sources.bridgeValue sources.shardRows) (enrolledCampaigns sources.registryRows
          (deliveryItems sources.bridgeValue sources.deliveryRows))).map (·.fingerprint) := by
  rw [raised_iff, or_iff_right (not_or_intro (not_or_intro (not_or_intro
      (not_mem_of_family (fun _ => systemCandidates_family) (by rw [h]; decide))
      (not_mem_of_family (fun _ => capacityCandidates_family) (by rw [h]; decide)))
      (not_mem_of_family (fun _ => campaignCandidates_family) (by rw [h]; decide)))
      (not_mem_of_family (fun _ => deliveryCandidates_family) (by rw [h]; decide)))]

end Families

end LinkSuffix.Health
