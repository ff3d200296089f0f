import LinkSuffix.Health.Families

/-!
# Campaign alerts and other campaigns

The campaigns that are evaluated are the live ones of the capacity snapshot, or the registry where
the snapshot lists none.

* `ofCampaign`: the alerts of a campaign. `AgreeOn`: two snapshots agree on it.
* `Unaffected`: the other campaigns do not decide whether it is evaluated, or it is quiet.
* `stopped_reported_iff`: a campaign that stopped is reported only while no other one runs.
* **`campaign_alerts_independent_iff`**, **`stopped_campaign_unreported`**.
-/

namespace LinkSuffix.Health

/-! ## The alerts of a campaign -/

/-- The candidates `campaign:${id}:*`. -/
def ofCampaign (id : String) (candidates : List Candidate) : List Candidate :=
  candidates.filter fun candidate =>
    candidate.fingerprint ∈ campaignKinds.map (campaignFingerprint id)

/-- The rows a snapshot lists. -/
def liveRows (capacity : JsValue) : List JsValue :=
  records (findValue (record capacity) ["campaigns", "campaignRows"])

/-- The rows of a campaign. -/
def rowsOf (id : String) (rows : List JsValue) : List JsValue :=
  rows.filter fun row => campaignId row = id

/-- Two snapshots list the campaign with the same rows, or neither lists it. -/
def AgreeOn (id : String) (capacity capacity' : JsValue) : Prop :=
  rowsOf id (liveRows capacity) = rowsOf id (liveRows capacity')

/-- Both snapshots give the campaign the same alerts. -/
def SameAlerts (clock : Clock) (sources : Sources) (id : String) (capacity capacity' : JsValue) :
    Prop :=
  ∀ candidate, candidate ∈ ofCampaign id (evaluateHealth clock (sources.withCapacity capacity)) ↔
    candidate ∈ ofCampaign id (evaluateHealth clock (sources.withCapacity capacity'))

/-- The registry row of a campaign, as it is evaluated. -/
def registryRow (sources : Sources) (id : String) (row : JsValue) : JsValue :=
  merge ((lastRow campaignId sources.registryRows id).getD (.object [])) row

/-- A campaign row without an alert: it is not to run, is about to, or has just captured. -/
def QuietRow (clock : Clock) (row : JsValue) : Prop :=
  let status := jsLower (textValue row ["status", "runStatus"])
  let lastCapturedAt := (row.get "lastCapturedAt").orElse (row.get "last_capture_at")
  (booleanValue row ["desiredRunning", "shouldRun"]).getD false = false ∨
    status ∈ ["queued", "starting", "scheduled", "retrying"] ∨
    (status = "running" ∧ exceeds (ageMs clock.dateParse clock.now lastCapturedAt) 180000 = false)

/-- Both snapshots list some campaign, or neither does; or the registry has no alert for it. The
empty id is of no campaign. -/
def Unaffected (clock : Clock) (sources : Sources) (id : String) (capacity capacity' : JsValue) :
    Prop :=
  (liveRows capacity = [] ↔ liveRows capacity' = []) ∨ id = "" ∨
    ∀ row ∈ rowsOf id sources.registryRows, QuietRow clock (registryRow sources id row)

/-- A campaign that should run and does not. -/
def StoppedRow (row : JsValue) : Prop :=
  booleanValue row ["desiredRunning", "shouldRun"] = some true ∧
    jsLower (textValue row ["status", "runStatus"]) ∉
      ["running", "queued", "starting", "scheduled", "retrying"]

/-- The campaign is reported as stopped. -/
def Reported (clock : Clock) (sources : Sources) (id : String) : Prop :=
  ∃ candidate ∈ evaluateHealth clock sources,
    candidate.fingerprint = campaignFingerprint id ":unexpected-stop"

/-! ## The rows that matter -/

variable {clock : Clock} {sources : Sources} {id : String} {capacity capacity' : JsValue}

theorem campaignFingerprint_injective {id id' kind kind' : String} (hkind : kind ∈ campaignKinds)
    (hkind' : kind' ∈ campaignKinds)
    (h : campaignFingerprint id kind = campaignFingerprint id' kind') : id = id' := by
  have htext : id.toList ++ kind.toList = id'.toList ++ kind'.toList := by
    have hlist := congrArg String.toList h
    unfold campaignFingerprint at hlist
    simp only [String.toList_append, List.append_assoc] at hlist
    exact List.append_cancel_left hlist
  have hlast : kind.toList.getLast? = kind'.toList.getLast? := by
    have hends := congrArg List.getLast? htext
    have hsome (kind : String) (hkind : kind ∈ campaignKinds) : kind.toList ≠ [] := by
      revert kind
      decide
    rwa [List.getLast?_append_of_ne_nil _ (hsome kind hkind),
      List.getLast?_append_of_ne_nil _ (hsome kind' hkind')] at hends
  have hsame : kind = kind' := by
    have hkinds : ∀ kind ∈ campaignKinds, ∀ kind' ∈ campaignKinds,
        kind.toList.getLast? = kind'.toList.getLast? → kind = kind' := by decide
    exact hkinds kind hkind kind' hkind' hlast
  rw [hsame] at htext
  exact String.toList_injective (List.append_cancel_right htext)

theorem ofCampaign_append (id : String) (candidates more : List Candidate) :
    ofCampaign id (candidates ++ more) = ofCampaign id candidates ++ ofCampaign id more :=
  List.filter_append _ _

/-- A candidate of another family is none of the campaign's. -/
theorem ofCampaign_family {candidates : List Candidate} {name : List Char}
    (h : ∀ candidate ∈ candidates, family candidate.fingerprint = name)
    (hname : name ≠ "campaign".toList) (id : String) : ofCampaign id candidates = [] := by
  refine List.filter_eq_nil_iff.mpr fun candidate hcandidate hmem => hname ?_
  obtain ⟨kind, -, hkind⟩ := List.mem_map.mp (of_decide_eq_true hmem)
  rw [← h candidate hcandidate, ← hkind]
  unfold campaignFingerprint
  rw [String.append_assoc]
  exact family_append rfl (by decide) _

theorem ofCampaign_row (registry : List JsValue) (row : JsValue) :
    ofCampaign id (rowCandidates clock.dateParse clock.now registry row) =
      if campaignId row = id then rowCandidates clock.dateParse clock.now registry row else [] := by
  by_cases hrow : campaignId row = ""
  · unfold rowCandidates
    dsimp only
    rw [if_pos hrow, ite_self]
    rfl
  have hall : ∀ candidate ∈ rowCandidates clock.dateParse clock.now registry row,
      ∃ kind ∈ campaignKinds, candidate.fingerprint = campaignFingerprint (campaignId row) kind := by
    intro candidate hcandidate
    unfold rowCandidates at hcandidate
    dsimp only at hcandidate
    rw [if_neg hrow] at hcandidate
    exact campaignAlerts_fingerprint hcandidate
  by_cases heq : campaignId row = id
  · rw [if_pos heq]
    refine List.filter_eq_self.mpr fun candidate hcandidate => ?_
    obtain ⟨kind, hkind, hfingerprint⟩ := hall candidate hcandidate
    rw [hfingerprint, heq]
    exact decide_eq_true (List.mem_map_of_mem hkind)
  · rw [if_neg heq]
    refine List.filter_eq_nil_iff.mpr fun candidate hcandidate hmem => heq ?_
    obtain ⟨kind, hkind, hfingerprint⟩ := hall candidate hcandidate
    obtain ⟨kind', hkind', hsame⟩ := List.mem_map.mp (of_decide_eq_true hmem)
    exact campaignFingerprint_injective hkind hkind' (hfingerprint.symm.trans hsame.symm)

theorem ofCampaign_rows (registry rows : List JsValue) :
    ofCampaign id (rows.flatMap (rowCandidates clock.dateParse clock.now registry)) =
      (rowsOf id rows).flatMap (rowCandidates clock.dateParse clock.now registry) := by
  induction rows with
  | nil => rfl
  | cons row rows ih =>
    rw [List.flatMap_cons, ofCampaign_append, ih, ofCampaign_row]
    unfold rowsOf
    rw [List.filter_cons]
    by_cases hrow : campaignId row = id
    · rw [if_pos hrow, if_pos (decide_eq_true hrow), List.flatMap_cons]
    · rw [if_neg hrow, if_neg (by simpa using hrow), List.nil_append]

/-- The campaign's alerts come from its own rows, of the list that is evaluated. -/
theorem ofCampaign_evaluateHealth :
    ofCampaign id (evaluateHealth clock sources) =
      ((rowsOf id (campaignRows sources.capacityValue sources.registryRows)).flatMap
        (rowCandidates clock.dateParse clock.now sources.registryRows)).foldl addCandidate [] := by
  unfold evaluateHealth
  have hfilter := filter_foldl_addCandidate
    (fun fingerprint => fingerprint ∈ campaignKinds.map (campaignFingerprint id))
    (emitted clock sources) []
  refine hfilter.trans ?_
  have hemitted : ofCampaign id (emitted clock sources) =
      (rowsOf id (campaignRows sources.capacityValue sources.registryRows)).flatMap
        (rowCandidates clock.dateParse clock.now sources.registryRows) := by
    unfold emitted
    rw [ofCampaign_append, ofCampaign_append, ofCampaign_append, ofCampaign_append,
      ofCampaign_family (fun _ => systemCandidates_family) (by decide),
      ofCampaign_family (fun _ => capacityCandidates_family) (by decide),
      ofCampaign_family (fun _ => deliveryCandidates_family) (by decide),
      ofCampaign_family (fun _ => shardCandidates_family) (by decide)]
    rw [List.nil_append, List.append_nil, List.append_nil]
    exact ofCampaign_rows _ _
  rw [← hemitted]
  rfl

/-! ## The registry's alerts -/

theorem campaignRows_withCapacity :
    campaignRows (sources.withCapacity capacity).capacityValue sources.registryRows =
      if liveRows capacity = [] then sources.registryRows else liveRows capacity := by
  have hlive : records (findValue (sources.withCapacity capacity).capacityValue
      ["campaigns", "campaignRows"]) = liveRows capacity := rfl
  unfold campaignRows
  dsimp only
  rw [hlive]
  simp only [List.isEmpty_iff]

theorem quiet_iff (desiredRunning stale : Bool) (status : String) :
    ((¬(desiredRunning ∧ status ∉ ["running", "queued", "starting", "scheduled", "retrying"]) ∧
        ¬(desiredRunning ∧ status = "running" ∧ stale)) ∧
      ¬(desiredRunning ∧ status ∈ ["error", "failed", "fatal"])) ↔
    desiredRunning = false ∨ status ∈ ["queued", "starting", "scheduled", "retrying"] ∨
      (status = "running" ∧ stale = false) := by
  have hfailed : status ∈ ["error", "failed", "fatal"] →
      status ∉ ["running", "queued", "starting", "scheduled", "retrying"] := by
    revert status
    simp
  rw [List.mem_cons] at hfailed ⊢
  cases desiredRunning with
  | false => simp
  | true =>
    cases stale with
    | false => grind
    | true => grind

/-- A row has no alert exactly where it is quiet. -/
theorem campaignAlerts_eq_nil (id : String) (row : JsValue) :
    campaignAlerts clock.dateParse clock.now id row = [] ↔ QuietRow clock row := by
  have hnil {p : Prop} [Decidable p] {alert : Candidate} : (if p then [alert] else []) = [] ↔ ¬p := by
    split <;> simp [*]
  unfold campaignAlerts QuietRow
  dsimp only
  rw [List.append_eq_nil_iff, List.append_eq_nil_iff, hnil, hnil, hnil]
  exact quiet_iff _ _ _

theorem foldl_addCandidate_eq_nil {candidates : List Candidate} :
    candidates.foldl addCandidate [] = [] ↔ candidates = [] := by
  have hmem (fingerprint : String) := @mem_foldl_addCandidate [] candidates fingerprint
  constructor
  · intro h
    rw [h] at hmem
    refine List.eq_nil_iff_forall_not_mem.mpr fun candidate hcandidate => ?_
    simpa using (hmem candidate.fingerprint).mpr (.inr (List.mem_map_of_mem hcandidate))
  · rintro rfl
    rfl

/-! ## Two snapshots -/

/-- The alerts of some rows of the campaign, in the place of all of them. -/
def alertsOf (clock : Clock) (sources : Sources) (id : String) (rows : List JsValue) :
    List Candidate :=
  (rowsOf id rows).flatMap (rowCandidates clock.dateParse clock.now sources.registryRows)

theorem alertsOf_registry (hid : id ≠ "") :
    alertsOf clock sources id sources.registryRows = [] ↔
      ∀ row ∈ rowsOf id sources.registryRows, QuietRow clock (registryRow sources id row) := by
  have hrow : ∀ row ∈ rowsOf id sources.registryRows,
      rowCandidates clock.dateParse clock.now sources.registryRows row =
        campaignAlerts clock.dateParse clock.now id (registryRow sources id row) := by
    intro row hrow
    have hof : campaignId row = id := of_decide_eq_true (List.mem_filter.mp hrow).2
    unfold rowCandidates registryRow
    dsimp only
    rw [hof, if_neg hid]
  unfold alertsOf
  rw [List.flatMap_eq_nil_iff]
  refine forall₂_congr fun row hmem => ?_
  rw [hrow row hmem]
  exact campaignAlerts_eq_nil id _

theorem alertsOf_empty (rows : List JsValue) : alertsOf clock sources "" rows = [] := by
  refine List.flatMap_eq_nil_iff.mpr fun row hrow => ?_
  have hof : campaignId row = "" := of_decide_eq_true (List.mem_filter.mp hrow).2
  unfold rowCandidates
  exact if_pos hof

theorem ofCampaign_withCapacity :
    ofCampaign id (evaluateHealth clock (sources.withCapacity capacity)) =
      (if liveRows capacity = [] then alertsOf clock sources id sources.registryRows
        else alertsOf clock sources id (liveRows capacity)).foldl addCandidate [] := by
  have hrows : rowsOf id (campaignRows (sources.withCapacity capacity).capacityValue
      sources.registryRows) =
        if liveRows capacity = [] then rowsOf id sources.registryRows
        else rowsOf id (liveRows capacity) := by
    rw [campaignRows_withCapacity, apply_ite (rowsOf id)]
  refine ofCampaign_evaluateHealth.trans ?_
  unfold alertsOf
  rw [← apply_ite (fun rows : List JsValue => rows.flatMap
    (rowCandidates clock.dateParse clock.now sources.registryRows)), ← hrows]
  rfl

/-- One snapshot lists no campaign and the other lists others: the alerts are those of the
registry, or none. -/
theorem sameAlerts_of_unlisted (hunlisted : rowsOf id (liveRows capacity') = [])
    (hlive : liveRows capacity = []) (hlive' : liveRows capacity' ≠ []) :
    SameAlerts clock sources id capacity capacity' ↔
      alertsOf clock sources id sources.registryRows = [] := by
  have hnone : alertsOf clock sources id (liveRows capacity') = [] := by
    unfold alertsOf
    rw [hunlisted]
    rfl
  unfold SameAlerts
  rw [ofCampaign_withCapacity, ofCampaign_withCapacity, if_pos hlive, if_neg hlive', hnone,
    ← foldl_addCandidate_eq_nil, List.eq_nil_iff_forall_not_mem]
  exact forall_congr' fun candidate => ⟨fun h hmem => List.not_mem_nil (h.mp hmem),
    fun h => ⟨fun hmem => (h hmem).elim, fun hmem => absurd hmem List.not_mem_nil⟩⟩

theorem sameAlerts_symm :
    SameAlerts clock sources id capacity capacity' ↔ SameAlerts clock sources id capacity' capacity :=
  forall_congr' fun _ => Iff.comm

theorem alertsOf_registry_iff :
    alertsOf clock sources id sources.registryRows = [] ↔
      id = "" ∨ ∀ row ∈ rowsOf id sources.registryRows, QuietRow clock (registryRow sources id row) := by
  by_cases hid : id = ""
  · subst hid
    exact iff_of_true (alertsOf_empty _) (.inl rfl)
  · rw [alertsOf_registry hid]
    exact (or_iff_right hid).symm

/-- A reported campaign has an alert of its own. -/
theorem reported_iff :
    Reported clock (sources.withCapacity capacity) id ↔
      campaignFingerprint id ":unexpected-stop" ∈
        (ofCampaign id (evaluateHealth clock (sources.withCapacity capacity))).map
          (·.fingerprint) := by
  rw [List.mem_map]
  refine exists_congr fun candidate => ?_
  have hof (heq : candidate.fingerprint = campaignFingerprint id ":unexpected-stop") :
      candidate.fingerprint ∈ campaignKinds.map (campaignFingerprint id) :=
    heq ▸ List.mem_map_of_mem (by decide)
  exact ⟨fun ⟨hmem, heq⟩ => ⟨List.mem_filter.mpr ⟨hmem, decide_eq_true (hof heq)⟩, heq⟩,
    fun ⟨hmem, heq⟩ => ⟨(List.mem_filter.mp hmem).1, heq⟩⟩

theorem campaignAlerts_stopped {row : JsValue} (h : StoppedRow row) :
    campaignFingerprint id ":unexpected-stop" ∈
      (campaignAlerts clock.dateParse clock.now id row).map (·.fingerprint) := by
  obtain ⟨hdesired, hstatus⟩ := h
  unfold campaignAlerts
  dsimp only
  rw [hdesired, if_pos ⟨rfl, hstatus⟩, List.map_append, List.map_append]
  exact List.mem_append_left _ (List.mem_append_left _ (List.mem_singleton.mpr rfl))

/-- A campaign that stopped, which the snapshot does not list, is reported exactly where the
snapshot lists no other. -/
theorem stopped_reported_iff (hid : id ≠ "") (hunlisted : rowsOf id (liveRows capacity) = [])
    (hknown : rowsOf id sources.registryRows ≠ [])
    (hstopped : ∀ row ∈ rowsOf id sources.registryRows, StoppedRow (registryRow sources id row)) :
    Reported clock (sources.withCapacity capacity) id ↔ liveRows capacity = [] := by
  rw [reported_iff, ofCampaign_withCapacity, mem_foldl_addCandidate]
  by_cases hlive : liveRows capacity = []
  · obtain ⟨row, hrow⟩ := List.exists_mem_of_ne_nil _ hknown
    have hof : campaignId row = id := of_decide_eq_true (List.mem_filter.mp hrow).2
    refine iff_of_true (.inr ?_) hlive
    obtain ⟨candidate, hcandidate, heq⟩ := List.mem_map.mp
      (@campaignAlerts_stopped clock id _ (hstopped row hrow))
    rw [if_pos hlive]
    refine List.mem_map.mpr ⟨candidate, List.mem_flatMap.mpr ⟨row, hrow, ?_⟩, heq⟩
    unfold rowCandidates
    dsimp only
    rw [hof, if_neg hid]
    exact hcandidate
  · refine iff_of_false ?_ hlive
    rw [if_neg hlive]
    unfold alertsOf
    rw [hunlisted]
    rintro (h | h) <;> cases h

/-- The alerts of a campaign on which two snapshots agree are the same exactly where both snapshots
list some campaign, or neither does, or the registry has no alert for it. -/
theorem campaign_alerts_independent_iff (hagree : AgreeOn id capacity capacity') :
    SameAlerts clock sources id capacity capacity' ↔
      Unaffected clock sources id capacity capacity' := by
  unfold Unaffected
  rw [← alertsOf_registry_iff]
  by_cases hlive : liveRows capacity = []
  · by_cases hlive' : liveRows capacity' = []
    · refine iff_of_true (fun candidate => ?_) (.inl (iff_of_true hlive hlive'))
      rw [ofCampaign_withCapacity, ofCampaign_withCapacity, if_pos hlive, if_pos hlive']
    · have hunlisted : rowsOf id (liveRows capacity') = [] := by
        rw [← hagree, hlive]
        rfl
      rw [sameAlerts_of_unlisted hunlisted hlive hlive']
      exact (or_iff_right fun h => hlive' (h.mp hlive)).symm
  · by_cases hlive' : liveRows capacity' = []
    · have hunlisted : rowsOf id (liveRows capacity) = [] := by
        rw [hagree, hlive']
        rfl
      rw [sameAlerts_symm, sameAlerts_of_unlisted hunlisted hlive' hlive]
      exact (or_iff_right fun h => hlive (h.mpr hlive')).symm
    · refine iff_of_true (fun candidate => ?_) (.inl (iff_of_false hlive hlive'))
      rw [ofCampaign_withCapacity, ofCampaign_withCapacity, if_neg hlive, if_neg hlive']
      unfold alertsOf
      rw [hagree]

/-! ## A campaign that failed while another one runs -/

/-- The registry's record of a campaign. -/
def registryRecord (id status : String) : JsValue :=
  .object [("id", .string id), ("desiredRunning", .bool true), ("status", .string status)]

/-- A snapshot that lists the campaigns that run. -/
def runningSnapshot (ids : List String) : JsValue :=
  .object [("campaigns", .array (ids.map fun id =>
    .object [("campaignRecordId", .string id), ("status", .string "running")]))]

/-- Every source but the snapshot, of which only the registry holds anything. -/
def registrySources (registry : List JsValue) : Sources where
  capacity := .ok (.object [])
  bridge := .ok (.object [])
  registry := .ok registry
  relationalShards := .ok []
  relationalDeliveries := .ok []

/-- A time, without dates as texts. -/
def plainClock (now : Rat) : Clock where
  dateParse := fun _ => .nan
  limits := {}
  now := now

theorem liveRows_running (ids : List String) :
    liveRows (runningSnapshot ids) = ids.map fun id =>
      .object [("campaignRecordId", .string id), ("status", .string "running")] := by
  have hrows : liveRows (runningSnapshot ids) = records (.array (ids.map fun id =>
      .object [("campaignRecordId", .string id), ("status", .string "running")])) := rfl
  rw [hrows]
  unfold records
  dsimp only
  rw [List.map_map]
  exact List.filter_eq_self.mpr fun row hrow => by
    obtain ⟨id, -, rfl⟩ := List.mem_map.mp hrow
    rfl

theorem runningSnapshot_agree : AgreeOn "alpha" (runningSnapshot []) (runningSnapshot ["beta"]) := by
  unfold AgreeOn
  rw [liveRows_running, liveRows_running]
  have hother : campaignId (.object [("campaignRecordId", .string "beta"),
      ("status", .string "running")]) = "beta" := by decide +kernel
  unfold rowsOf
  rw [List.map_cons, List.filter_cons_of_neg (by rw [hother]; decide)]

/-- A queued campaign has no alert, whatever else runs. -/
theorem campaign_alerts_independent_queued :
    SameAlerts (plainClock 0) (registrySources [registryRecord "alpha" "queued"]) "alpha"
      (runningSnapshot []) (runningSnapshot ["beta"]) := by
  refine (campaign_alerts_independent_iff runningSnapshot_agree).mpr (.inr (.inr fun row hrow => ?_))
  obtain rfl : row = registryRecord "alpha" "queued" :=
    List.mem_singleton.mp (List.mem_filter.mp hrow).1
  exact .inr (.inl (by decide +kernel))

/-- A registry with one campaign, which failed. -/
def failedSources : Sources := registrySources [registryRecord "alpha" "error"]

theorem failedSources_rows :
    rowsOf "alpha" failedSources.registryRows = [registryRecord "alpha" "error"] := by
  have hid : campaignId (registryRecord "alpha" "error") = "alpha" := by decide +kernel
  have hrows : failedSources.registryRows = [registryRecord "alpha" "error"] := rfl
  unfold rowsOf
  rw [hrows]
  exact List.filter_eq_self.mpr fun row hrow =>
    decide_eq_true (List.mem_singleton.mp hrow ▸ hid)

theorem failedSources_stopped :
    StoppedRow (registryRow failedSources "alpha" (registryRecord "alpha" "error")) := by
  unfold StoppedRow
  decide +kernel

/-- The failed campaign is reported exactly while no other one runs. -/
theorem failedSources_reported (ids : List String)
    (hunlisted : rowsOf "alpha" (liveRows (runningSnapshot ids)) = []) :
    Reported (plainClock 0) (failedSources.withCapacity (runningSnapshot ids)) "alpha" ↔ ids = [] := by
  have hiff := @stopped_reported_iff (plainClock 0) failedSources "alpha" (runningSnapshot ids)
    (by decide : "alpha" ≠ "") hunlisted (by rw [failedSources_rows]; exact List.cons_ne_nil _ _)
    (by rw [failedSources_rows]; exact fun row hrow => List.mem_singleton.mp hrow ▸ failedSources_stopped)
  rw [hiff, liveRows_running, List.map_eq_nil_iff]

theorem SameAlerts.reported (h : SameAlerts clock sources id capacity capacity') :
    Reported clock (sources.withCapacity capacity) id ↔
      Reported clock (sources.withCapacity capacity') id := by
  rw [reported_iff, reported_iff, List.mem_map, List.mem_map]
  exact exists_congr fun candidate => and_congr_left fun _ => h candidate

/-- A failed campaign is reported while nothing runs, and not once another campaign does. -/
theorem stopped_campaign_unreported :
    AgreeOn "alpha" (runningSnapshot []) (runningSnapshot ["beta"]) ∧
      Reported (plainClock 0) (failedSources.withCapacity (runningSnapshot [])) "alpha" ∧
      ¬Reported (plainClock 0) (failedSources.withCapacity (runningSnapshot ["beta"])) "alpha" ∧
      ¬SameAlerts (plainClock 0) failedSources "alpha" (runningSnapshot [])
        (runningSnapshot ["beta"]) := by
  have hunlisted : rowsOf "alpha" (liveRows (runningSnapshot [])) = [] := by
    rw [liveRows_running]
    rfl
  have hunlisted' : rowsOf "alpha" (liveRows (runningSnapshot ["beta"])) = [] :=
    runningSnapshot_agree.symm.trans hunlisted
  have hreported := (failedSources_reported [] hunlisted).mpr rfl
  have hsilent : ¬Reported (plainClock 0)
      (failedSources.withCapacity (runningSnapshot ["beta"])) "alpha" := fun h =>
    absurd ((failedSources_reported ["beta"] hunlisted').mp h) (List.cons_ne_nil _ _)
  exact ⟨runningSnapshot_agree, hreported, hsilent, fun h => hsilent (h.reported.mp hreported)⟩

end LinkSuffix.Health
