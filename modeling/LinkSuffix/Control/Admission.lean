import LinkSuffix.Control.Pieces
import Mathlib.Algebra.Order.BigOperators.Group.List
import Mathlib.Algebra.Order.Ring.Int

/-!
# Admission limits

`startRun` looks at the active runs, checks its limits against them and registers the new run in
one uninterrupted piece; a shared run is in the task table of its worker before the job is handed
over. Outside of that piece active runs only end.

* `Load`: what the limits count about a run. `Settles.loads_sublist`: without an admission the
  loads only get fewer.
* `Within`: the limits over a list of loads. `Within.admit`: the admission keeps them.
* **`admission_limits`**: the limits hold in every state of every run of the server.
-/

namespace LinkSuffix.ControlServer

open Lib

/-! ## Loads -/

/-- What the limits count about a run. -/
structure Load where
  campaignRecordId : Option CampaignId
  proxyPort : Option Int
  tier : Tier
  continuous : Bool
  concurrent : Int
  targetRps : Int
  deriving DecidableEq

namespace Load

/-- The run's concurrency is managed by permits. -/
def permitManaged (load : Load) : Bool := load.tier = .human ∧ load.continuous

/-- The run counts for the browser concurrency. -/
def browser (load : Load) : Bool := load.tier ≠ .trivialHttp ∧ ¬load.permitManaged

end Load

/-- The load of a run. -/
def Run.load (run : Run) : Load where
  campaignRecordId := run.campaignRecordId
  proxyPort := run.proxyPort
  tier := run.tier
  continuous := run.continuous
  concurrent := run.concurrent
  targetRps := run.targetRps

theorem Run.Later.load {r r' : Run} (h : r.Later r') : r'.load = r.load := by
  simp only [Run.load, h.campaignRecordId, h.proxyPort, h.tier, h.continuous, h.concurrent,
    h.targetRps]

namespace Server

/-- The load of the run registered under an id, when it is active. -/
def loadOf (s : Server) (runId : RunId) : Option Load :=
  ((s.run runId).filter s.active).map Run.load

/-- The loads of the active runs. -/
def loads (s : Server) : List Load := s.runs.filterMap s.loadOf

theorem loads_eq (s : Server) : s.loads = s.activeRuns.map Run.load := by
  unfold loads activeRuns loadOf
  rw [List.filter_filterMap, List.map_filterMap]

theorem filterMap_sublist {α β : Type} {f g : α → Option β}
    (h : ∀ a, g a = none ∨ g a = f a) (l : List α) :
    (l.filterMap g).Sublist (l.filterMap f) := by
  induction l with
  | nil => exact List.Sublist.refl _
  | cons a l ih =>
    rcases h a with ha | ha
    · rw [List.filterMap_cons_none ha]
      cases hf : f a with
      | none => rwa [List.filterMap_cons_none hf]
      | some b =>
        rw [List.filterMap_cons_some hf]
        exact ih.cons b
    · cases hf : f a with
      | none => rwa [List.filterMap_cons_none hf, List.filterMap_cons_none (ha.trans hf)]
      | some b =>
        rw [List.filterMap_cons_some hf, List.filterMap_cons_some (ha.trans hf)]
        exact ih.cons_cons b

variable {s s' : Server}

/-- A run that is active was active before, with the same load. -/
theorem Settles.loadOf (h : s.Settles s') (k : RunId) :
    s'.loadOf k = none ∨ s'.loadOf k = s.loadOf k := by
  unfold Server.loadOf
  cases hr' : s'.run k with
  | none => exact Or.inl rfl
  | some r' =>
    obtain ⟨r, hr, hlater⟩ := h.run k r' hr'
    by_cases hactive' : s'.active r' = true
    · refine Or.inr ?_
      have hactive : s.active r = true := by
        unfold active at hactive' ⊢
        rw [Bool.and_eq_true] at hactive' ⊢
        have hexit : r.exitCode = none := by
          by_contra hne
          have hstay := hlater.exitCode (Option.isSome_iff_ne_none.mpr hne)
          rw [hstay] at hactive'
          exact hne (Option.isNone_iff_eq_none.mp hactive'.1)
        refine ⟨by rw [hexit]; rfl, ?_⟩
        have hmode := hactive'.2
        rw [hlater.executionMode, hlater.id] at hmode
        cases hm : r.executionMode with
        | dedicated => rfl
        | shared =>
          rw [hm] at hmode
          have howner : (s'.pool.taskOwners r.id).isSome := hmode
          rcases h.owners r.id with hnone | hsame
          · rw [hnone] at howner
            exact absurd howner (by simp)
          · show (s.pool.taskOwners r.id).isSome = true
            rw [← hsame]
            exact howner
      rw [hr, Option.filter_some_pos hactive', Option.filter_some_pos hactive, Option.map_some,
        Option.map_some, hlater.load]
    · exact Or.inl (by simp [Option.filter, hactive'])

/-- **Without an admission the loads only get fewer.** -/
theorem Settles.loads_sublist (h : s.Settles s') : s'.loads.Sublist s.loads :=
  (filterMap_sublist h.loadOf s'.runs).trans (h.runs.filterMap _)

/-- The load a payload asks for. -/
def requestedLoad (payload : Payload) (port : Option Int) : Load where
  campaignRecordId := payload.campaignRecordId
  proxyPort := port
  tier := payload.tier
  continuous := usesPermits payload
  concurrent := payload.concurrent
  targetRps := requestedRps payload

/-- **An admission adds at most the load of the run it registers.** -/
theorem Registered.loads_sublist (hs : s.Sound) {run : Run} (h : Registered s run s') :
    s'.loads.Sublist (s.loads ++ [run.load]) := by
  have hfresh : run.id ∉ s.runs := (hs.fresh (h.id ▸ Nat.lt_succ_self _)).2.1
  -- no other run changes
  have hother : ∀ k, k ≠ run.id → s'.loadOf k = s.loadOf k := by
    intro k hk
    have hrun : s'.run k = s.run k := (h.run k).trans (if_neg hk)
    unfold Server.loadOf
    rw [hrun]
    cases hr : s.run k with
    | none => rfl
    | some r =>
      have hid : r.id ≠ run.id := (hs.keyed k r hr).1 ▸ hk
      have hactive : s'.active r = s.active r := by
        unfold active WorkerPool.has
        rw [h.taskOwners r.id hid]
      simp only [Option.filter, hactive]
  have hnew : s'.loadOf run.id = none ∨ s'.loadOf run.id = some run.load := by
    have hrun : s'.run run.id = some run := (h.run run.id).trans (if_pos rfl)
    unfold Server.loadOf
    rw [hrun]
    by_cases hactive : s'.active run = true
    · exact Or.inr (by rw [Option.filter_some_pos hactive, Option.map_some])
    · exact Or.inl (by simp [Option.filter, hactive])
  unfold loads
  rw [h.runs, List.filterMap_append]
  refine List.Sublist.append ?_ ?_
  · rw [List.filterMap_congr fun k hk => hother k fun heq => hfresh (heq ▸ hk)]
  · rcases hnew with hnone | hsome
    · rw [List.filterMap_cons_none hnone]
      exact List.nil_sublist _
    · rw [List.filterMap_cons_some hsome]
      exact List.Sublist.refl _

end Server

/-! ## The limits -/

/-- The concurrency of loads. -/
def loadConcurrency (loads : List Load) : Int := (loads.map (·.concurrent)).sum

/-- The limits over the loads of the active runs. -/
structure Within (settings : Settings) (limit : Nat) (loads : List Load) : Prop where
  campaigns : loads.Pairwise fun a b =>
    ∀ id, a.campaignRecordId = some id → b.campaignRecordId ≠ some id
  ports : loads.Pairwise fun a b => ∀ port, a.proxyPort = some port → b.proxyPort ≠ some port
  count : loads.length ≤ limit
  positive : ∀ load ∈ loads, 0 ≤ load.concurrent ∧ 0 ≤ load.targetRps
  concurrency : loadConcurrency (loads.filter (¬·.permitManaged)) ≤ settings.maxTotalConcurrency
  browser : loadConcurrency (loads.filter (·.browser)) ≤ settings.maxBrowserConcurrency
  rate : (loads.map (·.targetRps)).sum ≤ settings.maxTotalRps

theorem within_nil (settings : Settings) (limit : Nat) : Within settings limit [] := by
  constructor
  · exact List.Pairwise.nil
  · exact List.Pairwise.nil
  · exact Nat.zero_le _
  · intro load h
    exact absurd h List.not_mem_nil
  · exact Int.natCast_nonneg _
  · exact Int.natCast_nonneg _
  · exact Int.natCast_nonneg _

theorem concurrency_mono {loads loads' : List Load} (h : loads'.Sublist loads)
    (hpos : ∀ load ∈ loads, 0 ≤ load.concurrent) :
    loadConcurrency loads' ≤ loadConcurrency loads := by
  refine (h.map _).sum_le_sum fun n hn => ?_
  obtain ⟨load, hload, rfl⟩ := List.mem_map.mp hn
  exact hpos load hload

/-- Runs that end keep the limits. -/
theorem Within.sublist {settings : Settings} {limit : Nat} {loads loads' : List Load}
    (h : Within settings limit loads) (hsub : loads'.Sublist loads) :
    Within settings limit loads' where
  campaigns := h.campaigns.sublist hsub
  ports := h.ports.sublist hsub
  count := Nat.le_trans hsub.length_le h.count
  positive load hload := h.positive load (hsub.subset hload)
  concurrency := Int.le_trans (concurrency_mono (hsub.filter _) fun load hload =>
    (h.positive load (List.mem_filter.mp hload).1).1) h.concurrency
  browser := Int.le_trans (concurrency_mono (hsub.filter _) fun load hload =>
    (h.positive load (List.mem_filter.mp hload).1).1) h.browser
  rate := by
    refine Int.le_trans ((hsub.map _).sum_le_sum fun n hn => ?_) h.rate
    obtain ⟨load, hload, rfl⟩ := List.mem_map.mp hn
    exact (h.positive load hload).2

theorem loadConcurrency_snoc (p : Load → Bool) (loads : List Load) (load : Load) :
    loadConcurrency ((loads ++ [load]).filter p)
      = loadConcurrency (loads.filter p) + if p load then load.concurrent else 0 := by
  unfold loadConcurrency
  rw [List.filter_append, List.map_append, List.sum_append]
  by_cases hp : p load = true
  · rw [List.filter_cons_of_pos hp, if_pos hp]
    simp
  · rw [List.filter_cons_of_neg hp, if_neg hp]
    simp

namespace Server

variable {settings : Settings} {s : Server} {payload : Payload} {port : Option Int}

theorem concurrency_eq : concurrency s.activeRuns = loadConcurrency s.loads := by
  rw [loads_eq]
  unfold concurrency loadConcurrency
  rw [List.map_map]
  rfl

theorem browserRuns_eq :
    concurrency (browserRuns s.activeRuns) = loadConcurrency (s.loads.filter (·.browser)) := by
  rw [loads_eq, List.filter_map]
  unfold concurrency loadConcurrency browserRuns
  rw [List.map_map]
  rfl

theorem requestRate_eq : requestRate s.activeRuns = (s.loads.map (·.targetRps)).sum := by
  rw [loads_eq, List.map_map]
  rfl

theorem newRun_permitManaged :
    (s.newRun settings payload port).load.permitManaged = usesPermits payload := by
  unfold Load.permitManaged Run.load newRun usesPermits
  simp

theorem newRun_browser : (s.newRun settings payload port).load.browser = true ↔
    ¬(payload.tier = .trivialHttp ∨ usesPermits payload = true) := by
  have hpermits : (s.newRun settings payload port).load.permitManaged = usesPermits payload :=
    newRun_permitManaged
  unfold Load.browser
  rw [hpermits]
  show decide (payload.tier ≠ .trivialHttp ∧ ¬usesPermits payload = true) = true ↔ _
  rw [decide_eq_true_eq, not_or]

/-- **The admission keeps the limits**, under the active limit of the moment. -/
theorem Within.admit {limit : Nat} (h : Within settings limit s.loads)
    (hadmission : Admits settings s payload port) (hconcurrent : 1 ≤ payload.concurrent)
    (hrps : 0 ≤ requestedRps payload) : Within settings (s.effectiveActiveLimit settings)
      (s.loads ++ [(s.newRun settings payload port).load]) where
  campaigns := by
    refine List.pairwise_append.mpr ⟨h.campaigns, List.pairwise_singleton _ _, ?_⟩
    intro a ha b hb id hid
    rw [List.mem_singleton.mp hb]
    rw [loads_eq] at ha
    obtain ⟨r, hr, rfl⟩ := List.mem_map.mp ha
    exact fun hnew => hadmission.campaign id hnew r hr hid
  ports := by
    refine List.pairwise_append.mpr ⟨h.ports, List.pairwise_singleton _ _, ?_⟩
    intro a ha b hb p hp
    rw [List.mem_singleton.mp hb]
    rw [loads_eq] at ha
    obtain ⟨r, hr, rfl⟩ := List.mem_map.mp ha
    exact fun hnew => hadmission.port p hnew r hr hp
  count := by
    have hlength : s.loads.length = s.activeRuns.length := by rw [loads_eq, List.length_map]
    have hcount := hadmission.count
    rw [List.length_append, List.length_singleton, hlength]
    omega
  positive load hload := by
    rcases List.mem_append.mp hload with hload | hload
    · exact h.positive load hload
    · rw [List.mem_singleton.mp hload]
      exact ⟨Int.le_trans (by decide) hconcurrent, hrps⟩
  concurrency := by
    rw [loadConcurrency_snoc]
    have hold := h.concurrency
    by_cases hpermits : usesPermits payload = true
    · rw [newRun_permitManaged, hpermits]
      simpa using hold
    · have htotal := hadmission.total hpermits
      have hall : loadConcurrency (s.loads.filter (¬·.permitManaged)) ≤ loadConcurrency s.loads :=
        concurrency_mono List.filter_sublist fun load hload => (h.positive load hload).1
      have hload : (s.newRun settings payload port).load.concurrent = payload.concurrent := rfl
      rw [concurrency_eq] at htotal
      rw [newRun_permitManaged, hload]
      simp only [hpermits, Bool.false_eq_true, not_false_eq_true, decide_true, if_true]
      omega
  browser := by
    rw [loadConcurrency_snoc]
    have hbrowser := hadmission.browser
    rw [browserRuns_eq] at hbrowser
    unfold requestedBrowser at hbrowser
    by_cases hcounts : payload.tier = .trivialHttp ∨ usesPermits payload = true
    · rw [if_neg (fun hyes => newRun_browser.mp hyes hcounts)]
      rw [if_pos hcounts] at hbrowser
      exact hbrowser
    · rw [if_pos (newRun_browser.mpr hcounts)]
      rw [if_neg hcounts] at hbrowser
      exact hbrowser
  rate := by
    have hrate := hadmission.rate
    rw [requestRate_eq] at hrate
    rw [List.map_append, List.sum_append]
    have hload : ([(s.newRun settings payload port).load].map (·.targetRps)).sum
        = requestedRps payload := by
      simp [Run.load, newRun]
    omega

end Server

/-! ## Every run of the server -/

/-- A payload that passed `validate` asks for a positive concurrency and no negative rate. -/
theorem validate_bounds {payload : Payload} {registry noProxy : Bool} {proxy : Option Gateway}
    (h : validate payload registry noProxy proxy = none) :
    1 ≤ payload.concurrent ∧ 0 ≤ Server.requestedRps payload := by
  unfold validate at h
  split at h
  · cases h
  split at h
  · cases h
  rename_i hconcurrent
  split at h
  · cases h
  split at h
  · cases h
  rename_i hrps
  refine ⟨by omega, ?_⟩
  unfold Server.requestedRps
  cases hprofile : payload.loadProfile with
  | none => exact Int.le_refl 0
  | some burst =>
    rw [hprofile] at hrps
    simp only [Option.any_some, decide_eq_true_eq] at hrps
    show 0 ≤ burst.targetRps
    omega

/-- Every launch that waits for its target has a checked payload. -/
def Checked (calls : List Call) : Prop := ∀ payload registry caller,
  Call.target payload registry caller ∈ calls →
    1 ≤ payload.concurrent ∧ 0 ≤ Server.requestedRps payload

/-- The active limit in force where the event registers a run. -/
def admissions (settings : Settings) (s : InFlight Server Call) :
    AwaitEvent Input Answer → List Nat
  | .input _ => []
  | .answer n a =>
    match s.calls[n]? with
    | some (.target payload registry _) =>
      if s.shared.admits settings payload registry a then
        [s.shared.effectiveActiveLimit settings]
      else []
    | _ => []

/-- The limits over the active runs; `limit` was in force at the latest admission. -/
structure Admitted (settings : Settings) (limit : Option Nat) (s : Server) : Prop where
  campaigns : s.activeRuns.Pairwise fun a b =>
    ∀ id, a.campaignRecordId = some id → b.campaignRecordId ≠ some id
  ports : s.activeRuns.Pairwise fun a b =>
    ∀ port, a.proxyPort = some port → b.proxyPort ≠ some port
  count : s.activeRuns.length ≤ limit.getD 0
  concurrency : Server.concurrency (s.activeRuns.filter (¬·.permitManaged))
    ≤ settings.maxTotalConcurrency
  browser : Server.concurrency (Server.browserRuns s.activeRuns) ≤ settings.maxBrowserConcurrency
  rate : Server.requestRate s.activeRuns ≤ settings.maxTotalRps

theorem Within.admitted {settings : Settings} {limit : Option Nat} {s : Server}
    (h : Within settings (limit.getD 0) s.loads) : Admitted settings limit s where
  campaigns := by
    have hpairs := h.campaigns
    rw [Server.loads_eq, List.pairwise_map] at hpairs
    exact hpairs
  ports := by
    have hpairs := h.ports
    rw [Server.loads_eq, List.pairwise_map] at hpairs
    exact hpairs
  count := by
    have hcount := h.count
    rw [Server.loads_eq, List.length_map] at hcount
    exact hcount
  concurrency := by
    have hconcurrency := h.concurrency
    rw [Server.loads_eq, List.filter_map] at hconcurrency
    unfold loadConcurrency at hconcurrency
    rw [List.map_map] at hconcurrency
    exact hconcurrency
  browser := Server.browserRuns_eq ▸ h.browser
  rate := Server.requestRate_eq ▸ h.rate

/-- What holds along every run of the server. -/
structure Limited (settings : Settings) (limit : Option Nat) (s : InFlight Server Call) :
    Prop where
  sound : s.shared.Sound
  checked : Checked s.calls
  within : Within settings (limit.getD 0) s.shared.loads

theorem booted_limited {s : InFlight Server Call} (settings : Settings) (h : Booted s) :
    Limited settings none s where
  sound := by
    refine ⟨fun k r hr => ?_, fun k hk => ?_, ?_, fun k hk => absurd (h.taskOwners k) hk, ?_⟩
    · exact absurd hr (by rw [h.run k]; simp)
    · rw [h.runs] at hk
      exact absurd hk List.not_mem_nil
    · rw [h.runs]
      exact List.nodup_nil
    · refine ⟨?_, ?_, ?_, fun r o => ?_⟩
      · rw [h.workers]
        exact List.nodup_nil
      · simp [h.workers]
      · simp [h.workers]
      · simp [h.workers, h.taskOwners r]
  checked payload registry caller hmem := by
    rw [h.calls] at hmem
    exact absurd hmem List.not_mem_nil
  within := by
    have hnone : s.shared.loads = [] := by
      unfold Server.loads
      rw [h.runs]
      rfl
    rw [hnone]
    exact within_nil settings _

section Runs

variable {settings : Settings} {s : InFlight Server Call}

/-- **One event keeps the limits.** -/
theorem limited_step {limit : Option Nat} (h : Limited settings limit s)
    (e : AwaitEvent Input Answer) :
    Limited settings ((admissions settings s e).getLast?.or limit)
      ((controlServer settings).events.next s e) := by
  have hnext := (controlServer settings).next_cases s e
  generalize (controlServer settings).events.next s e = s' at hnext ⊢
  cases hnext with
  | idle n a hnone =>
    have hadmissions : admissions settings s (.answer n a) = [] := by simp [admissions, hnone]
    rw [hadmissions]
    exact h
  | input i =>
    refine ⟨Server.accept_sound h.sound i, fun payload registry caller hmem => ?_, ?_⟩
    · rcases List.mem_append.mp hmem with hmem | hmem
      · exact h.checked payload registry caller hmem
      · cases Server.accept_arises hmem with
        | asks _ caller' _ _ hasks => cases hasks
    · exact h.within.sublist (Server.accept_settles i).loads_sublist
  | answer n a call hcall =>
    have hold : call ∈ s.calls := List.mem_of_getElem? hcall
    refine ⟨Server.resume_sound h.sound settings call a, fun payload registry caller hmem => ?_, ?_⟩
    · rcases AwaitSystem.mem_eraseIdx_append hmem with hmem | hmem
      · exact h.checked payload registry caller hmem
      · cases Server.resume_continues hmem with
        | checked _ _ _ _ hvalid => exact validate_bounds hvalid
        | handed payload' registry' caller' port _ _ hhanded =>
          rcases hhanded.call (List.mem_singleton.mpr rfl) with
            ⟨-, heq⟩ | ⟨message, heq⟩ | ⟨worker, heq⟩
          · cases heq
          · cases heq
          · cases heq
        | selected _ ref c _ _ _ hholds => cases hholds
        | ready _ context ref now c _ _ _ hholds => cases hholds
        | tick _ stamp ref stamp' ref' key key' _ _ hasks => cases hasks
    · by_cases htarget : ∃ payload registry caller, call = .target payload registry caller
      · obtain ⟨payload, registry, caller, rfl⟩ := htarget
        have hlimit : admissions settings s (.answer n a) =
            if s.shared.admits settings payload registry a then
              [s.shared.effectiveActiveLimit settings] else [] := by simp [admissions, hcall]
        rw [hlimit]
        show Within settings _ (s.shared.launch settings payload registry caller a).1.loads
        rcases Server.launch_cases (s := s.shared) settings payload registry caller a with
          ⟨hadmitted, message, -, n', -, hstate⟩ | ⟨hadmitted, port, hadmission, hhanded⟩
        · rw [hadmitted, hstate]
          exact h.within
        · rw [hadmitted]
          obtain ⟨hconcurrent, hrps⟩ := h.checked payload registry caller hold
          have hregistered := Server.handedOver_registered h.sound rfl hhanded
          have hwithin := Server.Within.admit h.within (Server.admission_ok hadmission) hconcurrent hrps
          exact hwithin.sublist (hregistered.loads_sublist h.sound)
      · have hnot : ∀ payload registry caller, call ≠ .target payload registry caller :=
          fun payload registry caller heq => htarget ⟨payload, registry, caller, heq⟩
        have hlimit : admissions settings s (.answer n a) = [] := by
          simp only [admissions, hcall]
          cases call with
          | target payload registry caller => exact absurd rfl (hnot payload registry caller)
          | _ => rfl
        rw [hlimit]
        exact h.within.sublist (Server.resume_settles settings a hnot).loads_sublist

/-- The limits along a run, under the limit of its latest admission. -/
theorem limited_run (hs : Booted s) (es : List (AwaitEvent Input Answer)) :
    Limited settings
      ((controlServer settings).events.collect (admissions settings) s es).getLast?
      ((controlServer settings).events.run s es) := by
  refine EventSystem.history_inv (G := fun _ _ => True) (P := fun es t => Limited settings
    ((controlServer settings).events.collect (admissions settings) s es).getLast? t)
    (booted_limited settings hs) (fun es e _ h => ?_) EventSystem.along_true
  have hstep := limited_step h e
  rw [EventSystem.collect_concat, List.getLast?_append]
  exact hstep

/-- **Admission limits hold in every state.** Over every run of the server: no two active runs of
one saved campaign, no two on one legacy gateway port, no more active runs than the limit in force
at the latest admission allowed, and the aggregate concurrency, browser concurrency and request
rate within their limits. -/
theorem admission_limits (hs : Booted s) (es : List (AwaitEvent Input Answer)) :
    Admitted settings
      ((controlServer settings).events.collect (admissions settings) s es).getLast?
      ((controlServer settings).events.run s es).shared :=
  (limited_run hs es).within.admitted

end Runs

/-! ## Two launches that race for one port -/

namespace Sample

def settings : Settings where
  maxLocalWorkers := 4
  maxTotalConcurrency := 8
  maxBrowserConcurrency := 8
  maxTotalRps := 50
  sharedOrchestratorEnabled := true
  noProxy := false
  universalProxyEnabled := false
  campaignStartGapMs := 1000
  fleetActivationChecksPerPump := 25
  fleetActivationRetryMs := 10000
  pool := ⟨2, 2⟩

/-- A server with a verified gateway and the given campaigns, under the ids they have. -/
def server (campaigns : List Campaign) : InFlight Server Call :=
  ⟨{ campaignIds := campaigns.map (·.id)
     campaigns := fun id => campaigns.findIdx? (·.id = id)
     campaign := fun ref => campaigns[ref]?
     nextRef := campaigns.length
     campaignSequence := (campaigns.map (·.id)).foldr max 0
     proxy := some ⟨12321, true⟩
     activeLimit := 3 }, []⟩

/-- Two runs by hand, each up to the look at the active runs, and then both past it. -/
def race : List (AwaitEvent Input Answer) :=
  [.input (.createRun {}), .input (.createRun { tier := .headless, continuous := false }),
    .answer 0 {}, .answer 0 {}, .answer 1 {}, .answer 0 {}]

end Sample

theorem booted_empty : Booted (Sample.server []) := by
  constructor
  · rfl
  · rfl
  · exact fun _ => rfl
  · rfl
  · exact fun _ => rfl
  · rfl
  · rfl
  · simp [Sample.server]
  · simp [Sample.server]
  · simp [Sample.server]

/-- Of two launches that ask for one port, the second to look at the active runs is refused. -/
theorem admission_limits_race :
    ((((controlServer Sample.settings).events.run (Sample.server []) Sample.race).shared).activeRuns.map
        (·.id) = [1]) ∧
      Admitted Sample.settings
        ((controlServer Sample.settings).events.collect (admissions Sample.settings)
          (Sample.server []) Sample.race).getLast?
        ((controlServer Sample.settings).events.run (Sample.server []) Sample.race).shared :=
  ⟨by decide, admission_limits booted_empty Sample.race⟩

end LinkSuffix.ControlServer
