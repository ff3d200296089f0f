import LinkSuffix.Control.Server

/-!
# What the pieces of the handlers do

One lemma for each function of the server: the state it leaves and the calls it suspends.

* `Server.Settles`: a piece that registers no run. Runs only end, leave the table, and lose their
  worker; their other fields stay.
* `accept_settles`, `resume_settles`: every piece but the admission settles.
* `launch_spec`: the admission, which registers at most the run it admitted.
-/

namespace LinkSuffix.ControlServer

open Lib

/-- The run `r'` is `r` some time later. -/
structure Run.Later (r r' : Run) : Prop where
  id : r'.id = r.id
  campaignRecordId : r'.campaignRecordId = r.campaignRecordId
  proxyPort : r'.proxyPort = r.proxyPort
  tier : r'.tier = r.tier
  continuous : r'.continuous = r.continuous
  concurrent : r'.concurrent = r.concurrent
  targetRps : r'.targetRps = r.targetRps
  executionMode : r'.executionMode = r.executionMode
  exitCode : r.exitCode.isSome → r'.exitCode = r.exitCode

theorem Run.Later.refl (r : Run) : r.Later r :=
  ⟨rfl, rfl, rfl, rfl, rfl, rfl, rfl, rfl, fun _ => rfl⟩

theorem Run.Later.trans {r r' r'' : Run} (h : r.Later r') (h' : r'.Later r'') : r.Later r'' where
  id := h'.id.trans h.id
  campaignRecordId := h'.campaignRecordId.trans h.campaignRecordId
  proxyPort := h'.proxyPort.trans h.proxyPort
  tier := h'.tier.trans h.tier
  continuous := h'.continuous.trans h.continuous
  concurrent := h'.concurrent.trans h.concurrent
  targetRps := h'.targetRps.trans h.targetRps
  executionMode := h'.executionMode.trans h.executionMode
  exitCode hsome := by
    have hstay := h.exitCode hsome
    rw [h'.exitCode (hstay ▸ hsome), hstay]

namespace Server

/-- What a piece that registers no run does to the runs. -/
structure Settles (s s' : Server) : Prop where
  runs : s'.runs.Sublist s.runs
  run : ∀ k r', s'.run k = some r' → ∃ r, s.run k = some r ∧ r.Later r'
  kept : ∀ k r, s.run k = some r → ∃ r', s'.run k = some r' ∧ r.Later r'
  owners : ∀ k, s'.pool.taskOwners k = none ∨ s'.pool.taskOwners k = s.pool.taskOwners k
  pool : s.pool.Sound → s'.pool.Sound
  sequence : s.sequence ≤ s'.sequence

theorem Settles.refl (s : Server) : s.Settles s where
  runs := List.Sublist.refl _
  run _ r' h := ⟨r', h, .refl r'⟩
  kept _ r h := ⟨r, h, .refl r⟩
  owners _ := Or.inr rfl
  pool h := h
  sequence := Nat.le_refl _

theorem Settles.trans {s s' s'' : Server} (h : s.Settles s') (h' : s'.Settles s'') :
    s.Settles s'' where
  runs := h'.runs.trans h.runs
  run k r'' hr'' := by
    obtain ⟨r', hr', hlater'⟩ := h'.run k r'' hr''
    obtain ⟨r, hr, hlater⟩ := h.run k r' hr'
    exact ⟨r, hr, hlater.trans hlater'⟩
  kept k r hr := by
    obtain ⟨r', hr', hlater⟩ := h.kept k r hr
    obtain ⟨r'', hr'', hlater'⟩ := h'.kept k r' hr'
    exact ⟨r'', hr'', hlater.trans hlater'⟩
  owners k := by
    rcases h'.owners k with hk | hk
    · exact Or.inl hk
    · rw [hk]
      exact h.owners k
  pool hsound := h'.pool (h.pool hsound)
  sequence := Nat.le_trans h.sequence h'.sequence

/-- A piece that leaves the runs and the pool alone. -/
theorem settles_of_eq {s s' : Server} (hruns : s'.runs = s.runs) (hrun : s'.run = s.run)
    (hpool : s'.pool = s.pool) (hseq : s'.sequence = s.sequence) : s.Settles s' where
  runs := by rw [hruns]
  run k r' h := ⟨r', hrun ▸ h, .refl r'⟩
  kept k r h := ⟨r, hrun ▸ h, .refl r⟩
  owners k := Or.inr (by rw [hpool])
  pool h := hpool ▸ h
  sequence := Nat.le_of_eq hseq.symm

variable (s : Server)

theorem modify_settles (ref : Ref) (f : Campaign → Campaign) : s.Settles (s.modify ref f) :=
  settles_of_eq rfl rfl rfl rfl

variable {s}

theorem modifyRun_settles {runId : RunId} {f : Run → Run}
    (hf : ∀ r, s.run runId = some r → r.Later (f r)) : s.Settles (s.modifyRun runId f) where
  runs := List.Sublist.refl _
  run k r' h := by
    by_cases hk : k = runId
    · subst hk
      have hself : (s.modifyRun k f).run k = (s.run k).map f := Function.update_self ..
      have h' : (s.run k).map f = some r' := hself ▸ h
      obtain ⟨r, hr, rfl⟩ := Option.map_eq_some_iff.mp h'
      exact ⟨r, hr, hf r hr⟩
    · have hother : (s.modifyRun runId f).run k = s.run k := Function.update_of_ne hk ..
      exact ⟨r', hother ▸ h, .refl r'⟩
  kept k r h := by
    by_cases hk : k = runId
    · subst hk
      have hself : (s.modifyRun k f).run k = (s.run k).map f := Function.update_self ..
      exact ⟨f r, by rw [hself, h, Option.map_some], hf r h⟩
    · have hother : (s.modifyRun runId f).run k = s.run k := Function.update_of_ne hk ..
      exact ⟨r, by rw [hother, h], .refl r⟩
  owners _ := Or.inr rfl
  pool h := h
  sequence := Nat.le_refl _

theorem dropRun_settles (runId : RunId) : s.Settles (s.dropRun runId) where
  runs := List.filter_sublist
  run _ r' h := ⟨r', h, .refl r'⟩
  kept _ r h := ⟨r, h, .refl r⟩
  owners _ := Or.inr rfl
  pool h := h
  sequence := Nat.le_refl _

theorem exited_settles {worker : Nat} {runId : RunId} {pool : WorkerPool}
    (h : s.pool.exited worker runId = some pool) : s.Settles { s with pool := pool } where
  runs := List.Sublist.refl _
  run _ r' hr := ⟨r', hr, .refl r'⟩
  kept _ r hr := ⟨r, hr, .refl r⟩
  owners k := by
    obtain ⟨-, -, howners, -⟩ := WorkerPool.exited_spec h
    show pool.taskOwners k = none ∨ pool.taskOwners k = s.pool.taskOwners k
    rw [howners]
    by_cases hk : k = runId
    · exact Or.inl (by rw [hk, Function.update_self])
    · exact Or.inr (Function.update_of_ne hk ..)
  pool hsound := WorkerPool.exited_sound hsound h
  sequence := Nat.le_refl _

theorem lost_settles (worker : Nat) : s.Settles { s with pool := (s.pool.lost worker).1 } where
  runs := List.Sublist.refl _
  run _ r' hr := ⟨r', hr, .refl r'⟩
  kept _ r hr := ⟨r, hr, .refl r⟩
  owners k := by
    show (if k ∈ (s.pool.lost worker).2 then none else s.pool.taskOwners k) = none ∨
      (if k ∈ (s.pool.lost worker).2 then none else s.pool.taskOwners k) = s.pool.taskOwners k
    split
    · exact Or.inl rfl
    · exact Or.inr rfl
  pool hsound := WorkerPool.lost_sound hsound worker
  sequence := Nat.le_refl _

/-! ## Terminating runs -/

/-- What `terminateRun` changes: a stop message or a signal may have gone out. -/
theorem terminateRun_eq (run : Run) : (s.terminateRun run).1 = s ∨
    (s.terminateRun run).1 = { s with stops := s.stops ++ [run.id] } := by
  unfold terminateRun
  split
  · exact Or.inr rfl
  · exact Or.inl rfl

theorem terminate_eq (run : Option Run) : s.terminate run = s ∨
    ∃ r, run = some r ∧ s.terminate run = { s with stops := s.stops ++ [r.id] } := by
  cases run with
  | none => exact Or.inl rfl
  | some r =>
    rcases terminateRun_eq (s := s) r with h | h
    · exact Or.inl h
    · exact Or.inr ⟨r, rfl, h⟩

theorem terminate_settles (run : Option Run) : s.Settles (s.terminate run) := by
  rcases terminate_eq (s := s) run with h | ⟨r, -, h⟩
  · rw [h]
    exact .refl s
  · rw [h]
    exact settles_of_eq rfl rfl rfl rfl

/-! ## The pump -/

/-- `campaignPumpRunning = b`. -/
def setPump (b : Bool) (s : Server) : Server := { s with campaignPumpRunning := b }

theorem setPump_settles (b : Bool) : s.Settles (s.setPump b) := settles_of_eq rfl rfl rfl rfl

theorem startRun_eq (payload : Payload) (caller : Caller) :
    s.startRun payload caller = (s, [.failed selectionIncomplete caller]) ∨
      s.startRun payload caller = (s, [.policy payload caller]) := by
  unfold startRun
  split
  · exact Or.inl rfl
  · exact Or.inr rfl

/-- The loop of the pump goes on with the campaign at `ref`. -/
inductive PumpHolds (ref : Ref) (c : Campaign) : Call → Prop
  | failed (context : PumpContext) (message : String) :
      PumpHolds ref c (.failed message (.pump context ref))
  | policy (context : PumpContext) :
      PumpHolds ref c (.policy { c.config with campaignRecordId := some c.id }
        (.pump context ref))
  | readiness (context : PumpContext) (now : Nat) : PumpHolds ref c (.readiness context ref now)

theorem launchQueued_cases (context : PumpContext) (ref : Ref) (now : Nat) (a : Answer) :
    s.launchQueued context ref now a = (s.setPump false, []) ∨
      ∃ c call, s.campaign ref = some c ∧ PumpHolds ref c call ∧
        s.launchQueued context ref now a = (s, [call]) := by
  unfold launchQueued
  split
  · exact Or.inl rfl
  · rename_i c hc
    split
    · exact Or.inl rfl
    · split
      · exact Or.inl rfl
      · rcases startRun_eq (s := s) { c.config with campaignRecordId := some c.id }
            (.pump context ref) with h | h
        · exact Or.inr ⟨c, _, hc, .failed context _, h⟩
        · exact Or.inr ⟨c, _, hc, .policy context, h⟩

/-- The campaign the pump has selected. -/
structure Selected (s : Server) (ref : Ref) (c : Campaign) : Prop where
  stored : ∃ id ∈ s.campaignIds, s.stored id = some (ref, c)
  pending : c.proxySelectionPending = false
  queued : c.status = .queued
  desired : c.desiredRunning = true

theorem selectQueued_spec {registryIds : List CampaignId} {now : Nat} {ref : Ref} {c : Campaign}
    (h : s.selectQueued registryIds now = some (ref, c)) : Selected s ref c := by
  unfold selectQueued at h
  have hmem := List.mem_of_find?_eq_some h
  have hcond := List.find?_some h
  obtain ⟨id, hid, hstored⟩ := List.mem_filterMap.mp hmem
  simp only [launchable, decide_eq_true_eq] at hcond
  rw [List.mem_insertionSort] at hid
  exact ⟨⟨id, hid, hstored⟩, by simpa using hcond.1, hcond.2.1, by simpa using hcond.2.2.1⟩

theorem stored_eq_some {id : CampaignId} {ref : Ref} {c : Campaign} :
    s.stored id = some (ref, c) ↔ s.campaigns id = some ref ∧ s.campaign ref = some c := by
  unfold stored
  cases href : s.campaigns id with
  | none => simp
  | some ref' =>
    cases hc : s.campaign ref' with
    | none =>
      simp only [Option.bind_eq_bind, Option.bind_some, Option.bind_none, hc]
      constructor
      · intro h
        exact absurd h (by simp)
      · rintro ⟨hr, hcc⟩
        rw [Option.some.inj hr, hcc] at hc
        exact absurd hc (by simp)
    | some c' =>
      simp only [Option.bind_eq_bind, Option.bind_some, hc, Option.pure_def, Option.some.injEq,
        Prod.mk.injEq]
      constructor
      · rintro ⟨rfl, rfl⟩
        exact ⟨rfl, hc⟩
      · rintro ⟨rfl, hcc⟩
        rw [hcc] at hc
        exact ⟨rfl, (Option.some.inj hc).symm⟩

/-- **What the loop of the pump does**: it ends, or it goes on with a campaign it selected. -/
theorem pumpLoop_cases (settings : Settings) (context : PumpContext) (a : Answer) :
    s.pumpLoop settings context a = (s.setPump false, []) ∨
      ∃ ref c call, Selected s ref c ∧ PumpHolds ref c call ∧
        s.pumpLoop settings context a = (s, [call]) := by
  unfold pumpLoop
  split
  · split
    · exact Or.inl rfl
    · rename_i ref c hsel
      have hselected := selectQueued_spec hsel
      split
      · split
        · exact Or.inl rfl
        · exact Or.inr ⟨ref, c, _, hselected, .readiness _ _, rfl⟩
      · rcases launchQueued_cases (s := s) context ref a.now a with h | ⟨c', call, hc, hcall, h⟩
        · exact Or.inl h
        · obtain ⟨id, -, hstored⟩ := hselected.stored
          obtain rfl : c = c' := by
            have := (stored_eq_some.mp hstored).2
            rw [this] at hc
            exact Option.some.inj hc
          exact Or.inr ⟨ref, c, call, hselected, hcall, h⟩
  · exact Or.inl rfl

theorem pumpCampaignQueue_cases : s.pumpCampaignQueue = (s, []) ∨
    s.campaignPumpRunning = false ∧ s.pumpCampaignQueue = (s.setPump true, [.registryIds]) := by
  unfold pumpCampaignQueue
  split
  · exact Or.inl rfl
  · rename_i hrunning
    split
    · exact Or.inr ⟨by simpa using hrunning, rfl⟩
    · exact Or.inl rfl

theorem pumpCampaignQueue_settles : s.Settles s.pumpCampaignQueue.1 := by
  rcases pumpCampaignQueue_cases (s := s) with h | ⟨-, h⟩
  · rw [h]
    exact .refl s
  · rw [h]
    exact setPump_settles true

theorem launchQueued_settles (context : PumpContext) (ref : Ref) (now : Nat) (a : Answer) :
    s.Settles (s.launchQueued context ref now a).1 := by
  rcases launchQueued_cases (s := s) context ref now a with h | ⟨c, call, -, -, h⟩
  · rw [h]
    exact setPump_settles false
  · rw [h]
    exact .refl s

theorem pumpLoop_settles (settings : Settings) (context : PumpContext) (a : Answer) :
    s.Settles (s.pumpLoop settings context a).1 := by
  rcases pumpLoop_cases (s := s) settings context a with h | ⟨ref, c, call, -, -, h⟩
  · rw [h]
    exact setPump_settles false
  · rw [h]
    exact .refl s

theorem afterLaunch_settles (settings : Settings) (context : PumpContext) (a : Answer) :
    s.Settles (s.afterLaunch settings context a).1 := by
  have hnext : s.Settles { s with nextCampaignStartAt := a.now + settings.campaignStartGapMs } :=
    settles_of_eq rfl rfl rfl rfl
  unfold afterLaunch
  dsimp only
  split
  · exact hnext.trans (setPump_settles false)
  · exact hnext.trans (pumpLoop_settles settings context a)

/-! ## Schedules -/

theorem reconcileCampaign_settles (window : ClockSchedule → Window) (id : CampaignId) :
    s.Settles (s.reconcileCampaign window id) := by
  unfold reconcileCampaign
  split
  · exact .refl s
  · split
    · exact .refl s
    · split
      · exact .refl s
      · split
        · exact .refl s
        · dsimp only
          split
          · exact (terminate_settles _).trans (modify_settles ..)
          · split
            · exact modify_settles ..
            · exact .refl s

theorem reconcileAll_settles (window : ClockSchedule → Window) (ids : List CampaignId) :
    ∀ s : Server, s.Settles (ids.foldl (fun s id => s.reconcileCampaign window id) s) := by
  induction ids with
  | nil => exact fun s => .refl s
  | cons id ids ih =>
    intro s
    exact (reconcileCampaign_settles window id).trans (ih _)

theorem reconcileCampaignSchedules_settles (window : ClockSchedule → Window) :
    s.Settles (s.reconcileCampaignSchedules window).1 :=
  (reconcileAll_settles window s.campaignIds s).trans pumpCampaignQueue_settles

/-- The loop over the schedules only sends stops, and may start a run for an entry. -/
theorem tickLoop_cases (window : ClockSchedule → Window) (entries : List ScheduleEntry) :
    ∀ s : Server, ∃ stops ticking, (tickLoop window entries s).1
        = { s with stops := stops, schedulerTicking := ticking } ∧
      ((tickLoop window entries s).2 = [] ∨ ∃ entry ∈ entries, ∃ caller,
        (tickLoop window entries s).2 = [.failed selectionIncomplete caller] ∨
          (tickLoop window entries s).2 = [.policy entry.payload caller]) := by
  induction entries with
  | nil => exact fun s => ⟨s.stops, false, rfl, Or.inl rfl⟩
  | cons entry rest ih =>
    intro s
    have hrest : ∀ s' : Server, ∀ stops, s' = { s with stops := stops } →
        ∃ stops ticking, (tickLoop window rest s').1
          = { s with stops := stops, schedulerTicking := ticking } ∧
        ((tickLoop window rest s').2 = [] ∨ ∃ e ∈ entry :: rest, ∃ caller,
          (tickLoop window rest s').2 = [.failed selectionIncomplete caller] ∨
            (tickLoop window rest s').2 = [.policy e.payload caller]) := by
      intro s' stops hs'
      obtain ⟨stops', ticking, hstate, hcalls⟩ := ih s'
      refine ⟨stops', ticking, by rw [hstate, hs'], ?_⟩
      rcases hcalls with h | ⟨e, he, caller, h⟩
      · exact Or.inl h
      · exact Or.inr ⟨e, List.mem_cons_of_mem _ he, caller, h⟩
    unfold tickLoop
    split
    · exact hrest s s.stops rfl
    · dsimp only
      split
      · rcases terminate_eq (s := s) (s.activeRuns.find? (·.scheduleId = some entry.id)) with
          h | ⟨r, -, h⟩
        · exact hrest _ s.stops h
        · exact hrest _ _ h
      · split
        · exact hrest s s.stops rfl
        · rcases startRun_eq (s := s) entry.payload
              (.tick entry.stamp entry.ref (window entry.schedule).windowKey) with h | h
          · exact ⟨s.stops, s.schedulerTicking, by rw [h],
              Or.inr ⟨entry, List.mem_cons_self, _, Or.inl (by rw [h])⟩⟩
          · exact ⟨s.stops, s.schedulerTicking, by rw [h],
              Or.inr ⟨entry, List.mem_cons_self, _, Or.inr (by rw [h])⟩⟩

theorem tickLoop_settles (window : ClockSchedule → Window) (entries : List ScheduleEntry) :
    s.Settles (tickLoop window entries s).1 := by
  obtain ⟨stops, ticking, h, -⟩ := tickLoop_cases window entries s
  rw [h]
  exact settles_of_eq rfl rfl rfl rfl

theorem runScheduleTick_settles (window : ClockSchedule → Window) :
    s.Settles (s.runScheduleTick window).1 := by
  have hticking : s.Settles { s with schedulerTicking := true } := settles_of_eq rfl rfl rfl rfl
  unfold runScheduleTick
  split
  · exact .refl s
  · exact hticking.trans (tickLoop_settles window s.schedules)

/-! ## The end of a run -/

/-- The first piece of `finalizeRun` sets the exit code of a run that has none. -/
theorem finalizeRun_cases (runId : RunId) (code : Int) :
    s.finalizeRun runId code = (s, []) ∨
      ∃ r, s.run runId = some r ∧ r.exitCode = none ∧ s.finalizeRun runId code =
        (s.modifyRun runId fun r => { r with exitCode := some code }, [.captures runId code]) := by
  unfold finalizeRun
  split
  · exact Or.inl rfl
  · rename_i r hr
    split
    · exact Or.inl rfl
    · rename_i hexit
      exact Or.inr ⟨r, hr, by simpa using hexit, rfl⟩

theorem finalizeRun_settles (runId : RunId) (code : Int) :
    s.Settles (s.finalizeRun runId code).1 := by
  rcases finalizeRun_cases (s := s) runId code with h | ⟨r, hr, hexit, h⟩
  · rw [h]
    exact .refl s
  · rw [h]
    refine modifyRun_settles fun r' hr' => ?_
    rw [hr] at hr'
    obtain rfl := Option.some.inj hr'
    exact ⟨rfl, rfl, rfl, rfl, rfl, rfl, rfl, rfl, fun hsome => absurd hsome (by simp [hexit])⟩

theorem finalizeRuns_settles (code : Int) (ids : List RunId) :
    ∀ s : Server, s.Settles (finalizeRuns code ids s).1 := by
  induction ids with
  | nil => exact fun s => .refl s
  | cons runId rest ih =>
    intro s
    exact (finalizeRun_settles runId code).trans (ih _)

theorem endRun_settles (runId : RunId) (code : Int) : s.Settles (s.endRun runId code).1 := by
  unfold endRun
  split
  · exact .refl s
  · rename_i run _
    dsimp only
    split
    · exact (dropRun_settles runId).trans pumpCampaignQueue_settles
    · rename_i ref _
      exact ((modify_settles s ref (Campaign.finalize run.continuous code)).trans
        (dropRun_settles runId)).trans pumpCampaignQueue_settles

theorem afterCaptures_settles (runId : RunId) (code : Int) (a : Answer) :
    s.Settles (s.afterCaptures runId code a).1 := by
  unfold afterCaptures
  split
  · exact .refl s
  · split
    · exact .refl s
    · exact endRun_settles runId code

/-! ## Captures and saves -/

theorem recordCapture_settles (ref : Option Ref) (capture : Capture) (receipt : Option Receipt) :
    s.Settles (s.recordCapture ref capture receipt) := by
  unfold recordCapture
  split
  · exact .refl s
  · exact modify_settles ..

theorem settles_modify {stored : Option Ref} {f : Campaign → Campaign} :
    s.Settles (match stored with
      | none => s
      | some ref => s.modify ref f) := by
  cases stored with
  | none => exact .refl s
  | some ref => exact modify_settles ..

theorem beginCapture_settles (run : Run) (result : CaptureResult) (now : Nat) :
    s.Settles (s.beginCapture run result now).1 := by
  unfold beginCapture
  dsimp only
  split
  · exact .refl s
  · split
    · split
      · exact .trans settles_modify (recordCapture_settles ..)
      · exact settles_modify
    · exact .trans settles_modify (recordCapture_settles ..)

/-- What a committed save leaves of the runs and the pool: everything. -/
theorem commitSave_settles {settings : Settings} {id : Option CampaignId} {payload : Payload}
    {registry changed : Bool} {s' : Server} {stage : SaveStage}
    (h : s.commitSave settings id payload registry changed = .ok (s', stage)) : s.Settles s' := by
  unfold commitSave at h
  split at h
  · cases h
  · split at h
    · cases h
    · split at h
      · cases h
      · split at h
        · cases h
        · dsimp only at h
          split at h
          · cases h
          · split at h
            · cases h
            · split at h
              · obtain ⟨rfl, -⟩ := Prod.mk.inj (Except.ok.inj h)
                exact settles_of_eq rfl rfl rfl rfl
              · obtain ⟨rfl, -⟩ := Prod.mk.inj (Except.ok.inj h)
                exact settles_of_eq rfl rfl rfl rfl

theorem save_settles (settings : Settings) (ticket : Nat) (created : Bool)
    (id : Option CampaignId) (payload : Payload) (stage : SaveStage) (a : Answer) :
    s.Settles (s.save settings ticket created id payload stage a).state := by
  unfold save
  dsimp only
  split
  · split
    · exact .refl s
    · exact .refl s
  · split
    · exact settles_of_eq rfl rfl rfl rfl
    · exact .refl s
    · split
      · exact settles_of_eq rfl rfl rfl rfl
      · exact .refl s
  · exact .refl s
  · split
    · exact settles_of_eq rfl rfl rfl rfl
    · exact settles_of_eq rfl rfl rfl rfl
    · rename_i hcommit
      exact commitSave_settles hcommit
  · split
    · exact settles_of_eq rfl rfl rfl rfl
    · exact settles_of_eq rfl rfl rfl rfl
    · rename_i hcommit
      exact commitSave_settles hcommit
  · split
    · exact settles_of_eq rfl rfl rfl rfl
    · exact .refl s
  · split
    · exact modify_settles ..
    · exact modify_settles ..
  · split
    · exact modify_settles ..
    · exact .refl s
  · exact settles_of_eq rfl rfl rfl rfl
  · split
    · exact settles_of_eq rfl rfl rfl rfl
    · exact settles_of_eq rfl rfl rfl rfl

theorem endSaveHandler_settles (created : Bool) (ref : Ref) (draftOnly : Bool) (a : Answer) :
    s.Settles (s.endSaveHandler created ref draftOnly a).1 := by
  unfold endSaveHandler
  split
  · exact ((modify_settles ..).trans (reconcileCampaignSchedules_settles a.window)).trans
      pumpCampaignQueue_settles
  · exact pumpCampaignQueue_settles

/-! ## Every piece but the admission -/

theorem saveSchedule_settles (id : String) (schedule : ClockSchedule) (payload : Payload) :
    s.Settles (s.saveSchedule id schedule payload) := settles_of_eq rfl rfl rfl rfl

theorem startRun_settles (payload : Payload) (caller : Caller) :
    s.Settles (s.startRun payload caller).1 := by
  rcases startRun_eq (s := s) payload caller with h | h
  · rw [h]
    exact .refl s
  · rw [h]
    exact .refl s

theorem startCampaign_settles (id : CampaignId) : s.Settles (s.startCampaign id).state := by
  unfold startCampaign
  split
  · exact .refl s
  · split
    · exact .refl s
    · split
      · exact (modify_settles ..).trans pumpCampaignQueue_settles
      · exact pumpCampaignQueue_settles

theorem stopCampaign_settles (id : CampaignId) : s.Settles (s.stopCampaign id).state := by
  unfold stopCampaign
  split
  · exact .refl s
  · exact (modify_settles ..).trans (terminate_settles _)

theorem restartCampaign_settles (id : CampaignId) : s.Settles (s.restartCampaign id).state := by
  unfold restartCampaign
  split
  · exact .refl s
  · split
    · exact .refl s
    · split
      · exact (modify_settles ..).trans pumpCampaignQueue_settles
      · rename_i run _
        have hstop : ∀ s' : Server, s'.Settles (s'.terminate (some run)) := fun s' =>
          terminate_settles (some run)
        exact (modify_settles ..).trans (hstop _)

theorem deleteCampaign_settles (id : CampaignId) : s.Settles (s.deleteCampaign id).state := by
  unfold deleteCampaign
  split
  · exact .refl s
  · split
    · exact .refl s
    · rename_i run _
      have hflag : s.Settles (s.modifyRun run.id fun r => { r with useScriptMesh := false }) :=
        modifyRun_settles fun r _ => ⟨rfl, rfl, rfl, rfl, rfl, rfl, rfl, rfl, fun _ => rfl⟩
      exact hflag.trans (terminate_settles (some run))

theorem removeRun_settles (runId : RunId) : s.Settles (s.removeRun runId).state := by
  unfold removeRun
  split
  · exact .refl s
  · exact dropRun_settles runId

theorem capturedResult_settles (runId : RunId) (result : CaptureResult) (now : Nat) :
    s.Settles (s.capturedResult runId result now).1 := by
  unfold capturedResult
  split
  · exact .refl s
  · exact beginCapture_settles ..

theorem exitedRun_settles (worker : Nat) (runId : RunId) (code : Int) :
    s.Settles (s.exited worker runId code).1 := by
  unfold exited
  split
  · exact .refl s
  · rename_i pool hexit
    exact (exited_settles hexit).trans (finalizeRun_settles runId code)

theorem childExited_settles (runId : RunId) (code : Int) :
    s.Settles (s.childExited runId code).1 := by
  unfold childExited
  split
  · exact finalizeRun_settles runId code
  · exact .refl s

/-- **Commands, timers and exits settle.** -/
theorem accept_settles (i : Input) : s.Settles (s.accept i).state := by
  cases i with
  | createRun payload => exact startRun_settles payload _
  | createCampaign payload => exact settles_of_eq rfl rfl rfl rfl
  | updateCampaign id payload => exact settles_of_eq rfl rfl rfl rfl
  | startCampaign id => exact startCampaign_settles id
  | stopCampaign id => exact stopCampaign_settles id
  | restartCampaign id => exact restartCampaign_settles id
  | deleteCampaign id => exact deleteCampaign_settles id
  | setActiveLimit limit =>
    have hlimit : s.Settles { s with activeLimit := min 5000 (max 1 limit) } :=
      settles_of_eq rfl rfl rfl rfl
    exact hlimit.trans pumpCampaignQueue_settles
  | createSchedule id schedule payload window =>
    exact (saveSchedule_settles ..).trans (runScheduleTick_settles window)
  | removeSchedule id =>
    exact (terminate_settles _).trans (settles_of_eq rfl rfl rfl rfl)
  | cancelRun runId => exact terminate_settles _
  | removeRun runId => exact removeRun_settles runId
  | setProxy proxy => exact settles_of_eq rfl rfl rfl rfl
  | scheduleTick window => exact runScheduleTick_settles window
  | reconcile window => exact reconcileCampaignSchedules_settles window
  | pump => exact pumpCampaignQueue_settles
  | captured runId result now => exact capturedResult_settles ..
  | exited worker runId code => exact exitedRun_settles ..
  | workerLost worker code =>
    exact (lost_settles worker).trans (finalizeRuns_settles code _ _)
  | childExited runId code => exact childExited_settles ..

theorem fleetReady_settles (settings : Settings) (context : PumpContext) (ref : Ref) (now : Nat)
    (a : Answer) : s.Settles (s.fleetReady settings context ref now a).1 :=
  (modify_settles ..).trans (launchQueued_settles context ref now a)

theorem fleetFailed_settles (settings : Settings) (context : PumpContext) (ref : Ref)
    (a : Answer) : s.Settles (s.fleetFailed settings context ref a).1 :=
  (modify_settles ..).trans (pumpLoop_settles settings context a)

theorem tickAfter_settles (stamp : Nat) (a : Answer) : s.Settles (s.tickAfter stamp a).1 :=
  tickLoop_settles a.window _

theorem checkPayload_state (settings : Settings) (payload : Payload) (caller : Caller)
    (a : Answer) : (s.checkPayload settings payload caller a).1 = s := by
  unfold checkPayload
  split
  · rfl
  · split
    · rfl
    · split
      · rfl
      · split
        · rfl
        · split
          · rfl
          · rfl

/-- **A suspended handler settles**, unless it is a launch whose target is now allowed. -/
theorem resume_settles (settings : Settings) {call : Call} (a : Answer)
    (hcall : ∀ payload registry caller, call ≠ .target payload registry caller) :
    s.Settles (s.resume settings call a).state := by
  cases call with
  | policy payload caller =>
    show s.Settles (s.checkPayload settings payload caller a).1
    rw [checkPayload_state]
    exact .refl s
  | target payload registry caller => exact absurd rfl (hcall payload registry caller)
  | assigning runId worker caller =>
    unfold resume
    dsimp only
    split
    · exact modifyRun_settles fun r _ =>
        ⟨rfl, rfl, rfl, rfl, rfl, rfl, rfl, rfl, fun _ => rfl⟩
    · exact dropRun_settles runId
  | unassigned runId message caller => exact dropRun_settles runId
  | launched runId caller =>
    cases caller with
    | createRun => exact .refl s
    | pump context ref => exact (modify_settles ..).trans (afterLaunch_settles settings context a)
    | tick stamp ref windowKey =>
      have hstarted : s.Settles (s.scheduleStarted ref windowKey) :=
        settles_of_eq rfl rfl rfl rfl
      exact hstarted.trans (tickAfter_settles stamp a)
  | failed message caller =>
    cases caller with
    | createRun => exact .refl s
    | pump context ref => exact (modify_settles ..).trans (afterLaunch_settles settings context a)
    | tick stamp ref windowKey => exact tickAfter_settles stamp a
  | registryIds =>
    unfold resume
    dsimp only
    split
    · exact setPump_settles false
    · exact pumpLoop_settles settings _ a
  | readiness context ref now =>
    unfold resume
    dsimp only
    split
    · exact fleetFailed_settles settings context ref a
    · split
      · exact fleetReady_settles settings context ref now a
      · exact .refl s
  | enrollment context ref now =>
    unfold resume
    dsimp only
    split
    · exact fleetFailed_settles settings context ref a
    · exact (modify_settles ..).trans (fleetReady_settles settings context ref now a)
  | captures runId code => exact afterCaptures_settles runId code a
  | lastCapture runId code => exact endRun_settles runId code
  | publishing ref channel capture => exact recordCapture_settles ..
  | deleting id =>
    unfold resume
    dsimp only
    split
    · exact .refl s
    · exact settles_of_eq rfl rfl rfl rfl
  | saving ticket created id payload stage => exact save_settles ..
  | saved created ref draftOnly =>
    unfold resume
    dsimp only
    split
    · exact .refl s
    · exact endSaveHandler_settles ..
  | registering created ref draftOnly =>
    unfold resume
    dsimp only
    split
    · exact .refl s
    · exact (modify_settles ..).trans (endSaveHandler_settles ..)

/-! ## The admission -/

/-- What an admitted run was checked against. -/
structure Admits (settings : Settings) (s : Server) (payload : Payload) (port : Option Int) :
    Prop where
  campaign : ∀ id ∈ payload.campaignRecordId, ∀ r ∈ s.activeRuns, r.campaignRecordId ≠ some id
  port : ∀ p ∈ port, ∀ r ∈ s.activeRuns, r.proxyPort ≠ some p
  count : s.activeRuns.length < s.effectiveActiveLimit settings
  total : ¬usesPermits payload →
    concurrency s.activeRuns + payload.concurrent ≤ settings.maxTotalConcurrency
  browser : concurrency (browserRuns s.activeRuns) + requestedBrowser payload
    ≤ settings.maxBrowserConcurrency
  rate : requestRate s.activeRuns + requestedRps payload ≤ settings.maxTotalRps

theorem admission_ok {settings : Settings} {payload : Payload} {registry : Bool}
    {port : Option Int} (h : s.admission settings payload registry = .ok port) :
    Admits settings s payload port := by
  unfold admission at h
  dsimp only at h
  split at h
  · cases h
  rename_i hcampaign
  split at h
  · cases h
  split at h
  · cases h
  rename_i hport
  split at h
  · cases h
  rename_i hcount
  split at h
  · cases h
  rename_i htotal
  split at h
  · cases h
  rename_i hbrowser
  split at h
  · cases h
  rename_i hrate
  obtain rfl := Except.ok.inj h
  constructor
  · intro id hid r hr heq
    refine hcampaign (Option.any_eq_true .. |>.mpr ⟨id, hid, ?_⟩)
    exact List.any_eq_true.mpr ⟨r, hr, by simpa using heq⟩
  · intro p hp r hr heq
    refine hport (Option.any_eq_true .. |>.mpr ⟨p, hp, ?_⟩)
    exact List.any_eq_true.mpr ⟨r, hr, by simpa using heq⟩
  · omega
  · intro hpermits
    exact Int.not_lt.mp fun hlt => htotal ⟨hpermits, hlt⟩
  · omega
  · omega

/-- The ways a registered run is handed over. -/
inductive HandedOver (settings : Settings) (s : Server) (run : Run) (caller : Caller) :
    Suspended → Prop
  | spawned (hmode : run.executionMode = .dedicated) :
      HandedOver settings s run caller (s, [.launched run.id caller])
  | refused (hmode : run.executionMode = .shared) (message : String) :
      HandedOver settings s run caller (s, [.unassigned run.id message caller])
  | assigned (hmode : run.executionMode = .shared) (pool : WorkerPool) (worker : Worker)
      (hstart : s.pool.start settings.pool run.id = .ok (pool, worker)) :
      HandedOver settings s run caller
        ({ s with pool := pool }, [.assigning run.id worker.id caller])

theorem handOver_cases (settings : Settings) (run : Run) (caller : Caller) :
    HandedOver settings s run caller (s.handOver settings run caller) := by
  unfold handOver
  split
  · rename_i hmode
    exact .spawned hmode
  · rename_i hmode
    split
    · exact .refused hmode _
    · rename_i hstart
      exact .assigned hmode _ _ hstart

/-- The call a registered run leaves. -/
theorem HandedOver.call {settings : Settings} {run : Run} {caller : Caller} {next : Suspended}
    (h : HandedOver settings s run caller next) {call : Call} (hmem : call ∈ next.2) :
    (run.executionMode = .dedicated ∧ call = .launched run.id caller) ∨
      (∃ message, call = .unassigned run.id message caller) ∨
      ∃ worker, call = .assigning run.id worker caller := by
  cases h with
  | spawned hmode => exact Or.inl ⟨hmode, List.mem_singleton.mp hmem⟩
  | refused hmode message => exact Or.inr (Or.inl ⟨message, List.mem_singleton.mp hmem⟩)
  | assigned hmode pool worker hstart =>
    exact Or.inr (Or.inr ⟨worker.id, List.mem_singleton.mp hmem⟩)

theorem handedOver_single {settings : Settings} {run : Run} {caller : Caller} {next : Suspended}
    (h : HandedOver settings s run caller next) : ∃ call, next.2 = [call] := by
  cases h with
  | spawned hmode => exact ⟨_, rfl⟩
  | refused hmode message => exact ⟨_, rfl⟩
  | assigned hmode pool worker hstart => exact ⟨_, rfl⟩

/-- **What a launch does once its target is allowed**: it throws, or it registers the run it
admitted and hands it over. -/
theorem launch_cases (settings : Settings) (payload : Payload) (registry : Bool)
    (caller : Caller) (a : Answer) :
    (s.admits settings payload registry a = false ∧
      ∃ message, (s.launch settings payload registry caller a).2 = [.failed message caller] ∧
      ∃ n, s.sequence ≤ n ∧
        (s.launch settings payload registry caller a).1 = { s with sequence := n }) ∨
    s.admits settings payload registry a = true ∧
      ∃ port, s.admission settings payload registry = .ok port ∧
      HandedOver settings (s.register (s.newRun settings payload port))
        (s.newRun settings payload port) caller (s.launch settings payload registry caller a) := by
  unfold launch admits
  cases herror : a.error with
  | some message => exact Or.inl ⟨rfl, _, rfl, s.sequence, Nat.le_refl _, rfl⟩
  | none =>
    cases hadmission : s.admission settings payload registry with
    | error message => exact Or.inl ⟨rfl, _, rfl, s.sequence, Nat.le_refl _, rfl⟩
    | ok port =>
      dsimp only
      split
      · rename_i hproxy
        refine Or.inl ⟨?_, _, rfl, s.sequence + 1, Nat.le_succ _, rfl⟩
        simp [hproxy.1, hproxy.2]
      · rename_i hproxy
        refine Or.inr ⟨?_, port, rfl, handOver_cases ..⟩
        cases hport : port.isNone with
        | true => rfl
        | false =>
          have hsome : port.isSome = true := by simpa [Option.isNone_eq_false_iff] using hport
          have hpresent : s.proxy.isNone ≠ true := fun hnone => hproxy ⟨hsome, hnone⟩
          simpa [Option.isSome_iff_ne_none] using hpresent

/-! ## The tables of runs -/

/-- The tables of runs fit together: ids are issued once, and only known runs have a worker. -/
structure Sound (s : Server) : Prop where
  keyed : ∀ k r, s.run k = some r → r.id = k ∧ k ≤ s.sequence
  listed : ∀ k ∈ s.runs, (s.run k).isSome
  nodup : s.runs.Nodup
  owned : ∀ k, s.pool.taskOwners k ≠ none → (s.run k).isSome
  pool : s.pool.Sound

theorem Settles.sound {s' : Server} (h : s.Settles s') (hs : s.Sound) : s'.Sound where
  keyed k r' hr' := by
    obtain ⟨r, hr, hlater⟩ := h.run k r' hr'
    obtain ⟨hid, hk⟩ := hs.keyed k r hr
    exact ⟨hlater.id.trans hid, Nat.le_trans hk h.sequence⟩
  listed k hk := by
    obtain ⟨r, hr⟩ := Option.isSome_iff_exists.mp (hs.listed k (h.runs.subset hk))
    obtain ⟨r', hr', -⟩ := h.kept k r hr
    rw [hr']
    rfl
  nodup := h.runs.nodup hs.nodup
  owned k hk := by
    have hold : s.pool.taskOwners k ≠ none := by
      rcases h.owners k with howner | howner
      · exact absurd howner hk
      · exact howner ▸ hk
    obtain ⟨r, hr⟩ := Option.isSome_iff_exists.mp (hs.owned k hold)
    obtain ⟨r', hr', -⟩ := h.kept k r hr
    rw [hr']
    rfl
  pool := h.pool hs.pool

/-- The id of a new run is not in use. -/
theorem Sound.fresh (hs : s.Sound) {k : RunId} (hk : s.sequence < k) :
    s.run k = none ∧ k ∉ s.runs ∧ s.pool.taskOwners k = none := by
  have hrun : s.run k = none := by
    cases hr : s.run k with
    | none => rfl
    | some r => exact absurd (hs.keyed k r hr).2 (Nat.not_le.mpr hk)
  refine ⟨hrun, fun hmem => ?_, ?_⟩
  · have := hs.listed k hmem
    rw [hrun] at this
    exact absurd this (by simp)
  · by_contra howner
    have := hs.owned k howner
    rw [hrun] at this
    exact absurd this (by simp)

theorem register_run (run : Run) (k : RunId) :
    (s.register run).run k = if k = run.id then some run else s.run k := by
  show Function.update s.run run.id (some run) k = _
  by_cases hk : k = run.id
  · rw [hk, Function.update_self, if_pos rfl]
  · rw [Function.update_of_ne hk, if_neg hk]

theorem register_sound (hs : s.Sound) {run : Run} (hid : run.id = s.sequence + 1) :
    (s.register run).Sound where
  keyed k r hr := by
    rw [register_run] at hr
    show r.id = k ∧ k ≤ run.id
    split at hr
    · rename_i hk
      obtain rfl := Option.some.inj hr
      exact ⟨hk.symm, Nat.le_of_eq hk⟩
    · obtain ⟨hrid, hk⟩ := hs.keyed k r hr
      exact ⟨hrid, hid ▸ Nat.le_succ_of_le hk⟩
  listed k hk := by
    rw [register_run]
    split
    · rfl
    · rename_i hne
      rcases List.mem_append.mp hk with hk | hk
      · exact hs.listed k (List.mem_filter.mp hk).1
      · exact absurd (List.mem_singleton.mp hk) hne
  nodup := by
    refine List.nodup_append.mpr ⟨hs.nodup.filter _, List.nodup_singleton _, fun a ha b hb => ?_⟩
    rw [List.mem_singleton.mp hb]
    simpa using (List.mem_filter.mp ha).2
  owned k hk := by
    rw [register_run]
    split
    · rfl
    · exact hs.owned k hk
  pool := hs.pool

theorem handedOver_sound {settings : Settings} {run : Run} {caller : Caller} {next : Suspended}
    (hs : s.Sound) (hrun : s.run run.id = some run)
    (h : HandedOver settings s run caller next) : next.1.Sound := by
  cases h with
  | spawned hmode => exact hs
  | refused hmode message => exact hs
  | assigned hmode pool worker hstart =>
    refine ⟨hs.keyed, hs.listed, hs.nodup, fun k hk => ?_, WorkerPool.start_sound hs.pool hstart⟩
    have howners := WorkerPool.start_taskOwners hs.pool hstart
    by_cases hkr : k = run.id
    · show (s.run k).isSome
      rw [hkr, hrun]
      rfl
    · have hk' : pool.taskOwners k ≠ none := hk
      rw [howners, Function.update_of_ne hkr] at hk'
      exact hs.owned k hk'

/-- What a registered run changes, apart from what the pool notes about it. -/
structure Registered (s : Server) (new : Run) (s' : Server) : Prop where
  id : new.id = s.sequence + 1
  run : ∀ k, s'.run k = if k = new.id then some new else s.run k
  runs : s'.runs = s.runs ++ [new.id]
  taskOwners : ∀ k, k ≠ new.id → s'.pool.taskOwners k = s.pool.taskOwners k
  campaignIds : s'.campaignIds = s.campaignIds
  campaigns : s'.campaigns = s.campaigns
  campaign : s'.campaign = s.campaign
  stops : s'.stops = s.stops
  pump : s'.campaignPumpRunning = s.campaignPumpRunning

theorem handedOver_registered {settings : Settings} {run : Run} {caller : Caller}
    {next : Suspended} (hs : s.Sound) (hid : run.id = s.sequence + 1)
    (h : HandedOver settings (s.register run) run caller next) : Registered s run next.1 := by
  have hfresh : run.id ∉ s.runs := (hs.fresh (hid ▸ Nat.lt_succ_self _)).2.1
  have hruns : (s.register run).runs = s.runs ++ [run.id] := by
    show s.runs.filter (· ≠ run.id) ++ [run.id] = _
    congr 1
    refine List.filter_eq_self.mpr fun k hk => ?_
    have hne : k ≠ run.id := fun heq => hfresh (heq ▸ hk)
    simpa using hne
  have hrun := fun k => register_run (s := s) run k
  cases h with
  | spawned hmode => exact ⟨hid, hrun, hruns, fun _ _ => rfl, rfl, rfl, rfl, rfl, rfl⟩
  | refused hmode message => exact ⟨hid, hrun, hruns, fun _ _ => rfl, rfl, rfl, rfl, rfl, rfl⟩
  | assigned hmode pool worker hstart =>
    refine ⟨hid, hrun, hruns, fun k hk => ?_, rfl, rfl, rfl, rfl, rfl⟩
    show pool.taskOwners k = s.pool.taskOwners k
    rw [WorkerPool.start_taskOwners (register_sound hs hid).pool hstart]
    exact Function.update_of_ne hk ..

theorem launch_sound (hs : s.Sound) (settings : Settings) (payload : Payload) (registry : Bool)
    (caller : Caller) (a : Answer) : (s.launch settings payload registry caller a).1.Sound := by
  rcases launch_cases (s := s) settings payload registry caller a with
    ⟨-, message, -, n, hn, hstate⟩ | ⟨-, port, -, hhanded⟩
  · rw [hstate]
    refine ⟨fun k r hr => ?_, hs.listed, hs.nodup, hs.owned, hs.pool⟩
    obtain ⟨hid, hk⟩ := hs.keyed k r hr
    exact ⟨hid, Nat.le_trans hk hn⟩
  · refine handedOver_sound (register_sound hs rfl) ?_ hhanded
    rw [register_run, if_pos rfl]

theorem accept_sound (hs : s.Sound) (i : Input) : (s.accept i).state.Sound :=
  (accept_settles i).sound hs

theorem resume_sound (hs : s.Sound) (settings : Settings) (call : Call) (a : Answer) :
    (s.resume settings call a).state.Sound := by
  by_cases hcall : ∃ payload registry caller, call = .target payload registry caller
  · obtain ⟨payload, registry, caller, rfl⟩ := hcall
    exact launch_sound hs settings payload registry caller a
  · refine (resume_settles settings a fun payload registry caller heq => ?_).sound hs
    exact hcall ⟨payload, registry, caller, heq⟩

/-! ## The calls a piece suspends -/

theorem checkPayload_cases (settings : Settings) (payload : Payload) (caller : Caller)
    (a : Answer) :
    (∃ message, s.checkPayload settings payload caller a = (s, [.failed message caller])) ∨
      ∃ registry, a.error = none ∧ validate payload registry settings.noProxy s.proxy = none ∧
        s.checkPayload settings payload caller a = (s, [.target payload registry caller]) := by
  unfold checkPayload
  split
  · exact Or.inl ⟨_, rfl⟩
  · rename_i herror
    split
    · exact Or.inl ⟨_, rfl⟩
    · rename_i registry _
      split
      · exact Or.inl ⟨_, rfl⟩
      · rename_i hvalid
        split
        · exact Or.inl ⟨_, rfl⟩
        · split
          · exact Or.inl ⟨_, rfl⟩
          · exact Or.inr ⟨registry, herror, hvalid, rfl⟩

/-- What a run that is launched by hand or by a schedule is asked for, or that it was refused. -/
inductive Asks (caller : Caller) : Call → Prop
  | policy (payload : Payload) : Asks caller (.policy payload caller)
  | failed (message : String) : Asks caller (.failed message caller)

/-- A call that a command, a timer or an exit suspends. -/
inductive Arises (s : Server) : Input → Call → Prop
  | asks (i : Input) (caller : Caller) (call : Call)
      (hcaller : ∀ context ref, caller ≠ .pump context ref) (h : Asks caller call) :
      Arises s i call
  | registryIds (i : Input) (h : s.campaignPumpRunning = false) : Arises s i .registryIds
  | saving (i : Input) (created : Bool) (id : Option CampaignId) (payload : Payload) :
      Arises s i (.saving s.saveTickets created id payload .waiting)
  | deleting (id : CampaignId) (h : (s.stored id).isSome) :
      Arises s (.deleteCampaign id) (.deleting id)
  | captures (i : Input) (runId : RunId) (code : Int) (r : Run) (hr : s.run runId = some r)
      (hexit : r.exitCode = none) : Arises s i (.captures runId code)
  | publishing (i : Input) (ref : Option Ref) (channel : Channel) (capture : Capture) :
      Arises s i (.publishing ref channel capture)

theorem mem_startRun {payload : Payload} {caller : Caller} {call : Call}
    (h : call ∈ (s.startRun payload caller).2) : Asks caller call := by
  rcases startRun_eq (s := s) payload caller with heq | heq
  · rw [heq] at h
    rw [List.mem_singleton.mp h]
    exact .failed _
  · rw [heq] at h
    rw [List.mem_singleton.mp h]
    exact .policy payload

theorem mem_pumpCampaignQueue {call : Call} (h : call ∈ s.pumpCampaignQueue.2) :
    s.campaignPumpRunning = false ∧ call = .registryIds := by
  rcases pumpCampaignQueue_cases (s := s) with heq | ⟨hrunning, heq⟩
  · rw [heq] at h
    exact absurd h List.not_mem_nil
  · rw [heq] at h
    exact ⟨hrunning, List.mem_singleton.mp h⟩

theorem mem_tickLoop {window : ClockSchedule → Window} {entries : List ScheduleEntry}
    {call : Call} : ∀ {s : Server}, call ∈ (tickLoop window entries s).2 →
      ∃ stamp ref key, Asks (.tick stamp ref key) call := by
  induction entries with
  | nil =>
    intro s h
    exact absurd h List.not_mem_nil
  | cons entry rest ih =>
    intro s h
    unfold tickLoop at h
    split at h
    · exact ih h
    · dsimp only at h
      split at h
      · exact ih h
      · split at h
        · exact ih h
        · exact ⟨_, _, _, mem_startRun h⟩

theorem mem_finalizeRun {runId : RunId} {code : Int} {call : Call}
    (h : call ∈ (s.finalizeRun runId code).2) :
    ∃ r, s.run runId = some r ∧ r.exitCode = none ∧ call = .captures runId code := by
  rcases finalizeRun_cases (s := s) runId code with heq | ⟨r, hr, hexit, heq⟩
  · rw [heq] at h
    exact absurd h List.not_mem_nil
  · rw [heq] at h
    exact ⟨r, hr, hexit, List.mem_singleton.mp h⟩

/-- A run without an exit code had none before. -/
theorem Settles.exitCode_none {s' : Server} (h : s.Settles s') {k : RunId} {r' : Run}
    (hr' : s'.run k = some r') (hexit : r'.exitCode = none) :
    ∃ r, s.run k = some r ∧ r.exitCode = none := by
  obtain ⟨r, hr, hlater⟩ := h.run k r' hr'
  refine ⟨r, hr, ?_⟩
  by_contra hne
  have hsome := hlater.exitCode (Option.isSome_iff_ne_none.mpr hne)
  exact hne (hsome ▸ hexit)

theorem mem_finalizeRuns {code : Int} {ids : List RunId} {call : Call} :
    ∀ {s : Server}, call ∈ (finalizeRuns code ids s).2 →
      ∃ runId r, s.run runId = some r ∧ r.exitCode = none ∧ call = .captures runId code := by
  induction ids with
  | nil =>
    intro s h
    exact absurd h List.not_mem_nil
  | cons runId rest ih =>
    intro s h
    rcases List.mem_append.mp h with h | h
    · obtain ⟨r, hr, hexit, rfl⟩ := mem_finalizeRun h
      exact ⟨runId, r, hr, hexit, rfl⟩
    · obtain ⟨k, r', hr', hexit', rfl⟩ := ih h
      obtain ⟨r, hr, hexit⟩ := (finalizeRun_settles runId code).exitCode_none hr' hexit'
      exact ⟨k, r, hr, hexit, rfl⟩

theorem mem_beginCapture {run : Run} {result : CaptureResult} {now : Nat} {call : Call}
    (h : call ∈ (s.beginCapture run result now).2) :
    ∃ ref channel capture, call = .publishing ref channel capture := by
  unfold beginCapture at h
  dsimp only at h
  split at h
  · exact absurd h List.not_mem_nil
  · split at h
    · split at h
      · exact absurd h List.not_mem_nil
      · exact ⟨_, _, _, List.mem_singleton.mp h⟩
    · exact absurd h List.not_mem_nil

theorem reconcileCampaign_pump (window : ClockSchedule → Window) (id : CampaignId) :
    (s.reconcileCampaign window id).campaignPumpRunning = s.campaignPumpRunning := by
  have hterminate : ∀ run, (s.terminate run).campaignPumpRunning = s.campaignPumpRunning := by
    intro run
    rcases terminate_eq (s := s) run with h | ⟨r, -, h⟩
    · rw [h]
    · rw [h]
  unfold reconcileCampaign
  split
  · rfl
  · split
    · rfl
    · split
      · rfl
      · split
        · rfl
        · dsimp only
          split
          · exact hterminate _
          · split
            · rfl
            · rfl

theorem reconcileAll_pump (window : ClockSchedule → Window) (ids : List CampaignId) :
    ∀ s : Server, (ids.foldl (fun s id => s.reconcileCampaign window id) s).campaignPumpRunning
      = s.campaignPumpRunning := by
  induction ids with
  | nil => exact fun s => rfl
  | cons id ids ih =>
    intro s
    rw [List.foldl_cons, ih, reconcileCampaign_pump]

theorem mem_reconcile {window : ClockSchedule → Window} {call : Call}
    (h : call ∈ (s.reconcileCampaignSchedules window).2) :
    s.campaignPumpRunning = false ∧ call = .registryIds := by
  obtain ⟨hrunning, hcall⟩ := mem_pumpCampaignQueue h
  exact ⟨(reconcileAll_pump window s.campaignIds s).symm.trans hrunning, hcall⟩

/-- **The calls that commands, timers and exits suspend.** -/
theorem accept_arises {i : Input} {call : Call} (h : call ∈ (s.accept i).calls) :
    Arises s i call := by
  have htick : ∀ {window : ClockSchedule → Window} {entries : List ScheduleEntry} {s' : Server},
      call ∈ (tickLoop window entries s').2 → Arises s i call := by
    intro window entries s' hmem
    obtain ⟨stamp, ref, key, hasks⟩ := mem_tickLoop hmem
    exact .asks i (.tick stamp ref key) call (by simp) hasks
  have htickOf : ∀ {window : ClockSchedule → Window} {s' : Server},
      call ∈ (s'.runScheduleTick window).2 → Arises s i call := by
    intro window s' hmem
    unfold runScheduleTick at hmem
    split at hmem
    · exact absurd hmem List.not_mem_nil
    · exact htick hmem
  have hpump : ∀ {s' : Server}, call ∈ s'.pumpCampaignQueue.2 →
      s'.campaignPumpRunning = s.campaignPumpRunning → Arises s i call := by
    intro s' hmem hflag
    obtain ⟨hrunning, rfl⟩ := mem_pumpCampaignQueue hmem
    exact .registryIds i (hflag ▸ hrunning)
  cases i with
  | createRun payload => exact .asks _ .createRun call (by simp) (mem_startRun h)
  | createCampaign payload =>
    rw [List.mem_singleton.mp h]
    exact .saving _ true none payload
  | updateCampaign id payload =>
    rw [List.mem_singleton.mp h]
    exact .saving _ false id payload
  | startCampaign id =>
    replace h : call ∈ (s.startCampaign id).calls := h
    unfold startCampaign at h
    split at h
    · exact absurd h List.not_mem_nil
    · split at h
      · exact absurd h List.not_mem_nil
      · split at h
        · exact hpump h rfl
        · exact hpump h rfl
  | stopCampaign id =>
    replace h : call ∈ (s.stopCampaign id).calls := h
    unfold stopCampaign at h
    split at h
    · exact absurd h List.not_mem_nil
    · exact absurd h List.not_mem_nil
  | restartCampaign id =>
    replace h : call ∈ (s.restartCampaign id).calls := h
    unfold restartCampaign at h
    split at h
    · exact absurd h List.not_mem_nil
    · split at h
      · exact absurd h List.not_mem_nil
      · split at h
        · exact hpump h rfl
        · exact absurd h List.not_mem_nil
  | deleteCampaign id =>
    replace h : call ∈ (s.deleteCampaign id).calls := h
    unfold deleteCampaign at h
    split at h
    · exact absurd h List.not_mem_nil
    · rename_i hstored
      have hsome : (s.stored id).isSome := by rw [hstored]; rfl
      split at h
      · rw [List.mem_singleton.mp h]
        exact .deleting id hsome
      · rw [List.mem_singleton.mp h]
        exact .deleting id hsome
  | setActiveLimit limit => exact hpump h rfl
  | createSchedule id schedule payload window => exact htickOf h
  | removeSchedule id => exact absurd h List.not_mem_nil
  | cancelRun runId => exact absurd h List.not_mem_nil
  | removeRun runId =>
    replace h : call ∈ (s.removeRun runId).calls := h
    unfold removeRun at h
    split at h
    · exact absurd h List.not_mem_nil
    · exact absurd h List.not_mem_nil
  | setProxy proxy => exact absurd h List.not_mem_nil
  | scheduleTick window => exact htickOf h
  | reconcile window =>
    obtain ⟨hrunning, rfl⟩ := mem_reconcile h
    exact .registryIds _ hrunning
  | pump => exact hpump h rfl
  | captured runId result now =>
    replace h : call ∈ (s.capturedResult runId result now).2 := h
    unfold capturedResult at h
    split at h
    · exact absurd h List.not_mem_nil
    · obtain ⟨ref, channel, capture, rfl⟩ := mem_beginCapture h
      exact .publishing _ ref channel capture
  | exited worker runId code =>
    replace h : call ∈ (s.exited worker runId code).2 := h
    unfold exited at h
    split at h
    · exact absurd h List.not_mem_nil
    · obtain ⟨r, hr, hexit, rfl⟩ := mem_finalizeRun h
      exact .captures _ runId code r hr hexit
  | workerLost worker code =>
    obtain ⟨runId, r, hr, hexit, rfl⟩ := mem_finalizeRuns h
    exact .captures _ runId code r hr hexit
  | childExited runId code =>
    replace h : call ∈ (s.childExited runId code).2 := h
    unfold childExited at h
    split at h
    · obtain ⟨r, hr, hexit, rfl⟩ := mem_finalizeRun h
      exact .captures _ runId code r hr hexit
    · exact absurd h List.not_mem_nil

end Server

/-- The caller that awaits this piece of `startRun`. -/
def Call.caller : Call → Option Caller
  | .policy _ caller | .target _ _ caller | .assigning _ _ caller | .unassigned _ _ caller
  | .launched _ caller | .failed _ caller => some caller
  | _ => none

/-- The call is a suspended `pumpCampaignQueue`. -/
def Call.pumping (call : Call) : Bool :=
  match call with
  | .registryIds | .readiness .. | .enrollment .. => true
  | call =>
    match call.caller with
    | some (.pump ..) => true
    | _ => false

namespace Server

/-- What a suspended handler that goes on to `s'` suspends next. -/
inductive Continues (settings : Settings) (s : Server) (a : Answer) (s' : Server) :
    Call → Call → Prop
  /-- `startRun` threw. -/
  | threw (call : Call) (caller : Caller) (message : String) (hcaller : call.caller = some caller)
      (hfresh : ∀ runId, call ≠ .launched runId caller) :
      Continues settings s a s' call (.failed message caller)
  /-- `startRun` has checked its payload. -/
  | checked (payload : Payload) (registry : Bool) (caller : Caller) (herror : a.error = none)
      (hvalid : validate payload registry settings.noProxy s.proxy = none) :
      Continues settings s a s' (.policy payload caller) (.target payload registry caller)
  /-- `startRun` has registered its run. -/
  | handed (payload : Payload) (registry : Bool) (caller : Caller) (port : Option Int)
      (call : Call) (hadmission : s.admission settings payload registry = .ok port)
      (hhanded : HandedOver settings (s.register (s.newRun settings payload port))
        (s.newRun settings payload port) caller (s', [call])) :
      Continues settings s a s' (.target payload registry caller) call
  /-- The worker has the job. -/
  | assigned (runId : RunId) (worker : Nat) (caller : Caller) (herror : a.error = none) :
      Continues settings s a s' (.assigning runId worker caller) (.launched runId caller)
  /-- The pump has selected its next campaign. -/
  | selected (call : Call) (ref : Ref) (c : Campaign) (next : Call) (hpump : call.pumping = true)
      (hselected : Selected s' ref c) (hholds : PumpHolds ref c next) :
      Continues settings s a s' call next
  /-- The pump goes on with the campaign whose fleet it asked about. -/
  | ready (call : Call) (context : PumpContext) (ref : Ref) (now : Nat) (c : Campaign)
      (next : Call) (hcall : call = .readiness context ref now ∨ call = .enrollment context ref now)
      (hc : s'.campaign ref = some c) (hholds : PumpHolds ref c next) :
      Continues settings s a s' call next
  | enrollment (context : PumpContext) (ref : Ref) (now : Nat) :
      Continues settings s a s' (.readiness context ref now) (.enrollment context ref now)
  /-- The next entry of the schedules. -/
  | tick (call : Call) (stamp ref stamp' ref' : Nat) (key key' : String) (next : Call)
      (hcaller : call.caller = some (.tick stamp ref key))
      (hasks : Asks (.tick stamp' ref' key') next) : Continues settings s a s' call next
  | lastCapture (runId : RunId) (code : Int) :
      Continues settings s a s' (.captures runId code) (.lastCapture runId code)
  /-- The end of a run, or of a handler that saved a campaign, starts the pump. -/
  | pumped (call : Call) (hcall : call.caller = none) (hpump : call.pumping = false)
      (hrunning : s.campaignPumpRunning = false) : Continues settings s a s' call .registryIds
  | saving (ticket : Nat) (created : Bool) (id : Option CampaignId) (payload : Payload)
      (stage stage' : SaveStage) : Continues settings s a s'
        (.saving ticket created id payload stage) (.saving ticket created id payload stage')
  | saved (ticket : Nat) (created : Bool) (id : Option CampaignId) (payload : Payload) (ref : Ref) :
      Continues settings s a s' (.saving ticket created id payload (.durable ref))
        (.saved created ref payload.draftOnly)
  | registering (created : Bool) (ref : Ref) (draftOnly : Bool) :
      Continues settings s a s' (.saved created ref draftOnly)
        (.registering created ref draftOnly)

section Continues

variable {settings : Settings} {s : Server} {a : Answer} {call next : Call}

theorem mem_pumpLoop {context : PumpContext} (h : next ∈ (s.pumpLoop settings context a).2) :
    ∃ ref c, Selected (s.pumpLoop settings context a).1 ref c ∧ PumpHolds ref c next := by
  rcases pumpLoop_cases (s := s) settings context a with heq | ⟨ref, c, call, hsel, hholds, heq⟩
  · rw [heq] at h
    exact absurd h List.not_mem_nil
  · rw [heq] at h ⊢
    rw [List.mem_singleton.mp h]
    exact ⟨ref, c, hsel, hholds⟩

theorem mem_launchQueued {context : PumpContext} {ref : Ref} {now : Nat}
    (h : next ∈ (s.launchQueued context ref now a).2) :
    ∃ c, (s.launchQueued context ref now a).1.campaign ref = some c ∧ PumpHolds ref c next := by
  rcases launchQueued_cases (s := s) context ref now a with heq | ⟨c, call, hc, hholds, heq⟩
  · rw [heq] at h
    exact absurd h List.not_mem_nil
  · rw [heq] at h ⊢
    rw [List.mem_singleton.mp h]
    exact ⟨c, hc, hholds⟩

theorem mem_afterLaunch {context : PumpContext} (h : next ∈ (s.afterLaunch settings context a).2) :
    ∃ ref c, Selected (s.afterLaunch settings context a).1 ref c ∧ PumpHolds ref c next := by
  unfold afterLaunch at h ⊢
  dsimp only at h ⊢
  split at h
  · exact absurd h List.not_mem_nil
  · rename_i hgap
    rw [if_neg hgap]
    exact mem_pumpLoop h

theorem mem_endRun {runId : RunId} {code : Int} (h : next ∈ (s.endRun runId code).2) :
    s.campaignPumpRunning = false ∧ next = .registryIds := by
  unfold endRun at h
  split at h
  · exact absurd h List.not_mem_nil
  · rename_i run _
    obtain ⟨hrunning, hnext⟩ := mem_pumpCampaignQueue h
    refine ⟨?_, hnext⟩
    cases href : run.campaignRecordId.bind s.campaigns with
    | none =>
      rw [href] at hrunning
      exact hrunning
    | some ref =>
      rw [href] at hrunning
      exact hrunning

theorem mem_save {ticket : Nat} {created : Bool} {id : Option CampaignId} {payload : Payload}
    {stage : SaveStage} (h : next ∈ (s.save settings ticket created id payload stage a).calls) :
    (∃ stage', next = .saving ticket created id payload stage') ∨
      ∃ ref, stage = .durable ref ∧ next = .saved created ref payload.draftOnly := by
  have hone : ∀ {stage' : SaveStage}, next ∈ [Call.saving ticket created id payload stage'] →
      (∃ stage', next = .saving ticket created id payload stage') ∨
        ∃ ref, stage = .durable ref ∧ next = .saved created ref payload.draftOnly :=
    fun hmem => Or.inl ⟨_, List.mem_singleton.mp hmem⟩
  have hnil : next ∈ ([] : List Call) → (∃ stage', next = .saving ticket created id payload stage') ∨
        ∃ ref, stage = .durable ref ∧ next = .saved created ref payload.draftOnly :=
    fun hmem => absurd hmem List.not_mem_nil
  unfold save at h
  dsimp only at h
  split at h
  · split at h
    · exact hone h
    · exact hone h
  · split at h
    · exact hnil h
    · exact hone h
    · split at h
      · exact hnil h
      · exact hone h
  · exact hone h
  · split at h
    · exact hnil h
    · exact hnil h
    · exact hone h
  · split at h
    · exact hnil h
    · exact hnil h
    · exact hone h
  · split at h
    · exact hnil h
    · exact hone h
  · split at h
    · exact hone h
    · exact hone h
  · split at h
    · exact hone h
    · exact hone h
  · exact hnil h
  · split at h
    · exact hnil h
    · exact Or.inr ⟨_, rfl, List.mem_singleton.mp h⟩

/-- Reconciliation that leaves no pump running found none. -/
theorem reconcile_pump {window : ClockSchedule → Window}
    (h : (s.reconcileCampaignSchedules window).1.campaignPumpRunning = false) :
    s.campaignPumpRunning = false := by
  unfold reconcileCampaignSchedules at h
  rcases pumpCampaignQueue_cases
      (s := s.campaignIds.foldl (fun s id => s.reconcileCampaign window id) s) with
    heq | ⟨hrunning, -⟩
  · rw [heq] at h
    exact (reconcileAll_pump window s.campaignIds s).symm.trans h
  · exact (reconcileAll_pump window s.campaignIds s).symm.trans hrunning

theorem mem_endSaveHandler {created : Bool} {ref : Ref} {draftOnly : Bool}
    (h : next ∈ (s.endSaveHandler created ref draftOnly a).2) :
    s.campaignPumpRunning = false ∧ next = .registryIds := by
  unfold endSaveHandler at h
  split at h
  · dsimp only at h
    rcases List.mem_append.mp h with h | h
    · obtain ⟨hrunning, hnext⟩ := mem_reconcile h
      exact ⟨hrunning, hnext⟩
    · obtain ⟨hrunning, hnext⟩ := mem_pumpCampaignQueue h
      have hbefore := reconcile_pump hrunning
      exact ⟨hbefore, hnext⟩
  · exact mem_pumpCampaignQueue h

/-- **The calls that a suspended handler suspends next.** -/
theorem resume_continues (h : next ∈ (s.resume settings call a).calls) :
    Continues settings s a (s.resume settings call a).state call next := by
  cases call with
  | policy payload caller =>
    replace h : next ∈ (s.checkPayload settings payload caller a).2 := h
    rcases checkPayload_cases (s := s) settings payload caller a with
      ⟨message, heq⟩ | ⟨registry, herror, hvalid, heq⟩
    · rw [heq] at h
      rw [List.mem_singleton.mp h]
      exact .threw _ caller message rfl (by simp)
    · rw [heq] at h
      rw [List.mem_singleton.mp h]
      exact .checked payload registry caller herror hvalid
  | target payload registry caller =>
    replace h : next ∈ (s.launch settings payload registry caller a).2 := h
    rcases launch_cases (s := s) settings payload registry caller a with
      ⟨-, message, hcalls, -⟩ | ⟨-, port, hadmission, hhanded⟩
    · rw [hcalls] at h
      rw [List.mem_singleton.mp h]
      exact .threw _ caller message rfl (by simp)
    · obtain ⟨only, honly⟩ := handedOver_single hhanded
      have hpair : s.launch settings payload registry caller a
          = ((s.launch settings payload registry caller a).1, [only]) := by rw [← honly]
      rw [honly] at h
      obtain rfl := List.mem_singleton.mp h
      exact .handed payload registry caller port _ hadmission (hpair ▸ hhanded)
  | assigning runId worker caller =>
    unfold resume at h
    dsimp only at h
    split at h
    · rename_i herror
      rw [List.mem_singleton.mp h]
      exact .assigned runId worker caller herror
    · rw [List.mem_singleton.mp h]
      exact .threw _ caller _ rfl (by simp)
  | unassigned runId message caller =>
    rw [List.mem_singleton.mp h]
    exact .threw _ caller _ rfl (by simp)
  | launched runId caller =>
    cases caller with
    | createRun => exact absurd h List.not_mem_nil
    | pump context ref =>
      obtain ⟨ref', c, hsel, hholds⟩ := mem_afterLaunch h
      exact .selected _ ref' c next rfl hsel hholds
    | tick stamp ref key =>
      obtain ⟨stamp', ref', key', hasks⟩ := mem_tickLoop h
      exact .tick _ stamp ref stamp' ref' key key' next rfl hasks
  | failed message caller =>
    cases caller with
    | createRun => exact absurd h List.not_mem_nil
    | pump context ref =>
      obtain ⟨ref', c, hsel, hholds⟩ := mem_afterLaunch h
      exact .selected _ ref' c next rfl hsel hholds
    | tick stamp ref key =>
      obtain ⟨stamp', ref', key', hasks⟩ := mem_tickLoop h
      exact .tick _ stamp ref stamp' ref' key key' next rfl hasks
  | registryIds =>
    cases herror : a.error with
    | some message =>
      simp only [resume, herror] at h
      exact absurd h List.not_mem_nil
    | none =>
      simp only [resume, herror] at h ⊢
      obtain ⟨ref, c, hsel, hholds⟩ := mem_pumpLoop h
      exact .selected _ ref c next rfl hsel hholds
  | readiness context ref now =>
    cases herror : a.error with
    | some message =>
      simp only [resume, herror] at h ⊢
      obtain ⟨ref', c, hsel, hholds⟩ := mem_pumpLoop h
      exact .selected _ ref' c next rfl hsel hholds
    | none =>
      by_cases hfound : a.readiness.found = true
      · simp only [resume, herror, hfound, if_true] at h ⊢
        obtain ⟨c, hc, hholds⟩ := mem_launchQueued h
        exact .ready _ context ref now c next (Or.inl rfl) hc hholds
      · simp only [resume, herror, hfound, Bool.false_eq_true, if_false] at h ⊢
        rw [List.mem_singleton.mp h]
        exact .enrollment context ref now
  | enrollment context ref now =>
    cases herror : a.error with
    | some message =>
      simp only [resume, herror] at h ⊢
      obtain ⟨ref', c, hsel, hholds⟩ := mem_pumpLoop h
      exact .selected _ ref' c next rfl hsel hholds
    | none =>
      simp only [resume, herror] at h ⊢
      obtain ⟨c, hc, hholds⟩ := mem_launchQueued h
      exact .ready _ context ref now c next (Or.inr rfl) hc hholds
  | captures runId code =>
    replace h : next ∈ (s.afterCaptures runId code a).2 := h
    unfold afterCaptures at h
    split at h
    · exact absurd h List.not_mem_nil
    · split at h
      · rw [List.mem_singleton.mp h]
        exact .lastCapture runId code
      · obtain ⟨hrunning, rfl⟩ := mem_endRun h
        exact .pumped _ rfl rfl hrunning
  | lastCapture runId code =>
    obtain ⟨hrunning, rfl⟩ := mem_endRun h
    exact .pumped _ rfl rfl hrunning
  | publishing ref channel capture => exact absurd h List.not_mem_nil
  | deleting id =>
    unfold resume at h
    dsimp only at h
    split at h
    · exact absurd h List.not_mem_nil
    · exact absurd h List.not_mem_nil
  | saving ticket created id payload stage =>
    rcases mem_save h with ⟨stage', rfl⟩ | ⟨ref, rfl, rfl⟩
    · exact .saving ticket created id payload stage stage'
    · exact .saved ticket created id payload ref
  | saved created ref draftOnly =>
    unfold resume at h
    dsimp only at h
    split at h
    · rw [List.mem_singleton.mp h]
      exact .registering created ref draftOnly
    · obtain ⟨hrunning, rfl⟩ := mem_endSaveHandler h
      exact .pumped _ rfl rfl hrunning
  | registering created ref draftOnly =>
    unfold resume at h
    dsimp only at h
    split at h
    · exact absurd h List.not_mem_nil
    · obtain ⟨hrunning, rfl⟩ := mem_endSaveHandler h
      exact .pumped _ rfl rfl hrunning

end Continues

end Server

end LinkSuffix.ControlServer
