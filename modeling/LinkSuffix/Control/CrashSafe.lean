import LinkSuffix.Control.ProxySelection
import Mathlib.Data.List.MinMax
import Mathlib.Order.Nat

/-!
# Crash safety of a proxy selection

What the two stores hold while a selection is settled, whatever fails and wherever the process
stops.

* `Safe`: what holds of the campaigns in memory and of every list that is or may be persisted, and
  at each stage of a save; `safe_next` is its step lemma.
* `Frozen`: a pending campaign that a new process has loaded; `frozen_next` is its step lemma.
* **`selections_crash_safe`**: the persisted lists are safe to load and a failed save leaves the
  campaign held, in every run whose last durable writes succeed and whose pending campaigns are left
  alone by launches and runs that began before.
* **`lastWriteLost`**: a save that fails at its last durable write.
-/

namespace LinkSuffix.ControlServer.ProxySelection

open Lib

/-! ## What is promised -/

/-- Neither running nor to be run. -/
structure Halted (c : Campaign) : Prop where
  stopped : c.status = .stopped
  idle : c.desiredRunning = false

/-- The policy is the one that the campaign selects. -/
def Matches (policy : CampaignId → Choice) (r : Saved) : Prop :=
  ∀ choice, r.choice = some choice → policy r.id = choice

/-- A campaign of this id is held: its selection is pending and it is halted. -/
def HeldBack (s : Process) (id : CampaignId) : Prop :=
  ∀ r ∈ s.campaigns, r.id = id → r.campaign.proxySelectionPending = true ∧ Halted r.campaign

/-- A campaign of this id is not queued and neither started nor being started. -/
def Inert (s : Process) (id : CampaignId) : Prop :=
  ∀ r ∈ s.campaigns, r.id = id →
    Halted r.campaign ∧ (∀ launch ∈ s.launching, launch.id ≠ id) ∧ id ∉ s.running

/-- The event is neither a save of the campaign nor another crash. -/
def Event.Leaves (id : CampaignId) : Event → Prop
  | .save saved _ _ _ _ => saved ≠ some id
  | .crash _ => False
  | _ => True

/-- A list that may be loaded after a crash: the policies match what its campaigns select, and a
campaign whose selection is pending cannot be queued, started or restarted. -/
structure Loadable (s : Process) (fromDatabase : Bool) (snapshot : Snapshot) : Prop where
  matched : ∀ r ∈ snapshot, r.campaign.proxySelectionPending = false → Matches s.policy r
  inert : ∀ r ∈ snapshot, r.campaign.proxySelectionPending = true →
    ∀ later : List Event, (∀ e ∈ later, e.Leaves r.id) →
      Inert (processes.run (s.reload fromDatabase snapshot) later) r.id

/-- A save of a changed selection that fails leaves the campaign held. -/
def HeldOnFailure (s : Process) (e : Event) : Prop :=
  ∀ id, processes.reply s e = some id → HeldBack (processes.next s e) id

/-- **Crash safety**: at every point of a run both persisted lists are safe to load, and every failed
save leaves its campaign held. -/
def CrashSafe (es : List Event) : Prop :=
  (∀ earlier, earlier <+: es →
    Loadable (processes.run {} earlier) false (processes.run {} earlier).file ∧
      Loadable (processes.run {} earlier) true (processes.run {} earlier).database.stored) ∧
  processes.Along HeldOnFailure {} es

/-- **The condition**: the last durable write of a settled selection succeeds, the pump records no
launch on a campaign whose selection is pending, and no run of such a campaign ends with a state
other than stopped. A save that leaves the selection as it is finds the policy it selects. -/
def Steady (s : Process) : Event → Prop
  | .save id _ _ choice _ => ∀ selected, choice = some selected →
      s.changes (id.bind s.get) selected = false →
        s.policy (((id.bind s.get).map Saved.id).getD (s.campaignSequence + 1)) = selected
  | .settle outcome _ => ∀ id, s.stage = .durable id true → outcome = .ok
  | .launched launch _ _ _ => launch ∈ s.launching → launch.pump = true → ∀ r ∈ s.campaigns,
      r.id = launch.id → r.ref = launch.ref → r.campaign.proxySelectionPending = false
  | .ended id _ code _ => id ∈ s.running → ∀ r ∈ s.campaigns, r.id = id →
      r.campaign.proxySelectionPending = true →
        r.campaign.restartPending = false ∧ r.campaign.config.schedule = none ∧ code ≠ 0
  | _ => True

/-! ## Lists -/

/-- What holds of every campaign list, in memory or persisted. -/
structure Sound (policy : CampaignId → Choice) (snapshot : Snapshot) : Prop where
  unique : (snapshot.map Saved.id).Nodup
  halted : ∀ r ∈ snapshot, r.campaign.proxySelectionPending = true → Halted r.campaign
  matched : ∀ r ∈ snapshot, r.campaign.proxySelectionPending = false → Matches policy r

/-- The selection of the campaign is pending in the list. -/
def Drafted (id : CampaignId) (snapshot : Snapshot) : Prop :=
  ∀ r ∈ snapshot, r.id = id → r.campaign.proxySelectionPending = true

/-- A write to a campaign that leaves its selection, and leaves it halted while it is pending. -/
structure Rewritten (r r' : Saved) : Prop where
  id : r'.id = r.id
  choice : r'.choice = r.choice
  pending : r'.campaign.proxySelectionPending = r.campaign.proxySelectionPending
  halted : r.campaign.proxySelectionPending = true → Halted r.campaign → Halted r'.campaign

theorem Rewritten.refl (r : Saved) : Rewritten r r :=
  ⟨rfl, rfl, rfl, fun _ h => h⟩

section Lists

variable {policy : CampaignId → Choice} {snapshot rows : Snapshot} {id : CampaignId}

theorem Sound.rewrite (h : Sound policy snapshot)
    (hids : (rows.map Saved.id).Sublist (snapshot.map Saved.id))
    (hrows : ∀ r' ∈ rows, ∃ r ∈ snapshot, Rewritten r r') : Sound policy rows := by
  refine ⟨h.unique.sublist hids, fun r' hr' hpending => ?_, fun r' hr' hready => ?_⟩
  · obtain ⟨r, hr, hsame⟩ := hrows r' hr'
    rw [hsame.pending] at hpending
    exact hsame.halted hpending (h.halted r hr hpending)
  · obtain ⟨r, hr, hsame⟩ := hrows r' hr'
    rw [hsame.pending] at hready
    have hmatched := h.matched r hr hready
    unfold Matches at hmatched ⊢
    rwa [hsame.id, hsame.choice]

theorem Drafted.rewrite (h : Drafted id snapshot)
    (hrows : ∀ r' ∈ rows, ∃ r ∈ snapshot, Rewritten r r') : Drafted id rows := by
  intro r' hr' hid
  obtain ⟨r, hr, hsame⟩ := hrows r' hr'
  rw [hsame.pending]
  exact h r hr (hsame.id ▸ hid)

/-- A list in which the campaign is pending says nothing about its policy. -/
theorem Sound.assign (h : Sound policy snapshot) (hdrafted : Drafted id snapshot)
    (choice : Choice) : Sound (Function.update policy id choice) snapshot := by
  refine ⟨h.unique, h.halted, fun r hr hready => ?_⟩
  have hne : r.id ≠ id := by
    intro hid
    rw [hdrafted r hr hid] at hready
    cases hready
  intro selected hselected
  rw [Function.update_of_ne hne]
  exact h.matched r hr hready selected hselected

/-- A campaign is stored. -/
theorem Sound.upsert {row : Saved} (h : Sound policy snapshot)
    (hhalted : row.campaign.proxySelectionPending = true → Halted row.campaign)
    (hmatched : row.campaign.proxySelectionPending = false → Matches policy row) :
    Sound policy (upsertKey Saved.id row snapshot) := by
  refine ⟨nodup_upsertKey row h.unique, fun r hr hpending => ?_, fun r hr hready => ?_⟩
  · rcases mem_upsertKey.mp hr with rfl | ⟨hr, -⟩
    · exact hhalted hpending
    · exact h.halted r hr hpending
  · rcases mem_upsertKey.mp hr with rfl | ⟨hr, -⟩
    · exact hmatched hready
    · exact h.matched r hr hready

/-- The campaigns, with a write to those of one id. -/
theorem mem_updateKey {f : Campaign → Campaign} {r' : Saved}
    (h : r' ∈ updateKey Saved.id id (fun r => { r with campaign := f r.campaign }) snapshot) :
    ∃ r ∈ snapshot, (r.id = id ∧ r' = { r with campaign := f r.campaign }) ∨
      (r.id ≠ id ∧ r' = r) := by
  obtain ⟨r, hr, ⟨hid, rfl⟩ | ⟨hid, rfl⟩⟩ := mem_updateWhere.mp h
  · exact ⟨r, hr, Or.inl ⟨by simpa using hid, rfl⟩⟩
  · exact ⟨r', hr, Or.inr ⟨by simpa using hid, rfl⟩⟩

theorem Sound.modify {f : Campaign → Campaign} (h : Sound policy snapshot)
    (hid : ∀ c, (f c).id = c.id)
    (hhalted : ∀ r ∈ snapshot, r.id = id → (f r.campaign).proxySelectionPending = true →
      Halted (f r.campaign))
    (hmatched : ∀ r ∈ snapshot, r.id = id → (f r.campaign).proxySelectionPending = false →
      Matches policy { r with campaign := f r.campaign }) :
    Sound policy (updateKey Saved.id id (fun r => { r with campaign := f r.campaign }) snapshot) := by
  refine ⟨?_, fun r' hr' hpending => ?_, fun r' hr' hready => ?_⟩
  · rw [updateKey, map_updateWhere fun r _ => hid r.campaign]
    exact h.unique
  · obtain ⟨r, hr, ⟨hstored, rfl⟩ | ⟨-, rfl⟩⟩ := mem_updateKey hr'
    · exact hhalted r hr hstored hpending
    · exact h.halted r' hr hpending
  · obtain ⟨r, hr, ⟨hstored, rfl⟩ | ⟨-, rfl⟩⟩ := mem_updateKey hr'
    · exact hmatched r hr hstored hready
    · exact h.matched r' hr hready

/-- The campaign is held in memory. -/
theorem Sound.hold (h : Sound policy snapshot) (id : CampaignId) :
    Sound policy (updateKey Saved.id id (fun r => { r with campaign := r.campaign.holdSelection })
      snapshot) :=
  h.modify (fun _ => rfl) (fun _ _ _ _ => ⟨rfl, rfl⟩) (fun _ _ _ hready => by cases hready)

/-- A list as the next process loads it. -/
theorem Sound.reloaded (h : Sound policy snapshot) (fromDatabase : Bool) :
    Sound policy (snapshot.map (Saved.reloaded fromDatabase)) := by
  refine ⟨?_, fun r' hr' hpending => ?_, fun r' hr' hready => ?_⟩
  · rw [List.map_map]
    exact h.unique
  · obtain ⟨r, hr, rfl⟩ := List.mem_map.mp hr'
    obtain ⟨hstopped, hidle⟩ := h.halted r hr hpending
    refine ⟨?_, hidle⟩
    simp [Saved.reloaded, hstopped]
  · obtain ⟨r, hr, rfl⟩ := List.mem_map.mp hr'
    exact h.matched r hr hready

end Lists

/-! ## The invariant -/

/-- The campaign is pending in every persisted list, and in every list that will be persisted. -/
def AllDrafted (s : Process) (id : CampaignId) : Prop :=
  Drafted id s.file ∧ s.database.Each (Drafted id)

/-- The draft of a save: pending, with the selection to settle. -/
def Draft (s : Process) (id : CampaignId) (choice : Choice) : Prop :=
  ∀ r ∈ s.campaigns, r.id = id →
    r.campaign.proxySelectionPending = true ∧ r.choice = some choice

theorem Draft.drafted {s : Process} {id : CampaignId} {choice : Choice} (h : Draft s id choice) :
    Drafted id s.campaigns :=
  fun r hr hid => (h r hr hid).1

/-- What holds where the save is suspended. -/
def Staged (s : Process) : Prop :=
  match s.stage with
  | .holding id choice _ => Draft s id choice ∧
      s.database.Newer fun snapshot => Drafted id snapshot ∧ Drafted id s.file
  | .assigning id choice _ => Draft s id choice ∧ AllDrafted s id
  | .refused id => Drafted id s.campaigns
  | _ => True

structure Safe (s : Process) : Prop where
  memory : Sound s.policy s.campaigns
  file : Sound s.policy s.file
  database : s.database.Each (Sound s.policy)
  staged : Staged s

theorem safe_empty : Safe {} :=
  ⟨⟨by simp, by simp, by simp⟩, ⟨by simp, by simp, by simp⟩,
    ⟨⟨by simp, by simp, by simp⟩, by simp⟩, trivial⟩

section Preserved

variable {s : Process}

theorem Safe.persist (h : Safe s) (written : Bool) : Safe (s.persist written) := by
  cases written with
  | false => exact h
  | true =>
    refine ⟨h.memory, h.memory, h.database.enqueue h.memory, ?_⟩
    have hstaged := h.staged
    unfold Staged at hstaged ⊢
    show match s.stage with
      | .holding id choice _ => Draft s id choice ∧
          (s.database.enqueue s.campaigns).Newer fun snapshot =>
            Drafted id snapshot ∧ Drafted id s.campaigns
      | .assigning id choice _ => Draft s id choice ∧ AllDrafted _ id
      | .refused id => Drafted id s.campaigns
      | _ => True
    cases hstage : s.stage with
    | holding id choice settledStatus =>
      rw [hstage] at hstaged
      obtain ⟨hdraft, hnewer⟩ := hstaged
      refine ⟨hdraft, (hnewer.mono fun snapshot hsnapshot => ?_).enqueue ?_⟩
      · exact ⟨hsnapshot.1, hdraft.drafted⟩
      · exact ⟨hdraft.drafted, hdraft.drafted⟩
    | assigning id choice settledStatus =>
      rw [hstage] at hstaged
      obtain ⟨hdraft, hall⟩ := hstaged
      exact ⟨hdraft, hdraft.drafted, hall.2.enqueue hdraft.drafted⟩
    | refused id =>
      rw [hstage] at hstaged
      exact hstaged
    | idle => trivial
    | settled id => trivial
    | durable id changed => trivial

/-- A write to the campaigns that leaves their selections. -/
theorem Safe.rewrite (h : Safe s) {rows : Snapshot}
    (hids : (rows.map Saved.id).Sublist (s.campaigns.map Saved.id))
    (hrows : ∀ r' ∈ rows, ∃ r ∈ s.campaigns, Rewritten r r') :
    Safe { s with campaigns := rows } := by
  refine ⟨h.memory.rewrite hids hrows, h.file, h.database, ?_⟩
  have hdraft : ∀ {id choice}, Draft s id choice → Draft { s with campaigns := rows } id choice := by
    intro id choice hdraft r' hr' hid
    obtain ⟨r, hr, hsame⟩ := hrows r' hr'
    obtain ⟨hpending, hchoice⟩ := hdraft r hr (hsame.id ▸ hid)
    exact ⟨hsame.pending.trans hpending, hsame.choice.trans hchoice⟩
  have hstaged := h.staged
  unfold Staged at hstaged ⊢
  show match s.stage with
    | .holding id choice _ => Draft { s with campaigns := rows } id choice ∧
        s.database.Newer fun snapshot => Drafted id snapshot ∧ Drafted id s.file
    | .assigning id choice _ => Draft { s with campaigns := rows } id choice ∧ AllDrafted _ id
    | .refused id => Drafted id rows
    | _ => True
  cases hstage : s.stage with
  | holding id choice settledStatus =>
    rw [hstage] at hstaged
    exact ⟨hdraft hstaged.1, hstaged.2⟩
  | assigning id choice settledStatus =>
    rw [hstage] at hstaged
    exact ⟨hdraft hstaged.1, hstaged.2⟩
  | refused id =>
    rw [hstage] at hstaged
    exact Drafted.rewrite hstaged hrows
  | idle => trivial
  | settled id => trivial
  | durable id changed => trivial

/-- A write to the fields of one campaign. -/
theorem Safe.modify (h : Safe s) {id : CampaignId} {f : Campaign → Campaign}
    (hf : ∀ r ∈ s.campaigns, r.id = id → Rewritten r { r with campaign := f r.campaign }) :
    Safe (s.modify id f) := by
  have hrows : ∀ r' ∈ (s.modify id f).campaigns, ∃ r ∈ s.campaigns, Rewritten r r' := by
    intro r' hr'
    obtain ⟨r, hr, ⟨hid, rfl⟩ | ⟨-, rfl⟩⟩ := mem_updateKey hr'
    · exact ⟨r, hr, hf r hr hid⟩
    · exact ⟨r', hr, .refl r'⟩
  have hids : (s.modify id f).campaigns.map Saved.id = s.campaigns.map Saved.id := by
    show (updateKey Saved.id id _ s.campaigns).map Saved.id = _
    rw [updateKey, updateWhere, List.map_map]
    refine List.map_congr_left fun r hr => ?_
    simp only [Function.comp_apply, decide_eq_true_eq]
    split
    · rename_i hid
      exact (hf r hr hid).id
    · rfl
  exact h.rewrite (hids ▸ List.Sublist.refl _) hrows

/-- Any write to a campaign whose selection is not pending. -/
theorem rewritten_of_ready {r : Saved} {c : Campaign} (hready : r.campaign.proxySelectionPending = false)
    (hid : c.id = r.campaign.id)
    (hpending : c.proxySelectionPending = r.campaign.proxySelectionPending) :
    Rewritten r { r with campaign := c } :=
  ⟨hid, rfl, hpending, fun h => by rw [hready] at h; cases h⟩

theorem Safe.modifyReady (h : Safe s) {id : CampaignId} {f : Campaign → Campaign}
    (hid : ∀ c, (f c).id = c.id)
    (hpending : ∀ c, (f c).proxySelectionPending = c.proxySelectionPending) :
    Safe (s.modifyReady id f) := by
  refine h.modify fun r hr _ => ?_
  show Rewritten r { r with
    campaign := if r.campaign.proxySelectionPending then r.campaign else f r.campaign }
  cases hready : r.campaign.proxySelectionPending with
  | true => exact .refl r
  | false => exact rewritten_of_ready hready (hid _) (hpending _)

theorem reconciled_keeps (window : ClockSchedule → Window) (c : Campaign) :
    (s.reconciled window c).id = c.id ∧
      (s.reconciled window c).proxySelectionPending = c.proxySelectionPending := by
  unfold Process.reconciled
  by_cases hpending : c.proxySelectionPending = true
  · rw [if_pos hpending]
    exact ⟨rfl, rfl⟩
  · rw [if_neg hpending]
    split
    · exact ⟨rfl, rfl⟩
    · split_ifs <;> exact ⟨rfl, rfl⟩

theorem reconciled_rewritten (window : ClockSchedule → Window) (r : Saved) :
    Rewritten r { r with campaign := s.reconciled window r.campaign } := by
  obtain ⟨hid, hsame⟩ := reconciled_keeps (s := s) window r.campaign
  cases hready : r.campaign.proxySelectionPending with
  | true =>
    have hkept : s.reconciled window r.campaign = r.campaign := by
      unfold Process.reconciled
      rw [if_pos hready]
    rw [hkept]
    exact .refl r
  | false => exact rewritten_of_ready hready hid hsame

/-- `startRun` leaves the campaigns and the stores. -/
theorem Safe.startRun (h : Safe s) (id : CampaignId) (pump : Bool) : Safe (s.startRun id pump) := by
  unfold Process.startRun
  split
  · split_ifs
    · exact h
    · exact ⟨h.memory, h.file, h.database, h.staged⟩
  · split_ifs
    · exact h
    · exact h
    · exact ⟨h.memory, h.file, h.database, h.staged⟩

theorem Safe.recordLaunch (h : Safe s) {launch : Launch} {f : Campaign → Campaign}
    (hready : launch.pump = true → ∀ r ∈ s.campaigns, r.id = launch.id → r.ref = launch.ref →
      r.campaign.proxySelectionPending = false)
    (hid : ∀ c, (f c).id = c.id)
    (hpending : ∀ c, (f c).proxySelectionPending = c.proxySelectionPending) :
    Safe (s.recordLaunch launch f) := by
  unfold Process.recordLaunch
  split_ifs with hpump
  · refine h.rewrite ?_ fun r' hr' => ?_
    · rw [map_updateWhere fun r _ => hid r.campaign]
    · obtain ⟨r, hr, ⟨hheld, rfl⟩ | ⟨-, rfl⟩⟩ := mem_updateWhere.mp hr'
      · obtain ⟨hstored, href⟩ := of_decide_eq_true hheld
        exact ⟨r, hr, rewritten_of_ready (hready hpump r hr hstored href) (hid _) (hpending _)⟩
      · exact ⟨r', hr, .refl r'⟩
  · exact h

theorem Safe.launched (h : Safe s) {launch : Launch} {run : Option RunId} {now : Nat}
    {written : Bool} (hsteady : Steady s (.launched launch run now written)) :
    Safe (s.launched launch run now written) := by
  unfold Process.launched
  split_ifs with hlaunch
  · have hready := hsteady hlaunch
    cases run with
    | some runId =>
      have hbegun : Safe { s with
          launching := s.launching.erase launch, running := s.running ++ [launch.id] } :=
        ⟨h.memory, h.file, h.database, h.staged⟩
      exact (hbegun.recordLaunch (f := .launched runId) hready (fun _ => rfl)
        fun _ => rfl).persist written
    | none =>
      have hfailed : Safe { s with launching := s.launching.erase launch } :=
        ⟨h.memory, h.file, h.database, h.staged⟩
      exact (hfailed.recordLaunch (f := .retry now) hready (fun _ => rfl)
        fun _ => rfl).persist written
  · exact h

/-- What the end of a run leaves of a campaign. -/
theorem finalize_rewritten {r : Saved} {continuous : Bool} {code : Int}
    (hpending : r.campaign.proxySelectionPending = true →
      r.campaign.restartPending = false ∧ r.campaign.config.schedule = none ∧ code ≠ 0) :
    Rewritten r { r with campaign := r.campaign.finalize continuous code } := by
  have hid : (r.campaign.finalize continuous code).id = r.campaign.id := by
    unfold Campaign.finalize
    split_ifs <;> rfl
  have hsame : (r.campaign.finalize continuous code).proxySelectionPending =
      r.campaign.proxySelectionPending := by
    unfold Campaign.finalize
    split_ifs <;> rfl
  refine ⟨hid, rfl, hsame, fun hheld hhalted => ?_⟩
  obtain ⟨hrestart, hschedule, hcode⟩ := hpending hheld
  unfold Campaign.finalize
  simp only [hrestart, hhalted.idle, hschedule, hcode, Bool.false_eq_true, false_and, if_false,
    Option.isSome_none]
  exact ⟨rfl, rfl⟩

theorem Safe.ended (h : Safe s) {id : CampaignId} {continuous : Bool} {code : Int}
    {written : Bool} (hsteady : Steady s (.ended id continuous code written)) :
    Safe (s.ended id continuous code written) := by
  unfold Process.ended
  split_ifs with hrunning
  · refine Safe.persist (Safe.modify ?_ fun r hr hid => ?_) written
    · exact ⟨h.memory, h.file, h.database, h.staged⟩
    · exact finalize_rewritten (hsteady hrunning r hr hid)
  · exact h

/-! ## The pieces of a save -/

/-- The stores after a durable write of a list that is sound. -/
theorem persistDurably_sound (hmemory : Sound s.policy s.campaigns) (hfile : Sound s.policy s.file)
    (hdatabase : s.database.Each (Sound s.policy)) (written : Bool) :
    Sound s.policy (s.persistDurably written).file ∧
      (s.persistDurably written).database.Each (Sound s.policy) := by
  cases written with
  | true => exact ⟨hmemory, hdatabase.await hmemory⟩
  | false => exact ⟨hfile, hdatabase.unmarked⟩

theorem persistDurably_kept (written : Bool) :
    (s.persistDurably written).campaigns = s.campaigns ∧
      (s.persistDurably written).policy = s.policy := by
  cases written with
  | true => exact ⟨rfl, rfl⟩
  | false => exact ⟨rfl, rfl⟩

/-- A durable write, and the stage the save is then suspended at. -/
theorem safe_persistDurably {stage : Stage} (hmemory : Sound s.policy s.campaigns)
    (hfile : Sound s.policy s.file) (hdatabase : s.database.Each (Sound s.policy)) (written : Bool)
    (hstaged : Staged { s.persistDurably written with stage := stage }) :
    Safe { s.persistDurably written with stage := stage } := by
  obtain ⟨hfile', hdatabase'⟩ := persistDurably_sound hmemory hfile hdatabase written
  obtain ⟨hcampaigns, hpolicy⟩ := persistDurably_kept (s := s) written
  refine ⟨?_, ?_, ?_, hstaged⟩
  · show Sound (s.persistDurably written).policy (s.persistDurably written).campaigns
    rw [hcampaigns, hpolicy]
    exact hmemory
  · show Sound (s.persistDurably written).policy (s.persistDurably written).file
    rw [hpolicy]
    exact hfile'
  · show (s.persistDurably written).database.Each (Sound (s.persistDurably written).policy)
    rw [hpolicy]
    exact hdatabase'

/-- When the draft that was handed to the writer has been written, the campaign is pending in every
list. -/
theorem newer_persistDurably {id : CampaignId} (hdrafted : Drafted id s.campaigns) (written : Bool) :
    (s.persistDurably written).database.Newer fun snapshot =>
      Drafted id snapshot ∧ Drafted id (s.persistDurably written).file := by
  cases written with
  | true => exact Writer.newer_await ⟨hdrafted, hdrafted⟩
  | false => exact Writer.newer_unmarked

theorem Safe.refuse (h : Safe s) (id : CampaignId) (written : Bool) : Safe (s.refuse id written) := by
  refine safe_persistDurably (s := s.modify id .holdSelection) (h.memory.hold id) h.file h.database
    written ?_
  show Drafted id ((s.modify id .holdSelection).persistDurably written).campaigns
  rw [(persistDurably_kept written).1]
  intro r' hr' hid
  obtain ⟨r, hr, ⟨-, rfl⟩ | ⟨hother, rfl⟩⟩ := mem_updateKey hr'
  · rfl
  · exact absurd hid hother

/-- The policy is written while the campaign is pending in every list. -/
theorem sound_assign (h : Safe s) {id : CampaignId} {choice : Choice} (hdraft : Draft s id choice)
    (hall : AllDrafted s id) :
    Sound (s.assign id choice).policy s.campaigns ∧ Sound (s.assign id choice).policy s.file ∧
      s.database.Each (Sound (s.assign id choice).policy) := by
  refine ⟨h.memory.assign hdraft.drafted choice, h.file.assign hall.1 choice,
    h.database.stored.assign hall.2.stored choice, fun entry hentry => ?_⟩
  exact (h.database.queue entry hentry).assign (hall.2.queue entry hentry) choice

theorem Safe.settle (h : Safe s) (outcome : WriteOutcome) (written : Bool) :
    Safe (s.settle outcome written) := by
  have hstaged := h.staged
  have hidle : Safe { s with stage := .idle } := ⟨h.memory, h.file, h.database, trivial⟩
  unfold Process.settle
  cases hstage : s.stage with
  | idle => exact h
  | holding id choice settledStatus =>
    rw [Staged, hstage] at hstaged
    obtain ⟨hdraft, hnewer⟩ := hstaged
    dsimp only
    split_ifs with houtcome hlanded
    · have hall := hnewer.landed hlanded
      exact ⟨h.memory, h.file, h.database, hdraft, hall.stored.2, hall.mono fun _ h => h.1⟩
    · exact h
    · exact hidle
  | assigning id choice settledStatus =>
    rw [Staged, hstage] at hstaged
    obtain ⟨hdraft, hall⟩ := hstaged
    obtain ⟨hmemory, hfile, hdatabase⟩ := sound_assign h hdraft hall
    dsimp only
    split_ifs with hfailed houtcome
    · exact h.refuse id written
    · refine safe_persistDurably (s := (s.assign id choice).modify id (Process.released settledStatus)) ?_ hfile
        hdatabase written trivial
      refine hmemory.modify (fun _ => rfl) (fun _ _ _ hpending => by cases hpending)
        fun r hr hid _ selected hselected => ?_
      have hchosen := (hdraft r hr hid).2
      obtain rfl := Option.some.inj (hchosen.symm.trans hselected)
      show Function.update s.policy id choice r.id = choice
      rw [hid, Function.update_self]
    · have hassigned : Safe (s.assign id choice) := by
        refine ⟨hmemory, hfile, hdatabase, ?_⟩
        rw [Staged]
        show match s.stage with
          | .holding id choice _ => Draft s id choice ∧
              s.database.Newer fun snapshot => Drafted id snapshot ∧ Drafted id s.file
          | .assigning id choice _ => Draft s id choice ∧ AllDrafted s id
          | .refused id => Drafted id s.campaigns
          | _ => True
        rw [hstage]
        exact ⟨hdraft, hall⟩
      exact hassigned.refuse id written
  | settled id =>
    dsimp only
    split_ifs
    · exact safe_persistDurably h.memory h.file h.database written trivial
    · exact h
    · exact h.refuse id written
  | refused id => exact hidle
  | durable id changed =>
    dsimp only
    split_ifs
    · exact hidle
    · exact h
    · exact hidle

/-- An object built over a pending one is halted as that one is. -/
theorem built_halted {existing : Option Saved} {payload : Payload} {port : Int}
    (hexisting : ∀ r, existing = some r → r.campaign.proxySelectionPending = true →
      Halted r.campaign)
    (hpending : (s.built existing payload port).proxySelectionPending = true) :
    Halted (s.built existing payload port) := by
  cases existing with
  | none => cases hpending
  | some r =>
    have hheld : r.campaign.proxySelectionPending = true := hpending
    obtain ⟨hstopped, hidle⟩ := hexisting r rfl hheld
    exact ⟨hstopped, hidle⟩

theorem Safe.saveDraft (h : Safe s) (campaign : Campaign) {choice : Option Choice}
    {selected : Choice} (hselected : choice = some selected) (written : Bool) :
    Safe (s.saveDraft campaign choice selected written) := by
  have hdraft : Draft (s.store campaign.holdSelection choice) campaign.id selected := by
    intro r hr hid
    rcases mem_upsertKey.mp hr with rfl | ⟨-, hother⟩
    · exact ⟨rfl, hselected⟩
    · exact absurd hid hother
  refine safe_persistDurably (s := s.store campaign.holdSelection choice)
    (h.memory.upsert (fun _ => ⟨rfl, rfl⟩) nofun) h.file h.database written ⟨?_, ?_⟩
  · unfold Draft
    show ∀ r ∈ ((s.store campaign.holdSelection choice).persistDurably written).campaigns, _
    rw [(persistDurably_kept written).1]
    exact hdraft
  · exact newer_persistDurably hdraft.drafted written

theorem Safe.saveReady (h : Safe s) {campaign : Campaign} {choice : Option Choice}
    (hhalted : campaign.proxySelectionPending = true → Halted campaign)
    (hmatched : campaign.proxySelectionPending = false →
      ∀ selected, choice = some selected → s.policy campaign.id = selected) (written : Bool) :
    Safe (s.saveReady campaign choice written) :=
  safe_persistDurably (s := s.store campaign choice) (h.memory.upsert hhalted hmatched) h.file
    h.database written trivial

theorem Safe.save (h : Safe s) {id : Option CampaignId} {payload : Payload} {port : Int}
    {choice : Option Choice} {written : Bool}
    (hsteady : Steady s (.save id payload port choice written)) :
    Safe (s.save id payload port choice written) := by
  have hnumbered : Safe (s.numbered (id.bind s.get)) := ⟨h.memory, h.file, h.database, h.staged⟩
  unfold Process.save
  cases hstage : s.stage with
  | idle =>
    dsimp only
    split
    · exact h
    · split
      · rename_i selected hchoice
        obtain ⟨hselected, -⟩ := Option.filter_eq_some_iff.mp hchoice
        split
        · exact h
        · exact hnumbered.saveDraft _ hselected written
      · rename_i hnone
        refine hnumbered.saveReady (built_halted fun r hr hpending => ?_) (fun _ selected hselected => ?_)
          written
        · obtain ⟨_, -, hget⟩ := Option.bind_eq_some_iff.mp hr
          exact h.memory.halted r (find?_key_some hget).1 hpending
        · refine hsteady selected hselected ?_
          subst hselected
          simpa using Option.filter_eq_none_iff.mp hnone selected rfl
  | holding id choice settledStatus => exact h
  | assigning id choice settledStatus => exact h
  | settled id => exact h
  | refused id => exact h
  | durable id changed => exact h

/-- **Step lemma** for the invariant. -/
theorem safe_next (h : Safe s) {e : Event} (hsteady : Steady s e) : Safe (processes.next s e) := by
  show Safe (step s e).1
  cases e with
  | save id payload port choice written => exact h.save hsteady
  | settle outcome written => exact h.settle outcome written
  | write applied =>
    have hdone := h.database.done applied
    refine ⟨h.memory, h.file, hdone, ?_⟩
    have hstaged := h.staged
    show match s.stage with
      | .holding id choice _ => Draft s id choice ∧
          (s.database.done applied).Newer fun snapshot => Drafted id snapshot ∧ Drafted id s.file
      | .assigning id choice _ => Draft s id choice ∧
          Drafted id s.file ∧ (s.database.done applied).Each (Drafted id)
      | .refused id => Drafted id s.campaigns
      | _ => True
    rw [Staged] at hstaged
    cases hstage : s.stage with
    | holding id choice settledStatus =>
      rw [hstage] at hstaged
      exact ⟨hstaged.1, hstaged.2.done applied⟩
    | assigning id choice settledStatus =>
      rw [hstage] at hstaged
      exact ⟨hstaged.1, hstaged.2.1, hstaged.2.2.done applied⟩
    | refused id =>
      rw [hstage] at hstaged
      exact hstaged
    | idle => trivial
    | settled id => trivial
    | durable id changed => trivial
  | start id written =>
    refine (h.modifyReady (fun c => ?_) fun c => ?_).persist written
    · split_ifs <;> rfl
    · split_ifs <;> rfl
  | stop id written =>
    refine (h.modify fun r hr _ => ?_).persist written
    exact ⟨rfl, rfl, rfl, fun _ _ => ⟨rfl, rfl⟩⟩
  | restart id written =>
    exact (h.modifyReady (f := .restart (s.running.contains id)) (fun _ => rfl)
      fun _ => rfl).persist written
  | delete id written =>
    refine (h.rewrite ((List.filter_sublist).map _) fun r hr => ?_).persist written
    exact ⟨r, List.mem_of_mem_filter hr, .refl r⟩
  | reconcile window written =>
    refine (h.rewrite ?_ fun r' hr' => ?_).persist written
    · rw [List.map_map]
      have hids : s.campaigns.map (Saved.id ∘ fun r : Saved =>
          { r with campaign := s.reconciled window r.campaign }) = s.campaigns.map Saved.id :=
        List.map_congr_left fun r _ => (reconciled_keeps window r.campaign).1
      rw [hids]
    · obtain ⟨r, hr, rfl⟩ := List.mem_map.mp hr'
      exact ⟨r, hr, reconciled_rewritten window r⟩
  | pump id => exact h.startRun id true
  | createRun id => exact h.startRun id false
  | launched launch run now written => exact h.launched hsteady
  | ended id continuous code written => exact h.ended hsteady
  | crash fromDatabase =>
    refine ⟨Sound.reloaded ?_ fromDatabase, h.file, ⟨h.database.stored, nofun⟩, trivial⟩
    cases fromDatabase with
    | true => exact h.database.stored
    | false => exact h.file

end Preserved

/-! ## After a reload -/

/-- The campaign a save is settling. -/
def Stage.campaign : Stage → Option CampaignId
  | .idle => none
  | .holding id _ _ => some id
  | .assigning id _ _ => some id
  | .settled id => some id
  | .refused id => some id
  | .durable id _ => some id

/-- A campaign whose selection is pending, which no save is settling, no launch holds and no run
drives. -/
structure Frozen (id : CampaignId) (s : Process) : Prop where
  held : HeldBack s id
  quiet : (∃ r ∈ s.campaigns, r.id = id) →
    (∀ launch ∈ s.launching, launch.id ≠ id) ∧ id ∉ s.running
  known : id ≤ s.campaignSequence
  apart : s.stage.campaign ≠ some id

section Frozen

variable {s t : Process} {id : CampaignId}

/-- A step that only rewrites the campaign, and begins no launch and no run of it. -/
theorem Frozen.rewrite (h : Frozen id s)
    (hrows : ∀ r' ∈ t.campaigns, r'.id = id → ∃ r ∈ s.campaigns, Rewritten r r')
    (hlaunch : (∃ r ∈ s.campaigns, r.id = id) → ∀ launch ∈ t.launching, launch.id = id →
      launch ∈ s.launching)
    (hrun : (∃ r ∈ s.campaigns, r.id = id) → id ∈ t.running → id ∈ s.running)
    (hsequence : s.campaignSequence ≤ t.campaignSequence)
    (hstage : t.stage.campaign ≠ some id) : Frozen id t := by
  refine ⟨fun r' hr' hid => ?_, ?_, h.known.trans hsequence, hstage⟩
  · obtain ⟨r, hr, hsame⟩ := hrows r' hr' hid
    obtain ⟨hpending, hhalted⟩ := h.held r hr (hsame.id ▸ hid)
    exact ⟨hsame.pending.trans hpending, hsame.halted hpending hhalted⟩
  · rintro ⟨r', hr', hid⟩
    obtain ⟨r, hr, hsame⟩ := hrows r' hr' hid
    have hstored : ∃ r ∈ s.campaigns, r.id = id := ⟨r, hr, hsame.id ▸ hid⟩
    obtain ⟨hlaunching, hrunning⟩ := h.quiet hstored
    exact ⟨fun launch hmem hlid => hlaunching launch (hlaunch hstored launch hmem hlid) hlid,
      fun hmem => hrunning (hrun hstored hmem)⟩

theorem Frozen.persist (h : Frozen id s) (written : Bool) : Frozen id (s.persist written) := by
  cases written with
  | false => exact h
  | true => exact ⟨h.held, h.quiet, h.known, h.apart⟩

theorem Frozen.persistDurably (h : Frozen id s) (written : Bool) {stage : Stage}
    (hstage : stage.campaign ≠ some id) :
    Frozen id { s.persistDurably written with stage := stage } := by
  cases written with
  | false => exact ⟨h.held, h.quiet, h.known, hstage⟩
  | true => exact ⟨h.held, h.quiet, h.known, hstage⟩

/-- A write to the fields of one campaign, which rewrites it if it is this one. -/
theorem Frozen.modify (h : Frozen id s) {other : CampaignId} {f : Campaign → Campaign}
    (hid : ∀ c, (f c).id = c.id)
    (hself : ∀ r ∈ s.campaigns, r.id = id → Rewritten r { r with campaign := f r.campaign }) :
    Frozen id (s.modify other f) := by
  refine h.rewrite (fun r' hr' hid' => ?_) (fun _ _ hmem _ => hmem) (fun _ hmem => hmem) le_rfl
    h.apart
  obtain ⟨r, hr, ⟨-, rfl⟩ | ⟨-, rfl⟩⟩ := mem_updateKey hr'
  · exact ⟨r, hr, hself r hr ((hid r.campaign).symm.trans hid')⟩
  · exact ⟨r', hr, .refl r'⟩

/-- A write to another campaign. -/
theorem Frozen.modify_other (h : Frozen id s) {other : CampaignId} (hother : other ≠ id)
    {f : Campaign → Campaign} (hid : ∀ c, (f c).id = c.id) : Frozen id (s.modify other f) := by
  refine h.rewrite (fun r' hr' hid' => ?_) (fun _ _ hmem _ => hmem) (fun _ hmem => hmem) le_rfl
    h.apart
  obtain ⟨r, hr, ⟨hstored, rfl⟩ | ⟨-, rfl⟩⟩ := mem_updateKey hr'
  · exact absurd (hstored.symm.trans ((hid r.campaign).symm.trans hid')) hother
  · exact ⟨r', hr, .refl r'⟩

theorem Frozen.modifyReady (h : Frozen id s) {other : CampaignId} {f : Campaign → Campaign}
    (hid : ∀ c, (f c).id = c.id) : Frozen id (s.modifyReady other f) := by
  refine h.modify (fun c => ?_) fun r hr hid' => ?_
  · split_ifs
    · rfl
    · exact hid c
  · rw [if_pos (h.held r hr hid').1]
    exact .refl r

theorem Frozen.startRun (h : Frozen id s) (other : CampaignId) (pump : Bool) :
    Frozen id (s.startRun other pump) := by
  have hlaunch : ∀ ref, (other = id → ¬∃ r ∈ s.campaigns, r.id = id) →
      Frozen id { s with launching := s.launching ++ [⟨other, ref, pump⟩] } := by
    intro ref habsent
    refine h.rewrite (fun r hr _ => ⟨r, hr, .refl r⟩) (fun hstored launch hmem hlid => ?_)
      (fun _ hmem => hmem) le_rfl h.apart
    rcases List.mem_append.mp hmem with hmem | hmem
    · exact hmem
    · obtain rfl := List.mem_singleton.mp hmem
      exact absurd hstored (habsent hlid)
  unfold Process.startRun
  cases hget : s.get other with
  | none =>
    dsimp only
    split_ifs
    · exact h
    · refine hlaunch _ ?_
      rintro rfl ⟨r, hr, hid⟩
      have hmiss := List.find?_eq_none.mp hget r hr
      exact hmiss (by simpa using hid)
  | some r =>
    dsimp only
    split_ifs with hpending
    · exact h
    · exact h
    · refine hlaunch _ ?_
      rintro rfl -
      obtain ⟨hr, hid⟩ := find?_key_some hget
      exact hpending (h.held r hr hid).1

/-- No launch and no run is of this campaign, as long as it is stored. -/
theorem Frozen.other_launch (h : Frozen id s) {launch : Launch} (hlaunch : launch ∈ s.launching) :
    launch.id = id → ¬∃ r ∈ s.campaigns, r.id = id :=
  fun hid hstored => (h.quiet hstored).1 launch hlaunch hid

theorem Frozen.recordLaunch (h : Frozen id s) {launch : Launch} {f : Campaign → Campaign}
    (hother : launch.id = id → ¬∃ r ∈ s.campaigns, r.id = id) (hid : ∀ c, (f c).id = c.id) :
    Frozen id (s.recordLaunch launch f) := by
  unfold Process.recordLaunch
  split_ifs
  · refine h.rewrite (fun r' hr' hid' => ?_) (fun _ _ hmem _ => hmem) (fun _ hmem => hmem) le_rfl
      h.apart
    obtain ⟨r, hr, ⟨hheld, rfl⟩ | ⟨-, rfl⟩⟩ := mem_updateWhere.mp hr'
    · have hrid : r.id = id := (hid r.campaign).symm.trans hid'
      obtain ⟨hstored, -⟩ := of_decide_eq_true hheld
      exact absurd ⟨r, hr, hrid⟩ (hother (hstored.symm.trans hrid))
    · exact ⟨r', hr, .refl r'⟩
  · exact h

theorem Frozen.launched (h : Frozen id s) (launch : Launch) (run : Option RunId) (now : Nat)
    (written : Bool) : Frozen id (s.launched launch run now written) := by
  unfold Process.launched
  split_ifs with hlaunch
  · have hother := h.other_launch hlaunch
    have herase : Frozen id { s with launching := s.launching.erase launch } :=
      h.rewrite (fun r hr _ => ⟨r, hr, .refl r⟩) (fun _ _ hmem _ => List.mem_of_mem_erase hmem)
        (fun _ hmem => hmem) le_rfl h.apart
    cases run with
    | some runId =>
      have hrun : Frozen id { s with
          launching := s.launching.erase launch, running := s.running ++ [launch.id] } := by
        refine herase.rewrite (fun r hr _ => ⟨r, hr, .refl r⟩) (fun _ _ hmem _ => hmem)
          (fun hstored hmem => ?_) le_rfl h.apart
        rcases List.mem_append.mp hmem with hmem | hmem
        · exact hmem
        · exact absurd hstored (hother (List.mem_singleton.mp hmem).symm)
      exact (hrun.recordLaunch (f := .launched runId) hother fun _ => rfl).persist written
    | none => exact (herase.recordLaunch (f := .retry now) hother fun _ => rfl).persist written
  · exact h

theorem Frozen.ended (h : Frozen id s) (other : CampaignId) (continuous : Bool) (code : Int)
    (written : Bool) : Frozen id (s.ended other continuous code written) := by
  unfold Process.ended
  split_ifs with hrunning
  · have herase : Frozen id { s with running := s.running.erase other } :=
      h.rewrite (fun r hr _ => ⟨r, hr, .refl r⟩) (fun _ _ hmem _ => hmem)
        (fun _ hmem => List.mem_of_mem_erase hmem) le_rfl h.apart
    have hkeeps : ∀ c : Campaign, (c.finalize continuous code).id = c.id := by
      intro c
      unfold Campaign.finalize
      split_ifs <;> rfl
    by_cases hother : other = id
    · subst hother
      refine (herase.modify hkeeps fun r hr hid => ?_).persist written
      exact absurd hrunning (h.quiet ⟨r, hr, hid⟩).2
    · exact (herase.modify_other hother hkeeps).persist written
  · exact h

theorem Frozen.refuse (h : Frozen id s) {other : CampaignId} (hother : other ≠ id)
    (written : Bool) : Frozen id (s.refuse other written) :=
  (h.modify_other (f := .holdSelection) hother fun _ => rfl).persistDurably written
    fun hstage => hother (Option.some.inj hstage)

theorem Frozen.settle (h : Frozen id s) (outcome : WriteOutcome) (written : Bool) :
    Frozen id (s.settle outcome written) := by
  have hidle : Frozen id { s with stage := .idle } := ⟨h.held, h.quiet, h.known, nofun⟩
  have hapart := h.apart
  unfold Process.settle
  cases hstage : s.stage with
  | idle => exact h
  | holding other choice settledStatus =>
    rw [hstage] at hapart
    dsimp only
    split_ifs
    · exact ⟨h.held, h.quiet, h.known, hapart⟩
    · exact h
    · exact hidle
  | assigning other choice settledStatus =>
    have hother : other ≠ id := fun hid => h.apart (by rw [hstage, hid]; rfl)
    have hassign : Frozen id (s.assign other choice) := ⟨h.held, h.quiet, h.known, h.apart⟩
    dsimp only
    split_ifs
    · exact h.refuse hother written
    · exact (hassign.modify_other (f := Process.released settledStatus) hother
        fun _ => rfl).persistDurably written fun hid => hother (Option.some.inj hid)
    · exact hassign.refuse hother written
  | settled other =>
    have hother : other ≠ id := fun hid => h.apart (by rw [hstage, hid]; rfl)
    dsimp only
    split_ifs
    · exact h.persistDurably written fun hid => hother (Option.some.inj hid)
    · exact h
    · exact h.refuse hother written
  | refused other => exact hidle
  | durable other changed =>
    dsimp only
    split_ifs
    · exact hidle
    · exact h
    · exact hidle

/-- Another campaign is stored. -/
theorem Frozen.store (h : Frozen id s) {campaign : Campaign} (hother : campaign.id ≠ id)
    (choice : Option Choice) : Frozen id (s.store campaign choice) := by
  refine h.rewrite (fun r hr hid => ?_) (fun _ _ hmem _ => hmem) (fun _ hmem => hmem) le_rfl h.apart
  rcases mem_upsertKey.mp hr with rfl | ⟨hr, -⟩
  · exact absurd hid hother
  · exact ⟨r, hr, .refl r⟩

theorem Frozen.saveDraft (h : Frozen id s) {campaign : Campaign} (hother : campaign.id ≠ id)
    (choice : Option Choice) (selected : Choice) (written : Bool) :
    Frozen id (s.saveDraft campaign choice selected written) := by
  have hheld : campaign.holdSelection.id ≠ id := hother
  exact (h.store hheld choice).persistDurably written fun hid => hother (Option.some.inj hid)

theorem Frozen.saveReady (h : Frozen id s) {campaign : Campaign} (hother : campaign.id ≠ id)
    (choice : Option Choice) (written : Bool) :
    Frozen id (s.saveReady campaign choice written) :=
  (h.store hother choice).persistDurably written fun hid => hother (Option.some.inj hid)

theorem Frozen.save (h : Frozen id s) {saved : Option CampaignId} (hsaved : saved ≠ some id)
    (payload : Payload) (port : Int) (choice : Option Choice) (written : Bool) :
    Frozen id (s.save saved payload port choice written) := by
  have hnumbered : Frozen id (s.numbered (saved.bind s.get)) :=
    ⟨h.held, h.quiet, h.known.trans (Nat.le_add_right _ _), h.apart⟩
  have hbuilt : (s.built (saved.bind s.get) payload port).id ≠ id := by
    cases hexisting : saved.bind s.get with
    | none =>
      exact Nat.ne_of_gt (Nat.lt_succ_of_le h.known)
    | some r =>
      obtain ⟨other, rfl, hget⟩ := Option.bind_eq_some_iff.mp hexisting
      intro hid
      have hrid : r.id = other := (find?_key_some hget).2
      exact hsaved (congrArg some (hrid.symm.trans hid))
  unfold Process.save
  cases hstage : s.stage with
  | idle =>
    dsimp only
    split
    · exact h
    · split
      · split
        · exact h
        · exact hnumbered.saveDraft hbuilt choice _ written
      · exact hnumbered.saveReady hbuilt choice written
  | holding other selected settledStatus => exact h
  | assigning other selected settledStatus => exact h
  | settled other => exact h
  | refused other => exact h
  | durable other changed => exact h

/-- **Step lemma**: a frozen campaign stays frozen until it is saved or the process stops. -/
theorem frozen_next (h : Frozen id s) {e : Event} (hleaves : e.Leaves id) :
    Frozen id (processes.next s e) := by
  show Frozen id (step s e).1
  cases e with
  | save saved payload port choice written => exact h.save hleaves payload port choice written
  | settle outcome written => exact h.settle outcome written
  | write applied => exact ⟨h.held, h.quiet, h.known, h.apart⟩
  | start other written =>
    refine (h.modifyReady fun c => ?_).persist written
    split_ifs <;> rfl
  | stop other written =>
    refine (h.modify (f := .stop) (fun _ => rfl) fun r _ _ => ?_).persist written
    exact ⟨rfl, rfl, rfl, fun _ _ => ⟨rfl, rfl⟩⟩
  | restart other written =>
    exact (h.modifyReady (f := .restart (s.running.contains other)) fun _ => rfl).persist written
  | delete other written =>
    refine (h.rewrite (t := { s with campaigns := s.campaigns.filter (·.id ≠ other) })
      (fun r hr _ => ⟨r, List.mem_of_mem_filter hr, .refl r⟩) (fun _ _ hmem _ => hmem)
      (fun _ hmem => hmem) le_rfl h.apart).persist written
  | reconcile window written =>
    refine (h.rewrite (t := { s with campaigns := s.campaigns.map fun r =>
        { r with campaign := s.reconciled window r.campaign } }) (fun r' hr' _ => ?_)
      (fun _ _ hmem _ => hmem) (fun _ hmem => hmem) le_rfl h.apart).persist written
    obtain ⟨r, hr, rfl⟩ := List.mem_map.mp hr'
    exact ⟨r, hr, reconciled_rewritten window r⟩
  | pump other => exact h.startRun other true
  | createRun other => exact h.startRun other false
  | launched launch run now written => exact h.launched launch run now written
  | ended other continuous code written => exact h.ended other continuous code written
  | crash fromDatabase => exact hleaves.elim

/-- What a new process has loaded is frozen, for a campaign whose selection is pending. -/
theorem frozen_reload {snapshot : Snapshot} (h : Sound s.policy snapshot) (fromDatabase : Bool)
    {r : Saved} (hr : r ∈ snapshot) (hpending : r.campaign.proxySelectionPending = true) :
    Frozen r.id (s.reload fromDatabase snapshot) := by
  have hloaded := h.reloaded fromDatabase
  refine ⟨fun r' hr' hid => ?_, fun _ => ⟨nofun, nofun⟩, ?_, nofun⟩
  · obtain ⟨old, hold, rfl⟩ := List.mem_map.mp hr'
    have hsame : old = r := key_unique h.unique hold hr hid
    have hheld : (old.reloaded fromDatabase).campaign.proxySelectionPending = true := by
      rw [hsame]
      exact hpending
    exact ⟨hheld, hloaded.halted _ hr' hheld⟩
  · have hmem : r.id ∈ snapshot.map Saved.id := List.mem_map_of_mem hr
    exact List.le_max_of_le hmem le_rfl

/-- A frozen campaign is never queued, started or restarted before it is saved. -/
theorem frozen_inert (h : Frozen id s) {later : List Event} (hleaves : ∀ e ∈ later, e.Leaves id) :
    Inert (processes.run s later) id := by
  have halong : processes.Along (fun _ e => e.Leaves id) s later :=
    EventSystem.along_of_split fun pre e post hsplit => hleaves e (by simp [hsplit])
  have hfrozen : Frozen id (processes.run s later) :=
    EventSystem.run_inv h (fun _ _ h => frozen_next h) halong
  intro r hr hid
  obtain ⟨hlaunching, hrunning⟩ := hfrozen.quiet ⟨r, hr, hid⟩
  exact ⟨(hfrozen.held r hr hid).2, hlaunching, hrunning⟩

end Frozen

/-! ## Runs -/

section Runs

variable {s : Process}

theorem Sound.loadable {snapshot : Snapshot} (h : Sound s.policy snapshot) (fromDatabase : Bool) :
    Loadable s fromDatabase snapshot :=
  ⟨h.matched, fun _ hr hpending _ hleaves =>
    frozen_inert (frozen_reload h fromDatabase hr hpending) hleaves⟩

theorem Safe.heldBack (h : Safe s) {id : CampaignId} (hdrafted : Drafted id s.campaigns) :
    HeldBack s id :=
  fun r hr hid => ⟨hdrafted r hr hid, h.memory.halted r hr (hdrafted r hr hid)⟩

/-- A save that fails before its last durable write leaves the campaign held. -/
theorem heldOnFailure_of_safe (h : Safe s) {e : Event} (hsteady : Steady s e) :
    HeldOnFailure s e := by
  intro id hreply
  have hstaged := h.staged
  cases e with
  | settle outcome written =>
    have hfailed : s.failure outcome = some id := hreply
    show HeldBack (s.settle outcome written) id
    unfold Process.failure at hfailed
    cases hstage : s.stage with
    | holding other choice settledStatus =>
      rw [hstage] at hfailed
      dsimp only at hfailed
      by_cases houtcome : outcome = .ok
      · rw [if_pos houtcome] at hfailed
        cases hfailed
      · rw [if_neg houtcome] at hfailed
        obtain rfl := Option.some.inj hfailed
        rw [Staged, hstage] at hstaged
        unfold Process.settle
        rw [hstage]
        simp only [if_neg houtcome]
        exact h.heldBack hstaged.1.drafted
    | refused other =>
      rw [hstage] at hfailed
      obtain rfl := Option.some.inj hfailed
      rw [Staged, hstage] at hstaged
      unfold Process.settle
      rw [hstage]
      exact h.heldBack hstaged
    | durable other changed =>
      rw [hstage] at hfailed
      cases changed with
      | false => cases hfailed
      | true =>
        rw [hsteady other hstage] at hfailed
        cases hfailed
    | idle =>
      rw [hstage] at hfailed
      cases hfailed
    | assigning other choice settledStatus =>
      rw [hstage] at hfailed
      cases hfailed
    | settled other =>
      rw [hstage] at hfailed
      cases hfailed
  | save saved payload port choice written => cases hreply
  | write applied => cases hreply
  | start other written => cases hreply
  | stop other written => cases hreply
  | restart other written => cases hreply
  | delete other written => cases hreply
  | reconcile window written => cases hreply
  | pump other => cases hreply
  | createRun other => cases hreply
  | launched launch run now written => cases hreply
  | ended other continuous code written => cases hreply
  | crash fromDatabase => cases hreply

/-- **Crash safety of proxy selections**: in every run whose last durable writes succeed and whose
pending campaigns are left alone by launches and runs that began before, both persisted lists are
safe to load at every point, and every failed save leaves its campaign held. -/
theorem selections_crash_safe (es : List Event) (h : processes.Along Steady {} es) :
    CrashSafe es := by
  constructor
  · rintro earlier ⟨post, rfl⟩
    have hsafe : Safe (processes.run {} earlier) :=
      EventSystem.run_inv safe_empty (fun _ _ h => safe_next h) h.before
    exact ⟨hsafe.file.loadable false, hsafe.database.stored.loadable true⟩
  · refine EventSystem.along_of_split ?_
    rintro pre e post rfl
    have hsafe : Safe (processes.run {} pre) :=
      EventSystem.run_inv safe_empty (fun _ _ h => safe_next h) h.before
    exact heldOnFailure_of_safe hsafe h.at

end Runs

section Sample

/-- A campaign with a saved provider is created, and its selection is settled. -/
def settledProvider : List Event := [
  .save none {} 0 (some (.registry "gate" "main")) true, .write true, .settle .ok true,
  .settle .ok true, .write true, .settle .ok true, .write true]

theorem settledProvider_steady : processes.Along Steady {} settledProvider := by
  refine ⟨?_, trivial, fun _ _ => rfl, fun _ _ => rfl, trivial, fun _ _ => rfl, trivial, trivial⟩
  rintro selected hselected hsame
  obtain rfl := Option.some.inj hselected
  exact absurd hsame (by decide)

/-- The save of a new campaign, whose last write succeeds. -/
theorem selections_crash_safe_created : CrashSafe (settledProvider ++ [.settle .ok true]) := by
  have hlast : Steady (processes.run {} settledProvider) (.settle .ok true) := fun _ _ => rfl
  exact selections_crash_safe (settledProvider ++ [.settle .ok true])
    (EventSystem.along_concat.mpr ⟨settledProvider_steady, hlast⟩)

/-- The save fails at its last write, and the campaign is left ready to start. -/
theorem lastWriteLost : ¬∀ es, CrashSafe es := by
  intro hall
  have hfails := ((hall (settledProvider ++ [.settle .failed true])).2).at
  have hheld := hfails 1 (by decide)
  have hready : ((processes.next (processes.run {} settledProvider)
      (.settle .failed true)).campaigns.map fun r => (r.id, r.campaign.proxySelectionPending)) =
      [(1, false)] := by decide
  obtain ⟨r, hr, hrow⟩ := List.mem_map.mp (hready ▸ List.mem_singleton.mpr rfl)
  obtain ⟨hid, hpending⟩ := Prod.mk.inj hrow
  obtain ⟨hpending', -⟩ := hheld r hr hid
  rw [hpending'] at hpending
  cases hpending

end Sample

end LinkSuffix.ControlServer.ProxySelection
