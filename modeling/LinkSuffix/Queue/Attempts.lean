import LinkSuffix.Store.Invariant

/-!
# Attempts

A lease counts an attempt, and a job that has used `MAX_ATTEMPTS` of them is dead. Two operations
revive a dead job: `queueLatestBridgeCapture` starts over, but `enqueueBridgeCapture` makes it
pending with the attempts it has, and the lease query then passes it over for ever.

* `Leasable`: a waiting job has an attempt left.
* **`leasable_run`**: it holds while no enqueue sends the version of an exhausted job again.
* **`exhausted_revived`**: such an enqueue leaves a pending job no lease will take.
-/

namespace LinkSuffix

open Lib

variable {cfg : Config} {f : Fleet} {e : Event} {s s' : Store} {r : Except StoreError Reply}

/-- Attempts stay within the bound, and a waiting job has one left. -/
def Leasable (cfg : Config) (j : DeliveryJob) : Prop :=
  j.attemptCount ≤ cfg.maxAttempts ∧ (j.state.waiting = true → j.attemptCount < cfg.maxAttempts)

instance (j : DeliveryJob) : Decidable (Leasable cfg j) := by
  unfold Leasable
  infer_instance

/-- The enqueue sends a stored version again whose job is dead with no attempt left. -/
def Event.revivesExhausted (cfg : Config) (f : Fleet) (e : Event) : Bool :=
  match e.call with
  | .enqueueCapture ticket _ _ => f.store.captures.any fun c => ticket.names c
    && f.store.jobs.any fun j => j.captureId = c.captureId && j.state = .dead
      && cfg.maxAttempts ≤ j.attemptCount
  | _ => false

/-- A job of the capture an enqueue writes is of a stored capture. -/
theorem writes_stored {ticket : CaptureTicket} {nextval : Nat} {j : DeliveryJob}
    (hj : j ∈ f.store.jobs) (hc : j.captureId = ticket.writes nextval f.store)
    (hs' : ((fleet cfg).next f e).store.captures =
      (saveCapture ticket nextval e.now f.store).2.captures) :
    ∃ c ∈ f.store.captures, ticket.names c = true ∧ j.captureId = c.captureId := by
  rcases writes_cases ticket nextval f.store with ⟨hn, hw⟩ | ⟨c, hcm, hn, hw⟩
  · -- The insert would have used the key of the job's capture.
    obtain ⟨c, hcm, hcj⟩ := capture_of_job f hj
    have hkey := (store_unique ((fleet cfg).next f e)).capture_key
    unfold saveCapture at hs'
    rw [hn] at hs'
    rw [hs', List.map_append, List.nodup_append] at hkey
    have hne := hkey.2.2 _ (List.mem_map_of_mem hcm) nextval (List.mem_singleton.mpr rfl)
    exact absurd (hcj.trans (hc.trans hw)) hne
  · exact ⟨c, hcm, hn, hc.trans hw⟩

/-- An expired or refused job is dead if it has no attempt left. -/
theorem leasable_failed {j : DeliveryJob} {state : JobState}
    (hs : state = if cfg.maxAttempts ≤ j.attemptCount then .dead else .failed) :
    state.waiting = true → j.attemptCount < cfg.maxAttempts := by
  intro hw
  by_cases hle : cfg.maxAttempts ≤ j.attemptCount
  · rw [if_pos hle] at hs
    rw [hs] at hw
    exact absurd hw (by simp [JobState.waiting])
  · omega

/-- **A move keeps an attempt for every waiting job**, unless it revives an exhausted one. -/
theorem JobMove.leasable {j k : DeliveryJob} (h : JobMove cfg s s' e r j k) (hj : Leasable cfg j)
    (hrevived : ∀ ticket nextval jobId, e.call = .enqueueCapture ticket nextval jobId →
      j.captureId = ticket.writes nextval s → j.state = .dead →
      s'.captures = (saveCapture ticket nextval e.now s).2.captures →
      j.attemptCount < cfg.maxAttempts) : Leasable cfg k := by
  obtain ⟨hle, hlt⟩ := hj
  cases h with
  | keep => exact ⟨hle, hlt⟩
  | revived he ht hc hd hs' => exact ⟨hle, fun _ => hrevived _ _ _ he hc hd hs'⟩
  | requeued he htm hen ht hn hc hd =>
    have := cfg.one_le_maxAttempts
    unfold DeliveryJob.requeue
    rw [if_pos hd]
    exact ⟨by simp, fun _ => by simp only; omega⟩
  | leased he hr hm =>
    cases hm with
    | swept hs =>
      cases hs with
      | keep => exact ⟨hle, hlt⟩
      | stale => exact ⟨hle, fun hw => absurd hw (by simp [DeliveryJob.supersede, JobState.waiting])⟩
      | expired => exact ⟨hle, leasable_failed rfl⟩
    | killed => exact ⟨hle, fun hw => absurd hw (by simp [DeliveryJob.kill, JobState.waiting])⟩
    | granted hg =>
      have := hg.attempts
      refine ⟨?_, fun hw => absurd hw (by simp [DeliveryJob.grant, JobState.waiting])⟩
      simp only [DeliveryJob.grant]
      omega
  | verified => exact ⟨hle, fun hw => absurd hw (by simp [DeliveryJob.verify, JobState.waiting])⟩
  | refused => exact ⟨hle, leasable_failed rfl⟩
  | renewed => exact ⟨hle, hlt⟩
  | _ => exact ⟨hle, fun hw => absurd hw (by simp [DeliveryJob.supersede, JobState.waiting])⟩

theorem leasable_step (h : ∀ j ∈ f.store.jobs, Leasable cfg j)
    (hr : e.revivesExhausted cfg f = false) :
    ∀ k ∈ ((fleet cfg).next f e).store.jobs, Leasable cfg k := by
  intro k hk
  obtain ⟨j, hm, hj⟩ := job_before hk
  have hjl : Leasable cfg j := by
    rcases hj with hj | hb
    · exact h j hj
    · have := cfg.one_le_maxAttempts
      obtain ⟨_, _, _, rfl⟩ := hb.born.new
      exact ⟨by simp [newJob], fun _ => by simp only [newJob]; omega⟩
  refine hm.leasable hjl fun ticket nextval jobId he hc hd hs' => ?_
  have hj : j ∈ f.store.jobs := hj.resolve_right fun hb => by simp [hb.born.pending] at hd
  obtain ⟨c, hc, hn, hjc⟩ := writes_stored hj hc hs'
  unfold Event.revivesExhausted at hr
  rw [he] at hr
  have hnone := List.any_eq_false.mp hr c hc
  rw [hn, Bool.true_and, Bool.not_eq_true] at hnone
  simpa [hjc, hd] using List.any_eq_false.mp hnone j hj

/-- **Queued work is leasable**: in every run that sends no version of an exhausted job again, no
job has more than `MAX_ATTEMPTS` attempts and every waiting job has one left. -/
theorem leasable_run (cfg : Config) (es : List Event)
    (hrevives : (fleet cfg).Along (fun f e => e.revivesExhausted cfg f = false)
      Fleet.initial es) :
    ∀ j ∈ ((fleet cfg).run Fleet.initial es).store.jobs, Leasable cfg j :=
  EventSystem.run_inv (P := fun f => ∀ j ∈ f.store.jobs, Leasable cfg j)
    (fun _ hj => absurd hj List.not_mem_nil) (fun _ _ h hr => leasable_step h hr) hrevives

namespace Sample

/-- A failed acknowledgement by worker `w`. -/
def nack (now : Nat) (jobId token : String) : Event :=
  ⟨now, now, .acknowledgeBridgeJob
    { shardId := shard, workerId := "w", jobId := jobId, leaseToken := token, ok := false }⟩

end Sample

/-- A job that has used its eight attempts, one every 4000 s. -/
def exhausted : List Event :=
  Sample.register 1 :: Sample.enqueue 2 "a=1" 1 1 "job1" ++ (List.range 8).flatMap fun i =>
    [Sample.lease (4000000 * i + 3) "token", Sample.nack (4000000 * i + 4) "job1" "token"]

theorem leasable_run_queued :
    (fleet Config.sample).Along (fun f e => e.revivesExhausted Config.sample f = false) Fleet.initial
        (exhausted ++ [⟨40000000, 40000000, .queueLatestBridgeCapture "record" "job2"⟩]) ∧
      ∀ j ∈ ((fleet Config.sample).run Fleet.initial
        (exhausted ++ [⟨40000000, 40000000, .queueLatestBridgeCapture "record" "job2"⟩])).store.jobs,
        Leasable Config.sample j := by
  have hrevives : (fleet Config.sample).Along
      (fun f e => e.revivesExhausted Config.sample f = false) Fleet.initial
      (exhausted ++ [⟨40000000, 40000000, .queueLatestBridgeCapture "record" "job2"⟩]) := by
    decide +kernel
  exact ⟨hrevives, leasable_run Config.sample _ hrevives⟩

/-- **An exhausted job whose version is sent again is pending with no attempt left.** -/
theorem exhausted_revived :
    ¬ ∀ (cfg : Config) (es : List Event),
      ∀ j ∈ ((fleet cfg).run Fleet.initial es).store.jobs, Leasable cfg j := by
  intro h
  have := h Config.sample (exhausted ++ Sample.enqueue 40000000 "a=1" 1 2 "job2")
  exact absurd this (by decide +kernel)

end LinkSuffix
