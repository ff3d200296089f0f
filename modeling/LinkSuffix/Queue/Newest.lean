import LinkSuffix.Store.Invariant

/-!
# The newest capture of a target

Three statements supersede jobs: an enqueue keeps the capture it has just written, while
`queueLatestBridgeCapture` and a lease keep the newest by `captured_at`. An enqueue that writes an
older capture (a stored version sent again, or a transaction that started before the newest one
did) therefore takes the newest capture's job out of the queue, and no lease puts it back.

* `NewestLive`: the newest capture's job is not superseded.
* **`newestLive_run`**: it stays so while every enqueue that finds the newest capture's job waiting
  writes the newest capture.
* **`replay_supersedes_newest`**: a stored version sent again breaks it.
-/

namespace LinkSuffix

open Lib

variable {cfg : Config} {f : Fleet} {e : Event} {T : String}

/-! ## The newest capture across an event -/

/-- The job of the target's newest capture, if it has one, is not superseded. -/
def NewestLive (T : String) (f : Fleet) : Prop :=
  ∀ c ∈ f.store.newestCapture T, ∀ j ∈ f.store.jobs, j.captureId = c.captureId →
    j.state ≠ .superseded

instance : Decidable (NewestLive T f) := by
  unfold NewestLive
  infer_instance

/-- A capture that has a job before the event and is the newest after it was the newest before. -/
theorem newest_before {c' : SuffixCapture} {j : DeliveryJob} (hdel : e.deletes f T = false)
    (hj : j ∈ f.store.jobs) (hc' : ((fleet cfg).next f e).store.newestCapture T = some c')
    (hjc : j.captureId = c'.captureId) :
    ∃ c, f.store.newestCapture T = some c ∧ CaptureMove f e c c' := by
  obtain ⟨hmem', ht'⟩ := newestCapture_mem hc'
  rcases capture_before hmem' with ⟨c, hc, hm⟩ | hborn
  · refine ⟨c, (newestCapture_eq_some_iff (store_unique f)).mpr ⟨hc, ?_, fun d hd hdt => ?_⟩, hm⟩
    · rw [← hm.key.2.1, ht']
    · rcases capture_after cfg e hd with ⟨d', hd', hdm⟩ | ⟨t, hr, hdt'⟩
      · rw [← hm.age, ← hdm.age]
        exact le_newestCapture hc' hd' (hdm.key.2.1.trans hdt)
      · have hT : t.targetId = T := hdt'.symm.trans hdt
        have hdeletes := hr.deletes
        rw [hT, hdel] at hdeletes
        exact absurd hdeletes (by simp)
  · obtain ⟨c, hc, hcj⟩ := capture_of_job f hj
    exact absurd (hcj.trans hjc) (hborn.fresh (store_unique _) c hc)

/-! ## The condition -/

/-- The enqueue writes the target's newest capture: it rewrites that one, or inserts a later one. -/
def writesNewest (ticket : CaptureTicket) (nextval now : Nat) (s : Store) (c : SuffixCapture) :
    Bool :=
  match s.captures.find? ticket.names with
  | some stored => stored.captureId = c.captureId
  | none => c.age < (ticket.row nextval now).age

/-- An enqueue on the target that finds the newest capture's job waiting writes the newest
capture. -/
def Event.queuesNewest (T : String) (f : Fleet) (e : Event) : Bool :=
  match e.call with
  | .enqueueCapture ticket nextval _ =>
    ticket.targetId ≠ T || (f.store.newestCapture T).all fun c =>
      writesNewest ticket nextval e.now f.store c
        || f.store.jobs.all fun j => !(j.captureId = c.captureId && j.state.waiting)
  | _ => true

/-- The row an enqueue writes is a capture of its target in the store it leaves. -/
theorem saved_row {ticket : CaptureTicket} {nextval now : Nat} {s s' : Store}
    (hn : s.captures.find? ticket.names = none)
    (hs' : s'.captures = (saveCapture ticket nextval now s).2.captures) :
    ticket.row nextval now ∈ s'.captures := by
  rw [hs']
  unfold saveCapture
  rw [hn]
  exact List.mem_append_right _ (List.mem_singleton_self _)

/-- An enqueue that meets the condition does not supersede the job of the newest capture. -/
theorem replaced_not_newest {ticket : CaptureTicket} {nextval : Nat} {jobId : String}
    {j : DeliveryJob} {c c' : SuffixCapture} {s' : Store}
    (he : e.call = .enqueueCapture ticket nextval jobId) (hq : e.queuesNewest T f = true)
    (ht : ticket.targetId = T) (hj : j ∈ f.store.jobs) (hw : j.state.waiting = true)
    (hc : f.store.newestCapture T = some c) (hjc : j.captureId = c.captureId)
    (hne : j.captureId ≠ ticket.writes nextval f.store)
    (hs' : s'.captures = (saveCapture ticket nextval e.now f.store).2.captures)
    (hc' : s'.newestCapture T = some c') (hage : c'.age = c.age) : False := by
  unfold Event.queuesNewest at hq
  rw [he] at hq
  simp only [ht, hc, ne_eq, not_true_eq_false, decide_false, Bool.false_or, Option.all_some,
    Bool.or_eq_true] at hq
  rcases hq with hq | hq
  · unfold writesNewest at hq
    split at hq
    · rename_i stored hstored
      refine hne ?_
      unfold CaptureTicket.writes
      rw [hstored, hjc]
      exact (of_decide_eq_true hq).symm
    · rename_i hnone
      have hle := le_newestCapture hc' (saved_row hnone hs') ht
      exact absurd hle (not_le.mpr (hage ▸ of_decide_eq_true hq))
  · have := List.all_eq_true.mp hq j hj
    simp [hjc, hw] at this

/-- **One event keeps the newest capture's job alive.** -/
theorem newestLive_step (hinv' : Inv cfg ((fleet cfg).next f e)) (hlive : NewestLive T f) (hpause : e.pauses f T = false) (hdel : e.deletes f T = false)
    (hq : e.queuesNewest T f = true) : NewestLive T ((fleet cfg).next f e) := by
  intro c' hc' k hk hkc hks
  obtain ⟨j, hm, hj⟩ := job_before hk
  have hkT : k.targetId = T := by
    obtain ⟨hmem, ht⟩ := newestCapture_mem hc'
    rw [← ht]
    exact (hinv'.capture_of_target k hk c' hmem hkc.symm).symm
  have hjT : j.targetId = T := (targetId_of_key hm.key).symm.trans hkT
  have hjc : j.captureId = c'.captureId := (captureId_of_key hm.key).symm.trans hkc
  -- The event did not insert the job, so its capture was the newest before.
  have hj : j ∈ f.store.jobs := hj.resolve_right fun hb => hb.born.not_superseded hm hks
  obtain ⟨c, hc, hcm⟩ := newest_before hdel hj hc' hjc
  have hjc : j.captureId = c.captureId := hjc.trans hcm.key.1
  cases hm with
  | keep => exact hlive c hc k hj hjc hks
  | replaced he ht hw hne hs' =>
    exact replaced_not_newest he hq (ht.symm.trans hjT) hj hw hc hjc hne hs' hc' hcm.age
  | outdated he ht hn hw hne =>
    rw [← ht, hjT, hc] at hn
    exact hne (hjc.trans (congrArg _ (Option.some.inj hn)))
  | leased he hr hm =>
    cases hm with
    | swept hs =>
      cases hs with
      | keep => exact hlive c hc k hj hjc hks
      | stale hw hst => simp [Store.stale, hjT, hc, hjc] at hst
      | expired he =>
        refine absurd hks ?_
        unfold DeliveryJob.expire
        simp only
        split <;> simp
    | killed => simp [DeliveryJob.kill] at hks
    | granted => simp [DeliveryJob.grant] at hks
  | paused he htm hrec ht hw =>
    have hpauses := pauses_of_mem he htm hrec
    rw [← ht, hjT, hpause] at hpauses
    exact absurd hpauses (by simp)
  | revived => simp at hks
  | requeued he htm hen ht hn hcj hd =>
    unfold DeliveryJob.requeue at hks
    rw [if_pos hd] at hks
    simp at hks
  | verified => simp [DeliveryJob.verify] at hks
  | refused he hrow hx =>
    refine absurd hks ?_
    unfold DeliveryJob.refuse
    simp only
    split <;> simp
  | renewed he hj' hm hh hl => simp [DeliveryJob.renew, hl] at hks

/-! ## Runs -/

/-- **The newest capture is not lost.** In a run that never pauses or removes the target, and in
which every enqueue on it that finds the newest capture's job waiting writes the newest capture,
the newest capture's job is never superseded. -/
theorem newestLive_run (cfg : Config) (T : String) (es : List Event)
    (hstay : (fleet cfg).Along (fun f e => e.pauses f T = false ∧ e.deletes f T = false)
      Fleet.initial es)
    (hqueues : (fleet cfg).Along (fun f e => e.queuesNewest T f = true) Fleet.initial es) :
    NewestLive T ((fleet cfg).run Fleet.initial es) := by
  have hinv : ∀ f e, Inv cfg f ∧ NewestLive T f →
      ((e.pauses f T = false ∧ e.deletes f T = false) ∧ e.queuesNewest T f = true) →
      Inv cfg ((fleet cfg).next f e) ∧ NewestLive T ((fleet cfg).next f e) :=
    fun f e ⟨hinv, hlive⟩ ⟨⟨hpause, hdel⟩, hq⟩ =>
      ⟨inv_step hinv, newestLive_step (inv_step hinv) hlive hpause hdel hq⟩
  have hinit : NewestLive T Fleet.initial := fun c hc => by
    simp [Store.newestCapture, Store.capturesOf, Fleet.store, Fleet.initial, Database.empty] at hc
  exact (EventSystem.run_inv ⟨inv_initial cfg, hinit⟩ hinv (hstay.and hqueues)).2

/-- Two captures in order, the first of them sent again. -/
def replay : List Event :=
  Sample.enqueue 1 "a=1" 1 1 "job1" ++ Sample.enqueue 2 "a=2" 2 2 "job2"
    ++ Sample.enqueue 3 "a=1" 1 3 "job3"

theorem newestLive_run_two : NewestLive Sample.id ((fleet Config.sample).run Fleet.initial
    (Sample.enqueue 1 "a=1" 1 1 "job1" ++ Sample.enqueue 2 "a=2" 2 2 "job2")) := by
  refine (fun h : _ ∧ _ => newestLive_run Config.sample Sample.id _ h.1 h.2) ?_
  decide +kernel

/-- **A stored version sent again supersedes the job of the newest capture**, on an enabled target
that no event pauses or removes. -/
theorem replay_supersedes_newest :
    ¬ ∀ (cfg : Config) (T : String) (es : List Event),
      (fleet cfg).Along (fun f e => e.pauses f T = false ∧ e.deletes f T = false)
        Fleet.initial es →
      (∃ t ∈ ((fleet cfg).run Fleet.initial es).store.targets, t.targetId = T ∧ t.enabled = true) →
      NewestLive T ((fleet cfg).run Fleet.initial es) := by
  intro h
  refine (fun hrun : _ ∧ _ ∧ ¬_ =>
    hrun.2.2 (h Config.sample Sample.id replay hrun.1 hrun.2.1)) ?_
  decide +kernel

end LinkSuffix
