import LinkSuffix.Store.Effect

/-!
# What holds in every reachable state

* `Inv`: a job belongs to the target of its capture, at most one job of a target is leased, a leased
  job has its lease columns, and captures carry the hash of their suffix.
* `inv_step`, **`inv_run`**: every event keeps `Inv`, so every run does.
-/

namespace LinkSuffix

open Lib

variable {cfg : Config} {f : Fleet} {e : Event} {s s' : Store} {r : Except StoreError Reply}

/-! ## Moves to and from a lease -/

/-- Inserted jobs are pending and carry nothing. -/
theorem JobBorn.new {j : DeliveryJob} (h : JobBorn s s' e j) :
    ∃ jobId targetId captureId, j = newJob jobId targetId captureId e.now := by
  cases h with
  | enqueued => exact ⟨_, _, _, rfl⟩
  | queued => exact ⟨_, _, _, rfl⟩
  | missing he hm =>
    cases hm with
    | mk => exact ⟨_, _, _, rfl⟩

theorem JobBorn.pending {j : DeliveryJob} (h : JobBorn s s' e j) : j.state = .pending := by
  obtain ⟨_, _, _, rfl⟩ := h.new
  rfl

/-- The handing out of a job by a lease event. -/
structure Handed (cfg : Config) (s s' : Store) (e : Event) (r : Except StoreError Reply)
    (req : LeaseRequest) (c : Candidate) (k : DeliveryJob) : Prop where
  call : e.call = .leaseBridgeJobs req
  reply : ∃ ls, r = .ok (.leases ls) ∧ req.lease c ∈ ls
  grants : Grants cfg s s' req e.now c
  deliverable : deliverySuffixIssue c.capture.exactSuffix = none
  row : k = c.job.grant cfg e.now (cfg.digest (req.token c.job.jobId)) req.workerId req.shardId

/-- The renewal of a leased job by the holder of its token. -/
structure Renewed (cfg : Config) (e : Event) (input : RenewInput) (lease : LeaseRef)
    (j k : DeliveryJob) : Prop where
  call : e.call = .renewBridgeLeases input
  mem : lease ∈ input.leases
  jobId : j.jobId = lease.jobId
  held : j.heldBy cfg input.workerId lease.leaseToken = true
  row : k = j.renew cfg e.now

/-- A job is leased after an event because it was and was kept or renewed, or because the event
handed it out. -/
theorem JobMove.to_leased {j k : DeliveryJob} (h : JobMove cfg s s' e r j k)
    (hk : k.state = .leased) :
    (j.state = .leased ∧ (k = j ∨ ∃ input lease, Renewed cfg e input lease j k))
      ∨ ∃ req c, c.job = j ∧ Handed cfg s s' e r req c k := by
  cases h with
  | keep => exact Or.inl ⟨hk, Or.inl rfl⟩
  | leased he hr hm =>
    cases hm with
    | swept hs =>
      cases hs with
      | keep => exact Or.inl ⟨hk, Or.inl rfl⟩
      | stale => exact absurd hk (by simp [DeliveryJob.supersede])
      | expired =>
        refine absurd hk ?_
        unfold DeliveryJob.expire
        simp only
        split <;> simp
    | killed => exact absurd hk (by simp [DeliveryJob.kill])
    | granted hg hi hl => exact Or.inr ⟨_, _, rfl, he, ⟨_, hr, hl⟩, hg, hi, rfl⟩
  | renewed he hj hm hh hl => exact Or.inl ⟨hl, Or.inr ⟨_, _, he, hm, hj, hh, rfl⟩⟩
  | requeued he htm hen ht hn hc hd =>
    refine absurd hk ?_
    unfold DeliveryJob.requeue
    rw [if_pos hd]
    simp
  | refused =>
    refine absurd hk ?_
    unfold DeliveryJob.refuse
    simp only
    split <;> simp
  | revived => exact absurd hk (by simp)
  | verified => exact absurd hk (by simp [DeliveryJob.verify])
  | _ => exact absurd hk (by simp [DeliveryJob.supersede])

/-- A job is applied after an event because it was, or because the event acknowledged it. -/
theorem JobMove.to_applied {j k : DeliveryJob} (h : JobMove cfg s s' e r j k)
    (hk : k.state = .applied) :
    k = j ∨ ∃ input c t, e.call = .acknowledgeBridgeJob input ∧ AckRow cfg input s j c t
      ∧ input.exactMatch cfg c = true ∧ r = .ok (.ack ⟨true, "applied", none, false⟩)
      ∧ k = j.verify e.now c.suffixHash := by
  cases h with
  | keep => exact Or.inl rfl
  | verified he hrow hx hr => exact Or.inr ⟨_, _, _, he, hrow, hx, hr, rfl⟩
  | leased he hr hm =>
    cases hm with
    | swept hs =>
      cases hs with
      | keep => exact Or.inl rfl
      | stale => exact absurd hk (by simp [DeliveryJob.supersede])
      | expired =>
        refine absurd hk ?_
        unfold DeliveryJob.expire
        simp only
        split <;> simp
    | killed => exact absurd hk (by simp [DeliveryJob.kill])
    | granted => exact absurd hk (by simp [DeliveryJob.grant])
  | requeued he htm hen ht hn hc hd =>
    refine absurd hk ?_
    unfold DeliveryJob.requeue
    rw [if_pos hd]
    simp
  | refused =>
    refine absurd hk ?_
    unfold DeliveryJob.refuse
    simp only
    split <;> simp
  | renewed he hj hm hh hl => exact absurd hk (by simp [DeliveryJob.renew, hl])
  | revived => exact absurd hk (by simp)
  | _ => exact absurd hk (by simp [DeliveryJob.supersede])

/-- No event changes an applied job. -/
theorem JobMove.of_applied {j k : DeliveryJob} (h : JobMove cfg s s' e r j k)
    (hj : j.state = .applied) : k = j := by
  cases h with
  | keep => rfl
  | leased he hr hm =>
    cases hm with
    | swept hs =>
      cases hs with
      | keep => rfl
      | stale hw => simp [hj, JobState.waiting] at hw
      | expired he => simp [DeliveryJob.expired, hj] at he
    | killed hg => simpa [hj, JobState.waiting] using hg.waiting
    | granted hg => simpa [hj, JobState.waiting] using hg.waiting
  | replaced he ht hw => simp [hj, JobState.waiting] at hw
  | revived he ht hc hd => simp [hj] at hd
  | outdated he ht hn hw => simp [hj, JobState.waiting] at hw
  | requeued he htm hen ht hn hc hd => simp [hj] at hd
  | verified he hrow => exact absurd hrow.leased (by simp [hj])
  | refused he hrow => exact absurd hrow.leased (by simp [hj])
  | renewed he hid hm hh hl => simp [hj] at hl
  | paused he htm hrec ht hw => simp [hj, JobState.waiting] at hw

/-- An event does not supersede the job it inserts. -/
theorem JobBorn.not_superseded {j k : DeliveryJob} (hb : JobBorn s s' e j)
    (hm : JobMove cfg s s' e r j k) : k.state ≠ .superseded := by
  intro hk
  have hp := hb.pending
  cases hm with
  | keep => simp [hp] at hk
  | replaced he ht hw hne hs' =>
    cases hb with
    | enqueued he' hj' =>
      rw [he'] at he
      obtain ⟨rfl, rfl, rfl⟩ := Call.enqueueCapture.inj he
      exact hne rfl
    | queued he' => exact absurd (he'.symm.trans he) (by simp)
    | missing he' => exact absurd (he'.symm.trans he) (by simp)
  | outdated he ht hn hw hne =>
    cases hb with
    | enqueued he' => exact absurd (he'.symm.trans he) (by simp)
    | queued he' ht' hen' hc' hj' =>
      have ht : _ = _ := ht
      simp only [newJob] at ht
      rw [ht, hn] at hc'
      exact hne (by rw [← Option.some.inj hc']; rfl)
    | missing he' => exact absurd (he'.symm.trans he) (by simp)
  | leased he hr hm =>
    cases hm with
    | swept hs =>
      cases hs with
      | keep => simp [hp] at hk
      | stale hw hst =>
        cases hb with
        | enqueued he' => exact absurd (he'.symm.trans he) (by simp)
        | queued he' => exact absurd (he'.symm.trans he) (by simp)
        | missing he' hmiss =>
          cases hmiss with
          | mk ht' hw' hc' hj' => simp [Store.stale, newJob, hc'] at hst
      | expired he => simp [DeliveryJob.expired, hp] at he
    | killed => simp [DeliveryJob.kill] at hk
    | granted => simp [DeliveryJob.grant] at hk
  | paused he =>
    cases hb with
    | enqueued he' => exact absurd (he'.symm.trans he) (by simp)
    | queued he' => exact absurd (he'.symm.trans he) (by simp)
    | missing he' => exact absurd (he'.symm.trans he) (by simp)
  | revived => simp at hk
  | requeued he htm hen ht hn hc hd => simp [hp] at hd
  | verified => simp [DeliveryJob.verify] at hk
  | refused he hrow hx => exact absurd hrow.leased (by simp [hp])
  | renewed he hj hm hh hl => simp [hp] at hl

/-! ## The invariant -/

structure Inv (cfg : Config) (f : Fleet) : Prop where
  capture_of_target : ∀ j ∈ f.store.jobs, ∀ c ∈ f.store.captures, c.captureId = j.captureId →
    c.targetId = j.targetId
  exclusive : ∀ j ∈ f.store.jobs, ∀ k ∈ f.store.jobs, j.targetId = k.targetId →
    j.state = .leased → k.state = .leased → j = k
  lease_columns : ∀ j ∈ f.store.jobs, j.state = .leased →
    j.leasedAt ≠ none ∧ j.leasedUntil ≠ none ∧ j.leaseTokenHash ≠ none ∧ j.workerId ≠ none
  interval : ∀ t ∈ f.store.targets, t.minDeliveryIntervalMs = cfg.minIntervalMs
  capture_hash : ∀ c ∈ f.store.captures, c.suffixHash = cfg.digest c.exactSuffix
  ticket_hash : ∀ ticket ∈ f.inFlight, ticket.suffixHash = cfg.digest ticket.exactSuffix

theorem inv_initial (cfg : Config) : Inv cfg Fleet.initial where
  capture_of_target := fun _ hj => absurd hj List.not_mem_nil
  exclusive := fun _ hj => absurd hj List.not_mem_nil
  lease_columns := fun _ hj => absurd hj List.not_mem_nil
  interval := fun _ ht => absurd ht List.not_mem_nil
  capture_hash := fun _ hc => absurd hc List.not_mem_nil
  ticket_hash := fun _ ht => absurd ht List.not_mem_nil

/-- The capture of a job. -/
theorem capture_of_job (f : Fleet) {j : DeliveryJob} (hj : j ∈ f.store.jobs) :
    ∃ c ∈ f.store.captures, c.captureId = j.captureId :=
  List.mem_map.mp ((store_references f).job_capture j hj)

/-- The target of a job. -/
theorem target_of_job (f : Fleet) {j : DeliveryJob} (hj : j ∈ f.store.jobs) :
    ∃ t ∈ f.store.targets, t.targetId = j.targetId :=
  List.mem_map.mp ((store_references f).job_target j hj)

/-- The capture an enqueue writes, in the store it leaves. -/
theorem writes_cases (ticket : CaptureTicket) (nextval : Nat) (s : Store) :
    (s.captures.find? ticket.names = none ∧ ticket.writes nextval s = nextval)
      ∨ ∃ c ∈ s.captures, ticket.names c = true ∧ ticket.writes nextval s = c.captureId := by
  unfold CaptureTicket.writes
  cases h : s.captures.find? ticket.names with
  | none => exact Or.inl ⟨rfl, rfl⟩
  | some c => exact Or.inr ⟨c, List.mem_of_find?_eq_some h, List.find?_some h, rfl⟩

theorem names_target {ticket : CaptureTicket} {c : SuffixCapture} (h : ticket.names c = true) :
    c.targetId = ticket.targetId ∧ c.version = ticket.version := by
  simpa [CaptureTicket.names] using h

/-- The job an event inserts belongs to the target of its capture. -/
theorem JobBorn.capture_of_target {j : DeliveryJob} (hs : s.Unique) (hs' : s'.Unique)
    (h : JobBorn s s' e j) : ∀ c ∈ s'.captures, c.captureId = j.captureId →
      c.targetId = j.targetId := by
  have hnewest : ∀ t d, s.newestCapture t = some d → s'.captures = s.captures →
      ∀ c ∈ s'.captures, c.captureId = d.captureId → c.targetId = t := by
    intro t d hd hsame c hc hid
    obtain ⟨hdm, hdt⟩ := newestCapture_mem hd
    rw [key_unique hs.capture_key (hsame ▸ hc) hdm hid, hdt]
  cases h with
  | @enqueued ticket nextval jobId he hj hcaptures =>
    intro c hc hid
    have hid : c.captureId = ticket.writes nextval s := hid
    show c.targetId = ticket.targetId
    have hrow : ∃ d ∈ s'.captures, d.captureId = ticket.writes nextval s
        ∧ d.targetId = ticket.targetId := by
      rw [hcaptures]
      unfold saveCapture
      rcases writes_cases ticket nextval s with ⟨hn, hw⟩ | ⟨d, hd, hn, hw⟩
      · rw [hn, hw]
        exact ⟨_, List.mem_append_right _ (List.mem_singleton_self _), rfl, rfl⟩
      · rw [hw]
        split
        · rename_i hnone
          exact absurd hn (by simpa using List.find?_eq_none.mp hnone d hd)
        · exact ⟨_, mem_updateWhere.mpr ⟨d, hd, Or.inl ⟨hn, rfl⟩⟩, rfl, (names_target hn).1⟩
    obtain ⟨d, hd, hdid, hdt⟩ := hrow
    rw [key_unique hs'.capture_key hc hd (hid.trans hdid.symm), hdt]
  | queued he ht hen hd hj hsame => exact hnewest _ _ hd hsame
  | missing he hm hsame =>
    cases hm with
    | mk ht hw hd hj => exact hnewest _ _ hd hsame

/-- A ticket in flight was issued by the first transaction of its enqueue. -/
theorem ticket_before {ticket : CaptureTicket} (h : ticket ∈ ((fleet cfg).next f e).inFlight) :
    ticket ∈ f.inFlight ∨ ∃ input dateNow, e.call = .beginEnqueue input dateNow
      ∧ (beginEnqueue cfg input dateNow).run f.store =
        .ok (ticket, ((fleet cfg).next f e).store) := by
  have hmem : ∀ r : Except StoreError Reply, ticket ∈ e.inFlight r f.inFlight →
      ticket ∈ f.inFlight ∨ ∃ input dateNow, e.call = .beginEnqueue input dateNow
        ∧ r = .ok (.ticket ticket) := by
    intro r hr
    unfold Event.inFlight at hr
    split at hr
    · rename_i input dateNow t he
      rcases List.mem_append.mp hr with hr | hr
      · exact Or.inl hr
      · rw [List.mem_singleton.mp hr]
        exact Or.inr ⟨_, _, he, rfl⟩
    · exact Or.inl (List.mem_of_mem_erase hr)
    · exact Or.inl hr
  rcases next_cases cfg f e with ⟨r, hc, hflight⟩ | ⟨err, -, hflight⟩ | h'
  · rw [hflight] at h
    rcases hmem _ h with h | ⟨input, dateNow, he, hr⟩
    · exact Or.inl h
    · obtain rfl := Except.ok.inj hr
      have hw := hc.work.2
      simp only [Event.work, he] at hw
      obtain ⟨t, hrun, ht⟩ := Work.reply_ok.mp hw
      obtain rfl := Reply.ticket.inj ht
      exact Or.inr ⟨input, dateNow, he, hrun⟩
  · rw [hflight] at h
    rcases hmem _ h with h | ⟨input, dateNow, he, hr⟩
    · exact Or.inl h
    · exact absurd hr (by simp)
  · exact Or.inl (h' ▸ h)

/-- A capture after an event with the id of one before it is that one. -/
theorem capture_moved {c d : SuffixCapture} (hc : c ∈ f.store.captures)
    (hd : d ∈ ((fleet cfg).next f e).store.captures) (hid : d.captureId = c.captureId) :
    CaptureMove f e c d := by
  rcases capture_before hd with ⟨c', hc', hm⟩ | hborn
  · obtain rfl := key_unique (store_unique f).capture_key hc' hc (hm.key.1.symm.trans hid)
    exact hm
  · exact absurd hid.symm (hborn.fresh (store_unique _) c hc)

/-! ## Every event keeps it -/

theorem exclusive_step (h : Inv cfg f) : ∀ j ∈ ((fleet cfg).next f e).store.jobs,
    ∀ k ∈ ((fleet cfg).next f e).store.jobs, j.targetId = k.targetId →
      j.state = .leased → k.state = .leased → j = k := by
  intro j' hj' k' hk' ht hjl hkl
  have hu' := store_unique ((fleet cfg).next f e)
  refine key_unique hu'.job_key hj' hk' ?_
  obtain ⟨j, hjm, hj⟩ := job_before hj'
  obtain ⟨k, hkm, hk⟩ := job_before hk'
  -- A row handed out is alone; two rows that were leased before were one row.
  rcases hjm.to_leased hjl with ⟨hjl0, -⟩ | ⟨req, c, rfl, hh⟩
  · rcases hkm.to_leased hkl with ⟨hkl0, -⟩ | ⟨req, c, rfl, hh⟩
    · have hjs : j ∈ f.store.jobs := hj.resolve_right fun hb => by simp [hb.born.pending] at hjl0
      have hks : k ∈ f.store.jobs := hk.resolve_right fun hb => by simp [hb.born.pending] at hkl0
      rw [targetId_of_key hjm.key, targetId_of_key hkm.key] at ht
      rw [jobId_of_key hjm.key, jobId_of_key hkm.key, h.exclusive j hjs k hks ht hjl0 hkl0]
    · rw [jobId_of_key hkm.key]
      exact hh.grants.alone j' hj' (ht.trans (targetId_of_key hkm.key)) hjl
  · rw [jobId_of_key hjm.key]
    exact (hh.grants.alone k' hk' (ht.symm.trans (targetId_of_key hjm.key)) hkl).symm

theorem capture_of_target_step (h : ∀ j ∈ f.store.jobs, ∀ c ∈ f.store.captures,
    c.captureId = j.captureId → c.targetId = j.targetId) :
    ∀ j ∈ ((fleet cfg).next f e).store.jobs, ∀ c ∈ ((fleet cfg).next f e).store.captures,
      c.captureId = j.captureId → c.targetId = j.targetId := by
  intro k hk d hd hid
  obtain ⟨j, hm, hj⟩ := job_before hk
  rw [targetId_of_key hm.key]
  rw [captureId_of_key hm.key] at hid
  rcases hj with hj | hb
  · rcases capture_before hd with ⟨c, hc, hcm⟩ | hborn
    · rw [hcm.key.2.1]
      exact h j hj c hc (hcm.key.1.symm.trans hid)
    · obtain ⟨c, hc, hcj⟩ := capture_of_job f hj
      exact absurd (hcj.trans hid.symm) (hborn.fresh (store_unique _) c hc)
  · exact hb.born.capture_of_target (store_unique f) (store_unique _) d hd hid

theorem capture_hash_step
    (hcaptures : ∀ c ∈ f.store.captures, c.suffixHash = cfg.digest c.exactSuffix)
    (htickets : ∀ ticket ∈ f.inFlight, ticket.suffixHash = cfg.digest ticket.exactSuffix) :
    ∀ c ∈ ((fleet cfg).next f e).store.captures, c.suffixHash = cfg.digest c.exactSuffix := by
  intro d hd
  rcases capture_before hd with ⟨c, hc, hcm⟩ | hborn
  · cases hcm with
    | keep => exact hcaptures d hc
    | rewritten he hm hn => exact htickets _ hm
  · cases hborn with
    | mk he hm hn => exact htickets _ hm

theorem ticket_hash_step
    (h : ∀ ticket ∈ f.inFlight, ticket.suffixHash = cfg.digest ticket.exactSuffix) :
    ∀ ticket ∈ ((fleet cfg).next f e).inFlight,
      ticket.suffixHash = cfg.digest ticket.exactSuffix := by
  intro ticket ht
  rcases ticket_before ht with ht | ⟨input, dateNow, he, hrun⟩
  · exact h ticket ht
  · obtain ⟨en, -, -, -, hsuffix, hhash, -⟩ := beginEnqueue_ok (store_unique f) hrun
    rw [hsuffix, hhash]

/-- **Every event keeps the invariant.** -/
theorem inv_step (h : Inv cfg f) : Inv cfg ((fleet cfg).next f e) where
  capture_of_target := capture_of_target_step h.capture_of_target
  exclusive := exclusive_step h
  lease_columns := by
    intro k hk hkl
    obtain ⟨j, hm, hj⟩ := job_before hk
    rcases hm.to_leased hkl with ⟨hjl, hrow⟩ | ⟨req, c, rfl, hh⟩
    · have hjs : j ∈ f.store.jobs := hj.resolve_right fun hb => by simp [hb.born.pending] at hjl
      obtain ⟨h1, h2, h3, h4⟩ := h.lease_columns j hjs hjl
      rcases hrow with rfl | ⟨input, lease, hr⟩
      · exact ⟨h1, h2, h3, h4⟩
      · rw [hr.row]
        exact ⟨h1, by simp [DeliveryJob.renew], h3, h4⟩
    · rw [hh.row]
      simp [DeliveryJob.grant]
  interval := by
    intro u hu
    rcases target_before hu with ⟨t, ht, hm⟩ | hborn
    · cases hm with
      | enrolled => rfl
      | keep => exact h.interval u ht
      | switched => exact h.interval t ht
      | applied => exact h.interval t ht
    · cases hborn with
      | mk => rfl
  capture_hash := capture_hash_step h.capture_hash h.ticket_hash
  ticket_hash := ticket_hash_step h.ticket_hash

/-- **The invariant holds in every reachable state.** -/
theorem inv_run (cfg : Config) (es : List Event) : Inv cfg ((fleet cfg).run Fleet.initial es) :=
  EventSystem.run_inv_true (inv_initial cfg) fun _ _ => inv_step

end LinkSuffix
