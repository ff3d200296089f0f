import LinkSuffix.Ads.ApiRequest
import LinkSuffix.Ads.MutationLock
import LinkSuffix.Lib.Run
import Mathlib.Tactic.Linarith

/-!
# The suffix updates of a process

`updateCampaignSuffix` of the `@tah/google-ads` package: under the lock of the campaign it reads the
suffix, checks the time of the last mutation, and mutates. Any number of calls of any number of
updaters overlap; every await of a call comes back on its own, and the clock does not go back.

* `updateCampaignSuffix`, `answer`: the code, from one await to the next.
* `Sound`: the invariant; the lock is orderly, and what is under way or logged is within its bounds.
* **`updates_serialized`**: one call of a campaign at a time, mutations the interval apart, requests
  bounded, and nothing left waiting.
* `four_requests_without_retries`: a request that is sent twice fetches a token twice.
-/

namespace LinkSuffix.GoogleAds

open Lib

/-! ## The arguments -/

/-- Digits, so many of them. -/
def isDigits (value : String) (low high : Nat) : Bool :=
  value.toList.all (·.isDigit) && low ≤ value.length && value.length ≤ high

/-- `normalizeCustomerId`. -/
def normalizeCustomerId (value : String) : Except String String :=
  let normalized := String.ofList (value.toList.filter (· ≠ '-'))
  if isDigits normalized 6 15 then .ok normalized
  else .error "customerId must contain 6-15 digits"

/-- `normalizeCampaignId`. -/
def normalizeCampaignId (value : String) : Except String String :=
  if isDigits value 1 value.length then .ok value
  else .error "campaignId must be a numeric Google Ads campaign ID"

/-- `validateSuffix`. -/
def validateSuffix (suffix : String) : Except String Unit :=
  if suffix.toList = [] then .error "final URL suffix is required"
  else if suffix.toList.head? = some '?' then
    .error "final URL suffix must not include the leading question mark"
  else if '#' ∈ suffix.toList then .error "final URL suffix must not include a URL fragment"
  else if '\r' ∈ suffix.toList ∨ '\n' ∈ suffix.toList then
    .error "final URL suffix must not contain line breaks"
  else if utf16Length suffix > 2048 then .error "final URL suffix exceeds 2048 characters"
  else .ok ()

/-! ## The state -/

/-- `UpdateOptions`. -/
structure UpdateOptions where
  validateOnly : Bool := false
  enforceMinimumInterval : Bool := true

/-- `UpdateResult` of a campaign. -/
structure UpdateResult where
  customerId : String
  resourceName : String
  previousSuffix : String
  newSuffix : String
  updatedAt : Int
  mutated : Bool
  validateOnly : Bool
  requestId : Option String

/-- Which request of the task is under way: the read, or the mutation with the time of the check
before it. -/
inductive Path where
  | search
  | mutate (previousSuffix : String) (checkedAt : Int)

/-- How far a call is. -/
inductive Progression where
  | queued
  | running (path : Path) (p : Pending)
  | done (outcome : Except Thrown UpdateResult)

/-- A call of `updateCampaignSuffix` with normalized arguments, and the updater it is made on. -/
structure Task where
  updater : Nat
  customerId : String
  campaignId : String
  suffix : String
  options : UpdateOptions
  progress : Progression := .queued

/-- `key`. -/
def Task.key (t : Task) : String := t.customerId ++ ":" ++ t.campaignId

/-- `resource`. -/
def Task.resource (t : Task) : String :=
  "customers/" ++ t.customerId ++ "/campaigns/" ++ t.campaignId

/-- Where the call is in the lock. -/
def Task.stage (t : Task) : Stage :=
  match t.progress with
  | .queued => .waiting
  | .running _ _ => .inside
  | .done _ => .ended

/-- A successful mutation: when the interval was checked, and when it was recorded. -/
structure Mutation where
  key : String
  enforced : Bool
  minimumMutationIntervalMs : ℚ
  checkedAt : Int
  doneAt : Int

/-- A request that has ended. -/
structure Sent where
  updater : Nat
  chain : Chain
  outcome : Except Thrown ApiResponse

/-- The process: the clock, the tokens of the updaters, the lock, `lastCampaignMutationAt`, the
calls; and the successful mutations and the ended requests so far. -/
structure State where
  now : Int := 0
  tokens : Nat → Option Token := fun _ => none
  lock : Lock := {}
  tasks : List Task := []
  lastCampaignMutationAt : String → Option Int := fun _ => none
  mutations : List Mutation := []
  sent : List Sent := []

/-! ## The code -/

/-- What `updateCampaignSuffix` makes of the response to its read. -/
inductive Found where
  | ended (outcome : Except Thrown UpdateResult)
  | mutate (previousSuffix : String)

section Code

variable (configs : Nat → GoogleAdsConfig)

/-- The updater of a call. -/
def Task.on (t : Task) : Updater := (configs t.updater).updater

/-- The result of a call. -/
def Task.result (t : Task) (previousSuffix : String) (now : Int) (mutated : Bool)
    (requestId : Option String) : UpdateResult where
  customerId := t.customerId
  resourceName := t.resource
  previousSuffix := previousSuffix
  newSuffix := t.suffix
  updatedAt := now
  mutated := mutated
  validateOnly := t.options.validateOnly
  requestId := requestId

/-- The task of `updateCampaignSuffix` from the response of the read to its second request. -/
def Task.found (t : Task) (now : Int) (last : Option Int) (search : ApiResponse) : Found :=
  let campaign := ((search.body.get "results").items.headD .undefined).get "campaign"
  if !campaign.truthy then
    .ended (.error (.api
      { message := "Google Ads campaign was not found or is not accessible"
        status := 404, requestId := search.requestId }))
  else
    let previousSuffix := ((campaign.get "finalUrlSuffix").orElse (.string "")).toText
    if previousSuffix = t.suffix && !t.options.validateOnly then
      .ended (.ok (t.result previousSuffix now false search.requestId))
    else if t.options.enforceMinimumInterval && !t.options.validateOnly then
      let remaining := (t.on configs).minimumMutationIntervalMs - ((now - last.getD 0 : Int) : ℚ)
      if 0 < remaining then .ended (.error (.interval remaining)) else .mutate previousSuffix
    else .mutate previousSuffix

/-- A call goes on. -/
def State.set (s : State) (n : Nat) (t : Task) (progress : Progression) : State :=
  { s with tasks := s.tasks.set n { t with progress } }

/-- A call ends: the `finally` of the lock. -/
def State.finish (s : State) (n : Nat) (t : Task) (outcome : Except Thrown UpdateResult) : State :=
  { s.set n t (.done outcome) with lock := s.lock.leave n }

/-- A request of a call ends. -/
def State.settle (s : State) (n : Nat) (t : Task) (path : Path) (chain : Chain)
    (outcome : Except Thrown ApiResponse) : State :=
  let s : State := { s with sent := s.sent ++ [{ updater := t.updater, chain, outcome }] }
  match outcome, path with
  | .error e, _ => s.finish n t (.error e)
  | .ok search, .search =>
    match t.found configs s.now (s.lastCampaignMutationAt t.key) search with
    | .ended outcome => s.finish n t outcome
    | .mutate previousSuffix =>
      s.set n t (.running (.mutate previousSuffix s.now) (request (s.tokens t.updater) s.now {}))
  | .ok mutation, .mutate previousSuffix checkedAt =>
    let s :=
      if t.options.validateOnly then s
      else
        { s with
          lastCampaignMutationAt :=
            Function.update s.lastCampaignMutationAt t.key (some s.now)
          mutations := s.mutations ++ [{
            key := t.key
            enforced := t.options.enforceMinimumInterval
            minimumMutationIntervalMs := (t.on configs).minimumMutationIntervalMs
            checkedAt := checkedAt
            doneAt := s.now }] }
    s.finish n t
      (.ok (t.result previousSuffix s.now (!t.options.validateOnly) mutation.requestId))

/-- An await of the `n`-th call comes back. -/
def answer (s : State) (n : Nat) (a : Answer) : State :=
  match s.tasks[n]? with
  | none => s
  | some t =>
    match t.progress with
    | .queued =>
      match a with
      | .wake =>
        if s.lock.ready n then
          { s.set n t (.running .search (request (s.tokens t.updater) s.now {})) with
            lock := s.lock.enter n }
        else s
      | _ => s
    | .running path p =>
      match p.resume (t.on configs) (s.tokens t.updater) s.now a with
      | none => s
      | some (token, progress) =>
        let s : State := { s with tokens := Function.update s.tokens t.updater token }
        match progress with
        | .pending p => s.set n t (.running path p)
        | .settled chain outcome => s.settle configs n t path chain outcome
    | .done _ => s

/-- `updateCampaignSuffix` up to its first await. -/
def updateCampaignSuffix (s : State) (updater : Nat) (customerId campaignId suffix : String)
    (options : UpdateOptions) : State × Option String :=
  match normalizeCustomerId customerId with
  | .error message => (s, some message)
  | .ok customerId => match normalizeCampaignId campaignId with
    | .error message => (s, some message)
    | .ok campaignId => match validateSuffix suffix with
      | .error message => (s, some message)
      | .ok () =>
        let t : Task := { updater, customerId, campaignId, suffix, options }
        ({ s with lock := s.lock.arrive t.key, tasks := s.tasks ++ [t] }, none)

/-- Time passes, a call is made, an await comes back. -/
inductive Event where
  | tick (ms : Nat)
  | update (updater : Nat) (customerId campaignId suffix : String) (options : UpdateOptions)
  | answer (n : Nat) (a : Answer)

/-- The process. -/
def process : EventSystem State Event (Option String) where
  step s
    | .tick ms => ({ s with now := s.now + ms }, none)
    | .update updater customerId campaignId suffix options =>
      updateCampaignSuffix s updater customerId campaignId suffix options
    | .answer n a => (answer configs s n a, none)

end Code

/-! ## The invariant -/

variable {configs : Nat → GoogleAdsConfig} {s : State} {n : Nat} {t : Task}

/-- A call under its lock, from its read to its mutation. -/
def Task.running (t : Task) : Prop := t.stage = .inside

/-- The lock is orderly and knows where every call is; the requests are within their bounds; a
mutation that was checked, or is under way, comes the interval after those before it. -/
structure Sound (configs : Nat → GoogleAdsConfig) (s : State) : Prop where
  lock : s.lock.Orderly
  length : s.lock.turns.length = s.tasks.length
  paired : ∀ {n : Nat} {t : Task}, s.tasks[n]? = some t →
    ∃ turn, s.lock.turns[n]? = some turn ∧ turn.key = t.key ∧ turn.stage = t.stage
  within : ∀ {n : Nat} {t : Task} {path : Path} {p : Pending}, s.tasks[n]? = some t →
    t.progress = .running path p → p.Within (t.on configs)
  sent : ∀ r ∈ s.sent, Ended (configs r.updater).updater r.chain r.outcome
  recorded : ∀ m ∈ s.mutations, ∃ last, s.lastCampaignMutationAt m.key = some last ∧
    m.doneAt ≤ last ∧ last ≤ s.now
  checked : ∀ {n : Nat} {t : Task} {previousSuffix : String} {checkedAt : Int} {p : Pending},
    s.tasks[n]? = some t → t.progress = .running (.mutate previousSuffix checkedAt) p →
    checkedAt ≤ s.now ∧ (t.options.enforceMinimumInterval = true → t.options.validateOnly = false →
      ∀ m ∈ s.mutations, m.key = t.key →
        (m.doneAt : ℚ) + (t.on configs).minimumMutationIntervalMs ≤ checkedAt)
  spaced : s.mutations.Pairwise fun a b => a.key = b.key → b.enforced = true →
    (a.doneAt : ℚ) + b.minimumMutationIntervalMs ≤ b.checkedAt
  timely : ∀ m ∈ s.mutations, m.checkedAt ≤ m.doneAt

/-- The calls after one of them goes on. -/
theorem getElem?_set_progress {tasks : List Task} {progress : Progression} {i : Nat} {u : Task}
    (h : (tasks.set n { t with progress })[i]? = some u) :
    (i = n ∧ u = { t with progress }) ∨ (i ≠ n ∧ tasks[i]? = some u) := by
  rw [List.getElem?_set] at h
  split at h
  case isTrue hi =>
    split at h
    · exact Or.inl ⟨hi.symm, (Option.some.inj h).symm⟩
    · exact absurd h nofun
  case isFalse hi => exact Or.inr ⟨Ne.symm hi, h⟩

/-- Two calls of one campaign under the lock are one. -/
theorem Sound.exclusive (h : Sound configs s) {i j : Nat} {a b : Task}
    (hi : s.tasks[i]? = some a) (hj : s.tasks[j]? = some b) (hkey : a.key = b.key)
    (ha : a.running) (hb : b.running) : i = j := by
  obtain ⟨first, hfirst, hfirstKey, hfirstStage⟩ := h.paired hi
  obtain ⟨second, hsecond, hsecondKey, hsecondStage⟩ := h.paired hj
  exact h.lock.exclusive hfirst hsecond (by rw [hfirstKey, hkey, hsecondKey])
    (hfirstStage.trans ha) (hsecondStage.trans hb)

/-- The state keeps its sense when the tokens change and a request is logged. -/
theorem Sound.noted (h : Sound configs s) (tokens : Nat → Option Token) {sent : List Sent}
    (hsent : ∀ r ∈ sent, Ended (configs r.updater).updater r.chain r.outcome) :
    Sound configs { s with tokens, sent } where
  lock := h.lock
  length := h.length
  paired := h.paired
  within := h.within
  sent := hsent
  recorded := h.recorded
  checked := h.checked
  spaced := h.spaced
  timely := h.timely

theorem Sound.ended (h : Sound configs s) {r : Sent}
    (hr : Ended (configs r.updater).updater r.chain r.outcome) :
    ∀ r' ∈ s.sent ++ [r], Ended (configs r'.updater).updater r'.chain r'.outcome := by
  intro r' hr'
  rcases List.mem_append.mp hr' with hr' | hr'
  · exact h.sent r' hr'
  · rwa [List.mem_singleton.mp hr']

/-- A call goes on with another request, in the same place of the lock. -/
theorem Sound.set (h : Sound configs s) (ht : s.tasks[n]? = some t) (hrunning : t.running)
    {path : Path} {p : Pending} (hwithin : p.Within (t.on configs))
    (hchecked : ∀ previousSuffix checkedAt, path = .mutate previousSuffix checkedAt →
      checkedAt ≤ s.now ∧ (t.options.enforceMinimumInterval = true →
        t.options.validateOnly = false → ∀ m ∈ s.mutations, m.key = t.key →
          (m.doneAt : ℚ) + (t.on configs).minimumMutationIntervalMs ≤ checkedAt)) :
    Sound configs (s.set n t (.running path p)) where
  lock := h.lock
  length := by rw [State.set, List.length_set]; exact h.length
  paired hi := by
    rcases getElem?_set_progress hi with ⟨rfl, rfl⟩ | ⟨-, hi⟩
    · obtain ⟨turn, hturn, hkey, hstage⟩ := h.paired ht
      exact ⟨turn, hturn, hkey, hstage.trans hrunning⟩
    · exact h.paired hi
  within hi hp := by
    rcases getElem?_set_progress hi with ⟨rfl, rfl⟩ | ⟨-, hi⟩
    · obtain ⟨-, rfl⟩ := Progression.running.inj hp
      exact hwithin
    · exact h.within hi hp
  sent := h.sent
  recorded := h.recorded
  checked hi hp := by
    rcases getElem?_set_progress hi with ⟨rfl, rfl⟩ | ⟨-, hi⟩
    · obtain ⟨hpath, -⟩ := Progression.running.inj hp
      exact hchecked _ _ hpath
    · exact h.checked hi hp
  spaced := h.spaced
  timely := h.timely

/-- The lock still knows where every call is when one of them moves with its turn. -/
theorem Sound.paired_moved (h : Sound configs s) (ht : s.tasks[n]? = some t) {lock : Lock}
    {stage : Stage} (hmoved : Lock.Moved s.lock lock n stage) {progress : Progression}
    (hprogress : { t with progress }.stage = stage) {i : Nat} {u : Task}
    (hi : (s.tasks.set n { t with progress })[i]? = some u) :
    ∃ turn, lock.turns[i]? = some turn ∧ turn.key = u.key ∧ turn.stage = u.stage := by
  rcases getElem?_set_progress hi with ⟨rfl, rfl⟩ | ⟨hne, hi⟩
  · obtain ⟨old, hold, holdKey, -⟩ := h.paired ht
    obtain ⟨now, hnow, hnowKey, -, hstage⟩ := hmoved.forth hold
    refine ⟨now, hnow, hnowKey.trans holdKey, ?_⟩
    rcases hstage with ⟨-, hstage⟩ | ⟨hne, -⟩
    · exact hstage.trans hprogress.symm
    · exact absurd rfl hne
  · obtain ⟨old, hold, holdKey, holdStage⟩ := h.paired hi
    obtain ⟨now, hnow, hnowKey, -, hstage⟩ := hmoved.forth hold
    refine ⟨now, hnow, hnowKey.trans holdKey, ?_⟩
    rcases hstage with ⟨heq, -⟩ | ⟨-, hstage⟩
    · exact absurd heq hne
    · exact hstage.trans holdStage

/-- A call starts its task. -/
theorem Sound.enter (h : Sound configs s) (ht : s.tasks[n]? = some t)
    (hready : s.lock.ready n = true) {p : Pending} (hwithin : p.Within (t.on configs)) :
    Sound configs { s.set n t (.running .search p) with lock := s.lock.enter n } where
  lock := h.lock.enter hready
  length := by
    rw [Lock.length_enter]
    simpa [State.set] using h.length
  paired {i u} hi := by
    obtain ⟨turn, hturn, -⟩ := h.paired ht
    exact h.paired_moved ht (Lock.moved_enter hturn) rfl hi
  within hi hp := by
    rcases getElem?_set_progress hi with ⟨rfl, rfl⟩ | ⟨-, hi⟩
    · obtain ⟨-, rfl⟩ := Progression.running.inj hp
      exact hwithin
    · exact h.within hi hp
  sent := h.sent
  recorded := h.recorded
  checked hi hp := by
    rcases getElem?_set_progress hi with ⟨rfl, rfl⟩ | ⟨-, hi⟩
    · exact absurd (Progression.running.inj hp).1 nofun
    · exact h.checked hi hp
  spaced := h.spaced
  timely := h.timely

/-- A call ends, and leaves the lock. -/
theorem Sound.finish (h : Sound configs s) (ht : s.tasks[n]? = some t) (hrunning : t.running)
    (outcome : Except Thrown UpdateResult) : Sound configs (s.finish n t outcome) := by
  obtain ⟨turn, hturn, -, hstage⟩ := h.paired ht
  refine ⟨h.lock.leave hturn (hstage.trans hrunning), ?_, ?_, ?_, h.sent, h.recorded, ?_, h.spaced,
    h.timely⟩
  · show (s.lock.leave n).turns.length = (s.tasks.set n { t with progress := .done outcome }).length
    rw [Lock.length_leave, List.length_set]
    exact h.length
  · intro i u hi
    exact h.paired_moved ht (Lock.moved_leave hturn) rfl hi
  · intro i u path p hi hp
    rcases getElem?_set_progress hi with ⟨rfl, rfl⟩ | ⟨-, hi⟩
    · exact absurd hp nofun
    · exact h.within hi hp
  · intro i u previousSuffix checkedAt p hi hp
    rcases getElem?_set_progress hi with ⟨rfl, rfl⟩ | ⟨-, hi⟩
    · exact absurd hp nofun
    · exact h.checked hi hp

/-- A mutation is recorded when no call of its campaign is under the lock any more. -/
theorem Sound.record (h : Sound configs s) {m : Mutation} (hdone : m.doneAt = s.now)
    (hnone : ∀ {i : Nat} {u : Task}, s.tasks[i]? = some u → u.running → u.key ≠ m.key)
    (hcheckedAt : m.checkedAt ≤ s.now)
    (hspaced : m.enforced = true → ∀ a ∈ s.mutations, a.key = m.key →
      (a.doneAt : ℚ) + m.minimumMutationIntervalMs ≤ m.checkedAt) :
    Sound configs { s with
      lastCampaignMutationAt := Function.update s.lastCampaignMutationAt m.key (some s.now)
      mutations := s.mutations ++ [m] } where
  lock := h.lock
  length := h.length
  paired := h.paired
  within := h.within
  sent := h.sent
  recorded a ha := by
    by_cases hkey : a.key = m.key
    · refine ⟨s.now, by rw [hkey]; exact Function.update_self .., ?_, le_rfl⟩
      rcases List.mem_append.mp ha with ha | ha
      · obtain ⟨last, -, hle, hnow⟩ := h.recorded a ha
        exact hle.trans hnow
      · rw [List.mem_singleton.mp ha, hdone]
    · rcases List.mem_append.mp ha with ha | ha
      · obtain ⟨last, hlast, hle, hnow⟩ := h.recorded a ha
        exact ⟨last, (Function.update_of_ne hkey ..).trans hlast, hle, hnow⟩
      · exact absurd (by rw [List.mem_singleton.mp ha]) hkey
  checked {i u previousSuffix checkedAt p} hi hp := by
    obtain ⟨hle, hall⟩ := h.checked hi hp
    refine ⟨hle, fun henforce hvalidate a ha hkey => ?_⟩
    rcases List.mem_append.mp ha with ha | ha
    · exact hall henforce hvalidate a ha hkey
    · have hrunning : u.running := by simp [Task.running, Task.stage, hp]
      rw [List.mem_singleton.mp ha] at hkey
      exact absurd hkey.symm (hnone hi hrunning)
  spaced := by
    refine List.pairwise_append.mpr ⟨h.spaced, List.pairwise_singleton _ _, fun a ha b hb => ?_⟩
    rw [List.mem_singleton.mp hb]
    exact fun hkey henforced => hspaced henforced a ha hkey
  timely a ha := by
    rcases List.mem_append.mp ha with ha | ha
    · exact h.timely a ha
    · rw [List.mem_singleton.mp ha, hdone]
      exact hcheckedAt

/-- A call arrives. -/
theorem Sound.arrive (h : Sound configs s) (ht : t.progress = .queued) :
    Sound configs { s with lock := s.lock.arrive t.key, tasks := s.tasks ++ [t] } := by
  have hcases : ∀ {i : Nat} {u : Task}, (s.tasks ++ [t])[i]? = some u →
      s.tasks[i]? = some u ∨ i = s.tasks.length ∧ u = t := by
    intro i u hi
    rw [List.getElem?_append] at hi
    split at hi
    · exact Or.inl hi
    · obtain ⟨hlast, rfl⟩ := List.getElem?_eq_some_iff.mp hi
      simp only [List.length_singleton] at hlast
      exact Or.inr ⟨by omega, by simp⟩
  refine ⟨h.lock.arrive t.key, ?_, ?_, ?_, h.sent, h.recorded, ?_, h.spaced, h.timely⟩
  · simpa [Lock.arrive] using h.length
  · intro i u hi
    rcases hcases hi with hi | ⟨rfl, rfl⟩
    · obtain ⟨turn, hturn, hkey, hstage⟩ := h.paired hi
      refine ⟨turn, ?_, hkey, hstage⟩
      show (s.lock.turns ++ [_])[i]? = some turn
      rw [List.getElem?_append_left (List.getElem?_eq_some_iff.mp hturn).1]
      exact hturn
    · refine ⟨{ key := u.key, previous := (s.lock.tails u.key).getD .resolved }, ?_, rfl, ?_⟩
      · show (s.lock.turns ++ [_])[s.tasks.length]? = some _
        rw [← h.length, List.getElem?_concat_length]
      · simp [Task.stage, ht]
  · intro i u path p hi hp
    rcases hcases hi with hi | ⟨rfl, rfl⟩
    · exact h.within hi hp
    · rw [ht] at hp
      cases hp
  · intro i u previousSuffix checkedAt p hi hp
    rcases hcases hi with hi | ⟨rfl, rfl⟩
    · exact h.checked hi hp
    · rw [ht] at hp
      cases hp

/-- Time passes. -/
theorem Sound.tick (h : Sound configs s) (ms : Nat) :
    Sound configs { s with now := s.now + ms } where
  lock := h.lock
  length := h.length
  paired := h.paired
  within := h.within
  sent := h.sent
  recorded m hm := by
    obtain ⟨last, hlast, hle, hnow⟩ := h.recorded m hm
    refine ⟨last, hlast, hle, ?_⟩
    show last ≤ s.now + ms
    omega
  checked hi hp := by
    obtain ⟨hle, hall⟩ := h.checked hi hp
    refine ⟨?_, hall⟩
    dsimp only
    omega
  spaced := h.spaced
  timely := h.timely

/-- The interval is over when the mutation is sent. -/
theorem found_mutate {now : Int} {last : Option Int} {search : ApiResponse}
    {previousSuffix : String} (h : t.found configs now last search = .mutate previousSuffix)
    (henforce : t.options.enforceMinimumInterval = true)
    (hvalidate : t.options.validateOnly = false) :
    (t.on configs).minimumMutationIntervalMs ≤ ((now - last.getD 0 : Int) : ℚ) := by
  simp only [Task.found, henforce, hvalidate, Bool.not_false, Bool.and_true, if_true] at h
  split at h
  case isTrue => exact absurd h nofun
  case isFalse =>
    split at h
    case isTrue => exact absurd h nofun
    case isFalse =>
      split at h
      case isTrue => exact absurd h nofun
      case isFalse hremaining => exact sub_nonpos.mp (not_lt.mp hremaining)

theorem new_request_within (u : Updater) (token : Option Token) (now : Int) :
    (request token now {}).Within u :=
  request_within (Nat.zero_le _) (Nat.zero_le _) (Nat.zero_le _)

/-- A request of a call ends. -/
theorem Sound.settle (h : Sound configs s) (ht : s.tasks[n]? = some t) {path : Path} {p : Pending}
    (hp : t.progress = .running path p) {chain : Chain} {outcome : Except Thrown ApiResponse}
    (hended : Ended (t.on configs) chain outcome) :
    Sound configs (s.settle configs n t path chain outcome) := by
  have hrunning : t.running := by simp [Task.running, Task.stage, hp]
  have hnoted := h.noted s.tokens (h.ended (r := ⟨t.updater, chain, outcome⟩) hended)
  cases outcome with
  | error e => exact hnoted.finish ht hrunning (.error e)
  | ok response =>
    cases path with
    | search =>
      simp only [State.settle]
      split
      case h_1 => exact hnoted.finish ht hrunning _
      case h_2 previousSuffix hfound =>
        refine hnoted.set ht hrunning (new_request_within _ _ _) ?_
        rintro _ _ hpath
        obtain ⟨-, rfl⟩ := Path.mutate.inj hpath
        refine ⟨le_rfl, fun henforce hvalidate m hm hkey => ?_⟩
        have hinterval := found_mutate hfound henforce hvalidate
        obtain ⟨last, hlast, hle, -⟩ := h.recorded m hm
        rw [hkey] at hlast
        rw [hlast, Option.getD_some] at hinterval
        have hle' : (m.doneAt : ℚ) ≤ last := by exact_mod_cast hle
        push_cast at hinterval
        linarith
    | mutate previousSuffix checkedAt =>
      simp only [State.settle]
      split
      case isTrue => exact hnoted.finish ht hrunning _
      case isFalse hvalidate =>
        obtain ⟨hle, hall⟩ := h.checked ht hp
        refine (hnoted.finish ht hrunning _).record (m := ⟨t.key, t.options.enforceMinimumInterval,
          (t.on configs).minimumMutationIntervalMs, checkedAt, s.now⟩) rfl ?_ hle ?_
        · intro i u hi hu hkey
          rcases getElem?_set_progress hi with ⟨rfl, rfl⟩ | ⟨hne, hi⟩
          · exact absurd hu nofun
          · exact hne (h.exclusive hi ht hkey hu hrunning)
        · intro henforce a ha hkey
          exact hall henforce (by simpa using hvalidate) a ha hkey

/-- **Every await that comes back keeps the process sound.** -/
theorem Sound.answer (h : Sound configs s) (n : Nat) (a : Answer) :
    Sound configs (answer configs s n a) := by
  unfold GoogleAds.answer
  split
  case h_1 => exact h
  case h_2 t ht =>
    split
    case h_1 hqueued =>
      split
      case h_1 =>
        split
        case isTrue hready => exact h.enter ht hready (new_request_within _ _ _)
        case isFalse => exact h
      case h_2 => exact h
    case h_2 path p hp =>
      have hrunning : t.running := by simp [Task.running, Task.stage, hp]
      split
      case h_1 => exact h
      case h_2 token progress hresume =>
        have hgood := resume_good (h.within ht hp) hresume
        have hnoted := h.noted (Function.update s.tokens t.updater token) h.sent
        cases progress with
        | pending p' =>
          refine hnoted.set ht hrunning hgood.1 fun previousSuffix checkedAt hpath => ?_
          subst hpath
          exact h.checked ht hp
        | settled chain outcome => exact hnoted.settle ht hp hgood
    case h_3 => exact h

theorem Sound.next (h : Sound configs s) (e : Event) : Sound configs ((process configs).next s e) := by
  cases e with
  | tick ms => exact h.tick ms
  | update updater customerId campaignId suffix options =>
    show Sound configs (updateCampaignSuffix s updater customerId campaignId suffix options).1
    unfold updateCampaignSuffix
    split
    · exact h
    · split
      · exact h
      · split
        · exact h
        · exact h.arrive rfl
  | answer n a => exact h.answer n a

theorem sound_start : Sound configs {} where
  lock := Lock.orderly_empty
  length := rfl
  paired := nofun
  within := nofun
  sent := nofun
  recorded := nofun
  checked := nofun
  spaced := .nil
  timely := nofun

theorem run_sound (es : List Event) : Sound configs ((process configs).run {} es) :=
  EventSystem.run_inv_true sound_start fun _ e h => h.next e

/-! ## Every call ends -/

/-- The answers a call can still take: to start, for its read, and for its mutation. -/
def Task.ahead (configs : Nat → GoogleAdsConfig) (t : Task) : Nat :=
  match t.progress with
  | .queued => 2 * (5 * (t.on configs).lastAttempt + 5) + 1
  | .running .search p => p.ahead (t.on configs) + (5 * (t.on configs).lastAttempt + 5)
  | .running (.mutate _ _) p => p.ahead (t.on configs)
  | .done _ => 0

def ahead (configs : Nat → GoogleAdsConfig) (tasks : List Task) : Nat :=
  (tasks.map (Task.ahead configs)).sum

theorem ahead_le (configs : Nat → GoogleAdsConfig) (tasks : List Task) :
    ahead configs tasks ≤ 71 * tasks.length := by
  induction tasks with
  | nil => exact le_rfl
  | cons t rest ih =>
    have hone : t.ahead configs ≤ 71 := by
      have hlast : (t.on configs).lastAttempt ≤ 6 := lastAttempt_le _
      unfold Task.ahead
      split
      case h_1 => omega
      case h_2 p _ => have hp := p.ahead_le (t.on configs); omega
      case h_3 p _ => have hp := p.ahead_le (t.on configs); omega
      case h_4 => omega
    simp only [ahead, List.map_cons, List.sum_cons, List.length_cons] at ih ⊢
    omega

theorem ahead_set {tasks : List Task} (ht : tasks[n]? = some t) {progress : Progression}
    (hless : Task.ahead configs { t with progress } < t.ahead configs) :
    ahead configs (tasks.set n { t with progress }) < ahead configs tasks := by
  obtain ⟨hn, rfl⟩ := List.getElem?_eq_some_iff.mp ht
  rw [List.set_eq_take_append_cons_drop, if_pos hn]
  conv_rhs => rw [← List.take_append_drop n tasks, ← List.getElem_cons_drop hn]
  simp only [ahead, List.map_append, List.map_cons, List.sum_append, List.sum_cons]
  omega

theorem request_new_ahead (u : Updater) (token : Option Token) (now : Int) :
    (request token now {}).ahead u < 5 * u.lastAttempt + 5 :=
  lt_of_le_of_lt (request_ahead token now {}) (by simp)

/-- The end of a request leaves less. -/
theorem settle_ahead (ht : s.tasks[n]? = some t) {path : Path} {p : Pending}
    (hp : t.progress = .running path p) (chain : Chain) (outcome : Except Thrown ApiResponse) :
    ahead configs (s.settle configs n t path chain outcome).tasks < ahead configs s.tasks := by
  have hdone : ∀ result, Task.ahead configs { t with progress := .done result }
      < t.ahead configs := by
    intro result
    have hge := p.ahead_ge (t.on configs)
    cases path <;> simp only [Task.ahead, hp] <;> omega
  cases outcome with
  | error e => exact ahead_set ht (hdone _)
  | ok response =>
    cases path with
    | search =>
      simp only [State.settle]
      split
      case h_1 => exact ahead_set ht (hdone _)
      case h_2 previousSuffix _ =>
        refine ahead_set ht ?_
        have hnew := request_new_ahead (t.on configs) (s.tokens t.updater) s.now
        simp only [Task.ahead, hp]
        exact lt_of_lt_of_le hnew (Nat.le_add_left ..)
    | mutate previousSuffix checkedAt =>
      simp only [State.settle]
      split
      · exact ahead_set ht (hdone _)
      · exact ahead_set ht (hdone _)

/-- An answer that the request of a call takes leaves less. -/
theorem Sound.running_ahead (h : Sound configs s) (ht : s.tasks[n]? = some t) {path : Path}
    {p : Pending} (hp : t.progress = .running path p) {a : Answer}
    {next : Option Token × Progress}
    (hnext : p.resume (t.on configs) (s.tokens t.updater) s.now a = some next) :
    ahead configs (GoogleAds.answer configs s n a).tasks < ahead configs s.tasks := by
  have hgood := resume_good (h.within ht hp) hnext
  obtain ⟨token, progress⟩ := next
  simp only [GoogleAds.answer, ht, hp, hnext]
  cases progress with
  | pending p' =>
    refine ahead_set ht ?_
    have hless : p'.ahead (t.on configs) < p.ahead (t.on configs) := hgood.2
    cases path with
    | search => simp only [Task.ahead, hp]; exact Nat.add_lt_add_right hless _
    | mutate previousSuffix checkedAt => simp only [Task.ahead, hp]; exact hless
  | settled chain outcome =>
    exact settle_ahead (s := { s with tokens := Function.update s.tokens t.updater token }) ht hp
      chain outcome

/-- So does a call that starts. -/
theorem ready_ahead (ht : s.tasks[n]? = some t) (hqueued : t.progress = .queued)
    (hready : s.lock.ready n = true) :
    ahead configs (GoogleAds.answer configs s n .wake).tasks < ahead configs s.tasks := by
  simp only [GoogleAds.answer, ht, hqueued, hready, if_true]
  refine ahead_set ht ?_
  have hnew := request_new_ahead (t.on configs) (s.tokens t.updater) s.now
  have hwaiting : t.ahead configs = 2 * (5 * (t.on configs).lastAttempt + 5) + 1 := by
    simp [Task.ahead, hqueued]
  rw [hwaiting]
  show (request (s.tokens t.updater) s.now {}).ahead (t.on configs)
    + (5 * (t.on configs).lastAttempt + 5) < _
  omega

/-- **An answer is not taken, or leaves less.** -/
theorem Sound.answer_ahead (h : Sound configs s) (n : Nat) (a : Answer) :
    GoogleAds.answer configs s n a = s ∨
      ahead configs (GoogleAds.answer configs s n a).tasks < ahead configs s.tasks := by
  cases ht : s.tasks[n]? with
  | none => exact Or.inl (by simp [GoogleAds.answer, ht])
  | some t =>
    cases hp : t.progress with
    | queued =>
      cases a with
      | wake =>
        by_cases hready : s.lock.ready n = true
        · exact Or.inr (ready_ahead ht hp hready)
        · exact Or.inl (by simp [GoogleAds.answer, ht, hp, hready])
      | failure message => exact Or.inl (by simp [GoogleAds.answer, ht, hp])
      | response r => exact Or.inl (by simp [GoogleAds.answer, ht, hp])
    | running path p =>
      cases hnext : p.resume (t.on configs) (s.tokens t.updater) s.now a with
      | none => exact Or.inl (by simp [GoogleAds.answer, ht, hp, hnext])
      | some next => exact Or.inr (h.running_ahead ht hp hnext)
    | done outcome => exact Or.inl (by simp [GoogleAds.answer, ht, hp])

/-- No await can come back. -/
def AtRest (configs : Nat → GoogleAdsConfig) (s : State) : Prop :=
  ∀ n a, answer configs s n a = s

/-- The call has its result. -/
def Task.isDone (t : Task) : Prop := ∃ outcome, t.progress = .done outcome

/-- While a call waits for the lock, a call of its campaign is under it, or can start. -/
theorem Sound.unblocked (h : Sound configs s) (ht : s.tasks[n]? = some t)
    (hqueued : t.progress = .queued) : ∃ i first, s.tasks[i]? = some first ∧ first.key = t.key ∧
      (first.running ∨ first.progress = .queued ∧ s.lock.ready i = true) := by
  obtain ⟨turn, hturn, hkey, hstage⟩ := h.paired ht
  have hwaiting : turn.stage = .waiting := by simp [hstage, Task.stage, hqueued]
  obtain ⟨i, firstTurn, hi, hsame, hgo⟩ := h.lock.first_ready hturn hwaiting
  have hlength : i < s.tasks.length := h.length ▸ (List.getElem?_eq_some_iff.mp hi).1
  have hfirst : s.tasks[i]? = some s.tasks[i] := List.getElem?_eq_getElem hlength
  obtain ⟨other, hother, hotherKey, hotherStage⟩ := h.paired hfirst
  obtain rfl := Option.some.inj (hi.symm.trans hother)
  refine ⟨i, s.tasks[i], hfirst, ?_, ?_⟩
  · rw [← hotherKey, hsame, hkey]
  · rcases hgo with hinside | hready
    · exact Or.inl (hotherStage.symm.trans hinside)
    · refine Or.inr ⟨?_, hready⟩
      have hstageWaiting : s.tasks[i].stage = .waiting := by
        simp only [Lock.ready, hi, Option.any_some, Bool.and_eq_true, decide_eq_true_eq] at hready
        exact hotherStage.symm.trans hready.1
      cases hprogress : s.tasks[i].progress with
      | queued => rfl
      | running path p => simp [Task.stage, hprogress] at hstageWaiting
      | done outcome => simp [Task.stage, hprogress] at hstageWaiting

/-- At rest no call is under the lock. -/
theorem Sound.not_running_of_rest (h : Sound configs s) (hrest : AtRest configs s)
    (ht : s.tasks[n]? = some t) : ¬ t.running := by
  intro hrunning
  cases hp : t.progress with
  | queued => simp [Task.running, Task.stage, hp] at hrunning
  | done outcome => simp [Task.running, Task.stage, hp] at hrunning
  | running path p =>
    obtain ⟨a, next, hnext⟩ := exists_resume (t.on configs) p (s.tokens t.updater) s.now
    have hless := h.running_ahead ht hp hnext
    rw [hrest n a] at hless
    exact absurd hless (lt_irrefl _)

/-- **At rest every call has its result.** -/
theorem Sound.done_of_rest (h : Sound configs s) (hrest : AtRest configs s)
    (ht : s.tasks[n]? = some t) : t.isDone := by
  cases hp : t.progress with
  | done outcome => exact ⟨outcome, hp⟩
  | running path p =>
    exact absurd (by simp [Task.running, Task.stage, hp]) (h.not_running_of_rest hrest ht)
  | queued =>
    obtain ⟨i, first, hfirst, -, hrunning | ⟨hqueued, hready⟩⟩ := h.unblocked ht hp
    · exact absurd hrunning (h.not_running_of_rest hrest hfirst)
    · have hless := @ready_ahead configs _ _ _ hfirst hqueued hready
      rw [hrest i .wake] at hless
      exact absurd hless (lt_irrefl _)

/-- The awaits that come back are counted by the calls. -/
theorem Sound.drains (h : Sound configs s) {fs : List Event}
    (hfs : (process configs).Along (fun s e => (∃ n a, e = .answer n a) ∧
      (process configs).next s e ≠ s) s fs) : fs.length ≤ ahead configs s.tasks := by
  induction fs generalizing s with
  | nil => exact Nat.zero_le _
  | cons e fs ih =>
    obtain ⟨⟨⟨n, a, rfl⟩, hmoves⟩, hrest⟩ := hfs
    have hless := (h.answer_ahead n a).resolve_left hmoves
    have htail : fs.length ≤ ahead configs (GoogleAds.answer configs s n a).tasks :=
      ih (h.answer n a) hrest
    rw [List.length_cons]
    omega

/-! ## Serialized and bounded -/

/-- What holds of a process in a state it has reached. -/
structure Serialized (configs : Nat → GoogleAdsConfig) (s : State) : Prop where
  /-- Two calls of one campaign are never between their reads and their mutations together. -/
  exclusive : ∀ {i j : Nat} {a b : Task}, s.tasks[i]? = some a → s.tasks[j]? = some b →
    a.key = b.key → a.running → b.running → i = j
  /-- A call that waits is never blocked: one of its campaign is under way, or can start. -/
  unblocked : ∀ {n : Nat} {t : Task}, s.tasks[n]? = some t → t.progress = .queued →
    ∃ i first, s.tasks[i]? = some first ∧ first.key = t.key ∧
      (first.running ∨ first.progress = .queued ∧ s.lock.ready i = true)
  /-- A successful mutation with the interval enforced was checked, and sent, the interval after
  every one of its campaign before it. -/
  spaced : s.mutations.Pairwise fun a b => a.key = b.key → b.enforced = true →
    (a.doneAt : ℚ) + b.minimumMutationIntervalMs ≤ b.checkedAt ∧ b.checkedAt ≤ b.doneAt
  /-- A request under way has sent at most two requests to the API and two for a token for each
  attempt. -/
  bounded : ∀ {n : Nat} {t : Task} {path : Path} {p : Pending}, s.tasks[n]? = some t →
    t.progress = .running path p →
    p.chain.apiRequests ≤ 2 * ((t.on configs).lastAttempt + 1) ∧
      p.chain.tokenRequests ≤ 2 * ((t.on configs).lastAttempt + 1)
  /-- One that has ended too, and what it ended with is a response or a `GoogleAdsApiError`. -/
  ended : ∀ r ∈ s.sent, Ended (configs r.updater).updater r.chain r.outcome
  /-- However the awaits come back, they come to an end. -/
  drains : ∀ fs, (process configs).Along (fun s e => (∃ n a, e = .answer n a) ∧
    (process configs).next s e ≠ s) s fs → fs.length ≤ 71 * s.tasks.length
  /-- Every call then has its result. -/
  done : AtRest configs s → ∀ {n : Nat} {t : Task}, s.tasks[n]? = some t → t.isDone

/-- **The mutations of a campaign are serialized and bounded**, in every run of overlapping calls
whatever the API and the network answer. -/
theorem updates_serialized (configs : Nat → GoogleAdsConfig) (es : List Event) :
    Serialized configs ((process configs).run {} es) := by
  have h : Sound configs ((process configs).run {} es) := run_sound es
  refine ⟨h.exclusive, h.unblocked, ?_, fun ht hp => ?_, h.sent,
    fun fs hfs => (h.drains hfs).trans (ahead_le _ _), fun hrest {_ _} ht => h.done_of_rest hrest ht⟩
  · refine h.spaced.imp_of_mem fun {a b} _ hb hspaced hkey henforced => ?_
    exact ⟨hspaced hkey henforced, h.timely b hb⟩
  · have hwithin := h.within ht hp
    have hattempt := hwithin.attempt
    obtain ⟨hapi, htoken⟩ := hwithin.counts
    constructor <;> omega

/-- A call, its start, a token, a 401, a token again, and a response: without retries. -/
def unauthorizedOnce : List Event :=
  [.update 0 "1234567890" "987" "a=1" {}, .answer 0 .wake,
    .answer 0 (.response { status := 200, body := .object [("access_token", .string "t")] }),
    .answer 0 (.response { status := 401, body := .object [] }),
    .answer 0 (.response { status := 200, body := .object [("access_token", .string "u")] }),
    .answer 0 (.response { status := 200, body := .object [] })]

/-- Token requests count too: with no retries, four requests are sent. -/
theorem four_requests_without_retries :
    ¬ ∀ configs es, ∀ r ∈ ((process configs).run {} es).sent,
      ((r.chain.tokenRequests + r.chain.apiRequests : Nat) : ℚ)
        ≤ 2 * ((configs r.updater).updater.maxRetries + 1) := by
  intro hall
  let configs : Nat → GoogleAdsConfig := fun _ => { maxRetries := some 0 }
  have hsent : ((process configs).run {} unauthorizedOnce).sent.map
      (fun r => (r.updater, r.chain.tokenRequests + r.chain.apiRequests)) = [(0, 4)] := by
    decide +kernel
  obtain ⟨r, hr⟩ : ∃ r, ((process configs).run {} unauthorizedOnce).sent = [r] :=
    List.length_eq_one_iff.mp (by simpa using congrArg List.length hsent)
  have hcount := hall configs unauthorizedOnce r (by rw [hr]; exact List.mem_singleton_self r)
  rw [hr] at hsent
  simp only [List.map_cons, List.map_nil, List.cons.injEq, Prod.mk.injEq, and_true] at hsent
  rw [hsent.2] at hcount
  norm_num [configs, GoogleAdsConfig.updater] at hcount

end LinkSuffix.GoogleAds
