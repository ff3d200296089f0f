import LinkSuffix.Web.CrossProcessLock

/-!
# How often the protected work runs

An error of the work travels through the same `catch` as an error of the database lock: where the
database is not required, work that throws under the database lock is run again under the lock file,
and the call answers for the second run.

* `invocations`, `outcomes`: how often a call starts its work, and what the work came to.
* `RunsOnce`: the work runs once, its error is the call's, and the next waiter is admitted.
* `History`: what a phase says of both. `history_next`: one step.
* `Queued`: the queues hold the calls that have not settled.
* **`work_once`**: a settled call has run its work once exactly when no work threw under the database
  lock of a process that does not require the database.
* `work_repeated`: work that throws once is run twice, and its error is lost.
-/

namespace LinkSuffix.ProcessLock

open Lib EventSystem

variable {ε α : Type}

/-! ## What a run does with the work of a call -/

/-- The lock under which a step starts the work. -/
def startedUnder (before after : Phase ε α) : List (Option Session) :=
  match before.isWorking, after with
  | false, .working session => [session]
  | _, _ => []

/-- What the work came to, and the lock it ran under. -/
def endedUnder (before : Phase ε α) (answer : Answer ε α) : List (Option Session × Except ε α) :=
  match before, answer with
  | .working session, .worked result => [(session, result)]
  | _, _ => []

section Log

variable (settings : Nat → Settings) (call : Nat)

def startsWork (s : State ε α) : Event ε α → List (Option Session)
  | .answer other answer =>
    if other = call then
      startedUnder (s.phase call) (move (settings (s.process call)) s call answer).phase
    else []
  | _ => []

def endsWork (s : State ε α) : Event ε α → List (Option Session × Except ε α)
  | .answer other answer => if other = call then endedUnder (s.phase call) answer else []
  | _ => []

/-- The locks under which a call has invoked its work. -/
def invocations (es : List (Event ε α)) : List (Option Session) :=
  (lockSystem settings).collect (startsWork settings call) start es

/-- What the work of a call has come to. -/
def outcomes (es : List (Event ε α)) : List (Option Session × Except ε α) :=
  (lockSystem settings).collect (endsWork call) start es

end Log

/-- The first waiter of a process goes on when the calls before it have settled. -/
def Admits (settings : Settings) (s : State ε α) (process : Nat) : Prop :=
  ∀ next now, (s.queue process).head? = some next → s.phase next = .queued →
    (move settings s next (.done now)).phase.isActive = true

/-- A settled call has run its work at most once, rejects with the error of the work, and has made
way for the next waiter. -/
structure RunsOnce (settings : Nat → Settings) (es : List (Event ε α)) (call : Nat)
    (result : Except (Failure ε) α) : Prop where
  once : (invocations settings call es).length ≤ 1
  reported : ∀ session error, (session, .error error) ∈ outcomes settings call es →
    result = .error (.work error)
  left : ∀ process, call ∉ ((lockSystem settings).run (start : State ε α) es).queue process
  admitted : ∀ process, Admits (settings process) ((lockSystem settings).run (start : State ε α) es)
    process

/-! ## History -/

section History

variable (required : Bool)

/-- What precedes the lock file: nothing, or work that threw under the database lock. -/
def Prior (starts : List (Option Session)) (ends : List (Option Session × Except ε α)) : Prop :=
  starts = [] ∧ ends = [] ∨
    required = false ∧ ∃ session error,
      starts = [some session] ∧ ends = [(some session, .error error)]

/-- What has happened when a call has settled. -/
inductive Settlement : List (Option Session) → List (Option Session × Except ε α) →
    Except (Failure ε) α → Prop
  | value (session : Session) (value : α) :
      Settlement [some session] [(some session, .ok value)] (.ok value)
  | thrown (session : Session) (error : ε) (h : required = true) :
      Settlement [some session] [(some session, .error error)] (.error (.work error))
  | refused (error : ε) : Settlement [] [] (.error (.database error))
  | file {starts : List (Option Session)} {ends : List (Option Session × Except ε α)}
      (failure : Failure ε) (hfailure : ∀ error, failure ≠ .work error)
      (h : Prior required starts ends) : Settlement starts ends (.error failure)
  | worked {starts : List (Option Session)} {ends : List (Option Session × Except ε α)}
      (result : Except ε α) (h : Prior required starts ends) :
      Settlement (starts ++ [none]) (ends ++ [(none, result)]) (workResult result)

/-- What has happened when a call is in a phase. -/
def History (starts : List (Option Session)) (ends : List (Option Session × Except ε α)) :
    Phase ε α → Prop
  | .idle => starts = [] ∧ ends = []
  | .queued => starts = [] ∧ ends = []
  | .connecting => starts = [] ∧ ends = []
  | .locking _ => starts = [] ∧ ends = []
  | .working (some session) => starts = [some session] ∧ ends = []
  | .unlocking session result =>
    (∃ worked, result = workResult worked ∧ starts = [some session] ∧
      ends = [(some session, worked)]) ∨
    ∃ error, result = .error (.database error) ∧ starts = [] ∧ ends = []
  | .preparing => Prior required starts ends
  | .opening _ => Prior required starts ends
  | .writing => Prior required starts ends
  | .reading _ => Prior required starts ends
  | .removing _ _ => Prior required starts ends
  | .delaying _ => Prior required starts ends
  | .working none => ∃ before, Prior required before ends ∧ starts = before ++ [none]
  | .closing result => ∃ before worked, Prior required before worked ∧
      starts = before ++ [none] ∧ ends = worked ++ [(none, result)]
  | .clearing result => ∃ before worked, Prior required before worked ∧
      starts = before ++ [none] ∧ ends = worked ++ [(none, result)]
  | .settled result => Settlement required starts ends result

end History

variable {required : Bool} {starts : List (Option Session)}
  {ends : List (Option Session × Except ε α)}

/-- The database lock has failed before any work. -/
theorem fellBack_refused {settings : Settings} (error : ε) :
    History settings.required ([] : List (Option Session)) ([] : List (Option Session × Except ε α))
      (fellBack settings (.database error)) := by
  unfold fellBack
  split
  · exact .refused error
  · exact Or.inl ⟨rfl, rfl⟩

/-- The end of the database lock. -/
theorem unlockedPhase_history {settings : Settings} {session : Session}
    {result : Except (Failure ε) α}
    (h : History settings.required starts ends (.unlocking session result)) :
    History settings.required starts ends (unlockedPhase settings result) := by
  rcases h with ⟨worked, rfl, rfl, rfl⟩ | ⟨error, rfl, rfl, rfl⟩
  · cases worked with
    | ok value => exact .value session value
    | error error =>
      have hphase : unlockedPhase (α := α) settings (workResult (.error error)) =
          fellBack settings (.work error) := rfl
      rw [hphase, fellBack]
      split
      · rename_i hrequired
        exact .thrown session error hrequired
      · rename_i hrequired
        exact Or.inr ⟨Bool.eq_false_iff.mpr hrequired, session, error, rfl, rfl⟩
  · exact fellBack_refused error

/-- What a read of the lock file leads to. -/
theorem readPhase_history {settings : Settings} {s : State ε α} {now deadline : Int}
    (h : Prior required starts ends) :
    History required starts ends (readPhase settings s now deadline) := by
  unfold readPhase
  split
  · exact h
  · split
    · exact h
    · split
      · exact h
      · split
        · exact .file .timedOut nofun h
        · exact h

theorem startedUnder_self (phase : Phase ε α) : startedUnder phase phase = [] := by
  cases phase <;> rfl

/-- A step that neither starts nor ends the work. -/
theorem history_quiet {before after : Phase ε α} {answer : Answer ε α}
    (hstarted : startedUnder before after = []) (hended : endedUnder before answer = [])
    (h : History required starts ends after) :
    History required (starts ++ startedUnder before after) (ends ++ endedUnder before answer)
      after := by
  rw [hstarted, hended, List.append_nil, List.append_nil]
  exact h

theorem endedUnder_done (before : Phase ε α) (now : Int) : endedUnder before (.done now) = [] := by
  cases before <;> rfl

/-- A step to a phase without work starts none. -/
theorem startedUnder_of_idle {before after : Phase ε α} (h : after.isWorking = false) :
    startedUnder before after = [] := by
  unfold startedUnder
  split
  · cases h
  · rfl

theorem fellBack_idle (settings : Settings) (failure : Failure ε) :
    (fellBack settings failure : Phase ε α).isWorking = false := by
  unfold fellBack
  split <;> rfl

theorem unlockedPhase_idle (settings : Settings) (result : Except (Failure ε) α) :
    (unlockedPhase settings result).isWorking = false := by
  cases result with
  | ok value => rfl
  | error failure => exact fellBack_idle settings failure

theorem readPhase_idle (settings : Settings) (s : State ε α) (now deadline : Int) :
    (readPhase settings s now deadline).isWorking = false := by
  unfold readPhase
  split
  · rfl
  · split
    · rfl
    · split
      · rfl
      · split <;> rfl

/-- **What a step of a call adds to its history**, one case for each call it awaits. -/
theorem history_move {settings : Settings} {s : State ε α} {call : Nat} (answer : Answer ε α)
    (h : History settings.required starts ends (s.phase call)) :
    History settings.required
      (starts ++ startedUnder (s.phase call) (move settings s call answer).phase)
      (ends ++ endedUnder (s.phase call) answer) (move settings s call answer).phase := by
  unfold move
  split
  · rename_i hphase
    rw [hphase] at h ⊢
    obtain ⟨rfl, rfl⟩ := h
    split
    · split
      · exact history_quiet rfl rfl ⟨rfl, rfl⟩
      · exact history_quiet rfl rfl (Or.inl ⟨rfl, rfl⟩)
    · exact history_quiet rfl rfl ⟨rfl, rfl⟩
  · rename_i hphase
    rw [hphase] at h ⊢
    exact history_quiet rfl rfl h
  · rename_i error hphase
    rw [hphase] at h ⊢
    obtain ⟨rfl, rfl⟩ := h
    exact history_quiet (startedUnder_of_idle (fellBack_idle _ _)) rfl (fellBack_refused error)
  · rename_i hphase
    rw [hphase] at h ⊢
    obtain ⟨rfl, rfl⟩ := h
    split
    · exact ⟨rfl, rfl⟩
    · exact history_quiet rfl rfl ⟨rfl, rfl⟩
  · rename_i error hphase
    rw [hphase] at h ⊢
    obtain ⟨rfl, rfl⟩ := h
    exact history_quiet rfl rfl (Or.inr ⟨error, rfl, rfl, rfl⟩)
  · rename_i result hphase
    rw [hphase] at h ⊢
    obtain ⟨rfl, rfl⟩ := h
    exact Or.inl ⟨result, rfl, rfl, rfl⟩
  · rename_i hphase
    rw [hphase] at h ⊢
    exact history_quiet (startedUnder_of_idle (unlockedPhase_idle _ _)) rfl (unlockedPhase_history h)
  · rename_i hphase
    rw [hphase] at h ⊢
    exact history_quiet (startedUnder_of_idle (unlockedPhase_idle _ _)) rfl (unlockedPhase_history h)
  · rename_i hphase
    rw [hphase] at h ⊢
    exact history_quiet rfl rfl h
  · rename_i error hphase
    rw [hphase] at h ⊢
    exact history_quiet rfl rfl (.file (.file error) nofun h)
  · rename_i hphase
    rw [hphase] at h ⊢
    split
    · exact history_quiet rfl rfl h
    · exact history_quiet rfl rfl h
  · rename_i error hphase
    rw [hphase] at h ⊢
    exact history_quiet rfl rfl (.file (.file error) nofun h)
  · rename_i hphase
    rw [hphase] at h ⊢
    exact ⟨starts, by rwa [endedUnder_done, List.append_nil], rfl⟩
  · rename_i error hphase
    rw [hphase] at h ⊢
    exact history_quiet rfl rfl (.file (.file error) nofun h)
  · rename_i hphase
    rw [hphase] at h ⊢
    exact history_quiet (startedUnder_of_idle (readPhase_idle _ _ _ _)) rfl (readPhase_history h)
  · rename_i hphase
    rw [hphase] at h ⊢
    exact history_quiet rfl rfl h
  · rename_i hphase
    rw [hphase] at h ⊢
    exact history_quiet rfl rfl h
  · rename_i error hphase
    rw [hphase] at h ⊢
    split
    · exact history_quiet rfl rfl (.file (.file error) nofun h)
    · exact history_quiet rfl rfl h
  · rename_i hphase
    rw [hphase] at h ⊢
    exact history_quiet rfl rfl h
  · rename_i result hphase
    rw [hphase] at h ⊢
    obtain ⟨before, hprior, rfl⟩ := h
    exact ⟨before, ends, hprior, List.append_nil _, rfl⟩
  · rename_i hphase
    rw [hphase] at h ⊢
    exact history_quiet rfl rfl h
  · rename_i hphase
    rw [hphase] at h ⊢
    exact history_quiet rfl rfl h
  · rename_i result _ hphase
    rw [hphase] at h ⊢
    obtain ⟨before, worked, hprior, rfl, rfl⟩ := h
    exact history_quiet (startedUnder_of_idle rfl) rfl (.worked result hprior)
  · rename_i result _ hphase
    rw [hphase] at h ⊢
    obtain ⟨before, worked, hprior, rfl, rfl⟩ := h
    exact history_quiet (startedUnder_of_idle rfl) rfl (.worked result hprior)
  · refine history_quiet (startedUnder_self _) ?_ h
    unfold endedUnder
    split
    · cases ‹Option Session› with
      | none => simp_all
      | some session => simp_all
    · rfl

/-! ## Queues -/

/-- The call has been admitted. -/
def Phase.isAdmitted (phase : Phase ε α) : Bool := phase.isActive || phase.isSettled

theorem fellBack_admitted (settings : Settings) (failure : Failure ε) :
    (fellBack settings failure : Phase ε α).isAdmitted = true := by
  unfold fellBack
  split <;> rfl

theorem unlockedPhase_admitted (settings : Settings) (result : Except (Failure ε) α) :
    (unlockedPhase settings result).isAdmitted = true := by
  cases result with
  | ok value => rfl
  | error failure => exact fellBack_admitted settings failure

theorem readPhase_admitted (settings : Settings) (s : State ε α) (now deadline : Int) :
    (readPhase settings s now deadline).isAdmitted = true := by
  unfold readPhase
  split
  · rfl
  · split
    · rfl
    · split
      · rfl
      · split <;> rfl

/-- A step leaves a call where it is, or it is admitted. -/
theorem move_admitted (settings : Settings) (s : State ε α) (call : Nat) (answer : Answer ε α) :
    (move settings s call answer).phase = s.phase call ∨
      (move settings s call answer).phase.isAdmitted = true := by
  unfold move
  split
  case h_1 hphase =>
    split
    · exact Or.inr (by split <;> rfl)
    · exact Or.inl hphase.symm
  case h_4 hphase =>
    split
    · exact Or.inr rfl
    · exact Or.inl hphase.symm
  case h_3 => exact Or.inr (fellBack_admitted _ _)
  case h_7 => exact Or.inr (unlockedPhase_admitted _ _)
  case h_8 => exact Or.inr (unlockedPhase_admitted _ _)
  case h_11 => split <;> exact Or.inr rfl
  case h_15 => exact Or.inr (readPhase_admitted _ _ _ _)
  case h_18 => exact Or.inr (by split <;> rfl)
  case h_25 => exact Or.inl rfl
  all_goals exact Or.inr rfl

/-- The queue of a process holds its calls that have been made and have not settled, each once. -/
structure Queued (s : State ε α) : Prop where
  own : ∀ process call, call ∈ s.queue process → s.process call = process ∧
    (s.phase call = .queued ∨ (s.phase call).isActive = true)
  nodup : ∀ process, (s.queue process).Nodup

theorem queued_start : Queued (start : State ε α) :=
  ⟨fun _ _ h => (nomatch h), fun _ => List.nodup_nil⟩

theorem Queued.called {s : State ε α} (h : Queued s) (process call : Nat) :
    Queued (called s call process) := by
  unfold ProcessLock.called
  split
  · rename_i hidle
    have hnew (process' : Nat) : call ∉ s.queue process' := by
      intro hmem
      have hphase := (h.own process' call hmem).2
      rw [hidle] at hphase
      rcases hphase with hphase | hphase <;> cases hphase
    constructor
    · intro process' other hother
      dsimp only at hother ⊢
      by_cases hcall : other = call
      · subst hcall
        rw [Function.update_self, Function.update_self]
        refine ⟨?_, Or.inl rfl⟩
        by_cases hprocess : process' = process
        · exact hprocess.symm
        · rw [Function.update_of_ne hprocess] at hother
          exact absurd hother (hnew process')
      · rw [Function.update_of_ne hcall, Function.update_of_ne hcall]
        refine h.own process' other ?_
        by_cases hprocess : process' = process
        · subst hprocess
          rw [Function.update_self, List.mem_append, List.mem_singleton] at hother
          exact hother.resolve_right hcall
        · rwa [Function.update_of_ne hprocess] at hother
    · intro process'
      dsimp only
      by_cases hprocess : process' = process
      · subst hprocess
        rw [Function.update_self]
        exact List.nodup_append.mpr ⟨h.nodup process', (by simp),
          fun other hother single hsingle heq =>
            hnew process' (by rw [← List.mem_singleton.mp hsingle, ← heq]; exact hother)⟩
      · rw [Function.update_of_ne hprocess]
        exact h.nodup process'
  · exact h

/-- A step of a call: when it settles, it leaves the queue of its process. -/
theorem Queued.moved {s : State ε α} (h : Queued s) {settings : Settings} {call : Nat}
    {answer : Answer ε α} : Queued (s.moved call (move settings s call answer)) := by
  have hmoved := move_admitted settings s call answer
  generalize move settings s call answer = m at hmoved
  have hqueue (process : Nat) : (s.moved call m).queue process =
      if (m.phase.isSettled ∧ ¬(s.phase call).isSettled) ∧ process = s.process call
      then (s.queue process).erase call else s.queue process := by
    unfold State.moved
    dsimp only
    by_cases hsettled : m.phase.isSettled ∧ ¬(s.phase call).isSettled
    · rw [if_pos hsettled]
      by_cases hprocess : process = s.process call
      · subst hprocess
        rw [Function.update_self, if_pos ⟨hsettled, rfl⟩]
      · rw [Function.update_of_ne hprocess, if_neg fun hboth => hprocess hboth.2]
    · rw [if_neg hsettled, if_neg fun hboth => hsettled hboth.1]
  constructor
  · intro process other hother
    have hbefore : other ∈ s.queue process := by
      rw [hqueue] at hother
      split at hother
      · exact List.mem_of_mem_erase hother
      · exact hother
    obtain ⟨hprocess, hphase⟩ := h.own process other hbefore
    refine ⟨hprocess, ?_⟩
    unfold State.moved
    dsimp only
    by_cases hcall : other = call
    · subst hcall
      rw [Function.update_self]
      rcases hmoved with hsame | hadmitted
      · rwa [hsame]
      · rw [Phase.isAdmitted, Bool.or_eq_true] at hadmitted
        refine Or.inr (hadmitted.resolve_right fun hsettled => ?_)
        have hopen : ¬(s.phase other).isSettled = true := by
          intro hsettled'
          cases hold : s.phase other with
          | settled result =>
            rw [hold] at hphase
            rcases hphase with hphase | hphase <;> cases hphase
          | _ => rw [hold] at hsettled'; cases hsettled'
        rw [hqueue, if_pos ⟨⟨hsettled, hopen⟩, hprocess.symm⟩] at hother
        exact (h.nodup process).not_mem_erase hother
    · rw [Function.update_of_ne hcall]
      exact hphase
  · intro process
    rw [hqueue]
    split
    · exact (h.nodup process).erase call
    · exact h.nodup process

theorem run_queued (settings : Nat → Settings) (es : List (Event ε α)) :
    Queued ((lockSystem settings).run (start : State ε α) es) := by
  refine run_inv_true queued_start fun s e h => ?_
  cases e with
  | call process call => exact h.called process call
  | answer call answer => exact h.moved
  | lost session => exact ⟨h.own, h.nodup⟩

/-! ## Runs -/

/-- The settings of the process of a call. -/
def settingsOf (settings : Nat → Settings) (es : List (Event ε α)) (call : Nat) : Settings :=
  settings (((lockSystem settings).run (start : State ε α) es).process call)

/-- The phase of a call at the end of a run. -/
def phaseOf (settings : Nat → Settings) (es : List (Event ε α)) (call : Nat) : Phase ε α :=
  ((lockSystem settings).run start es).phase call

theorem history_called {s : State ε α} {call other : Nat} (process : Nat)
    {required' : Bool} (h : History required starts ends (s.phase call))
    (hrequired : (s.phase call ≠ .idle ∨ other ≠ call) → required' = required) :
    History required' starts ends ((called s other process).phase call) := by
  unfold called
  split
  · rename_i hidle
    dsimp only
    by_cases hcall : other = call
    · subst hcall
      rw [Function.update_self]
      rw [hidle] at h
      exact h
    · rw [Function.update_of_ne (Ne.symm hcall), hrequired (Or.inr hcall)]
      exact h
  · rename_i hmade
    have hrequired' : (s.phase call ≠ .idle ∨ other ≠ call) := by
      by_cases hcall : other = call
      · subst hcall
        exact Or.inl fun hidle => hmade hidle
      · exact Or.inr hcall
    rw [hrequired hrequired']
    exact h

/-- **The history of every run.** -/
theorem run_history (settings : Nat → Settings) (call : Nat) (es : List (Event ε α)) :
    History (settingsOf settings es call).required (invocations settings call es)
      (outcomes settings call es) (phaseOf settings es call) := by
  unfold settingsOf invocations outcomes phaseOf
  induction es using List.reverseRecOn with
  | nil => exact ⟨rfl, rfl⟩
  | append_singleton es e ih =>
    rw [collect_concat, collect_concat, run_concat]
    generalize (lockSystem settings).run (start : State ε α) es = s at ih ⊢
    cases e with
    | call process other =>
      have hprocess : (s.phase call ≠ .idle ∨ other ≠ call) →
          (settings ((called s other process).process call)).required =
            (settings (s.process call)).required := by
        intro hother
        unfold called
        split
        · rename_i hidle
          have hne : other ≠ call := by
            rcases hother with hmade | hne
            · rintro rfl
              exact hmade hidle
            · exact hne
          dsimp only
          rw [Function.update_of_ne (Ne.symm hne)]
        · rfl
      have hstep := history_called process ih hprocess
      rwa [← List.append_nil (collect _ (startsWork settings call) _ _),
        ← List.append_nil (collect _ (endsWork call) _ _)] at hstep
    | answer other answer =>
      by_cases hcall : other = call
      · subst hcall
        have hstep := history_move answer ih
        have hphase : ((lockSystem settings).next s (.answer other answer)).phase other =
            (move (settings (s.process other)) s other answer).phase :=
          Function.update_self ..
        have hstarts : startsWork settings other s (.answer other answer) =
            startedUnder (s.phase other) (move (settings (s.process other)) s other answer).phase :=
          if_pos rfl
        have hends : endsWork other s (.answer other answer) =
            endedUnder (s.phase other) answer := if_pos rfl
        rw [hphase, hstarts, hends]
        exact hstep
      · have hphase : ((lockSystem settings).next s (.answer other answer)).phase call =
            s.phase call := Function.update_of_ne (Ne.symm hcall) _ _
        have hstarts : startsWork settings call s (.answer other answer) = [] := if_neg hcall
        have hends : endsWork call s (.answer other answer) = [] := if_neg hcall
        rw [hphase, hstarts, hends, List.append_nil, List.append_nil]
        exact ih
    | lost session =>
      have hstarts : startsWork settings call s (.lost session) = [] := rfl
      have hends : endsWork call s (.lost session) = [] := rfl
      rw [hstarts, hends, List.append_nil, List.append_nil]
      exact ih

/-- No work threw under the database lock of a process that does not require the database. -/
def Unretried (required : Bool) (ends : List (Option Session × Except ε α)) : Prop :=
  ∀ session error, (some session, .error error) ∈ ends → required = true

theorem Prior.none (h : Prior required starts ends) (hends : Unretried required ends) :
    starts = [] ∧ ends = [] := by
  rcases h with h | ⟨hrequired, session, error, rfl, rfl⟩
  · exact h
  · rw [hends session error List.mem_cons_self] at hrequired
    cases hrequired

theorem Unretried.of_append {more : List (Option Session × Except ε α)}
    (h : Unretried required (ends ++ more)) : Unretried required ends :=
  fun session error hmem => h session error (List.mem_append_left _ hmem)

/-- What has settled ran once, and reports its error, exactly when it was not retried. -/
theorem settlement_iff {result : Except (Failure ε) α} (h : Settlement required starts ends result) :
    (starts.length ≤ 1 ∧ ∀ session error, (session, .error error) ∈ ends →
      result = .error (.work error)) ↔ Unretried required ends := by
  cases h with
  | value session value =>
    refine ⟨fun _ session' error hmem => ?_, fun _ => ⟨Nat.le_refl 1, fun session' error hmem => ?_⟩⟩
    · cases (Prod.mk.inj (List.mem_singleton.mp hmem)).2
    · cases (Prod.mk.inj (List.mem_singleton.mp hmem)).2
  | thrown session error hrequired =>
    refine ⟨fun _ _ _ _ => hrequired, fun _ => ⟨Nat.le_refl 1, fun session' error' hmem => ?_⟩⟩
    rw [Except.error.inj (Prod.mk.inj (List.mem_singleton.mp hmem)).2]
  | refused error =>
    exact ⟨fun _ _ _ hmem => (nomatch hmem), fun _ => ⟨Nat.zero_le 1, fun _ _ hmem => (nomatch hmem)⟩⟩
  | file failure hfailure hprior =>
    constructor
    · rintro ⟨-, hreported⟩
      rcases hprior with ⟨-, rfl⟩ | ⟨-, session, error, -, rfl⟩
      · exact fun _ _ hmem => nomatch hmem
      · exact absurd (Except.error.inj (hreported _ error List.mem_cons_self)) (hfailure error)
    · intro hends
      obtain ⟨rfl, rfl⟩ := hprior.none hends
      exact ⟨Nat.zero_le 1, fun _ _ hmem => nomatch hmem⟩
  | @worked before worked result hprior =>
    constructor
    · rintro ⟨honce, -⟩
      rcases hprior with ⟨-, rfl⟩ | ⟨-, session, error, rfl, -⟩
      · intro session error hmem
        cases (Prod.mk.inj (List.mem_singleton.mp hmem)).1
      · exact absurd (Nat.le_of_succ_le_succ honce) (Nat.not_succ_le_zero 0)
    · intro hends
      obtain ⟨rfl, rfl⟩ := hprior.none hends.of_append
      refine ⟨Nat.le_refl 1, fun session error hmem => ?_⟩
      rw [← (Prod.mk.inj (List.mem_singleton.mp hmem)).2]
      rfl

/-- Work that is not retried has been started once at most, at any moment. -/
theorem history_once {phase : Phase ε α} (h : History required starts ends phase)
    (hends : Unretried required ends) : starts.length ≤ 1 := by
  have hnone (h : Prior required starts ends) : starts.length ≤ 1 := by
    rw [(h.none hends).1]
    exact Nat.zero_le 1
  cases phase with
  | idle => rw [h.1]; exact Nat.zero_le 1
  | queued => rw [h.1]; exact Nat.zero_le 1
  | connecting => rw [h.1]; exact Nat.zero_le 1
  | locking session => rw [h.1]; exact Nat.zero_le 1
  | working session =>
    cases session with
    | none =>
      obtain ⟨before, hprior, rfl⟩ := h
      rw [(hprior.none hends).1]
      exact Nat.le_refl 1
    | some session => rw [h.1]; exact Nat.le_refl 1
  | unlocking session result =>
    rcases h with ⟨worked, -, rfl, -⟩ | ⟨error, -, rfl, -⟩
    · exact Nat.le_refl 1
    · exact Nat.zero_le 1
  | preparing => exact hnone h
  | opening deadline => exact hnone h
  | writing => exact hnone h
  | reading deadline => exact hnone h
  | removing deadline again => exact hnone h
  | delaying deadline => exact hnone h
  | closing result =>
    obtain ⟨before, worked, hprior, rfl, rfl⟩ := h
    rw [(hprior.none hends.of_append).1]
    exact Nat.le_refl 1
  | clearing result =>
    obtain ⟨before, worked, hprior, rfl, rfl⟩ := h
    rw [(hprior.none hends.of_append).1]
    exact Nat.le_refl 1
  | settled result => exact ((settlement_iff h).mpr hends).1

/-- **The work of a call runs once** where it does not throw under the database lock of a process
that does not require the database: at any moment it has been invoked once at most, and a settled
call has run it once, rejects with its error and has made way for the next waiter exactly then. -/
theorem work_once (settings : Nat → Settings) (es : List (Event ε α)) (call : Nat) :
    (Unretried (settingsOf settings es call).required (outcomes settings call es) →
      (invocations settings call es).length ≤ 1) ∧
    ∀ result, phaseOf settings es call = .settled result →
      (RunsOnce settings es call result ↔
        Unretried (settingsOf settings es call).required (outcomes settings call es)) := by
  have hhistory := run_history settings call es
  refine ⟨history_once hhistory, fun result hsettled => ?_⟩
  rw [hsettled] at hhistory
  rw [← settlement_iff hhistory]
  have hqueued := run_queued settings es
  constructor
  · exact fun h => ⟨h.once, h.reported⟩
  · rintro ⟨honce, hreported⟩
    refine ⟨honce, hreported, fun process hmem => ?_, fun process next now hhead hnext => ?_⟩
    · have hphase := (hqueued.own process call hmem).2
      unfold phaseOf at hsettled
      rw [hsettled] at hphase
      rcases hphase with hphase | hphase <;> cases hphase
    · obtain ⟨hprocess, -⟩ := hqueued.own process next (List.mem_of_mem_head? hhead)
      unfold move
      rw [hnext]
      dsimp only
      rw [hprocess, if_pos hhead]
      dsimp only
      split <;> rfl

section Sample

/-- A call whose work throws under the database lock, and then succeeds under the lock file. -/
def throwsOnce : List (Event Unit Unit) :=
  [.call 0 0, .answer 0 (.done 0), .answer 0 (.connected 0), .answer 0 (.done 0),
    .answer 0 (.worked (.error ())), .answer 0 (.done 0),
    .answer 0 (.done 0), .answer 0 (.done 0), .answer 0 (.done 0),
    .answer 0 (.worked (.ok ())), .answer 0 (.done 0), .answer 0 (.done 0)]

theorem work_once_required :
    RunsOnce (fun _ => { required := true }) (throwsOnce.take 6) 0 (.error (.work ())) :=
  ((work_once (fun _ => { required := true }) (throwsOnce.take 6) 0).2 _ rfl).mpr
    fun _ _ _ => rfl

/-- **Work that throws once is run twice**, and the call resolves. -/
theorem work_repeated :
    phaseOf (fun _ => {}) throwsOnce 0 = .settled (.ok ()) ∧
      (invocations (fun _ => {}) 0 throwsOnce).length = 2 ∧
      ¬RunsOnce (fun _ => {}) throwsOnce 0 (.ok ()) :=
  ⟨rfl, rfl, fun h => absurd h.once (by decide)⟩

end Sample

end LinkSuffix.ProcessLock
