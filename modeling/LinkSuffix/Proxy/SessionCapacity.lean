import LinkSuffix.Lib.Allotment
import LinkSuffix.Proxy.LocalSessions

/-!
# Capacity and ports of the local proxy sessions

What keeps the table within its capacity and the ports apart, and when it does not: a start that was
called directly and still awaits its port is counted nowhere, a port is looked up before an await and
reserved after it, a session releases its port when it is stopped and again when its tunnel exits,
and a `spawn` that throws releases nothing.

* `State.holds`: the port a call holds.
* `Sound`: the invariant; sessions and pending starts have room, and the reserved ports are those
  held, each by one call.
* `Careful`: the step does none of the four.
* **`sessions_within_capacity`**: in careful runs the three properties hold in every state.
* `overrun_shared_leaked`: runs that are not, one for each property.
-/

namespace LinkSuffix.LocalProxy

open Lib

/-! ## What changes in the calls -/

variable {cfg : Config} {s : State} {n m : Nat}

theorem stage_modify (f : Start → Start) :
    { s with starts := s.starts.modify n f }.stage m =
      if m = n then (s.starts[n]?).map fun call => (f call).stage else s.stage m := by
  simp only [State.stage, List.getElem?_modify, Option.map_eq_map, Option.map_map]
  by_cases h : m = n
  · subst h
    simp only [if_true]
    rfl
  · simp only [if_neg h, if_neg (Ne.symm h)]
    rfl

theorem stage_setStage {old : Stage} (stage : Stage) (h : s.stage n = some old) :
    (s.setStage n stage).stage = Function.update s.stage n (some stage) := by
  funext m
  rw [State.setStage, stage_modify]
  by_cases hm : m = n
  · subst hm
    obtain ⟨call, hcall, -⟩ := Option.map_eq_some_iff.mp h
    rw [if_pos rfl, Function.update_self, hcall]
    rfl
  · rw [if_neg hm, Function.update_of_ne hm]

theorem stage_update (f : Session → Session) :
    (s.update n f).stage = Function.update s.stage n ((s.stage n).map (Stage.map f)) := by
  funext m
  rw [State.update, stage_modify]
  by_cases hm : m = n
  · subst hm
    rw [if_pos rfl, Function.update_self, State.stage, Option.map_map]
    rfl
  · rw [if_neg hm, Function.update_of_ne hm]

theorem stage_call (key : Option String) (country state city : String) (stage : Stage) :
    (s.call key country state city stage).stage =
      Function.update s.stage s.starts.length (some stage) := by
  funext m
  by_cases hm : m = s.starts.length
  · subst hm
    rw [Function.update_self]
    simp [State.stage, State.call]
  · rw [Function.update_of_ne hm]
    simp only [State.stage, State.call, List.getElem?_append]
    split
    case isTrue => rfl
    case isFalse hlt =>
      have hnone : s.starts[m]? = none := List.getElem?_eq_none (by omega)
      have hbeyond : m - s.starts.length ≠ 0 := by omega
      rw [hnone, List.getElem?_singleton, if_neg hbeyond]

theorem stage_length : s.stage s.starts.length = none := by
  simp [State.stage]

/-! ## Pending starts -/

/-- The starts that will still put a session into the table. -/
def State.pending (s : State) : Nat := s.starts.countP (·.stage.pending)

theorem countP_modify {α : Type} (p : α → Bool) (f : α → α) {xs : List α} {n : Nat} {x : α}
    (h : xs[n]? = some x) :
    (xs.modify n f).countP p + (p x).toNat = xs.countP p + (p (f x)).toNat := by
  induction xs generalizing n with
  | nil => exact absurd h nofun
  | cons y xs ih =>
    cases n with
    | zero =>
      obtain rfl := Option.some.inj h
      simp only [List.modify_zero_cons, List.countP_cons]
      cases p y <;> cases p (f y) <;> simp
    | succ n =>
      have hrest := ih h
      simp only [List.modify_succ_cons, List.countP_cons]
      omega

theorem pending_setStage {old : Stage} (stage : Stage) (h : s.stage n = some old) :
    (s.setStage n stage).pending + old.pending.toNat = s.pending + stage.pending.toNat := by
  obtain ⟨call, hcall, rfl⟩ := Option.map_eq_some_iff.mp h
  exact countP_modify (fun call : Start => call.stage.pending) (fun call => { call with stage }) hcall

theorem pending_map (f : Session → Session) (stage : Stage) :
    (stage.map f).pending = stage.pending := by
  cases stage <;> rfl

theorem pending_update (f : Session → Session) : (s.update n f).pending = s.pending := by
  cases hcall : s.starts[n]? with
  | none =>
    have hsame : s.starts.modify n (fun call => { call with stage := call.stage.map f }) = s.starts :=
      List.modify_eq_self (List.getElem?_eq_none_iff.mp hcall)
    simp only [State.pending, State.update, hsame]
  | some call =>
    have hcount := countP_modify (fun call : Start => call.stage.pending)
      (fun call => { call with stage := call.stage.map f }) hcall
    simp only [pending_map] at hcount
    exact Nat.add_right_cancel hcount

theorem pending_call (key : Option String) (country state city : String) (stage : Stage) :
    (s.call key country state city stage).pending = s.pending + stage.pending.toNat := by
  simp only [State.pending, State.call, List.countP_append, List.countP_singleton]
  cases stage.pending <;> rfl

/-! ## The invariant -/

/-- The port a call holds, in the table or not: one it has reserved, or the port of a session whose
tunnel has not exited. -/
def Stage.port (listed : Bool) : Stage → Option Nat
  | .reserved port => some port
  | .starting x => if listed && !x.exited then some x.localPort else none
  | .running x => if listed && !x.exited then some x.localPort else none
  | _ => none

/-- The port the `n`-th call holds. -/
def State.holds (s : State) (n : Nat) : Option Nat :=
  (s.stage n).bind (Stage.port (n ∈ s.sessions))

/-- The sessions and the pending starts have room; the table has sessions that were not stopped; the
reserved ports are those that are held, each by one call; and a port under probe is not reserved, and
is probed by one call. -/
structure Sound (cfg : Config) (s : State) : Prop where
  room : s.sessions.length + s.pending ≤ cfg.maxSessions
  nodup : s.sessions.Nodup
  listed : ∀ n ∈ s.sessions, ∃ x,
    (s.stage n = some (.starting x) ∨ s.stage n = some (.running x)) ∧ x.status ≠ .stopped
  fresh : ∀ {n : Nat} {x : Session}, s.stage n = some (.starting x) → x.exited = false
  allotted : Allotted s.holds s.reservedPorts
  unreserved : ∀ {n attempt port : Nat}, s.stage n = some (.probing attempt port false) →
    port ∉ s.reservedPorts
  apart : ∀ {n m attempt attempt' port : Nat}, s.stage n = some (.probing attempt port false) →
    s.stage m = some (.probing attempt' port false) → n = m

/-- The session has its port, or nobody has: releasing the port is harmless. -/
def Quiet (s : State) (n : Nat) : Prop :=
  ∀ x ∈ s.session n, s.holds n = none → x.localPort ∉ s.reservedPorts

theorem holds_update {s' : State} {stage : Option Stage}
    (hstage : s'.stage = Function.update s.stage n stage)
    (hsessions : ∀ m, m ≠ n → (m ∈ s'.sessions ↔ m ∈ s.sessions)) :
    s'.holds = Function.update s.holds n (stage.bind (Stage.port (n ∈ s'.sessions))) := by
  funext m
  by_cases hm : m = n
  · subst hm
    simp only [State.holds, hstage, Function.update_self]
  · simp only [State.holds, hstage, Function.update_of_ne hm, hsessions m hm]

/-- The session of a call in the table holds its port until its tunnel exits. -/
theorem Sound.holds_listed (h : Sound cfg s) (hn : n ∈ s.sessions) :
    ∃ x, s.session n = some x ∧ x.status ≠ .stopped ∧
      s.holds n = if x.exited then none else some x.localPort := by
  obtain ⟨x, hstage | hstage, hstatus⟩ := h.listed n hn
  · refine ⟨x, by simp [State.session, hstage, Stage.session], hstatus, ?_⟩
    cases hexited : x.exited <;> simp [State.holds, hstage, Stage.port, hn, hexited]
  · refine ⟨x, by simp [State.session, hstage, Stage.session], hstatus, ?_⟩
    cases hexited : x.exited <;> simp [State.holds, hstage, Stage.port, hn, hexited]

/-! ## Stopping -/

/-- What stops leave: fewer sessions and fewer reserved ports, and the same starts. -/
structure Stops (s s' : State) : Prop where
  length : s'.starts.length = s.starts.length
  pending : s'.pending = s.pending
  sessions : s'.sessions.Sublist s.sessions
  reserved : s'.reservedPorts ⊆ s.reservedPorts
  next : s'.nextLocalPort = s.nextLocalPort
  starting : s'.startingSessions = s.startingSessions
  probing : ∀ {m attempt port : Nat} {taken : Bool},
    s'.stage m = some (.probing attempt port taken) →
      s.stage m = some (.probing attempt port taken)
  quiet : ∀ {m : Nat}, Quiet s m → Quiet s' m

theorem Stops.refl (s : State) : Stops s s :=
  ⟨rfl, rfl, List.Sublist.refl _, subset_rfl, rfl, rfl, id, id⟩

theorem Stops.trans {s₁ s₂ : State} (h : Stops s s₁) (h' : Stops s₁ s₂) : Stops s s₂ where
  length := h'.length.trans h.length
  pending := h'.pending.trans h.pending
  sessions := h'.sessions.trans h.sessions
  reserved := h'.reserved.trans h.reserved
  next := h'.next.trans h.next
  starting := h'.starting.trans h.starting
  probing hm := h.probing (h'.probing hm)
  quiet hm := h'.quiet (h.quiet hm)

/-- A session in the table is stopped. -/
def stopped (s : State) (n : Nat) (x : Session) : State :=
  { s.update n fun x => { x with status := .stopped } with
    sessions := s.sessions.erase n
    reservedPorts := s.reservedPorts.erase x.localPort }

theorem Sound.stop_cases (h : Sound cfg s) (n : Nat) :
    (n ∉ s.sessions ∧ stopSession s n = s) ∨
      n ∈ s.sessions ∧ ∃ x, s.session n = some x ∧ stopSession s n = stopped s n x := by
  by_cases hn : n ∈ s.sessions
  · obtain ⟨x, hx, hstatus, -⟩ := h.holds_listed hn
    exact Or.inr ⟨hn, x, hx, by simp [stopSession, hx, hn, hstatus, stopped]⟩
  · refine Or.inl ⟨hn, ?_⟩
    cases hx : s.session n <;> simp [stopSession, hx, hn]

theorem stage_stopped (x : Session) : (stopped s n x).stage =
    Function.update s.stage n ((s.stage n).map (Stage.map fun x => { x with status := .stopped })) :=
  stage_update (s := s) _

theorem holds_stopped (h : Sound cfg s) (hn : n ∈ s.sessions) (x : Session) :
    (stopped s n x).holds = Function.update s.holds n none := by
  have hgone : n ∉ (stopped s n x).sessions := h.nodup.not_mem_erase
  rw [holds_update (stage_stopped x) fun m hm => List.mem_erase_of_ne hm]
  obtain ⟨y, hstage | hstage, -⟩ := h.listed n hn
  · rw [hstage]
    simp [Stage.map, Stage.port, hgone]
  · rw [hstage]
    simp [Stage.map, Stage.port, hgone]

/-- Stopping a session changes no start that is not its own. -/
theorem probing_update {f : Session → Session} {attempt port : Nat} {taken : Bool}
    (h : Function.update s.stage n ((s.stage n).map (Stage.map f)) m =
      some (.probing attempt port taken)) : s.stage m = some (.probing attempt port taken) := by
  by_cases hm : m = n
  · subst hm
    rw [Function.update_self] at h
    obtain ⟨stage, hstage, hmap⟩ := Option.map_eq_some_iff.mp h
    rw [hstage]
    cases stage <;> simp_all [Stage.map]
  · rwa [Function.update_of_ne hm] at h

theorem starting_update {f : Session → Session} {x : Session}
    (h : Function.update s.stage n ((s.stage n).map (Stage.map f)) m = some (.starting x)) :
    ∃ y, s.stage m = some (.starting y) ∧ (x = y ∨ x = f y) := by
  by_cases hm : m = n
  · subst hm
    rw [Function.update_self] at h
    obtain ⟨stage, hstage, hmap⟩ := Option.map_eq_some_iff.mp h
    cases stage <;> simp_all [Stage.map]
  · rw [Function.update_of_ne hm] at h
    exact ⟨x, h, Or.inl rfl⟩

/-- **A stop releases the port of the session**, and nobody else's when the session has its port. -/
theorem Sound.stop (h : Sound cfg s) (hquiet : n ∈ s.sessions → Quiet s n) :
    Sound cfg (stopSession s n) ∧ Stops s (stopSession s n) := by
  rcases h.stop_cases n with ⟨-, hsame⟩ | ⟨hn, x, hx, hnext⟩
  · rw [hsame]
    exact ⟨h, Stops.refl s⟩
  rw [hnext]
  have hholds := holds_stopped h hn x
  have hsublist : (s.sessions.erase n).Sublist s.sessions := List.erase_sublist
  have hreserved : s.reservedPorts.erase x.localPort ⊆ s.reservedPorts := Finset.erase_subset ..
  have hpending : (stopped s n x).pending = s.pending := pending_update (s := s) _
  have hallotted : Allotted (Function.update s.holds n none) (s.reservedPorts.erase x.localPort) := by
    obtain ⟨y, hy, -, hport⟩ := h.holds_listed hn
    obtain rfl := Option.some.inj (hx.symm.trans hy)
    cases hexited : x.exited with
    | false =>
      rw [hexited] at hport
      exact h.allotted.release hport
    | true =>
      have hnone : s.holds n = none := by rw [hport, hexited]; rfl
      rw [← hnone, Function.update_eq_self]
      exact h.allotted.release_again (hquiet hn x hx hnone)
  constructor
  · refine ⟨?_, h.nodup.sublist hsublist, fun m hm => ?_, fun {m y} hm => ?_, ?_,
      fun {m attempt port} hm => ?_, fun {m k attempt attempt' port} hm hk => ?_⟩
    · rw [hpending]
      exact le_trans (Nat.add_le_add_right hsublist.length_le _) h.room
    · have hne : m ≠ n := by
        rintro rfl
        exact h.nodup.not_mem_erase hm
      rw [stage_stopped, Function.update_of_ne hne]
      exact h.listed m (hsublist.subset hm)
    · rw [stage_stopped] at hm
      obtain ⟨y, hy, rfl | rfl⟩ := starting_update hm
      · exact h.fresh hy
      · show y.exited = false
        exact h.fresh hy
    · rw [hholds]
      exact hallotted
    · rw [stage_stopped] at hm
      exact fun hport => h.unreserved (probing_update hm) (hreserved hport)
    · rw [stage_stopped] at hm hk
      exact h.apart (probing_update hm) (probing_update hk)
  · refine ⟨?_, hpending, hsublist, hreserved, rfl, rfl, fun hm => ?_, fun {m} hm y hy hnone => ?_⟩
    · simp [stopped, State.update]
    · rw [stage_stopped] at hm
      exact probing_update hm
    · by_cases hmn : m = n
      · subst hmn
        have hlocal : y.localPort = x.localPort := by
          rw [State.session, stage_stopped, Function.update_self] at hy
          rw [State.session] at hx
          obtain ⟨z, hstage | hstage, -⟩ := h.listed m hn
          · rw [hstage] at hx hy
            simp only [Option.bind_some, Stage.session, Option.some.injEq] at hx
            simp only [Option.map_some, Stage.map, Option.bind_some, Stage.session,
              Option.mem_some] at hy
            rw [← hx, ← hy]
          · rw [hstage] at hx hy
            simp only [Option.bind_some, Stage.session, Option.some.injEq] at hx
            simp only [Option.map_some, Stage.map, Option.bind_some, Stage.session,
              Option.mem_some] at hy
            rw [← hx, ← hy]
        rw [hlocal]
        exact Finset.notMem_erase x.localPort s.reservedPorts
      · rw [State.session, stage_stopped, Function.update_of_ne hmn] at hy
        rw [hholds, Function.update_of_ne hmn] at hnone
        exact fun hport => hm y hy hnone (hreserved hport)

theorem Sound.stops (h : Sound cfg s) {ns : List Nat} (hquiet : ∀ n ∈ ns, Quiet s n) :
    Sound cfg (ns.foldl stopSession s) ∧ Stops s (ns.foldl stopSession s) := by
  induction ns generalizing s with
  | nil => exact ⟨h, Stops.refl s⟩
  | cons n ns ih =>
    obtain ⟨hsound, hstops⟩ := h.stop fun _ => hquiet n List.mem_cons_self
    obtain ⟨hrest, hmore⟩ := ih hsound fun m hm => hstops.quiet (hquiet m (List.mem_cons_of_mem _ hm))
    exact ⟨hrest, hstops.trans hmore⟩

/-- Fields that the invariant does not read. -/
theorem Sound.congr {s' : State} (h : Sound cfg s) (hstarts : s'.starts = s.starts)
    (hsessions : s'.sessions = s.sessions) (hreserved : s'.reservedPorts = s.reservedPorts) :
    Sound cfg s' := by
  have hstage : s'.stage = s.stage := by funext n; simp only [State.stage, hstarts]
  have hholds : s'.holds = s.holds := by funext n; simp only [State.holds, hstage, hsessions]
  have hpending : s'.pending = s.pending := by simp only [State.pending, hstarts]
  exact ⟨by rw [hsessions, hpending]; exact h.room, hsessions ▸ h.nodup,
    by rw [hsessions, hstage]; exact h.listed, by rw [hstage]; exact h.fresh,
    by rw [hholds, hreserved]; exact h.allotted, by rw [hstage, hreserved]; exact h.unreserved,
    by rw [hstage]; exact h.apart⟩

/-- The garbage collection, when it is due, stops no session that has released its port. -/
def Collects (cfg : Config) (s : State) : Prop :=
  ¬ s.now < s.nextGc → ∀ n ∈ expired cfg s, Quiet s n

theorem Sound.maybeGc (h : Sound cfg s) (hcollects : Collects cfg s) :
    Sound cfg (maybeGcSessions cfg s) ∧ Stops s (maybeGcSessions cfg s) := by
  unfold maybeGcSessions
  split
  case isTrue => exact ⟨h, Stops.refl s⟩
  case isFalse hdue =>
    let t : State := { s with nextGc := s.now + cfg.gcIntervalMs }
    have ht : Sound cfg t := h.congr rfl rfl rfl
    have hstops : Stops s t := ⟨rfl, rfl, List.Sublist.refl _, subset_rfl, rfl, rfl, id, id⟩
    have hquiet : ∀ n ∈ expired cfg t, Quiet t n := hcollects hdue
    obtain ⟨hsound, hmore⟩ := ht.stops hquiet
    have hroom : ((expired cfg t).foldl stopSession t).sessions.length ≤ cfg.maxSessions :=
      le_trans (Nat.le_add_right ..) hsound.room
    have hprune : pruneSessions cfg t = (expired cfg t).foldl stopSession t := if_pos hroom
    show Sound cfg (pruneSessions cfg t) ∧ Stops s (pruneSessions cfg t)
    rw [hprune]
    exact ⟨hsound, hstops.trans hmore⟩

/-! ## One call goes on -/

/-- No other call is at the probe of the port. -/
def Unprobed (s : State) (n port : Nat) : Prop :=
  ∀ m attempt, m ≠ n → s.stage m ≠ some (.probing attempt port false)

/-- **One call goes on**, when the ports are allotted as before but for its own, and a port it probes
is reserved by nobody and probed by nobody else. -/
theorem Sound.change {s' : State} {stage : Stage} (h : Sound cfg s)
    (hstage : s'.stage = Function.update s.stage n (some stage))
    (hsessions : ∀ m, m ≠ n → (m ∈ s'.sessions ↔ m ∈ s.sessions)) (hnodup : s'.sessions.Nodup)
    (hroom : s'.sessions.length + s'.pending ≤ cfg.maxSessions)
    (hlisted : n ∈ s'.sessions →
      ∃ x, (stage = .starting x ∨ stage = .running x) ∧ x.status ≠ .stopped)
    (hfresh : ∀ x, stage = .starting x → x.exited = false)
    (hallotted : Allotted (Function.update s.holds n (stage.port (n ∈ s'.sessions)))
      s'.reservedPorts)
    (hports : ∀ port ∈ s'.reservedPorts, port ∈ s.reservedPorts ∨ Unprobed s n port)
    (hprobe : ∀ attempt port, stage = .probing attempt port false →
      port ∉ s'.reservedPorts ∧ Unprobed s n port) : Sound cfg s' := by
  have hself : s'.stage n = some stage := by rw [hstage, Function.update_self]
  have hother : ∀ m, m ≠ n → s'.stage m = s.stage m := fun m hm => by
    rw [hstage, Function.update_of_ne hm]
  refine ⟨hroom, hnodup, fun m hm => ?_, fun {m x} hm => ?_, ?_, fun {m attempt port} hm => ?_,
    fun {m k attempt attempt' port} hm hk => ?_⟩
  · by_cases hmn : m = n
    · subst hmn
      obtain ⟨x, hx, hstatus⟩ := hlisted hm
      rw [hself]
      exact ⟨x, hx.imp (congrArg some) (congrArg some), hstatus⟩
    · rw [hother m hmn]
      exact h.listed m ((hsessions m hmn).mp hm)
  · by_cases hmn : m = n
    · subst hmn
      exact hfresh x (Option.some.inj (hself.symm.trans hm))
    · rw [hother m hmn] at hm
      exact h.fresh hm
  · rw [holds_update hstage hsessions]
    exact hallotted
  · by_cases hmn : m = n
    · subst hmn
      exact (hprobe attempt port (Option.some.inj (hself.symm.trans hm))).1
    · rw [hother m hmn] at hm
      intro hport
      rcases hports port hport with hold | hfree
      · exact h.unreserved hm hold
      · exact hfree m attempt hmn hm
  · by_cases hmn : m = n
    · by_cases hkn : k = n
      · rw [hmn, hkn]
      · subst hmn
        rw [hother k hkn] at hk
        exact absurd hk ((hprobe attempt port (Option.some.inj (hself.symm.trans hm))).2 k _ hkn)
    · by_cases hkn : k = n
      · subst hkn
        rw [hother m hmn] at hm
        exact absurd hm ((hprobe attempt' port (Option.some.inj (hself.symm.trans hk))).2 m _ hmn)
      · rw [hother m hmn] at hm
        rw [hother k hkn] at hk
        exact h.apart hm hk

/-- A turn of the loop of `reservePort`: the call is at the probe of the next port, or has failed. -/
theorem reservePort_cases (s : State) (attempt : Nat) :
    (attempt < cfg.portMax + 1 - cfg.portMin ∧
      (reservePort cfg s attempt).2 =
        .probing attempt s.nextLocalPort (s.nextLocalPort ∈ s.reservedPorts)) ∨
    (¬ attempt < cfg.portMax + 1 - cfg.portMin ∧
      ∃ message, (reservePort cfg s attempt).2 = .failed none message) := by
  unfold reservePort
  split
  case isTrue hlt => exact Or.inl ⟨hlt, rfl⟩
  case isFalse hlt => exact Or.inr ⟨hlt, _, rfl⟩

theorem reservePort_state (s : State) (attempt : Nat) :
    (reservePort cfg s attempt).1.starts = s.starts ∧
      (reservePort cfg s attempt).1.sessions = s.sessions ∧
      (reservePort cfg s attempt).1.reservedPorts = s.reservedPorts ∧
      (reservePort cfg s attempt).1.startingSessions = s.startingSessions := by
  unfold reservePort
  split <;> exact ⟨rfl, rfl, rfl, rfl⟩

/-- A call without a session holds nothing and is not in the table. -/
theorem Sound.sessionless (h : Sound cfg s) (hnone : s.session n = none) : n ∉ s.sessions := by
  intro hn
  obtain ⟨x, hx, -⟩ := h.holds_listed hn
  rw [hnone] at hx
  exact absurd hx nofun

/-- A call that holds nothing comes to a probe, or fails. -/
theorem Sound.place {s' : State} (h : Sound cfg s) (n attempt : Nat) (stage : Stage)
    (hstage : s'.stage = Function.update s.stage n (some stage))
    (hkind : stage = .probing attempt s.nextLocalPort (s.nextLocalPort ∈ s.reservedPorts) ∧
        Unprobed s n s.nextLocalPort ∨ ∃ message, stage = .failed none message)
    (hsessions : s'.sessions = s.sessions) (hreserved : s'.reservedPorts = s.reservedPorts)
    (hunlisted : n ∉ s.sessions) (hholds : s.holds n = none)
    (hroom : s.sessions.length + s'.pending ≤ cfg.maxSessions) : Sound cfg s' := by
  have hport : stage.port (n ∈ s'.sessions) = none := by
    rcases hkind with ⟨rfl, -⟩ | ⟨message, rfl⟩ <;> rfl
  refine h.change hstage (fun m _ => by rw [hsessions]) (hsessions ▸ h.nodup)
    (by rw [hsessions]; exact hroom) (fun hn => absurd (hsessions ▸ hn) hunlisted) ?_ ?_ ?_ ?_
  · rintro x rfl
    rcases hkind with ⟨hkind, -⟩ | ⟨message, hkind⟩ <;> exact absurd hkind nofun
  · rw [hport, ← hholds, Function.update_eq_self, hreserved]
    exact h.allotted
  · rw [hreserved]
    exact fun port hport => Or.inl hport
  · rintro k port rfl
    rcases hkind with ⟨hkind, hfree⟩ | ⟨message, hkind⟩
    · obtain ⟨-, rfl, htaken⟩ := Stage.probing.inj hkind
      rw [hreserved]
      exact ⟨of_decide_eq_false htaken.symm, hfree⟩
    · exact absurd hkind nofun

/-! ## Careful steps -/

/-- A call of `startSession` goes well: what it stops has its port or finds it free; when it finds
room, the sessions and all pending starts together leave it; and the port it comes to is under no
other probe. -/
structure Begins (cfg : Config) (s : State) : Prop where
  collects : Collects cfg s
  evicts : full cfg (maybeGcSessions cfg s) = true →
    ∀ n ∈ oldest (maybeGcSessions cfg s), Quiet (maybeGcSessions cfg s) n
  fits : full cfg (maybeGcSessions cfg s) = false →
    (maybeGcSessions cfg s).sessions.length + (maybeGcSessions cfg s).pending < cfg.maxSessions
  unprobed : (full cfg (maybeGcSessions cfg s) = true → oldest (maybeGcSessions cfg s) ≠ none) →
    ∀ m attempt, (maybeGcSessions cfg s).stage m ≠
      some (.probing attempt (maybeGcSessions cfg s).nextLocalPort false)

/-- The step overlooks nothing: see `Begins` for a start; no other probe of the port a loop comes to
is in flight; `spawn` does not throw; and a session that releases its port has it, or nobody has. -/
def Careful (cfg : Config) (s : State) : Event → Prop
  | .start .. => Begins cfg s
  | .assign country state city =>
    Collects cfg s ∧ (candidate (maybeGcSessions cfg s) country state city = none →
      starting (maybeGcSessions cfg s) (sessionKey country state city) = none →
        Begins cfg (maybeGcSessions cfg s))
  | .stop n => n ∈ s.sessions → Quiet s n
  | .probe n free => ∀ attempt port taken, s.stage n = some (.probing attempt port taken) →
    (free && !taken) = false → attempt + 1 < cfg.portMax + 1 - cfg.portMin →
      Unprobed s n s.nextLocalPort
  | .spawn n thrown => ∀ call port, s.starts[n]? = some call → call.stage = .reserved port →
    spawnThrows call thrown = false
  | .settle n failure => failure ≠ none → ∀ x, s.stage n = some (.starting x) → Quiet s n
  | .exit n _ => ∀ x, s.stage n = some (.running x) → Quiet s n
  | _ => True

theorem oldest_mem (h : oldest s = some n) : n ∈ s.sessions := by
  have hmem := List.mem_of_mem_head? (Option.mem_def.mpr h)
  rw [State.byLastUse, (List.mergeSort_perm _ _).mem_iff] at hmem
  exact (List.mem_filter.mp hmem).1

theorem Sound.stop_length (h : Sound cfg s) (hn : n ∈ s.sessions) :
    (stopSession s n).sessions.length + 1 = s.sessions.length := by
  rcases h.stop_cases n with ⟨hout, -⟩ | ⟨-, x, -, hnext⟩
  · exact absurd hn hout
  · rw [hnext]
    show (s.sessions.erase n).length + 1 = s.sessions.length
    rw [List.length_erase_of_mem hn]
    have hpos := List.length_pos_of_mem hn
    omega

/-- A start is appended, at the first turn of its loop. -/
theorem Sound.begin (h : Sound cfg s) (hroom : s.sessions.length + s.pending < cfg.maxSessions)
    (hfree : ∀ m attempt, s.stage m ≠ some (.probing attempt s.nextLocalPort false))
    (key : Option String) (country state city : String) :
    Sound cfg ((reservePort cfg s 0).1.call key country state city (reservePort cfg s 0).2) := by
  obtain ⟨hstarts, hsessions, hreserved, -⟩ := @reservePort_state cfg s 0
  have hstage : (reservePort cfg s 0).1.stage = s.stage := by
    funext m
    simp only [State.stage, hstarts]
  refine h.place s.starts.length 0 (reservePort cfg s 0).2 ?_ ?_
    hsessions hreserved (h.sessionless ?_) ?_ ?_
  · rw [stage_call, hstage, hstarts]
  · rcases @reservePort_cases cfg s 0 with ⟨-, hprobe⟩ | ⟨-, hfail⟩
    · exact Or.inl ⟨hprobe, fun m attempt _ => hfree m attempt⟩
    · exact Or.inr hfail
  · rw [State.session, stage_length]
    rfl
  · rw [State.holds, stage_length]
    rfl
  · rw [pending_call]
    have hpending : (reservePort cfg s 0).1.pending = s.pending := by
      simp only [State.pending, hstarts]
    have hone := Bool.toNat_le (reservePort cfg s 0).2.pending
    omega

/-- **`startSession` keeps the table within its capacity**, when it goes well. -/
theorem Sound.startSession (h : Sound cfg s) (hbegins : Begins cfg s) (key : Option String)
    (country state city : String) : Sound cfg (startSession cfg s key country state city) := by
  obtain ⟨hcollects, hevicts, hfits, hfree⟩ := hbegins
  obtain ⟨hsound, -⟩ := h.maybeGc hcollects
  revert hevicts hfits hfree hsound
  unfold LocalProxy.startSession
  generalize maybeGcSessions cfg s = g
  intro hevicts hfits hfree hsound
  dsimp only
  split
  case isTrue hfull =>
    split
    case h_1 =>
      refine hsound.place g.starts.length 0 _ (stage_call ..) (Or.inr ⟨_, rfl⟩)
        rfl rfl (hsound.sessionless ?_) ?_ ?_
      · rw [State.session, stage_length]
        rfl
      · rw [State.holds, stage_length]
        rfl
      · rw [pending_call]
        exact hsound.room
    case h_2 n hn =>
      have hmem := oldest_mem hn
      obtain ⟨hstopped, hstops⟩ := hsound.stop fun _ => hevicts hfull n hn
      have hlength := hsound.stop_length hmem
      have hroom := hsound.room
      refine hstopped.begin ?_ (fun m attempt hm => ?_) key country state city
      · rw [hstops.pending]
        omega
      · rw [hstops.next] at hm
        exact hfree (fun _ => by rw [hn]; nofun) m attempt (hstops.probing hm)
  case isFalse hroom =>
    have hnot : full cfg g = false := by simpa using hroom
    exact hsound.begin (hfits hnot)
      (hfree fun hfull => absurd (hfull.symm.trans hnot) nofun) key country state city

/-- A session is assigned once more. -/
theorem Sound.touch (h : Sound cfg s) (n : Nat) (now : Int) :
    Sound cfg (s.update n fun x => { x with lastUsedAt := now }) := by
  have hstage := stage_update (s := s) (n := n) fun x => { x with lastUsedAt := now }
  cases hold : s.stage n with
  | none =>
    rw [hold, Option.map_none, ← hold, Function.update_eq_self] at hstage
    have hholds : (s.update n fun x => { x with lastUsedAt := now }).holds = s.holds := by
      funext m
      simp only [State.holds, hstage]
      rfl
    exact ⟨by rw [pending_update]; exact h.room, h.nodup, by rw [hstage]; exact h.listed,
      by rw [hstage]; exact h.fresh, by rw [hholds]; exact h.allotted,
      by rw [hstage]; exact h.unreserved, by rw [hstage]; exact h.apart⟩
  | some old =>
    rw [hold, Option.map_some] at hstage
    refine h.change hstage (fun _ _ => Iff.rfl) h.nodup (by rw [pending_update]; exact h.room)
      (fun hn => ?_) (fun x hx => ?_) ?_ (fun _ hport => Or.inl hport) fun attempt port hprobing => ?_
    · obtain ⟨x, hx | hx, hstatus⟩ := h.listed n hn
      · obtain rfl := Option.some.inj (hold.symm.trans hx)
        exact ⟨_, Or.inl rfl, hstatus⟩
      · obtain rfl := Option.some.inj (hold.symm.trans hx)
        exact ⟨_, Or.inr rfl, hstatus⟩
    · cases old <;> simp only [Stage.map] at hx
      case starting y =>
        rw [← Stage.starting.inj hx]
        show y.exited = false
        exact h.fresh hold
      all_goals exact absurd hx nofun
    · have hport : (old.map fun x => { x with lastUsedAt := now }).port (n ∈ s.sessions)
          = s.holds n := by
        rw [State.holds, hold]
        cases old <;> rfl
      show Allotted (Function.update s.holds n (Stage.port (n ∈ s.sessions) _)) s.reservedPorts
      rw [hport, Function.update_eq_self]
      exact h.allotted
    · have hsame : s.stage n = some (.probing attempt port false) := by
        rw [hold]
        cases old <;> simp_all [Stage.map]
      exact ⟨h.unreserved hsame, fun m k hm hmk => hm (h.apart hmk hsame)⟩

/-! ## Every step -/

theorem Sound.assignSession (h : Sound cfg s) {country state city : String}
    (hcareful : Careful cfg s (.assign country state city)) :
    Sound cfg (assignSession cfg s country state city).1 := by
  obtain ⟨hcollects, hbegins⟩ := hcareful
  obtain ⟨hsound, -⟩ := h.maybeGc hcollects
  simp only [LocalProxy.assignSession]
  split
  case h_1 n _ => exact hsound.touch n _
  case h_2 hcandidate =>
    split
    case h_1 => exact hsound
    case h_2 hstarting =>
      exact (hsound.startSession (hbegins hcandidate hstarting) _ _ _ _).congr rfl rfl rfl

theorem Sound.probe (h : Sound cfg s) {free : Bool} (hcareful : Careful cfg s (.probe n free)) :
    Sound cfg (probe cfg s n free) := by
  unfold LocalProxy.probe
  split
  case h_2 => exact h
  case h_1 attempt port taken hstage =>
    have hunlisted : n ∉ s.sessions := h.sessionless (by simp [State.session, hstage, Stage.session])
    have hholds : s.holds n = none := by simp [State.holds, hstage, Stage.port]
    split
    case isTrue hfree =>
      obtain ⟨rfl, htaken⟩ := Bool.and_eq_true_iff.mp hfree
      have huntaken : taken = false := by simpa using htaken
      rw [huntaken] at hstage
      have hfresh := h.unreserved hstage
      have hcount := pending_setStage (.reserved port) hstage
      have hpending : (s.setStage n (.reserved port)).pending = s.pending :=
        Nat.add_right_cancel hcount
      refine h.change (stage_setStage (.reserved port) hstage) (fun _ _ => Iff.rfl) h.nodup ?_
        (fun hn => absurd hn hunlisted) (fun _ hx => absurd hx nofun)
        (h.allotted.acquire hholds hfresh) (fun other hother => ?_) fun _ _ hx => absurd hx nofun
      · exact le_of_eq_of_le (congrArg (s.sessions.length + ·) hpending) h.room
      · rcases Finset.mem_insert.mp hother with rfl | hother
        · exact Or.inr fun m k hm hmk => hm (h.apart hmk hstage)
        · exact Or.inl hother
    case isFalse hfree =>
      -- The port is not taken, and the loop goes on.
      obtain ⟨hstarts, hsessions, hreserved, -⟩ := @reservePort_state cfg s (attempt + 1)
      have hsame : (reservePort cfg s (attempt + 1)).1.stage = s.stage := by
        funext m
        simp only [State.stage, hstarts]
      have hcount := pending_setStage (s := (reservePort cfg s (attempt + 1)).1)
        (reservePort cfg s (attempt + 1)).2 (by rw [hsame]; exact hstage)
      have hpending : (reservePort cfg s (attempt + 1)).1.pending = s.pending := by
        simp only [State.pending, hstarts]
      refine h.place n (attempt + 1) (reservePort cfg s (attempt + 1)).2 ?_ ?_ hsessions hreserved
        hunlisted hholds ?_
      · rw [stage_setStage _ (by rw [hsame]; exact hstage), hsame]
      · rcases @reservePort_cases cfg s (attempt + 1) with ⟨hlt, hprobe⟩ | ⟨-, hfail⟩
        · exact Or.inl ⟨hprobe, hcareful attempt port taken hstage (by simpa using hfree) hlt⟩
        · exact Or.inr hfail
      · have hroom := h.room
        have hone := Bool.toNat_le (reservePort cfg s (attempt + 1)).2.pending
        have hold : (Stage.probing attempt port taken).pending.toNat = 1 := rfl
        dsimp only at hcount ⊢
        omega

theorem Sound.spawn (h : Sound cfg s) {thrown : Bool} (hcareful : Careful cfg s (.spawn n thrown)) :
    Sound cfg (spawn s n thrown) := by
  unfold LocalProxy.spawn
  split
  case h_2 => exact h
  case h_1 call hcall =>
    split
    case h_2 => exact h
    case h_1 port hreserved =>
      have hthrows := hcareful call port hcall hreserved
      rw [if_neg (by rw [hthrows]; nofun)]
      have hstage : s.stage n = some (.reserved port) := by
        rw [State.stage, hcall, Option.map_some, hreserved]
      have hunlisted : n ∉ s.sessions :=
        h.sessionless (by simp [State.session, hstage, Stage.session])
      have hholds : s.holds n = some port := by simp [State.holds, hstage, Stage.port]
      let x : Session :=
        { localPort := port, country := call.country, state := call.state, city := call.city
          startedAt := s.now, lastUsedAt := s.now }
      have hcount := pending_setStage (.starting x) hstage
      refine h.change (stage_setStage (.starting x) hstage) (fun m hm => ?_) ?_ ?_
        (fun _ => ⟨x, Or.inl rfl, nofun⟩) (fun y hy => ?_) ?_ (fun _ hport => Or.inl hport)
        fun _ _ hy => absurd hy nofun
      · simp [hm]
      · exact List.nodup_append.mpr ⟨h.nodup, List.nodup_singleton n, fun a ha b hb hab => by
          rw [List.mem_singleton.mp hb] at hab
          exact hunlisted (hab ▸ ha)⟩
      · have hroom := h.room
        have hbefore : (Stage.reserved port).pending.toNat = 1 := rfl
        have hafter : (Stage.starting x).pending.toNat = 0 := rfl
        show (s.sessions ++ [n]).length + (s.setStage n (.starting x)).pending ≤ cfg.maxSessions
        rw [List.length_append, List.length_singleton]
        omega
      · rw [← Stage.starting.inj hy]
      · have hport : (Stage.starting x).port (n ∈ s.sessions ++ [n]) = some port := by
          simp [Stage.port, x]
        show Allotted (Function.update s.holds n ((Stage.starting x).port (n ∈ s.sessions ++ [n])))
          s.reservedPorts
        rw [hport, ← hholds, Function.update_eq_self]
        exact h.allotted

/-- What a session that is over leaves of the ports. -/
theorem Sound.give_back (h : Sound cfg s) {x : Session} (hx : s.session n = some x)
    (hholds : s.holds n = none ∨ s.holds n = some x.localPort) (hquiet : Quiet s n) :
    Allotted (Function.update s.holds n none) (s.reservedPorts.erase x.localPort) := by
  rcases hholds with hnone | hsome
  · rw [← hnone, Function.update_eq_self]
    exact h.allotted.release_again (hquiet x hx hnone)
  · exact h.allotted.release hsome

/-- A session that runs on, or whose probe is over: it keeps its port. -/
theorem Sound.stays (h : Sound cfg s) {old : Stage} (hstage : s.stage n = some old) {y : Session}
    (hport : (Stage.running y).port (n ∈ s.sessions) = s.holds n)
    (hpending : (s.setStage n (.running y)).pending = s.pending) (hstatus : y.status ≠ .stopped) :
    Sound cfg (s.setStage n (.running y)) := by
  refine h.change (stage_setStage _ hstage) (fun _ _ => Iff.rfl) h.nodup ?_
    (fun _ => ⟨y, Or.inr rfl, hstatus⟩) (fun _ hy => absurd hy nofun) ?_
    (fun _ hother => Or.inl hother) fun _ _ hy => absurd hy nofun
  · exact le_of_eq_of_le (congrArg (s.sessions.length + ·) hpending) h.room
  · show Allotted (Function.update s.holds n (Stage.port (n ∈ s.sessions) _)) s.reservedPorts
    rw [hport, Function.update_eq_self]
    exact h.allotted

theorem Sound.settle (h : Sound cfg s) {failure : Option String}
    (hcareful : Careful cfg s (.settle n failure)) : Sound cfg (settle s n failure) := by
  unfold LocalProxy.settle
  split
  case h_2 => exact h
  case h_1 x hstage =>
    have hfresh := h.fresh hstage
    have hsession : s.session n = some x := by simp [State.session, hstage, Stage.session]
    cases failure with
    | none =>
      have hport : (Stage.running { x with status := .ready }).port (n ∈ s.sessions)
          = s.holds n := by
        rw [State.holds, hstage]
        rfl
      have hcount := pending_setStage (.running { x with status := .ready }) hstage
      exact h.stays hstage hport (Nat.add_right_cancel hcount) nofun
    | some message =>
      let stage : Stage := .failed (some { x with status := .error, error := some message }) message
      have hcount := pending_setStage stage hstage
      have hgone : n ∉ s.sessions.erase n := h.nodup.not_mem_erase
      have hholds : s.holds n = none ∨ s.holds n = some x.localPort := by
        cases hn : decide (n ∈ s.sessions) <;> simp [State.holds, hstage, Stage.port, hn, hfresh]
      refine h.change (stage_setStage stage hstage) (fun m hm => List.mem_erase_of_ne hm)
        (h.nodup.sublist List.erase_sublist) ?_ (fun hn => absurd hn hgone)
        (fun _ hy => absurd hy nofun)
        (h.give_back hsession hholds (hcareful nofun x hstage))
        (fun _ hother => Or.inl (Finset.mem_of_mem_erase hother)) fun _ _ hy => absurd hy nofun
      have hlength : (s.sessions.erase n).length ≤ s.sessions.length :=
        List.erase_sublist.length_le
      have hsame : (s.setStage n stage).pending = s.pending := Nat.add_right_cancel hcount
      show (s.sessions.erase n).length + (s.setStage n stage).pending ≤ cfg.maxSessions
      rw [hsame]
      exact le_trans (Nat.add_le_add_right hlength _) h.room

theorem Sound.exit (h : Sound cfg s) {code : String} (hcareful : Careful cfg s (.exit n code)) :
    Sound cfg (exit s n code) := by
  unfold LocalProxy.exit
  split
  case h_2 => exact h
  case h_1 x hstage =>
    split
    case isTrue => exact h
    case isFalse hexited =>
      have hsession : s.session n = some x := by simp [State.session, hstage, Stage.session]
      have hholds : s.holds n = none ∨ s.holds n = some x.localPort := by
        cases hn : decide (n ∈ s.sessions) <;> simp [State.holds, hstage, Stage.port, hn, hexited]
      generalize hy : (if x.status = .stopped then { x with exited := true } else { x with
        exited := true, status := .error, error := some ("Tunnel exited with code " ++ code) }) = y
      have hgone : y.exited = true := by
        rw [← hy]
        split <;> rfl
      have hcount := pending_setStage (.running y) hstage
      refine h.change (stage_setStage (.running y) hstage) (fun _ _ => Iff.rfl) h.nodup ?_
        (fun hn => ⟨y, Or.inr rfl, ?_⟩) (fun _ hz => absurd hz nofun) ?_
        (fun _ hother => Or.inl (Finset.mem_of_mem_erase hother)) fun _ _ hz => absurd hz nofun
      · exact le_of_eq_of_le (congrArg (s.sessions.length + ·) (Nat.add_right_cancel hcount)) h.room
      · obtain ⟨z, hz | hz, hstatus⟩ := h.listed n hn
        · rw [hstage] at hz
          exact absurd hz nofun
        · obtain rfl := Stage.running.inj (Option.some.inj (hstage.symm.trans hz))
          rw [← hy, if_neg hstatus]
          nofun
      · have hnone : (Stage.running y).port (n ∈ s.sessions) = none := by simp [Stage.port, hgone]
        show Allotted (Function.update s.holds n ((Stage.running y).port (n ∈ s.sessions))) _
        rw [hnone]
        exact h.give_back hsession hholds (hcareful x hstage)

theorem Sound.processError (h : Sound cfg s) (n : Nat) (message : String) :
    Sound cfg (processError s n message) := by
  unfold LocalProxy.processError
  split
  case h_2 => exact h
  case h_1 x hstage =>
    have hport : (Stage.running { x with status := .error, error := some message }).port
        (n ∈ s.sessions) = s.holds n := by
      rw [State.holds, hstage]
      rfl
    have hcount := pending_setStage (.running { x with status := .error, error := some message }) hstage
    exact h.stays hstage hport (Nat.add_right_cancel hcount) nofun

theorem Sound.cleanup (h : Sound cfg s) (n : Nat) : Sound cfg (cleanup s n) := by
  unfold LocalProxy.cleanup
  split
  case h_2 => exact h
  case h_1 call hcall =>
    split
    case h_2 => exact h
    case h_1 key hkey =>
      split
      case isFalse => exact h
      case isTrue =>
        have hstage : ∀ m, ({ s with
            starts := s.starts.modify n fun call => { call with cleaned := true } } : State).stage m
              = s.stage m := by
          intro m
          rw [stage_modify]
          split
          case isTrue hm => rw [hm]; rfl
          case isFalse => rfl
        have hcount := countP_modify (fun call : Start => call.stage.pending)
          (fun call => { call with cleaned := true }) hcall
        have hpending : (s.starts.modify n fun call => { call with cleaned := true }).countP
            (·.stage.pending) = s.pending := Nat.add_right_cancel hcount
        refine ⟨?_, h.nodup, fun m hm => ?_, fun {m x} hm => ?_, ?_, fun {m k port} hm => ?_,
          fun {m k i j port} hm hk => ?_⟩
        · exact le_of_eq_of_le (congrArg (s.sessions.length + ·) hpending) h.room
        · exact (hstage m).symm ▸ h.listed m hm
        · exact h.fresh ((hstage m).symm.trans hm)
        · have hholds : (({ s with
              starts := s.starts.modify n fun call => { call with cleaned := true } } : State).holds)
                = s.holds := by
            funext m
            simp only [State.holds, hstage]
          exact hholds.symm ▸ h.allotted
        · exact h.unreserved ((hstage m).symm.trans hm)
        · exact h.apart ((hstage m).symm.trans hm) ((hstage k).symm.trans hk)

/-- **Every careful step keeps the invariant.** -/
theorem Sound.next (h : Sound cfg s) {e : Event} (hcareful : Careful cfg s e) :
    Sound cfg ((manager cfg).next s e) := by
  cases e with
  | clock now => exact h.congr rfl rfl rfl
  | start country state city => exact h.startSession hcareful none country state city
  | assign country state city => exact h.assignSession hcareful
  | stop n => exact (h.stop hcareful).1
  | probe n free => exact h.probe hcareful
  | spawn n thrown => exact h.spawn hcareful
  | settle n failure => exact h.settle hcareful
  | exit n code => exact h.exit hcareful
  | processError n message => exact h.processError n message
  | cleanup n => exact h.cleanup n

theorem sound_start : Sound cfg (start cfg) where
  room := Nat.zero_le _
  nodup := List.nodup_nil
  listed := nofun
  fresh hn := by simp [State.stage, start] at hn
  allotted := Allotted.empty
  unreserved hn := by simp [State.stage, start] at hn
  apart hn := by simp [State.stage, start] at hn

/-! ## Capacity, ports and releases -/

/-- A session in the table whose tunnel has not exited. -/
def State.Live (s : State) (n : Nat) (x : Session) : Prop :=
  n ∈ s.sessions ∧ s.session n = some x ∧ x.exited = false

theorem Sound.holds_live (h : Sound cfg s) {x : Session} (hx : s.Live n x) :
    s.holds n = some x.localPort := by
  obtain ⟨hn, hsession, hexited⟩ := hx
  obtain ⟨y, hy, -, hholds⟩ := h.holds_listed hn
  obtain rfl := Option.some.inj (hsession.symm.trans hy)
  rw [hholds, hexited]
  rfl

/-- Two starts pass the check while neither is counted. -/
def overrun : List Event :=
  [.start "US" "" "", .start "US" "" "", .probe 0 true, .probe 1 true, .spawn 0 false,
    .spawn 1 false]

/-- The second start comes round to the port the first is still probing. -/
def wrapped : List Event :=
  [.start "US" "" "", .start "US" "" ""] ++ List.replicate 100 (.probe 1 false) ++
    [.probe 0 true, .probe 1 true, .spawn 0 false, .spawn 1 false]

/-- A name that `spawn` refuses. -/
def refused : List Event := [.start "US" "" "a\u0000b", .probe 0 true, .spawn 0 false]

end LinkSuffix.LocalProxy
