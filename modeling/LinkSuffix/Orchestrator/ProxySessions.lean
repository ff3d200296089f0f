import LinkSuffix.Lib.ExpiringQueue
import LinkSuffix.Lib.Table
import LinkSuffix.Text

/-!
# The tokens of proxy sessions

`createContextProxySessionId` (`runner.ts`) gives every browser context a token of its own, and
reserves it for an hour. The module keeps the reservations in a map, and in a queue in the order
they were made; a call drops what has expired from the front of the queue, and then tries up to 256
tokens until one is not reserved. The hash of a token's text is any function.

* `reapContextProxySessionReservations`, `createContextProxySessionId`: the code.
* `run_expiryQueue`: the map and the queue are one queue of keys that expire.
* **`session_tokens_reserved`**: a token is reserved, and not returned again, until a call reads a
  clock an hour past its issue; under a clock that does not go back nothing else stays reserved.
* `token_returned_again`: a clock that goes forward and back.
-/

namespace LinkSuffix.ProxySessions

open Lib

/-- `CONTEXT_PROXY_SESSION_RESERVATION_MS`. -/
def reservationMs : Int := 60 * 60000

/-- `Number.MAX_SAFE_INTEGER`. -/
def maxSafeInteger : Nat := 2 ^ 53 - 1

/-- An entry of the map, or of the queue: a `sessionId` and its `expiresAt`. -/
abbrev Reservation : Type := TimedKey String Int

/-! ## The map -/

/-- `contextProxySessionReservations.get`. -/
def get (reservations : List Reservation) (sessionId : String) : Option Int :=
  (reservations.find? fun r => r.key = sessionId).map (·.expiresAt)

/-- `contextProxySessionReservations.has`. -/
def has (reservations : List Reservation) (sessionId : String) : Bool :=
  (get reservations sessionId).isSome

/-- `contextProxySessionReservations.delete`. -/
def delete (reservations : List Reservation) (sessionId : String) : List Reservation :=
  reservations.filter fun r => r.key ≠ sessionId

/-- `contextProxySessionReservations.set`. -/
def set (reservations : List Reservation) (sessionId : String) (expiresAt : Int) :
    List Reservation :=
  upsertKey (·.key) { key := sessionId, expiresAt } reservations

/-! ## The code -/

/-- The module's variables. -/
structure State where
  contextProxySequence : Nat := 0
  reservations : List Reservation := []
  expiryQueue : List Reservation := []
  deriving DecidableEq

/-- The input of a call. -/
structure Input where
  scenarioId : String
  runId : String
  repeatIndex : Nat
  attemptIndex : Nat

/-- A call: its input, `Date.now()`, and the text of `Math.random()` at every attempt. -/
structure Call where
  input : Input
  now : Int
  random : Nat → String

/-- The loop of `reapContextProxySessionReservations`: what is left of the map and of the queue. -/
def reap (now : Int) (reservations : List Reservation) :
    List Reservation → List Reservation × List Reservation
  | [] => (reservations, [])
  | head :: queue =>
    if head.expiresAt ≤ now then
      reap now
        (if get reservations head.key = some head.expiresAt then delete reservations head.key
          else reservations)
        queue
    else (reservations, head :: queue)

/-- `reapContextProxySessionReservations`. -/
def reapContextProxySessionReservations (now : Int) (s : State) : State :=
  let left := reap now s.reservations s.expiryQueue
  { s with reservations := left.1, expiryQueue := left.2 }

section Code

variable (digest : String → String) (pid : Nat)

/-- The token of an attempt; `digest` is the SHA-256 of a text, in hexadecimal digits. -/
def sessionId (call : Call) (sequence collisionAttempt : Nat) : String :=
  sliceTo 8 (digest (String.intercalate ":" [
    call.input.scenarioId, call.input.runId, toString call.input.repeatIndex,
    toString call.input.attemptIndex, toString pid, toString sequence, toString call.now,
    toString collisionAttempt, call.random collisionAttempt]))

/-- The loop of `createContextProxySessionId`, with the attempts that remain. -/
def attempts (call : Call) : Nat → Nat → State → State × Except String String
  | 0, _, s => (s, .error "Unable to allocate a unique proxy session token")
  | remaining + 1, collisionAttempt, s =>
    let sequence := (s.contextProxySequence + 1) % maxSafeInteger
    let token := sessionId digest pid call sequence collisionAttempt
    let s := { s with contextProxySequence := sequence }
    if has s.reservations token then attempts call remaining (collisionAttempt + 1) s
    else
      let expiresAt := call.now + reservationMs
      ({ s with
          reservations := set s.reservations token expiresAt
          expiryQueue := s.expiryQueue ++ [{ key := token, expiresAt }] }, .ok token)

/-- `createContextProxySessionId`. -/
def createContextProxySessionId (s : State) (call : Call) : State × Except String String :=
  attempts digest pid call 256 0 (reapContextProxySessionReservations call.now s)

/-- The calls of a process. -/
def calls : EventSystem State Call (Except String String) where
  step := createContextProxySessionId digest pid

end Code

/-! ## What one call does -/

/-- The map and the queue are one queue, of distinct tokens. -/
structure Coherent (s : State) : Prop where
  same : s.reservations = s.expiryQueue
  nodup : (s.expiryQueue.map (·.key)).Nodup

section Steps

variable {digest : String → String} {pid : Nat} {s : State} {call : Call} {token : String}
  {now : Int} {reservations queue : List Reservation}

theorem has_iff : has reservations token = true ↔ token ∈ reservations.map (·.key) := by
  unfold has get
  rw [Option.isSome_map, List.find?_isSome]
  simp only [decide_eq_true_eq, List.mem_map]

theorem get_head (head : Reservation) : get (head :: queue) head.key = some head.expiresAt := by
  simp [get]

theorem delete_head {head : Reservation} (hfresh : head.key ∉ queue.map (·.key)) :
    delete (head :: queue) head.key = queue := by
  unfold delete
  rw [List.filter_cons_of_neg (by simp), List.filter_eq_self]
  intro r hr
  have hne : r.key ≠ head.key := fun hkey => hfresh (List.mem_map.mpr ⟨r, hr, hkey⟩)
  exact decide_eq_true hne

theorem set_new {expiresAt : Int} (hfresh : has reservations token = false) :
    set reservations token expiresAt = reservations ++ [{ key := token, expiresAt }] := by
  have hfresh : token ∉ reservations.map (·.key) := by
    rw [← has_iff, hfresh]
    exact Bool.false_ne_true
  unfold set upsertKey
  exact if_neg hfresh

/-- The loop drops the same entries from a map and a queue that are one. -/
theorem reap_same (hnodup : (queue.map (·.key)).Nodup) :
    reap now queue queue = (ExpiringQueue.expire now queue, ExpiringQueue.expire now queue) := by
  induction queue with
  | nil => rfl
  | cons head queue ih =>
    rw [List.map_cons, List.nodup_cons] at hnodup
    rw [reap, ExpiringQueue.expire_cons, if_pos (get_head head), delete_head hnodup.1]
    split
    · exact ih hnodup.2
    · rfl

theorem reap_spec (h : Coherent s) :
    reapContextProxySessionReservations call.now s =
      { s with
        reservations := ExpiringQueue.expire call.now s.expiryQueue
        expiryQueue := ExpiringQueue.expire call.now s.expiryQueue } := by
  unfold reapContextProxySessionReservations
  rw [h.same, reap_same h.nodup]

/-- What a call leaves: the token it returns was not reserved, and is reserved now. -/
def Leaves (s : State) (now : Int) (outcome : State × Except String String) : Prop :=
  (∃ token, outcome.2 = .ok token ∧ has s.reservations token = false ∧
    outcome.1.reservations = s.reservations ++ [{ key := token, expiresAt := now + reservationMs }] ∧
    outcome.1.expiryQueue = s.expiryQueue ++ [{ key := token, expiresAt := now + reservationMs }]) ∨
  (∃ message, outcome.2 = .error message ∧ outcome.1.reservations = s.reservations ∧
    outcome.1.expiryQueue = s.expiryQueue)

theorem attempts_leaves (digest : String → String) (pid : Nat) (call : Call)
    (remaining collisionAttempt : Nat) (s : State) :
    Leaves s call.now (attempts digest pid call remaining collisionAttempt s) := by
  induction remaining generalizing collisionAttempt s with
  | zero => exact Or.inr ⟨_, rfl, rfl, rfl⟩
  | succ remaining ih =>
    rw [attempts]
    split
    · exact ih _ _
    · rename_i hfree
      have hfree := Bool.eq_false_of_not_eq_true hfree
      exact Or.inl ⟨_, rfl, hfree, set_new hfree, rfl⟩

/-- The turn of a call at the queue: its reading, and the token it returns if it does. -/
def turn (digest : String → String) (pid : Nat) (s : State) (call : Call) :
    List (ExpiringQueue.Turn String Int) :=
  [{ now := call.now, key := ((calls digest pid).reply s call).toOption }]

/-- When a token issued at a reading expires. -/
def expiry (now : Int) : Int := now + reservationMs

/-- **One call is one turn at the queue**, and the token it returns was not in it. -/
theorem next_spec (h : Coherent s) :
    Coherent ((calls digest pid).next s call) ∧
    ((calls digest pid).next s call).expiryQueue =
      (ExpiringQueue.turns expiry).run s.expiryQueue (turn digest pid s call) ∧
    ∀ token, (calls digest pid).reply s call = .ok token →
      token ∉ (ExpiringQueue.expire call.now s.expiryQueue).map (·.key) := by
  have hkept : ((ExpiringQueue.expire call.now s.expiryQueue).map (·.key)).Nodup :=
    h.nodup.sublist (ExpiringQueue.expire_sublist.map _)
  have hstep : (calls digest pid).step s call =
      attempts digest pid call 256 0 (reapContextProxySessionReservations call.now s) := rfl
  have hleaves := attempts_leaves digest pid call 256 0
    (reapContextProxySessionReservations call.now s)
  rw [← hstep, reap_spec h] at hleaves
  unfold EventSystem.next turn EventSystem.reply
  rcases hleaves with ⟨token, hreply, hfree, hmap, hqueue⟩ | ⟨message, hreply, hmap, hqueue⟩
  · have hnew : token ∉ (ExpiringQueue.expire call.now s.expiryQueue).map (·.key) := by
      rw [← has_iff, hfree]
      exact Bool.false_ne_true
    refine ⟨⟨hmap.trans hqueue.symm, ?_⟩, ?_, ?_⟩
    · rw [hqueue]
      exact nodup_map_concat hkept hnew
    · rw [hqueue, hreply]
      rfl
    · intro token' hreply'
      obtain rfl : token = token' := Except.ok.inj (hreply.symm.trans hreply')
      exact hnew
  · refine ⟨⟨hmap.trans hqueue.symm, ?_⟩, ?_, ?_⟩
    · rw [hqueue]
      exact hkept
    · rw [hqueue, hreply]
      exact (List.append_nil _).symm
    · intro token' hreply'
      exact absurd (hreply.symm.trans hreply') nofun

end Steps

/-! ## Runs of calls -/

section Runs

variable {digest : String → String} {pid : Nat} {s : State} {cs : List Call} {call : Call}
  {token : String}

theorem coherent_run (h : Coherent s) : Coherent ((calls digest pid).run s cs) :=
  EventSystem.run_inv_true h fun _ _ hs => (next_spec hs).1

/-- **The code is the queue of keys that expire**, call by call. -/
theorem run_expiryQueue (h : Coherent s) :
    ((calls digest pid).run s cs).expiryQueue =
      (ExpiringQueue.turns expiry).run s.expiryQueue
        ((calls digest pid).collect (turn digest pid) s cs) := by
  induction cs generalizing s with
  | nil => rfl
  | cons call cs ih =>
    obtain ⟨hcoherent, hqueue, -⟩ := @next_spec digest pid s call h
    rw [EventSystem.run_cons, EventSystem.collect, EventSystem.run_append, ih hcoherent, hqueue]

theorem collect_turn_now (digest : String → String) (pid : Nat) (s : State) (cs : List Call) :
    ((calls digest pid).collect (turn digest pid) s cs).map (·.now) = cs.map (·.now) := by
  induction cs generalizing s with
  | nil => rfl
  | cons call cs ih => rw [EventSystem.collect, List.map_append, ih]; rfl

theorem coherent_start : Coherent {} := ⟨rfl, List.nodup_nil⟩

/-- The token of a call is queued when the call returns it. -/
theorem mem_queue_of_reply (h : Coherent s) (hreply : (calls digest pid).reply s call = .ok token) :
    { key := token, expiresAt := call.now + reservationMs } ∈
      ((calls digest pid).next s call).expiryQueue := by
  rw [(next_spec h).2.1]
  unfold turn
  rw [hreply]
  exact List.mem_append_right _ List.mem_cons_self

/-- A reservation stays queued as long as every call reads a clock before its expiry. -/
theorem mem_queue_run {r : Reservation} (h : Coherent s) (hr : r ∈ s.expiryQueue)
    (hcs : ∀ c ∈ cs, c.now < r.expiresAt) : r ∈ ((calls digest pid).run s cs).expiryQueue := by
  rw [run_expiryQueue h]
  refine ExpiringQueue.mem_run hr fun t ht => ?_
  have hnow : t.now ∈ cs.map (·.now) := by
    rw [← collect_turn_now digest pid s]
    exact List.mem_map_of_mem ht
  obtain ⟨c, hc, hct⟩ := List.mem_map.mp hnow
  exact hct ▸ not_le.mpr (hcs c hc)

/-- A call does not return a token that is reserved past its reading. -/
theorem not_returned {r : Reservation} (h : Coherent s) (hr : r ∈ s.expiryQueue)
    (hnow : call.now < r.expiresAt) : (calls digest pid).reply s call ≠ .ok r.key := fun hreply =>
  (next_spec h).2.2 r.key hreply (List.mem_map_of_mem (ExpiringQueue.mem_expire hr (not_le.mpr hnow)))

theorem has_run_iff (token : String) :
    has ((calls digest pid).run {} cs).reservations token = true ↔
      token ∈ ((calls digest pid).run {} cs).expiryQueue.map (·.key) := by
  rw [has_iff, (coherent_run coherent_start).same]

/-- The reservation of a token that a call returned, and others have followed. -/
theorem mem_queue_issued {before rest : List Call} {issue : Call}
    (hissue : (calls digest pid).reply ((calls digest pid).run {} before) issue = .ok token)
    (hrest : ∀ c ∈ rest, c.now < issue.now + reservationMs) :
    { key := token, expiresAt := issue.now + reservationMs } ∈
      ((calls digest pid).run {} (before ++ issue :: rest)).expiryQueue := by
  have hbefore : Coherent ((calls digest pid).run {} before) := coherent_run coherent_start
  rw [EventSystem.run_append, EventSystem.run_cons]
  exact mem_queue_run (next_spec hbefore).1 (mem_queue_of_reply hbefore hissue) hrest

theorem expiry_le {s t : Int} (h : s ≤ t) : expiry s ≤ expiry t := Int.add_le_add_right h _

theorem not_expired_at_issue (now : Int) : ¬expiry now ≤ now := by
  unfold expiry reservationMs
  omega

/-- Under a clock that does not go back, what is queued after a call has not expired. -/
theorem unexpired {before : List Call} {last : Call} {r : Reservation}
    (hclock : (before ++ [last]).Pairwise fun c d => c.now ≤ d.now)
    (hr : r ∈ ((calls digest pid).run {} (before ++ [last])).expiryQueue) :
    last.now < r.expiresAt := by
  have hforward : ExpiringQueue.Forward
      ((calls digest pid).collect (turn digest pid) {} (before ++ [last])) := by
    have hnow := List.pairwise_map.mpr hclock
    rw [← collect_turn_now digest pid {}] at hnow
    exact List.pairwise_map.mp hnow
  rw [run_expiryQueue coherent_start] at hr
  rw [EventSystem.collect_concat] at hr hforward
  exact not_le.mp (ExpiringQueue.not_expired_of_mem_run (fun _ _ => expiry_le) not_expired_at_issue
    hforward hr)

/-- **The tokens of proxy sessions.** A token that a call returns is still reserved, and is not
returned again, as long as no call since reads a clock an hour past its issue. The map and the queue
hold the same tokens, and under a clock that does not go back only ones that have not expired. -/
theorem session_tokens_reserved (digest : String → String) (pid : Nat) :
    (∀ before issue rest token,
      (calls digest pid).reply ((calls digest pid).run {} before) issue = .ok token →
      (∀ c ∈ rest, c.now < issue.now + reservationMs) →
        has ((calls digest pid).run {} (before ++ issue :: rest)).reservations token = true ∧
        ∀ between later after, rest = between ++ later :: after →
          (calls digest pid).reply ((calls digest pid).run {} (before ++ issue :: between)) later ≠
            .ok token) ∧
    (∀ before last, (before ++ [last]).Pairwise (fun c d => c.now ≤ d.now) →
      ∀ r ∈ ((calls digest pid).run {} (before ++ [last])).expiryQueue, last.now < r.expiresAt) ∧
    (∀ cs token, has ((calls digest pid).run {} cs).reservations token = true ↔
      token ∈ ((calls digest pid).run {} cs).expiryQueue.map (·.key)) := by
  refine ⟨?_, fun before last hclock r hr => unexpired hclock hr, fun cs token => has_run_iff token⟩
  intro before issue rest token hissue hrest
  constructor
  · exact (has_run_iff token).mpr (List.mem_map_of_mem (mem_queue_issued hissue hrest))
  · rintro between later after rfl
    have hbetween : ∀ c ∈ between, c.now < issue.now + reservationMs := fun c hc =>
      hrest c (List.mem_append_left _ hc)
    have hlater : later.now < issue.now + reservationMs :=
      hrest later (List.mem_append_right _ List.mem_cons_self)
    exact not_returned (coherent_run coherent_start) (mem_queue_issued hissue hbetween) hlater

end Runs

/-! ## A clock that goes back -/

namespace Sample

/-- A hash that is the last eight characters of its text, which are those of `Math.random()` here. -/
def digest (text : String) : String := String.ofList (text.toList.drop (text.length - 8))

def call (now : Int) (random : String) : Call where
  input := { scenarioId := "campaign", runId := "run", repeatIndex := 0, attemptIndex := 0 }
  now
  random := fun _ => random

def first : Call := call 0 "0.aaaaaa"

/-- A call while the clock is two hours ahead. -/
def ahead : Call := call (2 * reservationMs) "0.bbbbbb"

def later : Call := call 10 "0.aaaaaa"

end Sample

/-- The token of the first call is reserved at the last, and nothing queued has expired by then. -/
theorem session_tokens_reserved_sample :
    has ((calls Sample.digest 1).run {} [Sample.first, Sample.later]).reservations "0.aaaaaa" =
      true ∧
    ∀ r ∈ ((calls Sample.digest 1).run {} [Sample.first, Sample.later]).expiryQueue,
      Sample.later.now < r.expiresAt := by
  have h := session_tokens_reserved Sample.digest 1
  constructor
  · exact (h.1 [] Sample.first [Sample.later] "0.aaaaaa" (by decide +kernel)
      (by decide +kernel)).1
  · exact h.2.1 [Sample.first] Sample.later (by decide +kernel)

/-- After a clock that goes forward and back, a token is returned again at a reading within the hour
of its issue. -/
theorem token_returned_again :
    ¬ ∀ (digest : String → String) (pid : Nat) (issue : Call) (between : List Call) (later : Call)
        (token : String), (calls digest pid).reply {} issue = .ok token →
      later.now < issue.now + reservationMs →
      (calls digest pid).reply ((calls digest pid).run {} (issue :: between)) later ≠ .ok token := by
  intro h
  refine h Sample.digest 1 Sample.first [Sample.ahead] Sample.later "0.aaaaaa" ?_ ?_ ?_
  · decide +kernel
  · decide +kernel
  · decide +kernel

end LinkSuffix.ProxySessions
