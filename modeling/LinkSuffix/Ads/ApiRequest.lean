import LinkSuffix.Js.Value
import Mathlib.Data.Rat.Floor

/-!
# One request to the Google Ads API

`request` of the `@tah/google-ads` package: an access token, then the request itself, once more with
a fresh token after a 401, and again after a pause while attempts are left. Other calls of the same
updater change its token at any time, so the token a step finds is an input of the step.

* `Pending.resume`: what an answer does to a request that is under way.
* `Pending.ahead`: the answers it can still take; every one it takes leaves fewer.
* `Pending.Within`: what it has sent so far.
* `resume_within`: a request that ends has sent at most two requests to the API for each attempt,
  and has a response or a `GoogleAdsApiError`.
-/

namespace LinkSuffix.GoogleAds

/-! ## Errors and answers -/

/-- `GoogleAdsApiError`. -/
structure GoogleAdsApiError where
  message : String
  status : Nat
  requestId : Option String := none
  retryable : Bool := false
  details : Option JsValue := none

/-- What is thrown: the two errors of the package, and every other. -/
inductive Thrown where
  | api (error : GoogleAdsApiError)
  | interval (retryAfterMs : ℚ)
  | other (message : String)

/-- The message of an error. -/
def Thrown.message : Thrown → String
  | .api error => error.message
  | .interval retryAfterMs => "Campaign mutation interval has not elapsed; retry in "
      ++ (JsNumber.finite ⌈retryAfterMs / 1000⌉).toText ++ " seconds"
  | .other message => message

/-- A response, its body `{}` when it is no JSON text. -/
structure Response where
  status : Nat
  body : JsValue
  requestId : Option String := none

/-- `response.ok`. -/
def Response.ok (r : Response) : Bool := 200 ≤ r.status && r.status ≤ 299

/-- `ApiResponse`. -/
structure ApiResponse where
  body : JsValue
  requestId : Option String

/-- What an await comes back with: the time is up or the promise fulfilled, `fetch` fails, or there
is a response. -/
inductive Answer where
  | wake
  | failure (message : String)
  | response (r : Response)

/-- `errorMessage(body, fallback)`. -/
def errorMessage (body : JsValue) (fallback : String) : String :=
  (((body.get "error").get "message").text?).getD fallback

/-! ## The updater and its token -/

/-- The numbers of a `GoogleAdsConfig`. -/
structure GoogleAdsConfig where
  maxRetries : Option ℚ := none
  minimumMutationIntervalMs : Option ℚ := none

/-- `GoogleAdsUpdater`, with what its constructor clamps. -/
structure Updater where
  maxRetries : ℚ
  minimumMutationIntervalMs : ℚ

/-- The constructor. -/
def GoogleAdsConfig.updater (cfg : GoogleAdsConfig) : Updater where
  maxRetries := max 0 (min 6 (cfg.maxRetries.getD 4))
  minimumMutationIntervalMs := max 0 (cfg.minimumMutationIntervalMs.getD 58000)

/-- `accessToken`; one that never expires has no time. -/
structure Token where
  value : String
  expiresAt : Option ℚ

/-- `this.accessToken.expiresAt > Date.now() + 60_000`. -/
def Token.usable (t : Token) (now : Int) : Bool := t.expiresAt.all fun e => (now : ℚ) + 60000 < e

/-- `Math.max(60, Number(payload.expires_in) || 3_600)`. -/
def tokenLifetime (expiresIn : JsValue) : Option ℚ :=
  match expiresIn.toNumber with
  | .finite q => some (max 60 (if q = 0 then 3600 else q))
  | .nan => some 3600
  | .infinity negative => if negative then some 60 else none

/-- The token in a response, or the error thrown instead. Reading a field of `null` throws. -/
def tokenOf (r : Response) (now : Int) : Except Thrown Token :=
  let refused := Thrown.api
    { message := errorMessage r.body "Google OAuth token refresh failed", status := r.status }
  if r.ok then
    if r.body.isNullish then
      .error (.other "Cannot read properties of null (reading 'access_token')")
    else match (r.body.get "access_token").text? with
      | none => .error refused
      | some value =>
        .ok { value, expiresAt := (tokenLifetime (r.body.get "expires_in")).map (now + · * 1000) }
  else .error refused

/-! ## The request -/

/-- The parameters of `request` that change, and the requests sent so far. -/
structure Chain where
  attempt : Nat := 0
  forceRefresh : Bool := false
  tokenRequests : Nat := 0
  apiRequests : Nat := 0
  deriving DecidableEq

/-- What a request is waiting for: a token, the API, or the end of a pause. -/
inductive Point where
  | token
  | api
  | sleeping
  deriving DecidableEq

/-- A request under way. -/
structure Pending where
  chain : Chain
  point : Point
  deriving DecidableEq

/-- What a step leaves: a request under way, or its end. -/
inductive Progress where
  | pending (p : Pending)
  | settled (chain : Chain) (outcome : Except Thrown ApiResponse)

/-- `request` up to its first await: `getAccessToken` has a token that lasts, or fetches one. -/
def request (token : Option Token) (now : Int) (chain : Chain) : Pending :=
  if !chain.forceRefresh && token.any (·.usable now) then
    ⟨{ chain with apiRequests := chain.apiRequests + 1 }, .api⟩
  else ⟨{ chain with tokenRequests := chain.tokenRequests + 1 }, .token⟩

section Code

variable (u : Updater)

/-- `attempt + 1`, after a pause. -/
def Chain.again (chain : Chain) : Progress :=
  .pending ⟨{ chain with attempt := chain.attempt + 1, forceRefresh := false }, .sleeping⟩

/-- The `catch` of `request`. -/
def caught (chain : Chain) (e : Thrown) : Progress :=
  match e with
  | .api error => .settled chain (.error (.api error))
  | e =>
    if chain.attempt < u.maxRetries then chain.again
    else .settled chain (.error (.api { message := e.message, status := 0, retryable := true }))

/-- `[429, 500, 502, 503, 504].includes(status)`. -/
def isRetryable (status : Nat) : Bool := status ∈ [429, 500, 502, 503, 504]

/-- A response of the API. -/
def apiResponse (token : Option Token) (now : Int) (chain : Chain) (r : Response) :
    Option Token × Progress :=
  if r.ok then (token, .settled chain (.ok { body := r.body, requestId := r.requestId }))
  else if r.status = 401 && !chain.forceRefresh then
    (none, .pending (request none now { chain with forceRefresh := true }))
  else if isRetryable r.status && chain.attempt < u.maxRetries then (token, chain.again)
  else (token, caught u chain (.api
    { message := errorMessage r.body ("Google Ads API returned HTTP " ++ toString r.status)
      status := r.status, requestId := r.requestId, retryable := isRetryable r.status
      details := some r.body }))

/-- What an answer does: the updater's token and the request after it. Nothing, when it is not what
the request waits for. -/
def Pending.resume (p : Pending) (token : Option Token) (now : Int) :
    Answer → Option (Option Token × Progress)
  | .wake => if p.point = .sleeping then some (token, .pending (request token now p.chain)) else none
  | .failure message =>
    if p.point = .sleeping then none else some (token, caught u p.chain (.other message))
  | .response r =>
    match p.point with
    | .sleeping => none
    | .token =>
      match tokenOf r now with
      | .error e => some (token, caught u p.chain e)
      | .ok fresh => some (some fresh,
          .pending ⟨{ p.chain with apiRequests := p.chain.apiRequests + 1 }, .api⟩)
    | .api => some (apiResponse u token now p.chain r)

end Code

/-! ## What it sends -/

variable {u : Updater} {p : Pending} {chain : Chain} {token : Option Token} {now : Int}

/-- The attempts an updater makes are numbered up to this. -/
def Updater.lastAttempt (u : Updater) : Nat := ⌈u.maxRetries⌉₊

theorem attempt_succ_le (h : (chain.attempt : ℚ) < u.maxRetries) :
    chain.attempt + 1 ≤ u.lastAttempt := Nat.lt_ceil.mpr h

/-- The requests of the last attempt, and of those before it: at most two of each kind for each. -/
structure Pending.Within (u : Updater) (p : Pending) : Prop where
  attempt : p.chain.attempt ≤ u.lastAttempt
  fresh : p.point = .sleeping → p.chain.forceRefresh = false
  api : p.chain.apiRequests ≤
    2 * p.chain.attempt + (if p.point = .api then 1 else 0) + p.chain.forceRefresh.toNat
  token : p.chain.tokenRequests ≤
    2 * p.chain.attempt + (if p.point = .sleeping then 0 else 1) + p.chain.forceRefresh.toNat

/-- The answers the request can still take: in this attempt, and five for each one after it. -/
def Pending.ahead (u : Updater) (p : Pending) : Nat :=
  5 * (u.lastAttempt - p.chain.attempt) +
    match p.point with
    | .sleeping => 5
    | .token => if p.chain.forceRefresh then 2 else 4
    | .api => if p.chain.forceRefresh then 1 else 3

/-- An end of a request: the requests are counted, and what there is is a response or the error of
the package. -/
structure Ended (u : Updater) (chain : Chain) (outcome : Except Thrown ApiResponse) : Prop where
  api : chain.apiRequests ≤ 2 * (u.lastAttempt + 1)
  token : chain.tokenRequests ≤ 2 * (u.lastAttempt + 1)
  outcome : (∃ response, outcome = .ok response) ∨ ∃ error, outcome = .error (.api error)

/-- What a step from `p` may leave. -/
def Progress.Good (u : Updater) (p : Pending) : Progress → Prop
  | .pending p' => p'.Within u ∧ p'.ahead u < p.ahead u
  | .settled chain outcome => Ended u chain outcome

/-- A request that starts, or goes on after a pause or a 401. -/
theorem request_within (hattempt : chain.attempt ≤ u.lastAttempt)
    (hapi : chain.apiRequests ≤ 2 * chain.attempt + chain.forceRefresh.toNat)
    (htoken : chain.tokenRequests ≤ 2 * chain.attempt + chain.forceRefresh.toNat) :
    (request token now chain).Within u := by
  unfold request
  split
  · exact ⟨hattempt, nofun, by simp; omega, by simp; omega⟩
  · exact ⟨hattempt, nofun, by simpa using hapi, by simp; omega⟩

theorem request_ahead (token : Option Token) (now : Int) (chain : Chain) :
    (request token now chain).ahead u ≤
      5 * (u.lastAttempt - chain.attempt) + if chain.forceRefresh then 2 else 4 := by
  unfold request
  split
  case isTrue h =>
    have hfresh : chain.forceRefresh = false := by simp at h; exact h.1
    simp [Pending.ahead, hfresh]
  case isFalse => exact le_rfl

/-- The counts of an attempt that is over. -/
theorem Pending.Within.counts (h : p.Within u) :
    p.chain.apiRequests ≤ 2 * (p.chain.attempt + 1) ∧
      p.chain.tokenRequests ≤ 2 * (p.chain.attempt + 1) := by
  have hforce : p.chain.forceRefresh.toNat ≤ 1 := Bool.toNat_le _
  have hapi := h.api
  have htoken := h.token
  constructor
  · split at hapi <;> omega
  · split at htoken <;> omega

theorem Pending.ahead_ge (u : Updater) (p : Pending) :
    5 * (u.lastAttempt - p.chain.attempt) + 1 ≤ p.ahead u := by
  unfold Pending.ahead
  split <;> (try split) <;> omega

theorem Pending.ahead_le (u : Updater) (p : Pending) : p.ahead u ≤ 5 * u.lastAttempt + 5 := by
  unfold Pending.ahead
  split <;> (try split) <;> omega

/-- An updater makes at most seven attempts. -/
theorem lastAttempt_le (cfg : GoogleAdsConfig) : cfg.updater.lastAttempt ≤ 6 := by
  refine Nat.ceil_le.mpr ?_
  simp [GoogleAdsConfig.updater]

/-- There is always an answer that the request takes. -/
theorem exists_resume (u : Updater) (p : Pending) (token : Option Token) (now : Int) :
    ∃ a next, p.resume u token now a = some next := by
  by_cases hpoint : p.point = .sleeping
  · exact ⟨.wake, _, if_pos hpoint⟩
  · exact ⟨.failure "", _, if_neg hpoint⟩

/-- Another attempt. -/
theorem again_good (h : p.Within u) (hretry : (p.chain.attempt : ℚ) < u.maxRetries) :
    p.chain.again.Good u p := by
  have hnext := attempt_succ_le hretry
  have hahead := p.ahead_ge u
  obtain ⟨hapi, htoken⟩ := h.counts
  refine ⟨⟨hnext, fun _ => rfl, ?_, ?_⟩, ?_⟩
  · simpa using hapi
  · simpa using htoken
  · simp only [Pending.ahead] at hahead ⊢
    omega

theorem Pending.Within.ended (h : p.Within u) {outcome : Except Thrown ApiResponse}
    (hout : (∃ response, outcome = .ok response) ∨ ∃ error, outcome = .error (.api error)) :
    Ended u p.chain outcome := by
  have hattempt := h.attempt
  obtain ⟨hapi, htoken⟩ := h.counts
  exact ⟨by omega, by omega, hout⟩

/-- What is thrown inside the request ends as the error of the package, or starts again. -/
theorem caught_good (h : p.Within u) (e : Thrown) : (caught u p.chain e).Good u p := by
  unfold caught
  split
  case h_1 error => exact h.ended (Or.inr ⟨error, rfl⟩)
  case h_2 =>
    split
    case isTrue hretry => exact again_good h hretry
    case isFalse => exact h.ended (Or.inr ⟨_, rfl⟩)

theorem apiResponse_good (h : p.Within u) (hpoint : p.point = .api) (r : Response) :
    (apiResponse u token now p.chain r).2.Good u p := by
  unfold apiResponse
  split
  case isTrue => exact h.ended (Or.inl ⟨_, rfl⟩)
  case isFalse =>
    split
    case isTrue hunauthorized =>
      -- The 401 that is answered with a fresh token: the flag is set, and no answer clears it
      -- within the attempt.
      have hforce : p.chain.forceRefresh = false := by simp at hunauthorized; exact hunauthorized.2
      have hapi := h.api
      have htoken := h.token
      simp only [hpoint, hforce, Bool.toNat_false] at hapi htoken
      refine ⟨request_within h.attempt ?_ ?_, lt_of_le_of_lt (request_ahead _ _ _) ?_⟩
      · simpa using hapi
      · simpa using htoken
      · simp [Pending.ahead, hpoint, hforce]
    case isFalse =>
      split
      case isTrue hretry =>
        exact again_good h (by simpa using (Bool.and_eq_true_iff.mp hretry).2)
      case isFalse =>
        dsimp only
        exact caught_good h _

/-- **An answer that is taken leaves fewer answers to take, or ends the request** within its counts,
with a response or a `GoogleAdsApiError`. -/
theorem resume_good (h : p.Within u) {a : Answer} {next : Option Token × Progress}
    (hnext : p.resume u token now a = some next) : next.2.Good u p := by
  cases a with
  | wake =>
    simp only [Pending.resume] at hnext
    split at hnext
    case isFalse => exact absurd hnext nofun
    case isTrue hpoint =>
      rw [← Option.some.inj hnext]
      have hfresh := h.fresh hpoint
      have hapi := h.api
      have htoken := h.token
      rw [hpoint] at hapi htoken
      refine ⟨request_within h.attempt (by simpa using hapi) (by simpa using htoken),
        lt_of_le_of_lt (request_ahead _ _ _) ?_⟩
      simp [Pending.ahead, hpoint, hfresh]
  | failure message =>
    simp only [Pending.resume] at hnext
    split at hnext
    case isTrue => exact absurd hnext nofun
    case isFalse =>
      rw [← Option.some.inj hnext]
      exact caught_good h (.other message)
  | response r =>
    simp only [Pending.resume] at hnext
    split at hnext
    case h_1 => exact absurd hnext nofun
    case h_2 hpoint =>
      split at hnext
      case h_1 e _ =>
        rw [← Option.some.inj hnext]
        exact caught_good h e
      case h_2 fresh _ =>
        rw [← Option.some.inj hnext]
        have hapi := h.api
        have htoken := h.token
        rw [hpoint] at hapi htoken
        refine ⟨⟨h.attempt, nofun, ?_, ?_⟩, ?_⟩
        · simp at hapi ⊢
          omega
        · simpa using htoken
        · cases hforce : p.chain.forceRefresh <;> simp [Pending.ahead, hpoint, hforce]
    case h_3 hpoint =>
      rw [← Option.some.inj hnext]
      exact apiResponse_good h hpoint r

end LinkSuffix.GoogleAds
