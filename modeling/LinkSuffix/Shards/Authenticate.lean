import LinkSuffix.Shards.Credential

/-!
# Authentication of the workers

`authenticate` of the jobs route asks the shard's row first. Where the token does not match, it falls
back on the legacy bridge state: a token that state knows is registered for the shard, over the hash
that is stored. The request waits between the three steps, and anything may happen meanwhile.

* `verifyBridgeToken`: whether the legacy state knows a token.
* `gate`: creations, retirements and the requests of the workers, step by step.
* `KeepsToken`: a fallback registers a token only for a shard without a row, or over itself.
* **`rotation_revokes`**: while that is kept, a created token is the only one, and no worker changes
  a token or enables a shard.
* **`stale_token_returns`**: a legacy token takes the place of the one just created.
-/

namespace LinkSuffix

open Lib

/-! ## The legacy state -/

/-- `ScriptFleetShard`, as far as tokens are checked against it. -/
structure ScriptFleetShard where
  id : String
  tokenNonce : Option String := none
  tokenHash : Option String := none
  deriving DecidableEq

/-- `ScriptBridgeState`, as far as tokens are checked against it. -/
structure ScriptBridgeState where
  shards : List ScriptFleetShard := []
  tokenHash : Option String := none
  deriving DecidableEq

def hexDigit (c : Char) : Option Nat :=
  if '0' ≤ c ∧ c ≤ '9' then some (c.toNat - '0'.toNat)
  else if 'a' ≤ c ∧ c ≤ 'f' then some (c.toNat - 'a'.toNat + 10)
  else if 'A' ≤ c ∧ c ≤ 'F' then some (c.toNat - 'A'.toNat + 10)
  else none

/-- `Buffer.from(value, "hex")`: it stops at the first pair that is not hexadecimal. -/
def hexBytes : List Char → List Nat
  | hi :: lo :: rest =>
    match hexDigit hi, hexDigit lo with
    | some h, some l => (16 * h + l) :: hexBytes rest
    | _, _ => []
  | _ => []

/-- `tokenHashMatches`. -/
def tokenHashMatches (cfg : Config) (expectedHex : Option String) (candidate : String) : Bool :=
  match orNull expectedHex with
  | none => false
  | some expected =>
    candidate ≠ "" && hexBytes (cfg.digest candidate).toList = hexBytes expected.toList

/-- `derivedShardToken` of a shard with a nonce. `hmac` is HMAC-SHA-256 in base64url. -/
def derivedShardToken (hmac : String → String → String) (signingKey shardId nonce : String) :
    String :=
  "tahsf_" ++ hmac signingKey (shardId ++ "\x00" ++ nonce)

/-- `verifyBridgeToken`. The signing key is read only where the shard has a nonce. -/
def verifyBridgeToken (cfg : Config) (hmac : String → String → String)
    (signingKey : Except StoreError String) (state : ScriptBridgeState)
    (candidate requestedShardId : String) : Except StoreError Bool :=
  if requestedShardId = "" then .ok (tokenHashMatches cfg state.tokenHash candidate)
  else
    match state.shards.find? (·.id = requestedShardId) with
    | none => .ok false
    | some shard =>
      match orNull shard.tokenNonce with
      | none => .ok (tokenHashMatches cfg shard.tokenHash candidate)
      | some nonce =>
        if tokenHashMatches cfg shard.tokenHash candidate then do
          let key ← signingKey
          return candidate = derivedShardToken hmac key shard.id nonce
        else .ok false

/-! ## The gate -/

/-- A request to `authenticate`. -/
structure AuthRequest where
  shardId : String
  token : String
  deriving DecidableEq

/-- The Fleet, and the requests that wait: for the legacy state, or to register their token. -/
structure Gate where
  fleet : Fleet
  reading : List AuthRequest := []
  registering : List AuthRequest := []

namespace Gate

def store (g : Gate) : Store := g.fleet.store

def initial : Gate := ⟨Fleet.initial, [], []⟩

end Gate

inductive GateEvent where
  /-- `createBridgeShard`, with the token it draws. -/
  | createBridgeShard (now : Nat) (shardId requestedManager token : String)
  /-- A request arrives: `authenticateBridgeShard`. -/
  | authenticate (request : AuthRequest)
  /-- Its fallback: `readBridgeState` and `verifyBridgeToken`. -/
  | fallback (request : AuthRequest) (state : Except StoreError ScriptBridgeState)
      (signingKey : Except StoreError String)
  /-- Its registration. -/
  | register (now : Nat) (request : AuthRequest)
  /-- Any other transaction. -/
  | fleet (e : Event)

inductive GateReply where
  | created (identity : ShardIdentity) (token : String)
  | authenticated (request : AuthRequest) (ok : Bool)
  | waiting
  | failed (error : StoreError)
  | fleet (reply : Except StoreError Reply)
  deriving DecidableEq

/-- One event. The `catch` of `authenticate` makes a failed fallback a refusal. -/
def stepGate (cfg : Config) (hmac : String → String → String) (g : Gate) :
    GateEvent → Gate × GateReply
  | .createBridgeShard now shardId requestedManager token =>
    match stepFleet cfg g.fleet ⟨now, now, .registerBridgeShard shardId token requestedManager⟩ with
    | (f, .ok (.shard identity)) => ({ g with fleet := f }, .created identity token)
    | (f, .ok reply) => ({ g with fleet := f }, .fleet (.ok reply))
    | (f, .error error) => ({ g with fleet := f }, .failed error)
  | .authenticate request =>
    if request.shardId = "" ∨ request.token = "" then (g, .authenticated request false)
    else if authenticateBridgeShard cfg g.store request.shardId request.token then
      (g, .authenticated request true)
    else ({ g with reading := g.reading ++ [request] }, .waiting)
  | .fallback request state signingKey =>
    if request ∈ g.reading then
      let rest := g.reading.erase request
      let verified := do
        verifyBridgeToken cfg hmac signingKey (← state) request.token request.shardId
      match verified with
      | .ok true =>
        ({ g with reading := rest, registering := g.registering ++ [request] }, .waiting)
      | _ => ({ g with reading := rest }, .authenticated request false)
    else (g, .failed (fail "not waiting"))
  | .register now request =>
    if request ∈ g.registering then
      let rest := g.registering.erase request
      match stepFleet cfg g.fleet
          ⟨now, now, .registerBridgeShard request.shardId request.token ""⟩ with
      | (f, .ok _) => ({ g with fleet := f, registering := rest }, .authenticated request true)
      | (f, .error _) => ({ g with fleet := f, registering := rest }, .authenticated request false)
    else (g, .failed (fail "not waiting"))
  | .fleet e =>
    match e.call with
    | .registerBridgeShard .. => (g, .failed (fail "not a request"))
    | _ =>
      let (f, reply) := stepFleet cfg g.fleet e
      ({ g with fleet := f }, .fleet reply)

/-- The gate. -/
def gate (cfg : Config) (hmac : String → String → String) : EventSystem Gate GateEvent GateReply where
  step := stepGate cfg hmac

variable {cfg : Config} {hmac : String → String → String} {g : Gate} {e : GateEvent}
  {shardId token : String}

/-! ## What an event does to the credentials -/

/-- The event registers this token for this shard, if it commits. -/
def GateEvent.registers (g : Gate) (shardId token : String) : GateEvent → Prop
  | .createBridgeShard _ requested _ drawn =>
    normalizeFleetShardId requested = .ok shardId ∧ drawn = token
  | .register _ request =>
    request ∈ g.registering ∧ normalizeFleetShardId request.shardId = .ok shardId ∧
      request.token = token
  | _ => False

/-- A creation or a retirement of the shard. -/
def GateEvent.rotates (shardId : String) : GateEvent → Bool
  | .createBridgeShard _ requested _ _ => normalizeFleetShardId requested = .ok shardId
  | .fleet e =>
    match e.call with
    | .deleteBridgeShard requested _ _ _ => normalizeFleetShardId requested = .ok shardId
    | _ => false
  | _ => false

/-- What an event did to the credentials. -/
inductive Rotation (cfg : Config) (g : Gate) (e : GateEvent) (s' : Store) : Prop
  | same (h : s'.credentials = g.store.credentials)
  | registered {shardId token : String} (he : e.registers g shardId token)
      (hlong : 24 ≤ utf16Length token) (hlive : g.store.shardDeleted shardId = false)
      (h : ∀ other, s'.credential? other = if other = shardId then
        some (Credential.register shardId (cfg.digest token) (g.store.credential? shardId))
      else g.store.credential? other)
  | retired {shardId : String} (he : e.rotates shardId = true)
      (h : ∀ other, other ≠ shardId → s'.credential? other = g.store.credential? other)

/-- What the work of a registration did. -/
theorem registration_run {requested m : String} {now : Nat} {s s' : Store} {r : Reply}
    (h : Event.work cfg ⟨now, now, .registerBridgeShard requested token m⟩ s = .ok (r, s')) :
    ∃ identity, r = .shard identity ∧ normalizeFleetShardId requested = .ok identity.shardId ∧
      24 ≤ utf16Length token ∧ s.shardDeleted identity.shardId = false ∧
      ∀ other, s'.credential? other = if other = identity.shardId then
        some (Credential.register identity.shardId (cfg.digest token)
          (s.credential? identity.shardId))
      else s.credential? other := by
  have hwork : Work.reply (registerBridgeShard cfg requested token m).run .shard s =
      .ok (r, s') := h
  obtain ⟨identity, hrun, hr⟩ := Work.reply_ok.mp hwork
  exact ⟨identity, hr, registerBridgeShard_run hrun⟩

/-- The store after a registration that one of the two callers asks for. -/
theorem registration_credentials {requested m : String} {now : Nat} {f : Fleet}
    {r : Except StoreError Reply}
    (he : ∀ id, normalizeFleetShardId requested = .ok id → e.registers g id token)
    (h : stepFleet cfg g.fleet ⟨now, now, .registerBridgeShard requested token m⟩ = (f, r)) :
    Rotation cfg g e f.store := by
  have h : f = (fleet cfg).next g.fleet ⟨now, now, .registerBridgeShard requested token m⟩ :=
    (congrArg Prod.fst h).symm
  rcases next_store cfg g.fleet ⟨now, now, .registerBridgeShard requested token m⟩ with
    ⟨r, hc⟩ | hsame
  · obtain ⟨-, hw⟩ := hc.work
    obtain ⟨identity, -, hid, hlong, hlive, hcredentials⟩ := registration_run hw
    rw [h]
    exact .registered (he _ hid) hlong hlive hcredentials
  · rw [h]
    exact .same (by rw [hsame]; rfl)

theorem fleet_credentials {event : Event} (he : e = .fleet event)
    (hcall : ∀ id token m, event.call ≠ .registerBridgeShard id token m) :
    Rotation cfg g e ((fleet cfg).next g.fleet event).store := by
  rcases next_store cfg g.fleet event with ⟨r, hc⟩ | hsame
  swap
  · exact .same (by rw [hsame]; rfl)
  obtain ⟨-, hw⟩ := hc.work
  cases hwrites : event.call.writesCredentials with
  | false => exact .same (work_credentials hwrites hw)
  | true =>
    cases hevent : event.call with
    | deleteBridgeShard requested confirmed drawn dateNow =>
      unfold Event.work at hw
      rw [hevent] at hw
      obtain ⟨deletion, hrun, -⟩ := Work.reply_ok.mp hw
      obtain ⟨hid, hcredentials⟩ := deleteBridgeShard_run hrun
      have hrotates : e.rotates deletion.shardId = true := by
        simp [he, GateEvent.rotates, hevent, hid]
      exact .retired hrotates hcredentials
    | registerBridgeShard requested drawn m => exact absurd hevent (hcall _ _ _)
    | _ => simp [hevent, Call.writesCredentials] at hwrites

/-- **The step lemma.** -/
theorem next_rotation (cfg : Config) (hmac : String → String → String) (g : Gate) (e : GateEvent) :
    Rotation cfg g e ((gate cfg hmac).next g e).store := by
  unfold EventSystem.next gate
  cases e with
  | createBridgeShard now requested m drawn =>
    have hnames : ∀ id, normalizeFleetShardId requested = .ok id →
        (GateEvent.createBridgeShard now requested m drawn).registers g id drawn :=
      fun id hid => ⟨hid, rfl⟩
    unfold stepGate
    dsimp only
    split
    · rename_i hstep
      exact registration_credentials hnames hstep
    · rename_i hstep
      exact registration_credentials hnames hstep
    · rename_i hstep
      exact registration_credentials hnames hstep
  | authenticate request =>
    unfold stepGate
    dsimp only
    split
    · exact .same rfl
    split
    · exact .same rfl
    · exact .same rfl
  | fallback request state signingKey =>
    unfold stepGate
    dsimp only
    split
    · split
      · exact .same rfl
      · exact .same rfl
    · exact .same rfl
  | register now request =>
    unfold stepGate
    dsimp only
    split
    · rename_i hmem
      have hnames : ∀ id, normalizeFleetShardId request.shardId = .ok id →
          (GateEvent.register now request).registers g id request.token :=
        fun id hid => ⟨hmem, hid, rfl⟩
      split
      · rename_i hstep
        exact registration_credentials hnames hstep
      · rename_i hstep
        exact registration_credentials hnames hstep
    · exact .same rfl
  | fleet event =>
    unfold stepGate
    dsimp only
    split
    · exact .same rfl
    · rename_i hcall
      exact fleet_credentials rfl fun id drawn m h => hcall id drawn m h

/-! ## The condition -/

/-- A fallback registers a token only for a shard without a row, over a hash that is its own, or in
vain: for a retired shard, or with a token that is too short. -/
def KeepsToken (cfg : Config) (g : Gate) (e : GateEvent) : Prop :=
  match e with
  | .register _ request =>
    request ∈ g.registering → ∀ c ∈ g.store.credential? (trim request.shardId),
      c.deletedAt ≠ none ∨ utf16Length request.token < 24 ∨
        (c.enabled = true ∧ c.tokenHash = cfg.digest request.token)
  | _ => True

instance (cfg : Config) (g : Gate) (e : GateEvent) : Decidable (KeepsToken cfg g e) := by
  unfold KeepsToken
  split <;> infer_instance

/-- The events that are not a creation or a retirement: the requests of the workers among them. -/
def GateEvent.worker : GateEvent → Bool
  | .createBridgeShard .. => false
  | .fleet e =>
    match e.call with
    | .deleteBridgeShard .. => false
    | _ => true
  | _ => true

theorem rotates_of_worker (h : e.worker = true) (shardId : String) :
    e.rotates shardId = false := by
  cases e with
  | createBridgeShard => exact absurd h (by simp [GateEvent.worker])
  | fleet event =>
    simp only [GateEvent.worker, GateEvent.rotates] at h ⊢
    split at h
    · exact absurd h (by simp)
    · rfl
  | _ => rfl

theorem not_deleted_of_live {c : Credential} (hlive : g.store.shardDeleted shardId = false)
    (hc : g.store.credential? shardId = some c) : c.deletedAt = none := by
  rw [shardDeleted_eq, hc] at hlive
  simpa using hlive

/-- **A credential stays** until its shard is created again or retired. -/
theorem credential_stays {c : Credential} (hkeeps : KeepsToken cfg g e)
    (hquiet : e.rotates shardId = false) (hc : g.store.credential? shardId = some c) :
    ((gate cfg hmac).next g e).store.credential? shardId = some c := by
  cases next_rotation cfg hmac g e with
  | same h => exact (credential?_congr h shardId).trans hc
  | retired he h =>
    rename_i retired
    have hother : shardId ≠ retired := by
      rintro rfl
      exact absurd he (by simp [hquiet])
    exact (h shardId hother).trans hc
  | registered he hlong hlive h =>
    rename_i registered token
    rw [h]
    by_cases hsame : shardId = registered
    · subst hsame
      rw [if_pos rfl, hc]
      cases e with
      | createBridgeShard now requested m drawn =>
        exact absurd he.1 (by simpa [GateEvent.rotates] using hquiet)
      | register now request =>
        obtain ⟨hmem, hid, rfl⟩ := he
        obtain ⟨hnormal, -, -⟩ := normalizeFleetShardId_ok hid
        rcases hkeeps hmem c (by rw [hnormal]; exact hc) with hdeleted | hshort | ⟨henabled, hhash⟩
        · exact absurd (not_deleted_of_live hlive hc) hdeleted
        · omega
        · rw [Credential.register, ← hhash, ← henabled]
      | authenticate => exact he.elim
      | fallback => exact he.elim
      | fleet => exact he.elim
    · rw [if_neg hsame]
      exact hc

/-! ## A created token -/

/-- The shard is open to this token, and to no other. -/
structure OpenTo (cfg : Config) (shardId token : String) (g : Gate) : Prop where
  long : 24 ≤ utf16Length token
  named : trim shardId = shardId ∧ shardId ≠ ""
  row : ∃ c, g.store.credential? shardId = some c ∧ c.deletedAt = none ∧ c.enabled = true ∧
    c.tokenHash = cfg.digest token

theorem OpenTo.next (h : OpenTo cfg shardId token g) (hkeeps : KeepsToken cfg g e)
    (hquiet : e.rotates shardId = false) : OpenTo cfg shardId token ((gate cfg hmac).next g e) := by
  obtain ⟨c, hc, hopen⟩ := h.row
  exact ⟨h.long, h.named, c, credential_stays hkeeps hquiet hc, hopen⟩

/-- **A creation opens its shard to the token it drew.** -/
theorem openTo_of_created {identity : ShardIdentity}
    (h : (gate cfg hmac).reply g e = .created identity token) :
    OpenTo cfg identity.shardId token ((gate cfg hmac).next g e) := by
  unfold EventSystem.reply EventSystem.next gate at *
  cases e with
  | createBridgeShard now requested m drawn =>
    unfold stepGate at h ⊢
    dsimp only at h ⊢
    split at h
    · rename_i f created hstep
      simp only [GateReply.created.injEq] at h
      obtain ⟨rfl, rfl⟩ := h
      have hcommits : Commits cfg g.fleet ⟨now, now, .registerBridgeShard requested drawn m⟩
          (.shard created) := congrArg Prod.snd hstep
      obtain ⟨-, hw⟩ := hcommits.work
      have hf : (fleet cfg).next g.fleet ⟨now, now, .registerBridgeShard requested drawn m⟩ = f :=
        congrArg Prod.fst hstep
      rw [hf] at hw
      obtain ⟨r, hr, hid, hlong, hlive, hcredentials⟩ := registration_run hw
      obtain rfl := Reply.shard.inj hr
      refine ⟨hlong, (normalizeFleetShardId_ok hid).2, Credential.register created.shardId
        (cfg.digest drawn) (g.store.credential? created.shardId), ?_, ?_⟩
      · show f.store.credential? _ = _
        rw [hcredentials, if_pos rfl]
        rfl
      · cases hc : g.store.credential? created.shardId with
        | none => exact ⟨rfl, rfl, rfl⟩
        | some c =>
          have hdeleted : c.deletedAt = none := not_deleted_of_live hlive hc
          exact ⟨hdeleted, rfl, rfl⟩
    · exact absurd h (by simp)
    · exact absurd h (by simp)
  | authenticate request =>
    unfold stepGate at h
    dsimp only at h
    split at h
    · exact absurd h (by simp)
    split at h
    · exact absurd h (by simp)
    · exact absurd h (by simp)
  | fallback request state signingKey =>
    unfold stepGate at h
    dsimp only at h
    split at h
    · split at h
      · exact absurd h (by simp)
      · exact absurd h (by simp)
    · exact absurd h (by simp)
  | register now request =>
    unfold stepGate at h
    dsimp only at h
    split at h
    · split at h
      · exact absurd h (by simp)
      · exact absurd h (by simp)
    · exact absurd h (by simp)
  | fleet event =>
    unfold stepGate at h
    dsimp only at h
    split at h
    · exact absurd h (by simp)
    · exact absurd h (by simp)

theorem OpenTo.token_ne (h : OpenTo cfg shardId token g) : token ≠ "" := by
  rintro rfl
  exact absurd h.long (by decide)

/-- A token opens a shard that is open to it only. -/
theorem OpenTo.authenticates (hdigest : Function.Injective cfg.digest)
    (h : OpenTo cfg shardId token g) (candidate : String) :
    authenticateBridgeShard cfg g.store shardId candidate = true ↔ candidate = token := by
  obtain ⟨c, hc, hdeleted, henabled, hhash⟩ := h.row
  rw [authenticateBridgeShard_eq, hc]
  constructor
  · intro hopen
    split at hopen
    · exact absurd hopen (by simp)
    · simp only [Option.any_some, Bool.and_eq_true, decide_eq_true_eq] at hopen
      exact hdigest (hopen.2.symm.trans hhash)
  · rintro rfl
    simp [h.token_ne, hdeleted, henabled, hhash]

/-- A request with the created token is accepted at once. -/
theorem OpenTo.accepted (hdigest : Function.Injective cfg.digest)
    (h : OpenTo cfg shardId token g) :
    (gate cfg hmac).reply g (.authenticate ⟨shardId, token⟩) =
      .authenticated ⟨shardId, token⟩ true := by
  have hopen := (h.authenticates hdigest token).mpr rfl
  show (stepGate cfg hmac g (.authenticate ⟨shardId, token⟩)).2 = _
  unfold stepGate
  dsimp only
  rw [if_neg (by simp [h.named.2, h.token_ne]), if_pos hopen]

/-- What `authenticate` answers is the created token, on every path. -/
theorem OpenTo.only (hdigest : Function.Injective cfg.digest) (h : OpenTo cfg shardId token g)
    (hkeeps : KeepsToken cfg g e) {request : AuthRequest}
    (hreply : (gate cfg hmac).reply g e = .authenticated request true)
    (hshard : request.shardId = shardId) : request.token = token := by
  unfold EventSystem.reply gate at hreply
  cases e with
  | createBridgeShard now requested m drawn =>
    unfold stepGate at hreply
    dsimp only at hreply
    split at hreply
    all_goals exact absurd hreply (by simp)
  | authenticate asked =>
    unfold stepGate at hreply
    dsimp only at hreply
    split at hreply
    · exact absurd hreply (by simp)
    split at hreply
    · rename_i hopen
      obtain ⟨rfl, -⟩ := GateReply.authenticated.inj hreply
      exact (h.authenticates hdigest asked.token).mp (hshard ▸ hopen)
    · exact absurd hreply (by simp)
  | fallback asked state signingKey =>
    unfold stepGate at hreply
    dsimp only at hreply
    split at hreply
    · split at hreply
      · exact absurd hreply (by simp)
      · exact absurd hreply (by simp)
    · exact absurd hreply (by simp)
  | register now asked =>
    unfold stepGate at hreply
    dsimp only at hreply
    split at hreply
    · rename_i hmem
      split at hreply
      · rename_i f r hstep
        obtain ⟨rfl, -⟩ := GateReply.authenticated.inj hreply
        have hcommits : Commits cfg g.fleet
            ⟨now, now, .registerBridgeShard asked.shardId asked.token ""⟩ r :=
          congrArg Prod.snd hstep
        obtain ⟨-, hw⟩ := hcommits.work
        obtain ⟨identity, -, -, hlong, -, -⟩ := registration_run hw
        obtain ⟨c, hc, hdeleted, -, hhash⟩ := h.row
        have htrim : trim asked.shardId = shardId := by
          rw [hshard]
          exact h.named.1
        rcases hkeeps hmem c (by rw [htrim]; exact hc) with hgone | hshort | ⟨-, hsame⟩
        · exact absurd hdeleted hgone
        · omega
        · exact hdigest (hsame.symm.trans hhash)
      · exact absurd hreply (by simp)
    · exact absurd hreply (by simp)
  | fleet event =>
    unfold stepGate at hreply
    dsimp only at hreply
    split at hreply
    all_goals exact absurd hreply (by simp)

/-! ## Every run -/

theorem openTo_run {es : List GateEvent} (h : OpenTo cfg shardId token g)
    (hkeeps : (gate cfg hmac).Along (KeepsToken cfg) g es)
    (hquiet : ∀ e ∈ es, e.rotates shardId = false) :
    OpenTo cfg shardId token ((gate cfg hmac).run g es) := by
  induction es generalizing g with
  | nil => exact h
  | cons e es ih =>
    have hnext : OpenTo cfg shardId token ((gate cfg hmac).next g e) :=
      h.next hkeeps.1 (hquiet e List.mem_cons_self)
    exact ih hnext hkeeps.2 fun e' he' => hquiet e' (List.mem_cons_of_mem _ he')

/-- **Rotating a token revokes the older ones.** In a run whose fallbacks keep the stored tokens,
from the creation of a shard until the next creation or retirement of it the token it drew, and no
other, is accepted for the shard, and no request of a worker changes the credential of any shard. -/
theorem rotation_revokes (cfg : Config) (hmac : String → String → String)
    (hdigest : Function.Injective cfg.digest) (es : List GateEvent)
    (h : (gate cfg hmac).Along (KeepsToken cfg) Gate.initial es) :
    (∀ pre create post identity token, es = pre ++ create :: post →
      (gate cfg hmac).reply ((gate cfg hmac).run Gate.initial pre) create =
        .created identity token →
      (∀ e ∈ post, e.rotates identity.shardId = false) →
      (gate cfg hmac).reply ((gate cfg hmac).run Gate.initial es)
          (.authenticate ⟨identity.shardId, token⟩) =
        .authenticated ⟨identity.shardId, token⟩ true ∧
      ∀ e request, KeepsToken cfg ((gate cfg hmac).run Gate.initial es) e →
        (gate cfg hmac).reply ((gate cfg hmac).run Gate.initial es) e =
          .authenticated request true →
        request.shardId = identity.shardId → request.token = token) ∧
    ∀ pre e post, es = pre ++ e :: post → e.worker = true → ∀ shardId c,
      ((gate cfg hmac).run Gate.initial pre).store.credential? shardId = some c →
      ((gate cfg hmac).run Gate.initial (pre ++ [e])).store.credential? shardId = some c := by
  constructor
  · rintro pre create post identity token rfl hcreated hquiet
    obtain ⟨hpre, -, hpost⟩ := EventSystem.along_append.mp h
    have hopen : OpenTo cfg identity.shardId token
        ((gate cfg hmac).run Gate.initial (pre ++ create :: post)) := by
      rw [EventSystem.run_append, EventSystem.run_cons]
      exact openTo_run (openTo_of_created hcreated) hpost hquiet
    exact ⟨hopen.accepted hdigest,
      fun e request hkeeps hreply hshard => hopen.only hdigest hkeeps hreply hshard⟩
  · rintro pre e post rfl hworker shardId c hc
    rw [EventSystem.run_concat]
    exact credential_stays h.at (rotates_of_worker hworker shardId) hc

namespace Sample

/-- A legacy state that knows one token of the shard. -/
def legacyState (token : String) : ScriptBridgeState :=
  { shards := [{ id := shard, tokenHash := some token }] }

/-- A worker that still has the legacy token asks. -/
def staleWorker (stale : String) : List GateEvent :=
  [.authenticate ⟨shard, stale⟩,
    .fallback ⟨shard, stale⟩ (.ok (legacyState stale)) (.ok "key"),
    .register 0 ⟨shard, stale⟩]

end Sample

/-- A worker with a token that the legacy state does not know is refused. -/
theorem rotation_revokes_refused :
    (gate Config.sample fun _ message => message).reply
        ((gate Config.sample fun _ message => message).run Gate.initial
          ([.createBridgeShard 0 Sample.shard "1111111111" "aaaaaaaaaaaaaaaaaaaaaaaa"] ++
            [.authenticate ⟨Sample.shard, "bbbbbbbbbbbbbbbbbbbbbbbb"⟩,
              .fallback ⟨Sample.shard, "bbbbbbbbbbbbbbbbbbbbbbbb"⟩ (.ok {}) (.ok "key")]))
        (.authenticate ⟨Sample.shard, "aaaaaaaaaaaaaaaaaaaaaaaa"⟩) =
      .authenticated ⟨Sample.shard, "aaaaaaaaaaaaaaaaaaaaaaaa"⟩ true :=
  ((rotation_revokes Config.sample (fun _ message => message) (fun _ _ h => h) _
    (by decide +kernel)).1 [] (.createBridgeShard 0 Sample.shard "1111111111"
      "aaaaaaaaaaaaaaaaaaaaaaaa") _ ⟨Sample.shard, "1111111111"⟩ "aaaaaaaaaaaaaaaaaaaaaaaa" rfl
      (by decide +kernel) (by decide +kernel)).1

/-- **A legacy token takes the place of the one just created**, which is not accepted any more. -/
theorem stale_token_returns :
    ¬∀ (cfg : Config) (hmac : String → String → String), Function.Injective cfg.digest →
      ∀ pre create post identity token,
        (gate cfg hmac).reply ((gate cfg hmac).run Gate.initial pre) create =
          .created identity token →
        (∀ e ∈ post, e.rotates identity.shardId = false) →
        authenticateBridgeShard cfg ((gate cfg hmac).run Gate.initial (pre ++ create :: post)).store
          identity.shardId token = true := by
  intro hall
  have hopen := hall Config.sample (fun _ message => message) (fun _ _ h => h) []
    (.createBridgeShard 0 Sample.shard "1111111111" "aaaaaaaaaaaaaaaaaaaaaaaa")
    (Sample.staleWorker "bbbbbbbbbbbbbbbbbbbbbbbb") ⟨Sample.shard, "1111111111"⟩
    "aaaaaaaaaaaaaaaaaaaaaaaa" (by decide +kernel) (by decide +kernel)
  exact absurd hopen (by decide +kernel)

end LinkSuffix
