import LinkSuffix.Lib.Promise
import Mathlib.Data.Nat.Init
import Mathlib.Order.Nat
import Mathlib.Tactic.ByContra

/-!
# The mutation lock of a campaign

`withCampaignMutationLock` of the `@tah/google-ads` package: a map from keys to promises, the tail of
the calls of each key. A call takes the tail of its key, leaves one that also waits for its own gate,
and runs its task once the tail it took is fulfilled. When the task is over, whatever became of it,
the gate opens, and the tail is removed if it is still the call's own.

* `Lock.arrive`, `Lock.enter`, `Lock.leave`: the three uninterrupted pieces of the function.
* `Lock.Orderly`: the invariant; the calls of a key run in the order of their arrival.
* `Orderly.ready_iff`: the promise a call awaits is fulfilled when those before it are over.
* `Orderly.exclusive`, `Orderly.first_ready`: one at a time, and there is always one that can go on.
-/

namespace LinkSuffix.GoogleAds

open Lib

/-! ## The code -/

/-- Where a call of the function is: at `await previous`, in its task, past its `finally`. -/
inductive Stage where
  | waiting
  | inside
  | ended
  deriving DecidableEq

/-- A call, with the promise it awaits. -/
structure Turn where
  key : String
  previous : Promise
  stage : Stage := .waiting

/-- `campaignMutationTails`, and the calls in the order of their arrival. -/
structure Lock where
  tails : String → Option Promise := fun _ => none
  turns : List Turn := []

namespace Lock

/-- The gate of a call is resolved by `release`, in its `finally`. -/
def gate (l : Lock) (n : Nat) : Option Bool :=
  l.turns[n]?.bind fun turn => if turn.stage = .ended then some true else none

/-- A promise as it stands. -/
def value (l : Lock) (p : Promise) : Option Bool := p.value l.gate

/-- The function up to `await previous`. -/
def arrive (l : Lock) (key : String) : Lock :=
  let previous := (l.tails key).getD .resolved
  { tails := Function.update l.tails key (some (previous.after l.turns.length))
    turns := l.turns ++ [{ key, previous }] }

/-- `await previous` is over. -/
def ready (l : Lock) (n : Nat) : Bool :=
  l.turns[n]?.any fun turn => turn.stage = .waiting && l.value turn.previous = some true

/-- The task starts. -/
def enter (l : Lock) (n : Nat) : Lock :=
  match l.turns[n]? with
  | none => l
  | some turn => { l with turns := l.turns.set n { turn with stage := .inside } }

/-- The `finally`: the gate opens, and the call's own tail is removed. -/
def leave (l : Lock) (n : Nat) : Lock :=
  match l.turns[n]? with
  | none => l
  | some turn =>
    { tails :=
        if l.tails turn.key = some (turn.previous.after n) then
          Function.update l.tails turn.key none
        else l.tails
      turns := l.turns.set n { turn with stage := .ended } }

/-! ## The invariant -/

variable {l : Lock} {n : Nat} {turn : Turn}

/-- The calls of each key run in the order of their arrival, and the tail of a key is the promise of
the last of them. -/
structure Orderly (l : Lock) : Prop where
  /-- A call that has started comes after calls of its key that are over. -/
  ordered : ∀ {i j : Nat} {earlier later : Turn}, i < j → l.turns[i]? = some earlier →
    l.turns[j]? = some later → earlier.key = later.key → later.stage ≠ .waiting →
      earlier.stage = .ended
  /-- A call awaits the promise of the call of its key before it, or none of them is left. -/
  linked : ∀ {j : Nat} {turn : Turn}, l.turns[j]? = some turn →
    (turn.previous = .resolved ∧ ∀ {i : Nat} {earlier : Turn}, i < j →
      l.turns[i]? = some earlier → earlier.key = turn.key → earlier.stage = .ended) ∨
    ∃ i before, i < j ∧ l.turns[i]? = some before ∧ before.key = turn.key ∧
      turn.previous = before.previous.after i ∧
      ∀ {m : Nat} {between : Turn}, i < m → m < j → l.turns[m]? = some between →
        between.key ≠ turn.key
  /-- A key with no tail has no call left. -/
  idle : ∀ {i : Nat} {turn : Turn}, l.turns[i]? = some turn → l.tails turn.key = none →
    turn.stage = .ended
  /-- A tail is the promise of the last call of its key, which is not over. -/
  last : ∀ {key : String} {p : Promise}, l.tails key = some p →
    ∃ i turn, l.turns[i]? = some turn ∧ turn.key = key ∧ p = turn.previous.after i ∧
      turn.stage ≠ .ended ∧
      ∀ {m : Nat} {later : Turn}, i < m → l.turns[m]? = some later → later.key ≠ key

theorem gate_iff (h : l.turns[n]? = some turn) : l.gate n = some true ↔ turn.stage = .ended := by
  simp [gate, h]

theorem value_after_iff (p : Promise) (i : Nat) :
    l.value (p.after i) = some true ↔ l.value p = some true ∧ l.gate i = some true := by
  constructor
  · intro h
    cases hsource : p.value l.gate with
    | none => exact absurd ((Promise.value_after_pending hsource).symm.trans h) nofun
    | some ok =>
      cases ok with
      | true => exact ⟨hsource, (Promise.value_after_fulfilled hsource).symm.trans h⟩
      | false => simp [value, Promise.value, hsource] at h
  · rintro ⟨hsource, hgate⟩
    exact (Promise.value_after_fulfilled hsource).trans hgate

/-- **What a call awaits is fulfilled when the calls of its key before it are over.** -/
theorem Orderly.ready_iff (h : l.Orderly) (hturn : l.turns[n]? = some turn) :
    l.value turn.previous = some true ↔
      ∀ {i : Nat} {earlier : Turn}, i < n → l.turns[i]? = some earlier →
        earlier.key = turn.key → earlier.stage = .ended := by
  induction n using Nat.strong_induction_on generalizing turn with
  | _ n ih =>
    rcases h.linked hturn with ⟨hnone, hover⟩ | ⟨i, before, hi, hbefore, hkey, hlink, hbetween⟩
    · rw [hnone]
      exact ⟨fun _ => hover, fun _ => rfl⟩
    · rw [hlink, value_after_iff, gate_iff hbefore, ih i hi hbefore]
      constructor
      · rintro ⟨hearlier, hover⟩ m earlier hm hm' hsame
        rcases lt_trichotomy m i with hlt | rfl | hgt
        · exact hearlier hlt hm' (hsame.trans hkey.symm)
        · rw [hbefore] at hm'
          rwa [← Option.some.inj hm']
        · exact absurd hsame (hbetween hgt hm hm')
      · intro hall
        exact ⟨fun hm hm' hsame => hall (hm.trans hi) hm' (hsame.trans hkey),
          hall hi hbefore hkey⟩

/-- **Two calls of one key are never in their tasks together.** -/
theorem Orderly.exclusive (h : l.Orderly) {i j : Nat} {a b : Turn} (hi : l.turns[i]? = some a)
    (hj : l.turns[j]? = some b) (hkey : a.key = b.key) (ha : a.stage = .inside)
    (hb : b.stage = .inside) : i = j := by
  rcases lt_trichotomy i j with hlt | heq | hgt
  · have hover := h.ordered hlt hi hj hkey (by rw [hb]; nofun)
    rw [ha] at hover
    exact absurd hover nofun
  · exact heq
  · have hover := h.ordered hgt hj hi hkey.symm (by rw [ha]; nofun)
    rw [hb] at hover
    exact absurd hover nofun

/-- **A key never gets stuck**: while a call waits, a call of its key is in its task, or one can
start. -/
theorem Orderly.first_ready (h : l.Orderly) (hturn : l.turns[n]? = some turn)
    (hwaiting : turn.stage = .waiting) :
    ∃ i first, l.turns[i]? = some first ∧ first.key = turn.key ∧
      (first.stage = .inside ∨ l.ready i = true) := by
  induction n using Nat.strong_induction_on generalizing turn with
  | _ n ih =>
    by_cases hready : l.value turn.previous = some true
    · exact ⟨n, turn, hturn, rfl, Or.inr (by simp [ready, hturn, hwaiting, hready])⟩
    · have hopen := fun hall => hready ((h.ready_iff hturn).mpr hall)
      by_contra hstuck
      refine hopen fun {i earlier} hi hearlier hkey => ?_
      cases hstage : earlier.stage with
      | ended => rfl
      | inside => exact absurd ⟨i, earlier, hearlier, hkey, Or.inl hstage⟩ hstuck
      | waiting =>
        obtain ⟨m, first, hm, hfirst, hgo⟩ := ih i hi hearlier hstage
        exact absurd ⟨m, first, hm, hfirst.trans hkey, hgo⟩ hstuck

theorem orderly_empty : Orderly {} where
  ordered := nofun
  linked := nofun
  idle := nofun
  last := nofun

/-! ## The pieces keep it -/

theorem arrive_tails_self {key : String} : (l.arrive key).tails key =
    some (((l.tails key).getD .resolved).after l.turns.length) := Function.update_self ..

theorem arrive_tails_of_ne {key other : String} (h : other ≠ key) :
    (l.arrive key).tails other = l.tails other := Function.update_of_ne h ..

/-- A call arrives. -/
theorem Orderly.arrive (h : l.Orderly) (key : String) : (l.arrive key).Orderly := by
  -- What is in the list of calls after the arrival.
  have hcases : ∀ {i : Nat} {turn : Turn}, (l.arrive key).turns[i]? = some turn →
      l.turns[i]? = some turn ∨
        i = l.turns.length ∧ turn = { key, previous := (l.tails key).getD .resolved } := by
    intro i turn hi
    rw [Lock.arrive, List.getElem?_append] at hi
    split at hi
    · exact Or.inl hi
    · obtain ⟨hlast, rfl⟩ := List.getElem?_eq_some_iff.mp hi
      simp only [List.length_singleton] at hlast
      exact Or.inr ⟨by omega, by simp⟩
  have hold : ∀ {i : Nat} {turn : Turn}, l.turns[i]? = some turn →
      (l.arrive key).turns[i]? = some turn ∧ i < l.turns.length := by
    intro i turn hi
    have hlt := (List.getElem?_eq_some_iff.mp hi).1
    exact ⟨by rw [Lock.arrive, List.getElem?_append_left hlt]; exact hi, hlt⟩
  refine ⟨?_, ?_, ?_, ?_⟩
  · intro i j earlier later hij hi hj hkey hstarted
    rcases hcases hj with hj | ⟨rfl, rfl⟩
    · rcases hcases hi with hi | ⟨rfl, -⟩
      · exact h.ordered hij hi hj hkey hstarted
      · exact absurd ((hold hj).2) (by omega)
    · exact absurd rfl hstarted
  · intro j turn hj
    rcases hcases hj with hj | ⟨rfl, rfl⟩
    · have hlt := (hold hj).2
      rcases h.linked hj with ⟨hnone, hover⟩ | ⟨i, before, hi, hbefore, hkey, hlink, hbetween⟩
      · refine Or.inl ⟨hnone, fun {i earlier} hi hearlier hsame => ?_⟩
        rcases hcases hearlier with hearlier | ⟨rfl, -⟩
        · exact hover hi hearlier hsame
        · omega
      · refine Or.inr ⟨i, before, hi, (hold hbefore).1, hkey, hlink,
          fun {m between} hm hm' hbt => ?_⟩
        rcases hcases hbt with hbt | ⟨rfl, -⟩
        · exact hbetween hm hm' hbt
        · omega
    · cases htail : l.tails key with
      | none =>
        refine Or.inl ⟨by simp, fun {i earlier} hi hearlier hsame => ?_⟩
        rcases hcases hearlier with hearlier | ⟨rfl, -⟩
        · exact h.idle hearlier (by rw [hsame]; exact htail)
        · exact absurd hi (lt_irrefl _)
      | some p =>
        obtain ⟨i, before, hbefore, hkey, hp, -, hlast⟩ := h.last htail
        refine Or.inr ⟨i, before, (hold hbefore).2, (hold hbefore).1, hkey, by simp [hp],
          fun {m between} hm hm' hbt => ?_⟩
        rcases hcases hbt with hbt | ⟨rfl, -⟩
        · exact hlast hm hbt
        · omega
  · intro i turn hi hnone
    rcases hcases hi with hi | ⟨rfl, rfl⟩
    · by_cases hkey : turn.key = key
      · rw [hkey, arrive_tails_self] at hnone
        exact absurd hnone nofun
      · rw [arrive_tails_of_ne hkey] at hnone
        exact h.idle hi hnone
    · rw [arrive_tails_self] at hnone
      exact absurd hnone nofun
  · intro other p hp
    by_cases hkey : other = key
    · subst hkey
      rw [arrive_tails_self] at hp
      refine ⟨l.turns.length, { key := other, previous := (l.tails other).getD .resolved },
        by simp [Lock.arrive], rfl, (Option.some.inj hp).symm, nofun, fun {m later} hm hlater => ?_⟩
      rcases hcases hlater with hlater | ⟨rfl, -⟩
      · exact absurd (hold hlater).2 (by omega)
      · exact absurd hm (lt_irrefl _)
    · rw [arrive_tails_of_ne hkey] at hp
      obtain ⟨i, turn, hi, hsame, hlink, hopen, hlast⟩ := h.last hp
      refine ⟨i, turn, (hold hi).1, hsame, hlink, hopen, fun {m later} hm hlater => ?_⟩
      rcases hcases hlater with hlater | ⟨rfl, rfl⟩
      · exact hlast hm hlater
      · exact fun heq => hkey heq.symm

/-- The calls after the stage of one of them is set. -/
theorem getElem?_stage (hturn : l.turns[n]? = some turn) (stage : Stage) (i : Nat) :
    (l.turns.set n { turn with stage })[i]? =
      (l.turns[i]?).map fun u => if i = n then { u with stage } else u := by
  rw [List.getElem?_set]
  by_cases hi : i = n
  · subst hi
    have hlt := (List.getElem?_eq_some_iff.mp hturn).1
    rw [if_pos rfl, if_pos hlt, hturn]
    simp
  · rw [if_neg (Ne.symm hi)]
    cases l.turns[i]? <;> simp [hi]

/-- `l'` has the calls of `l`, with the `n`-th in another stage. -/
structure Moved (l l' : Lock) (n : Nat) (stage : Stage) : Prop where
  back : ∀ {i : Nat} {turn : Turn}, l'.turns[i]? = some turn → ∃ old, l.turns[i]? = some old ∧
    turn.key = old.key ∧ turn.previous = old.previous ∧
    (i = n ∧ turn.stage = stage ∨ i ≠ n ∧ turn.stage = old.stage)
  forth : ∀ {i : Nat} {old : Turn}, l.turns[i]? = some old → ∃ turn, l'.turns[i]? = some turn ∧
    turn.key = old.key ∧ turn.previous = old.previous ∧
    (i = n ∧ turn.stage = stage ∨ i ≠ n ∧ turn.stage = old.stage)

theorem moved_set (hturn : l.turns[n]? = some turn) (stage : Stage)
    (tails : String → Option Promise) :
    Moved l ⟨tails, l.turns.set n { turn with stage }⟩ n stage where
  back {i turn'} h := by
    obtain ⟨old, hold, rfl⟩ :=
      Option.map_eq_some_iff.mp ((getElem?_stage hturn stage i).symm.trans h)
    refine ⟨old, hold, ?_⟩
    split
    case isTrue hi => exact ⟨rfl, rfl, Or.inl ⟨hi, rfl⟩⟩
    case isFalse hi => exact ⟨rfl, rfl, Or.inr ⟨hi, rfl⟩⟩
  forth {i old} h := by
    refine ⟨if i = n then { old with stage } else old, ?_, ?_⟩
    · show (l.turns.set n { turn with stage })[i]? = _
      rw [getElem?_stage hturn, h, Option.map_some]
    · split
      case isTrue hi => exact ⟨rfl, rfl, Or.inl ⟨hi, rfl⟩⟩
      case isFalse hi => exact ⟨rfl, rfl, Or.inr ⟨hi, rfl⟩⟩

theorem moved_enter (hturn : l.turns[n]? = some turn) : Moved l (l.enter n) n .inside := by
  have hnext := moved_set hturn .inside (l.enter n).tails
  simp only [enter, hturn] at hnext ⊢
  exact hnext

theorem moved_leave (hturn : l.turns[n]? = some turn) : Moved l (l.leave n) n .ended := by
  have hnext := moved_set hturn .ended (l.leave n).tails
  simp only [leave, hturn] at hnext ⊢
  exact hnext

theorem length_enter (l : Lock) (n : Nat) : (l.enter n).turns.length = l.turns.length := by
  unfold enter
  split <;> simp

theorem length_leave (l : Lock) (n : Nat) : (l.leave n).turns.length = l.turns.length := by
  unfold leave
  split <;> simp

/-- When no call that was over goes on, each call is still linked to the one before it. -/
theorem Moved.linked {l' : Lock} {stage : Stage} (hmoved : Moved l l' n stage) (h : l.Orderly)
    (hover : ∀ {turn : Turn}, l.turns[n]? = some turn → turn.stage = .ended → stage = .ended)
    {j : Nat} {turn : Turn} (hj : l'.turns[j]? = some turn) :
    (turn.previous = .resolved ∧ ∀ {i : Nat} {earlier : Turn}, i < j →
      l'.turns[i]? = some earlier → earlier.key = turn.key → earlier.stage = .ended) ∨
    ∃ i before, i < j ∧ l'.turns[i]? = some before ∧ before.key = turn.key ∧
      turn.previous = before.previous.after i ∧
      ∀ {m : Nat} {between : Turn}, i < m → m < j → l'.turns[m]? = some between →
        between.key ≠ turn.key := by
  obtain ⟨old, hold, hkey, hprevious, -⟩ := hmoved.back hj
  rcases h.linked hold with ⟨hnone, hdone⟩ | ⟨i, before, hi, hbefore, hsame, hlink, hbetween⟩
  · refine Or.inl ⟨hprevious.trans hnone, fun {i earlier} hi hearlier hequal => ?_⟩
    obtain ⟨was, hwas, hwasKey, -, hstage⟩ := hmoved.back hearlier
    have hdone' := hdone hi hwas (hwasKey.symm.trans (hequal.trans hkey))
    rcases hstage with ⟨rfl, hstage⟩ | ⟨-, hstage⟩
    · exact hstage.trans (hover hwas hdone')
    · exact hstage.trans hdone'
  · obtain ⟨now, hnow, hnowKey, hnowPrevious, -⟩ := hmoved.forth hbefore
    refine Or.inr ⟨i, now, hi, hnow, ?_, ?_, fun {m between} hm hm' hbt => ?_⟩
    · rw [hnowKey, hsame, hkey]
    · rw [hprevious, hlink, hnowPrevious]
    · obtain ⟨was, hwas, hwasKey, -⟩ := hmoved.back hbt
      rw [hwasKey, hkey]
      exact hbetween hm hm' hwas

/-- A call whose promise is fulfilled starts its task. -/
theorem Orderly.enter (h : l.Orderly) (hready : l.ready n = true) : (l.enter n).Orderly := by
  cases hturn : l.turns[n]? with
  | none => simp [ready, hturn] at hready
  | some turn =>
    simp only [ready, hturn, Option.any_some, Bool.and_eq_true, decide_eq_true_eq] at hready
    obtain ⟨hwaiting, hfulfilled⟩ := hready
    have hbefore : ∀ {i : Nat} {earlier : Turn}, i < n → l.turns[i]? = some earlier →
        earlier.key = turn.key → earlier.stage = .ended := (h.ready_iff hturn).mp hfulfilled
    have hmoved := moved_enter hturn
    have htails : (l.enter n).tails = l.tails := by simp [Lock.enter, hturn]
    have hopen : ∀ {old : Turn}, l.turns[n]? = some old → old.stage = .waiting := by
      intro old hold
      rw [hturn] at hold
      rwa [← Option.some.inj hold]
    refine ⟨?_, fun hj => hmoved.linked h (fun hold hover => ?_) hj, ?_, ?_⟩
    · intro i j earlier later hij hi hj hkey hstarted
      obtain ⟨first, hfirst, hfirstKey, -, hfirstStage⟩ := hmoved.back hi
      obtain ⟨second, hsecond, hsecondKey, -, hsecondStage⟩ := hmoved.back hj
      have hsame : first.key = second.key := by rw [← hfirstKey, hkey, hsecondKey]
      have hdone : first.stage = .ended := by
        rcases hsecondStage with ⟨rfl, -⟩ | ⟨-, hstage⟩
        · refine hbefore hij hfirst (hsame.trans ?_)
          rw [hturn] at hsecond
          rw [← Option.some.inj hsecond]
        · exact h.ordered hij hfirst hsecond hsame (by rwa [← hstage])
      rcases hfirstStage with ⟨rfl, -⟩ | ⟨-, hstage⟩
      · rw [hopen hfirst] at hdone
        exact absurd hdone nofun
      · exact hstage.trans hdone
    · rw [hopen hold] at hover
      exact absurd hover nofun
    · intro i turn' hi hnone
      obtain ⟨old, hold, hkey, -, hstage⟩ := hmoved.back hi
      have hdone := h.idle hold (by rwa [← hkey, ← htails])
      rcases hstage with ⟨rfl, -⟩ | ⟨-, hstage⟩
      · rw [hopen hold] at hdone
        exact absurd hdone nofun
      · exact hstage.trans hdone
    · intro key p hp
      rw [htails] at hp
      obtain ⟨i, old, hi, hkey, hlink, hgoing, hlast⟩ := h.last hp
      obtain ⟨now, hnow, hnowKey, hnowPrevious, hstage⟩ := hmoved.forth hi
      refine ⟨i, now, hnow, hnowKey.trans hkey, by rw [hlink, hnowPrevious], ?_,
        fun {m later} hm hlater => ?_⟩
      · rcases hstage with ⟨-, hstage⟩ | ⟨-, hstage⟩
        · rw [hstage]
          nofun
        · rwa [hstage]
      · obtain ⟨was, hwas, hwasKey, -⟩ := hmoved.back hlater
        rw [hwasKey]
        exact hlast hm hwas

/-- The task of a call is over. -/
theorem Orderly.leave (h : l.Orderly) (hturn : l.turns[n]? = some turn)
    (hinside : turn.stage = .inside) : (l.leave n).Orderly := by
  have hown : ∀ {old : Turn}, l.turns[n]? = some old → old = turn := fun hold =>
    Option.some.inj (hold.symm.trans hturn)
  have hmoved := moved_leave hturn
  have htails : (l.leave n).tails = if l.tails turn.key = some (turn.previous.after n) then
      Function.update l.tails turn.key none else l.tails := by simp [Lock.leave, hturn]
  refine ⟨?_, fun hj => hmoved.linked h (fun _ _ => rfl) hj, ?_, ?_⟩
  · intro i j earlier later hij hi hj hkey hstarted
    obtain ⟨first, hfirst, hfirstKey, -, hfirstStage⟩ := hmoved.back hi
    obtain ⟨second, hsecond, hsecondKey, -, hsecondStage⟩ := hmoved.back hj
    have hsame : first.key = second.key := by rw [← hfirstKey, hkey, hsecondKey]
    rcases hfirstStage with ⟨-, hstage⟩ | ⟨-, hstage⟩
    · exact hstage
    · refine hstage.trans (h.ordered hij hfirst hsecond hsame ?_)
      rcases hsecondStage with ⟨rfl, -⟩ | ⟨-, hlater⟩
      · rw [hown hsecond, hinside]
        nofun
      · rwa [← hlater]
  · intro i turn' hi hnone
    obtain ⟨old, hold, hkey, -, hstage⟩ := hmoved.back hi
    rcases hstage with ⟨-, hstage⟩ | ⟨hne, hstage⟩
    · exact hstage
    · rw [htails] at hnone
      refine hstage.trans ?_
      split at hnone
      case isFalse => exact h.idle hold (by rwa [← hkey])
      case isTrue htail =>
        by_cases hsame : turn'.key = turn.key
        · -- The tail was the call's own, so it is the last call of its key.
          obtain ⟨last, lastTurn, hlast, -, hlink, -, hnothing⟩ := h.last htail
          have hlastn : n = last := (Promise.after.inj hlink).2
          rcases lt_trichotomy i n with hlt | heq | hgt
          · exact h.ordered hlt hold hturn (by rw [← hkey, hsame]) (by rw [hinside]; nofun)
          · exact absurd heq hne
          · exact absurd (by rw [← hkey, hsame]) (hnothing (by omega) hold)
        · rw [Function.update_of_ne hsame] at hnone
          exact h.idle hold (by rwa [← hkey])
  · intro key p hp
    rw [htails] at hp
    have hkept : l.tails key = some p ∧ (key = turn.key → p ≠ turn.previous.after n) := by
      split at hp
      case isFalse hother =>
        refine ⟨hp, ?_⟩
        rintro rfl rfl
        exact hother hp
      case isTrue =>
        by_cases hsame : key = turn.key
        · rw [hsame, Function.update_self] at hp
          exact absurd hp nofun
        · rw [Function.update_of_ne hsame] at hp
          exact ⟨hp, fun heq => absurd heq hsame⟩
    obtain ⟨i, old, hi, hkey, hlink, hgoing, hlast⟩ := h.last hkept.1
    obtain ⟨now, hnow, hnowKey, hnowPrevious, hstage⟩ := hmoved.forth hi
    refine ⟨i, now, hnow, hnowKey.trans hkey, by rw [hlink, hnowPrevious], ?_,
      fun {m later} hm hlater => ?_⟩
    · rcases hstage with ⟨rfl, -⟩ | ⟨-, hstage⟩
      · obtain rfl := hown hi
        exact absurd hlink (hkept.2 hkey.symm)
      · rwa [hstage]
    · obtain ⟨was, hwas, hwasKey, -⟩ := hmoved.back hlater
      rw [hwasKey]
      exact hlast hm hwas

end Lock

end LinkSuffix.GoogleAds
