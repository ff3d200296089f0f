import Mathlib.Data.List.Basic

/-!
# Promises as expressions

The promises a program derives from calls that settle at times of their own. A derived promise is
settled as soon as what it is derived from is; whoever waits on it goes on at any later time, which
covers every order of the microtasks in between.

* `Promise.value`: fulfilled, rejected or pending, given the outcomes of the calls so far.
* `Promise.chain`: the tail of a chain in which every call waits for the one before, settled or not.
* `value_chain_iff`, `value_after_chain`: when the tail is settled, and what the promise of one call
  of the chain is.
-/

namespace LinkSuffix.Lib

/-- `Promise.resolve()`, `source.then(f)` where `f` makes the `n`-th call and its promise is
followed, and `source.catch(() => undefined)`. -/
inductive Promise where
  | resolved
  | after (source : Promise) (n : Nat)
  | caught (source : Promise)
  deriving DecidableEq

namespace Promise

/-- `some true` when fulfilled, `some false` when rejected, `none` while pending. -/
def value (outcome : Nat → Option Bool) : Promise → Option Bool
  | .resolved => some true
  | .after source n => (source.value outcome).bind fun ok => if ok then outcome n else some false
  | .caught source => (source.value outcome).map fun _ => true

variable {outcome : Nat → Option Bool} {p : Promise} {n : Nat}

@[simp] theorem value_resolved : resolved.value outcome = some true := rfl

theorem value_caught : p.caught.value outcome = (p.value outcome).map fun _ => true := rfl

/-- A promise that is caught is never rejected. -/
theorem value_caught_ne_rejected : p.caught.value outcome ≠ some false := by
  rw [value_caught]
  cases p.value outcome <;> nofun

theorem value_caught_iff : p.caught.value outcome = some true ↔ (p.value outcome).isSome := by
  rw [value_caught]
  cases p.value outcome <;> simp

/-- The handler of a fulfilled promise is followed. -/
theorem value_after_fulfilled (h : p.value outcome = some true) :
    (p.after n).value outcome = outcome n := by
  simp [value, h]

theorem value_after_pending (h : p.value outcome = none) : (p.after n).value outcome = none := by
  simp [value, h]

/-! ## The chain -/

/-- The tail after `n` calls: each waits for the tail before it whatever became of it, and leaves
its own promise with its failure caught. -/
def chain : Nat → Promise
  | 0 => .resolved
  | n + 1 => ((chain n).caught.after n).caught

theorem chain_succ : chain (n + 1) = ((chain n).caught.after n).caught := rfl

theorem value_chain_ne_rejected : (chain n).value outcome ≠ some false := by
  cases n with
  | zero => exact nofun
  | succ n => exact value_caught_ne_rejected

/-- The tail is never rejected, and catching it changes nothing. -/
theorem value_caught_chain : (chain n).caught.value outcome = (chain n).value outcome := by
  rw [value_caught]
  cases hchain : (chain n).value outcome with
  | none => rfl
  | some ok =>
    cases ok with
    | true => rfl
    | false => exact absurd hchain value_chain_ne_rejected

/-- **The tail is settled when every call of the chain is**, and is then fulfilled. -/
theorem value_chain_iff : (chain n).value outcome = some true ↔ ∀ k < n, (outcome k).isSome := by
  induction n with
  | zero => simp [chain]
  | succ n ih =>
    rw [chain_succ, value_caught_iff]
    cases hchain : (chain n).value outcome with
    | none =>
      rw [value_after_pending (value_caught_chain.trans hchain)]
      refine ⟨nofun, fun hall => ?_⟩
      have hearlier := ih.mpr fun k hk => hall k (Nat.lt_succ_of_lt hk)
      exact absurd (hchain.symm.trans hearlier) nofun
    | some ok =>
      have hsettled : (chain n).value outcome = some true := by
        cases ok with
        | true => exact hchain
        | false => exact absurd hchain value_chain_ne_rejected
      rw [value_after_fulfilled (value_caught_chain.trans hsettled)]
      constructor
      · intro hn k hk
        rcases Nat.lt_succ_iff_lt_or_eq.mp hk with hk | rfl
        · exact ih.mp hsettled k hk
        · exact hn
      · exact fun hall => hall n n.lt_succ_self

/-- **The promise of the `n`-th call is the call's own**: no failure before it shows in it. -/
theorem value_after_chain (h : (outcome n).isSome → ∀ k < n, (outcome k).isSome) :
    ((chain n).caught.after n).value outcome = outcome n := by
  cases hsource : (chain n).caught.value outcome with
  | none =>
    rw [value_after_pending hsource]
    cases houtcome : outcome n with
    | none => rfl
    | some ok =>
      have hearlier := value_chain_iff.mpr (h (by rw [houtcome]; rfl))
      rw [← value_caught_chain, hsource] at hearlier
      exact absurd hearlier nofun
  | some ok =>
    cases ok with
    | true => exact value_after_fulfilled hsource
    | false => exact absurd hsource value_caught_ne_rejected

end Promise

end LinkSuffix.Lib
