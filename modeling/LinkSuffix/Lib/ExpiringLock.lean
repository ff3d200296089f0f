import Mathlib.Logic.Function.Basic

/-!
# Locks that expire

A store of entries, each with a value and an expiry: a lock is taken by writing an entry where no
live one is, and prolonged or given up only by the value that took it.

* `acquire`, `renew`, `release`: the three commands.
* `Keeps`: a value has the entry of a key until a time. What others do leaves it alone.
-/

namespace LinkSuffix.Lib

/-- An entry of the store. -/
structure LockEntry (ν : Type) where
  value : ν
  expiresAt : Nat

/-- A store of entries under keys. -/
abbrev ExpiringLocks (κ ν : Type) : Type := κ → Option (LockEntry ν)

namespace ExpiringLocks

variable {κ ν : Type}

/-- No entry. -/
def empty : ExpiringLocks κ ν := fun _ => none

/-- The value under a key, unless its entry has expired. -/
def get (l : ExpiringLocks κ ν) (key : κ) (now : Nat) : Option ν :=
  ((l key).filter (now < ·.expiresAt)).map (·.value)

variable {l : ExpiringLocks κ ν} {key other : κ} {value foreign : ν} {ttl now expiry : Nat}

/-- The value has the entry of the key, at least until a time. -/
def Keeps (l : ExpiringLocks κ ν) (key : κ) (value : ν) (expiry : Nat) : Prop :=
  ∃ entry, l key = some entry ∧ entry.value = value ∧ expiry ≤ entry.expiresAt

theorem Keeps.get (h : l.Keeps key value expiry) (hnow : now < expiry) :
    l.get key now = some value := by
  obtain ⟨entry, hentry, rfl, hexpiry⟩ := h
  unfold ExpiringLocks.get
  rw [hentry, Option.filter_some, if_pos (decide_eq_true (Nat.lt_of_lt_of_le hnow hexpiry))]
  rfl

theorem Keeps.mono {earlier : Nat} (h : l.Keeps key value expiry) (he : earlier ≤ expiry) :
    l.Keeps key value earlier := by
  obtain ⟨entry, hentry, hvalue, hexpiry⟩ := h
  exact ⟨entry, hentry, hvalue, Nat.le_trans he hexpiry⟩

variable [DecidableEq κ]

theorem keeps_update : Keeps (Function.update l key (some ⟨value, expiry⟩)) key value expiry :=
  ⟨_, Function.update_self key _ l, rfl, Nat.le_refl _⟩

theorem Keeps.of_ne {entry : Option (LockEntry ν)} (h : l.Keeps key value expiry)
    (hne : key ≠ other) : Keeps (Function.update l other entry) key value expiry := by
  obtain ⟨kept, hkept, hrest⟩ := h
  exact ⟨kept, (Function.update_of_ne hne entry l).trans hkept, hrest⟩

theorem get_update_of_ne {entry : Option (LockEntry ν)} (hne : key ≠ other) :
    get (Function.update l other entry) key now = l.get key now := by
  unfold ExpiringLocks.get
  rw [Function.update_of_ne hne]

/-! ## Taking a lock -/

/-- Write an entry where there is no live one. -/
def acquire (l : ExpiringLocks κ ν) (key : κ) (value : ν) (ttl now : Nat) :
    ExpiringLocks κ ν × Bool :=
  if l.get key now = none then (Function.update l key (some ⟨value, now + ttl⟩), true)
  else (l, false)

/-- A live entry is not taken over. -/
theorem Keeps.acquire (h : l.Keeps key value expiry) (hnow : now < expiry) :
    (l.acquire other foreign ttl now).1.Keeps key value expiry := by
  unfold ExpiringLocks.acquire
  split
  · rename_i hnone
    refine h.of_ne fun hsame => ?_
    rw [← hsame, h.get hnow] at hnone
    exact absurd hnone (by simp)
  · exact h

theorem acquire_ok (h : (l.acquire key value ttl now).2 = true) :
    l.get key now = none ∧ (l.acquire key value ttl now).1.Keeps key value (now + ttl) := by
  unfold ExpiringLocks.acquire at h ⊢
  split
  · rename_i hnone
    exact ⟨hnone, keeps_update⟩
  · rename_i hsome
    rw [if_neg hsome] at h
    exact absurd h (by simp)

/-! ## Prolonging it and giving it up -/

variable [DecidableEq ν]

/-- Prolong the entry that has the value. -/
def renew (l : ExpiringLocks κ ν) (key : κ) (value : ν) (ttl now : Nat) :
    ExpiringLocks κ ν × Bool :=
  if l.get key now = some value then (Function.update l key (some ⟨value, now + ttl⟩), true)
  else (l, false)

/-- Delete the entry that has the value. -/
def release (l : ExpiringLocks κ ν) (key : κ) (value : ν) (now : Nat) : ExpiringLocks κ ν × Bool :=
  if l.get key now = some value then (Function.update l key none, true) else (l, false)

/-- An entry is prolonged by its value only. -/
theorem Keeps.renew (h : l.Keeps key value expiry) (hnow : now < expiry) (hne : foreign ≠ value) :
    (l.renew other foreign ttl now).1.Keeps key value expiry := by
  unfold ExpiringLocks.renew
  split
  · rename_i hsome
    refine h.of_ne fun hsame => ?_
    rw [← hsame, h.get hnow] at hsome
    exact hne (Option.some.inj hsome).symm
  · exact h

/-- An entry is deleted by its value only. -/
theorem Keeps.release (h : l.Keeps key value expiry) (hnow : now < expiry)
    (hne : foreign ≠ value) : (l.release other foreign now).1.Keeps key value expiry := by
  unfold ExpiringLocks.release
  split
  · rename_i hsome
    refine h.of_ne fun hsame => ?_
    rw [← hsame, h.get hnow] at hsome
    exact hne (Option.some.inj hsome).symm
  · exact h

/-- A value is not touched by a renewal of another one. -/
theorem get_renew (other : κ) (ttl : Nat) (hne : value ≠ foreign) (h : l.get key now = some value) :
    (l.renew other foreign ttl now).1.get key now = some value := by
  unfold ExpiringLocks.renew
  split
  · rename_i hforeign
    refine (get_update_of_ne fun hsame => ?_).trans h
    rw [← hsame, h] at hforeign
    exact hne (Option.some.inj hforeign)
  · exact h

/-- Nor by a release of another one. -/
theorem get_release (hne : value ≠ foreign) (h : l.get key now = some value) :
    (l.release other foreign now).1.get key now = some value := by
  unfold ExpiringLocks.release
  split
  · rename_i hforeign
    refine (get_update_of_ne fun hsame => ?_).trans h
    rw [← hsame, h] at hforeign
    exact hne (Option.some.inj hforeign)
  · exact h

theorem renew_ok (h : (l.renew key value ttl now).2 = true) :
    l.get key now = some value ∧ (l.renew key value ttl now).1.Keeps key value (now + ttl) := by
  unfold ExpiringLocks.renew at h ⊢
  split
  · rename_i hsome
    exact ⟨hsome, keeps_update⟩
  · rename_i hother
    rw [if_neg hother] at h
    exact absurd h (by simp)

theorem renew_refused (h : l.get key now ≠ some value) :
    l.renew key value ttl now = (l, false) := by
  unfold ExpiringLocks.renew
  rw [if_neg h]

end ExpiringLocks

end LinkSuffix.Lib
