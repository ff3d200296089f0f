import LinkSuffix.Lib.Run
import Mathlib.Order.Defs.Unbundled

/-!
# Queues of keys that expire

Keys are given out for a time, and queued in the order they are given out. Each turn reads a clock,
drops entries from the front until one has not expired, and may put a key at the end. Only the front
is looked at, so an entry that is due stays behind one that is not.

* `expire`, `turns`: one reading of the clock, and the queue turn after turn.
* `mem_run`: no entry is dropped before a reading at its expiry.
* `not_expired_of_mem_run`: under a clock that does not go back, no entry stays past its expiry.
-/

namespace LinkSuffix.Lib

/-- A key that is given out until a time. -/
structure TimedKey (κ τ : Type) where
  key : κ
  expiresAt : τ
  deriving DecidableEq

namespace ExpiringQueue

variable {κ τ : Type} {expiry : τ → τ} {q : List (TimedKey κ τ)} {e : TimedKey κ τ} {now : τ}

/-- A turn: a reading of the clock, and the key that is given out if one is. -/
structure Turn (κ τ : Type) where
  now : τ
  key : Option κ

/-- What a turn puts at the end of the queue. -/
def Turn.entries (expiry : τ → τ) (t : Turn κ τ) : List (TimedKey κ τ) :=
  (t.key.map fun key => { key, expiresAt := expiry t.now }).toList

theorem Turn.expiresAt_of_mem {t : Turn κ τ} (h : e ∈ t.entries expiry) :
    e.expiresAt = expiry t.now := by
  unfold Turn.entries at h
  cases hkey : t.key with
  | none => simp [hkey] at h
  | some key =>
    rw [hkey] at h
    obtain rfl := List.mem_singleton.mp h
    rfl

variable [LE τ] [DecidableLE τ]

/-! ## One reading -/

/-- Expired entries are dropped up to the first that has not expired. -/
def expire (now : τ) (q : List (TimedKey κ τ)) : List (TimedKey κ τ) :=
  q.dropWhile fun e => e.expiresAt ≤ now

theorem expire_cons (e : TimedKey κ τ) (q : List (TimedKey κ τ)) :
    expire now (e :: q) = if e.expiresAt ≤ now then expire now q else e :: q := by
  unfold expire
  rw [List.dropWhile_cons]
  simp only [decide_eq_true_eq]

theorem expire_sublist : (expire now q).Sublist q := List.dropWhile_sublist _

/-- An entry that has not expired stays. -/
theorem mem_expire (he : e ∈ q) (hnow : ¬e.expiresAt ≤ now) : e ∈ expire now q := by
  induction q with
  | nil => exact absurd he List.not_mem_nil
  | cons d q ih =>
    rw [expire_cons]
    split
    · rename_i hd
      rcases List.mem_cons.mp he with rfl | he
      · exact absurd hd hnow
      · exact ih he
    · exact he

/-- The entries expire in the order they are queued. -/
def InOrder (q : List (TimedKey κ τ)) : Prop := q.Pairwise fun d e => d.expiresAt ≤ e.expiresAt

/-- What is left of a queue in order has not expired. -/
theorem InOrder.not_expired [IsTrans τ (· ≤ ·)] (h : InOrder q) (he : e ∈ expire now q) :
    ¬e.expiresAt ≤ now := by
  induction q with
  | nil => exact absurd he List.not_mem_nil
  | cons d q ih =>
    obtain ⟨hd, hq⟩ := List.pairwise_cons.mp h
    rw [expire_cons] at he
    split at he
    · exact ih hq he
    · rename_i hlive
      rcases List.mem_cons.mp he with rfl | he
      · exact hlive
      · exact fun hexpired => hlive (trans_of (· ≤ ·) (hd e he) hexpired)

theorem InOrder.expire (h : InOrder q) : InOrder (expire now q) := h.sublist expire_sublist

/-! ## Turn after turn -/

variable {ts : List (Turn κ τ)} {t : Turn κ τ}

/-- The queue turn after turn; `expiry` is when a key given out at a reading expires. -/
def turns (expiry : τ → τ) : EventSystem (List (TimedKey κ τ)) (Turn κ τ) Unit where
  step q t := (expire t.now q ++ t.entries expiry, ())

theorem turns_next (q : List (TimedKey κ τ)) (t : Turn κ τ) :
    (turns expiry).next q t = expire t.now q ++ t.entries expiry := rfl

/-- **No entry is dropped early**: it stays as long as every reading is before its expiry. -/
theorem mem_run (he : e ∈ q) (hts : ∀ t ∈ ts, ¬e.expiresAt ≤ t.now) :
    e ∈ (turns expiry).run q ts := by
  induction ts generalizing q with
  | nil => exact he
  | cons t ts ih =>
    rw [EventSystem.run_cons, turns_next]
    have hstays : e ∈ expire t.now q := mem_expire he (hts t List.mem_cons_self)
    exact ih (List.mem_append_left _ hstays) fun t ht => hts t (List.mem_cons_of_mem _ ht)

/-- Every entry was given out at the reading of some turn. -/
theorem expiresAt_of_mem_run (he : e ∈ (turns expiry).run [] ts) :
    ∃ t ∈ ts, e.expiresAt = expiry t.now := by
  induction ts using List.reverseRecOn with
  | nil => exact absurd he List.not_mem_nil
  | append_singleton ts t ih =>
    rw [EventSystem.run_concat, turns_next] at he
    rcases List.mem_append.mp he with he | he
    · obtain ⟨d, hd, hexpiry⟩ := ih (expire_sublist.subset he)
      exact ⟨d, List.mem_append_left _ hd, hexpiry⟩
    · exact ⟨t, List.mem_append_right _ List.mem_cons_self, Turn.expiresAt_of_mem he⟩

/-- A clock that does not go back. -/
def Forward (ts : List (Turn κ τ)) : Prop := ts.Pairwise fun t u => t.now ≤ u.now

theorem inOrder_run (hexpiry : ∀ s t, s ≤ t → expiry s ≤ expiry t) (hts : Forward ts) :
    InOrder ((turns expiry).run [] ts) := by
  induction ts using List.reverseRecOn with
  | nil => exact List.Pairwise.nil
  | append_singleton ts t ih =>
    obtain ⟨hbefore, -, hlast⟩ := List.pairwise_append.mp hts
    rw [EventSystem.run_concat, turns_next]
    refine List.pairwise_append.mpr ⟨(ih hbefore).expire, ?_, ?_⟩
    · unfold Turn.entries
      cases t.key with
      | none => exact List.Pairwise.nil
      | some key => exact List.pairwise_singleton _ _
    · intro d hd e he
      obtain ⟨u, hu, hexp⟩ := expiresAt_of_mem_run (expire_sublist.subset hd)
      rw [hexp, Turn.expiresAt_of_mem he]
      exact hexpiry _ _ (hlast u hu t List.mem_cons_self)

/-- **No entry stays past its expiry**: after a turn of a clock that does not go back, what is queued
has not expired. -/
theorem not_expired_of_mem_run [IsTrans τ (· ≤ ·)] (hexpiry : ∀ s t, s ≤ t → expiry s ≤ expiry t)
    (hlater : ∀ now, ¬expiry now ≤ now) (hts : Forward (ts ++ [t]))
    (he : e ∈ (turns expiry).run [] (ts ++ [t])) : ¬e.expiresAt ≤ t.now := by
  rw [EventSystem.run_concat, turns_next] at he
  rcases List.mem_append.mp he with he | he
  · have hbefore : Forward ts := (List.pairwise_append.mp hts).1
    exact (inOrder_run hexpiry hbefore).not_expired he
  · rw [Turn.expiresAt_of_mem he]
    exact hlater t.now

end ExpiringQueue

end LinkSuffix.Lib
