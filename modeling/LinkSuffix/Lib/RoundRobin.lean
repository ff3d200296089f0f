import Mathlib.Data.Finset.Max
import Mathlib.Data.List.Nodup
import Mathlib.Data.List.Perm.Basic
import Mathlib.Data.List.Perm.Subperm

/-!
# Choosing in turns

Items with owners are handed out in turns: first the first item of every owner, then the second one
of every owner, and so on, each owner's items in the order of their rank (`row_number() OVER
(PARTITION BY owner ORDER BY rank)`). The first `n` items of a list in that order are a fair choice,
whatever decides between items of one turn.

* `ahead`: how many items of an owner come before an item.
* `InTurns`: no chosen item has more ahead of it than one that is left.
* `InTurns.rank_lt`: an owner's items are chosen by rank.
* **`InTurns.share_le`**: an owner with an item left has at most one item less than any other.
* `take_inTurns`: the first items of a list in that order are chosen in turns.
-/

namespace LinkSuffix.Lib

variable {α κ β : Type} [DecidableEq κ] [LinearOrder β] {owner : α → κ} {rank : α → β}

/-- The items of the owner of `x` with a smaller rank. -/
def ahead (owner : α → κ) (rank : α → β) (items : List α) (x : α) : Nat :=
  (items.filter fun y => owner y = owner x ∧ rank y < rank x).length

/-- The items chosen for an owner. -/
def share (owner : α → κ) (chosen : List α) (k : κ) : Nat :=
  (chosen.filter fun x => owner x = k).length

/-- No chosen item has more ahead of it than one that is left. -/
def InTurns (owner : α → κ) (rank : α → β) (chosen left : List α) : Prop :=
  ∀ x ∈ chosen, ∀ y ∈ left,
    ahead owner rank (chosen ++ left) x ≤ ahead owner rank (chosen ++ left) y

theorem ahead_perm {items items' : List α} (h : items.Perm items') (x : α) :
    ahead owner rank items x = ahead owner rank items' x :=
  (h.filter _).length_eq

section Turns

variable {chosen left : List α}

/-- More items are ahead of an item with a greater rank. -/
theorem ahead_lt {items : List α} {x y : α} (hnodup : (items.map rank).Nodup) (hx : x ∈ items)
    (howner : owner x = owner y) (hrank : rank x < rank y) :
    ahead owner rank items x < ahead owner rank items y := by
  have hlonger : (x :: items.filter fun z => owner z = owner x ∧ rank z < rank x).length ≤
      (items.filter fun z => owner z = owner y ∧ rank z < rank y).length := by
    refine (List.subperm_of_subset (List.Nodup.of_map rank ?_) ?_).length_le
    · rw [List.map_cons, List.nodup_cons]
      refine ⟨fun hmem => ?_, hnodup.sublist (List.filter_sublist.map rank)⟩
      obtain ⟨z, hz, hsame⟩ := List.mem_map.mp hmem
      have hlt : owner z = owner x ∧ rank z < rank x := of_decide_eq_true (List.mem_filter.mp hz).2
      exact absurd hsame hlt.2.ne
    · intro z hz
      rcases List.mem_cons.mp hz with rfl | hz
      · exact List.mem_filter.mpr ⟨hx, decide_eq_true ⟨howner, hrank⟩⟩
      · obtain ⟨hmem, hz⟩ := List.mem_filter.mp hz
        obtain ⟨hz, hlt⟩ := of_decide_eq_true hz
        exact List.mem_filter.mpr ⟨hmem, decide_eq_true ⟨hz.trans howner, hlt.trans hrank⟩⟩
  exact hlonger

/-- **An owner's items are chosen by rank.** -/
theorem InTurns.rank_lt (h : InTurns owner rank chosen left)
    (hnodup : ((chosen ++ left).map rank).Nodup) {x y : α} (hx : x ∈ chosen) (hy : y ∈ left)
    (howner : owner x = owner y) : rank x < rank y := by
  refine lt_of_le_of_ne (not_lt.mp fun hlt => ?_) fun hsame => ?_
  · have hmore := ahead_lt hnodup (List.mem_append_right chosen hy) howner.symm hlt
    exact absurd (h x hx y hy) (Nat.not_le.mpr hmore)
  · rw [List.map_append, List.nodup_append] at hnodup
    exact hnodup.2.2 _ (List.mem_map_of_mem hx) _ (List.mem_map_of_mem hy) hsame

/-- Of the items chosen for an owner, the last one has the others ahead. -/
theorem share_le_ahead (hnodup : ((chosen ++ left).map rank).Nodup) {k : κ}
    (h : 0 < share owner chosen k) : ∃ x ∈ chosen, owner x = k ∧
      share owner chosen k ≤ ahead owner rank (chosen ++ left) x + 1 := by
  classical
  have hne : (chosen.filter fun x => owner x = k).toFinset.Nonempty := by
    obtain ⟨x, hx⟩ := List.exists_mem_of_length_pos h
    exact ⟨x, List.mem_toFinset.mpr hx⟩
  obtain ⟨x, hx, hlast⟩ := Finset.exists_max_image _ rank hne
  obtain ⟨hchosen, howner⟩ := List.mem_filter.mp (List.mem_toFinset.mp hx)
  have howner : owner x = k := of_decide_eq_true howner
  refine ⟨x, hchosen, howner, ?_⟩
  have hlonger : (chosen.filter fun y => owner y = k).length ≤ (x ::
      (chosen ++ left).filter fun y => owner y = owner x ∧ rank y < rank x).length := by
    refine (List.subperm_of_subset (List.Nodup.of_map rank ?_) fun y hy => ?_).length_le
    · exact hnodup.sublist
        ((List.filter_sublist.trans (List.sublist_append_left chosen left)).map rank)
    · obtain ⟨hmem, hk⟩ := List.mem_filter.mp hy
      have hle := hlast y (List.mem_toFinset.mpr hy)
      rcases hle.lt_or_eq with hlt | hsame
      · refine List.mem_cons_of_mem _ (List.mem_filter.mpr ⟨List.mem_append_left _ hmem, ?_⟩)
        exact decide_eq_true ⟨(of_decide_eq_true hk).trans howner.symm, hlt⟩
      · rw [List.inj_on_of_nodup_map hnodup (List.mem_append_left _ hmem)
          (List.mem_append_left _ hchosen) hsame]
        exact List.mem_cons_self
  exact hlonger

/-- The items ahead of the first one that an owner has left are chosen. -/
theorem ahead_le_share (hnodup : ((chosen ++ left).map rank).Nodup) {u : α} (hu : u ∈ left) :
    ∃ y ∈ left, owner y = owner u ∧
      ahead owner rank (chosen ++ left) y ≤ share owner chosen (owner u) := by
  classical
  have hne : (left.filter fun x => owner x = owner u).toFinset.Nonempty :=
    ⟨u, List.mem_toFinset.mpr (List.mem_filter.mpr ⟨hu, decide_eq_true rfl⟩)⟩
  obtain ⟨y, hy, hfirst⟩ := Finset.exists_min_image _ rank hne
  obtain ⟨hleft, howner⟩ := List.mem_filter.mp (List.mem_toFinset.mp hy)
  have howner : owner y = owner u := of_decide_eq_true howner
  refine ⟨y, hleft, howner,
    (List.subperm_of_subset (List.Nodup.of_map rank ?_) fun z hz => ?_).length_le⟩
  · exact hnodup.sublist (List.filter_sublist.map rank)
  · obtain ⟨hmem, hz⟩ := List.mem_filter.mp hz
    obtain ⟨hz, hlt⟩ := of_decide_eq_true hz
    have hk : owner z = owner u := hz.trans howner
    rcases List.mem_append.mp hmem with hchosen | hz'
    · exact List.mem_filter.mpr ⟨hchosen, decide_eq_true hk⟩
    · have hle := hfirst z (List.mem_toFinset.mpr (List.mem_filter.mpr ⟨hz', decide_eq_true hk⟩))
      exact absurd hlt (not_lt.mpr hle)

/-- **A fair choice**: an owner with an item left has at most one item less than any other. -/
theorem InTurns.share_le (h : InTurns owner rank chosen left)
    (hnodup : ((chosen ++ left).map rank).Nodup) {u : α} (hu : u ∈ left) (k : κ) :
    share owner chosen k ≤ share owner chosen (owner u) + 1 := by
  rcases Nat.eq_zero_or_pos (share owner chosen k) with hzero | hpos
  · rw [hzero]
    exact Nat.zero_le _
  · obtain ⟨x, hx, -, hshare⟩ := share_le_ahead hnodup hpos
    obtain ⟨y, hy, -, hahead⟩ := @ahead_le_share α κ β _ _ owner rank chosen left hnodup u hu
    calc share owner chosen k
        ≤ ahead owner rank (chosen ++ left) x + 1 := hshare
      _ ≤ ahead owner rank (chosen ++ left) y + 1 := Nat.succ_le_succ (h x hx y hy)
      _ ≤ share owner chosen (owner u) + 1 := Nat.succ_le_succ hahead

end Turns

/-- The first items of a list in the order of turns are chosen in turns. -/
theorem take_inTurns {items : List α} (n : Nat)
    (h : items.Pairwise fun x y => ahead owner rank items x ≤ ahead owner rank items y) :
    InTurns owner rank (items.take n) (items.drop n) := by
  intro x hx y hy
  rw [List.take_append_drop]
  rw [← List.take_append_drop n items, List.pairwise_append, List.take_append_drop] at h
  exact h.2.2 x hx y hy

end LinkSuffix.Lib
