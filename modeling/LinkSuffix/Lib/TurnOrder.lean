import LinkSuffix.Lib.RoundRobin

/-!
# Queues that take turns

Every owner has a group of items, and the groups stand in a queue. The first group hands out its
first item and goes to the back, as long as it has another.

* `ItemGroup`, `again`: a group has an item.
* `takeTurns`: the first `n` items in this order.
* `Owned`, `lane`: one group an owner, and what an owner has left.
* `Level`: the owners at the front of the queue have one item less than those behind them.
* **`takeTurns_fair`**: at every moment two owners with items left differ by one item at most.
-/

namespace LinkSuffix.Lib

/-- The items of one owner: a first one, and the others. -/
abbrev ItemGroup (α : Type) := α × List α

/-- What is left of a group without its first item. -/
def again {α : Type} : List α → List (ItemGroup α)
  | [] => []
  | x :: rest => [(x, rest)]

/-- The items of the groups. -/
def items {α : Type} (queue : List (ItemGroup α)) : List α := queue.flatMap fun g => g.1 :: g.2

/-- The first `n` items, when the groups take turns. -/
def takeTurns {α : Type} : Nat → List (ItemGroup α) → List α
  | 0, _ => []
  | _ + 1, [] => []
  | n + 1, (x, rest) :: queue => x :: takeTurns n (queue ++ again rest)

variable {α κ : Type} {owner : α → κ} {queue queue' : List (ItemGroup α)} {x : α} {rest : List α}

/-! ## Items -/

@[simp] theorem items_cons : items ((x, rest) :: queue) = x :: (rest ++ items queue) := rfl

@[simp] theorem items_append : items (queue ++ queue') = items queue ++ items queue' :=
  List.flatMap_append

@[simp] theorem items_again : items (again rest) = rest := by
  cases rest with
  | nil => rfl
  | cons y ys => exact List.append_nil (y :: ys)

/-- The groups have one owner each, and no owner has two of them. -/
structure Owned (owner : α → κ) (queue : List (ItemGroup α)) : Prop where
  same : ∀ g ∈ queue, ∀ y ∈ g.2, owner y = owner g.1
  distinct : (queue.map fun g => owner g.1).Nodup

theorem again_owner (hsame : ∀ y ∈ rest, owner y = owner x) {g : ItemGroup α}
    (hg : g ∈ again rest) :
    owner g.1 = owner x ∧ ∀ y ∈ g.2, owner y = owner x := by
  cases rest with
  | nil => exact absurd hg List.not_mem_nil
  | cons y ys =>
    obtain rfl := List.mem_singleton.mp hg
    exact ⟨hsame y List.mem_cons_self, fun z hz => hsame z (List.mem_cons_of_mem y hz)⟩

theorem again_length : (again rest).length ≤ 1 := by
  cases rest with
  | nil => exact Nat.zero_le 1
  | cons y ys => exact Nat.le_refl 1

theorem Owned.perm (h : Owned owner queue) (hperm : queue.Perm queue') : Owned owner queue' :=
  ⟨fun g hg => h.same g (hperm.mem_iff.mpr hg), (hperm.map _).nodup_iff.mp h.distinct⟩

/-- Handing out the first item keeps the owners apart. -/
theorem Owned.step (h : Owned owner ((x, rest) :: queue)) : Owned owner (queue ++ again rest) := by
  have hrest : ∀ y ∈ rest, owner y = owner x := h.same _ List.mem_cons_self
  obtain ⟨hfresh, hdistinct⟩ := List.nodup_cons.mp h.distinct
  constructor
  · intro g hg y hy
    rcases List.mem_append.mp hg with hold | hnew
    · exact h.same g (List.mem_cons_of_mem _ hold) y hy
    · obtain ⟨hfirst, hothers⟩ := again_owner hrest hnew
      exact (hothers y hy).trans hfirst.symm
  · rw [List.map_append, List.nodup_append]
    refine ⟨hdistinct, ?_, ?_⟩
    · rcases hcase : again rest with _ | ⟨g, gs⟩
      · exact List.nodup_nil
      · have hlen := @again_length α rest
        rw [hcase] at hlen
        obtain rfl : gs = [] := List.length_eq_zero_iff.mp (by simpa using hlen)
        exact List.nodup_singleton _
    · rintro k hk k' hk' rfl
      obtain ⟨g, hg, rfl⟩ := List.mem_map.mp hk'
      rw [(again_owner hrest hg).1] at hk
      exact hfresh hk

/-! ## The items an owner has left -/

section Lane

variable [DecidableEq κ]

/-- The items of an owner, in order. -/
def lane (owner : α → κ) (k : κ) (queue : List (ItemGroup α)) : List α :=
  (items queue).filter fun y => owner y = k

theorem lane_cons (k : κ) : lane owner k ((x, rest) :: queue) =
    (x :: rest).filter (fun y => owner y = k) ++ lane owner k queue := by
  unfold lane
  rw [items_cons, ← List.cons_append, List.filter_append]

theorem lane_append (k : κ) :
    lane owner k (queue ++ queue') = lane owner k queue ++ lane owner k queue' := by
  unfold lane
  rw [items_append, List.filter_append]

theorem lane_again (k : κ) :
    lane owner k (again rest) = rest.filter fun y => owner y = k := by
  unfold lane
  rw [items_again]

/-- Another owner's lane has none of the items of a group. -/
theorem group_filter (hsame : ∀ y ∈ rest, owner y = owner x) {k : κ} (hk : owner x ≠ k) :
    (x :: rest).filter (fun y => owner y = k) = [] := by
  refine List.filter_eq_nil_iff.mpr fun y hy => ?_
  rw [decide_eq_true_eq]
  rcases List.mem_cons.mp hy with rfl | hy
  · exact hk
  · rw [hsame y hy]
    exact hk

/-- A lane does not depend on where the groups stand. -/
theorem lane_perm (h : Owned owner queue) (hperm : queue.Perm queue') (k : κ) :
    lane owner k queue = lane owner k queue' := by
  induction hperm with
  | nil => rfl
  | cons g hperm ih =>
    have htail := ih ⟨fun g' hg' => h.same g' (List.mem_cons_of_mem _ hg'),
      (List.nodup_cons.mp h.distinct).2⟩
    rw [lane_cons, lane_cons, htail]
  | swap g g' gs =>
    have hg : ∀ y ∈ g.2, owner y = owner g.1 :=
      h.same g (List.mem_cons_of_mem _ List.mem_cons_self)
    have hg' : ∀ y ∈ g'.2, owner y = owner g'.1 := h.same g' List.mem_cons_self
    have hne : owner g'.1 ≠ owner g.1 := fun heq =>
      (List.nodup_cons.mp h.distinct).1 (List.mem_map.mpr ⟨g, List.mem_cons_self, heq.symm⟩)
    rw [lane_cons, lane_cons, lane_cons, lane_cons]
    by_cases hk : owner g.1 = k
    · rw [group_filter hg' (hk ▸ hne), List.nil_append]
      rfl
    · rw [group_filter hg hk, List.nil_append]
      rfl
  | trans hperm _ ih ih' => exact (ih h).trans (ih' (h.perm hperm))

/-- Handing out the first item takes it from its owner's lane. -/
theorem lane_step (h : Owned owner ((x, rest) :: queue)) (k : κ) :
    lane owner k ((x, rest) :: queue) =
      [x].filter (fun y => owner y = k) ++ lane owner k (queue ++ again rest) := by
  have hswap : (again rest ++ queue).Perm (queue ++ again rest) := List.perm_append_comm
  rw [← lane_perm (h.step.perm hswap.symm) hswap, lane_append, lane_again, lane_cons,
    ← List.append_assoc, ← List.filter_append]
  rfl

theorem mem_lane {y : α} : y ∈ lane owner (owner y) queue ↔ y ∈ items queue := by
  unfold lane
  rw [List.mem_filter]
  exact and_iff_left (decide_eq_true rfl)

/-- A list has no item twice when it has none twice for any owner. -/
theorem nodup_of_lanes {l : List α} (h : ∀ k, (l.filter fun y => owner y = k).Nodup) : l.Nodup := by
  induction l with
  | nil => exact List.nodup_nil
  | cons x l ih =>
    have hx := h (owner x)
    rw [List.filter_cons, if_pos (decide_eq_true rfl), List.nodup_cons] at hx
    refine List.nodup_cons.mpr ⟨fun hmem => hx.1 (List.mem_filter.mpr ⟨hmem, decide_eq_true rfl⟩),
      ih fun k => (h k).sublist ((List.sublist_cons_self x l).filter _)⟩

/-! ## A queue in turns is fair -/

/-- The owners at the front have got `c` items, those behind them one more. -/
def Level (owner : α → κ) (issued : List α) (queue : List (ItemGroup α)) : Prop :=
  ∃ (c : Nat) (front back : List (ItemGroup α)), queue = front ++ back ∧
    (∀ g ∈ front, share owner issued (owner g.1) = c) ∧
    ∀ g ∈ back, share owner issued (owner g.1) = c + 1

theorem share_snoc (issued : List α) (k : κ) :
    share owner (issued ++ [x]) k = share owner issued k + if owner x = k then 1 else 0 := by
  unfold share
  rw [List.filter_append, List.length_append]
  by_cases hk : owner x = k
  · simp [hk]
  · simp [hk]

theorem level_nil (queue : List (ItemGroup α)) : Level owner [] queue :=
  ⟨0, queue, [], (List.append_nil queue).symm, fun _ _ => rfl,
    fun _ hg => absurd hg List.not_mem_nil⟩

/-- There is someone in front as long as there is anyone. -/
theorem Level.front {issued : List α} {g : ItemGroup α} (h : Level owner issued (g :: queue)) :
    ∃ (c : Nat) (front back : List (ItemGroup α)), queue = front ++ back ∧
      share owner issued (owner g.1) = c ∧
      (∀ g' ∈ front, share owner issued (owner g'.1) = c) ∧
      ∀ g' ∈ back, share owner issued (owner g'.1) = c + 1 := by
  obtain ⟨c, front, back, hqueue, hfront, hback⟩ := h
  cases front with
  | nil =>
    have hqueue : back = g :: queue := hqueue.symm
    subst hqueue
    exact ⟨c + 1, queue, [], (List.append_nil queue).symm, hback g List.mem_cons_self,
      fun g' hg' => hback g' (List.mem_cons_of_mem _ hg'), fun _ hg' => absurd hg' List.not_mem_nil⟩
  | cons first front =>
    obtain ⟨rfl, rfl⟩ := List.cons.inj hqueue
    exact ⟨c, front, back, rfl, hfront g List.mem_cons_self,
      fun g' hg' => hfront g' (List.mem_cons_of_mem _ hg'), hback⟩

theorem Level.step {issued : List α} (howned : Owned owner ((x, rest) :: queue))
    (h : Level owner issued ((x, rest) :: queue)) :
    Level owner (issued ++ [x]) (queue ++ again rest) := by
  obtain ⟨c, front, back, rfl, hx, hfront, hback⟩ := h.front
  have hother : ∀ g ∈ front ++ back, owner x ≠ owner g.1 := fun g hg heq =>
    (List.nodup_cons.mp howned.distinct).1 (List.mem_map.mpr ⟨g, hg, heq.symm⟩)
  have hkept : ∀ g ∈ front ++ back,
      share owner (issued ++ [x]) (owner g.1) = share owner issued (owner g.1) := fun g hg => by
    rw [share_snoc, if_neg (hother g hg), Nat.add_zero]
  refine ⟨c, front, back ++ again rest, List.append_assoc .., fun g hg => ?_, fun g hg => ?_⟩
  · rw [hkept g (List.mem_append_left _ hg)]
    exact hfront g hg
  · rcases List.mem_append.mp hg with hg | hg
    · rw [hkept g (List.mem_append_right _ hg)]
      exact hback g hg
    · rw [(again_owner (howned.same _ List.mem_cons_self) hg).1, share_snoc, if_pos rfl, hx]

/-- Two owners with something left differ by one item at most. -/
theorem Level.share_le {issued : List α} (howned : Owned owner queue)
    (h : Level owner issued queue) {u v : α} (hu : u ∈ items queue) (hv : v ∈ items queue) :
    share owner issued (owner u) ≤ share owner issued (owner v) + 1 := by
  have hgroup {w : α} (hw : w ∈ items queue) : ∃ g ∈ queue, owner w = owner g.1 := by
    obtain ⟨g, hg, hw⟩ := List.mem_flatMap.mp hw
    rcases List.mem_cons.mp hw with rfl | hw
    · exact ⟨g, hg, rfl⟩
    · exact ⟨g, hg, howned.same g hg w hw⟩
  obtain ⟨g, hg, hug⟩ := hgroup hu
  obtain ⟨g', hg', hvg⟩ := hgroup hv
  obtain ⟨c, front, back, rfl, hfront, hback⟩ := h
  have hbounds {g : ItemGroup α} (hg : g ∈ front ++ back) : c ≤ share owner issued (owner g.1) ∧
      share owner issued (owner g.1) ≤ c + 1 := by
    rcases List.mem_append.mp hg with hg | hg
    · rw [hfront g hg]
      exact ⟨Nat.le_refl c, Nat.le_succ c⟩
    · rw [hback g hg]
      exact ⟨Nat.le_succ c, Nat.le_refl _⟩
  rw [hug, hvg]
  have hlow := (hbounds hg').1
  have hhigh := (hbounds hg).2
  omega

/-- **A queue in turns is fair at every moment.** -/
theorem takeTurns_fair (n m : Nat) {issued : List α} (howned : Owned owner queue)
    (hlevel : Level owner issued queue) {u v : α} (hu : u ∈ items queue) (hv : v ∈ items queue)
    (hu' : u ∉ (takeTurns n queue).take m) (hv' : v ∉ (takeTurns n queue).take m) :
    share owner (issued ++ (takeTurns n queue).take m) (owner u) ≤
      share owner (issued ++ (takeTurns n queue).take m) (owner v) + 1 := by
  induction m generalizing n queue issued with
  | zero =>
    rw [List.take_zero, List.append_nil]
    exact hlevel.share_le howned hu hv
  | succ m ih =>
    cases n with
    | zero =>
      rw [takeTurns, List.take_nil, List.append_nil]
      exact hlevel.share_le howned hu hv
    | succ n =>
      cases queue with
      | nil => exact absurd hu List.not_mem_nil
      | cons g queue =>
        obtain ⟨x, rest⟩ := g
        rw [takeTurns, List.take_succ_cons] at hu' hv' ⊢
        rw [List.append_cons]
        have hleft {w : α} (hw : w ∈ items ((x, rest) :: queue))
            (hw' : w ∉ x :: (takeTurns n (queue ++ again rest)).take m) :
            w ∈ items (queue ++ again rest) := by
          rw [items_cons] at hw
          rw [items_append, items_again, List.mem_append]
          rcases List.mem_cons.mp hw with rfl | hw
          · exact absurd List.mem_cons_self hw'
          · exact (List.mem_append.mp hw).symm
        exact ih n howned.step (hlevel.step howned) (hleft hu hu') (hleft hv hv')
          (fun hmem => hu' (List.mem_cons_of_mem _ hmem))
          fun hmem => hv' (List.mem_cons_of_mem _ hmem)

end Lane

end LinkSuffix.Lib
