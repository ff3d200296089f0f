import LinkSuffix.Lib.TurnOrder
import LinkSuffix.Web.FleetShards
import Mathlib.Data.List.Rotate
import Mathlib.Tactic.Ring

/-!
# The deliveries that `issueJobs` picks

`issueJobs` of `google-ads-script-bridge.ts` groups the deliveries that are due by account, and
takes them in turns: a running index walks the array of groups modulo its length, and a group that
runs out is cut from the array while the index stays. From the second round on the index then points
past the group whose turn it is.

* `eligibleCandidates`, `groupedDeliveries`, `issueLoop`, `issueCandidates`: the code.
* `InTurn`: the index points at the next group whenever one has run out.
* `issueLoop_iff`: exactly then the groups take turns.
* **`issue_fair`**: each delivery at most once, the oldest of an account first, and in turns the
  choice is fair at every prefix.
* `shrinking_array_is_unfair`: three accounts, one of which is passed over.
-/

namespace LinkSuffix.ScriptFleet

open Lib

/-! ## The code -/

/-- `ScriptDeliveryStatus`. -/
inductive ScriptDeliveryStatus where
  | pending
  | verified
  | failed
  deriving DecidableEq

/-- `ScriptDelivery`, as far as it is picked by it. A date is the time it stands for. -/
structure ScriptDelivery where
  campaignRecordId : String
  jobId : String := ""
  capturedAt : Int
  status : ScriptDeliveryStatus := .pending
  leaseUntil : Option Int := none
  pendingSince : Option Int := none
  deriving DecidableEq

/-- `ScriptBridgeState` with its deliveries, one for each campaign, and the times of the last
verified ones. -/
structure DeliveryState extends FleetState where
  deliveries : List ScriptDelivery := []
  verifiedAt : String → Option Int := fun _ => none
  one : (deliveries.map (·.campaignRecordId)).Nodup := by decide

/-- `leaseActive`. -/
def leaseActive (d : ScriptDelivery) (now : Int) : Bool :=
  d.leaseUntil.any (now < ·) && d.status = .pending

/-- `delivery.pendingSince ?? delivery.capturedAt`. -/
def ScriptDelivery.since (d : ScriptDelivery) : Int := d.pendingSince.getD d.capturedAt

/-- `byId.get(campaignRecordId)`: the last campaign with the id. -/
def campaignById (campaigns : List ScriptCampaign) (id : String) : Option ScriptCampaign :=
  campaigns.reverse.find? fun c => c.id = id

/-- `customerId` of a delivery's campaign. -/
def customerOf (campaigns : List ScriptCampaign) (d : ScriptDelivery) : String :=
  ((campaignById campaigns d.campaignRecordId).map fun c => c.account.customerId).getD ""

section Code

variable (s : DeliveryState) (campaigns : List ScriptCampaign) (shardId : String) (now : Int)

/-- The filter of `eligibleCandidates`. -/
def isEligible (scopedCustomerId : String) (d : ScriptDelivery) : Bool :=
  if d.status = .verified || leaseActive d now then false
  else match campaignById campaigns d.campaignRecordId with
    | none => false
    | some c =>
      if scopedCustomerId ≠ "" && c.account.customerId ≠ scopedCustomerId then false
      else if (s.verifiedAt d.campaignRecordId).any fun at' => now - at' < 58000 then false
      else shardId = "legacy" || s.accountAssignments c.account.key = some shardId

/-- `eligibleCandidates`, the longest pending first. -/
def eligibleCandidates (scopedCustomerId : String) : List ScriptDelivery :=
  (s.deliveries.filter (isEligible s campaigns shardId now scopedCustomerId)).insertionSort
    fun left right => left.since ≤ right.since

/-- `grouped.set(key, [...group, delivery])`. -/
def pushGroup (key : String) (d : ScriptDelivery) :
    List (String × ItemGroup ScriptDelivery) → List (String × ItemGroup ScriptDelivery)
  | [] => [(key, (d, []))]
  | (k, group) :: grouped =>
    if k = key then (k, (group.1, group.2 ++ [d])) :: grouped
    else (k, group) :: pushGroup key d grouped

/-- `grouped`. -/
def groupedDeliveries (eligible : List ScriptDelivery) : List (String × ItemGroup ScriptDelivery) :=
  eligible.foldl (fun grouped d =>
    match campaignById campaigns d.campaignRecordId with
    | none => grouped
    | some c => pushGroup c.account.customerId d grouped) []

/-- `groups`, by the age of their first delivery. -/
def deliveryGroups (eligible : List ScriptDelivery) : List (ItemGroup ScriptDelivery) :=
  ((groupedDeliveries campaigns eligible).map (·.2)).insertionSort fun left right =>
    left.1.since ≤ right.1.since

/-- The loop, for as many more candidates as the limit allows: the group under the index gives its
first delivery, and is spliced out when that was the last one. -/
def issueLoop {α : Type} : Nat → Nat → List (ItemGroup α) → List α
  | 0, _, _ => []
  | _ + 1, _, [] => []
  | n + 1, index, first :: others =>
    let groups := first :: others
    let position := index % groups.length
    let group := groups.getD position first
    match group.2 with
    | [] => group.1 :: issueLoop n index (groups.eraseIdx position)
    | next :: rest => group.1 :: issueLoop n (index + 1) (groups.set position (next, rest))

/-- `candidateLimit`: how many candidates are fewer than it. -/
def candidateLimit : JsNumber → Nat
  | .nan => 0
  | .infinity negative => if negative then 1 else 500
  | .finite maximumJobs => (max 1 (min 500 maximumJobs)).ceil.toNat

/-- `candidates`. -/
def issueCandidates (maximumJobs : JsNumber) (requestedCustomerId : Option String) :
    List ScriptDelivery :=
  let scopedCustomerId := digits requestedCustomerId
  let eligible := eligibleCandidates s campaigns shardId now scopedCustomerId
  if scopedCustomerId ≠ "" then eligible.take (candidateLimit maximumJobs)
  else issueLoop (candidateLimit maximumJobs) 0 (deliveryGroups campaigns eligible)

end Code

/-! ## The loop -/

section Loop

variable {α κ : Type} {owner : α → κ}

/-- What one pass of the loop does. -/
theorem issueLoop_succ (n index : Nat) (before after : List (ItemGroup α)) (x : α) (rest : List α)
    (hindex : index % (before.length + after.length + 1) = before.length) :
    issueLoop (n + 1) index (before ++ (x, rest) :: after) = x :: match rest with
      | [] => issueLoop n index (before ++ after)
      | next :: rest => issueLoop n (index + 1) (before ++ (next, rest) :: after) := by
  obtain ⟨first, others, hgroups⟩ : ∃ first others,
      before ++ (x, rest) :: after = first :: others := by
    cases before with
    | nil => exact ⟨_, _, rfl⟩
    | cons first before => exact ⟨_, _, rfl⟩
  have hposition : index % (before ++ (x, rest) :: after).length = before.length := by
    rw [List.length_append, List.length_cons, ← Nat.add_assoc]
    exact hindex
  rw [hgroups, issueLoop]
  simp only [← hgroups]
  rw [hposition]
  have hget : (before ++ (x, rest) :: after).getD before.length first = (x, rest) := by
    simp [List.getD_eq_getElem?_getD]
  rw [hget]
  cases rest with
  | nil =>
    have herase : (before ++ (x, ([] : List α)) :: after).eraseIdx before.length =
        before ++ after := by
      rw [List.eraseIdx_append_of_length_le (Nat.le_refl _), Nat.sub_self]
      rfl
    simp only [herase]
  | cons next rest =>
    have hset : (before ++ (x, next :: rest) :: after).set before.length (next, rest) =
        before ++ (next, rest) :: after := by
      rw [List.set_append_right _ _ (Nat.le_refl _), Nat.sub_self]
      rfl
    simp only [hset]

/-- The group under the index. -/
theorem split_at_index (index : Nat) {groups : List (ItemGroup α)} (h : groups ≠ []) :
    ∃ before x rest after, groups = before ++ (x, rest) :: after ∧
      index % (before.length + after.length + 1) = before.length := by
  have hlt : index % groups.length < groups.length :=
    Nat.mod_lt _ (List.length_pos_iff.mpr h)
  refine ⟨groups.take (index % groups.length), groups[index % groups.length].1,
    groups[index % groups.length].2, groups.drop (index % groups.length + 1), ?_, ?_⟩
  · exact ((congrArg _ (List.cons_getElem_drop_succ (h := hlt))).trans
      (List.take_append_drop _ _)).symm
  · rw [List.length_take, List.length_drop, Nat.min_eq_left hlt.le]
    congr 1
    omega

/-- The loop hands each owner's items out in order, wherever the index points. -/
theorem issueLoop_prefix [DecidableEq κ] (n index : Nat) {groups : List (ItemGroup α)}
    (h : Owned owner groups) (k : κ) :
    (issueLoop n index groups).filter (fun y => owner y = k) <+: lane owner k groups := by
  induction n generalizing index groups with
  | zero =>
    rw [issueLoop]
    exact List.nil_prefix
  | succ n ih =>
    by_cases hnil : groups = []
    · subst hnil
      rw [issueLoop]
      exact List.nil_prefix
    · obtain ⟨before, x, rest, after, rfl, hindex⟩ := split_at_index index hnil
      have hperm : (before ++ (x, rest) :: after).Perm ((x, rest) :: (before ++ after)) :=
        List.perm_middle
      have howned := h.perm hperm
      rw [lane_perm h hperm, lane_step howned, issueLoop_succ n index before after x rest hindex,
        ← List.singleton_append, List.filter_append, List.prefix_append_right_inj]
      cases rest with
      | nil =>
        have hnext : Owned owner (before ++ after) := by
          have hstep := howned.step
          rwa [again, List.append_nil] at hstep
        rw [again, List.append_nil]
        exact ih index hnext
      | cons next rest =>
        have hback : (before ++ (next, rest) :: after).Perm
            (before ++ after ++ again (next :: rest)) :=
          List.perm_middle.trans (List.perm_append_singleton _ _).symm
        have hnext := howned.step.perm hback.symm
        rw [← lane_perm hnext hback]
        exact ih (index + 1) hnext

/-- The index points at the group whose turn it is: when a group runs out and two or more are left,
the index has gone around the array a multiple of their number. Counted along the turns, `index` is
the number of picks that left their group with an item. -/
def InTurn : Nat → Nat → List (ItemGroup α) → Prop
  | 0, _, _ => True
  | _ + 1, _, [] => True
  | n + 1, index, (_, []) :: queue =>
    (n = 0 ∨ queue.length ≤ 1 ∨ queue.length ∣ index / (queue.length + 1)) ∧ InTurn n index queue
  | n + 1, index, (_, next :: rest) :: queue => InTurn n (index + 1) (queue ++ [(next, rest)])

/-- Rotating by the index leads past as many groups as there were rounds. -/
theorem rotate_spliced {before after : List (ItemGroup α)} {index : Nat}
    (hindex : index % (before.length + after.length + 1) = before.length)
    (h : (before ++ after).length ∣ index / ((before ++ after).length + 1)) :
    (before ++ after).rotate index = after ++ before := by
  rw [List.length_append] at h
  obtain ⟨c, hc⟩ := h
  have hwhole : index = before.length + (before.length + after.length) *
      (c * (before.length + after.length + 1)) := by
    have hdiv := Nat.div_add_mod index (before.length + after.length + 1)
    rw [hindex, hc] at hdiv
    rw [← hdiv]
    ring
  rw [← List.rotate_mod, hwhole, List.length_append, Nat.add_mul_mod_self_left,
    ← List.length_append, List.rotate_mod, List.rotate_append_length_eq]

theorem rotate_few {before after : List (ItemGroup α)} {index : Nat}
    (h : (before ++ after).length ≤ 1) : (before ++ after).rotate index = after ++ before := by
  rcases Nat.le_one_iff_eq_zero_or_eq_one.mp h with hzero | hone
  · obtain ⟨rfl, rfl⟩ := List.append_eq_nil_iff.mp (List.length_eq_zero_iff.mp hzero)
    exact List.rotate_nil index
  · rw [← List.rotate_mod, hone, Nat.mod_one, List.rotate_zero]
    rcases List.append_eq_singleton_iff.mp (List.length_eq_one_iff.mp hone).choose_spec with
      ⟨rfl, hafter⟩ | ⟨hbefore, rfl⟩
    · rw [List.append_nil, List.nil_append]
    · rw [List.append_nil, List.nil_append]

theorem issueLoop_head (n index : Nat) (groups : List (ItemGroup α)) :
    (issueLoop (n + 1) index groups).head? = groups[index % groups.length]?.map (·.1) := by
  by_cases hnil : groups = []
  · subst hnil
    rfl
  · obtain ⟨before, x, rest, after, rfl, hindex⟩ := split_at_index index hnil
    rw [issueLoop_succ n index before after x rest hindex, List.head?_cons, List.length_append,
      List.length_cons, ← Nat.add_assoc, hindex, List.getElem?_append_right (Nat.le_refl _),
      Nat.sub_self]
    rfl

theorem takeTurns_head (n : Nat) (queue : List (ItemGroup α)) :
    (takeTurns (n + 1) queue).head? = queue.head?.map (·.1) := by
  cases queue with
  | nil => rfl
  | cons g queue => rfl

theorem firsts_nodup {groups : List (ItemGroup α)} (h : (items groups).Nodup) :
    (groups.map (·.1)).Nodup := by
  refine h.sublist ?_
  induction groups with
  | nil => exact List.Sublist.slnil
  | cons g groups ih =>
    rw [List.map_cons, items_cons]
    exact (ih (h.sublist (List.sublist_append_right (g.1 :: g.2) _))).cons_cons g.1 |>.trans
      ((List.sublist_append_right g.2 (items groups)).cons_cons g.1)

/-- An index that went around otherwise points at another group. -/
theorem around_of_head {before after : List (ItemGroup α)} {n index : Nat}
    (hindex : index % (before.length + after.length + 1) = before.length)
    (hnodup : (items (before ++ after)).Nodup) (hleft : 1 < (before ++ after).length)
    (h : issueLoop (n + 1) index (before ++ after) = takeTurns (n + 1) (after ++ before)) :
    (before ++ after).length ∣ index / ((before ++ after).length + 1) := by
  have hpos : 0 < (before ++ after).length := by omega
  have hheads := congrArg List.head? h
  have hturn : (after ++ before).head? =
      (before ++ after)[before.length % (before ++ after).length]? := by
    rw [← List.head?_rotate (Nat.mod_lt _ hpos), List.rotate_mod, List.rotate_append_length_eq]
  rw [issueLoop_head, takeTurns_head, hturn, ← List.getElem?_map, ← List.getElem?_map] at hheads
  have hbound : index % (before ++ after).length <
      ((before ++ after).map fun g => g.1).length := by
    rw [List.length_map]
    exact Nat.mod_lt _ hpos
  have hsame : index % (before ++ after).length = before.length % (before ++ after).length :=
    (List.getElem?_inj hbound (firsts_nodup hnodup)).mp hheads
  have hwhole := Nat.div_add_mod index (before.length + after.length + 1)
  rw [hindex, ← List.length_append] at hwhole
  have hdvd : (before ++ after).length ∣ index - before.length :=
    Nat.dvd_of_mod_eq_zero (Nat.sub_mod_eq_zero_of_mod_eq hsame)
  have hrounds : index - before.length = (before ++ after).length *
      (index / ((before ++ after).length + 1)) + index / ((before ++ after).length + 1) := by
    rw [← Nat.succ_mul]
    exact Nat.sub_eq_of_eq_add hwhole.symm
  rw [hrounds] at hdvd
  exact (Nat.dvd_add_right (Nat.dvd_mul_right _ _)).mp hdvd

/-- **The loop takes the groups in turns exactly when the index points at them in turn.** -/
theorem issueLoop_iff (n index : Nat) {groups : List (ItemGroup α)} (h : (items groups).Nodup) :
    issueLoop n index groups = takeTurns n (groups.rotate index) ↔
      InTurn n index (groups.rotate index) := by
  induction n generalizing index groups with
  | zero => simp [issueLoop, takeTurns, InTurn]
  | succ n ih =>
    by_cases hnil : groups = []
    · subst hnil
      simp [issueLoop, takeTurns, InTurn]
    · obtain ⟨before, x, rest, after, rfl, hindex⟩ := split_at_index index hnil
      have hrotate (g : ItemGroup α) :
          (before ++ g :: after).rotate index = g :: (after ++ before) := by
        have hlength : (before ++ g :: after).length = before.length + after.length + 1 := by
          rw [List.length_append, List.length_cons, Nat.add_assoc]
        rw [← List.rotate_mod, hlength, hindex, List.rotate_append_length_eq]
        rfl
      rw [hrotate (x, rest), issueLoop_succ n index before after x rest hindex]
      cases rest with
      | nil =>
        have hsub : (items (before ++ after)).Nodup := by
          refine h.sublist ?_
          rw [items_append, items_append]
          exact (List.sublist_append_right [x] _).append_left _
        have hlength : (after ++ before).length = (before ++ after).length :=
          List.perm_append_comm.length_eq
        rw [takeTurns, again, List.append_nil, InTurn, List.cons_inj_right, hlength]
        by_cases haround : (before ++ after).length ≤ 1 ∨
            (before ++ after).length ∣ index / ((before ++ after).length + 1)
        · have hqueue : (before ++ after).rotate index = after ++ before := by
            rcases haround with hfew | hdvd
            · exact rotate_few hfew
            · exact rotate_spliced hindex hdvd
          rw [← hqueue]
          exact (ih index hsub).trans (and_iff_right (Or.inr haround)).symm
        · cases n with
          | zero => simp [issueLoop, takeTurns, InTurn]
          | succ n =>
            rw [not_or] at haround
            refine ⟨fun heq => ?_, fun hturn => ?_⟩
            · exact absurd (around_of_head hindex hsub (Nat.lt_of_not_le haround.1) heq) haround.2
            · exact absurd (hturn.1.resolve_left (Nat.succ_ne_zero n)) (not_or.mpr haround)
      | cons next rest =>
        have hsub : (items (before ++ (next, rest) :: after)).Nodup := by
          refine h.sublist ?_
          rw [items_append, items_append]
          exact (List.sublist_cons_self x _).append_left _
        have hback : (before ++ (next, rest) :: after).rotate (index + 1) =
            after ++ before ++ [(next, rest)] := by
          rw [← List.rotate_rotate, hrotate (next, rest), List.rotate_cons_succ, List.rotate_zero]
        rw [takeTurns, again, InTurn, List.cons_inj_right, ← hback]
        exact ih (index + 1) hsub

end Loop

/-! ## The groups -/

section Groups

variable {campaigns : List ScriptCampaign}

/-- Each group is under its account's key. -/
structure Keyed (campaigns : List ScriptCampaign)
    (grouped : List (String × ItemGroup ScriptDelivery)) : Prop where
  first : ∀ entry ∈ grouped, customerOf campaigns entry.2.1 = entry.1
  rest : ∀ entry ∈ grouped, ∀ d ∈ entry.2.2, customerOf campaigns d = entry.1
  distinct : (grouped.map (·.1)).Nodup

theorem Keyed.owned {grouped : List (String × ItemGroup ScriptDelivery)}
    (h : Keyed campaigns grouped) : Owned (customerOf campaigns) (grouped.map (·.2)) := by
  constructor
  · intro g hg d hd
    obtain ⟨entry, hentry, rfl⟩ := List.mem_map.mp hg
    rw [h.rest entry hentry d hd, h.first entry hentry]
  · have hkeys : (grouped.map (·.2)).map (fun g => customerOf campaigns g.1) =
        grouped.map (·.1) := by
      rw [List.map_map]
      exact List.map_congr_left h.first
    rw [hkeys]
    exact h.distinct

theorem pushGroup_keys (key : String) (d : ScriptDelivery)
    (grouped : List (String × ItemGroup ScriptDelivery)) :
    ∀ k ∈ (pushGroup key d grouped).map (·.1), k = key ∨ k ∈ grouped.map (·.1) := by
  induction grouped with
  | nil => exact fun k hk => Or.inl (List.mem_singleton.mp hk)
  | cons entry grouped ih =>
    obtain ⟨k', g⟩ := entry
    intro k hk
    rw [pushGroup] at hk
    split at hk
    · exact Or.inr hk
    · rcases List.mem_cons.mp hk with rfl | hk
      · exact Or.inr List.mem_cons_self
      · exact (ih k hk).imp id (List.mem_cons_of_mem _)

theorem Keyed.push {grouped : List (String × ItemGroup ScriptDelivery)} {key : String}
    {d : ScriptDelivery} (hd : customerOf campaigns d = key) (h : Keyed campaigns grouped) :
    Keyed campaigns (pushGroup key d grouped) := by
  induction grouped with
  | nil =>
    refine ⟨fun entry hentry => ?_, fun entry hentry => ?_, List.nodup_singleton _⟩
    · obtain rfl := List.mem_singleton.mp hentry
      exact hd
    · obtain rfl := List.mem_singleton.mp hentry
      exact fun d' hd' => absurd hd' List.not_mem_nil
  | cons entry grouped ih =>
    obtain ⟨k, g⟩ := entry
    obtain ⟨hfresh, hdistinct⟩ := List.nodup_cons.mp h.distinct
    have htail := ih ⟨fun entry hentry => h.first entry (List.mem_cons_of_mem _ hentry),
      fun entry hentry => h.rest entry (List.mem_cons_of_mem _ hentry), hdistinct⟩
    have hfirst := h.first (k, g) List.mem_cons_self
    have hrest := h.rest (k, g) List.mem_cons_self
    rw [pushGroup]
    split
    · rename_i hk
      refine ⟨fun entry hentry => ?_, fun entry hentry d' hd' => ?_, h.distinct⟩
      · rcases List.mem_cons.mp hentry with rfl | hentry
        · exact hfirst
        · exact h.first entry (List.mem_cons_of_mem _ hentry)
      · rcases List.mem_cons.mp hentry with rfl | hentry
        · rcases List.mem_append.mp hd' with hd' | hd'
          · exact hrest d' hd'
          · rw [List.mem_singleton.mp hd', hd, hk]
        · exact h.rest entry (List.mem_cons_of_mem _ hentry) d' hd'
    · rename_i hk
      refine ⟨fun entry hentry => ?_, fun entry hentry => ?_,
        List.nodup_cons.mpr ⟨?_, htail.distinct⟩⟩
      · rcases List.mem_cons.mp hentry with rfl | hentry
        · exact hfirst
        · exact htail.first entry hentry
      · rcases List.mem_cons.mp hentry with rfl | hentry
        · exact hrest
        · exact htail.rest entry hentry
      · exact fun hmem => (pushGroup_keys key d grouped k hmem).elim hk hfresh

/-- A delivery is added at the end of its account's lane. -/
theorem lane_pushGroup {grouped : List (String × ItemGroup ScriptDelivery)} {key : String}
    {d : ScriptDelivery} (hd : customerOf campaigns d = key) (h : Keyed campaigns grouped)
    (k : String) : lane (customerOf campaigns) k ((pushGroup key d grouped).map (·.2)) =
      lane (customerOf campaigns) k (grouped.map (·.2)) ++
        [d].filter fun d => customerOf campaigns d = k := by
  induction grouped with
  | nil => rfl
  | cons entry grouped ih =>
    obtain ⟨k', g⟩ := entry
    obtain ⟨hfresh, hdistinct⟩ := List.nodup_cons.mp h.distinct
    have htail := ih ⟨fun entry hentry => h.first entry (List.mem_cons_of_mem _ hentry),
      fun entry hentry => h.rest entry (List.mem_cons_of_mem _ hentry), hdistinct⟩
    rw [pushGroup]
    split
    · rename_i hk
      have hnone : lane (customerOf campaigns) k (grouped.map (·.2)) = [] ∨
          [d].filter (fun d => customerOf campaigns d = k) = [] := by
        by_cases hkk : k = key
        · left
          refine List.filter_eq_nil_iff.mpr fun d' hd' => ?_
          obtain ⟨g', hg', hd'⟩ := List.mem_flatMap.mp hd'
          obtain ⟨entry, hentry, rfl⟩ := List.mem_map.mp hg'
          have howner : customerOf campaigns d' = entry.1 := by
            rcases List.mem_cons.mp hd' with rfl | hd'
            · exact h.first entry (List.mem_cons_of_mem _ hentry)
            · exact h.rest entry (List.mem_cons_of_mem _ hentry) d' hd'
          rw [decide_eq_true_eq, howner, hkk, ← hk]
          exact fun heq => hfresh (List.mem_map.mpr ⟨entry, hentry, heq⟩)
        · right
          rw [List.filter_singleton, hd, decide_eq_false (Ne.symm hkk)]
          rfl
      rw [List.map_cons, List.map_cons, lane_cons, lane_cons, ← List.cons_append,
        List.filter_append]
      rcases hnone with hnone | hnone
      · rw [hnone, List.append_nil, List.append_nil]
      · rw [hnone, List.append_nil, List.append_nil]
    · rw [List.map_cons, List.map_cons, lane_cons, lane_cons, htail, List.append_assoc]

/-- The groups are the eligible deliveries, account by account. -/
theorem groupedDeliveries_spec {eligible : List ScriptDelivery}
    (h : ∀ d ∈ eligible, (campaignById campaigns d.campaignRecordId).isSome) :
    Keyed campaigns (groupedDeliveries campaigns eligible) ∧
      ∀ k, lane (customerOf campaigns) k ((groupedDeliveries campaigns eligible).map (·.2)) =
        eligible.filter fun d => customerOf campaigns d = k := by
  induction eligible using List.reverseRecOn with
  | nil => exact ⟨⟨nofun, nofun, List.nodup_nil⟩, fun k => rfl⟩
  | append_singleton eligible d ih =>
    obtain ⟨hkeyed, hlane⟩ := ih fun d' hd' => h d' (List.mem_append_left _ hd')
    obtain ⟨c, hc⟩ := Option.isSome_iff_exists.mp
      (h d (List.mem_append_right _ List.mem_cons_self))
    have howner : customerOf campaigns d = c.account.customerId := by
      unfold customerOf
      rw [hc]
      rfl
    have hpush : groupedDeliveries campaigns (eligible ++ [d]) =
        pushGroup c.account.customerId d (groupedDeliveries campaigns eligible) := by
      unfold groupedDeliveries
      rw [List.foldl_append, List.foldl_cons, List.foldl_nil, hc]
    rw [hpush]
    refine ⟨hkeyed.push howner, fun k => ?_⟩
    rw [lane_pushGroup howner hkeyed, hlane, List.filter_append]

end Groups

/-! ## What is picked -/

section Issue

variable (s : DeliveryState) (campaigns : List ScriptCampaign) (shardId : String) (now : Int)

/-- At every prefix of the candidates, two accounts that still have deliveries left differ by one at
most. -/
def FairAtEveryPrefix (campaigns : List ScriptCampaign)
    (eligible candidates : List ScriptDelivery) : Prop :=
  ∀ n, ∀ u ∈ eligible, ∀ v ∈ eligible, u ∉ candidates.take n → v ∉ candidates.take n →
    share (customerOf campaigns) (candidates.take n) (customerOf campaigns u) ≤
      share (customerOf campaigns) (candidates.take n) (customerOf campaigns v) + 1

theorem eligible_campaign {s : DeliveryState} {campaigns : List ScriptCampaign} {shardId : String}
    {now : Int} {customerId : String} {d : ScriptDelivery}
    (h : d ∈ eligibleCandidates s campaigns shardId now customerId) :
    (campaignById campaigns d.campaignRecordId).isSome := by
  have hkept := (List.mem_filter.mp ((List.mem_insertionSort _).mp h)).2
  unfold isEligible at hkept
  split at hkept
  · exact absurd hkept Bool.false_ne_true
  · cases hc : campaignById campaigns d.campaignRecordId with
    | none =>
      rw [hc] at hkept
      exact absurd hkept Bool.false_ne_true
    | some c => rfl

theorem eligible_nodup (customerId : String) :
    (eligibleCandidates s campaigns shardId now customerId).Nodup :=
  (List.perm_insertionSort _ _).nodup_iff.mpr ((List.Nodup.of_map _ s.one).filter _)

theorem eligible_sorted (customerId : String) :
    (eligibleCandidates s campaigns shardId now customerId).Pairwise
      fun left right => left.since ≤ right.since :=
  List.pairwise_insertionSort _ _

/-- The groups are the eligible deliveries, account by account. -/
theorem deliveryGroups_spec (customerId : String) :
    Owned (customerOf campaigns)
        (deliveryGroups campaigns (eligibleCandidates s campaigns shardId now customerId)) ∧
      ∀ k, lane (customerOf campaigns) k
          (deliveryGroups campaigns (eligibleCandidates s campaigns shardId now customerId)) =
        (eligibleCandidates s campaigns shardId now customerId).filter
          fun d => customerOf campaigns d = k := by
  obtain ⟨hkeyed, hlane⟩ := groupedDeliveries_spec fun d hd => eligible_campaign hd
  have hperm := List.perm_insertionSort (fun left right => left.1.since ≤ right.1.since)
    ((groupedDeliveries campaigns
      (eligibleCandidates s campaigns shardId now customerId)).map (·.2))
  refine ⟨hkeyed.owned.perm hperm.symm, fun k => ?_⟩
  rw [← hlane k]
  exact lane_perm (hkeyed.owned.perm hperm.symm) hperm k

/-- **What `issueJobs` picks** without a customer filter: each eligible delivery at most once, the
longest pending of an account first. The accounts take turns exactly when the index points at them
in turn, and then the choice is fair at every prefix. -/
theorem issue_fair (maximumJobs : JsNumber) (requested : Option String) (h : digits requested = "")
    {eligible candidates : List ScriptDelivery}
    (heligible : eligible = eligibleCandidates s campaigns shardId now "")
    (hcandidates : candidates = issueCandidates s campaigns shardId now maximumJobs requested) :
    (candidates.Nodup ∧ ∀ d ∈ candidates, d ∈ eligible) ∧
      (eligible.Pairwise (fun left right => left.since ≤ right.since) ∧ ∀ customerId,
        candidates.filter (fun d => customerOf campaigns d = customerId) <+:
          eligible.filter fun d => customerOf campaigns d = customerId) ∧
      (candidates = takeTurns (candidateLimit maximumJobs) (deliveryGroups campaigns eligible) ↔
        InTurn (candidateLimit maximumJobs) 0 (deliveryGroups campaigns eligible)) ∧
      (InTurn (candidateLimit maximumJobs) 0 (deliveryGroups campaigns eligible) →
        FairAtEveryPrefix campaigns eligible candidates) := by
  obtain ⟨howned, hlane⟩ := deliveryGroups_spec s campaigns shardId now ""
  have hnodup := eligible_nodup s campaigns shardId now ""
  have hsorted := eligible_sorted s campaigns shardId now ""
  rw [← heligible] at howned hlane hnodup hsorted
  have hloop : candidates =
      issueLoop (candidateLimit maximumJobs) 0 (deliveryGroups campaigns eligible) := by
    rw [hcandidates, heligible]
    unfold issueCandidates
    dsimp only
    rw [h, if_neg (by decide)]
  have horder (customerId : String) :
      candidates.filter (fun d => customerOf campaigns d = customerId) <+:
        eligible.filter fun d => customerOf campaigns d = customerId := by
    rw [hloop, ← hlane]
    exact issueLoop_prefix _ 0 howned customerId
  have hitems (d : ScriptDelivery) :
      d ∈ items (deliveryGroups campaigns eligible) ↔ d ∈ eligible := by
    rw [← @mem_lane _ _ (customerOf campaigns), hlane, List.mem_filter]
    exact and_iff_left (decide_eq_true rfl)
  have hdistinct : (items (deliveryGroups campaigns eligible)).Nodup := by
    refine @nodup_of_lanes _ _ (customerOf campaigns) _ _ fun k => ?_
    have hk := hlane k
    unfold lane at hk
    rw [hk]
    exact hnodup.filter _
  have hturns := issueLoop_iff (candidateLimit maximumJobs) 0 hdistinct
  rw [List.rotate_zero, ← hloop] at hturns
  refine ⟨⟨@nodup_of_lanes _ _ (customerOf campaigns) _ _ fun k =>
    (hnodup.filter _).sublist (horder k).sublist, fun d hd => ?_⟩, ⟨hsorted, horder⟩, hturns,
    fun hinTurn n u hu v hv hu' hv' => ?_⟩
  · have hmem := (horder (customerOf campaigns d)).subset
      (List.mem_filter.mpr ⟨hd, decide_eq_true rfl⟩)
    exact (List.mem_filter.mp hmem).1
  · rw [hturns.mpr hinTurn] at hu' hv' ⊢
    exact @takeTurns_fair _ _ _ _ _ _ n [] howned (level_nil _) u v ((hitems u).mpr hu)
      ((hitems v).mpr hv) hu' hv'

end Issue

/-! ### Three accounts -/

/-- A campaign of an account. -/
def campaignOf (id customerId : String) : ScriptCampaign where
  id := id
  customerId := some customerId

/-- The first account has four campaigns, the others two each. -/
def eightCampaigns : List ScriptCampaign :=
  [campaignOf "a1" "1", campaignOf "b1" "2", campaignOf "c1" "3", campaignOf "a2" "1",
    campaignOf "b2" "2", campaignOf "c2" "3", campaignOf "a3" "1", campaignOf "a4" "1"]

/-- A delivery for each of them, captured one after the other. -/
def eightDeliveries : DeliveryState where
  deliveries := [⟨"a1", "", 1, .pending, none, none⟩, ⟨"b1", "", 2, .pending, none, none⟩,
    ⟨"c1", "", 3, .pending, none, none⟩, ⟨"a2", "", 4, .pending, none, none⟩,
    ⟨"b2", "", 5, .pending, none, none⟩, ⟨"c2", "", 6, .pending, none, none⟩,
    ⟨"a3", "", 7, .pending, none, none⟩, ⟨"a4", "", 8, .pending, none, none⟩]

theorem issue_fair_five : InTurn (candidateLimit (.finite 5)) 0 (deliveryGroups eightCampaigns
      (eligibleCandidates eightDeliveries eightCampaigns "legacy" 1000 "")) ∧
    FairAtEveryPrefix eightCampaigns
      (eligibleCandidates eightDeliveries eightCampaigns "legacy" 1000 "")
      (issueCandidates eightDeliveries eightCampaigns "legacy" 1000 (.finite 5) none) := by
  have h := issue_fair eightDeliveries eightCampaigns "legacy" 1000 (.finite 5) none (by decide) rfl
    rfl
  have hturns := h.2.2.1.mp (by decide +kernel)
  exact ⟨hturns, h.2.2.2 hturns⟩

/-- **The third account is passed over** when the second one runs out, and the first one is two
deliveries ahead of it. -/
theorem shrinking_array_is_unfair : ¬FairAtEveryPrefix eightCampaigns
    (eligibleCandidates eightDeliveries eightCampaigns "legacy" 1000 "")
    (issueCandidates eightDeliveries eightCampaigns "legacy" 1000 (.finite 500) none) := by
  intro h
  have hfair := h 6 ⟨"a4", "", 8, .pending, none, none⟩ (by decide +kernel)
    ⟨"c2", "", 6, .pending, none, none⟩ (by decide +kernel) (by decide +kernel) (by decide +kernel)
  exact absurd hfair (by decide +kernel)

end LinkSuffix.ScriptFleet
