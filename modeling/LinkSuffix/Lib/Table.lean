import Mathlib.Data.List.Forall2
import Mathlib.Data.List.Nodup

/-!
# Keyed tables as lists of rows

A table is a list of rows, and a key is a column whose values are distinct. `updateWhere` is the
SQL `UPDATE … SET f WHERE p`, `updateKey` its form for one key, `upsertKey` an insert that replaces
the row with its key. What a statement does to a table is
read row by row: `List.Forall₂ R rows rows'` says that each row changed as `R` allows.

* `key_unique`: rows with one key are one row.
* `countP_updateKey`: a count after one keyed update.
* `foldl_updateKey`: a loop of keyed updates touches each row once (`rowUpdate`).
-/

namespace LinkSuffix.Lib

variable {α β κ : Type} {R S T : α → α → Prop} {rows rows' rows'' : List α}

/-! ## Keys -/

/-- Rows with one key are one row. -/
theorem key_unique {key : α → κ} (h : (rows.map key).Nodup) {a b : α} (ha : a ∈ rows)
    (hb : b ∈ rows) (hab : key a = key b) : a = b :=
  List.inj_on_of_nodup_map h ha hb hab

theorem find?_key_some [DecidableEq κ] {key : α → κ} {k : κ} {a : α}
    (h : rows.find? (fun r => key r = k) = some a) : a ∈ rows ∧ key a = k :=
  ⟨List.mem_of_find?_eq_some h, by simpa using List.find?_some h⟩

/-- Looking a key up finds the row that has it. -/
theorem find?_key_eq_some_iff [DecidableEq κ] {key : α → κ} (h : (rows.map key).Nodup) {k : κ}
    {a : α} : rows.find? (fun r => key r = k) = some a ↔ a ∈ rows ∧ key a = k := by
  refine ⟨find?_key_some, ?_⟩
  rintro ⟨ha, hk⟩
  cases hf : rows.find? fun r => decide (key r = k) with
  | none => exact absurd hk (by simpa using List.find?_eq_none.mp hf a ha)
  | some b =>
    obtain ⟨hb, hbk⟩ := find?_key_some hf
    rw [key_unique h hb ha (hbk.trans hk.symm)]

/-! ## Updates -/

/-- `UPDATE … SET f WHERE p`. -/
def updateWhere (p : α → Bool) (f : α → α) (rows : List α) : List α :=
  rows.map fun r => if p r then f r else r

/-- `UPDATE … SET f WHERE key = k`. -/
def updateKey [DecidableEq κ] (key : α → κ) (k : κ) (f : α → α) (rows : List α) : List α :=
  updateWhere (fun r => key r = k) f rows

theorem map_updateWhere {p : α → Bool} {f : α → α} {col : α → β}
    (h : ∀ r, p r = true → col (f r) = col r) :
    (updateWhere p f rows).map col = rows.map col := by
  unfold updateWhere
  rw [List.map_map]
  refine List.map_congr_left fun r _ => ?_
  simp only [Function.comp_apply]
  split
  · rename_i hp
    exact h r hp
  · rfl

theorem mem_updateWhere {p : α → Bool} {f : α → α} {r' : α} :
    r' ∈ updateWhere p f rows ↔
      ∃ r ∈ rows, (p r = true ∧ r' = f r) ∨ (p r = false ∧ r' = r) := by
  unfold updateWhere
  rw [List.mem_map]
  refine exists_congr fun r => and_congr_right fun _ => ?_
  cases p r with
  | true => simp [eq_comm]
  | false => simp [eq_comm]

theorem updateWhere_congr {p q : α → Bool} {f : α → α} (h : ∀ r ∈ rows, p r = q r) :
    updateWhere p f rows = updateWhere q f rows := by
  unfold updateWhere
  exact List.map_congr_left fun r hr => by rw [h r hr]

/-- Two updates by one idempotent function are one update. -/
theorem updateWhere_updateWhere {p q : α → Bool} {f : α → α} (hf : ∀ r, f (f r) = f r)
    (hq : ∀ r, q (f r) = q r) :
    updateWhere q f (updateWhere p f rows) = updateWhere (fun r => p r || q r) f rows := by
  unfold updateWhere
  rw [List.map_map]
  refine List.map_congr_left fun r _ => ?_
  cases hp : p r with
  | true =>
    simp only [Function.comp_apply, hp, if_true, Bool.true_or, hq, hf]
    split <;> rfl
  | false => simp only [Function.comp_apply, hp, Bool.false_eq_true, if_false, Bool.false_or]

theorem updateWhere_false {f : α → α} : updateWhere (fun _ => false) f rows = rows := by
  simp [updateWhere]

/-- What a selection sees of an update: the selected rows that the update leaves alone. -/
theorem filter_map_of_kept {p q : α → Bool} {f : α → α} (hp : ∀ r ∈ rows, p (f r) = (p r && q r))
    (hf : ∀ r ∈ rows, p r = true → q r = true → f r = r) :
    (rows.map f).filter p = (rows.filter p).filter q := by
  induction rows with
  | nil => rfl
  | cons r rows ih =>
    have hrest := ih (fun r hr => hp r (List.mem_cons_of_mem _ hr))
      fun r hr => hf r (List.mem_cons_of_mem _ hr)
    have hhead := hp r List.mem_cons_self
    have hkept := hf r List.mem_cons_self
    rw [List.map_cons, List.filter_cons, List.filter_cons, hhead, hrest]
    cases hpr : p r with
    | false => simp
    | true =>
      cases hqr : q r with
      | false => simp [hqr]
      | true => simp [hqr, hkept hpr hqr]

/-! ## Counting rows -/

theorem updateKey_of_notMem [DecidableEq κ] {key : α → κ} {k : κ} {f : α → α}
    (h : k ∉ rows.map key) : updateKey key k f rows = rows := by
  unfold updateKey updateWhere
  refine (List.map_congr_left fun r hr => ?_).trans (List.map_id rows)
  have hne : key r ≠ k := fun hk => h (List.mem_map.mpr ⟨r, hr, hk⟩)
  simp [hne]

/-- A keyed lookup after a keyed update that keeps the key. -/
theorem find?_updateKey [DecidableEq κ] {key : α → κ} {f : α → α} (hf : ∀ r, key (f r) = key r)
    (k k' : κ) : (updateKey key k f rows).find? (fun r => key r = k') =
      (rows.find? fun r => key r = k').map fun r => if key r = k then f r else r := by
  have hkey : ∀ r, key (if key r = k then f r else r) = key r := by
    intro r
    split
    · exact hf r
    · rfl
  unfold updateKey updateWhere
  rw [List.find?_map]
  simp only [Function.comp_def, decide_eq_true_eq, hkey]

/-- A count after one keyed update: the other rows, and the updated one. -/
theorem countP_updateKey [DecidableEq κ] {key : α → κ} {p : α → Bool} {f : α → α} {a : α}
    (hkeys : (rows.map key).Nodup) (ha : a ∈ rows) :
    (updateKey key (key a) f rows).countP p =
      rows.countP (fun r => p r && key r ≠ key a) + if p (f a) then 1 else 0 := by
  induction rows with
  | nil => exact absurd ha List.not_mem_nil
  | cons r rows ih =>
    obtain ⟨hfresh, hrows⟩ := List.nodup_cons.mp hkeys
    by_cases hr : key r = key a
    · obtain rfl : r = a := by
        rcases List.mem_cons.mp ha with rfl | hmem
        · rfl
        · exact absurd (List.mem_map.mpr ⟨a, hmem, hr.symm⟩) hfresh
      have hcount : rows.countP (fun r' => p r' && key r' ≠ key r) = rows.countP p := by
        refine List.countP_congr fun r' hr' => ?_
        have hne : key r' ≠ key r := fun hk => hfresh (List.mem_map.mpr ⟨r', hr', hk⟩)
        simp [hne]
      have hhead : updateKey key (key r) f (r :: rows) = f r :: updateKey key (key r) f rows := by
        simp [updateKey, updateWhere]
      rw [hhead, updateKey_of_notMem hfresh, List.countP_cons, List.countP_cons, hcount]
      simp
    · have hmem : a ∈ rows := by
        rcases List.mem_cons.mp ha with rfl | hmem
        · exact absurd rfl hr
        · exact hmem
      have hhead : updateKey key (key a) f (r :: rows) = r :: updateKey key (key a) f rows := by
        simp [updateKey, updateWhere, hr]
      rw [hhead, List.countP_cons, List.countP_cons, ih hrows hmem]
      simp only [hr, ne_eq, not_false_eq_true, decide_true, Bool.and_true]
      omega

/-- A count, with one row of it apart. -/
theorem countP_split [DecidableEq κ] {key : α → κ} {p : α → Bool} {a : α}
    (hkeys : (rows.map key).Nodup) (ha : a ∈ rows) :
    rows.countP p = rows.countP (fun r => p r && key r ≠ key a) + if p a then 1 else 0 := by
  have h := countP_updateKey (p := p) (f := id) hkeys ha
  have hid : updateKey key (key a) id rows = rows := by simp [updateKey, updateWhere]
  rwa [hid] at h

/-! ## Upserts -/

/-- `INSERT … ON CONFLICT (key) DO UPDATE`: the row replaces the one with its key. -/
def upsertKey [DecidableEq κ] (key : α → κ) (row : α) (rows : List α) : List α :=
  if key row ∈ rows.map key then updateKey key (key row) (fun _ => row) rows else rows ++ [row]

theorem mem_upsertKey [DecidableEq κ] {key : α → κ} {row r : α} :
    r ∈ upsertKey key row rows ↔ r = row ∨ (r ∈ rows ∧ key r ≠ key row) := by
  unfold upsertKey
  split
  · rename_i hmem
    unfold updateKey
    rw [mem_updateWhere]
    constructor
    · rintro ⟨old, hold, ⟨-, rfl⟩ | ⟨hother, rfl⟩⟩
      · exact Or.inl rfl
      · exact Or.inr ⟨hold, by simpa using hother⟩
    · rintro (rfl | ⟨hold, hother⟩)
      · obtain ⟨old, hold, hkey⟩ := List.mem_map.mp hmem
        exact ⟨old, hold, Or.inl ⟨by simpa using hkey, rfl⟩⟩
      · exact ⟨r, hold, Or.inr ⟨by simpa using hother, rfl⟩⟩
  · rename_i hmem
    rw [List.mem_append, List.mem_singleton]
    constructor
    · rintro (hold | rfl)
      · exact Or.inr ⟨hold, fun hkey => hmem (List.mem_map.mpr ⟨r, hold, hkey⟩)⟩
      · exact Or.inl rfl
    · rintro (rfl | ⟨hold, -⟩)
      · exact Or.inr rfl
      · exact Or.inl hold

/-- A new row at the end repeats no value of a column in which it is fresh. -/
theorem nodup_map_concat {key : α → κ} {row : α} (h : (rows.map key).Nodup)
    (hnew : key row ∉ rows.map key) : ((rows ++ [row]).map key).Nodup := by
  rw [List.map_append, List.map_singleton]
  exact h.append (List.nodup_singleton _) (List.disjoint_singleton.mpr hnew)

theorem nodup_upsertKey [DecidableEq κ] {key : α → κ} (row : α) (h : (rows.map key).Nodup) :
    ((upsertKey key row rows).map key).Nodup := by
  unfold upsertKey
  split
  · unfold updateKey
    rw [map_updateWhere fun r hr => (of_decide_eq_true hr).symm]
    exact h
  · rename_i hmem
    exact nodup_map_concat h hmem

theorem find?_upsertKey_self [DecidableEq κ] {key : α → κ} {row : α} :
    (upsertKey key row rows).find? (fun r => key r = key row) = some row := by
  unfold upsertKey
  split
  · rename_i hmem
    induction rows with
    | nil => simp at hmem
    | cons r rows ih =>
      simp only [updateKey, updateWhere, List.map_cons, decide_eq_true_eq] at ih ⊢
      by_cases hr : key r = key row
      · simp [hr]
      · rw [if_neg hr, List.find?_cons_of_neg (by simpa using hr)]
        refine ih ?_
        rcases List.mem_cons.mp hmem with h | h
        · exact absurd h.symm hr
        · exact h
  · rename_i hmem
    have hnone : rows.find? (fun r => key r = key row) = none := by
      refine List.find?_eq_none.mpr fun r hr => ?_
      have hne : key r ≠ key row := fun hk => hmem (List.mem_map.mpr ⟨r, hr, hk⟩)
      simpa using hne
    rw [List.find?_append, hnone]
    simp

theorem find?_upsertKey_ne [DecidableEq κ] {key : α → κ} {row : α} {k : κ} (hk : k ≠ key row) :
    (upsertKey key row rows).find? (fun r => key r = k) = rows.find? (fun r => key r = k) := by
  unfold upsertKey
  split
  · rename_i hmem
    clear hmem
    induction rows with
    | nil => rfl
    | cons r rows ih =>
      simp only [updateKey, updateWhere, List.map_cons, decide_eq_true_eq] at ih ⊢
      by_cases hr : key r = key row
      · rw [if_pos hr, List.find?_cons_of_neg (by simpa using hk.symm),
          List.find?_cons_of_neg (by simpa [hr] using hk.symm), ih]
      · rw [if_neg hr, List.find?_cons, List.find?_cons, ih]
  · rw [List.find?_append]
    cases rows.find? fun r => decide (key r = k) with
    | some a => rfl
    | none => simpa using hk.symm

/-! ## Row by row -/

theorem forall₂_map_iff {f : α → α} :
    List.Forall₂ R rows (rows.map f) ↔ ∀ r ∈ rows, R r (f r) := by
  rw [List.forall₂_map_right_iff, List.forall₂_same]

theorem forall₂_refl (h : ∀ r, R r r) : List.Forall₂ R rows rows :=
  List.forall₂_same.mpr fun r _ => h r

theorem forall₂_updateWhere {p : α → Bool} {f : α → α}
    (h : ∀ r ∈ rows, p r = true → R r (f r)) (h' : ∀ r ∈ rows, p r = false → R r r) :
    List.Forall₂ R rows (updateWhere p f rows) := by
  refine forall₂_map_iff.mpr fun r hr => ?_
  split
  · rename_i hp
    exact h r hr hp
  · rename_i hp
    exact h' r hr (by simpa using hp)

theorem forall₂_comp (h : List.Forall₂ R rows rows') (h' : List.Forall₂ S rows' rows'')
    (hRS : ∀ a b c, R a b → S b c → T a c) : List.Forall₂ T rows rows'' := by
  induction h generalizing rows'' with
  | nil =>
    cases h'
    exact .nil
  | cons hab _ ih =>
    cases h' with
    | cons hbc hrest => exact .cons (hRS _ _ _ hab hbc) (ih hrest)

theorem forall₂_mem_left (h : List.Forall₂ R rows rows') {a : α} (ha : a ∈ rows) :
    ∃ b ∈ rows', R a b := by
  induction h with
  | nil => exact absurd ha List.not_mem_nil
  | cons hab _ ih =>
    rcases List.mem_cons.mp ha with rfl | ha
    · exact ⟨_, List.mem_cons_self, hab⟩
    · obtain ⟨b, hb, hR⟩ := ih ha
      exact ⟨b, List.mem_cons_of_mem _ hb, hR⟩

theorem forall₂_mem_right (h : List.Forall₂ R rows rows') {b : α} (hb : b ∈ rows') :
    ∃ a ∈ rows, R a b := by
  obtain ⟨a, ha, hR⟩ := forall₂_mem_left (R := fun b a => R a b) h.flip hb
  exact ⟨a, ha, hR⟩

/-- What the rows of the first list add to a relation row by row. -/
theorem forall₂_imp_mem {R S : α → β → Prop} {as : List α} {bs : List β}
    (h : List.Forall₂ R as bs) (hRS : ∀ a ∈ as, ∀ b, R a b → S a b) : List.Forall₂ S as bs := by
  induction h with
  | nil => exact .nil
  | cons hab _ ih =>
    exact .cons (hRS _ List.mem_cons_self _ hab)
      (ih fun a ha => hRS a (List.mem_cons_of_mem _ ha))

theorem eq_of_forall₂ {as bs : List α} (h : List.Forall₂ (fun a b => b = a) as bs) : bs = as := by
  have h : List.Forall₂ (fun b a => b = a) bs as := h.flip
  rwa [List.forall₂_eq_eq_eq] at h

theorem forall₂_map_eq {col : α → β} (h : List.Forall₂ R rows rows')
    (hR : ∀ a b, R a b → col a = col b) : rows.map col = rows'.map col := by
  induction h with
  | nil => rfl
  | cons hab _ ih => rw [List.map_cons, List.map_cons, hR _ _ hab, ih]

/-! ## A loop of keyed updates -/

variable {γ : Type} [DecidableEq κ]

/-- What a loop of keyed updates does to one row: the update of the item with its key. -/
def rowUpdate (key : α → κ) (item : γ → κ) (f : γ → α → α) (items : List γ) (r : α) : α :=
  match items.find? fun c => item c = key r with
  | some c => f c r
  | none => r

/-- Items with distinct keys update each row at most once. -/
theorem foldl_updateKey {key : α → κ} {item : γ → κ} {f : γ → α → α} {items : List γ}
    (hkey : ∀ c r, key (f c r) = key r) (hitems : (items.map item).Nodup) :
    items.foldl (fun rs c => updateKey key (item c) (f c) rs) rows =
      rows.map (rowUpdate key item f items) := by
  induction items generalizing rows with
  | nil => exact (List.map_id rows).symm
  | cons c items ih =>
    rw [List.map_cons, List.nodup_cons] at hitems
    rw [List.foldl_cons, ih hitems.2]
    unfold updateKey updateWhere
    rw [List.map_map]
    refine List.map_congr_left fun r _ => ?_
    simp only [Function.comp_apply, rowUpdate, List.find?_cons]
    by_cases hc : key r = item c
    · have hnone : items.find? (fun d => decide (item d = key r)) = none := by
        rw [List.find?_eq_none]
        intro d hd hdr
        exact hitems.1 (List.mem_map.mpr ⟨d, hd, (of_decide_eq_true hdr).trans hc⟩)
      simp [hc, hkey, hc ▸ hnone]
    · simp [hc, Ne.symm hc]

theorem rowUpdate_of_mem {key : α → κ} {item : γ → κ} {f : γ → α → α} {items : List γ} {c : γ}
    {r : α} (hitems : (items.map item).Nodup) (hc : c ∈ items) (hcr : item c = key r) :
    rowUpdate key item f items r = f c r := by
  unfold rowUpdate
  cases hf : items.find? fun c => decide (item c = key r) with
  | none => exact absurd (List.find?_eq_none.mp hf c hc) (by simp [hcr])
  | some d =>
    have hd := List.find?_some hf
    have : d = c := key_unique hitems (List.mem_of_find?_eq_some hf) hc
      ((of_decide_eq_true hd).trans hcr.symm)
    rw [this]

theorem rowUpdate_of_notMem {key : α → κ} {item : γ → κ} {f : γ → α → α} {items : List γ} {r : α}
    (h : ∀ c ∈ items, item c ≠ key r) : rowUpdate key item f items r = r := by
  unfold rowUpdate
  rw [List.find?_eq_none.mpr fun c hc => by simp [h c hc]]

end LinkSuffix.Lib
