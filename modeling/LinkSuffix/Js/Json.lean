import LinkSuffix.Js.Value
import Mathlib.Data.List.Nodup

/-!
# JSON round trips

`JSON.parse(JSON.stringify(value))`: fields without a value are dropped, items without one and
numbers that are no decimals become `null`. (A negative zero becomes zero, which no reader tells
apart.)
-/

namespace LinkSuffix

namespace JsValue

mutual

/-- A value inside a JSON text, read back. -/
def json : JsValue → JsValue
  | .undefined => .null
  | .null => .null
  | .bool value => .bool value
  | .number value => if value.isFinite then .number value else .null
  | .string value => .string value
  | .array items => .array (jsonItems items)
  | .object fields => .object (jsonFields fields)

def jsonItems : List JsValue → List JsValue
  | [] => []
  | item :: items => json item :: jsonItems items

def jsonFields : List (String × JsValue) → List (String × JsValue)
  | [] => []
  | (_, .undefined) :: fields => jsonFields fields
  | (name, value) :: fields => (name, json value) :: jsonFields fields

end

/-- What a field reads as after the round trip. -/
def jsonField : JsValue → JsValue
  | .undefined => .undefined
  | value => json value

/-- An object of texts. -/
def ofStrings (fields : List (String × String)) : JsValue :=
  .object (fields.map fun field => (field.1, .string field.2))

/-- An optional text. -/
def ofOption (value : Option String) : JsValue := (value.map .string).getD .undefined

theorem jsonItems_eq_map (items : List JsValue) : jsonItems items = items.map json := by
  induction items with
  | nil => rfl
  | cons item items ih => rw [jsonItems, ih, List.map_cons]

theorem lookup_cons (field : String × JsValue) (fields : List (String × JsValue)) (name : String) :
    lookup (field :: fields) name = if field.1 = name then field.2 else lookup fields name := by
  unfold lookup
  by_cases h : field.1 = name
  · rw [List.find?_cons_of_pos (by simpa using h), if_pos h]
    rfl
  · rw [List.find?_cons_of_neg (by simpa using h), if_neg h]

theorem lookup_of_not_mem {fields : List (String × JsValue)} {name : String}
    (h : name ∉ fields.map (·.1)) : lookup fields name = .undefined := by
  induction fields with
  | nil => rfl
  | cons field fields ih =>
    obtain ⟨hne, hmem⟩ := List.ne_and_not_mem_of_not_mem_cons h
    rw [lookup_cons, if_neg (Ne.symm hne), ih hmem]

theorem jsonFields_cons (name : String) (value : JsValue) (fields : List (String × JsValue)) :
    jsonFields ((name, value) :: fields) = jsonFields fields ∧ value = .undefined ∨
      jsonFields ((name, value) :: fields) = (name, jsonField value) :: jsonFields fields ∧
        value ≠ .undefined := by
  cases value with
  | undefined => exact Or.inl ⟨rfl, rfl⟩
  | null => exact Or.inr ⟨rfl, by simp⟩
  | bool value => exact Or.inr ⟨rfl, by simp⟩
  | number value => exact Or.inr ⟨rfl, by simp⟩
  | string value => exact Or.inr ⟨rfl, by simp⟩
  | array items => exact Or.inr ⟨rfl, by simp⟩
  | object fields => exact Or.inr ⟨rfl, by simp⟩

/-- Reading a field after the round trip. -/
theorem lookup_jsonFields {fields : List (String × JsValue)} (h : (fields.map (·.1)).Nodup)
    (name : String) : lookup (jsonFields fields) name = jsonField (lookup fields name) := by
  induction fields with
  | nil => rfl
  | cons field fields ih =>
    obtain ⟨key, value⟩ := field
    obtain ⟨hmem, hrest⟩ := List.nodup_cons.mp h
    rw [lookup_cons]
    rcases jsonFields_cons key value fields with ⟨heq, rfl⟩ | ⟨heq, -⟩
    · rw [heq, ih hrest]
      by_cases hkey : key = name
      · subst hkey
        rw [if_pos rfl, lookup_of_not_mem hmem]
      · rw [if_neg hkey]
    · rw [heq, lookup_cons]
      by_cases hkey : key = name
      · rw [if_pos hkey, if_pos hkey]
      · rw [if_neg hkey, if_neg hkey, ih hrest]

theorem get_json {fields : List (String × JsValue)} (h : (fields.map (·.1)).Nodup)
    (name : String) : (json (.object fields)).get name = jsonField (lookup fields name) :=
  lookup_jsonFields h name

/-- Texts survive. -/
theorem json_ofStrings (fields : List (String × String)) :
    json (ofStrings fields) = ofStrings fields := by
  unfold ofStrings json
  congr 1
  induction fields with
  | nil => rfl
  | cons field fields ih =>
    rw [List.map_cons, jsonFields, ih, json]
    simp

/-! ### JSON stays as it is -/

theorem json_ne_undefined (value : JsValue) : value.json ≠ .undefined := by
  cases value with
  | number value =>
    rw [json]
    split <;> exact nofun
  | _ => exact nofun

theorem jsonField_of_ne {value : JsValue} (h : value ≠ .undefined) : jsonField value = value.json := by
  cases value with
  | undefined => exact absurd rfl h
  | _ => rfl

mutual

/-- What was read back is JSON. -/
theorem json_json : ∀ value : JsValue, value.json.json = value.json
  | .undefined => rfl
  | .null => rfl
  | .bool _ => rfl
  | .number value => by
    rw [json]
    split
    · rename_i h
      rw [json, if_pos h]
    · rfl
  | .string _ => rfl
  | .array items => congrArg JsValue.array (jsonItems_jsonItems items)
  | .object fields => congrArg JsValue.object (jsonFields_jsonFields fields)

theorem jsonItems_jsonItems : ∀ items : List JsValue, jsonItems (jsonItems items) = jsonItems items
  | [] => rfl
  | item :: items => congrArg₂ List.cons (json_json item) (jsonItems_jsonItems items)

theorem jsonFields_jsonFields :
    ∀ fields : List (String × JsValue), jsonFields (jsonFields fields) = jsonFields fields
  | [] => rfl
  | (name, value) :: fields => by
    have hvalue := json_json value
    have hfields := jsonFields_jsonFields fields
    rcases jsonFields_cons name value fields with ⟨heq, -⟩ | ⟨heq, hne⟩
    · rw [heq, hfields]
    · rw [heq, jsonField_of_ne hne]
      rcases jsonFields_cons name value.json (jsonFields fields) with ⟨-, hnone⟩ | ⟨hread, hsome⟩
      · exact absurd hnone (json_ne_undefined value)
      · rw [hread, jsonField_of_ne hsome, hvalue, hfields]

end
theorem jsonFields_length (fields : List (String × JsValue)) :
    (jsonFields fields).length ≤ fields.length := by
  induction fields with
  | nil => exact Nat.le_refl _
  | cons field fields ih =>
    rcases jsonFields_cons field.1 field.2 fields with ⟨h, -⟩ | ⟨h, -⟩
    · rw [h]
      exact Nat.le_succ_of_le ih
    · rw [h]
      exact Nat.succ_le_succ ih

theorem jsonFields_stable {fields : List (String × JsValue)}
    (h : jsonFields fields = fields) : ∀ field ∈ fields, field.2.json = field.2 := by
  induction fields with
  | nil => exact nofun
  | cons field fields ih =>
    rcases jsonFields_cons field.1 field.2 fields with ⟨hfields, -⟩ | ⟨hfields, hne⟩
    · have hlength := jsonFields_length fields
      rw [← hfields, h, List.length_cons] at hlength
      omega
    · obtain ⟨hfield, hrest⟩ := List.cons.inj (hfields.symm.trans h)
      have hvalue : jsonField field.2 = field.2 := congrArg Prod.snd hfield
      rintro other (_ | ⟨_, hmem⟩)
      · rw [← hvalue]
        cases hcase : field.2 with
        | undefined => exact absurd hcase hne
        | _ => rw [hcase] at hvalue; exact (congrArg json hvalue)
      · exact ih hrest other hmem

/-- The items of a list in JSON are JSON. -/
theorem items_json {value : JsValue} (h : value.json = value) (name : String) :
    jsonItems (value.get name).items = (value.get name).items := by
  have hvalue : value.get name = .undefined ∨ (value.get name).json = value.get name := by
    unfold get lookup
    cases hfind : value.record.find? fun field => field.1 = name with
    | none => exact .inl rfl
    | some field =>
      cases value with
      | object fields =>
        exact .inr (jsonFields_stable (JsValue.object.inj h) field (List.mem_of_find?_eq_some hfind))
      | _ => cases hfind
  rcases hvalue with hvalue | hvalue
  · rw [hvalue]
    rfl
  · cases hcase : value.get name with
    | array items =>
      rw [hcase] at hvalue
      exact JsValue.array.inj hvalue
    | _ => rfl

/-! ### Spreads -/

/-- `{ ...fields, [name]: value }` for one field. -/
def setField (fields : List (String × JsValue)) (field : String × JsValue) :
    List (String × JsValue) :=
  if field.1 ∈ fields.map (·.1) then fields.map fun old => if old.1 = field.1 then field else old
  else fields ++ [field]

theorem lookup_append_of_not_mem {fields more : List (String × JsValue)} {name : String}
    (h : name ∉ fields.map (·.1)) : lookup (fields ++ more) name = lookup more name := by
  induction fields with
  | nil => rfl
  | cons field fields ih =>
    obtain ⟨hne, hmem⟩ := List.ne_and_not_mem_of_not_mem_cons h
    rw [List.cons_append, lookup_cons, if_neg (Ne.symm hne), ih hmem]

theorem lookup_append_of_mem {fields more : List (String × JsValue)} {name : String}
    (h : name ∈ fields.map (·.1)) : lookup (fields ++ more) name = lookup fields name := by
  induction fields with
  | nil => cases h
  | cons field fields ih =>
    rw [List.cons_append, lookup_cons, lookup_cons]
    by_cases hname : field.1 = name
    · rw [if_pos hname, if_pos hname]
    · rw [if_neg hname, if_neg hname, ih]
      exact (List.mem_cons.mp h).resolve_left (Ne.symm hname)

theorem lookup_setField (fields : List (String × JsValue)) (field : String × JsValue)
    (name : String) :
    lookup (setField fields field) name = if field.1 = name then field.2 else lookup fields name := by
  unfold setField
  split
  · rename_i hmem
    induction fields with
    | nil => cases hmem
    | cons old fields ih =>
      rw [List.map_cons, lookup_cons, lookup_cons]
      by_cases hold : old.1 = field.1
      · rw [if_pos hold]
        by_cases hname : field.1 = name
        · rw [if_pos hname, if_pos hname]
        · rw [if_neg hname, if_neg hname, if_neg (by rwa [hold])]
          by_cases hrest : field.1 ∈ fields.map (·.1)
          · rw [ih hrest, if_neg hname]
          · have hkept (other : String × JsValue) (hother : other ∈ fields) :
                (if other.1 = field.1 then field else other) = other :=
              if_neg fun heq : other.1 = field.1 => hrest (heq ▸ List.mem_map_of_mem hother)
            rw [List.map_congr_left hkept, List.map_id']
      · have hrest : field.1 ∈ fields.map (·.1) :=
          (List.mem_cons.mp hmem).resolve_left (Ne.symm hold)
        rw [if_neg hold, ih hrest]
        by_cases hname : field.1 = name
        · rw [if_pos hname, if_neg (by rwa [← hname]), if_pos hname]
        · rw [if_neg hname, if_neg hname]
  · rename_i hmem
    by_cases hname : field.1 = name
    · rw [lookup_append_of_not_mem (by rwa [← hname]), if_pos hname, lookup_cons, if_pos hname]
    · rw [if_neg hname]
      by_cases hin : name ∈ fields.map (·.1)
      · exact lookup_append_of_mem hin
      · rw [lookup_append_of_not_mem hin, lookup_cons, if_neg hname, lookup_of_not_mem hin]
        rfl

theorem setField_names (fields : List (String × JsValue)) (field : String × JsValue)
    (h : (fields.map (·.1)).Nodup) : ((setField fields field).map (·.1)).Nodup := by
  unfold setField
  split
  · have hnames : (fields.map fun old => if old.1 = field.1 then field else old).map (·.1) =
        fields.map (·.1) := by
      rw [List.map_map]
      refine List.map_congr_left fun old _ => ?_
      dsimp only [Function.comp]
      split
      · rename_i heq
        exact heq.symm
      · rfl
    rwa [hnames]
  · rename_i hmem
    rw [List.map_append, List.map_singleton, List.nodup_append]
    exact ⟨h, List.nodup_singleton _, fun a ha b hb heq =>
      hmem (List.mem_singleton.mp hb ▸ heq ▸ ha)⟩

theorem spread_cons (base : List (String × JsValue)) (field : String × JsValue)
    (value : List (String × JsValue)) :
    spread base (field :: value) = spread (setField base field) value := rfl

theorem spread_names {base : List (String × JsValue)} (value : List (String × JsValue))
    (h : (base.map (·.1)).Nodup) : ((spread base value).map (·.1)).Nodup := by
  induction value generalizing base with
  | nil => exact h
  | cons field value ih =>
    rw [spread_cons]
    exact ih (setField_names base field h)

/-- A spread object has its own value of every field it names. -/
theorem lookup_spread {value : List (String × JsValue)} (h : (value.map (·.1)).Nodup)
    (base : List (String × JsValue)) (name : String) :
    lookup (spread base value) name =
      if name ∈ value.map (·.1) then lookup value name else lookup base name := by
  induction value generalizing base with
  | nil => rfl
  | cons field value ih =>
    rw [List.map_cons, List.nodup_cons] at h
    rw [spread_cons, ih h.2, lookup_setField, lookup_cons, List.map_cons]
    by_cases hname : field.1 = name
    · subst hname
      rw [if_neg h.1, if_pos rfl, if_pos List.mem_cons_self, if_pos rfl]
    · rw [if_neg hname, if_neg hname]
      by_cases hmem : name ∈ value.map (·.1)
      · rw [if_pos hmem, if_pos (List.mem_cons_of_mem _ hmem)]
      · rw [if_neg hmem, if_neg fun h => hmem ((List.mem_cons.mp h).resolve_left (Ne.symm hname))]

end JsValue

end LinkSuffix
