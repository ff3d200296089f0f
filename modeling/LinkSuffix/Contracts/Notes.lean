import Mathlib.Data.List.Forall2
import LinkSuffix.Contracts.CaptureSafety
import LinkSuffix.Contracts.RequestEvent

/-!
# Notes on the records of a journey

A journey adds signals to its records after it has made them. The validator reads none of the
signals that are added so, hence what it says of a record stays.

* `noteSignal`, `noteLastMain`, `noteLast`: the notes, on a record and on the records of an event.
* `SameReply`: what the validator reads of a record.
* `documents_event`: the main documents of an event, as the validator finds them.
-/

namespace LinkSuffix

open JsValue

/-! ## Notes -/

/-- `headers[name] = value`. -/
def setText (fields : List (String × String)) (name value : String) : List (String × String) :=
  if name ∈ fields.map (·.1) then
    fields.map fun field => if field.1 = name then (name, value) else field
  else fields ++ [(name, value)]

/-- `signals[name] = value`, where there is a value. -/
def noteSignal (name : String) (value : Option String) (item : RawRequestRecord) :
    RawRequestRecord :=
  match value with
  | none => item
  | some value => { item with taSignal := setText item.taSignal name value }

/-- The events with a change of the last main document, or of the last event where none is one. -/
def noteLastMain (f : RawRequestRecord → RawRequestRecord) (events : List RawRequestRecord) :
    List RawRequestRecord :=
  (events.reverse.modify ((events.reverse.findIdx? (·.isMainDocument)).getD 0) f).reverse

/-- The events with a change of the last one. -/
def noteLast (f : RawRequestRecord → RawRequestRecord) (events : List RawRequestRecord) :
    List RawRequestRecord :=
  (events.reverse.modify 0 f).reverse

/-! ## Signals -/

theorem textField_cons (field : String × String) (fields : List (String × String)) (name : String) :
    textField (field :: fields) name =
      if field.1 = name then some field.2 else textField fields name := by
  unfold textField
  by_cases h : field.1 = name
  · rw [List.find?_cons_of_pos (by simpa using h), if_pos h]
    rfl
  · rw [List.find?_cons_of_neg (by simpa using h), if_neg h]

theorem textField_setText {fields : List (String × String)} {name other : String} (h : name ≠ other)
    (value : String) : textField (setText fields name value) other = textField fields other := by
  unfold setText
  split
  · clear * - h
    induction fields with
    | nil => rfl
    | cons field fields ih =>
      rw [List.map_cons, textField_cons, textField_cons, ih]
      by_cases hname : field.1 = name
      · rw [if_pos hname, hname, if_neg h, if_neg h]
      · rw [if_neg hname]
  · clear * - h
    induction fields with
    | nil =>
      rw [List.nil_append, textField_cons, if_neg h]
    | cons field fields ih => rw [List.cons_append, textField_cons, textField_cons, ih]

theorem get_ofStrings (fields : List (String × String)) (name : String) :
    (ofStrings fields).get name = ofOption (textField fields name) := by
  unfold ofStrings JsValue.get lookup record textField ofOption
  rw [List.find?_map, Option.map_map, Option.map_map]
  rfl

theorem isText_ofOption (value : Option String) (text : String) :
    (ofOption value).isText text = decide (value = some text) := by
  cases value with
  | none => simp [ofOption, isText]
  | some value => simp [ofOption, isText]

/-! ## What the validator reads -/

/-- The validator reads the noted document as the other. -/
structure SameReply (item item' : RawRequestRecord) : Prop where
  url : item'.url = item.url
  status : item'.status = item.status
  headers : item'.headers = item.headers
  mainDocument : textField item'.taSignal "main_document" = textField item.taSignal "main_document"
  capturePath : textField item'.taSignal "capture_path" = textField item.taSignal "capture_path"

theorem SameReply.trans {item item' item'' : RawRequestRecord} (h : SameReply item item')
    (k : SameReply item' item'') : SameReply item item'' :=
  ⟨k.url.trans h.url, k.status.trans h.status, k.headers.trans h.headers,
    k.mainDocument.trans h.mainDocument, k.capturePath.trans h.capturePath⟩

theorem noteSignal_reply {name : String} (hmain : name ≠ "main_document")
    (hpath : name ≠ "capture_path") (value : Option String) (item : RawRequestRecord) :
    SameReply item (noteSignal name value item) := by
  cases value with
  | none => exact ⟨rfl, rfl, rfl, rfl, rfl⟩
  | some value =>
    exact ⟨rfl, rfl, rfl, textField_setText hmain value, textField_setText hpath value⟩

theorem noteLastMain_concat {f : RawRequestRecord → RawRequestRecord}
    {init : List RawRequestRecord} {last : RawRequestRecord} (h : last.isMainDocument = true) :
    noteLastMain f (init ++ [last]) = init ++ [f last] := by
  unfold noteLastMain
  rw [List.reverse_append, List.reverse_singleton, List.singleton_append, List.findIdx?_cons, h]
  simp

theorem noteLast_concat {f : RawRequestRecord → RawRequestRecord} {init : List RawRequestRecord}
    {last : RawRequestRecord} : noteLast f (init ++ [last]) = init ++ [f last] := by
  unfold noteLast
  simp

/-- What a main document is evidence of: its URL, its status and its headers. -/
def RawRequestRecord.reading (item : RawRequestRecord) :
    String × JsNumber × List (String × String) :=
  (item.url, item.status, item.headers)

/-- A refusal is one of the URL, the status and the headers. -/
theorem edgeStop_reading {platform : Platform} {item item' : RawRequestRecord}
    (h : item'.reading = item.reading) :
    edgeStopForResponse platform (.object item'.fields) =
      edgeStopForResponse platform (.object item.fields) := by
  obtain ⟨url, method, status, timeMs, headers, taSignal, bodySnippet⟩ := item
  obtain ⟨url', method', status', timeMs', headers', taSignal', bodySnippet'⟩ := item'
  obtain ⟨rfl, rfl, rfl⟩ := h
  rfl

theorem SameReply.reading {item item' : RawRequestRecord} (h : SameReply item item') :
    item'.reading = item.reading := by
  unfold RawRequestRecord.reading
  rw [h.url, h.status, h.headers]

theorem edgeStop_reply {platform : Platform} {item item' : RawRequestRecord}
    (h : SameReply item item') :
    edgeStopForResponse platform (.object item'.fields) =
      edgeStopForResponse platform (.object item.fields) :=
  edgeStop_reading h.reading

/-- The main documents of an event. -/
theorem documents_event (event : RequestEvent) : documents event.toValue =
    (event.events.filter (·.isMainDocument)).map fun item => .object item.fields := by
  have hmain (item : RawRequestRecord) :
      (((JsValue.object item.fields).get "ta_signal").get "main_document").isText "true" =
        item.isMainDocument := by
    have hread : ((JsValue.object item.fields).get "ta_signal").get "main_document" =
        ofOption (textField item.taSignal "main_document") :=
      get_ofStrings item.taSignal "main_document"
    rw [hread, isText_ofOption]
    rfl
  have hevents : event.toValue.get "events" =
      .array (event.events.map fun item => .object item.fields) := rfl
  unfold documents
  rw [hevents, items, List.map_map, List.filter_map]
  congr 1
  refine List.filter_congr fun item _ => ?_
  exact hmain item

/-! ## Records and their notes -/

theorem SameReply.refl (item : RawRequestRecord) : SameReply item item := ⟨rfl, rfl, rfl, rfl, rfl⟩

theorem SameReply.isMainDocument {item item' : RawRequestRecord} (h : SameReply item item') :
    item'.isMainDocument = item.isMainDocument := by
  unfold RawRequestRecord.isMainDocument
  rw [h.mainDocument]

section Replies

variable {items items' : List RawRequestRecord} {f : RawRequestRecord → RawRequestRecord}

theorem replies_map (hf : ∀ item, SameReply item (f item)) (items : List RawRequestRecord) :
    List.Forall₂ SameReply items (items.map f) := by
  induction items with
  | nil => exact .nil
  | cons item items ih => exact .cons (hf item) ih

theorem replies_modify (hf : ∀ item, SameReply item (f item)) (items : List RawRequestRecord)
    (n : Nat) : List.Forall₂ SameReply items (items.modify n f) := by
  induction items generalizing n with
  | nil =>
    rw [List.modify_nil]
    exact .nil
  | cons item items ih =>
    cases n with
    | zero =>
      rw [List.modify_zero_cons]
      exact .cons (hf item) (List.forall₂_same.mpr fun item _ => SameReply.refl item)
    | succ n =>
      rw [List.modify_succ_cons]
      exact .cons (SameReply.refl item) (ih n)

theorem replies_noteLastMain (hf : ∀ item, SameReply item (f item))
    (items : List RawRequestRecord) : List.Forall₂ SameReply items (noteLastMain f items) := by
  unfold noteLastMain
  have h := List.rel_reverse (replies_modify hf items.reverse
    ((items.reverse.findIdx? (·.isMainDocument)).getD 0))
  rwa [List.reverse_reverse] at h

theorem replies_trans {items'' : List RawRequestRecord} (h : List.Forall₂ SameReply items items')
    (k : List.Forall₂ SameReply items' items'') : List.Forall₂ SameReply items items'' := by
  induction h generalizing items'' with
  | nil => exact k
  | cons hitem _ ih =>
    cases k with
    | cons kitem k => exact .cons (hitem.trans kitem) (ih k)

/-- Notes leave what the main documents are evidence of. -/
theorem replies_reading (h : List.Forall₂ SameReply items items') :
    (items'.filter (·.isMainDocument)).map (·.reading) =
      (items.filter (·.isMainDocument)).map (·.reading) := by
  induction h with
  | nil => rfl
  | cons hitem _ ih =>
    rw [List.filter_cons, List.filter_cons, hitem.isMainDocument]
    split
    · rw [List.map_cons, List.map_cons, hitem.reading, ih]
    · exact ih

/-- Notes leave the first refusal among the main documents. -/
theorem replies_stop {platform : Platform} (h : List.Forall₂ SameReply items items') :
    (items'.filter (·.isMainDocument)).findSome?
        (fun item => edgeStopForResponse platform (.object item.fields)) =
      (items.filter (·.isMainDocument)).findSome?
        fun item => edgeStopForResponse platform (.object item.fields) := by
  induction h with
  | nil => rfl
  | cons hitem _ ih =>
    rw [List.filter_cons, List.filter_cons, hitem.isMainDocument]
    split
    · rw [List.findSome?_cons, List.findSome?_cons, edgeStop_reply hitem, ih]
    · exact ih

end Replies

end LinkSuffix
