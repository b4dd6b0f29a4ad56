import Stepwise.Codec.Forms
/-!
# Written forms are read back

Writing is undone by reading, for every type that has a written form, so reading what was written
of something read changes nothing.  Readers accept more than is written: records with keys they do
not know or as arrays of their fields, words as the only key of an object.  Each of these
spellings is tied to the plain one, and for objects that may lack fields it is said which value
each field has.
-/

namespace Stepwise

namespace Codec

variable {α : Type} {read : Decoder α} {write : α → Value}

/-- What is written is read back; reading, writing and reading again is reading once. -/
structure WrittenForm (read : Decoder α) (write : α → Value) : Prop where
  decode : ∀ a, read (write a) = .ok a
  again : ∀ v, (read v >>= fun a => read (write a)) = read v

theorem WrittenForm.of_decode (h : ∀ a, read (write a) = .ok a) : WrittenForm read write where
  decode := h
  again v := by
    simp only [h]
    cases read v <;> rfl

/-- A list is the array of its items. -/
structure ListForm (read : Decoder α) (write : α → Value) (items : α → List Value) : Prop
    extends WrittenForm read write where
  accepts : ∀ v a, read v = .ok a ↔ v = .array (items a)

/-- A word may be the only key of an object, with nothing said about it. -/
structure WordForm (read : Decoder α) (write : α → Value) : Prop
    extends WrittenForm read write where
  keyed : ∀ name content a, read (.object [(name, content)]) = .ok a ↔
    content = .null ∧ read (.string name) = .ok a
  accepts : ∀ v a, read v = .ok a →
    (∃ name, v = .string name) ∨ ∃ name, v = .object [(name, .null)]

/--
A record is an object, of which unknown keys are passed over, or the array of its fields in order,
which stands for the object that gives them their names and may lack the last ones as that may.
-/
structure RecordForm (names : List String) (read : Decoder α) (write : α → Value) : Prop
    extends WrittenForm read write where
  ignores : ∀ fields,
    read (.object fields) = read (.object (fields.filter fun field => field.1 ∈ names))
  positional : ∀ items a, read (.array items) = .ok a ↔
    items.length ≤ names.length ∧ read (.object (names.zip items)) = .ok a
  accepts : ∀ v a, read v = .ok a → (∃ fields, v = .object fields) ∨ ∃ items, v = .array items

/-- The value of a field in an object: what is read under its key, or else a default. -/
def FieldReads (fields : List (String × Value)) (key : String) (read : Decoder α) (default a : α) :
    Prop :=
  match Value.field? fields key with
  | some v => read v = .ok a
  | none => a = default

section Fields

variable {fields : List (String × Value)} {key other : String} {v : Value} {default a : α}

@[simp] theorem fieldReads_nil : FieldReads [] key read default a ↔ a = default := Iff.rfl

@[simp] theorem fieldReads_cons_self :
    FieldReads ((key, v) :: fields) key read default a ↔ read v = .ok a := by
  simp [FieldReads, Value.field?]

theorem fieldReads_cons_of_ne (h : other ≠ key) :
    FieldReads ((other, v) :: fields) key read default a ↔ FieldReads fields key read default a := by
  simp [FieldReads, Value.field?, h]

theorem fieldReads_of_notMem (h : key ∉ fields.map Prod.fst) :
    FieldReads fields key read default a ↔ a = default := by
  have hnone : Value.field? fields key = none := by
    simp only [Value.field?, Option.map_eq_none_iff, List.find?_eq_none, beq_iff_eq]
    exact fun field hfield heq => h (List.mem_map.mpr ⟨field, hfield, heq⟩)
  simp [FieldReads, hnone]

end Fields

section Success

variable {β ε : Type} {result : Except ε α} {b : β}

theorem bind_eq_ok {next : α → Except ε β} :
    (result >>= next) = .ok b ↔ ∃ a, result = .ok a ∧ next a = .ok b := by
  cases result <;> simp [bind, Except.bind]

theorem map_then {γ : Type} {f : α → γ} {next : γ → Except ε β} :
    (result.map f >>= next) = result >>= fun a => next (f a) := by
  cases result <;> rfl

theorem map_eq_ok {f : α → β} : result.map f = .ok b ↔ ∃ a, result = .ok a ∧ f a = b := by
  cases result <;> simp [Except.map]

theorem fmap_eq_ok {f : α → β} : f <$> result = .ok b ↔ ∃ a, result = .ok a ∧ f a = b :=
  map_eq_ok

theorem pure_eq_ok {a a' : α} : (pure a : Except ε α) = .ok a' ↔ a = a' := by
  simp [pure, Except.pure]

theorem required_eq_ok {name : String} {given : Option α} {a : α} :
    required name given = .ok a ↔ given = some a := by
  cases given <;> simp [required]

end Success

theorem list_decode (h : ∀ a, read (write a) = .ok a) (as : List α) :
    list read (.array (as.map write)) = .ok as := by
  induction as with
  | nil => rfl
  | cons a rest ih =>
      simp only [list] at ih
      simp only [list, List.map_cons, List.mapM_cons, h, ih]
      rfl

theorem list_ok (items : List Value) : list .ok (.array items) = .ok items := by
  have hdecode : list .ok (.array (items.map id)) = .ok items := list_decode (fun _ => rfl) items
  rwa [List.map_id] at hdecode

theorem listForm {mk : List Value → α} {items : α → List Value} (hmk : ∀ a, mk (items a) = a)
    (hitems : ∀ vs, items (mk vs) = vs) :
    ListForm (fun v => (list .ok v).map mk) (fun a => .array (items a)) items where
  toWrittenForm := .of_decode fun a => by rw [list_ok, Except.map, hmk]
  accepts v a := by
    cases v with
    | array vs =>
        rw [list_ok]
        constructor
        · rintro ⟨⟩
          rw [hitems]
        · rintro ⟨⟩
          rw [Except.map, hmk]
    | _ => simp [list, Except.map]

theorem wordForm {choices : List (String × α)}
    (h : ∀ a, word choices (write a) = .ok a) : WordForm (word choices) write where
  toWrittenForm := .of_decode h
  keyed name content a := by
    simp only [word]
    cases choices.find? (·.1 == name) with
    | none => simp [bind, Except.bind]
    | some choice => cases content <;> simp [bind, Except.bind, pure, Except.pure]
  accepts v a hv := by
    match v with
    | .string name => exact .inl ⟨name, rfl⟩
    | .object [(name, content)] =>
        refine .inr ⟨name, ?_⟩
        cases hchoice : choices.find? (·.1 == name) with
        | none => simp [word, hchoice, bind, Except.bind] at hv
        | some choice =>
            cases content <;> simp [word, hchoice, bind, Except.bind, pure, Except.pure] at hv ⊢

section Records

variable {σ : Type} {name : String} {size : Nat} {start : σ}
  {field : σ → String → Value → Except DecodeError σ} {finish : σ → Except DecodeError α}
  {elements : List Value → Except DecodeError α} {names : List String}

/-- Keys that change nothing may be left out. -/
theorem foldlM_filter (h : ∀ s key v, key ∉ names → field s key v = .ok s)
    (fields : List (String × Value)) (s : σ) :
    fields.foldlM (fun s entry => field s entry.1 entry.2) s =
      (fields.filter fun entry => entry.1 ∈ names).foldlM
        (fun s entry => field s entry.1 entry.2) s := by
  induction fields generalizing s with
  | nil => rfl
  | cons entry rest ih =>
      by_cases hmem : entry.1 ∈ names
      · rw [List.filter_cons_of_pos (by simpa using hmem), List.foldlM_cons, List.foldlM_cons]
        exact bind_congr ih
      · rw [List.filter_cons_of_neg (by simpa using hmem), List.foldlM_cons, h s _ _ hmem]
        exact ih s

theorem recordForm (hdecode : ∀ a, record name size start field finish elements (write a) = .ok a)
    (hignores : ∀ s key v, key ∉ names → field s key v = .ok s)
    (hpositional : ∀ items a, record name size start field finish elements (.array items) = .ok a ↔
      items.length ≤ names.length ∧
        record name size start field finish elements (.object (names.zip items)) = .ok a) :
    RecordForm names (record name size start field finish elements) write where
  toWrittenForm := .of_decode hdecode
  ignores fields := by rw [record, record, foldlM_filter hignores fields]
  positional := hpositional
  accepts v a hv := by
    cases v with
    | object fields => exact .inl ⟨fields, rfl⟩
    | array items => exact .inr ⟨items, rfl⟩
    | _ => simp [record] at hv

end Records

end Codec

open Codec

theorem Shape.writtenForm : WordForm ofValue toValue :=
  wordForm fun shape => by cases shape <;> rfl

theorem ItemKind.writtenForm : WordForm ofValue toValue :=
  wordForm fun kind => by cases kind <;> rfl

theorem Values.writtenForm : ListForm ofValue toValue Values.toList :=
  listForm (fun _ => rfl) fun _ => rfl

theorem ResultSet.writtenForm : ListForm ofValue toValue ResultSet.toList :=
  listForm (fun _ => rfl) fun _ => rfl

namespace Config

theorem toValue_eq (config : Config) : config.toValue = .object
    [("catch_panics", .bool config.catchPanics),
      ("label", (config.label.map .string).getD .null),
      ("record_loop_results", .bool config.recordLoopResults)] := by
  simp only [toValue, Value.ofFields, List.foldl_cons, List.foldl_nil, Value.insertField,
    String.reduceLT, String.reduceEq, if_true, if_false]

theorem withField_label (config : Config) (v : Value) : config.withField "label" v =
    (optional string v).map fun label => { config with label } := by
  refine (if_pos rfl).trans ?_
  cases optional string v <;> rfl

theorem withField_recordLoopResults (config : Config) (v : Value) :
    config.withField "record_loop_results" v =
      (boolean v).map fun recordLoopResults => { config with recordLoopResults } := by
  refine (if_neg (by decide)).trans ?_
  refine (if_pos rfl).trans ?_
  cases boolean v <;> rfl

theorem withField_catchPanics (config : Config) (v : Value) :
    config.withField "catch_panics" v =
      (boolean v).map fun catchPanics => { config with catchPanics } := by
  refine (if_neg (by decide)).trans ?_
  refine (if_neg (by decide)).trans ?_
  refine (if_pos rfl).trans ?_
  cases boolean v <;> rfl

theorem withField_unknown {key : String}
    (h : key ∉ ["label", "record_loop_results", "catch_panics"]) (config : Config) (v : Value) :
    config.withField key v = .ok config := by
  simp only [List.mem_cons, List.not_mem_nil, or_false, not_or] at h
  exact (if_neg h.1).trans ((if_neg h.2.1).trans (if_neg h.2.2))

theorem optional_string_label (label : Option String) :
    optional string ((label.map .string).getD .null) = .ok label := by
  cases label <;> rfl

theorem decode (config : Config) : ofValue config.toValue = .ok config := by
  rw [toValue_eq]
  simp only [ofValue, record, List.foldlM_cons, List.foldlM_nil, withField_label,
    withField_recordLoopResults, withField_catchPanics, optional_string_label, boolean]
  rfl

/-- An array gives its items to the fields in order, as the object with those names does. -/
theorem withElements_eq (fields : List (String × Value)) (config : Config) :
    withElements fields config =
      fields.foldlM (fun config entry => config.withField entry.1 entry.2) config := by
  induction fields generalizing config with
  | nil => rfl
  | cons entry rest ih =>
      rw [List.foldlM_cons]
      exact bind_congr ih

theorem positional (items : List Value) (config : Config) :
    ofValue (.array items) = .ok config ↔ items.length ≤ 3 ∧
      ofValue (.object (["label", "record_loop_results", "catch_panics"].zip items)) =
        .ok config := by
  simp only [ofValue, record, withElements_eq]
  cases List.foldlM (fun (config : Config) entry => config.withField entry.1 entry.2) {}
      (["label", "record_loop_results", "catch_panics"].zip items) with
  | error e => simp [bind, Except.bind]
  | ok read =>
      by_cases hlength : 3 < items.length
      · simp [bind, Except.bind, hlength, Nat.not_le.mpr hlength]
      · simp [bind, Except.bind, hlength, pure, Except.pure, Nat.not_lt.mp hlength]

theorem writtenForm :
    RecordForm ["label", "record_loop_results", "catch_panics"] ofValue toValue :=
  recordForm decode (fun config _ v h => withField_unknown h config v) positional

/-- An object without repeated keys gives each field what is under its key, or leaves it. -/
theorem foldlM_withField {fields : List (String × Value)} (hkeys : (fields.map Prod.fst).Nodup)
    (start config : Config) :
    fields.foldlM (fun config entry => config.withField entry.1 entry.2) start = .ok config ↔
      FieldReads fields "label" (optional string) start.label config.label ∧
      FieldReads fields "record_loop_results" boolean start.recordLoopResults
        config.recordLoopResults ∧
      FieldReads fields "catch_panics" boolean start.catchPanics config.catchPanics := by
  induction fields generalizing start with
  | nil =>
      obtain ⟨label, recordLoopResults, catchPanics⟩ := start
      obtain ⟨label', recordLoopResults', catchPanics'⟩ := config
      simp only [List.foldlM_nil, pure, Except.pure, Except.ok.injEq, mk.injEq, fieldReads_nil,
        eq_comm]
  | cons entry rest ih =>
      obtain ⟨key, v⟩ := entry
      rw [List.map_cons, List.nodup_cons] at hkeys
      obtain ⟨hkey, hrest⟩ := hkeys
      rw [List.foldlM_cons]
      by_cases hlabel : key = "label"
      · subst hlabel
        simp only [withField_label, map_then, bind_eq_ok, ih hrest, fieldReads_cons_self,
          fieldReads_cons_of_ne, fieldReads_of_notMem hkey, ne_eq, String.reduceEq, not_false_eq_true]
        grind
      by_cases hrecord : key = "record_loop_results"
      · subst hrecord
        simp only [withField_recordLoopResults, map_then, bind_eq_ok, ih hrest, fieldReads_cons_self,
          fieldReads_cons_of_ne, fieldReads_of_notMem hkey, ne_eq, String.reduceEq, not_false_eq_true]
        grind
      by_cases hcatch : key = "catch_panics"
      · subst hcatch
        simp only [withField_catchPanics, map_then, bind_eq_ok, ih hrest, fieldReads_cons_self,
          fieldReads_cons_of_ne, fieldReads_of_notMem hkey, ne_eq, String.reduceEq, not_false_eq_true]
        grind
      rw [withField_unknown (by simp [hlabel, hrecord, hcatch]), fieldReads_cons_of_ne hlabel,
        fieldReads_cons_of_ne hrecord, fieldReads_cons_of_ne hcatch]
      exact ih hrest start

theorem ofValue_object {fields : List (String × Value)} (hkeys : (fields.map Prod.fst).Nodup)
    (config : Config) : ofValue (.object fields) = .ok config ↔
      FieldReads fields "label" (optional string) none config.label ∧
      FieldReads fields "record_loop_results" boolean false config.recordLoopResults ∧
      FieldReads fields "catch_panics" boolean true config.catchPanics := by
  rw [← foldlM_withField hkeys {} config]
  simp only [ofValue, record]
  cases List.foldlM (fun (config : Config) entry => config.withField entry.1 entry.2) {} fields <;>
    rfl

end Config

namespace StepOutline

theorem toValue_eq (o : StepOutline) : o.toValue = .object
    ((o.label.map fun label => ("label", .string label)).toList ++
      [("shape", o.shape.toValue)]) := by
  obtain ⟨shape, label⟩ := o
  cases label <;> simp only [toValue, Value.ofFields, List.foldl_cons, List.foldl_nil,
    Option.map_none, Option.map_some, Option.toList_none, Option.toList_some, Value.insertField,
    String.reduceLT, if_true, List.nil_append, List.cons_append]

theorem withField_unknown {key : String} (h : key ∉ ["shape", "label"]) (draft : Draft)
    (v : Value) : draft.withField key v = .ok draft := by
  simp only [List.mem_cons, List.not_mem_nil, or_false, not_or] at h
  exact (if_neg h.1).trans (if_neg h.2)

theorem decode (o : StepOutline) : ofValue o.toValue = .ok o := by
  obtain ⟨shape, label⟩ := o
  rw [toValue_eq]
  cases label <;> cases shape <;> rfl

theorem withField_shape (draft : Draft) (v : Value) : draft.withField "shape" v =
    (Shape.ofValue v).map fun shape => { draft with shape := some shape } := by
  refine (if_pos rfl).trans ?_
  cases Shape.ofValue v <;> rfl

theorem withField_label (draft : Draft) (v : Value) : draft.withField "label" v =
    (optional string v).map fun label => { draft with label } := by
  refine (if_neg (by decide)).trans ?_
  refine (if_pos rfl).trans ?_
  cases optional string v <;> rfl

theorem positional (items : List Value) (o : StepOutline) :
    ofValue (.array items) = .ok o ↔
      items.length ≤ 2 ∧ ofValue (.object (["shape", "label"].zip items)) = .ok o := by
  match items with
  | [] => simp [ofValue, record, element, Draft.finish, bind_eq_ok, fmap_eq_ok, required_eq_ok]
  | [shape] =>
      simp [ofValue, record, element, withField_shape, Draft.finish, Codec.optional, map_then,
        bind_eq_ok, fmap_eq_ok, required_eq_ok]
  | [shape, label] =>
      simp [ofValue, record, element, withField_shape, withField_label, Draft.finish, map_then,
        bind_eq_ok, fmap_eq_ok, required_eq_ok]
  | shape :: label :: next :: rest => simp [ofValue, record, element, bind_eq_ok]

theorem writtenForm : RecordForm ["shape", "label"] ofValue toValue :=
  recordForm decode (fun draft _ v h => withField_unknown h draft v) positional

end StepOutline

namespace BranchOutline

theorem toValue_eq (o : BranchOutline) : o.toValue = .object
    [("actions", .array (o.actions.map StepOutline.toValue)),
      ("predicate", o.predicate.toValue)] := by
  simp only [toValue, Value.ofFields, List.foldl_cons, List.foldl_nil, Value.insertField,
    String.reduceLT, String.reduceEq, if_true, if_false]

theorem withField_predicate (draft : Draft) (v : Value) : draft.withField "predicate" v =
    (StepOutline.ofValue v).map fun predicate => { draft with predicate := some predicate } := by
  refine (if_pos rfl).trans ?_
  cases StepOutline.ofValue v <;> rfl

theorem withField_actions (draft : Draft) (v : Value) : draft.withField "actions" v =
    (list StepOutline.ofValue v).map fun actions => { draft with actions := some actions } := by
  refine (if_neg (by decide)).trans ?_
  refine (if_pos rfl).trans ?_
  cases list StepOutline.ofValue v <;> rfl

theorem withField_unknown {key : String} (h : key ∉ ["predicate", "actions"]) (draft : Draft)
    (v : Value) : draft.withField key v = .ok draft := by
  simp only [List.mem_cons, List.not_mem_nil, or_false, not_or] at h
  exact (if_neg h.1).trans (if_neg h.2)

theorem decode (o : BranchOutline) : ofValue o.toValue = .ok o := by
  simp [toValue_eq, ofValue, record, withField_predicate, withField_actions, Draft.finish,
    StepOutline.decode, list_decode StepOutline.decode, map_then, bind_eq_ok, fmap_eq_ok,
    required_eq_ok]

theorem positional (items : List Value) (o : BranchOutline) :
    ofValue (.array items) = .ok o ↔
      items.length ≤ 2 ∧ ofValue (.object (["predicate", "actions"].zip items)) = .ok o := by
  match items with
  | [] => simp [ofValue, record, element, Draft.finish, bind_eq_ok, fmap_eq_ok, required_eq_ok]
  | [predicate] =>
      simp [ofValue, record, element, withField_predicate, Draft.finish, map_then, bind_eq_ok,
        fmap_eq_ok, required_eq_ok]
  | [predicate, actions] =>
      simp [ofValue, record, element, withField_predicate, withField_actions, Draft.finish,
        map_then, bind_eq_ok, fmap_eq_ok, required_eq_ok]
  | predicate :: actions :: next :: rest => simp [ofValue, record, element, bind_eq_ok]

theorem writtenForm : RecordForm ["predicate", "actions"] ofValue toValue :=
  recordForm decode (fun draft _ v h => withField_unknown h draft v) positional

end BranchOutline

namespace ItemOutline

theorem toValue_eq (o : ItemOutline) : o.toValue = .object
    [("branches", .array (o.branches.map BranchOutline.toValue)), ("index", .int o.index),
      ("kind", o.kind.toValue)] := by
  simp only [toValue, Value.ofFields, List.foldl_cons, List.foldl_nil, Value.insertField,
    String.reduceLT, String.reduceEq, if_true, if_false]

theorem withField_index (draft : Draft) (v : Value) : draft.withField "index" v =
    (Codec.index v).map fun index => { draft with index := some index } := by
  refine (if_pos rfl).trans ?_
  cases Codec.index v <;> rfl

theorem withField_kind (draft : Draft) (v : Value) : draft.withField "kind" v =
    (ItemKind.ofValue v).map fun kind => { draft with kind := some kind } := by
  refine (if_neg (by decide)).trans ?_
  refine (if_pos rfl).trans ?_
  cases ItemKind.ofValue v <;> rfl

theorem withField_branches (draft : Draft) (v : Value) : draft.withField "branches" v =
    (list BranchOutline.ofValue v).map fun branches =>
      { draft with branches := some branches } := by
  refine (if_neg (by decide)).trans ?_
  refine (if_neg (by decide)).trans ?_
  refine (if_pos rfl).trans ?_
  cases list BranchOutline.ofValue v <;> rfl

theorem withField_unknown {key : String} (h : key ∉ ["index", "kind", "branches"])
    (draft : Draft) (v : Value) : draft.withField key v = .ok draft := by
  simp only [List.mem_cons, List.not_mem_nil, or_false, not_or] at h
  exact (if_neg h.1).trans ((if_neg h.2.1).trans (if_neg h.2.2))

theorem index_int (n : Nat) : Codec.index (.int n) = .ok n := by
  simp [Codec.index]

theorem decode (o : ItemOutline) : ofValue o.toValue = .ok o := by
  simp [toValue_eq, ofValue, record, withField_index, withField_kind, withField_branches,
    Draft.finish, index_int, ItemKind.writtenForm.decode, list_decode BranchOutline.decode,
    map_then, bind_eq_ok, fmap_eq_ok, required_eq_ok]

theorem positional (items : List Value) (o : ItemOutline) :
    ofValue (.array items) = .ok o ↔
      items.length ≤ 3 ∧ ofValue (.object (["index", "kind", "branches"].zip items)) = .ok o := by
  match items with
  | [] => simp [ofValue, record, element, Draft.finish, bind_eq_ok, fmap_eq_ok, required_eq_ok]
  | [index] =>
      simp [ofValue, record, element, withField_index, Draft.finish, map_then, bind_eq_ok,
        fmap_eq_ok, required_eq_ok]
  | [index, kind] =>
      simp [ofValue, record, element, withField_index, withField_kind, Draft.finish, map_then,
        bind_eq_ok, fmap_eq_ok, required_eq_ok]
  | [index, kind, branches] =>
      simp [ofValue, record, element, withField_index, withField_kind, withField_branches,
        Draft.finish, map_then, bind_eq_ok, fmap_eq_ok, required_eq_ok]
  | index :: kind :: branches :: next :: rest => simp [ofValue, record, element, bind_eq_ok]

theorem writtenForm : RecordForm ["index", "kind", "branches"] ofValue toValue :=
  recordForm decode (fun draft _ v h => withField_unknown h draft v) positional

end ItemOutline

namespace Outline

theorem withField_items (draft : Option (List ItemOutline)) (v : Value) :
    withField draft "items" v = (list ItemOutline.ofValue v).map some := by
  refine (if_pos rfl).trans ?_
  cases list ItemOutline.ofValue v <;> rfl

theorem withField_unknown {key : String} (h : key ∉ ["items"])
    (draft : Option (List ItemOutline)) (v : Value) : withField draft key v = .ok draft := by
  rw [List.mem_singleton] at h
  exact if_neg h

theorem decode (o : Outline) : ofValue o.toValue = .ok o := by
  simp [toValue, Value.ofFields, Value.insertField, ofValue, record, withField_items,
    list_decode ItemOutline.decode, map_then, bind_eq_ok, map_eq_ok, required_eq_ok]

theorem positional (items : List Value) (o : Outline) :
    ofValue (.array items) = .ok o ↔
      items.length ≤ 1 ∧ ofValue (.object (["items"].zip items)) = .ok o := by
  match items with
  | [] => simp [ofValue, record, element, map_eq_ok, required_eq_ok]
  | [given] =>
      simp [ofValue, record, element, withField_items, map_then, bind_eq_ok, map_eq_ok,
        required_eq_ok]
  | given :: next :: rest => simp [ofValue, record, element, bind_eq_ok, map_eq_ok]

theorem writtenForm : RecordForm ["items"] ofValue toValue :=
  recordForm decode (fun draft _ v h => withField_unknown h draft v) positional

end Outline

/--
The outline of every sequence, every configuration, every list of values and every set of results
is read back from what is written of it.  Of whatever is read, what is written is read as the
same: in each spelling that the types accept, with keys that nobody knows, as arrays of fields, or
as words that are keys.  An object for a configuration may lack any fields; those, and only those,
have their defaults.
-/
theorem decode_written {υ : Type} :
    (∀ s : Sequence υ, Outline.ofValue s.outline.toValue = .ok s.outline) ∧
    RecordForm ["items"] Outline.ofValue Outline.toValue ∧
    RecordForm ["index", "kind", "branches"] ItemOutline.ofValue ItemOutline.toValue ∧
    RecordForm ["predicate", "actions"] BranchOutline.ofValue BranchOutline.toValue ∧
    RecordForm ["shape", "label"] StepOutline.ofValue StepOutline.toValue ∧
    WordForm ItemKind.ofValue ItemKind.toValue ∧
    WordForm Shape.ofValue Shape.toValue ∧
    ListForm Values.ofValue Values.toValue Values.toList ∧
    ListForm ResultSet.ofValue ResultSet.toValue ResultSet.toList ∧
    RecordForm ["label", "record_loop_results", "catch_panics"] Config.ofValue Config.toValue ∧
    ∀ (fields : List (String × Value)) (config : Config), (fields.map Prod.fst).Nodup →
      (Config.ofValue (.object fields) = .ok config ↔
        FieldReads fields "label" (optional string) ({} : Config).label config.label ∧
        FieldReads fields "record_loop_results" boolean ({} : Config).recordLoopResults
          config.recordLoopResults ∧
        FieldReads fields "catch_panics" boolean ({} : Config).catchPanics config.catchPanics) :=
  ⟨fun s => Outline.decode s.outline, Outline.writtenForm, ItemOutline.writtenForm,
    BranchOutline.writtenForm, StepOutline.writtenForm, ItemKind.writtenForm, Shape.writtenForm,
    Values.writtenForm, ResultSet.writtenForm, Config.writtenForm,
    fun _ config hkeys => Config.ofValue_object hkeys config⟩

/-- A configuration that only says that panics are not caught, with a key that nobody knows. -/
theorem decode_written_partial :
    ([("catch_panics", Value.bool false), ("retries", .int 3)].map Prod.fst).Nodup ∧
    Config.ofValue (.object [("catch_panics", .bool false), ("retries", .int 3)]) =
      .ok { label := none, recordLoopResults := false, catchPanics := false } := by
  have hkeys : ([("catch_panics", Value.bool false), ("retries", .int 3)].map Prod.fst).Nodup := by
    decide
  obtain ⟨-, -, -, -, -, -, -, -, -, -, hfields⟩ := @decode_written Unit
  refine ⟨hkeys, (hfields _ _ hkeys).mpr ⟨?_, ?_, ?_⟩⟩
  · simp [FieldReads, Value.field?]
  · simp [FieldReads, Value.field?]
  · rw [fieldReads_cons_self, boolean]

end Stepwise
