import IssueSearch.Data.Json
import IssueSearch.Proofs.Dates
import IssueSearch.Proofs.JsonText

/-! # JSON forms of types and values

    A value has one JSON form in which everything is written out, and others
    in which members that hold their default are left out.  Each of them reads
    as the value.

    * `Omissible`: a member that may be left out when it holds its default.
    * `DataType.ofJson_toJson`: a type reads as itself.
    * `Value.HasJson`: the JSON forms of a value.
    * `Value.HasJson.read`, `Value.HasJson.isExact`: each of them reads as the
      value, and its text says all there is to it.
    * `Value.IsStorable`, `Value.hasJson_toJson`: which values have a form, and
      that the one written out is among them. -/

namespace IssueSearch

/-- The members that a key of the given default contributes: one, or none if
    the default holds. -/
inductive Omissible (isDefault : Prop) (key : String) (j : Json) : List (String × Json) → Prop
  | written : Omissible isDefault key j [(key, j)]
  | omitted : isDefault → Omissible isDefault key j []

theorem Omissible.isExact {isDefault : Prop} {key : String} {j : Json}
    {ms : List (String × Json)} (h : Omissible isDefault key j ms) (hj : j.isExact = true) :
    ∀ m ∈ ms, m.2.isExact = true := by
  cases h <;> simp [hj]

/-! ## Types -/

namespace DataType

/-- A type reads as itself, wherever it stands. -/
theorem read_toJson (t : DataType) : (t.toJson.fold readPart).type = .ok t := by
  induction t with
  | array element ih =>
    show ((element.toJson.fold readPart).type >>= fun t => .ok (array t)) = _
    rw [ih]
    rfl
  | nullable inner ih =>
    show ((inner.toJson.fold readPart).type >>= fun t => .ok (nullable t)) = _
    rw [ih]
    rfl
  | sequence element ih =>
    show ((element.toJson.fold readPart).type >>= fun t => .ok (sequence t)) = _
    rw [ih]
    rfl
  | _ => rfl

theorem isExact_toJson (t : DataType) : t.toJson.isExact = true := by
  induction t with
  | array element ih | nullable inner ih | sequence element ih => simp [toJson, ih]
  | _ => simp [toJson]

theorem ofJson_toJson (t : DataType) : ofJson t.toJson = .ok t := by
  have hreadable := Json.isReadable_of_isExact (isExact_toJson t)
  show (t.toJson.asReadable >>= fun j => (j.fold readPart).type) = _
  rw [Json.asReadable, if_pos hreadable]
  exact read_toJson t

end DataType

/-! ## Fields of a record -/

/-- The fields stand in the order of their names, each name once. -/
def SortedFields (fields : List (String × Value)) : Prop :=
  fields.Pairwise fun f g => f.1 < g.1

theorem insertField_of_forall_lt {name : String} {value : Value} {fields : List (String × Value)}
    (h : ∀ f ∈ fields, f.1 < name) : insertField name value fields = fields ++ [(name, value)] := by
  induction fields with
  | nil => rfl
  | cons f rest ih =>
    have hlt := h f List.mem_cons_self
    have hbefore : ¬ name < f.1 := String.lt_asymm hlt
    have hne : ¬ name = f.1 := fun heq => String.lt_irrefl _ (heq ▸ hlt)
    rw [insertField, if_neg hbefore, if_neg hne, ih fun g hg => h g (List.mem_cons_of_mem f hg)]
    rfl

/-- Fields that are in order stay as they are. -/
theorem sortFields_of_sorted {fields : List (String × Value)} (h : SortedFields fields) :
    sortFields fields = fields := by
  have hfold : ∀ before after : List (String × Value), SortedFields (before ++ after) →
      after.foldl (fun sorted f => insertField f.1 f.2 sorted) before = before ++ after := by
    intro before after
    induction after generalizing before with
    | nil => simp
    | cons f rest ih =>
      intro hsorted
      -- each field is larger than all that were inserted, so it goes last
      have hbefore : ∀ g ∈ before, g.1 < f.1 := fun g hg =>
        (List.pairwise_append.mp hsorted).2.2 g hg f List.mem_cons_self
      rw [List.foldl_cons, insertField_of_forall_lt hbefore, ih _ (by simpa using hsorted)]
      simp
  exact hfold [] fields h

/-! ## Values -/

namespace Value

/-- A document that holds something of the given kind. -/
def ofKind (kind : String) (content : Json) : Json :=
  .obj [("kind", .str kind), ("value", content)]

/-- The JSON forms of the text that a record is shown as: without a text the
    member is left out or `null`. -/
inductive DisplayJson : Option String → List (String × Json) → Prop
  | absent : DisplayJson none []
  | null : DisplayJson none [("display", .null)]
  | shown (text : String) : DisplayJson (some text) [("display", .str text)]

mutual

/-- `HasJson v j`: the document `j` is a JSON form of the value `v`.  There is
    none for a floating-point number, whose text may be that of another. -/
inductive HasJson : Value → Json → Prop
  | null : HasJson .null (.obj [("kind", .str "null")])
  | bool (b : Bool) : HasJson (.bool b) (ofKind "bool" (.bool b))
  | int (n : Int64) : HasJson (.int n) (ofKind "int" (.int n.toInt))
  | str (s : String) : HasJson (.str s) (ofKind "str" (.str s))
  | date (d : Calendar.DateTime) : HasJson (.date d) (ofKind "date" (.str d.interchange))
  | array {items : List Value} {js : List Json} :
      ItemsJson items js → HasJson (.array items) (ofKind "array" (.arr js))
  | record (typeName : String) {text? : Option String} {fields : List (String × Value)}
      {ms shown held : List (String × Json)} :
      SortedFields fields → FieldsJson fields ms → DisplayJson text? shown →
      Omissible (fields = []) "fields" (.obj ms) held →
      HasJson (.record typeName text? fields)
        (ofKind "record" (.obj (("type_name", .str typeName) :: (shown ++ held))))
  | source (entity : String) :
      HasJson (.source entity) (ofKind "source" (.obj [("entity", .str entity)]))

/-- The JSON forms of the items of a list. -/
inductive ItemsJson : List Value → List Json → Prop
  | nil : ItemsJson [] []
  | cons {v : Value} {j : Json} {items : List Value} {js : List Json} :
      HasJson v j → ItemsJson items js → ItemsJson (v :: items) (j :: js)

/-- The JSON forms of the fields of a record. -/
inductive FieldsJson : List (String × Value) → List (String × Json) → Prop
  | nil : FieldsJson [] []
  | cons (name : String) {v : Value} {j : Json} {fields : List (String × Value)}
      {ms : List (String × Json)} :
      HasJson v j → FieldsJson fields ms → FieldsJson ((name, v) :: fields) ((name, j) :: ms)

end

/-! ### Reading -/

theorem asInt64_toInt (n : Int64) : (Json.int n.toInt).asInt64 = .ok n := by
  have hfits : Number.fits n.toInt = true := by
    rw [Number.fits, Bool.and_eq_true, decide_eq_true_eq, decide_eq_true_eq]
    exact ⟨Int64.minValue_le_toInt n, Int64.toInt_le n⟩
  simp only [Json.asInt64, Number.int64?, if_pos hfits, Int64.ofInt_toInt]

theorem ofJson_interchange (d : Calendar.DateTime) :
    Calendar.DateTime.ofJson (.str d.interchange) = .ok d := by
  unfold Calendar.DateTime.ofJson
  rw [Json.asStr]
  dsimp only [bind, Except.bind]
  rw [Calendar.DateTime.read?_interchange]

theorem read_int (n : Int) :
    ((ofKind "int" (.int n)).fold readPart).value =
      ((Json.int n).asInt64 >>= fun n => .ok (int n)) := rfl

theorem read_date (s : String) :
    ((ofKind "date" (.str s)).fold readPart).value =
      (Calendar.DateTime.ofJson (.str s) >>= fun d => .ok (date d)) := rfl

theorem read_array (js : List Json) :
    ((ofKind "array" (.arr js)).fold readPart).value =
      (Decoded.sequence ((Json.foldItems readPart js).map Reading.value) >>= fun items =>
        .ok (array items)) := rfl

theorem read_record (ms : List (String × Json)) :
    ((ofKind "record" (.obj ms)).fold readPart).value =
      (recordOfMembers (Json.foldMembers readPart ms) >>= fun r => .ok r.toValue) := rfl

/-- A record reads as itself once its fields do. -/
theorem recordOfMembers_eq (typeName : String) {text? : Option String}
    {fields : List (String × Value)} {ms shown held : List (String × Json)}
    (hsorted : SortedFields fields)
    (hfields : fieldsOfMembers (Json.foldMembers readPart ms) = .ok fields)
    (hshown : DisplayJson text? shown) (hheld : Omissible (fields = []) "fields" (.obj ms) held) :
    recordOfMembers (Json.foldMembers readPart (("type_name", .str typeName) :: (shown ++ held))) =
      .ok { typeName := typeName, display := text?, fields := fields } := by
  have hread : ((Json.obj ms).fold readPart).fields = .ok fields := by
    show (fieldsOfMembers (Json.foldMembers readPart ms)).map sortFields = _
    rw [hfields, Except.map, sortFields_of_sorted hsorted]
  -- what the members give, with the fields written out or not
  have hwritten : recordOfMembers (Json.foldMembers readPart
      (("type_name", .str typeName) :: (shown ++ [("fields", .obj ms)]))) =
      (((Json.obj ms).fold readPart).fields >>= fun fields =>
        .ok { typeName := typeName, display := text?, fields := fields }) := by
    cases hshown <;> rfl
  have homitted : recordOfMembers (Json.foldMembers readPart
      (("type_name", .str typeName) :: (shown ++ []))) =
      .ok { typeName := typeName, display := text?, fields := [] } := by
    cases hshown <;> rfl
  cases hheld with
  | written =>
    rw [hwritten, hread]
    rfl
  | omitted hempty =>
    rw [homitted, hempty]

mutual

/-- Every form of a value reads as the value. -/
theorem HasJson.read {v : Value} {j : Json} (h : HasJson v j) :
    (j.fold readPart).value = .ok v := by
  cases h with
  | null | bool | str | source => rfl
  | int n =>
    rw [read_int, asInt64_toInt]
    rfl
  | date d =>
    rw [read_date, ofJson_interchange]
    rfl
  | array hitems =>
    rw [read_array, hitems.read]
    rfl
  | record typeName hsorted hfields hshown hheld =>
    rw [read_record, recordOfMembers_eq typeName hsorted hfields.read hshown hheld]
    rfl

theorem ItemsJson.read {items : List Value} {js : List Json} (h : ItemsJson items js) :
    Decoded.sequence ((Json.foldItems readPart js).map Reading.value) = .ok items := by
  cases h with
  | nil => rfl
  | cons hitem hrest =>
    simp only [Json.foldItems, List.map_cons, Decoded.sequence]
    rw [hitem.read, hrest.read]
    rfl

theorem FieldsJson.read {fields : List (String × Value)} {ms : List (String × Json)}
    (h : FieldsJson fields ms) : fieldsOfMembers (Json.foldMembers readPart ms) = .ok fields := by
  cases h with
  | nil => rfl
  | cons name hfield hrest =>
    simp only [Json.foldMembers, fieldsOfMembers]
    rw [hfield.read, hrest.read]
    rfl

end

/-! ### Exactness -/

theorem isExact_toInt (n : Int64) : (Json.int n.toInt).isExact = true := by
  have hge := Int64.le_toInt n
  have hlt := Int64.toInt_lt n
  rw [Json.isExact_int]
  omega

theorem isExact_ofKind (kind : String) (content : Json) :
    (ofKind kind content).isExact = content.isExact := by
  rw [Bool.eq_iff_iff]
  simp [ofKind]

theorem DisplayJson.isExact {text? : Option String} {ms : List (String × Json)}
    (h : DisplayJson text? ms) : ∀ m ∈ ms, m.2.isExact = true := by
  cases h <;> simp

mutual

/-- The text of a form says all there is to it. -/
theorem HasJson.isExact {v : Value} {j : Json} (h : HasJson v j) : j.isExact = true := by
  cases h with
  | null => rfl
  | bool | str | date | source => simp [ofKind]
  | int n => rw [isExact_ofKind, isExact_toInt]
  | array hitems => rw [isExact_ofKind, Json.isExact_arr]; exact hitems.isExact
  | record typeName _ hfields hshown hheld =>
    have hheld' := hheld.isExact ((Json.isExact_obj _).mpr hfields.isExact)
    rw [isExact_ofKind, Json.isExact_obj]
    exact List.forall_mem_cons.mpr
      ⟨rfl, List.forall_mem_append.mpr ⟨hshown.isExact, hheld'⟩⟩

theorem ItemsJson.isExact {items : List Value} {js : List Json} (h : ItemsJson items js) :
    ∀ j ∈ js, j.isExact = true := by
  cases h with
  | nil => simp
  | cons hitem hrest => exact List.forall_mem_cons.mpr ⟨hitem.isExact, hrest.isExact⟩

theorem FieldsJson.isExact {fields : List (String × Value)} {ms : List (String × Json)}
    (h : FieldsJson fields ms) : ∀ m ∈ ms, m.2.isExact = true := by
  cases h with
  | nil => simp
  | cons name hfield hrest => exact List.forall_mem_cons.mpr ⟨hfield.isExact, hrest.isExact⟩

end

/-! ### Values that can be stored -/

mutual

/-- The value holds no floating-point number, and the fields of its records
    stand in order. -/
def IsStorable : Value → Prop
  | float _           => False
  | array items       => itemsStorable items
  | record _ _ fields => SortedFields fields ∧ fieldsStorable fields
  | _                 => True

/-- The same of all items. -/
def itemsStorable : List Value → Prop
  | []           => True
  | item :: rest => item.IsStorable ∧ itemsStorable rest

/-- The same of all fields. -/
def fieldsStorable : List (String × Value) → Prop
  | []                => True
  | (_, value) :: rest => value.IsStorable ∧ fieldsStorable rest

end

mutual

/-- What is written out is a form of the value. -/
theorem hasJson_toJson : ∀ v : Value, v.IsStorable → HasJson v v.toJson
  | .null, _ => .null
  | .bool b, _ => .bool b
  | .int n, _ => .int n
  | .float _, h => h.elim
  | .str s, _ => .str s
  | .date d, _ => .date d
  | .array items, h => .array (itemsJson_toJson items h)
  | .record typeName none fields, h =>
    .record typeName h.1 (fieldsJson_toJson fields h.2) .absent .written
  | .record typeName (some text) fields, h =>
    .record typeName h.1 (fieldsJson_toJson fields h.2) (.shown text) .written
  | .source entity, _ => .source entity

theorem itemsJson_toJson : ∀ items : List Value, itemsStorable items →
    ItemsJson items (itemsToJson items)
  | [], _ => .nil
  | item :: rest, h => .cons (hasJson_toJson item h.1) (itemsJson_toJson rest h.2)

theorem fieldsJson_toJson : ∀ fields : List (String × Value), fieldsStorable fields →
    FieldsJson fields (fieldsToJson fields)
  | [], _ => .nil
  | (name, value) :: rest, h =>
    .cons name (hasJson_toJson value h.1) (fieldsJson_toJson rest h.2)

end

end Value

end IssueSearch
