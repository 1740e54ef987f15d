import IssueSearch.Command.Run
import IssueSearch.Proofs.Execution
import IssueSearch.Proofs.ValueJson

/-! # JSON forms of query trees

    A tree has one JSON form in which everything is written out, and others in
    which members that hold their default are left out: the target of a call,
    the mark of a remote method, a list without operands, the type `any`, and
    the text and the fields of a record.  Each of them reads as the tree.

    As text, a form is read back as long as it is not nested too deep for the
    reader, and what is nested deeper is refused.

    * `Expr.HasJson`: the JSON forms of a tree.
    * `Expr.HasJson.read`, `Expr.HasJson.isExact`: each of them reads as the
      tree, and its text says all there is to it.
    * `Expr.json_roundTrip`: both, for every tree of constants that can be
      stored. -/

namespace IssueSearch

/-! ## Parts of nodes -/

theorem BinaryOp.ofJson_key (op : BinaryOp) : BinaryOp.ofJson (.str op.key) = .ok op := by
  cases op <;> rfl

/-- The JSON forms of a method. -/
inductive Method.HasJson : Method → Json → Prop
  | mk (m : Method) {ms : List (String × Json)} :
      Omissible (m.remote = false) "remote" (.bool m.remote) ms →
      HasJson m (.obj (("name", .str m.name) :: ms))

theorem Method.HasJson.ofJson {m : Method} {j : Json} (h : m.HasJson j) :
    Method.ofJson j = .ok m := by
  obtain ⟨hremote⟩ := h
  cases hremote with
  | written => rfl
  | omitted hdefault =>
    rw [show m = { name := m.name, remote := false } by rw [← hdefault]]
    rfl

theorem Method.HasJson.isExact {m : Method} {j : Json} (h : m.HasJson j) : j.isExact = true := by
  obtain ⟨hremote⟩ := h
  rw [Json.isExact_obj]
  exact List.forall_mem_cons.mpr ⟨rfl, hremote.isExact rfl⟩

/-- The JSON forms of a declared type, as a member that may be left out. -/
abbrev TypeJson (type : DataType) : List (String × Json) → Prop :=
  Omissible (type = .any) "ty" type.toJson

/-- The JSON forms of a parameter. -/
inductive Param.HasJson : Param → Json → Prop
  | mk (p : Param) {ms : List (String × Json)} :
      TypeJson p.type ms → HasJson p (.obj (("name", .str p.name) :: ms))

theorem Param.HasJson.ofJson {p : Param} {j : Json} (h : p.HasJson j) : Param.ofJson j = .ok p := by
  obtain ⟨htype⟩ := h
  cases htype with
  | written =>
    show (DataType.ofJson p.type.toJson >>= fun type => Except.ok (Param.mk p.name type)) = _
    rw [DataType.ofJson_toJson]
    rfl
  | omitted hdefault =>
    rw [show p = { name := p.name, type := .any } by rw [← hdefault]]
    rfl

theorem Param.HasJson.isExact {p : Param} {j : Json} (h : p.HasJson j) : j.isExact = true := by
  obtain ⟨htype⟩ := h
  rw [Json.isExact_obj]
  exact List.forall_mem_cons.mpr ⟨rfl, htype.isExact (DataType.isExact_toJson _)⟩

theorem Param.listOfJson_arr {params : List Param} {js : List Json}
    (h : List.Forall₂ Param.HasJson params js) : Param.listOfJson (.arr js) = .ok params := by
  show Decoded.sequence (js.map Param.ofJson) = _
  induction h with
  | nil => rfl
  | cons hparam _ ih =>
    rw [List.map_cons, Decoded.sequence, hparam.ofJson, ih]
    rfl

theorem Param.isExact_of_forall₂ {params : List Param} {js : List Json}
    (h : List.Forall₂ Param.HasJson params js) : ∀ j ∈ js, j.isExact = true := by
  intro j hj
  obtain ⟨param, _, hparam⟩ := exists_of_mem_of_forall₂ h.flip hj
  exact hparam.isExact

/-! ## Nodes -/

namespace Expr

mutual

/-- `HasJson e j`: the document `j` is a JSON form of the tree `e`. -/
inductive HasJson : Expr → Json → Prop
  | binary (op : BinaryOp) {left right : Expr} {l r : Json} :
      HasJson left l → HasJson right r →
      HasJson (.binary op left right)
        (.obj [("node", .str "binary"), ("op", .str op.key), ("left", l), ("right", r)])
  | call {target : Option Expr} {method : Method} {args : List Expr} {m : Json} {js : List Json}
      {t a : List (String × Json)} :
      TargetJson target t → method.HasJson m → ArgsJson args js →
      Omissible (args = []) "args" (.arr js) a →
      HasJson (.call target method args)
        (.obj (("node", .str "call") :: (t ++ ("method", m) :: a)))
  | member (p : Property) {target : Expr} {type : DataType} {t : Json}
      {y : List (String × Json)} :
      HasJson target t → TypeJson type y →
      HasJson (.member target p type)
        (.obj (("node", .str "member") :: ("target", t) :: ("member", p.toJson) :: y))
  | constant {value : Value} {type : DataType} {v : Json} {y : List (String × Json)} :
      value.HasJson v → TypeJson type y →
      HasJson (.constant value type) (.obj (("node", .str "constant") :: ("value", v) :: y))
  | convert (type : DataType) {operand : Expr} {o : Json} :
      HasJson operand o →
      HasJson (.convert operand type)
        (.obj [("node", .str "convert"), ("operand", o), ("ty", type.toJson)])
  | construct (name : String) {args : List Expr} {js : List Json} {a : List (String × Json)} :
      ArgsJson args js → Omissible (args = []) "args" (.arr js) a →
      HasJson (.construct name args)
        (.obj (("node", .str "new") :: ("constructor", .str name) :: a))
  | lambda {params : List Param} {body : Expr} {ps : List Json} {b : Json} :
      List.Forall₂ Param.HasJson params ps → HasJson body b →
      HasJson (.lambda params body)
        (.obj [("node", .str "lambda"), ("params", .arr ps), ("body", b)])
  | parameter (param : Param) {y : List (String × Json)} :
      TypeJson param.type y →
      HasJson (.parameter param)
        (.obj (("node", .str "parameter") :: ("name", .str param.name) :: y))
  | quote {operand : Expr} {o : Json} :
      HasJson operand o → HasJson (.quote operand) (.obj [("node", .str "quote"), ("operand", o)])

/-- The JSON forms of the target of a call: without a target the member is left
    out or `null`. -/
inductive TargetJson : Option Expr → List (String × Json) → Prop
  | absent : TargetJson none []
  | null : TargetJson none [("target", .null)]
  | target {e : Expr} {j : Json} : HasJson e j → TargetJson (some e) [("target", j)]

/-- The JSON forms of a list of operands. -/
inductive ArgsJson : List Expr → List Json → Prop
  | nil : ArgsJson [] []
  | cons {e : Expr} {j : Json} {args : List Expr} {js : List Json} :
      HasJson e j → ArgsJson args js → ArgsJson (e :: args) (j :: js)

end

/-! ### Reading -/

theorem json_fold (j : Json) : (j.fold readPart).json = j := by
  cases j <;> rfl

/-- The members of a node that are looked at as they are. -/
abbrev plainMembers (ms : List (String × Json)) : List (String × Json) :=
  (Json.foldMembers readPart ms).map fun m => (m.1, m.2.json)

theorem typeMember_eq {type : DataType} {y : List (String × Json)} (h : TypeJson type y) :
    typeMember (plainMembers y) = .ok type := by
  cases h with
  | written =>
    show DataType.ofJson (type.toJson.fold readPart).json = _
    rw [json_fold, DataType.ofJson_toJson]
  | omitted hdefault =>
    subst hdefault
    rfl

/-- A target that reads as a tree is not `null`. -/
theorem option_eq {j : Json} {e : Expr} (h : (j.fold readPart).expr = .ok e) :
    (j.fold readPart).option = .ok (some e) := by
  cases j with
  | null => cases h
  | _ => exact congrArg (Except.map some) h

/-- The operands read as themselves, whether an empty list is written or not. -/
theorem argsMember_eq {args : List Expr} {js : List Json} {a : List (String × Json)}
    (h : Decoded.sequence ((Json.foldItems readPart js).map Reading.expr) = .ok args)
    (ha : Omissible (args = []) "args" (.arr js) a) :
    Decoded.memberOr "args" [] Reading.exprs (Json.foldMembers readPart a) = .ok args := by
  cases ha with
  | written => exact h
  | omitted hdefault =>
    subst hdefault
    rfl

section Nodes

variable {d : Prop} {type : DataType} {js : List Json} {a y : List (String × Json)}

theorem read_binary (o l r : Json) :
    ((Json.obj [("node", .str "binary"), ("op", o), ("left", l), ("right", r)]).fold
        readPart).expr =
      (BinaryOp.ofJson (o.fold readPart).json >>= fun op =>
        (l.fold readPart).expr >>= fun left => (r.fold readPart).expr >>= fun right =>
          .ok (binary op left right)) := rfl

theorem read_call {target : Option Expr} {t : List (String × Json)} (ht : TargetJson target t)
    (ha : Omissible d "args" (.arr js) a) (m : Json) :
    ((Json.obj (("node", .str "call") :: (t ++ ("method", m) :: a))).fold readPart).expr =
      (Decoded.memberOr "target" none Reading.option (Json.foldMembers readPart t) >>= fun target =>
        Method.ofJson (m.fold readPart).json >>= fun method =>
          Decoded.memberOr "args" [] Reading.exprs (Json.foldMembers readPart a) >>= fun args =>
            .ok (call target method args)) := by
  cases ht <;> cases ha <;> rfl

theorem read_member (hy : TypeJson type y) (t : Json) (p : Property) :
    ((Json.obj (("node", .str "member") :: ("target", t) :: ("member", p.toJson) :: y)).fold
        readPart).expr =
      ((t.fold readPart).expr >>= fun target => typeMember (plainMembers y) >>= fun type =>
        .ok (member target p type)) := by
  cases hy <;> rfl

theorem read_constant (hy : TypeJson type y) (v : Json) :
    ((Json.obj (("node", .str "constant") :: ("value", v) :: y)).fold readPart).expr =
      (Value.ofJson (v.fold readPart).json >>= fun value =>
        typeMember (plainMembers y) >>= fun type => .ok (constant value type)) := by
  cases hy <;> rfl

theorem read_convert (o t : Json) :
    ((Json.obj [("node", .str "convert"), ("operand", o), ("ty", t)]).fold readPart).expr =
      ((o.fold readPart).expr >>= fun operand => DataType.ofJson (t.fold readPart).json >>=
        fun type => .ok (convert operand type)) := rfl

theorem read_construct (ha : Omissible d "args" (.arr js) a) (name : String) :
    ((Json.obj (("node", .str "new") :: ("constructor", .str name) :: a)).fold readPart).expr =
      (Decoded.memberOr "args" [] Reading.exprs (Json.foldMembers readPart a) >>= fun args =>
        .ok (construct name args)) := by
  cases ha <;> rfl

theorem read_lambda (ps b : Json) :
    ((Json.obj [("node", .str "lambda"), ("params", ps), ("body", b)]).fold readPart).expr =
      (Param.listOfJson (ps.fold readPart).json >>= fun params => (b.fold readPart).expr >>=
        fun body => .ok (lambda params body)) := rfl

theorem read_parameter (hy : TypeJson type y) (name : String) :
    ((Json.obj (("node", .str "parameter") :: ("name", .str name) :: y)).fold readPart).expr =
      ((typeMember (plainMembers y) >>= fun type => Except.ok (Param.mk name type)) >>= fun param =>
        .ok (parameter param)) := by
  cases hy <;> rfl

theorem read_quote (o : Json) :
    ((Json.obj [("node", .str "quote"), ("operand", o)]).fold readPart).expr =
      ((o.fold readPart).expr >>= fun operand => .ok (quote operand)) := rfl

end Nodes

mutual

/-- Every form of a tree reads as the tree. -/
theorem HasJson.read {e : Expr} {j : Json} (h : HasJson e j) : (j.fold readPart).expr = .ok e := by
  cases h with
  | binary op hleft hright =>
    rw [read_binary, json_fold, BinaryOp.ofJson_key, hleft.read, hright.read]
    rfl
  | call htarget hmethod hargs ha =>
    rw [read_call htarget ha, htarget.read, json_fold, hmethod.ofJson, argsMember_eq hargs.read ha]
    rfl
  | member p htarget hy =>
    rw [read_member hy, htarget.read, typeMember_eq hy]
    rfl
  | constant hvalue hy =>
    rw [read_constant hy, json_fold, Value.ofJson, hvalue.read, typeMember_eq hy]
    rfl
  | convert type hoperand =>
    rw [read_convert, hoperand.read, json_fold, DataType.ofJson_toJson]
    rfl
  | construct name hargs ha =>
    rw [read_construct ha, argsMember_eq hargs.read ha]
    rfl
  | lambda hparams hbody =>
    rw [read_lambda, json_fold, Param.listOfJson_arr hparams, hbody.read]
    rfl
  | parameter param hy =>
    rw [read_parameter hy, typeMember_eq hy]
    rfl
  | quote hoperand =>
    rw [read_quote, hoperand.read]
    rfl

theorem TargetJson.read {target : Option Expr} {t : List (String × Json)}
    (h : TargetJson target t) :
    Decoded.memberOr "target" none Reading.option (Json.foldMembers readPart t) = .ok target := by
  cases h with
  | absent => rfl
  | null => rfl
  | target htarget => exact option_eq htarget.read

theorem ArgsJson.read {args : List Expr} {js : List Json} (h : ArgsJson args js) :
    Decoded.sequence ((Json.foldItems readPart js).map Reading.expr) = .ok args := by
  cases h with
  | nil => rfl
  | cons harg hrest =>
    rw [Json.foldItems, List.map_cons, Decoded.sequence, harg.read, hrest.read]
    rfl

end

/-! ### Exactness -/

mutual

/-- The text of a form says all there is to it. -/
theorem HasJson.isExact {e : Expr} {j : Json} (h : HasJson e j) : j.isExact = true := by
  cases h with
  | binary op hleft hright => simp [hleft.isExact, hright.isExact]
  | call htarget hmethod hargs ha =>
    have hargs' := ha.isExact ((Json.isExact_arr _).mpr hargs.isExact)
    rw [Json.isExact_obj]
    refine List.forall_mem_cons.mpr ⟨rfl, List.forall_mem_append.mpr ⟨htarget.isExact, ?_⟩⟩
    exact List.forall_mem_cons.mpr ⟨hmethod.isExact, hargs'⟩
  | member p htarget hy =>
    have hp : p.toJson.isExact = true := by simp [Property.toJson]
    rw [Json.isExact_obj]
    simp only [List.forall_mem_cons]
    exact ⟨rfl, htarget.isExact, hp, hy.isExact (DataType.isExact_toJson _)⟩
  | constant hvalue hy =>
    rw [Json.isExact_obj]
    simp only [List.forall_mem_cons]
    exact ⟨rfl, hvalue.isExact, hy.isExact (DataType.isExact_toJson _)⟩
  | convert type hoperand => simp [hoperand.isExact, DataType.isExact_toJson]
  | construct name hargs ha =>
    rw [Json.isExact_obj]
    simp only [List.forall_mem_cons]
    exact ⟨rfl, rfl, ha.isExact ((Json.isExact_arr _).mpr hargs.isExact)⟩
  | lambda hparams hbody =>
    rw [Json.isExact_obj]
    simp only [List.forall_mem_cons]
    exact ⟨rfl, (Json.isExact_arr _).mpr (Param.isExact_of_forall₂ hparams), hbody.isExact,
      by simp⟩
  | parameter param hy =>
    rw [Json.isExact_obj]
    simp only [List.forall_mem_cons]
    exact ⟨rfl, rfl, hy.isExact (DataType.isExact_toJson _)⟩
  | quote hoperand => simp [hoperand.isExact]

theorem TargetJson.isExact {target : Option Expr} {t : List (String × Json)}
    (h : TargetJson target t) : ∀ m ∈ t, m.2.isExact = true := by
  cases h with
  | absent => simp
  | null => simp
  | target htarget => simpa using htarget.isExact

theorem ArgsJson.isExact {args : List Expr} {js : List Json} (h : ArgsJson args js) :
    ∀ j ∈ js, j.isExact = true := by
  cases h with
  | nil => simp
  | cons harg hrest => exact List.forall_mem_cons.mpr ⟨harg.isExact, hrest.isExact⟩

end

/-! ### Trees that are written out -/

theorem argsJson_toJson {args : List Expr} (h : ∀ a ∈ args, HasJson a a.toJson) :
    ArgsJson args (argsToJson args) := by
  induction args with
  | nil => exact .nil
  | cons arg rest ih =>
    exact .cons (h arg List.mem_cons_self) (ih fun a ha => h a (List.mem_cons_of_mem arg ha))

theorem targetJson_toJson {target : Option Expr} (h : ∀ t ∈ target, HasJson t t.toJson) :
    TargetJson target (targetToJson target) := by
  cases target with
  | none => exact .absent
  | some t => exact .target (h t rfl)

/-- What is written out is a form of the tree. -/
theorem hasJson_toJson {e : Expr} (h : e.AllConstants fun value _ => value.IsStorable) :
    HasJson e e.toJson := by
  induction e using induction_on_children with
  | step e ih =>
    obtain ⟨hself, hbelow⟩ := (allConstants_iff e).mp h
    have hchildren : ∀ c ∈ e.children, HasJson c c.toJson := fun c hc => ih c hc (hbelow c hc)
    cases e with
    | binary op left right =>
      exact .binary op (hchildren left (by simp [children])) (hchildren right (by simp [children]))
    | call target method args =>
      have htarget : ∀ t ∈ target, HasJson t t.toJson := fun t ht =>
        hchildren t (List.mem_append_left _ (Option.mem_toList.mpr ht))
      have hargs : ∀ a ∈ args, HasJson a a.toJson := fun a ha =>
        hchildren a (List.mem_append_right _ ha)
      exact .call (targetJson_toJson htarget) (.mk method .written) (argsJson_toJson hargs) .written
    | member target p type => exact .member p (hchildren target (by simp [children])) .written
    | constant value type =>
      exact .constant (Value.hasJson_toJson value (hself value type rfl)) .written
    | convert operand type => exact .convert type (hchildren operand (by simp [children]))
    | construct name args => exact .construct name (argsJson_toJson hchildren) .written
    | lambda params body =>
      have hparams : List.Forall₂ Param.HasJson params (params.map Param.toJson) := by
        rw [List.forall₂_map_right_iff]
        exact List.forall₂_same.mpr fun p _ => .mk p .written
      exact .lambda hparams (hchildren body (by simp [children]))
    | parameter param => exact .parameter param .written
    | quote operand => exact .quote (hchildren operand (by simp [children]))

/-! ## Texts -/

/-- As data, a form reads as the tree. -/
theorem HasJson.ofJson {e : Expr} {j : Json} (h : HasJson e j) : Expr.ofJson j = .ok e := by
  have hreadable := Json.isReadable_of_isExact h.isExact
  show (j.asReadable >>= fun j => (j.fold readPart).expr) = _
  rw [Json.asReadable, if_pos hreadable]
  exact h.read

/-- As text, a form reads as the tree exactly if it is not nested too deep, and
    never as another tree. -/
theorem HasJson.load_eq_ok_iff {e : Expr} {j : Json} (h : HasJson e j) (path : String)
    (e' : Expr) :
    Expr.load path (.ok j.compact) = .ok e' ↔ e' = e ∧ j.depth ≤ Json.maxDepth := by
  by_cases hdepth : j.depth ≤ Json.maxDepth
  · have hread : Expr.ofJson (j.cut Json.maxDepth) = .ok e := by
      rw [Json.cut_of_depth_le hdepth, h.ofJson]
    simp [Expr.load, Json.read?_compact h.isExact, hread, hdepth, eq_comm]
  · -- what lies too deep is unreadable, and so is the whole
    have hrefused : Expr.ofJson (j.cut Json.maxDepth) = .error .unreadable := by
      have hcut : ¬ (j.cut Json.maxDepth).isReadable = true :=
        fun hreadable => hdepth (Json.depth_le_of_isReadable_cut hreadable)
      show ((j.cut Json.maxDepth).asReadable >>= fun j => (j.fold readPart).expr) = _
      rw [Json.asReadable, if_neg hcut]
      rfl
    simp [Expr.load, Json.read?_compact h.isExact, hrefused, hdepth]

/-- **Trees are read back**: what a tree is written as is one of its JSON forms.
    Each of them reads as the tree and no other, as data whatever its depth
    and as text exactly if the reader allows for its depth. -/
theorem json_roundTrip (e : Expr) (h : e.AllConstants fun value _ => value.IsStorable) :
    HasJson e e.toJson ∧ ∀ j, HasJson e j → Expr.ofJson j = .ok e ∧
      ∀ (path : String) (e' : Expr), Expr.load path (.ok j.compact) = .ok e' ↔
        e' = e ∧ j.depth ≤ Json.maxDepth :=
  ⟨hasJson_toJson h, fun _ hj => ⟨hj.ofJson, hj.load_eq_ok_iff⟩⟩

/-- A millisecond before the year zero. -/
def lastMoment : Calendar.DateTime :=
  { day := -719529, nanos := 86399999000000, day_ge := by decide, day_le := by decide,
    nanos_lt := by decide }

/-- A query with a bare parameter, a call without a target and a record without
    fields. -/
def datedQuery : Expr :=
  .binary .greaterThan (.parameter { name := "issue", type := .any })
    (.call none { name := "len", remote := false }
      [.constant (.array [.date lastMoment, .record "Version" none [], .int (-5)]) .any])

/-- Its form with every default left out. -/
def datedQueryJson : Json :=
  .obj [("node", .str "binary"), ("op", .str "greater_than"),
    ("left", .obj [("node", .str "parameter"), ("name", .str "issue")]),
    ("right", .obj [("node", .str "call"), ("method", .obj [("name", .str "len")]),
      ("args", .arr [.obj [("node", .str "constant"),
        ("value", Value.ofKind "array" (.arr [Value.ofKind "date" (.str lastMoment.interchange),
          Value.ofKind "record" (.obj [("type_name", .str "Version")]),
          Value.ofKind "int" (.int (-5))]))]])])]

theorem json_roundTrip_datedQuery :
    (datedQuery.AllConstants fun value _ => value.IsStorable) ∧
    HasJson datedQuery datedQueryJson ∧ datedQueryJson.depth ≤ Json.maxDepth ∧
    lastMoment.interchange = "-0001-12-31T23:59:59.999" ∧
    Expr.load "query.json" (.ok datedQueryJson.compact) = .ok datedQuery := by
  have hconstants : datedQuery.AllConstants fun value _ => value.IsStorable := by
    have hvalue :
        (Value.array [.date lastMoment, .record "Version" none [], .int (-5)]).IsStorable :=
      ⟨trivial, ⟨.nil, trivial⟩, trivial, trivial⟩
    rw [datedQuery, allConstants_binary]
    refine ⟨allConstants_parameter _, (allConstants_iff _).mpr ⟨by simp, ?_⟩⟩
    simpa [children, operands] using hvalue
  have hvalue : Value.HasJson (.array [.date lastMoment, .record "Version" none [], .int (-5)]) _ :=
    .array (.cons (.date lastMoment)
      (.cons (.record "Version" .nil .nil .absent (.omitted rfl)) (.cons (.int (-5)) .nil)))
  have hjson : HasJson datedQuery datedQueryJson :=
    .binary .greaterThan (.parameter _ (.omitted rfl))
      (.call .absent (.mk _ (.omitted rfl)) (.cons (.constant hvalue (.omitted rfl)) .nil) .written)
  have hdepth : datedQueryJson.depth ≤ Json.maxDepth := by decide
  obtain ⟨-, hforms⟩ := json_roundTrip datedQuery hconstants
  exact ⟨hconstants, hjson, hdepth, by decide,
    ((hforms datedQueryJson hjson).2 "query.json" datedQuery).mpr ⟨rfl, hdepth⟩⟩

/-- A parameter under so many quotes. -/
def quotes : Nat → Expr
  | 0     => .parameter { name := "x", type := .any }
  | n + 1 => .quote (quotes n)

theorem allConstants_quotes {P : Value → DataType → Prop} (n : Nat) :
    (quotes n).AllConstants P := by
  induction n with
  | zero => simp [quotes]
  | succ n ih =>
    rw [quotes, allConstants_iff]
    simpa [children] using ih

/-- Every quote adds a level. -/
theorem depth_quotes (n : Nat) : (quotes n).toJson.depth = n + 2 := by
  induction n with
  | zero => rfl
  | succ n ih =>
    have hstep : (quotes (n + 1)).toJson.depth = (quotes n).toJson.depth + 1 := by
      have hleaf : (Json.str "quote").depth = 0 := rfl
      rw [quotes, toJson, Json.depth_eq]
      simp [Json.depthPart, Json.members, hleaf]
    omega

/-- A tree that is nested too deep is written, and its text is refused. -/
theorem deep_text_is_refused :
    HasJson (quotes 126) (quotes 126).toJson ∧ Expr.ofJson (quotes 126).toJson = .ok (quotes 126) ∧
    ∀ e, Expr.load "query.json" (.ok (quotes 126).toJson.compact) ≠ .ok e := by
  have hjson := hasJson_toJson (allConstants_quotes 126)
  refine ⟨hjson, hjson.ofJson, fun e hload => ?_⟩
  obtain ⟨-, hdepth⟩ := (hjson.load_eq_ok_iff "query.json" e).mp hload
  rw [depth_quotes] at hdepth
  exact absurd hdepth (by decide)

end Expr

end IssueSearch
