import IssueSearch.Json.Decode
import IssueSearch.Session
import IssueSearch.Toml.Reader

/-! # Settings

    A settings file is a TOML document with up to three sections: how search
    texts are laid out, how results are paged, and further searchable fields.
    Every section and every key of the first two may be left out; keys that
    mean nothing here do not matter. -/

namespace IssueSearch

/-! ## Data out of TOML -/

namespace Toml

/-- A truth value. -/
def asBool : Toml → Decoded Bool
  | bool b => .ok b
  | _      => .error (.expected "a boolean")

/-- A text. -/
def asStr : Toml → Decoded String
  | str s => .ok s
  | _     => .error (.expected "a string")

/-- A count of 32 bits. -/
def asCount : Toml → Decoded UInt32
  | int n =>
    match Number.count? n.toInt with
    | some n => .ok n
    | none   => .error (.expected "a 32-bit count")
  | _ => .error (.expected "a 32-bit count")

/-- An array of texts. -/
def asStrs : Toml → Decoded (List String)
  | arr items => Decoded.sequence (items.map asStr)
  | _         => .error (.expected "an array of strings")

/-- The entries of a table. -/
def asTable : Toml → Decoded (List (String × Toml))
  | table entries => .ok entries
  | _             => .error (.expected "a table")

/-- The entries of a section.  An array lists them in the order of the keys, of
    which at least `required` have to be there; a date has none that matter. -/
def asSection (keys : List String) (required : Nat) : Toml → Decoded (List (String × Toml))
  | table entries => .ok entries
  | dateTime      => .ok []
  | arr items     =>
    if items.length < required then .error (.expected "a longer array")
    else .ok (keys.zip items)
  | _             => .error (.expected "a table")

end Toml

/-! ## Sections -/

/-- The section on the layout of search texts. -/
structure LayoutSettings where
  tightOr  : Option Bool
  escaping : Option Bool

/-- Reads the section on layout. -/
def LayoutSettings.ofToml (t : Toml) : Decoded LayoutSettings := do
  let entries ← t.asSection ["legacy_or_spacing", "escape_quotes"] 2
  let tightOr ← Decoded.memberOr "legacy_or_spacing" none (fun v => v.asBool.map some) entries
  let escaping ← Decoded.memberOr "escape_quotes" none (fun v => v.asBool.map some) entries
  return { tightOr := tightOr, escaping := escaping }

/-- The section on paging. -/
structure PagingSettings where
  startAt    : Option UInt32
  maxResults : Option UInt32

/-- Reads the section on paging. -/
def PagingSettings.ofToml (t : Toml) : Decoded PagingSettings := do
  let entries ← t.asSection ["start_at", "max_results"] 2
  let startAt ← Decoded.memberOr "start_at" none (fun v => v.asCount.map some) entries
  let maxResults ← Decoded.memberOr "max_results" none (fun v => v.asCount.map some) entries
  return { startAt := startAt, maxResults := maxResults }

/-- A searchable field declared in the settings, its abilities by name. -/
structure FieldSetting where
  property   : Property
  remoteName : String
  abilities  : List String

/-- Reads the field of a property. -/
def FieldSetting.ofToml (p : Property) (t : Toml) : Decoded FieldSetting := do
  let entries ← t.asSection ["remote", "flags"] 1
  let remote ← (← Decoded.member "remote" entries).asStr
  let flags ← Decoded.memberOr "flags" [] Toml.asStrs entries
  return { property := p, remoteName := remote, abilities := flags }

/-- Puts a field in its place by owner and name. -/
def FieldSetting.insert (f : FieldSetting) : List FieldSetting → List FieldSetting
  | []        => [f]
  | g :: rest => if f.property.before g.property then f :: g :: rest else g :: f.insert rest

/-- Reads the section on fields: a table of owners, each with a table of its
    fields.  The fields are put in the order of owner and name. -/
def FieldSetting.listOfToml (t : Toml) : Decoded (List FieldSetting) := do
  let owners ← t.asTable
  let fields ← Decoded.sequence (owners.map fun (owner, names) => do
    Decoded.sequence ((← names.asTable).map fun (name, field) =>
      FieldSetting.ofToml { owner := owner, name := name } field))
  return fields.flatten.foldr FieldSetting.insert []

/-! ## Settings -/

/-- The settings of a file, section by section. -/
structure Settings where
  layout : Option LayoutSettings
  paging : Option PagingSettings
  fields : Option (List FieldSetting)

/-- Why settings cannot be used. -/
inductive SettingsError where
  /-- The text is not a TOML document. -/
  | malformed
  /-- The document holds something else than settings. -/
  | content (failure : DecodeError)
  /-- A field is said to have an ability that does not exist. -/
  | unknownAbility (name : String) (property : Property)

/-- The message of a failure. -/
def SettingsError.message : SettingsError → String
  | malformed                 => "TOML parse error"
  | content failure           => failure.message
  | unknownAbility name p     => "Unknown flag '" ++ name ++ "' on field " ++ p.text

namespace Settings

/-- The settings of an absent file. -/
def none : Settings := { layout := .none, paging := .none, fields := .none }

/-- Reads the settings of a document. -/
def ofToml (entries : List (String × Toml)) : Decoded Settings := do
  let layout ←
    Decoded.memberOr "compiler" .none (fun v => (LayoutSettings.ofToml v).map some) entries
  let paging ←
    Decoded.memberOr "paging" .none (fun v => (PagingSettings.ofToml v).map some) entries
  let fields ←
    Decoded.memberOr "fields" .none (fun v => (FieldSetting.listOfToml v).map some) entries
  return { layout := layout, paging := paging, fields := fields }

/-- Reads the settings of a text. -/
def read (text : String) : Except SettingsError Settings :=
  match Toml.read? text with
  | .none => .error .malformed
  | some entries =>
    match ofToml entries with
    | .ok s          => .ok s
    | .error failure => .error (.content failure)

/-- How search texts are laid out. -/
def textOptions (s : Settings) : TextOptions :=
  { tightOr := (s.layout.bind (·.tightOr)).getD TextOptions.usual.tightOr,
    escaping := (s.layout.bind (·.escaping)).getD TextOptions.usual.escaping }

/-- The paging of a query that asks for none. -/
def pagingOrUsual (s : Settings) : Paging :=
  { startAt := (s.paging.bind (·.startAt)).getD Paging.usual.startAt,
    maxResults := (s.paging.bind (·.maxResults)).getD Paging.usual.maxResults }

/-- The set of the abilities of a declared field. -/
def abilitiesOf (p : Property) : List String → Abilities → Except SettingsError Abilities
  | [], s => .ok s
  | name :: rest, s =>
    match Ability.ofName? name with
    | some a => abilitiesOf p rest (s.insert a)
    | .none  => .error (.unknownAbility name p)

/-- Adds declared fields to a table, one after another. -/
def addFields : List FieldSetting → FieldTable → Except SettingsError FieldTable
  | [], t => .ok t
  | f :: rest, t =>
    match abilitiesOf f.property f.abilities .none with
    | .ok abilities =>
      addFields rest
        (t.insert f.property { remoteName := f.remoteName, abilities := abilities, type := .any })
    | .error failure => .error failure

/-- The table of the declared fields. -/
def fieldTable (s : Settings) : Except SettingsError FieldTable :=
  addFields (s.fields.getD []) .empty

end Settings

end IssueSearch
