/-! # Arguments of the command line

    A command line names a command.  Options that every command has may stand
    before or after the name, each at most once on either side; what stands
    after `--` is never taken for an option. -/

namespace IssueSearch

/-- What is to be done. -/
inductive Command where
  /-- Write the search of the query in a file. -/
  | compile (input : String) (folding : Bool)
  /-- List the searchable fields. -/
  | fields
deriving DecidableEq

/-- The name of a command. -/
def Command.name : Command → String
  | compile _ _ => "compile"
  | fields      => "fields"

/-- The arguments of a run. -/
structure Arguments where
  /-- Print the result only. -/
  quiet        : Bool
  /-- Print a JSON document. -/
  json         : Bool
  settingsPath : String
  command      : Command
deriving DecidableEq

/-- Why a command line makes no sense. -/
inductive UsageError where
  | unknownOption (option : String)
  | repeatedOption (option : String)
  | missingValue (option : String)
  | unknownCommand (name : String)
  | missingCommand
  | missingInput
  | surplus (word : String)
deriving DecidableEq

/-- The message of a failure. -/
def UsageError.message : UsageError → String
  | unknownOption option  => "unexpected argument '" ++ option ++ "' found"
  | repeatedOption option =>
    "the argument '" ++ option ++ "' cannot be used multiple times"
  | missingValue option   => "a value is required for '" ++ option ++ "' but none was supplied"
  | unknownCommand name   => "unrecognized subcommand '" ++ name ++ "'"
  | missingCommand        => "a subcommand is required but one was not provided"
  | missingInput          => "the following required arguments were not provided: <INPUT>"
  | surplus word          => "unexpected argument '" ++ word ++ "' found"

/-! ## One side of the command line -/

/-- What stands on one side of the name of the command. -/
structure Side where
  quiet        : Bool
  json         : Bool
  unfolded     : Bool
  settingsPath : Option String
  words        : List String

namespace Side

/-- The side where nothing stands. -/
def empty : Side :=
  { quiet := false, json := false, unfolded := false, settingsPath := none, words := [] }

/-- Is it an option?  A single dash is a word. -/
def isOption (token : String) : Bool :=
  token.toList.head? = some '-' && token ≠ "-"

/-- Takes the path of the settings, which may not be empty. -/
def setPath (path : String) (s : Side) : Except UsageError Side :=
  if path = "" then .error (.missingValue "--config")
  else if s.settingsPath.isSome then .error (.repeatedOption "--config")
  else .ok { s with settingsPath := some path }

/-- What an option in one piece with its value has before the value. -/
def pathMark : List Char := "--config=".toList

/-- Takes an option that stands in one piece. -/
def setOption (foldable : Bool) (option : String) (s : Side) : Except UsageError Side :=
  if option = "-q" || option = "--quiet" then
    if s.quiet then .error (.repeatedOption option) else .ok { s with quiet := true }
  else if option = "--json" then
    if s.json then .error (.repeatedOption option) else .ok { s with json := true }
  else if foldable && option = "--no-fold" then
    if s.unfolded then .error (.repeatedOption option) else .ok { s with unfolded := true }
  else if pathMark.isPrefixOf option.toList then
    s.setPath (String.ofList (option.toList.drop pathMark.length))
  else .error (.unknownOption option)

/-- Reads the options and words of a side.  `toFirstWord` stops before the first
    word; `foldable` tells whether folding can be switched off there. -/
def read (toFirstWord foldable : Bool) (s : Side) :
    List String → Except UsageError (Side × List String)
  | [] => .ok (s, [])
  | token :: rest =>
    if token = "--" then .ok ({ s with words := s.words ++ rest }, [])
    else if token = "--config" then
      match rest with
      | [] => .error (.missingValue token)
      | path :: rest =>
        if isOption path then .error (.missingValue token)
        else
          match s.setPath path with
          | .ok s          => read toFirstWord foldable s rest
          | .error failure => .error failure
    else if isOption token then
      match s.setOption foldable token with
      | .ok s          => read toFirstWord foldable s rest
      | .error failure => .error failure
    else if toFirstWord then .ok (s, token :: rest)
    else read toFirstWord foldable { s with words := s.words ++ [token] } rest

end Side

/-! ## The whole of it -/

/-- The command of a name with the words and options after it. -/
def Command.ofName (name : String) (after : Side) : Except UsageError Command :=
  if name = "compile" then
    match after.words with
    | []          => .error .missingInput
    | [input]     => .ok (.compile input (!after.unfolded))
    | _ :: w :: _ => .error (.surplus w)
  else if name = "fields" then
    match after.words with
    | []     => .ok .fields
    | w :: _ => .error (.surplus w)
  else .error (.unknownCommand name)

/-- The settings file of a run that names none. -/
def Arguments.usualPath : String := "jql.toml"

/-- Which settings file is meant: what stands after the command goes before what
    stands in front of it, and that before what the environment says. -/
def Arguments.choosePath (environment : Option String) (front after : Side) :
    Except UsageError String :=
  match environment, front.settingsPath, after.settingsPath with
  | _, some _, some path => .ok path
  | some "", _, _        => .error (.missingValue "--config")
  | _, none, some path   => .ok path
  | _, some path, none   => .ok path
  | some path, _, _      => .ok path
  | none, none, none     => .ok usualPath

/-- Reads a command line, given the settings file that the environment names. -/
def Arguments.read (environment : Option String) (tokens : List String) :
    Except UsageError Arguments := do
  let (front, rest) ← Side.read true false .empty tokens
  match front.words, rest with
  | w :: _, _ => .error (.surplus w)
  | [], [] => .error .missingCommand
  | [], name :: rest =>
    let (after, _) ← Side.read false (name = "compile") .empty rest
    let command ← Command.ofName name after
    let path ← choosePath environment front after
    return { quiet := front.quiet || after.quiet, json := front.json || after.json,
             settingsPath := path, command := command }

end IssueSearch
