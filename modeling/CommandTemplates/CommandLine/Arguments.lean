import CommandTemplates.CommandLine.Switch

/-!
# Arguments

The words of a command line are read from left to right: switches, a command, and the
switches of the command.

## Main Definitions

* `UsageFault` — why a command line is not understood, or not run
* `Level` — the switches before a command, or those after it
* `Level.scan` — reads words at one level
* `Invocation.parse` — what a command line asks for

## Design Notes

An option waits for its value, which may be the next word. It counts as given only when the
next switch is met or the words end; what is wrong with it is noticed then. So a word that is
no known switch is reported before an option that still waits for its value.

A switch may be given once at each level. The level of the command has the last word.
-/

namespace CommandTemplates

/-- Why a command line is not understood, or not run. -/
inductive UsageFault
  | helpAsked
  | versionAsked
  | nothingGiven
  | missingCommand
  | unknownCommand
  | unknownArgument
  /-- A value is missing, or empty where it must not be. -/
  | invalidValue
  /-- A flag has a value. -/
  | needlessValue
  | repeatedSwitch
  | missingSwitch
  deriving DecidableEq, Repr

/-- The switches before a command, or those after it. -/
structure Level where
  command : Option CommandName
  /-- The switches given so far, with their values; a flag has the empty value. -/
  given : List (Switch × Text) := []
  /-- An option that does not count as given yet, with its value if there is one. -/
  pending : Option (Switch × Option Text) := none
  /-- Whether `--` was met, after which nothing may follow. -/
  closed : Bool := false
  deriving DecidableEq, Repr

namespace Level

/-! ### Switches -/

/-- Whether a switch was given. -/
def has (l : Level) (s : Switch) : Bool := l.given.any (·.1 == s)

/-- The value of a switch that may be given once. -/
def value? (l : Level) (s : Switch) : Option Text := (l.given.find? (·.1 == s)).map (·.2)

/-- The values of a switch, in order. -/
def values (l : Level) (s : Switch) : List Text :=
  (l.given.filter (·.1 == s)).map (·.2)

/-- Whether the next word may be a value. -/
def awaitsValue (l : Level) : Bool := l.pending.any (·.2.isNone)

/-- Counts a switch as given. -/
def accept (l : Level) (s : Switch) (value : Option Text) : Except UsageFault Level :=
  if s = .help then .error .helpAsked
  else if s = .version then .error .versionAsked
  else if s.takesValue && value.isNone then .error .invalidValue
  else if l.has s && !s.isRepeatable then .error .repeatedSwitch
  else if s.isPath && value = some [] then .error .invalidValue
  else .ok { l with given := l.given ++ [(s, value.getD [])] }

/-- Counts a pending option as given. -/
def settle (l : Level) : Except UsageFault Level :=
  match l.pending with
  | none => .ok l
  | some (s, value) => { l with pending := none }.accept s value

/-- Takes a switch with the value that is attached to it, if there is one. -/
def take (l : Level) (s : Switch) (attached : Option Text) : Except UsageFault Level := do
  let l ← l.settle
  if s.takesValue && attached.isNone then return { l with pending := some (s, none) }
  else l.accept s attached

/-- Takes a word that follows two dashes. -/
def takeLong (l : Level) (word : Text) : Except UsageFault Level :=
  let name := word.takeWhile (· ≠ '=')
  let attached := (word.dropWhile (· ≠ '=')).tail?
  match (Switch.available l.command).find? (·.long == name) with
  | none => .error .unknownArgument
  | some s =>
    if !s.takesValue && attached.isSome then .error .needlessValue else l.take s attached

/-- Takes the letters that follow one dash. What follows the letter of an option is its
value. -/
def takeShorts (l : Level) : Text → Except UsageFault Level
  | [] => .ok l
  | c :: rest =>
    match (Switch.available l.command).find? (·.short? == some c) with
    | none => .error .unknownArgument
    | some s =>
      if s.takesValue then
        match rest with
        | [] => l.take s none
        | '=' :: value => l.take s (some value)
        | value => l.take s (some value)
      else do
        let l ← l.take s none
        l.takeShorts rest

/-! ### Words -/

/-- Takes a word that is no command. -/
def takeWord (l : Level) (word : Text) : Except UsageFault Level :=
  match word with
  | ['-', '-'] => .ok { l with closed := true }
  | '-' :: '-' :: name => l.takeLong name
  | '-' :: c :: letters => l.takeShorts (c :: letters)
  | _ =>
    match l.pending with
    | some (s, none) => .ok { l with pending := some (s, some word) }
    | _ => .error (if l.command.isNone then .unknownCommand else .unknownArgument)

/-- The word that asks for help. -/
def helpWord : Text := "help".toList

/-- What comes of the words after the word that asks for help: at most one command. -/
def helpOn : List Text → UsageFault
  | [] => .helpAsked
  | [word] =>
    if word = helpWord || (CommandName.ofWord? word).isSome then .helpAsked else .unknownCommand
  | _ => .unknownCommand

/-- Reads words up to a command, which ends the first level, and gives the words after it. -/
def scan : Level → List Text → Except UsageFault (Level × Option (CommandName × List Text))
  | l, [] => .ok (l, none)
  | l, word :: words =>
    if l.closed then .error .unknownArgument
    else if l.command.isSome || l.awaitsValue then do
      let l ← l.takeWord word
      l.scan words
    else if word = helpWord then .error (helpOn words)
    else
      match CommandName.ofWord? word with
      | some name => .ok (l, some (name, words))
      | none => do
        let l ← l.takeWord word
        l.scan words

end Level

/-! ### Command lines -/

/-- A command with its options. -/
inductive Command
  | apply (dir rules : Option Text) (only : List Text) (dryRun json : Bool)
  | check (dir rules : Option Text) (all json : Bool)
  | rules (rules : Option Text)
  | version
  | completions (shell : Text)
  deriving DecidableEq, Repr

/-- The command that a level asks for. -/
def Level.toCommand (l : Level) : CommandName → Except UsageFault Command
  | .apply =>
    .ok (.apply (l.value? .dir) (l.value? .rules) (l.values .only) (l.has .dryRun) (l.has .json))
  | .check => .ok (.check (l.value? .dir) (l.value? .rules) (l.has .all) (l.has .json))
  | .rules => .ok (.rules (l.value? .rules))
  | .version => .ok .version
  | .completions =>
    match l.value? .shell with
    | some shell => .ok (.completions shell)
    | none => .error .missingSwitch

/-- What a command line asks for. -/
structure Invocation where
  workspace : Option Text
  verbose : Bool
  command : Command
  deriving DecidableEq, Repr

namespace Invocation

/-- A workspace that the environment names; a level at which one is given does not ask for
it. An empty name is no path. -/
def inherited (environment : Option Text) (l : Level) : Except UsageFault (Option Text) :=
  if l.has .workspace then .ok none
  else if environment = some [] then .error .invalidValue
  else .ok environment

/-- What a command line asks for, given the workspace that the environment names. -/
def parse (environment : Option Text) (words : List Text) : Except UsageFault Invocation := do
  match ← Level.scan { command := none } words with
  | (outer, none) =>
    let outer ← outer.settle
    let _ ← inherited environment outer
    if outer.given.isEmpty && environment.isNone then throw .nothingGiven
    else throw .missingCommand
  | (outer, some (name, rest)) =>
    let (inner, _) ← Level.scan { command := some name } rest
    let inner ← inner.settle
    let fallback ← inherited environment inner
    let command ← inner.toCommand name
    let outer ← outer.settle
    let _ ← inherited environment outer
    return {
      workspace := (inner.value? .workspace).or ((outer.value? .workspace).or fallback)
      verbose := inner.has .verbose || outer.has .verbose
      command := command }

end Invocation

end CommandTemplates
