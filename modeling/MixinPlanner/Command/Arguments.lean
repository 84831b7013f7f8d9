/-
The command line: `resolve`, `check` and `verify-plans` with their options.

Arguments are taken from left to right, and what ends the reading first decides: a request for help or for the version, or
an argument that has no place. An option that is missing shows only after the last argument. The value of an option is the
argument after it, or follows an equals sign; apart from the equals sign, it does not begin like an option.
-/

namespace MixinPlanner

/-- what a command does -/
inductive Task where
  /-- resolve the targets, or only one, and store the plans if a path is given -/
  | resolve (target out : Option String)
  | check
  /-- compare the plans stored at a path with the ones that the facts resolve to -/
  | verifyPlans (plans : String)
  deriving DecidableEq, Repr

/-- a command: what it does, the path of the facts, the path of the settings, and whether to report in JSON -/
structure Command where
  task : Task
  facts : String
  config : Option String
  json : Bool
  deriving DecidableEq, Repr

/-- what a command line asks for -/
inductive Request where
  | run (command : Command)
  | help
  | version
  /-- the arguments make no command -/
  | misuse
  deriving DecidableEq, Repr

/-- the program and its version -/
def versionLine : String := "weave 0.1.0\n"

/-- how the program is called -/
def usage : String :=
  "Weave: deterministic mixin composition planning\n\n" ++
  "  weave resolve --facts FACTS [--config CONFIG] [--target TARGET] [--out OUT] [--json]\n" ++
  "  weave check --facts FACTS [--config CONFIG] [--json]\n" ++
  "  weave verify-plans --facts FACTS --plans PLANS [--config CONFIG] [--json]\n" ++
  "  weave help [COMMAND]\n" ++
  "  weave --version\n"

namespace Request

/-- the options that were given, with their values; a switch has none -/
abbrev Given : Type := List (String × Option String)

/-- whether an argument begins like an option. A single dash is a value like any other. -/
def isOption (arg : String) : Bool := arg.startsWith "-" && arg ≠ "-"

/-- the name of a long option, and the value behind its equals sign, if it has one -/
def longOption (arg : String) : Option (String × Option String) :=
  match arg.toList with
  | '-' :: '-' :: cs =>
    let name := String.ofList (cs.takeWhile (· ≠ '='))
    match cs.dropWhile (· ≠ '=') with
    | [] => some (name, none)
    | _ :: value => some (name, some (String.ofList value))
  | _ => none

/-- one option more, if it was not given before -/
def give (given : Given) (name : String) (value : Option String) : Option Given :=
  if (given.lookup name).isSome then none else some (given ++ [(name, value)])

/-- the options among the arguments of a command, or what ends their reading -/
def options (valued : List String) : Given → List String → Except Request Given
  | given, [] => .ok given
  | given, arg :: rest =>
    if arg = "--" then if rest.isEmpty then .ok given else .error misuse
    else
      match longOption arg with
      | none => .error (if arg.startsWith "-h" then help else misuse)
      | some (name, some value) =>
        if name ∈ valued then
          match give given name (some value) with
          | some given => options valued given rest
          | none => .error misuse
        else .error misuse
      | some (name, none) =>
        if name = "help" then .error help
        else if name = "json" then
          match give given name none with
          | some given => options valued given rest
          | none => .error misuse
        else if name ∈ valued then
          match rest with
          | [] => .error misuse
          | value :: rest =>
            if isOption value then .error misuse
            else
              match give given name (some value) with
              | some given => options valued given rest
              | none => .error misuse
        else .error misuse

/-- the value given for an option -/
def value? (given : Given) (name : String) : Option String := (given.lookup name).join

/-- a command from its options, if none is missing -/
def ofGiven (task : Given → Option Task) (given : Given) : Request :=
  match task given, value? given "facts" with
  | some task, some facts =>
    run { task, facts, config := value? given "config", json := (given.lookup "json").isSome }
  | _, _ => misuse

/-- a command from its arguments -/
def ofOptions (valued : List String) (task : Given → Option Task) (args : List String) : Request :=
  match options valued [] args with
  | .ok given => ofGiven task given
  | .error request => request

/-- the commands: the name of each, and what its arguments ask for -/
def commands : List (String × (List String → Request)) :=
  [("resolve", ofOptions ["facts", "config", "target", "out"] fun given =>
      some (.resolve (value? given "target") (value? given "out"))),
   ("check", ofOptions ["facts", "config"] fun _ => some .check),
   ("verify-plans", ofOptions ["facts", "plans", "config"] fun given =>
      (value? given "plans").map .verifyPlans)]

/-- a request for help on a command, or on help itself -/
def ofHelp : List String → Request
  | [] => help
  | [name] => if name = "help" ∨ (commands.lookup name).isSome then help else misuse
  | _ => misuse

/-- what a command line asks for -/
def ofArguments : List String → Request
  | [] => misuse
  | arg :: rest =>
    if arg = "--help" ∨ arg.startsWith "-h" then help
    else if arg = "--version" ∨ arg.startsWith "-V" then version
    else if arg = "help" then ofHelp rest
    else
      match commands.lookup arg with
      | some command => command rest
      | none => misuse

end Request

end MixinPlanner
