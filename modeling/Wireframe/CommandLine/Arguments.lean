import Wireframe.Text.Basic

/-!
# Arguments of commands

A command takes flags, options with a value, and at most one text in its place, the operand. What
begins with a hyphen is a flag or an option, but for a single hyphen and all that comes behind `--`.
An option takes its value behind an equals sign or from the next argument. Arguments are looked at
one by one, so that a request for help counts only if nothing before it is wrong.
-/

namespace Wireframe.CommandLine

/-- Why arguments give no command. -/
inductive Stop where
  | help
  | version
  /-- The arguments are not as they must be. -/
  | misuse
deriving Repr, DecidableEq

/-- A flag or an option. -/
structure Parameter where
  name : String
  /-- Which values an option may have; none for a flag, which has no value. -/
  accepts : Option (String → Bool)
  /-- Whether it may be given more than once. -/
  repeatable : Bool

/-- What a command takes. -/
structure Signature where
  parameters : List Parameter
  /-- Which operands it may have; none for a command without an operand. -/
  operand : Option (String → Bool)

/-- What a command was given. -/
structure Given where
  /-- The names of flags and options with their values, in order; a flag has an empty one. -/
  values : List (String × String) := []
  operand : Option String := none
deriving Repr, DecidableEq

namespace Given

def add (g : Given) (name value : String) : Given :=
  { g with values := g.values ++ [(name, value)] }

/-- All values of an option. -/
def all (g : Given) (name : String) : List String :=
  (g.values.filter (·.1 = name)).map (·.2)

def has (g : Given) (name : String) : Bool :=
  g.all name ≠ []

/-- The value of an option that may be given once. -/
def value? (g : Given) (name : String) : Option String :=
  (g.all name).head?

end Given

/-- The forms of an argument. -/
inductive Form where
  /-- All that follows is no flag or option. -/
  | escape
  | long (name : String) (value : Option String)
  | short (letters : List Char)
  | operand (text : String)
deriving Repr, DecidableEq

/-- The form of an argument. -/
def Form.of (arg : String) : Form :=
  match arg.toList with
  | ['-', '-'] => escape
  | '-' :: '-' :: cs =>
    match Text.cutAt? '=' cs with
    | some (name, value) => long (String.ofList name) (some (String.ofList value))
    | none => long (String.ofList cs) none
  | '-' :: c :: cs => short (c :: cs)
  | _ => operand arg

namespace Signature

/-- Takes an operand. -/
def takeOperand (s : Signature) (g : Given) (text : String) : Except Stop Given :=
  match s.operand, g.operand with
  | some accepts, none => if accepts text then .ok { g with operand := some text } else .error .misuse
  | _, _ => .error .misuse

/-- Takes a value of an option. -/
def takeValue (g : Given) (name : String) (accepts : String → Bool) (value : String) :
    Except Stop Given :=
  if accepts value then .ok (g.add name value) else .error .misuse

/-- Takes arguments in turn. -/
def take (s : Signature) (g : Given) : List String → Except Stop Given
  | [] => .ok g
  | arg :: rest =>
    match Form.of arg with
    | .escape => rest.foldlM s.takeOperand g
    | .short letters => .error (if letters.head? = some 'h' then .help else .misuse)
    | .operand text => do take s (← s.takeOperand g text) rest
    | .long "help" none => .error .help
    | .long name value =>
      match s.parameters.find? (·.name = name) with
      | none => .error .misuse
      | some p =>
        if !p.repeatable && g.has name then .error .misuse
        else
          match p.accepts, value, rest with
          | none, none, rest => take s (g.add name "") rest
          | none, some _, _ => .error .misuse
          | some accepts, some value, rest => do take s (← takeValue g name accepts value) rest
          | some _, none, [] => .error .misuse
          | some accepts, none, next :: rest =>
            match Form.of next with
            | .operand value => do take s (← takeValue g name accepts value) rest
            | _ => .error .misuse
termination_by args => args.length

end Signature

end Wireframe.CommandLine
