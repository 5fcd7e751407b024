import CodeProfile.Settings

/-!
# The command line

Arguments are read from left to right. An option that takes a value, and every operand, is pending
until the next one begins, and only then is its value checked; so a mistake further right may be
reported first. After two dashes every argument is an operand. The verbosity may be given before
the command and after it, and then the latter counts.
-/

namespace CodeProfile

/-- What the program is asked to do. -/
inductive Command where
  | analyze (input : String) (format : Option OutputFormat) (settings : Option String)
  | compare (source target : String) (format : Option OutputFormat) (settings : Option String)
  | init (force : Bool)
  deriving DecidableEq, Repr, Inhabited

/-- A command with how much is to be logged. -/
structure Invocation where
  command : Command
  verbosity : Nat
  deriving DecidableEq, Repr, Inhabited

/-- Why arguments do not make a command. -/
inductive UsageFault where
  | invalidSubcommand
  | missingSubcommand
  | missingRequiredArgument
  | unknownArgument
  | invalidValue
  /-- An option is given twice. -/
  | argumentConflict
  /-- A value is attached to an option that takes none. -/
  | tooManyValues
  | displayHelp
  | displayVersion
  /-- There are no arguments at all. -/
  | helpInsteadOfSubcommand
  deriving DecidableEq, Repr, Inhabited

namespace Invocation

/-- What is logged. -/
def logDirective (i : Invocation) : String :=
  match i.verbosity with
  | 0 => "warn"
  | 1 => "codeprint=info"
  | 2 => "codeprint=debug"
  | _ => "codeprint=trace"

end Invocation

namespace CommandLine

/-! ## Options and operands -/

/-- What a value must be. -/
inductive ValueKind where
  | text
  /-- Any text but the empty one. -/
  | path
  | format
  deriving DecidableEq, Repr

def ValueKind.accepts : ValueKind → String → Bool
  | text, _ => true
  | path, v => v != ""
  | format, v => (OutputFormat.ofId? v).isSome

/-- What an option does. -/
inductive OptionKind where
  | help
  | version
  /-- Each occurrence counts. -/
  | count
  | switch
  | takes (kind : ValueKind)
  deriving DecidableEq, Repr

/-- An option with its two names. -/
structure OptionForm where
  long : String
  short : Char
  kind : OptionKind
  deriving DecidableEq, Repr

/-- What a command accepts. -/
structure Form where
  options : List OptionForm
  operands : List (String × ValueKind)

def helpOption : OptionForm := ⟨"help", 'h', .help⟩

def verboseOption : OptionForm := ⟨"verbose", 'v', .count⟩

def formatOption : OptionForm := ⟨"format", 'f', .takes .format⟩

def settingsOption : OptionForm := ⟨"config", 'c', .takes .path⟩

/-- What may stand before the command. -/
def rootForm : Form := ⟨[verboseOption, helpOption, ⟨"version", 'V', .version⟩], []⟩

def analyzeForm : Form :=
  ⟨[formatOption, settingsOption, verboseOption, helpOption], [("input", .text)]⟩

def compareForm : Form :=
  ⟨[formatOption, settingsOption, verboseOption, helpOption],
    [("source", .path), ("target", .path)]⟩

def initForm : Form := ⟨[⟨"force", 'f', .switch⟩, verboseOption, helpOption], []⟩

/-- The forms of the commands. -/
def commandForms : List (String × Form) :=
  [("analyze", analyzeForm), ("compare", compareForm), ("init", initForm)]

/-! ## Reading arguments -/

/-- A name whose value was not checked yet. -/
structure Pending where
  name : String
  kind : ValueKind
  /-- Nothing while the value is still to come. -/
  value : Option String
  deriving DecidableEq, Repr

/-- The arguments read so far. -/
structure Reading where
  values : List (String × String)
  switches : List String
  verbosity : Nat
  pending : Option Pending
  operandsRead : Nat
  onlyOperands : Bool
  deriving DecidableEq, Repr

namespace Reading

def start : Reading := ⟨[], [], 0, none, 0, false⟩

def value? (r : Reading) (name : String) : Option String :=
  (r.values.find? (·.1 == name)).map (·.2)

/-- Checks what is pending. -/
def settle (r : Reading) : Except UsageFault Reading :=
  match r.pending with
  | none => .ok r
  | some p =>
    match p.value with
    | none => .error .invalidValue
    | some v =>
      if (r.value? p.name).isSome then .error .argumentConflict
      else if p.kind.accepts v then
        .ok { r with values := r.values ++ [(p.name, v)], pending := none }
      else .error .invalidValue

/-- Makes a name pending. -/
def expect (r : Reading) (name : String) (kind : ValueKind) (value : Option String) :
    Except UsageFault Reading := do
  let r ← r.settle
  return { r with pending := some ⟨name, kind, value⟩ }

/-- Does what an option without a value asks for. -/
def act (r : Reading) (o : OptionForm) : Except UsageFault Reading := do
  let r ← r.settle
  match o.kind with
  | .help => throw .displayHelp
  | .version => throw .displayVersion
  | .count => return { r with verbosity := min (r.verbosity + 1) 255 }
  | .switch =>
    if r.switches.contains o.long then throw .argumentConflict
    return { r with switches := r.switches ++ [o.long] }
  | .takes _ => return r

/-- Reads an option that takes a value, with the value if it is attached. -/
def takeValue (r : Reading) (o : OptionForm) (kind : ValueKind) (attached : Option String) :
    Except UsageFault Reading := do
  let r ← r.expect o.long kind attached
  if attached.isSome then r.settle else return r

/-- Reads an option by its long name. -/
def long (r : Reading) (form : Form) (name : String) (attached : Option String) :
    Except UsageFault Reading :=
  match form.options.find? (·.long == name) with
  | none => .error .unknownArgument
  | some o =>
    match o.kind with
    | .takes kind => r.takeValue o kind attached
    | _ => if attached.isSome then .error .tooManyValues else r.act o

/-- The value attached to a short name, if there is one. An equals sign may stand before it. -/
def attachedValue : List Char → Option String
  | [] => none
  | '=' :: cs => some (String.ofList cs)
  | cs => some (String.ofList cs)

/-- Reads options by their short names, written together. -/
def shorts (form : Form) : List Char → Reading → Except UsageFault Reading
  | [], r => .ok r
  | c :: cs, r =>
    match form.options.find? (·.short == c) with
    | none => .error .unknownArgument
    | some o =>
      match o.kind with
      | .takes kind => r.takeValue o kind (attachedValue cs)
      | _ => do shorts form cs (← r.act o)

/-- Whether the next argument is the value of an option. -/
def awaitsValue (r : Reading) : Bool := r.pending.any (·.value.isNone)

/-- Reads an operand. -/
def operand (r : Reading) (form : Form) (arg : String) : Except UsageFault Reading :=
  match form.operands[r.operandsRead]? with
  | none => .error .unknownArgument
  | some (name, kind) => do
    let r ← r.expect name kind (some arg)
    return { r with operandsRead := r.operandsRead + 1 }

/-- Gives the option that waits for it its value. -/
def supply (r : Reading) (arg : String) : Reading :=
  { r with pending := r.pending.map fun p => { p with value := some arg } }

/-- The name and attached value of an argument with two dashes in front. -/
def splitLong (cs : List Char) : String × Option String :=
  let (name, rest) := cs.span (· != '=')
  (String.ofList name, match rest with
    | [] => none
    | _ :: v => some (String.ofList v))

/-- Reads one argument. -/
def step (form : Form) (r : Reading) (arg : String) : Except UsageFault Reading :=
  if r.onlyOperands then r.operand form arg
  else
    match arg.toList with
    | ['-', '-'] => .ok { r with onlyOperands := true }
    | '-' :: '-' :: cs =>
      let (name, attached) := splitLong cs
      r.long form name attached
    | '-' :: c :: cs => shorts form (c :: cs) r
    | _ => if r.awaitsValue then .ok (r.supply arg) else r.operand form arg

/-- Reads all arguments of a command; every operand must be there. -/
def all (form : Form) (args : List String) : Except UsageFault Reading := do
  let r ← (← args.foldlM (step form) start).settle
  if form.operands.any fun (name, _) => (r.value? name).isNone then
    throw .missingRequiredArgument
  return r

def format? (r : Reading) : Option OutputFormat := (r.value? "format").bind OutputFormat.ofId?

/-- The command that the values make. -/
def toCommand (r : Reading) (name : String) : Command :=
  let operand := fun key => (r.value? key).getD ""
  if name = "analyze" then .analyze (operand "input") r.format? (r.value? "config")
  else if name = "compare" then
    .compare (operand "source") (operand "target") r.format? (r.value? "config")
  else .init (r.switches.contains "force")

end Reading

/-! ## The whole command line -/

/-- Help on the program or on the command that is named. -/
def helpOn : List String → UsageFault
  | [] => .displayHelp
  | [name] =>
    if name = "help" ∨ (commandForms.any (·.1 == name)) then .displayHelp else .invalidSubcommand
  | _ => .invalidSubcommand

/-- What is wrong with an operand in the place of a command. -/
def notACommand (onlyOperands : Bool) (arg : String) : UsageFault :=
  if onlyOperands ∧ (arg = "help" ∨ commandForms.any (·.1 == arg)) then .unknownArgument
  else .invalidSubcommand

/-- Whether an argument may be an operand by its form. -/
def looksLikeOperand (arg : String) : Bool :=
  match arg.toList with
  | ['-'] => true
  | '-' :: _ => false
  | _ => true

/-- Reads what stands before the command and then the command. -/
def parseFrom (r : Reading) : List String → Except UsageFault Invocation
  | [] => .error (if r.verbosity = 0 then .helpInsteadOfSubcommand else .missingSubcommand)
  | arg :: args =>
    if r.onlyOperands then .error (notACommand true arg)
    else if arg = "help" then .error (helpOn args)
    else
      match commandForms.find? (·.1 == arg) with
      | some (name, form) => do
        let sub ← Reading.all form args
        return ⟨sub.toCommand name, if sub.verbosity = 0 then r.verbosity else sub.verbosity⟩
      | none =>
        if looksLikeOperand arg then .error (notACommand false arg)
        else do parseFrom (← r.step rootForm arg) args

/-- The command that arguments ask for. -/
def parse (args : List String) : Except UsageFault Invocation := parseFrom .start args

end CommandLine

end CodeProfile
