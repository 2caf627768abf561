import TemplateTrace.CommandLine.Spec
import TemplateTrace.Number.Digits
import TemplateTrace.Text.Blank

/-!
Reading a command line by its description. A command reads words up to the name of one of its
subcommands, which reads the rest before the command itself is checked; so of two faults the
inner one counts. The value of an argument is checked only when the next argument begins.
-/

namespace TemplateTrace.CommandLine

inductive Problem
  | helpWanted
  | versionWanted
  | nothingGiven
  | missingSubcommand
  | unknownSubcommand
  | unknownArgument
  | missingArgument
  | invalidValue
  | invalidNumber
  | conflict
  | valueForFlag
  deriving DecidableEq

def Problem.isFault : Problem → Bool
  | helpWanted => false
  | versionWanted => false
  | _ => true

def Problem.exitCode (p : Problem) : Nat := if p.isFault then 2 else 0

inductive Value
  | flag (on : Bool)
  | count (n : Nat)
  | text (s : String)
  | number (n : Nat)
  deriving DecidableEq

inductive Origin
  | environment
  | commandLine
  deriving DecidableEq

abbrev Matches := List (String × Origin × Value)

/-- A number from 1 to `2 ^ 64 - 1`, which may have a plus sign and leading zeros. -/
def positive? (s : String) : Option Nat :=
  let digits := match s.toList with
    | '+' :: rest => rest
    | all => all
  (Digits.natural? 10 digits).filter fun n => 1 ≤ n ∧ n ≤ 0xFFFFFFFFFFFFFFFF

def readValue (kind : ValueKind) (s : String) : Except Problem Value :=
  match kind with
  | .text => .ok (.text s)
  | .path => if s = "" then .error .invalidValue else .ok (.text s)
  | .choice values => if values.contains s then .ok (.text s) else .error .invalidValue
  | .positive => match positive? s with
    | some n => .ok (.number n)
    | none => .error .invalidNumber

structure Pending where
  name : String
  kind : ValueKind
  value : Option String

structure Level where
  command : Command
  values : Matches := []
  pending : Option Pending := none
  wantsValue : Bool := false
  onlyPositionals : Bool := false
  positionalsRead : Nat := 0

namespace Level

variable (l : Level)

def options : List Opt := l.command.info.options

def value? (name : String) : Option Value := (l.values.lookup name).map Prod.snd

def setOnce (name : String) (v : Except Problem Value) : Except Problem Level :=
  if (l.value? name).isSome then .error .conflict
  else do return { l with values := l.values ++ [(name, .commandLine, ← v)] }

def settle : Except Problem Level :=
  match l.pending with
  | none => .ok l
  | some p =>
    let l := { l with pending := none }
    match p.value with
    | none => .error .invalidValue
    | some s => l.setOnce p.name (readValue p.kind s)

def give (o : Opt) : Except Problem Level := do
  let l ← l.settle
  match o.kind with
  | .help => .error .helpWanted
  | .version => .error .versionWanted
  | .counter =>
    let n := match l.value? o.name with
      | some (.count n) => n
      | _ => 0
    let others := l.values.filter (·.1 ≠ o.name)
    return { l with values := others ++ [(o.name, .commandLine, .count (min (n + 1) 255))] }
  | _ => l.setOnce o.name (.ok (.flag true))

def giveValue (o : Opt) (kind : ValueKind) (attached : Option String) : Except Problem Level := do
  let l ← l.settle
  match attached with
  | some s => l.setOnce o.name (readValue kind s)
  | none => return { l with pending := some ⟨o.name, kind, none⟩, wantsValue := true }

def long (name : String) (attached : Option String) : Except Problem Level :=
  match l.options.find? (·.name = name) with
  | none => .error .unknownArgument
  | some o =>
    match o.kind, attached with
    | .value kind, attached => l.giveValue o kind attached
    | _, some _ => .error .valueForFlag
    | _, none => l.give o

def shorts : List Char → Level → Except Problem Level
  | [], l => .ok l
  | c :: rest, l =>
    match l.options.find? (·.short = some c) with
    | none => .error .unknownArgument
    | some o =>
      match o.kind with
      | .value kind =>
        let attached := match rest with
          | [] => none
          | '=' :: s => some (String.ofList s)
          | s => some (String.ofList s)
        l.giveValue o kind attached
      | _ => do shorts rest { (← l.give o) with wantsValue := false }

def positional (word : String) : Except Problem Level :=
  match l.command.info.positionals[l.positionalsRead]? with
  | some p => do
    let l ← l.settle
    return { l with
      pending := some ⟨p.name, p.kind, some word⟩
      wantsValue := false
      positionalsRead := l.positionalsRead + 1 }
  | none =>
    if l.onlyPositionals ∧ (word = "help" ∨ (l.command.subcommand? word).isSome) then
      .error .unknownArgument
    else if l.command.subcommands.isEmpty then .error .unknownArgument
    else .error .unknownSubcommand

def plain (word : String) : Except Problem Level :=
  if l.wantsValue ∧ ¬ l.onlyPositionals then
    .ok { l with
      pending := l.pending.map fun p => { p with value := some word }
      wantsValue := false }
  else l.positional word

def word (word : String) : Except Problem Level :=
  if l.onlyPositionals then l.positional word
  else match word.toList with
    | ['-', '-'] => .ok { l with onlyPositionals := true }
    | '-' :: '-' :: name =>
      let attached := name.dropWhile (· ≠ '=')
      { l with wantsValue := false }.long (String.ofList (name.takeWhile (· ≠ '=')))
        (if attached.isEmpty then none else some (String.ofList attached.tail))
    | '-' :: c :: rest => shorts (c :: rest) { l with wantsValue := false }
    | _ => l.plain word

def addEnvironment (environment : String → Option String) (isTrue : String → Bool) : Level :=
  { l with values := l.options.foldl (fun values o =>
      match o.setBy.bind environment with
      | some s =>
        if (values.lookup o.name).isSome then values
        else values ++ [(o.name, .environment, .flag (isTrue s))]
      | none => values) l.values }

def check (hasSubcommand : Bool) : Except Problem Unit :=
  let info := l.command.info
  let given (name : String) : Bool := (l.values.lookup name).isSome
  let needed := info.required ++ info.positionals.map Positional.name
  if !hasSubcommand && !l.command.subcommands.isEmpty then
    .error (if l.values.isEmpty then .nothingGiven else .missingSubcommand)
  else if info.conflicts.any fun c => given c.1 && given c.2 then .error .conflict
  else if needed.all given then .ok ()
  else .error .missingArgument

end Level

def helpFor (c : Command) : List String → Problem
  | [] => .helpWanted
  | name :: rest =>
    if name = "help" ∧ ¬ c.subcommands.isEmpty then
      if rest.isEmpty then .helpWanted else .unknownSubcommand
    else match c.subcommand? name with
      | some sub => helpFor sub rest
      | none => .unknownSubcommand

structure Surroundings where
  lookUp : String → Option String
  isTrue : String → Bool

def finish (s : Surroundings) (l : Level) (hasSubcommand : Bool) : Except Problem Matches := do
  let l ← l.settle
  let l := l.addEnvironment s.lookUp s.isTrue
  l.check hasSubcommand
  return l.values

def read (s : Surroundings) : Level → List String → Except Problem (List (String × Matches))
  | l, [] => do return [(l.command.info.name, ← finish s l false)]
  | l, word :: rest =>
    let sub? :=
      if l.onlyPositionals ∨ l.wantsValue then none else l.command.subcommand? word
    if ¬ l.onlyPositionals ∧ ¬ l.wantsValue ∧ word = "help" ∧ ¬ l.command.subcommands.isEmpty then
      .error (helpFor l.command rest)
    else match sub? with
      | some sub => do
        let inner ← read s { command := sub } rest
        return (l.command.info.name, ← finish s l true) :: inner
      | none => do read s (← l.word word) rest

end TemplateTrace.CommandLine
