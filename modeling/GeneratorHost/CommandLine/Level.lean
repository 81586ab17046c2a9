import GeneratorHost.CommandLine.Switch

/-! Reading words into the options of a level: those before the command, or those behind it. -/
namespace GeneratorHost.CommandLine

/-- Why there is no command to run. -/
inductive Refusal where
  | help
  | version
  | misuse
deriving DecidableEq, Repr

/-- A word by its form. -/
inductive Word where
  /-- Two hyphens; no option stands behind them. -/
  | last
  | long (name : String) (value? : Option String)
  | short (letters : List Char)
  | plain
deriving DecidableEq, Repr

namespace Word

def ofText (s : String) : Word :=
  match s.toList with
  | ['-', '-'] => last
  | '-' :: '-' :: cs =>
    let name := cs.takeWhile (· ≠ '=')
    long (String.ofList name) (match cs.drop name.length with
      | _ :: value => some (String.ofList value)
      | [] => none)
  | '-' :: c :: cs => short (c :: cs)
  | _ => plain

end Word

/-- The options that were read. -/
structure Level where
  /-- Options with their values; a flag has an empty one. -/
  given : List (Switch × String) := []
  /-- The last option, if its value is a word of its own, and that word once it is read. It is checked
  when the next option is met. -/
  pending? : Option (Switch × Option String) := none
deriving DecidableEq, Repr

namespace Level

def has (l : Level) (s : Switch) : Bool := l.given.any (·.1 = s)

/-- All values of an option in order. -/
def values (l : Level) (s : Switch) : List String :=
  (l.given.filter (·.1 = s)).map (·.2)

/-- The option whose value is the next word. -/
def waiting? (l : Level) : Option Switch :=
  match l.pending? with
  | some (s, none) => some s
  | _ => none

/-- Adds an option. -/
def add (l : Level) (s : Switch) (value : String) : Except Refusal Level :=
  match s with
  | .help => .error .help
  | .version => .error .version
  | _ =>
    if (l.has s && !s.repeats) || !s.accepts value then .error .misuse
    else .ok { l with given := l.given ++ [(s, value)] }

/-- Adds the pending option. -/
def settle (l : Level) : Except Refusal Level :=
  match l.pending? with
  | none => .ok l
  | some (_, none) => .error .misuse
  | some (s, some value) => { l with pending? := none }.add s value

/-- Meets an option and the value that stands in the same word. -/
def meet (l : Level) (s : Switch) (value? : Option String) : Except Refusal Level := do
  let l ← l.settle
  match s.takesValue, value? with
  | true, some value => l.add s value
  | true, none => return { l with pending? := some (s, none) }
  | false, none => l.add s ""
  | false, some _ => throw .misuse

/-- The value behind a letter in the same word. -/
def attached? : List Char → Option String
  | [] => none
  | '=' :: cs => some (String.ofList cs)
  | cs => some (String.ofList cs)

/-- Meets the options of letters; what follows an option with a value is the value. -/
def meetLetters (switches : List Switch) (l : Level) : List Char → Except Refusal Level
  | [] => .ok l
  | c :: cs =>
    match switches.find? (·.short? = some c) with
    | none => .error .misuse
    | some s =>
      if s.takesValue then l.meet s (attached? cs)
      else do meetLetters switches (← l.meet s none) cs

/-- What stands behind the options of a level: nothing, or a command and its words. -/
abbrev Rest := Option (CommandName × List String)

/-- What the help command comes to. -/
def helpFor : List String → Refusal
  | [] => .help
  | [name] => if name = "help" || (CommandName.ofText? name).isSome then .help else .misuse
  | _ => .misuse

/-- A plain word that is no value: the command, where one may stand. -/
def plain (hasCommands : Bool) (l : Level) (word : String) (rest : List String) :
    Except Refusal (Level × Rest) :=
  if !hasCommands then .error .misuse
  else if word = "help" then .error (helpFor rest)
  else
    match CommandName.ofText? word with
    | some name => .ok (l, some (name, rest))
    | none => .error .misuse

/-- Whether a word is the value that is waited for. -/
def takes (l : Level) (form : Word) : Bool :=
  match l.waiting? with
  | some s => form = .plain || s.takesHyphens
  | none => false

/-- Gives the pending option its value. -/
def give (l : Level) (word : String) : Level :=
  { l with pending? := l.pending?.map fun (s, _) => (s, some word) }

/-- Reads the words of a level. -/
def read (switches : List Switch) (hasCommands : Bool) (l : Level) :
    List String → Except Refusal (Level × Rest)
  | [] => return (← l.settle, none)
  | word :: rest =>
    let form := Word.ofText word
    if l.takes form then read switches hasCommands (l.give word) rest
    else
      match form with
      | .plain => l.plain hasCommands word rest
      | .long name value? =>
        match switches.find? (·.long? = some name) with
        | some s => do read switches hasCommands (← l.meet s value?) rest
        | none => .error .misuse
      | .short letters => do read switches hasCommands (← l.meetLetters switches letters) rest
      | .last => if rest.isEmpty then return (← l.settle, none) else .error .misuse

end Level
end GeneratorHost.CommandLine
