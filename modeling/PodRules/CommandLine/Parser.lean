import PodRules.CommandLine.RunOption
import PodRules.CommandLine.Word

namespace PodRules.CommandLine

inductive Command where
  | run (arguments : RunArguments)
  | definition

structure Given where
  settled : List (RunOption × String)
  waiting : Option (RunOption × Option String)

namespace Given

def none : Given := ⟨[], .none⟩

def settle (g : Given) (o : RunOption) (value : String) : Except UsageError Given :=
  if g.settled.any (·.1 = o) then .error .repeatedOption
  else if o.admits value then .ok { g with settled := g.settled ++ [(o, value)] }
  else .error .invalidValue

def settleWaiting (g : Given) : Except UsageError Given :=
  match g.waiting with
  | .none => .ok g
  | some (_, .none) => .error .missingValue
  | some (o, some value) => { g with waiting := .none }.settle o value

def settleThen (g : Given) (e : UsageError) : Except UsageError Given :=
  match g.settleWaiting with
  | .ok _ => .error e
  | .error e => .error e

def long (g : Given) (name : String) (value : Option String) : Except UsageError Given :=
  match RunOption.ofName? name, value with
  | some o, .none => g.settleWaiting.map fun g => { g with waiting := some (o, .none) }
  | some o, some v => g.settleWaiting.bind fun g => g.settle o v
  | .none, .none => if name = "help" then g.settleThen .help else .error .unknownArgument
  | .none, some _ => .error (if name = "help" then .unwantedValue else .unknownArgument)

def plain (g : Given) (text : String) : Except UsageError Given :=
  match g.waiting with
  | some (o, .none) => .ok { g with waiting := some (o, some text) }
  | _ => .error .unknownArgument

def word (g : Given) : Word → Except UsageError Given
  | .long name value => g.long name value
  | .letters c => if c = 'h' then g.settleThen .help else .error .unknownArgument
  | .plain text => g.plain text
  | .separator => .ok g

/-- All words of the run command. After the separator only the end may follow. -/
def ofWords : Given → List Word → Except UsageError Given
  | g, [] => g.settleWaiting
  | g, .separator :: rest => if rest.isEmpty then g.settleWaiting else .error .unknownArgument
  | g, w :: rest =>
    match g.word w with
    | .ok g => ofWords g rest
    | .error e => .error e

end Given

/-- The value of an option: the settled one, else that of its variable, which has to be admitted
too. -/
def valueOf (settled : List (RunOption × String)) (environment : String → Option String)
    (o : RunOption) : Except UsageError (Option String) :=
  match settled.lookup o with
  | some v => .ok (some v)
  | none =>
    match environment o.environmentName with
    | some v => if o.admits v then .ok (some v) else .error .invalidValue
    | none => .ok none

def runArguments (environment : String → Option String) (words : List String) :
    Except UsageError RunArguments :=
  match Given.none.ofWords (words.map .ofText) with
  | .error e => .error e
  | .ok g =>
    match RunOption.all.find? fun o => (valueOf g.settled environment o).isOk = false with
    | some _ => .error .invalidValue
    | none =>
      .ok (.ofValues fun o =>
        match valueOf g.settled environment o with
        | .ok v => v
        | .error _ => none)

def noArguments : List Word → Except UsageError Unit
  | [] => .ok ()
  | [.separator] => .ok ()
  | .long "help" none :: _ => .error .help
  | .long "help" (some _) :: _ => .error .unwantedValue
  | .letters 'h' :: _ => .error .help
  | _ => .error .unknownArgument

def commandNames : List String := ["run", "crd", "help"]

def helpTopic : List String → UsageError
  | [] => .help
  | [name] => if name ∈ commandNames then .help else .unknownCommand
  | _ => .unknownCommand

def misuse : List Word → UsageError
  | [] => .missingCommand
  | [.separator] => .missingCommand
  | .separator :: w :: _ =>
    match w with
    | .plain name => if name ∈ commandNames then .unknownArgument else .unknownCommand
    | _ => .unknownCommand
  | .long "help" none :: _ => .help
  | .long "version" none :: _ => .version
  | .long "help" (some _) :: _ => .unwantedValue
  | .long "version" (some _) :: _ => .unwantedValue
  | .letters 'h' :: _ => .help
  | .letters 'V' :: _ => .version
  | .long _ _ :: _ => .unknownArgument
  | .letters _ :: _ => .unknownArgument
  | .plain _ :: _ => .unknownCommand

def parse (environment : String → Option String) : List String → Except UsageError Command
  | "run" :: words => (runArguments environment words).map .run
  | "crd" :: words => (noArguments (words.map .ofText)).map fun _ => .definition
  | "help" :: words => .error (helpTopic words)
  | words => .error (misuse (words.map .ofText))

end PodRules.CommandLine
