namespace PodRules.CommandLine

inductive UsageError where
  | help
  | version
  /-- Nothing was asked for. -/
  | missingCommand
  | unknownCommand
  | unknownArgument
  /-- An option without the value that it needs. -/
  | missingValue
  /-- A value for an option that takes none. -/
  | unwantedValue
  /-- A value that is no number in the range of its option. -/
  | invalidValue
  /-- An option that was given twice. -/
  | repeatedOption
  deriving DecidableEq, Repr

def UsageError.exitCode : UsageError → Nat
  | .help => 0
  | .version => 0
  | _ => 2

end PodRules.CommandLine
