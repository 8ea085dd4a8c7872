import TopicReader.CommandLine.Invocation

/-! The texts that answer a command line without an order. -/
namespace TopicReader.CommandLine

def Switch.help {ι : Type} (s : Switch ι) : String :=
  let letter := match s.letter with
    | some c => "-" ++ String.singleton c ++ ", "
    | none => "    "
  let value := if s.takes = .nothing then "" else " <VALUE>"
  "  " ++ letter ++ "--" ++ s.long ++ value

def Grammar.help {ι α : Type} (g : Grammar ι α) : String :=
  "Options:\n" ++ "\n".intercalate (g.switches.map Switch.help)

namespace Invocation

def version : String := "kaftail 0.1.0"

def generalHelp : String :=
  "Usage: kaftail [OPTIONS] consume [CONSUME OPTIONS] <TOPIC>\n\n" ++ GeneralOption.grammar.help

def consumeHelp : String :=
  "Usage: kaftail consume [OPTIONS] <TOPIC>\n\n" ++ ConsumeOption.grammar.help

end Invocation

namespace Refusal

/-- What a misuse is called. -/
def reason : Refusal → String
  | .unknownArgument => "unexpected argument"
  | .unknownCommand => "unrecognized subcommand"
  | .badChoice => "missing value, or one that is not among the possible values"
  | .badValue => "invalid value"
  | .repeated => "an argument cannot be used multiple times"
  | .unexpectedValue => "unexpected value for an option that takes none"
  | .missingArgument => "a required argument was not provided"
  | .missingCommand => "a subcommand is required but one was not provided"
  | .helpAsked | .helpNeeded | .versionAsked => ""

def text : Refusal → String
  | .versionAsked => Invocation.version
  | .helpAsked | .helpNeeded => Invocation.generalHelp ++ "\n\n" ++ Invocation.consumeHelp
  | r => "error: " ++ r.reason ++ "\n\n" ++ Invocation.generalHelp

end Refusal
end TopicReader.CommandLine
