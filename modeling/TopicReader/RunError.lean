import TopicReader.Payload.Codec
import TopicReader.Text.Decimal

/-! The ways in which reading a topic fails, each with the facts its text is made of. -/
namespace TopicReader

inductive OutputFault where
  | brokenPipe
  | other
  deriving DecidableEq, Repr

structure OutputError where
  fault : OutputFault
  message : String
  deriving DecidableEq, Repr

inductive RunError where
  | config (message : String)
  | listing (topic message : String)
  | offsets (partition : Int) (message : String)
  | opening (partition : Int) (message : String)
  | decoding (partition offset : Int) (error : DecodeError)
  | output (error : OutputError)
  | broker (message : String)
  | worker (message : String)
  deriving DecidableEq, Repr

namespace RunError

def message : RunError → String
  | .config message => s!"Configuration error: {message}"
  | .listing topic message => s!"Failed to list partitions of topic {topic}: {message}"
  | .offsets partition message =>
    "Failed to fetch offsets for partition " ++ Decimal.text partition ++ ": " ++ message
  | .opening partition message =>
    "Failed to start consumer for partition " ++ Decimal.text partition ++ ": " ++ message
  | .decoding partition offset error =>
    "Failed to decode message at partition " ++ Decimal.text partition ++ " offset " ++
      Decimal.text offset ++ ": " ++ error.text
  | .output error => s!"Output error: {error.message}"
  | .broker message => s!"Kafka error: {message}"
  | .worker message => s!"Worker failed: {message}"

/-- Whether the error shows before any client is asked for anything. -/
def isConfig : RunError → Bool
  | .config _ => true
  | _ => false

end RunError
end TopicReader
