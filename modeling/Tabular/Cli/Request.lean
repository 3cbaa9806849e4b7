import Tabular.Byte
import Tabular.Text.Utf8

/-!
The command line of an echo: an input, an option for the byte-order mark, one for a source of
overwrites, and one for help.
-/
namespace Tabular.Cli

structure Request where
  /-- The path of the input; without one, standard input is read. -/
  input : Option Bytes := none
  /-- The text that says where overwrites come from. -/
  overwrites : Option String := none
  withMark : Bool := false
  help : Bool := false
  deriving DecidableEq, Repr, Inhabited

inductive UsageError where
  | repeatedOverwrites
  | missingOverwrites
  | unrecognized (option : String)
  deriving DecidableEq, Repr

def UsageError.message : UsageError → String
  | .repeatedOverwrites => "`--overwrite` may only be provided once"
  | .missingOverwrites => "Option --overwrite requires a value"
  | .unrecognized option => s!"Unrecognized option: {option}"

inductive Argument where
  | help
  | mark
  /-- The next argument says where overwrites come from. -/
  | overwritesNext
  | overwrites (source : String)
  | standardInput
  /-- Something that looks like an option but is none. -/
  | unknownOption
  | path
  deriving DecidableEq, Repr

namespace Argument

def overwritesKey : List Char := "--overwrite=".toList

def ofText (text : String) : Argument :=
  match text with
  | "-h" | "--help" => .help
  | "-b" => .mark
  | "--overwrite" => .overwritesNext
  | "-" => .standardInput
  | _ =>
    if overwritesKey.isPrefixOf text.toList then
      .overwrites (String.ofList (text.toList.drop overwritesKey.length))
    else if text.toList.head? = some '-' then .unknownOption
    else .path

end Argument

namespace Request

/-- Take a source of overwrites, of which there can be one. -/
def setOverwrites (r : Request) (source : String) : Except UsageError Request :=
  if r.overwrites.isSome then .error .repeatedOverwrites
  else .ok { r with overwrites := some source }

/-- Follow the arguments from here on. There is one input at most, be it a path or standard
input. -/
def follow (r : Request) (inputSeen : Bool) : List Bytes → Except UsageError Request
  | [] => .ok r
  | argument :: rest =>
    let text := Utf8.decodeLossy argument
    match Argument.ofText text with
    | .help => follow { r with help := true } inputSeen rest
    | .mark => follow { r with withMark := true } inputSeen rest
    | .overwrites source => do follow (← r.setOverwrites source) inputSeen rest
    | .overwritesNext =>
      match rest with
      | value :: later => do
        follow (← r.setOverwrites (Utf8.decodeLossy value)) inputSeen later
      | [] => .error (if r.overwrites.isSome then .repeatedOverwrites else .missingOverwrites)
    | .standardInput =>
      if inputSeen then .error (.unrecognized text) else follow r true rest
    | .path =>
      if inputSeen then .error (.unrecognized text)
      else follow { r with input := some argument } true rest
    | .unknownOption => .error (.unrecognized text)

def parse (arguments : List Bytes) : Except UsageError Request := follow {} false arguments

end Request

end Tabular.Cli
