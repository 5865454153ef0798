import Combinatory.Definition.Load
import Combinatory.Reduction.Run

/-!
# Replies

What the console replies to a line, by its cause. `Reply.text?` words it; some replies have no text.
Two notions of failure differ: `Reply.ok` is false only for an expression that cannot be reduced, and
`Reply.isFailure` also holds of a command that could not be carried out.
-/

namespace Combinatory

/-- The reply to a line. -/
inductive Reply where
  /-- To a blank line and a comment. -/
  | silence
  | farewell
  | help
  | noCommand
  | unknownCommand (word : Text)
  | loadUsage
  | loadFailed (file : Text) (error : LoadError)
  | loaded (count : Nat) (file : Text)
  | noDefinitions
  | definitions (R : Basis)
  | defineUsage
  | defineFailed (error : DefinitionError)
  | defined (name : Text)
  | reset
  | tracing (enabled : Bool)
  | maxUsage (current : Int)
  | maxNotPositive
  | maxSet (n : Int)
  | unbalanced (expression : Text)
  | faulted (f : Fault)
  /-- To an expression that was reduced, with all its buffers if `traced`. -/
  | reduced (traced : Bool) (t : Trace)

namespace Reply

def helpText : Text :=
  ['\n'].intercalate
    ["CLSTEP REPL Commands:".toList,
      "  :help              Show this help".toList,
      "  :load FILE         Append definitions from a file".toList,
      "  :defs              List registered combinators".toList,
      "  :define RECORD     Append a definition (NAME, [ARITY,] TEMPLATE)".toList,
      "  :reset             Back to the built-in combinators".toList,
      "  :trace on|off      Toggle printing of every step".toList,
      "  :max N             Set the step limit".toList,
      "  :quit              Exit".toList,
      [],
      "Syntax:".toList,
      "  Sabc               Step an expression until it stops".toList,
      "  (Ia)b              Bracketed heads are reduced and flattened".toList,
      "  x, y1, z_2         Variables never rewrite".toList,
      []]

/-- The outcome of a run: its buffers or only the last one, with a note if the run was cut short. -/
def outcome (traced : Bool) (t : Trace) : Text :=
  (if traced then t.chain else t.final) ++
    if t.settled then []
    else "\n(stopped after ".toList ++ Text.ofNat t.steps.length ++ " steps)".toList

def text? : Reply → Option Text
  | .silence | .farewell => none
  | .help => some helpText
  | .noCommand => some "Unknown command. Type :help for help.".toList
  | .unknownCommand word =>
    some ("Unknown command: ".toList ++ word ++ ". Type :help for help.".toList)
  | .loadUsage => some "Usage: :load FILENAME".toList
  | .loadFailed file e => some ("Error loading ".toList ++ file ++ ": ".toList ++ e.message)
  | .loaded count file =>
    some ("Loaded ".toList ++ Text.ofNat count ++ " combinators from ".toList ++ file)
  | .noDefinitions => some "No combinators defined".toList
  | .definitions R => some (R.document none)
  | .defineUsage => some "Usage: :define NAME, [ARITY,] TEMPLATE".toList
  | .defineFailed e => some ("Error: ".toList ++ e.message)
  | .defined name => some ("Defined ".toList ++ name)
  | .reset => some "Reset to built-in combinators".toList
  | .tracing true => some "Tracing enabled".toList
  | .tracing false => some "Tracing disabled".toList
  | .maxUsage current =>
    some ("Usage: :max N (currently ".toList ++ Text.ofInt current ++ [')'])
  | .maxNotPositive => some "Error: step limit must be positive".toList
  | .maxSet n => some ("Step limit set to ".toList ++ Text.ofInt n)
  | .unbalanced expression =>
    some ("Error: unbalanced parentheses in ".toList ++ Text.quoted expression)
  | .faulted f => some ("Error: ".toList ++ f.message)
  | .reduced traced t => some (outcome traced t)

/-- Whether the line was no expression, or one that could be reduced. -/
def ok : Reply → Bool
  | .unbalanced _ | .faulted _ => false
  | _ => true

/-- Whether what the line asked for was not done. -/
def isFailure : Reply → Bool
  | .unbalanced _ | .faulted _ | .noCommand | .unknownCommand _ | .loadUsage | .loadFailed _ _
  | .defineUsage | .defineFailed _ | .maxUsage _ | .maxNotPositive => true
  | _ => false

end Reply

end Combinatory
