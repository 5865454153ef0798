import Combinatory.Console.Reply
import Combinatory.Reduction.Narration
import Combinatory.Text.LowerCase

/-!
# The console

The console keeps a basis and its settings between lines. A line is a comment, a command after a
colon, or an expression to reduce; blanks around it and inside an expression have no meaning.

`Repl.evaluate` answers a line. It fails only where a command names a file that holds no text or
cannot exist, and then the console is as before.
-/

namespace Combinatory

/-- The state of the console. -/
structure Repl where
  basis : Basis := .standard
  /-- Whether every buffer of a run is shown. -/
  tracing : Bool := true
  /-- The step limit of a run, and of every compound in it. -/
  maxSteps : Int := 1000
  room : Room := {}
  /-- False once the console was told to quit. -/
  running : Bool := true
  deriving DecidableEq

/-! ## Commands -/

/-- A command with its argument. -/
inductive ConsoleCommand where
  | none
  | help
  | quit
  | load (file : Text)
  | defs
  | define (record : Text)
  | reset
  | trace (setting : Text)
  | max (number : Text)
  | unknown (word : Text)

namespace ConsoleCommand

/-- The command that a word stands for, in lower case. -/
def ofWord (word argument : Text) : ConsoleCommand :=
  if word = "help".toList then .help
  else if word = "quit".toList ∨ word = "exit".toList ∨ word = ['q'] then .quit
  else if word = "load".toList then .load argument
  else if word = "defs".toList then .defs
  else if word = "define".toList then .define argument
  else if word = "reset".toList then .reset
  else if word = "trace".toList then .trace argument
  else if word = "max".toList then .max argument
  else .unknown word

/-- The command in a line, of which the first character is passed over. -/
def parse (line : Text) : ConsoleCommand :=
  match Text.firstWord? line.tail with
  | .none => .none
  | some (word, argument) => ofWord (Text.lower word) argument

end ConsoleCommand

namespace Repl

def load (fs : FileSystem) (c : Repl) (file : Text) : Repl × Except ReadError Reply :=
  if file = [] then (c, .ok .loadUsage)
  else
    match Document.load fs (.parse file) with
    | .ok ds => ({ c with basis := c.basis.extend ds }, .ok (.loaded ds.length file))
    | .error (.unreadable (.system reason p)) =>
      (c, .ok (.loadFailed file (.unreadable (.system reason p))))
    | .error (.unreadable e) => (c, .error e)
    | .error (.malformed e) => (c, .ok (.loadFailed file (.malformed e)))

def define (c : Repl) (record : Text) : Repl × Reply :=
  match Document.combinator? record with
  | .error e => (c, .defineFailed e)
  | .ok none => (c, .defineUsage)
  | .ok (some d) => ({ c with basis := c.basis.append d }, .defined d.name)

/-- Switches tracing on or off, or over for any other setting. -/
def setTracing (c : Repl) (setting : Text) : Repl × Reply :=
  let enabled :=
    if Text.lower setting = "on".toList then true
    else if Text.lower setting = "off".toList then false
    else !c.tracing
  ({ c with tracing := enabled }, .tracing enabled)

def setMax (c : Repl) (number : Text) : Repl × Reply :=
  match Text.toInt? number with
  | none => (c, .maxUsage c.maxSteps)
  | some n => if n ≤ 0 then (c, .maxNotPositive) else ({ c with maxSteps := n }, .maxSet n)

def listing (c : Repl) : Reply := if c.basis.size = 0 then .noDefinitions else .definitions c.basis

def command (fs : FileSystem) (c : Repl) : ConsoleCommand → Repl × Except ReadError Reply
  | .none => (c, .ok .noCommand)
  | .help => (c, .ok .help)
  | .quit => ({ c with running := false }, .ok .farewell)
  | .load file => c.load fs file
  | .defs => (c, .ok c.listing)
  | .define record => let (c, reply) := c.define record; (c, .ok reply)
  | .reset => ({ c with basis := .standard }, .ok .reset)
  | .trace setting => let (c, reply) := c.setTracing setting; (c, .ok reply)
  | .max number => let (c, reply) := c.setMax number; (c, .ok reply)
  | .unknown word => (c, .ok (.unknownCommand word))

/-! ## Expressions -/

/-- What a step may spend inside brackets. -/
def bounds (c : Repl) : Bounds := { toRoom := c.room, limit := some c.maxSteps }

def reduce (c : Repl) (expression : Text) : Reply :=
  if Balanced expression then
    let r : Reduction := { buffer := expression, bounds := c.bounds }
    match (r.run c.basis c.maxSteps).2 with
    | .ok t => .reduced c.tracing t
    | .error f => .faulted f
  else .unbalanced expression

/-- The parts that a line may play. -/
inductive Line where
  | comment
  | command (command : ConsoleCommand)
  | expression (expression : Text)

def classify (line : Text) : Line :=
  match Text.trim line with
  | [] | '#' :: _ => .comment
  | ':' :: cs => .command (.parse (':' :: cs))
  | t => .expression (Text.withoutBlanks t)

/-- Answers a line. -/
def evaluate (fs : FileSystem) (c : Repl) (line : Text) : Repl × Except ReadError Reply :=
  match classify line with
  | .comment => (c, .ok .silence)
  | .command command => c.command fs command
  | .expression expression => (c, .ok (c.reduce expression))

/-! ## Log -/

def appendEvents (ds : List Combinator) : List Event :=
  (ds.filter fun d => !decide d.Usable).map .unusable

def loadEvents (fs : FileSystem) (p : Path) : List Event :=
  match Document.load fs p with
  | .error _ => []
  | .ok ds => .read ds.length p :: appendEvents ds ++ [.loaded ds.length p]

def events (fs : FileSystem) (c : Repl) (line : Text) : List Event :=
  match classify line with
  | .comment => []
  | .command (.load file) => if file = [] then [] else loadEvents fs (.parse file)
  | .command (.define record) =>
    match Document.combinator? record with
    | .ok (some d) => appendEvents [d]
    | _ => []
  | .command _ => []
  | .expression expression =>
    if Balanced expression then c.basis.narrateRun c.bounds c.maxSteps.toNat expression else []

/-- The file that a line asks to load. -/
def wanted? (line : Text) : Option Path :=
  match classify line with
  | .command (.load file) => if file = [] then none else some (.parse file)
  | _ => none

end Repl

end Combinatory
