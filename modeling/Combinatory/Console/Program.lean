import Combinatory.Console.Options
import Combinatory.Console.Session

/-!
# The program

The program loads the definition files it is given, and then reduces one expression, or every line of
its input, or holds a dialogue when the input is a terminal.
-/

namespace Combinatory

inductive Input where
  | text (t : Text)
  | terminal (typed : List Typed)

inductive Ending where
  | exit (code : Nat)
  /-- The dialogue is over. -/
  | done
  /-- A file could not be read, and nobody expected that. -/
  | failed (e : ReadError)
  /-- The value of this option is needed, and there is none. -/
  | missing (o : CommandOption)

/-- A run of the program: what it writes, in order, and how it ends. -/
structure ProgramRun where
  output : List (Bool × Text)
  ending : Ending

namespace ProgramRun

/-- What is written to the standard output, or to the standard error. -/
def written (r : ProgramRun) (isError : Bool) : Text :=
  (r.output.filter fun piece => piece.1 = isError).flatMap Prod.snd

end ProgramRun

namespace Program

def usage : Text :=
  ("usage: clstep [-h] [-e EXPR] [-d DEFINITIONS] [--no-builtins] [-m MAX_STEPS]\n" ++
    "              [-q] [-v] [--version]\n").toList

def help : Text :=
  usage ++
    ("\nCLSTEP - step-by-step combinatory logic reduction\n\n" ++
      "options:\n" ++
      "  -h, --help            show this help message and exit\n" ++
      "  -e EXPR, --expr EXPR  Reduce a single expression\n" ++
      "  -d DEFINITIONS, --definitions DEFINITIONS\n" ++
      "                        Append combinator definitions from a file (can be\n" ++
      "                        specified multiple times)\n" ++
      "  --no-builtins         Start without the built-in S K I B C combinators\n" ++
      "  -m MAX_STEPS, --max-steps MAX_STEPS\n" ++
      "                        Step limit per expression (default: 1000)\n" ++
      "  -q, --quiet           Print only the final buffer\n" ++
      "  -v, --verbose         Log every step to stderr\n" ++
      "  --version             show program's version number and exit\n\n" ++
      "Examples:\n" ++
      "  clstep                          Start REPL\n" ++
      "  clstep -e 'Sabc'                Step an expression\n" ++
      "  clstep -d defs.txt -e '<0>ab'   Use extra definitions\n" ++
      "  echo 'SKKx' | clstep -q         Filter mode\n").toList

/-- The pieces of output of a session. -/
def pieces (output : List Output) : List (Bool × Text) :=
  output.map fun piece => (piece.isError, piece.text)

/-- The run that writes pieces of output and ends with a code. -/
def exiting (output : List Output) : Except ReadError Nat → ProgramRun
  | .ok code => ⟨pieces output, .exit code⟩
  | .error e => ⟨pieces output, .failed e⟩

/-- The outcome of loading definition files: the log, and the basis or how the program ends. -/
def loadAll (fs : FileSystem) (R : Basis) : List (Option Text) →
    List Output × Except (Option Output × Ending) Basis
  | [] => ([], .ok R)
  | none :: _ => ([], .error (none, .missing .definitions))
  | some file :: rest =>
    let log := (Repl.loadEvents fs (.parse file)).map Output.log
    match Document.load fs (.parse file) with
    | .ok ds =>
      let (more, outcome) := loadAll fs (R.extend ds) rest
      (log ++ more, outcome)
    | .error (.unreadable (.system reason p)) =>
      let reply := Reply.loadFailed file (.unreadable (.system reason p))
      (log, .error (some (.complaint (reply.text?.getD [])), .exit 1))
    | .error (.unreadable e) => (log, .error (none, .failed e))
    | .error (.malformed e) =>
      let reply := Reply.loadFailed file (.malformed e)
      (log, .error (some (.complaint (reply.text?.getD [])), .exit 1))

/-- The lines of an input that is no terminal. -/
def lines (t : Text) : List Text := Text.split '\n' (Text.unifyBreaks t)

/-- Loads the definition files: the log if it is kept, and the console to start with. -/
def load (fs : FileSystem) (options : Options) (maxSteps : Int) (room : Room := {}) :
    List Output × Except (Option Output × Ending) Repl :=
  let (log, loaded) := loadAll fs (.initial options.builtins) options.definitions
  (if options.verbose then log else [],
    loaded.map fun basis =>
      { basis, tracing := !options.quiet, maxSteps, room })

def work (fs : FileSystem) (options : Options) (maxSteps : Int) (input : Input) (room : Room := {}) :
    ProgramRun :=
  match load fs options maxSteps room with
  | (log, .error (complaint, ending)) => ⟨pieces (log ++ complaint.toList), ending⟩
  | (log, .ok c) =>
    match options.expr, input with
    | some (e :: es), _ =>
      let (_, out, code) := Session.answer fs options.verbose c (e :: es)
      exiting (log ++ out) code
    | _, .text t =>
      let (_, out, code) := Session.filter fs options.verbose c (lines t)
      exiting (log ++ out) code
    | _, .terminal typed =>
      let (_, out, failure) := Session.run fs options.verbose ⟨c, []⟩ typed
      ⟨pieces (log ++ .banner :: out), failure.elim .done .failed⟩

def run (fs : FileSystem) (arguments : List Text) (input : Input) (room : Room := {}) : ProgramRun :=
  match Options.parse arguments with
  | .help => ⟨[(false, help)], .exit 0⟩
  | .version => ⟨[(false, "clstep ".toList ++ Output.version ++ ['\n'])], .exit 0⟩
  | .refuse e =>
    ⟨[(true, usage ++ "clstep: error: ".toList ++ e.message ++ ['\n'])], .exit 2⟩
  | .missing o => ⟨[], .missing o⟩
  | .work options maxSteps => work fs options maxSteps input room

end Program

end Combinatory
