import Combinatory.Text.Number
import Combinatory.Text.Quoted

/-!
# Command line options

An argument is an option when it begins with a dash and is the spelling of one, or the only one that a
long spelling may be completed to, or a dash with the letters of several options run together. A value
follows the equals sign after a spelling, or the letter of its option, or is the next argument. An
argument `--` ends the options.

`Options.parse` reads a list of arguments. Options act in order, so that of help, version and the
faults among them the first is the outcome; but an argument that could be completed in several ways is
refused before any option acts, and one that is no option after all have. A value `--` takes back what its
option has set; where that is needed, the program fails (`Request.missing`).
-/

namespace Combinatory

inductive CommandOption where
  | help
  | expr
  | definitions
  | noBuiltins
  | maxSteps
  | quiet
  | verbose
  | version
  deriving DecidableEq, Repr

namespace CommandOption

/-- The options in order, each with its spellings. -/
def table : List (CommandOption × List Text) :=
  [(.help, ["-h".toList, "--help".toList]),
    (.expr, ["-e".toList, "--expr".toList]),
    (.definitions, ["-d".toList, "--definitions".toList]),
    (.noBuiltins, ["--no-builtins".toList]),
    (.maxSteps, ["-m".toList, "--max-steps".toList]),
    (.quiet, ["-q".toList, "--quiet".toList]),
    (.verbose, ["-v".toList, "--verbose".toList]),
    (.version, ["--version".toList])]

def spellings : List (Text × CommandOption) :=
  table.flatMap fun (o, spellings) => spellings.map fun spelling => (spelling, o)

def ofSpelling? (spelling : Text) : Option CommandOption := spellings.lookup spelling

/-- The spellings of an option, as an error names it. -/
def display (o : CommandOption) : Text := ['/'].intercalate ((table.lookup o).getD [])

/-- The wording of the error for an option that lacks its value when it is needed. -/
def missingMessage : CommandOption → Text
  | .maxSteps =>
    "\x27<=\x27 not supported between instances of \x27list\x27 and \x27int\x27".toList
  | _ => "expected str, bytes or os.PathLike object, not list".toList

def takesValue : CommandOption → Bool
  | .expr | .definitions | .maxSteps => true
  | _ => false

end CommandOption

/-- What the options set. A value that was given as `--` is none. -/
structure Options where
  expr : Option Text := none
  definitions : List (Option Text) := []
  builtins : Bool := true
  maxSteps : Option Int := some 1000
  quiet : Bool := false
  verbose : Bool := false
  deriving DecidableEq

/-- Why the arguments are refused. -/
inductive OptionError where
  | ambiguous (argument : Text) (spellings : List Text)
  | valueExpected (o : CommandOption)
  | valueIgnored (o : CommandOption) (value : Text)
  | notANumber (o : CommandOption) (value : Text)
  | unrecognized (arguments : List Text)
  | maxNotPositive
  deriving DecidableEq

def OptionError.message : OptionError → Text
  | .ambiguous argument spellings =>
    "ambiguous option: ".toList ++ argument ++ " could match ".toList ++
      ", ".toList.intercalate spellings
  | .valueExpected o => "argument ".toList ++ o.display ++ ": expected one argument".toList
  | .valueIgnored o value =>
    "argument ".toList ++ o.display ++ ": ignored explicit argument ".toList ++ Text.quoted value
  | .notANumber o value =>
    "argument ".toList ++ o.display ++ ": invalid int value: ".toList ++ Text.quoted value
  | .unrecognized arguments =>
    "unrecognized arguments: ".toList ++ [' '].intercalate arguments
  | .maxNotPositive => "--max-steps must be positive".toList

inductive Request where
  | help
  | version
  | work (options : Options) (maxSteps : Int)
  | refuse (error : OptionError)
  /-- The value of this option is needed, and there is none. -/
  | missing (o : CommandOption)
  deriving DecidableEq

namespace Options

/-! ## Reading one argument -/

inductive Argument where
  /-- Not an option. -/
  | plain
  /-- An option that there is not. -/
  | unknown
  /-- An option, in a long spelling or with one letter, and what follows it in the argument; an equals
  sign right after it is left out. -/
  | known (o : CommandOption) (isLong : Bool) (tail : Option Text)
  | ambiguous (spellings : List Text)

/-- Whether a text is a dash with digits, of which the last ones may follow a point. -/
def isNegativeNumber (t : Text) : Bool :=
  let isDigit := fun c => (Text.digitValue? c).isSome
  let t := if t.getLast? = some '\n' then t.dropLast else t
  match t with
  | '-' :: cs =>
    let tail := match cs.dropWhile isDigit with
      | '.' :: ds => ds
      | _ => cs
    tail ≠ [] && tail.all isDigit
  | _ => false

/-- Cuts a text at its first equals sign. -/
def cutAtEquals (t : Text) : Text × Option Text :=
  match t.dropWhile (· ≠ '=') with
  | [] => (t, none)
  | _ :: value => (t.takeWhile (· ≠ '='), some value)

/-- What an argument is that is no spelling, neither as a whole nor before an equals sign. -/
def classifyLoose (argument : Text) : Argument :=
  let loose := if isNegativeNumber argument || argument.contains ' ' then .plain else .unknown
  match argument with
  | '-' :: '-' :: _ =>
    let (start, value) := cutAtEquals argument
    match CommandOption.spellings.filter fun (spelling, _) => start.isPrefixOf spelling with
    | [] => loose
    | [(_, o)] => .known o true value
    | several => .ambiguous (several.map Prod.fst)
  | '-' :: c :: value =>
    match CommandOption.ofSpelling? ['-', c] with
    | some o => .known o false (some value)
    | none => loose
  | _ => loose

def isLong (spelling : Text) : Bool := "--".toList.isPrefixOf spelling

def classify (argument : Text) : Argument :=
  match argument with
  | '-' :: _ :: _ =>
    match CommandOption.ofSpelling? argument with
    | some o => .known o (isLong argument) none
    | none =>
      match cutAtEquals argument with
      | (spelling, some value) =>
        match CommandOption.ofSpelling? spelling with
        | some o => .known o (isLong spelling) (some value)
        | none => classifyLoose argument
      | (_, none) => classifyLoose argument
  | _ => .plain

/-! ## Letters run together -/

/-- The options of one argument: those without value, then one with its value or one of which the value
is the next argument. -/
structure Cluster where
  flags : List CommandOption
  valued : Option (CommandOption × Text) := none
  wants : Option CommandOption := none

/-- Reads what follows an option in its argument: its value, or the letters of further options. An
equals sign among the letters stands for itself. -/
def readCluster (flags : List CommandOption) (o : CommandOption) (isLong : Bool) :
    Text → Except OptionError Cluster
  | [] => if o.takesValue then .ok { flags, valued := some (o, []) } else .error (.valueIgnored o [])
  | c :: cs =>
    if o.takesValue then .ok { flags, valued := some (o, c :: cs) }
    else if isLong then .error (.valueIgnored o (c :: cs))
    else
      match CommandOption.ofSpelling? ['-', c], cs with
      | none, _ => .error (.valueIgnored o (c :: cs))
      | some next, [] =>
        if next.takesValue then .ok { flags := flags ++ [o], wants := some next }
        else .ok { flags := flags ++ [o, next] }
      | some next, c' :: cs' => readCluster (flags ++ [o]) next false (c' :: cs')

def cluster (o : CommandOption) (isLong : Bool) : Option Text → Except OptionError Cluster
  | some tail => readCluster [] o isLong tail
  | none => .ok (if o.takesValue then { flags := [], wants := some o } else { flags := [o] })

/-! ## Acting -/

/-- The effect of an option without value; the error is a request that is met at once. -/
def setFlag (options : Options) : CommandOption → Except Request Options
  | .help => .error .help
  | .version => .error .version
  | .noBuiltins => .ok { options with builtins := false }
  | .quiet => .ok { options with quiet := true }
  | .verbose => .ok { options with verbose := true }
  | .expr | .definitions | .maxSteps => .ok options

/-- The value that is given to an option; `--` gives none. -/
def given? (value : Text) : Option Text := if value = "--".toList then none else some value

/-- The effect of an option with its value. -/
def setValue (options : Options) (o : CommandOption) (value : Text) : Except Request Options :=
  match o, given? value with
  | .expr, value => .ok { options with expr := value }
  | .definitions, value => .ok { options with definitions := options.definitions ++ [value] }
  | .maxSteps, none => .ok { options with maxSteps := none }
  | .maxSteps, some value =>
    match Text.toInt? value with
    | some n => .ok { options with maxSteps := some n }
    | none => .error (.refuse (.notANumber .maxSteps value))
  | _, _ => .ok options

/-- The effect of the options in an argument that has all its values. -/
def setCluster (options : Options) (c : Cluster) : Except Request Options := do
  let options ← c.flags.foldlM setFlag options
  match c.valued with
  | some (o, value) => options.setValue o value
  | none => return options

/-- What the arguments ask for once all have been read. -/
def finish (options : Options) (leftOver : List Text) : Request :=
  if leftOver ≠ [] then .refuse (.unrecognized leftOver)
  else
    match options.maxSteps with
    | none => .missing .maxSteps
    | some n => if n ≤ 0 then .refuse .maxNotPositive else .work options n

/-- Whether an argument can be the value of the option before it. -/
def isValue (argument : Text) : Bool :=
  argument ≠ "--".toList &&
    match classify argument with
    | .plain => true
    | _ => false

def readAll (options : Options) (leftOver : List Text) : List Text → Request
  | [] => finish options leftOver
  | argument :: rest =>
    if argument = "--".toList then finish options (leftOver ++ argument :: rest)
    else
      match classify argument with
      | .plain | .unknown | .ambiguous _ => readAll options (leftOver ++ [argument]) rest
      | .known o isLong tail =>
        match cluster o isLong tail with
        | .error e => .refuse e
        | .ok c =>
          match c.wants, rest with
          | none, rest =>
            match options.setCluster c with
            | .error request => request
            | .ok options => readAll options leftOver rest
          | some o, [] => .refuse (.valueExpected o)
          | some o, value :: rest =>
            if isValue value then
              match options.setCluster { c with valued := some (o, value) } with
              | .error request => request
              | .ok options => readAll options leftOver rest
            else .refuse (.valueExpected o)

/-- The first argument that could be completed in several ways. -/
def ambiguity? : List Text → Option OptionError
  | [] => none
  | argument :: rest =>
    if argument = "--".toList then none
    else
      match classify argument with
      | .ambiguous spellings => some (.ambiguous argument spellings)
      | _ => ambiguity? rest

def parse (arguments : List Text) : Request :=
  match ambiguity? arguments with
  | some e => .refuse e
  | none => readAll {} [] arguments

end Options

end Combinatory
