import Unformat.Number.Numeral
import Unformat.Text.Quoted

/-!
# Options of the command line

The words of a command line are the template, perhaps the rules, and options among them. An option
has a long name, which may be shortened as long as it stays unique, and perhaps a letter; letters
may be joined. The value of an option is the next word, or follows an equals sign or the letter. A
word `--` ends the options.
-/

namespace Unformat.CommandLine

open Text (Quoted.quote)

inductive Format where
  | json
  | tsv
  | shown
  deriving Repr, DecidableEq

/-- How often the plan is run. -/
inductive Mode where
  | lines
  | multiple
  deriving Repr, DecidableEq

def Mode.name : Mode → String
  | .lines => "lines"
  | .multiple => "multiple"

def formats : List (String × Format) := [("json", .json), ("tsv", .tsv), ("repr", .shown)]

def modes : List (String × Mode) := [Mode.lines, .multiple].map fun mode => (mode.name, mode)

structure Settings where
  template : String := ""
  rules : String := ""
  verbosity : Nat := 0
  input : Option String := none
  mode : Mode := .lines
  separator : Option String := none
  format : Format := .tsv
  explain : Bool := false
  bufferSize : Int := 8192
  eager : Bool := false
  deriving Repr, DecidableEq

inductive Flag where
  | help
  | version
  | verbose
  | input
  | mode
  | separator
  | format
  | explain
  | bufferSize
  | eager
  deriving Repr, DecidableEq

namespace Flag

/-- The spellings of every option. -/
def all : List (Flag × List String) :=
  [(.help, ["-h", "--help"]),
   (.version, ["--version"]),
   (.verbose, ["-v", "--verbose"]),
   (.input, ["-i", "--input"]),
   (.mode, ["-m", "--mode"]),
   (.separator, ["-s", "--separator"]),
   (.format, ["-f", "--format"]),
   (.explain, ["--explain"]),
   (.bufferSize, ["--buffer-size"]),
   (.eager, ["--eager"])]

/-- Every spelling, with its option. -/
def spellings : List (String × Flag) :=
  all.flatMap fun (flag, names) => names.map fun name => (name, flag)

def ofSpelling? (text : String) : Option Flag := spellings.lookup text

/-- All spellings of an option. -/
def name (flag : Flag) : String := "/".intercalate ((all.lookup flag).getD [])

/-- Whether the option has a value. -/
def takesValue : Flag → Bool
  | .input | .mode | .separator | .format | .bufferSize => true
  | _ => false

end Flag

inductive Misuse where
  | ambiguous (word : String) (candidates : List String)
  | missingValue (flag : Flag)
  | needlessValue (flag : Flag) (text : String)
  | notInteger (flag : Flag) (text : String)
  | invalidChoice (flag : Flag) (text : String) (choices : List String)
  | missingTemplate
  | superfluous (words : List String)
  deriving Repr, DecidableEq

def Misuse.message : Misuse → String
  | .ambiguous word candidates =>
      s!"ambiguous option: {word} could match " ++ ", ".intercalate candidates
  | .missingValue flag => s!"argument {flag.name}: expected one argument"
  | .needlessValue flag text =>
      s!"argument {flag.name}: ignored explicit argument {Quoted.quote text}"
  | .notInteger flag text => s!"argument {flag.name}: invalid int value: {Quoted.quote text}"
  | .invalidChoice flag text choices =>
      s!"argument {flag.name}: invalid choice: {Quoted.quote text} (choose from " ++
        ", ".intercalate (choices.map Quoted.quote) ++ ")"
  | .missingTemplate => "the following arguments are required: template"
  | .superfluous words => "unrecognized arguments: " ++ " ".intercalate words

/-- Why the program ends before it starts. -/
inductive Halt where
  | misuse (reason : Misuse)
  | help
  | version
  deriving Repr, DecidableEq

/-- How a word that names an option gives a value. -/
inductive Attached where
  | nothing
  /-- The text follows the letter. -/
  | joined (text : String)
  /-- The text follows an equals sign. -/
  | assigned (text : String)
  deriving Repr, DecidableEq

inductive Word where
  /-- The word that ends the options. -/
  | terminator
  | plain (text : String)
  | option (flag : Flag) (attached : Attached)
  /-- A word that looks like an option and is none. -/
  | unknown (text : String)
  deriving Repr, DecidableEq

namespace Word

/-- The text of a word that is no option. -/
def text : Word → String
  | .terminator => "--"
  | .plain text => text
  | .option .. => ""
  | .unknown text => text

/-- A text divided at its first equals sign. -/
def divide (text : List Char) : List Char × Option (List Char) :=
  let name := text.takeWhile (· != '=')
  match text.drop name.length with
  | _ :: value => (name, some value)
  | [] => (name, none)

def assigned : Option (List Char) → Attached
  | some value => .assigned (String.ofList value)
  | none => .nothing

def areDigits (text : List Char) : Bool := (Number.asciiDigits text).all Char.isDigit

/-- Whether the text behind a minus sign makes it a number: digits, of which a point may stand in
front of some. -/
def isNumber (text : List Char) : Bool :=
  let whole := text.takeWhile (· != '.')
  match text.drop whole.length with
  | [] => !whole.isEmpty && areDigits whole
  | _ :: fraction => areDigits whole && !fraction.isEmpty && areDigits fraction

/-- The word that a text behind two dashes is: an option by its name or the beginning of it. -/
def ofName (text : List Char) : Except Halt Word :=
  let (name, value) := divide text
  let candidates := Flag.spellings.filter fun (spelling, _) => name.isPrefixOf spelling.toList
  match candidates with
  | [] => .ok (if text.contains ' ' then .plain (String.ofList text)
      else .unknown (String.ofList text))
  | [(_, flag)] => .ok (.option flag (assigned value))
  | several => .error (.misuse (.ambiguous (String.ofList text) (several.map Prod.fst)))

/-- The word that a text behind one dash is: an option by its letter, or a number. -/
def ofLetter (text : List Char) : Word :=
  match Flag.ofSpelling? (String.ofList (text.take 2)) with
  | some flag => .option flag (.joined (String.ofList (text.drop 2)))
  | none =>
      if isNumber (text.drop 1) || text.contains ' ' then .plain (String.ofList text)
      else .unknown (String.ofList text)

/-- The word that a text is, while options are looked for. -/
def ofText (text : List Char) : Except Halt Word :=
  match text, divide text with
  | '-' :: second :: _, (name, value) =>
      match Flag.ofSpelling? (String.ofList name) with
      | some flag => .ok (.option flag (assigned value))
      | none => if second = '-' then ofName text else .ok (ofLetter text)
  | _, _ => .ok (.plain (String.ofList text))

/-- The words of a command line. -/
def ofTexts : List String → Except Halt (List Word)
  | [] => .ok []
  | text :: rest =>
      if text = "--" then .ok (.terminator :: rest.map .plain)
      else do
        let word ← ofText text.toList
        return word :: (← ofTexts rest)

end Word

/-- What is known after some words: the settings, whether the template has been met, and the words
that nothing asked for. -/
structure Reading where
  settings : Settings := {}
  hasTemplate : Bool := false
  superfluous : List String := []
  deriving Repr, DecidableEq

namespace Reading

/-- The value of an option with choices. -/
def choose {α : Type} (flag : Flag) (choices : List (String × α)) (text : String) :
    Except Halt α :=
  match choices.lookup text with
  | some choice => .ok choice
  | none => .error (.misuse (.invalidChoice flag text (choices.map Prod.fst)))

/-- Follow an option; one without a value is given the empty text. -/
def follow (reading : Reading) (flag : Flag) (value : String) : Except Halt Reading :=
  let settings := reading.settings
  match flag with
  | .help => .error .help
  | .version => .error .version
  | .verbose =>
      .ok { reading with settings := { settings with verbosity := settings.verbosity + 1 } }
  | .input => .ok { reading with settings := { settings with input := some value } }
  | .mode => do
      return { reading with settings := { settings with mode := ← choose flag modes value } }
  | .separator => .ok { reading with settings := { settings with separator := some value } }
  | .format => do
      return { reading with settings := { settings with format := ← choose flag formats value } }
  | .explain => .ok { reading with settings := { settings with explain := true } }
  | .bufferSize =>
      match Number.integer? value.toList with
      | some size => .ok { reading with settings := { settings with bufferSize := size } }
      | none => .error (.misuse (.notInteger flag value))
  | .eager => .ok { reading with settings := { settings with eager := true } }

/-- Follow several options without values. -/
def followAll (reading : Reading) : List Flag → Except Halt Reading
  | [] => .ok reading
  | flag :: rest => do (← reading.follow flag "").followAll rest

/-- Options that one word names, in order, the last of which may have a value, and the text that
names none. -/
structure Cluster where
  flags : List Flag
  last : Option (Flag × String) := none
  /-- An option whose value has to be the next word. -/
  waiting : Option Flag := none
  unknown : Option String := none
  deriving Repr, DecidableEq

/-- The cluster of an option to which no text is attached. -/
def alone (flag : Flag) : Cluster :=
  if flag.takesValue then { flags := [], waiting := some flag } else { flags := [flag] }

/-- The cluster of an option with a text behind an equals sign. -/
def assignedTo (flag : Flag) (text : List Char) : Except Halt Cluster :=
  if flag.takesValue then .ok { flags := [], last := some (flag, String.ofList text) }
  else .error (.misuse (.needlessValue flag (String.ofList text)))

/-- The cluster of an option to whose letter a text is joined. If the option has no value, then the
text names further options by their letters. -/
def joinedTo (flag : Flag) : List Char → Except Halt Cluster
  | [] => .ok (alone flag)
  | letter :: rest =>
      if flag.takesValue then
        .ok { flags := [], last := some (flag, String.ofList (letter :: rest)) }
      else if letter = '-' then
        .error (.misuse (.needlessValue flag (String.ofList (letter :: rest))))
      else match Flag.ofSpelling? (String.ofList ['-', letter]) with
        | none => .ok { flags := [flag], unknown := some (String.ofList ('-' :: letter :: rest)) }
        | some next => do
            let cluster ← match rest with
              | '=' :: value => assignedTo next value
              | rest => joinedTo next rest
            return { cluster with flags := flag :: cluster.flags }

/-- The cluster of an option as a word names it. -/
def cluster (flag : Flag) : Attached → Except Halt Cluster
  | .nothing => .ok (alone flag)
  | .joined text => joinedTo flag text.toList
  | .assigned text => assignedTo flag text.toList

/-- Follow the options of a word, the next words being `rest`: what is known then, and the words
that are left. -/
def option (reading : Reading) (flag : Flag) (attached : Attached) (rest : List Word) :
    Except Halt (Reading × List Word) := do
  let cluster ← cluster flag attached
  match cluster.waiting, rest with
  | some waiting, .plain value :: rest =>
      let reading ← reading.followAll cluster.flags
      return (← reading.follow waiting value, rest)
  | some waiting, _ => throw (.misuse (.missingValue waiting))
  | none, rest =>
      let superfluous := reading.superfluous ++ cluster.unknown.toList
      let reading ← { reading with superfluous }.followAll cluster.flags
      match cluster.last with
      | some (flag, value) => return (← reading.follow flag value, rest)
      | none => return (reading, rest)

def skipTerminators (words : List Word) : List Word := words.dropWhile (· = .terminator)

/-- The template and the rules at the front of some words, and the words behind them. The rules are
left out when no plain word follows the template. -/
def positional? (words : List Word) : Option (String × Option String × List Word) :=
  match skipTerminators words with
  | .plain template :: rest =>
      match skipTerminators rest with
      | .plain rules :: rest =>
          some (template, if rules = "--" then none else some rules, skipTerminators rest)
      | rest => some (template, none, rest)
  | _ => none

/-- Take the template and the rules, if they have not been met and stand here. -/
def positional (reading : Reading) (words : List Word) : Option (Reading × List Word) :=
  if reading.hasTemplate then none
  else (positional? words).map fun (template, rules, rest) =>
    ({ reading with
      settings := { reading.settings with template, rules := rules.getD "" }
      hasTemplate := true }, rest)

/-- Put words aside that nothing asked for. -/
def setAside (reading : Reading) (words : List Word) : Reading :=
  { reading with superfluous := reading.superfluous ++ words.map Word.text }

/-- Go through the words, in at most `steps` steps. -/
def read : Nat → Reading → List Word → Except Halt Reading
  | 0, reading, words => .ok (reading.setAside words)
  | steps + 1, reading, words =>
      match words with
      | [] => .ok reading
      | .option flag attached :: rest => do
          let (reading, rest) ← reading.option flag attached rest
          read steps reading rest
      | .unknown text :: rest =>
          read steps { reading with superfluous := reading.superfluous ++ [text] } rest
      | word :: rest =>
          match reading.positional (word :: rest) with
          | some (reading, rest) => read steps reading rest
          | none => read steps (reading.setAside [word]) rest

end Reading

def parse (arguments : List String) : Except Halt Settings := do
  let words ← Word.ofTexts arguments
  let reading ← Reading.read words.length {} words
  if !reading.hasTemplate then throw (.misuse .missingTemplate)
  if reading.superfluous ≠ [] then throw (.misuse (.superfluous reading.superfluous))
  return reading.settings

end Unformat.CommandLine
