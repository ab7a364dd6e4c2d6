import Catena.CommandLine
import Catena.Text.Quoted

/-!
# The toolkit of the program

The toolkit that the program itself runs with. The command line takes any toolkit, and what
is proved of it holds for every one that does what it is documented to do.

Arguments are read as follows.

* `-c TEXT` and `--command TEXT` give a program; the text may be attached, as in
  `-cTEXT` and `--command=TEXT`, and the option may be repeated.
* `--repl` asks for the console after the programs.
* `-v` and `--verbose` raise the verbosity, each time by one.
* `--help` asks for the help text.

Options and files may be mixed; `--` makes everything after it a file, and so is
`-` alone. Short options may share one dash. The first argument that makes no
sense decides the error. For a long option that does not exist, the error names
the options that are similar to it.

All files are opened before anything runs; a file that cannot be opened is an
error of usage, and the exit status is two. A name that no file can have is a
fault. Whichever is met first decides. The file named `-` is the standard input,
which can be read only once: what a file has taken is gone for a second one and
for the console.

A message is written with a line feed after it. Where no terminal reads it, it goes
without control sequences. Such a sequence is the escape character, an opening square
bracket, any number of parameters from `0` to `?`, any number of intermediates from the
blank to `/`, and one final character from `@` to `~`. The three ranges have no character
in common, so there is one way to read a sequence, and text that breaks off before a
final character holds none.
-/

set_option autoImplicit false

namespace Catena.Main

open CommandLine (Invocation Report Stream Toolkit escapeChar)

/-! ## Similar texts -/

/-- The number of characters that two texts begin with in common. -/
def agreement : List Char → List Char → Nat
  | a :: as, b :: bs => if a = b then agreement as bs + 1 else 0
  | _, _ => 0

/-- A block of characters that occurs in two texts. -/
structure Block where
  /-- Where the block begins in the first text. -/
  first : Nat
  /-- Where the block begins in the second text. -/
  second : Nat
  size : Nat
  deriving DecidableEq, Repr

/-- The longer of two blocks, the earlier one if they are equally long. -/
def Block.longer (earlier later : Block) : Block :=
  if earlier.size < later.size then later else earlier

/-- The longest of the block `best` and the blocks with which `a`, the rest of the
first text from position `i` on, begins. The second text is passed from position
`j` on. -/
def longestAt (i : Nat) (a : List Char) : (b : List Char) → (j : Nat) → (best : Block) → Block
  | [], _, best => best
  | c :: b, j, best => longestAt i a b (j + 1) (best.longer ⟨i, j, agreement a (c :: b)⟩)

/-- The longest of the block `best` and the blocks in the rest of the first text
from position `i` on. -/
def longestFrom (b : List Char) : (a : List Char) → (i : Nat) → (best : Block) → Block
  | [], _, best => best
  | c :: a, i, best => longestFrom b a (i + 1) (longestAt i (c :: a) b 0 best)

/-- The longest block of two texts: of several, the one that begins first in the
first text, and of those the one that begins first in the second. -/
def longestBlock (a b : List Char) : Block :=
  longestFrom b a 0 ⟨0, 0, 0⟩

/-- The number of characters of two texts that are matched. -/
def matched (a b : List Char) : Nat :=
  match longestBlock a b with
  | ⟨i, j, size⟩ =>
      if _ : 0 < size ∧ i + size ≤ a.length then
        size + matched (a.take i) (b.take j) + matched (a.drop (i + size)) (b.drop (j + size))
      else 0
termination_by a.length
decreasing_by
  all_goals
    simp only [List.length_take, List.length_drop]
    omega

/-- The share of matched characters: twice their number over the lengths of both
texts. -/
structure Likeness where
  matched : Nat
  lengths : Nat
  deriving DecidableEq, Repr

namespace Likeness

/-- The likeness of two texts. -/
def ofTexts (a b : String) : Likeness :=
  ⟨Main.matched a.toList b.toList, a.length + b.length⟩

/-- Whether a likeness is less than another. -/
def less (x y : Likeness) : Bool :=
  x.matched * y.lengths < y.matched * x.lengths

/-- Whether a likeness reaches three fifths. -/
def isHigh (x : Likeness) : Bool :=
  3 * x.lengths ≤ 5 * (2 * x.matched)

end Likeness

/-- The texts of a list that are similar to a word, the most similar first, and at
most `count` of them. Of equally similar ones the greater text comes first. -/
def closest (count : Nat) (word : String) (texts : List String) : List String :=
  let rated := texts.map fun text => (Likeness.ofTexts text word, text)
  let ordered := (rated.filter (·.1.isHigh)).mergeSort fun x y =>
    y.1.less x.1 || (!x.1.less y.1 && y.2 ≤ x.2)
  (ordered.take count).map (·.2)

/-! ## Arguments -/

/-- What the arguments say. -/
structure Arguments where
  commands : List String
  /-- The names of the files. -/
  files : List String
  interactive : Bool
  verbosity : Nat
  help : Bool
  deriving DecidableEq, Repr

/-- Nothing is said. -/
def Arguments.empty : Arguments :=
  ⟨[], [], false, 0, false⟩

/-- What is wrong with the arguments. -/
inductive UsageError where
  /-- An option does not exist; `similar` are options that may have been meant. -/
  | noSuchOption (name : String) (similar : List String)
  | needsArgument (name : String)
  | takesNoValue (name : String)
  | unreadableFile (name reason : String)
  deriving DecidableEq, Repr

namespace UsageError

/-- The advice that follows the name of an option that does not exist. -/
def advice : List String → String
  | [] => ""
  | [option] => " Did you mean " ++ Text.quoted option ++ "?"
  | options =>
      " (Did you mean one of: "
        ++ ", ".intercalate ((options.mergeSort fun a b => a ≤ b).map Text.quoted) ++ "?)"

/-- The wording of a usage error. -/
def message : UsageError → String
  | .noSuchOption name similar => "No such option " ++ Text.quoted name ++ "." ++ advice similar
  | .needsArgument name => "Option " ++ Text.quoted name ++ " requires an argument."
  | .takesNoValue name => "Option " ++ Text.quoted name ++ " does not take a value."
  | .unreadableFile name reason => "Invalid value for '[FILES]...': '" ++ name ++ "': " ++ reason

/-- Whether the reminder of the usage goes in front of the message. -/
def showsUsage : UsageError → Bool
  | .noSuchOption _ _ => true
  | .needsArgument _ => false
  | .takesNoValue _ => false
  | .unreadableFile _ _ => true

end UsageError

/-- What reading one argument leads to. -/
inductive Reading where
  /-- Go on with the next argument. -/
  | more (said : Arguments)
  /-- The next argument is the value of the option of that name. -/
  | value (name : String) (said : Arguments)
  /-- The remaining arguments are files. -/
  | rest (said : Arguments)

/-- Reads the letters of short options that share one dash. -/
def readShort : List Char → Arguments → Except UsageError Reading
  | [], o => .ok (.more o)
  | 'v' :: letters, o => readShort letters { o with verbosity := o.verbosity + 1 }
  | 'c' :: [], o => .ok (.value "-c" o)
  | 'c' :: text, o => .ok (.more { o with commands := o.commands ++ [String.ofList text] })
  | letter :: _, _ => .error (.noSuchOption (String.ofList ['-', letter]) [])

/-- The long options. -/
def longOptions : List String :=
  ["--command", "--repl", "--verbose", "--help"]

/-- Reads a long option with the value attached to it, if any. -/
def readLong (name : String) (attached : Option String) (o : Arguments) :
    Except UsageError Reading :=
  match name, attached with
  | "--command", none => .ok (.value name o)
  | "--command", some text => .ok (.more { o with commands := o.commands ++ [text] })
  | "--repl", none => .ok (.more { o with interactive := true })
  | "--repl", some _ => .error (.takesNoValue name)
  | "--verbose", none => .ok (.more { o with verbosity := o.verbosity + 1 })
  | "--verbose", some _ => .error (.takesNoValue name)
  | "--help", none => .ok (.more { o with help := true })
  | "--help", some _ => .error (.takesNoValue name)
  | _, _ => .error (.noSuchOption name (closest 3 name longOptions))

/-- Cuts a long option at its first equals sign. -/
def cutLong (argument : List Char) : String × Option String :=
  match argument.span (· != '=') with
  | (name, []) => (String.ofList name, none)
  | (name, _ :: text) => (String.ofList name, some (String.ofList text))

/-- Reads one argument. -/
def readArgument (argument : String) (o : Arguments) : Except UsageError Reading :=
  match argument.toList with
  | ['-', '-'] => .ok (.rest o)
  | '-' :: '-' :: _ =>
      let (name, attached) := cutLong argument.toList
      readLong name attached o
  | '-' :: letter :: letters => readShort (letter :: letters) o
  | _ => .ok (.more { o with files := o.files ++ [argument] })

/-- Reads arguments. `awaiting` names the option whose value comes next, if one
does. -/
def readArguments (awaiting : Option String) : List String → Arguments → Except UsageError Arguments
  | [], o =>
      match awaiting with
      | some name => .error (.needsArgument name)
      | none => .ok o
  | argument :: arguments, o =>
      match awaiting with
      | some _ => readArguments none arguments { o with commands := o.commands ++ [argument] }
      | none =>
          match readArgument argument o with
          | .error e => .error e
          | .ok (.more o) => readArguments none arguments o
          | .ok (.value name o) => readArguments (some name) arguments o
          | .ok (.rest o) => .ok { o with files := o.files ++ arguments }

/-- What a list of arguments says. -/
def Arguments.ofList (arguments : List String) : Except UsageError Arguments :=
  readArguments none arguments .empty

/-! ## Texts -/

/-- The usage in one line. -/
def usage : String :=
  "Usage: yaft [OPTIONS] [FILES]...\n"

/-- The help text. -/
def helpText : String :=
  usage
    ++ "\n  Evaluate yaft programs. With no program given, read lines interactively.\n"
    ++ "\nOptions:\n"
    ++ "  -c, --command TEXT  Evaluate program text from the command line.\n"
    ++ "  --repl              Start the interactive loop after running commands and\n"
    ++ "                      files.\n"
    ++ "  -v, --verbose       Increase log verbosity (-v info, -vv debug).\n"
    ++ "  --help              Show this message and exit."

/-- What is written about a usage error. -/
def UsageError.report (e : UsageError) : String :=
  (if e.showsUsage then usage ++ "Try 'yaft --help' for help.\n\n" else "")
    ++ "Error: " ++ e.message

/-! ## Files -/

/-- Why the files of a command line cannot all be opened. -/
inductive Refusal where
  | usage (e : UsageError)
  | fault (f : Fault)
  deriving DecidableEq, Repr

/-- The text of a file, or why it cannot be opened. -/
def openFile (file : String → Except String String) (name : String) : Except Refusal String :=
  if name.toList.contains '\x00' then .error (.fault .nullInName)
  else
    match file name with
    | .error reason => .error (.usage (.unreadableFile name reason))
    | .ok text => .ok (Text.unifyLines text)

/-- The texts of files, and what is left of the standard input. -/
def readFiles (file : String → Except String String) :
    List String → String → Except Refusal (List String × String)
  | [], input => .ok ([], input)
  | "-" :: names, input =>
      (readFiles file names "").map fun (texts, rest) => (Text.unifyLines input :: texts, rest)
  | name :: names, input =>
      match openFile file name with
      | .error refusal => .error refusal
      | .ok text => (readFiles file names input).map fun (texts, rest) => (text :: texts, rest)

/-! ## Messages -/

/-- Whether a character is a parameter of a control sequence. -/
def isParameter (c : Char) : Bool :=
  '0' ≤ c && c ≤ '?'

/-- Whether a character is an intermediate of a control sequence. -/
def isIntermediate (c : Char) : Bool :=
  ' ' ≤ c && c ≤ '/'

/-- Whether a character ends a control sequence. -/
def isFinal (c : Char) : Bool :=
  '@' ≤ c && c ≤ '~'

/-- The number of characters that follow the bracket in a control sequence; `none`
if the text does not come to a final character. -/
def tail? (text : List Char) : Option Nat :=
  let (parameters, text) := text.span isParameter
  let (intermediates, text) := text.span isIntermediate
  match text with
  | [] => none
  | c :: _ =>
      if isFinal c then some (parameters.length + intermediates.length + 1) else none

/-- The number of characters that follow the escape character in the control
sequence at the beginning of a text; `none` if there is no such sequence. -/
def sequence? : List Char → Option Nat
  | c :: '[' :: text => if c = escapeChar then (tail? text).map (· + 1) else none
  | _ => none

/-- Drops the control sequences of a text. `skip` characters still belong to the
sequence under way, and `done` holds the characters kept so far, last one
first. -/
def plainFrom : (skip : Nat) → List Char → (done : List Char) → List Char
  | _, [], done => done.reverse
  | skip + 1, _ :: text, done => plainFrom skip text done
  | 0, c :: text, done =>
      match sequence? (c :: text) with
      | some skip => plainFrom skip text done
      | none => plainFrom 0 text (c :: done)

/-- A text without its control sequences. What is left is not searched again. -/
def plain (text : String) : String :=
  String.ofList (plainFrom 0 text.toList [])

/-- What is written to a stream for a message. `terminal` tells which streams a terminal
reads. -/
def echo (terminal : Stream → Bool) (stream : Stream) (message : String) : String :=
  if terminal stream then message ++ "\n" else plain (message ++ "\n")

/-! ## The toolkit -/

/-- What is outside: the files with their texts or why they cannot be opened, the standard
input, and which streams a terminal reads. -/
structure Outside where
  file : String → Except String String
  input : String
  terminal : Stream → Bool

/-- Ends a run by an error of usage. -/
def refuse (outside : Outside) (e : UsageError) : Report :=
  { Report.start.warn (echo outside.terminal .errors e.report) with status := 2 }

/-- Reads arguments and opens the files they name. -/
def invoke (outside : Outside) (arguments : List String) : Invocation :=
  match Arguments.ofList arguments with
  | .error e => .closed (refuse outside e)
  | .ok said =>
      if said.help then .closed (Report.start.write (echo outside.terminal .output helpText))
      else
        match readFiles outside.file said.files outside.input with
        | .error (.usage e) => .closed (refuse outside e)
        | .error (.fault f) => .closed (Report.start.stop f)
        | .ok (texts, input) =>
            .call ⟨said.commands, texts, said.interactive, said.verbosity⟩ input

/-- The toolkit of the program. -/
def toolkit (outside : Outside) : Toolkit :=
  ⟨invoke outside, echo outside.terminal⟩

end Catena.Main
