import Stencil.Text.Literal
import Stencil.Text.Similarity

/-!
# The form of the command line

The form of the command line: the commands and options that there are, the help that lists
them, and what is wrong with a line that does not have the form.
-/

namespace Stencil.CommandLine

/-- The name of the program. -/
def programName : String := "ein"

/-- The version of the program. -/
def version : String := "0.1.0"

/-- The commands. -/
inductive Command where
  | check
  | highlight
  | lex
  | view
  deriving Repr, DecidableEq

namespace Command

/-- Every command, in the order of the names. -/
def all : List Command :=
  [check, highlight, lex, view]

/-- The word for a command. -/
def name : Command → String
  | check => "check"
  | highlight => "highlight"
  | lex => "lex"
  | view => "view"

/-- What a command does. -/
def summary : Command → String
  | check => "Compile every template of a project and report errors."
  | highlight => "Print a template with syntax highlighting."
  | lex => "Print the token stream of a template."
  | view => "View the AST of a template."

/-- The argument of a command. One in brackets may be missing. -/
def argument : Command → String
  | check => "[PATH]"
  | _ => "FILE"

/-- The command that a word names. -/
def ofName? (s : String) : Option Command :=
  all.find? (·.name == s)

end Command

/-- What a line is addressed to: the program or one of its commands. -/
inductive Target where
  | program
  | command (c : Command)
  deriving Repr, DecidableEq

namespace Target

/-- The words that a line starts with. -/
def words : Target → String
  | program => programName
  | command c => programName ++ " " ++ c.name

/-- The form of a line. -/
def usage : Target → String
  | program => "Usage: " ++ programName ++ " [OPTIONS] COMMAND [ARGS]...\n"
  | command c => "Usage: " ++ (command c).words ++ " [OPTIONS] " ++ c.argument ++ "\n"

/-- The options, and what they do. -/
def options : Target → List (String × String)
  | program => [("--version", "Show the version and exit."),
      ("--debug", "Log lexer and parser activity to stderr."),
      ("--help", "Show this message and exit.")]
  | command _ => [("--help", "Show this message and exit.")]

/-- What the target is for. -/
def summary : Target → String
  | program => "The ein template compiler."
  | command c => c.summary

end Target

/-- Lines of two columns. The second one starts two blanks behind the longest entry of the
first. -/
def columns (rows : List (String × String)) : String :=
  let width := (rows.map (·.1.length)).foldl max 0
  String.join (rows.map fun row =>
    "  " ++ row.1 ++ String.ofList (List.replicate (width - row.1.length + 2) ' ') ++ row.2 ++
      "\n")

/-- The help for a target. -/
def help (t : Target) : String :=
  let commands := match t with
    | .program => "\nCommands:\n" ++ columns (Command.all.map fun c => (c.name, c.summary))
    | .command _ => ""
  t.usage ++ "\n  " ++ t.summary ++ "\n\nOptions:\n" ++ columns t.options ++ commands

/-- What is wrong with a line. -/
inductive Misuse where
  /-- No such option; `guesses` are options that may have been meant. -/
  | unknownOption (option : String) (guesses : List String)
  | optionTakesNoValue (option : String)
  /-- No such command; `guesses` are commands that may have been meant. -/
  | unknownCommand (name : String) (guesses : List String)
  | commandMissing
  | argumentMissing (name : String)
  | argumentsLeft (arguments : List String)
  /-- There is nothing at the path; `noun` is the word for what should be there. -/
  | nothingThere (argument noun path : String)
  | isDirectory (argument path : String)
  | unknownLogLevel (level : String)
  deriving Repr, DecidableEq

/-- A question behind an error text: whether one of the guesses was meant. -/
def guessText (guesses : List String) : String :=
  match guesses.map Text.Literal.quote with
  | [] => ""
  | [guess] => " Did you mean " ++ guess ++ "?"
  | _ =>
    let sorted := guesses.mergeSort fun a b => !decide (b < a)
    " (Did you mean one of: " ++ ", ".intercalate (sorted.map Text.Literal.quote) ++ "?)"

/-- The wording of a misuse. -/
def Misuse.message : Misuse → String
  | unknownOption option guesses =>
    "No such option " ++ Text.Literal.quote option ++ "." ++ guessText guesses
  | optionTakesNoValue option =>
    "Option " ++ Text.Literal.quote option ++ " does not take a value."
  | unknownCommand name guesses =>
    "No such command " ++ Text.Literal.quote name ++ "." ++ guessText guesses
  | commandMissing => "Missing command."
  | argumentMissing name => "Missing argument '" ++ name ++ "'."
  | argumentsLeft arguments =>
    "Got unexpected extra argument" ++ (if arguments.length = 1 then "" else "s") ++ " (" ++
      " ".intercalate arguments ++ ")"
  | nothingThere argument noun path =>
    "Invalid value for '" ++ argument ++ "': " ++ noun ++ " " ++ Text.Literal.quote path ++
      " does not exist."
  | isDirectory argument path =>
    "Invalid value for '" ++ argument ++ "': File " ++ Text.Literal.quote path ++
      " is a directory."
  | unknownLogLevel level =>
    "Invalid value: unknown log level " ++ Text.Literal.quote level ++ " in config"

/-- A misuse as it is reported, with the form that the line should have. -/
def Misuse.report (t : Target) (e : Misuse) : String :=
  t.usage ++ "Try '" ++ t.words ++ " --help' for help.\n\nError: " ++ e.message ++ "\n"

/-- The words of a line, sorted: the options given, in order, and the other words. -/
structure Sorted where
  options : List String
  arguments : List String
  deriving Repr, DecidableEq

/-- A word with a leading dash and more is an option. -/
def isOption (word : String) : Bool :=
  match word.toList with
  | '-' :: _ :: _ => true
  | _ => false

/-- The option that a word gives. No option has a value, and none has a short form. Nothing is
guessed for a word with one dash. -/
def readOption (t : Target) (word : String) : Except Misuse String :=
  let name := String.ofList (word.toList.takeWhile (· != '='))
  if t.options.any (·.1 == name) then
    if name = word then .ok name else .error (.optionTakesNoValue name)
  else if "--".isPrefixOf word then
    .error (.unknownOption name (Text.Similarity.guesses name (t.options.map (·.1))))
  else .error (.unknownOption (String.ofList (word.toList.take 2)) [])

/-- Sorts the words of a line. The words behind the word `--` are no options. In a line for the
program, neither are the words behind the first that is none: they are for a command. -/
def sortWords (t : Target) : List String → Except Misuse Sorted
  | [] => .ok ⟨[], []⟩
  | word :: words =>
    if word = "--" then .ok ⟨[], words⟩
    else if isOption word then do
      let option ← readOption t word
      let rest ← sortWords t words
      return { rest with options := option :: rest.options }
    else
      match t with
      | .program => .ok ⟨[], word :: words⟩
      | .command _ => do
        let rest ← sortWords t words
        return { rest with arguments := word :: rest.arguments }

end Stencil.CommandLine
