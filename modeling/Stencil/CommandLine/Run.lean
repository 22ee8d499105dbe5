import Stencil.CommandLine.Usage
import Stencil.Compilation
import Stencil.Highlight
import Stencil.Node.Display
import Stencil.Project
import Stencil.Source

/-!
# Commands

The commands at work. A command looks at files and ends in a report: what it prints, and how it
ends.
-/

namespace Stencil.CommandLine

variable {m : Type → Type} [Monad m]

/-- A failure that no command expects. -/
inductive Crash where
  | config (failure : Config.Failure)
  | undecodable (error : Text.DecodeError)
  /-- The source directory of the configuration is no string. -/
  | noDirectoryName (typeName : String)
  /-- A suffix of the configuration is a compound value. -/
  | noSuffix (typeName : String)
  | compilation (failure : Failure)
  deriving Repr, DecidableEq

/-- The wording of a crash. -/
def Crash.message : Crash → String
  | config failure => failure.message
  | undecodable error => error.message
  | noDirectoryName typeName =>
    "unsupported operand type(s) for /: 'PosixPath' and '" ++ typeName ++ "'"
  | noSuffix typeName => "unhashable type: '" ++ typeName ++ "'"
  | compilation failure => failure.message

/-- How a command has ended, and what it has printed. -/
structure Report where
  output : String := ""
  errors : String := ""
  status : Nat := 0
  crash : Option Crash := none
  deriving Repr, DecidableEq

namespace Report

/-- The report on a line that does not have the form. -/
def misuse (t : Target) (e : Misuse) : Report :=
  { errors := e.report t, status := 2 }

/-- The report of a command that crashed. -/
def crashed (c : Crash) : Report :=
  { status := 1, crash := some c }

end Report

/-- Lines, each of them ended. -/
def printed (lines : List String) : String :=
  String.join (lines.map (· ++ "\n"))

/-- Messages as a log shows them, with the name of the part of the program they come from. -/
def logged (part : String) (messages : List String) : String :=
  printed (messages.map fun message => programName ++ "." ++ part ++ ": " ++ message)

/-- The template in a file, and the log of its compilation. -/
def compileFile (fs : FileSystem m) (path : Path) : m (Except Failure Node × List String) := do
  let c := Compilation.ofSource (.ofFile .utf8 (← fs.read path.toText))
  return (c.result, c.lexing.log ++ c.log)

/-- The diagnostic for a template that does not compile, as it is printed. -/
def diagnosis (path : Path) (e : Failure) : String :=
  ({ e.diagnostic with file := some path.toText }).render true ++ "\n"

/-- Prints the tokens of a template. -/
def lex (fs : FileSystem m) (debug : Bool) (file : String) : m Report := do
  let l := Lexer.run (.ofFile .utf8 (← fs.read file))
  let errors := if debug then logged "lexer" l.log else ""
  match Compilation.lexerFailure l with
  | .error e => return { Report.crashed (.compilation e) with errors }
  | .ok _ => return { output := printed (l.tokens.map (·.render)), errors }

/-- Prints the tree of a template. -/
def view (fs : FileSystem m) (debug : Bool) (file : String) : m Report := do
  let path := Path.ofString file
  let (result, log) ← compileFile fs path
  let errors := if debug then logged "compiler" log else ""
  match result with
  | .error e => return { errors := errors ++ diagnosis path e, status := 1 }
  | .ok root => return { output := root.dumpText 0, errors }

/-- Prints a template in colors. -/
def highlight (fs : FileSystem m) (file : String) : m Report := do
  match Text.Encoding.utf8.decodeAll (← fs.read file) with
  | .error e => return .crashed (.undecodable e)
  | .ok cs => return { output := Highlight.terminal (Text.Newline.readAll cs) }

/-- The names of log levels, and whether a level shows the messages of the compiler. -/
def logLevels : List (String × Bool) :=
  [("CRITICAL", false), ("FATAL", false), ("ERROR", false), ("WARN", false),
    ("WARNING", false), ("INFO", false), ("DEBUG", true), ("NOTSET", true)]

/-- Compiles templates one after the other. Gives what is printed about them and how many
failed. -/
def checkAll (fs : FileSystem m) (debug : Bool) : List Path → m (String × Nat)
  | [] => return ("", 0)
  | path :: paths => do
    let (result, log) ← compileFile fs path
    let (errors, failed) ← checkAll fs debug paths
    let log := if debug then logged "compiler" log else ""
    match result with
    | .error e => return (log ++ diagnosis path e ++ errors, failed + 1)
    | .ok _ => return (log ++ errors, failed)

/-- Compiles the templates of a project with a given configuration. -/
def checkProject (fs : FileSystem m) (debug : Bool) (config : Config) (directory : Path) :
    m Report := do
  match (if debug then some true else logLevels.lookup config.level) with
  | none => return .misuse (.command .check) (.unknownLogLevel config.level)
  | some debug =>
    match config.sourceDir, config.suffixes.find? Toml.isCompound with
    | .string name, suffix? =>
      let sources := directory.join (.ofString name)
      let sources := if (← fs.kind sources.toText) = some .directory then sources else directory
      match suffix? with
      | some suffix => return .crashed (.noSuffix suffix.typeName)
      | none =>
        let templates ← Project.templates fs config.suffixes sources
        if templates.isEmpty then return { errors := "warning: no templates found\n" }
        else
          let (errors, failed) ← checkAll fs debug templates
          return {
            output := "checked " ++ toString templates.length ++ " template(s), " ++
              toString failed ++ " failed\n"
            errors
            status := if failed = 0 then 0 else 1 }
    | v, _ => return .crashed (.noDirectoryName v.typeName)

/-- Compiles all templates of the project that a path belongs to. Without a configuration file,
the project is the directory at the path, or that of the file there. -/
def check (fs : FileSystem m) (debug : Bool) (path : String) : m Report := do
  let start := Path.ofString path
  match ← Project.findConfig fs start with
  | some file =>
    match ← Project.loadConfig fs file.toText with
    | .error e => return .crashed (.config e)
    | .ok config => checkProject fs debug config file.parent
  | none =>
    let directory :=
      if (← fs.kind start.toText) = some .directory then start else start.parent
    checkProject fs debug {} directory

/-- Does what a command is for, at a path. -/
def Command.perform (fs : FileSystem m) (debug : Bool) (path : String) : Command → m Report
  | .check => CommandLine.check fs debug path
  | .highlight => CommandLine.highlight fs path
  | .lex => CommandLine.lex fs debug path
  | .view => CommandLine.view fs debug path

/-- What is wrong with the path that a command is given. Only the check takes directories. -/
def Command.pathMisuse (fs : FileSystem m) (path : String) (c : Command) :
    m (Option Misuse) := do
  let noun := match c with
    | .check => "Path"
    | _ => "File"
  match c, ← fs.kind path with
  | _, none => return some (.nothingThere c.argument noun path)
  | .check, some .directory => return none
  | _, some .directory => return some (.isDirectory c.argument path)
  | _, some .file => return none

/-- Runs a command with the words behind its name. -/
def runCommand (fs : FileSystem m) (debug : Bool) (c : Command) (words : List String) :
    m Report := do
  match sortWords (.command c) words with
  | .error e => return .misuse (.command c) e
  | .ok line =>
    if line.options.contains "--help" then return { output := help (.command c) }
    else
      let path? := match line.arguments, c with
        | path :: _, _ => some path
        | [], .check => some "."
        | [], _ => none
      match path? with
      | none => return .misuse (.command c) (.argumentMissing c.argument)
      | some path =>
        match ← c.pathMisuse fs path with
        | some e => return .misuse (.command c) e
        | none =>
          match line.arguments.drop 1 with
          | [] => c.perform fs debug path
          | extra => return .misuse (.command c) (.argumentsLeft extra)

/-- The report that an option of the program asks for: of the version and the help, the one
that comes first. -/
def answerOptions (options : List String) : Option Report :=
  options.findSome? fun option =>
    if option = "--version" then some { output := programName ++ ", version " ++ version ++ "\n" }
    else if option = "--help" then some { output := help .program }
    else none

/-- The report on a word that is no command. If it looks like an option, it is taken for one
first. -/
def unknownCommand (name : String) (words : List String) : Report :=
  let asOptions : Except Misuse (Option Report) :=
    if isOption name then (sortWords .program (name :: words)).map (answerOptions ·.options)
    else .ok none
  match asOptions with
  | .error e => .misuse .program e
  | .ok (some report) => report
  | .ok none => .misuse .program
      (.unknownCommand name (Text.Similarity.guesses name (Command.all.map (·.name))))

/-- Runs a line. -/
def run (fs : FileSystem m) (words : List String) : m Report := do
  if words.isEmpty then return { errors := help .program, status := 2 }
  else
    match sortWords .program words with
    | .error e => return .misuse .program e
    | .ok line =>
      match answerOptions line.options with
      | some report => return report
      | none =>
        match line.arguments with
        | [] => return .misuse .program .commandMissing
        | name :: words =>
          match Command.ofName? name with
          | some c => runCommand fs (line.options.contains "--debug") c words
          | none => return unknownCommand name words

end Stencil.CommandLine
