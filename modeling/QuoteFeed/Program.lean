import QuoteFeed.EnvFile
import QuoteFeed.Report.Note
import QuoteFeed.Surface.Listener
import QuoteFeed.Tracing

/-!
# The program

From its start to its end: the files of variables are loaded, the export of traces is set up, the
settings are read, and the service runs until a signal comes.  A program that cannot start fails
with one error.  A port that cannot be had is noted and does not end the program.
-/

namespace QuoteFeed

/-- What tells the program to end. -/
inductive Signal where
  | terminate
  | interrupt
  deriving DecidableEq

/-- The name of a signal in notes. -/
def Signal.title : Signal → String
  | .terminate => "SIGTERM"
  | .interrupt => "Ctrl+C"

namespace Program

/-- What surrounds the program. -/
structure Host where
  «variables» : Variables
  /-- The files of variables of the working directory and of those above it. -/
  files : List (Option String)
  /-- Something else listens on the port. -/
  taken : Nat → Bool

/-- Why the program cannot start. -/
inductive Error where
  | tracing (e : Tracing.Error)
  | settings (e : Settings.Error)
  deriving DecidableEq

/-- The text of an error. -/
def Error.message : Error → String
  | .tracing e => e.message
  | .settings e => e.message

/-- A run: what was noted, and the error if the program could not start. -/
structure Run where
  notes : List Note
  error : Option Error
  deriving DecidableEq

/-- The exit code. -/
def Run.code (r : Run) : Nat :=
  if r.error.isSome then 1 else 0

/-- What is told on the standard error. -/
def Run.complaint (r : Run) : String :=
  match r.error with
  | none => ""
  | some e => "Error: " ++ e.message ++ "\n"

/-- The variables with those from files. -/
def Host.allVariables (h : Host) : Variables :=
  EnvFile.loadNearest h.«variables» h.files

/-- The settings as a note. -/
def configuredNote (s : Settings) : Note :=
  .configured s.stream.channel.name s.httpPort (Duration.wholeSeconds s.quotes.ttl)
    (Duration.wholeSeconds s.quotes.demandWindow) (Duration.wholeSeconds s.catalog.refresh)

/-- What is noted about listening for requests. -/
def listeningNotes (h : Host) (s : Settings) : List Note :=
  match Listener.listen h.taken s.httpPort with
  | .ok () => []
  | .error e => [.surfaceFailed e.message]

/-- A start of the program: the notes up to where it is ready, and the settings. -/
def start (h : Host) : List Note × Except Error Settings :=
  match (Tracing.ofVariables h.allVariables).install false with
  | .error e => ([], .error (.tracing e))
  | .ok () =>
    match Settings.ofVariables h.allVariables with
    | .error e => ([.starting], .error (.settings e))
    | .ok s => ([.starting, configuredNote s, .ready] ++ listeningNotes h s, .ok s)

/-- A run of the program that a signal ends. -/
def run (h : Host) (signal : Signal) : Run :=
  match start h with
  | (notes, .error e) => ⟨notes, some e⟩
  | (notes, .ok _) => ⟨notes ++ [.told signal.title, .finished], none⟩

end Program

end QuoteFeed
