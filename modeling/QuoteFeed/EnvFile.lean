import QuoteFeed.Settings

/-!
# Files of variables

A file of variables has lines of the form `KEY=VALUE`, with blanks around the equals sign and the
word `export` in front if wanted.  A value may have parts between single quotes, where every
character stands for itself, or between double quotes, where as outside of quotes a backslash
escapes and a dollar sign with a name stands for the value of a variable.  A quoted part may hold
line breaks.  What follows a number sign after a blank is a comment.

`EnvFile.load` sets the variables of a file that are not set yet, and stops at the first line that
has another form.
-/

namespace QuoteFeed.EnvFile

/-! ### Lines -/

/-- Where a scan for the end of a line stands. -/
inductive Mode where
  | plain
  | blank
  | escape
  | single
  | singleEscape
  | double
  | doubleEscape
  deriving DecidableEq

/-- The mode that a mark outside of quotes leads to. -/
def markMode : Char → Mode
  | '\\' => .escape
  | '"' => .double
  | '\'' => .single
  | _ => .plain

/-- The mode after a character. -/
def Mode.next (m : Mode) (c : Char) : Mode :=
  match m with
  | .plain => if Text.isBlank c ∧ c ≠ '\n' ∧ c ≠ '\r' then .blank else markMode c
  | .blank => markMode c
  | .escape => .plain
  | .single => if c = '\\' then .singleEscape else if c = '\'' then .plain else .single
  | .singleEscape => .single
  | .double => if c = '\\' then .doubleEscape else if c = '"' then .plain else .double
  | .doubleEscape => .double

/-- How a scan ends. -/
inductive Scan where
  /-- At the end of the text. -/
  | done (m : Mode)
  /-- At a comment, with the text before it. -/
  | comment (kept : List Char)

/-- Scans a text up to its end or to a comment. -/
def scan (m : Mode) : List Char → Scan
  | [] => .done m
  | c :: s =>
    if m = .blank ∧ c = '#' then
      .comment []
    else
      match scan (m.next c) s with
      | .comment kept => .comment (c :: kept)
      | r => r

/-- The lines of a text, each with its line feed. -/
def physicalLines : List Char → List (List Char)
  | [] => []
  | c :: s =>
    if c = '\n' then
      [c] :: physicalLines s
    else
      match physicalLines s with
      | [] => [[c]]
      | l :: ls => (c :: l) :: ls

/-- A line without its line feed and the carriage return before it. -/
def withoutBreak (s : List Char) : List Char :=
  match s.reverse with
  | '\n' :: '\r' :: r => r.reverse
  | '\n' :: r => r.reverse
  | _ => s

/-- A text whose first character other than blanks is a number sign. -/
def isComment (s : List Char) : Bool :=
  (Text.trimStartChars s).head? = some '#'

/-- The lines of a file, where a line goes on as long as its quotes are open or its last character
is escaped.  `held` is the beginning of a line that goes on.  A line that has no end is `none`. -/
def logicalLines (held : List Char) (m : Mode) : List (List Char) → List (Option (List Char))
  | [] => if m = .plain then [] else [none]
  | l :: ls =>
    if isComment (held ++ l) then
      some [] :: logicalLines [] .plain ls
    else
      match scan m l with
      | .comment kept => some (held ++ kept) :: logicalLines [] .plain ls
      | .done .plain => some (withoutBreak (held ++ l)) :: logicalLines [] .plain ls
      | .done m => logicalLines (held ++ l) m ls

/-! ### Values -/

/-- Where the reading of a value stands: in a text that is between double quotes or not, after a
backslash, between single quotes, in the name of a variable that is in braces or not, or after the
value. -/
inductive ValueMode where
  | text (quoted : Bool)
  | escape (quoted : Bool)
  | single
  | name (quoted braced : Bool) (name : List Char)
  | tail

/-- The character that an escape stands for. -/
def unescape? (c : Char) : Option Char :=
  if c = '\\' ∨ c = '\'' ∨ c = '"' ∨ c = '$' ∨ c = ' ' then some c
  else if c = 'n' then some '\n'
  else none

/-- The value of a variable, empty if it is not set. -/
def valueOf (vars : Variables) (name : List Char) : List Char :=
  ((vars (String.ofList name)).getD "").toList

/-- Reads a value to its end. -/
def readValue? (vars : Variables) : ValueMode → List Char → Option (List Char)
  | .text quoted, [] => if quoted then none else some []
  | .escape quoted, [] => if quoted then none else some []
  | .single, [] => none
  | .name quoted braced name, [] => if quoted || braced then none else some (valueOf vars name)
  | .tail, [] => some []
  | .text quoted, c :: s =>
    if c = '$' then readValue? vars (.name quoted false []) s
    else if c = '\\' then readValue? vars (.escape quoted) s
    else if quoted then
      if c = '"' then readValue? vars (.text false) s
      else (readValue? vars (.text true) s).map (c :: ·)
    else if c = '\'' then readValue? vars .single s
    else if c = '"' then readValue? vars (.text true) s
    else if c = ' ' ∨ c = '\t' then readValue? vars .tail s
    else (readValue? vars (.text false) s).map (c :: ·)
  | .escape quoted, c :: s => do
    let e ← unescape? c
    return e :: (← readValue? vars (.text quoted) s)
  | .single, c :: s =>
    if c = '\'' then readValue? vars (.text false) s
    else (readValue? vars .single s).map (c :: ·)
  | .name quoted braced name, c :: s =>
    if c.isAlphanum then readValue? vars (.name quoted braced (name ++ [c])) s
    else if braced then
      if c = '}' then (readValue? vars (.text quoted) s).map (valueOf vars name ++ ·)
      else readValue? vars (.name quoted true (name ++ [c])) s
    else if c = '{' ∧ name = [] then readValue? vars (.name quoted true []) s
    else if c = '$' then (readValue? vars (.name quoted false []) s).map (valueOf vars name ++ ·)
    else (readValue? vars (.text quoted) s).map (valueOf vars name ++ c :: ·)
  | .tail, c :: s =>
    if c = ' ' ∨ c = '\t' then readValue? vars .tail s
    else if c = '#' then some []
    else none

/-! ### Entries -/

/-- What a line says. -/
inductive Entry where
  | nothing
  | value (key value : String)

/-- A character that a key can start with. -/
def isKeyStart (c : Char) : Bool :=
  c.isAlpha || c = '_'

/-- A character of a key. -/
def isKeyChar (c : Char) : Bool :=
  c.isAlphanum || c = '_' || c = '.'

/-- Reads a key and the blanks after it. -/
def readKey? (s : List Char) : Option (List Char × List Char) :=
  if (s.head?.map isKeyStart).getD false then
    some (s.takeWhile isKeyChar, Text.trimStartChars (s.dropWhile isKeyChar))
  else
    none

/-- Reads a key and the equals sign after it, with the word `export` in front if wanted. -/
def readAssignment? (s : List Char) : Option (List Char × List Char) := do
  let (key, s) ← readKey? s
  match s with
  | '=' :: s => return (key, s)
  | s =>
    if key = "export".toList then
      match ← readKey? s with
      | (key, '=' :: s) => return (key, s)
      | _ => none
    else
      none

/-- Reads a line. -/
def readLine? (vars : Variables) (line : List Char) : Option Entry :=
  let s := Text.trimChars line
  if s.isEmpty || s.head? = some '#' then
    some .nothing
  else do
    let (key, s) ← readAssignment? s
    let s := Text.trimStartChars s
    let value ← if s.isEmpty || s.head? = some '#' then some [] else readValue? vars (.text false) s
    return .value (String.ofList key) (String.ofList value)

/-! ### Files -/

/-- Sets a variable, unless it is set. -/
def setAbsent (vars : Variables) (key value : String) : Variables := fun k =>
  (vars k).or (if k = key then some value else none)

/-- Sets the variables of lines that are not set, up to the first line of another form, and says
whether there was none. -/
def loadLines (vars : Variables) : List (Option (List Char)) → Bool × Variables
  | [] => (true, vars)
  | line :: lines =>
    match line.bind (readLine? vars) with
    | none => (false, vars)
    | some .nothing => loadLines vars lines
    | some (.value key value) => loadLines (setAbsent vars key value) lines

/-- A text without a byte order mark at its start. -/
def withoutMark (s : List Char) : List Char :=
  if s.head? = some '\uFEFF' then s.tail else s

/-- Sets the variables of a file that are not set. -/
def load (vars : Variables) (text : String) : Bool × Variables :=
  loadLines vars (logicalLines [] .plain (physicalLines (withoutMark text.toList)))

/-- Sets variables from the nearest file of a directory and those above it, of which the first is
the directory itself.  If that file has a line of another form, the nearest one above the directory
is read as well. -/
def loadNearest (vars : Variables) (files : List (Option String)) : Variables :=
  match files.findSome? id with
  | none => vars
  | some text =>
    match load vars text with
    | (true, vars) => vars
    | (false, vars) =>
      match files.tail.findSome? id with
      | none => vars
      | some text => (load vars text).2

end QuoteFeed.EnvFile
