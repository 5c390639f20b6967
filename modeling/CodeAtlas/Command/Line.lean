/-!
# CodeAtlas.Command.Line

Command lines: options, arguments and commands within commands.

1. a word that starts with two hyphens is an option by its long name, with its value
   after an equals sign or in the next word; a word that starts with one hyphen holds
   options by their letters, the last of which may have a value;
2. options that are global may stand before or after a command, and count for the
   innermost command that they stand at;
3. asking for help or for the version ends the reading of the line there and then;
4. after two hyphens on their own every word is an argument.
-/

namespace CodeAtlas.Command

/-! ## What is expected -/

/-- What a value must be. -/
inductive ValueKind where
  /-- Any text. -/
  | text
  /-- A text that is not empty. -/
  | path
  /-- A number without a sign of 64 bits. -/
  | number
deriving DecidableEq, Inhabited, Repr

structure OptionSpec where
  long : String
  short : Option Char
  /-- What the value must be; a flag has none. -/
  value : Option ValueKind
  help : String
  default : Option String
deriving DecidableEq, Inhabited, Repr

structure ArgumentSpec where
  name : String
  kind : ValueKind
  isRequired : Bool
  help : String
deriving DecidableEq, Inhabited, Repr

/-- A command; one that has commands within needs one of them. -/
inductive CommandSpec where
  | mk (name about : String) (options : List OptionSpec) (arguments : List ArgumentSpec)
      (commands : List CommandSpec)
deriving Inhabited

namespace CommandSpec

def name : CommandSpec → String
  | mk name _ _ _ _ => name

def about : CommandSpec → String
  | mk _ about _ _ _ => about

def options : CommandSpec → List OptionSpec
  | mk _ _ options _ _ => options

def arguments : CommandSpec → List ArgumentSpec
  | mk _ _ _ arguments _ => arguments

def commands : CommandSpec → List CommandSpec
  | mk _ _ _ _ commands => commands

end CommandSpec

/-- A program. -/
structure Program where
  command : CommandSpec
  version : String
  /-- Options of all commands. -/
  globals : List OptionSpec

/-! ## Numbers -/

/-- A number without a sign of 64 bits; a plus may stand before it. -/
def number? (s : String) : Option Nat :=
  let ds := match s.toList with
    | '+' :: ds => ds
    | ds => ds
  if ds.isEmpty || !ds.all Char.isDigit then none
  else
    let n := ds.foldl (fun n c => 10 * n + (c.toNat - '0'.toNat)) 0
    if n < 0x10000000000000000 then some n else none

/-- Whether a word can be a value. -/
def ValueKind.accepts : ValueKind → String → Bool
  | .text, _ => true
  | .path, s => s != ""
  | .number, s => (number? s).isSome

/-! ## Help -/

def OptionSpec.placeholder (o : OptionSpec) : String := "<" ++ o.long.toUpper ++ ">"

/-- An option as it is listed. -/
def OptionSpec.shown (o : OptionSpec) : String :=
  (match o.short with
    | some c => "-" ++ String.singleton c ++ ", "
    | none => "    ") ++ "--" ++ o.long ++ (if o.value.isSome then " " ++ o.placeholder else "")

def OptionSpec.helpText (o : OptionSpec) : String :=
  o.help ++ (match o.default with
    | some d => " [default: " ++ d ++ "]"
    | none => "")

def ArgumentSpec.shown (a : ArgumentSpec) : String :=
  if a.isRequired then "<" ++ a.name.toUpper ++ ">" else "[" ++ a.name.toUpper ++ "]"

def helpOption : OptionSpec := ⟨"help", some 'h', none, "Print help", none⟩

def versionOption : OptionSpec := ⟨"version", some 'V', none, "Print version", none⟩

/-- The command that tells of another one. -/
def helpCommand : CommandSpec :=
  .mk "help" "Print this message or the help of the given subcommand(s)" [] [] []

/-- The word by which options at the same place are listed. -/
def OptionSpec.sortKey (o : OptionSpec) : String :=
  match o.short with
  | some c => String.ofList [c.toLower, if c.isLower then '0' else '1']
  | none => o.long

/-- Options with their places among those they were defined with. -/
def numbered (os : List OptionSpec) : List (Nat × OptionSpec) := os.zipIdx.map fun (o, n) => (n, o)

/-- The options of a command as they are listed: by their places among the global options
or the command's own, and then by their words; help and version come last. -/
def listedOptions (p : Program) (c : CommandSpec) : List OptionSpec :=
  ((numbered c.options ++ numbered p.globals).mergeSort fun a b =>
    a.1 < b.1 || (a.1 == b.1 && a.2.sortKey ≤ b.2.sortKey)).map (·.2) ++
    [helpOption, versionOption]

/-- Lines of two columns. -/
def columns (rows : List (String × String)) : List String :=
  let width := (rows.map (·.1.length)).foldl max 0
  rows.map fun (left, right) =>
    "  " ++ left ++ String.ofList (List.replicate (width - left.length + 2) ' ') ++ right

/-- A heading with lines below it and a blank line above, unless there are none. -/
def block (heading : String) (rows : List (String × String)) : List String :=
  if rows.isEmpty then [] else ["", heading ++ ":"] ++ columns rows

/-- The help of a command that is reached by some names. -/
def helpLines (p : Program) (names : List String) (c : CommandSpec) : List String :=
  let words := names ++ ["[OPTIONS]"] ++ c.arguments.map (·.shown) ++
    (if c.commands.isEmpty then [] else ["<COMMAND>"])
  [c.about, "", "Usage: " ++ " ".intercalate words] ++
    block "Commands" (if c.commands.isEmpty then [] else
      (c.commands ++ [helpCommand]).map fun s => (s.name, s.about)) ++
    block "Arguments" (c.arguments.map fun a => (a.shown, a.help)) ++
    block "Options" ((listedOptions p c).map fun o => (o.shown, o.helpText))

/-- The version of a command that is reached by some names. -/
def versionLine (p : Program) (names : List String) : String :=
  "-".intercalate names ++ " " ++ p.version

/-! ## Reading -/

/-- A command line that was understood. -/
structure Invocation where
  /-- The names of the commands, from the program on. -/
  names : List String
  /-- Options with their values, those of inner commands first; a flag has the empty
  text. -/
  options : List (String × String)
  /-- Arguments of the innermost command, in order. -/
  arguments : List String
deriving DecidableEq, Inhabited, Repr

/-- What a command line comes to. -/
inductive Reading where
  | invoked (i : Invocation)
  /-- Lines that the line asks for. -/
  | told (lines : List String)
  | wrong (message : String)
deriving DecidableEq, Inhabited, Repr

/-- What was read of the words of one command. -/
structure Scan where
  options : List (String × String)
  /-- Arguments, last one first. -/
  arguments : List String
  /-- Whether options may still come. -/
  isOpen : Bool

/-- What is to be read next. -/
inductive Next where
  /-- Words that remain for the same command. -/
  | more (s : Scan) (rest : List String)
  | done (r : Reading)

def Next.wrong (message : String) : Next := .done (.wrong message)

/-- Notes an option, which may stand only once at a command. -/
def Scan.note (s : Scan) (o : OptionSpec) (value : String) (rest : List String) : Next :=
  if s.options.any (·.1 == o.long) then
    .wrong ("the argument '--" ++ o.long ++ "' cannot be used multiple times")
  else if o.value.all (·.accepts value) then
    .more { s with options := s.options ++ [(o.long, value)] } rest
  else .wrong ("invalid value '" ++ value ++ "' for '--" ++ o.long ++ "'")

/-- Whether a word is read as options, or ends them. -/
def isOptionWord (word : String) : Bool :=
  match word.toList with
  | '-' :: _ :: _ => true
  | _ => false

/-- Notes an option whose value stands in the next word. -/
def Scan.noteNext (s : Scan) (o : OptionSpec) : List String → Next
  | [] => .wrong ("a value is required for '--" ++ o.long ++ "' but none was supplied")
  | value :: rest =>
    if isOptionWord value then
      .wrong ("a value is required for '--" ++ o.long ++ "' but none was supplied")
    else s.note o value rest

/-- What a command tells of itself. -/
structure Told where
  help : List String
  version : String

/-- Reads an option by its long name. -/
def Scan.readLong (s : Scan) (os : List OptionSpec) (told : Told) (word : List Char)
    (rest : List String) : Next :=
  let name := String.ofList (word.takeWhile (· != '='))
  let value := match word.dropWhile (· != '=') with
    | '=' :: v => some (String.ofList v)
    | _ => none
  match os.find? (·.long == name) with
  | none => .wrong ("unexpected argument '--" ++ name ++ "' found")
  | some o =>
    match o.value, value with
    | none, some _ => .wrong ("unexpected value for '--" ++ name ++ "' found")
    | none, none =>
      if o == helpOption then .done (.told told.help)
      else if o == versionOption then .done (.told [told.version])
      else s.note o "" rest
    | some _, some v => s.note o v rest
    | some _, none => s.noteNext o rest

/-- Reads options by their letters. -/
def Scan.readShort (s : Scan) (os : List OptionSpec) (told : Told) :
    List Char → List String → Next
  | [], rest => .more s rest
  | c :: cs, rest =>
    match os.find? (·.short == some c) with
    | none => .wrong ("unexpected argument '-" ++ String.singleton c ++ "' found")
    | some o =>
      match o.value with
      | some _ =>
        match cs with
        | [] => s.noteNext o rest
        | '=' :: v => s.note o (String.ofList v) rest
        | v => s.note o (String.ofList v) rest
      | none =>
        if o == helpOption then .done (.told told.help)
        else if o == versionOption then .done (.told [told.version])
        else
          match s.note o "" rest with
          | .more s rest => s.readShort os told cs rest
          | done => done

/-- Reads an argument. -/
def Scan.readArgument (s : Scan) (specs : List ArgumentSpec) (word : String)
    (rest : List String) : Next :=
  match specs[s.arguments.length]? with
  | none => .wrong ("unexpected argument '" ++ word ++ "' found")
  | some a =>
    if a.kind.accepts word then .more { s with arguments := word :: s.arguments } rest
    else .wrong ("invalid value '" ++ word ++ "' for '" ++ a.shown ++ "'")

/-- Reads one word of a command, if it is not the name of another one. -/
def Scan.readWord (s : Scan) (p : Program) (c : CommandSpec) (told : Told) (word : String)
    (rest : List String) : Next :=
  let os := c.options ++ p.globals ++ [helpOption, versionOption]
  if s.isOpen then
    match word.toList with
    | ['-', '-'] => .more { s with isOpen := false } rest
    | '-' :: '-' :: name => s.readLong os told name rest
    | '-' :: l :: ls => s.readShort os told (l :: ls) rest
    | _ => s.readArgument c.arguments word rest
  else s.readArgument c.arguments word rest

/-- What a command comes to when its words are used up. -/
def Scan.close (s : Scan) (names : List String) (c : CommandSpec) : Reading :=
  if !c.commands.isEmpty then .wrong "a subcommand is required but one was not provided"
  else
    match (c.arguments.drop s.arguments.length).find? (·.isRequired) with
    | some a => .wrong ("the required argument " ++ a.shown ++ " was not provided")
    | none => .invoked ⟨names, s.options, s.arguments.reverse⟩

/-- The help of the command that some names lead to. -/
def helpFor (p : Program) (names : List String) (c : CommandSpec) : List String → Reading
  | [] => .told (helpLines p names c)
  | n :: rest =>
    match c.commands.find? (·.name == n) with
    | some inner => helpFor p (names ++ [n]) inner rest
    | none => .wrong ("unrecognized subcommand '" ++ n ++ "'")

/-- Adds options of an outer command to those of an inner one. -/
def Reading.within (outer : List (String × String)) : Reading → Reading
  | .invoked i => .invoked { i with options := i.options ++ outer }
  | .told lines => .told lines
  | .wrong message => .wrong message

/-- Reads the words of a command. Every step uses up a word, so as many steps as there
are words are enough. -/
def readWords (p : Program) : (fuel : Nat) → (names : List String) → CommandSpec → Scan →
    List String → Reading
  | _, names, c, s, [] => s.close names c
  | 0, _, _, _, _ :: _ => .wrong "too many words"
  | fuel + 1, names, c, s, word :: rest =>
    let isName := s.isOpen && !c.commands.isEmpty && !isOptionWord word
    if isName && word == helpCommand.name then helpFor p names c rest
    else if isName then
      match c.commands.find? (·.name == word) with
      | none => .wrong ("unrecognized subcommand '" ++ word ++ "'")
      | some inner =>
        (readWords p fuel (names ++ [word]) inner ⟨[], [], true⟩ rest).within s.options
    else
      match s.readWord p c ⟨helpLines p names c, versionLine p names⟩ word rest with
      | .more s rest => readWords p fuel names c s rest
      | .done r => r

/-- Reads a command line, without the name of the program. -/
def Program.read (p : Program) (words : List String) : Reading :=
  readWords p words.length [p.command.name] p.command ⟨[], [], true⟩ words

end CodeAtlas.Command
