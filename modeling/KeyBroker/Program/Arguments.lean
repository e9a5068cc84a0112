import KeyBroker.Path

/-! # Command lines

The program takes options that name a path, each with a variable of the environment to stand in for
it, and switches. Words are read from left to right, and the first that asks for help, asks for the
version or cannot be read decides what becomes of the command line. Main statements: without words
and variables nothing is asked for, and nothing may be given twice.
-/

namespace KeyBroker

/-! ### Options -/

/-- The options that name a path. -/
inductive PathOption where
  | config
  | socket
  | store
  deriving DecidableEq, Repr

namespace PathOption

/-- The options, in the order in which help lists them. -/
def all : List PathOption := [config, socket, store]

/-- The name of an option. -/
def name : PathOption → String
  | config => "config"
  | socket => "socket"
  | store => "keystore"

/-- The variable of the environment that stands in for an option. -/
def variableName : PathOption → String
  | config => "CUSTODY_CONFIG"
  | socket => "CUSTODY_SOCKET"
  | store => "CUSTODY_KEYSTORE"

/-- What help says of an option. -/
def summary : PathOption → String
  | config => "Path to configuration file"
  | socket => "Socket path, overrides server.socket_path"
  | store => "Key store file, overrides keystore.path"

end PathOption

/-- The switches. -/
inductive Switch where
  | debug
  | check
  deriving DecidableEq, Repr

/-- What a command line asks of the program. -/
structure Options where
  /-- The configuration file. -/
  config : Option Path := none
  /-- The path to listen on. -/
  socket : Option Path := none
  /-- The key store. -/
  store : Option Path := none
  /-- Whether to log more. -/
  debug : Bool := false
  /-- Whether to stop once all that is needed was found in order. -/
  check : Bool := false
  deriving DecidableEq, Repr

namespace Options

/-- The path given for an option. -/
def path? (o : Options) : PathOption → Option Path
  | .config => o.config
  | .socket => o.socket
  | .store => o.store

/-- Options with a path. -/
def withPath (o : Options) (p : Path) : PathOption → Options
  | .config => { o with config := some p }
  | .socket => { o with socket := some p }
  | .store => { o with store := some p }

/-- Whether a switch is on. -/
def isOn (o : Options) : Switch → Bool
  | .debug => o.debug
  | .check => o.check

/-- Options with a switch on. -/
def turnOn (o : Options) : Switch → Options
  | .debug => { o with debug := true }
  | .check => { o with check := true }

end Options

/-! ### Words -/

/-- What a name in a command line stands for. -/
inductive Mark where
  | path (option : PathOption)
  | switch (s : Switch)
  | help
  | version
  deriving DecidableEq, Repr

/-- What a name behind two dashes stands for. -/
def Mark.ofName? : String → Option Mark
  | "config" => some (.path .config)
  | "socket" => some (.path .socket)
  | "keystore" => some (.path .store)
  | "debug" => some (.switch .debug)
  | "check" => some (.switch .check)
  | "help" => some .help
  | "version" => some .version
  | _ => none

/-- What a letter behind one dash stands for. -/
def Mark.ofLetter? : Char → Option Mark
  | 'c' => some (.path .config)
  | 's' => some (.path .socket)
  | 'k' => some (.path .store)
  | 'd' => some (.switch .debug)
  | 'h' => some .help
  | 'V' => some .version
  | _ => none

/-- The shapes of words. -/
inductive Word where
  /-- The two dashes after which no names follow. -/
  | stop
  /-- A name, with the value behind an equals sign. -/
  | named (name : String) (value : Option String)
  /-- Letters behind one dash. -/
  | letters (cs : List Char)
  /-- Anything else, a single dash included. -/
  | plain (text : String)
  deriving DecidableEq, Repr

/-- The shape of a word. -/
def Word.ofText (text : String) : Word :=
  match text.toList with
  | ['-', '-'] => .stop
  | '-' :: '-' :: cs =>
    let value :=
      match cs.dropWhile (· != '=') with
      | _ :: v => some (String.ofList v)
      | [] => none
    .named (String.ofList (cs.takeWhile (· != '='))) value
  | '-' :: c :: cs => .letters (c :: cs)
  | _ => .plain text

/-! ### Reading -/

/-- What becomes of a command line. -/
inductive Invocation where
  | run (o : Options)
  | help
  | version
  | refused
  deriving DecidableEq, Repr

namespace Invocation

/-- A part of a command line that was read: options, and the one whose value is the next word. It
fails with what becomes of the command line instead. -/
abbrev Step := Except Invocation (Options × Option PathOption)

/-- Takes the value of an option, which must not be empty and not be given twice. -/
def give (o : Options) (p : PathOption) (value : String) : Except Invocation Options :=
  if value.isEmpty || (o.path? p).isSome then .error .refused
  else .ok (o.withPath (Path.ofText value) p)

/-- Takes a switch, which must not be given twice. -/
def raise (o : Options) (s : Switch) : Except Invocation Options :=
  if o.isOn s then .error .refused else .ok (o.turnOn s)

/-- Options after which no value is awaited. -/
def settled (r : Except Invocation Options) : Step := r.map fun o => (o, none)

/-- Reads a name. Only an option that names a path has a value. -/
def readNamed (o : Options) (name : String) (value : Option String) : Step :=
  match Mark.ofName? name, value with
  | some (.path p), some v => settled (give o p v)
  | some (.path p), none => .ok (o, some p)
  | some (.switch s), none => settled (raise o s)
  | some .help, none => .error .help
  | some .version, none => .error .version
  | _, _ => .error .refused

/-- Reads letters. What follows the letter of an option that names a path is its value. -/
def readLetters (o : Options) : List Char → Step
  | [] => .ok (o, none)
  | c :: rest =>
    match Mark.ofLetter? c with
    | none => .error .refused
    | some .help => .error .help
    | some .version => .error .version
    | some (.path p) =>
      match rest with
      | [] => .ok (o, some p)
      | '=' :: value => settled (give o p (String.ofList value))
      | value => settled (give o p (String.ofList value))
    | some (.switch s) =>
      match raise o s with
      | .error e => .error e
      | .ok o => readLetters o rest

/-- Reads words; `awaited` is the option whose value is next. -/
def readWords (o : Options) (awaited : Option PathOption) : List String → Except Invocation Options
  | [] => if awaited.isSome then .error .refused else .ok o
  | word :: rest =>
    match Word.ofText word, awaited with
    | .plain text, some p =>
      match give o p text with
      | .error e => .error e
      | .ok o => readWords o none rest
    | .named name value, none =>
      match readNamed o name value with
      | .error e => .error e
      | .ok (o, awaited) => readWords o awaited rest
    | .letters cs, none =>
      match readLetters o cs with
      | .error e => .error e
      | .ok (o, awaited) => readWords o awaited rest
    | .stop, none => if rest.isEmpty then .ok o else .error .refused
    | _, _ => .error .refused

/-- Takes from the environment what the words leave out. -/
def complete (env : String → Option String) (o : Options) :
    List PathOption → Except Invocation Options
  | [] => .ok o
  | p :: rest =>
    match o.path? p, env p.variableName with
    | none, some value =>
      match give o p value with
      | .error e => .error e
      | .ok o => complete env o rest
    | _, _ => complete env o rest

/-- Reads a command line in an environment. -/
def read (env : String → Option String) (words : List String) : Invocation :=
  match readWords {} none words with
  | .error e => e
  | .ok o =>
    match complete env o PathOption.all with
    | .error e => e
    | .ok o => .run o

theorem readWords_nil (o : Options) : readWords o none [] = .ok o := rfl

theorem read_nil (env : String → Option String) (h : ∀ p, env (PathOption.variableName p) = none) :
    read env [] = .run {} := by
  simp [read, readWords_nil, complete, PathOption.all, Options.path?, h]

theorem give_of_isSome {o : Options} {p : PathOption} (h : (o.path? p).isSome) (value : String) :
    give o p value = .error .refused := by
  simp [give, h]

theorem raise_turnOn (o : Options) (s : Switch) : raise (o.turnOn s) s = .error .refused := by
  cases s <;> rfl

end Invocation

/-! ### Help -/

/-- The name and the release of the program. -/
def programName : String := "custodyd"

/-- The release of the program. -/
def programVersion : String := "0.3.0"

/-- What the program says of its version. -/
def versionText : String := programName ++ " " ++ programVersion ++ "\n"

/-- A line of help: the forms of an option, and what it is for. -/
def helpLine (forms summary : String) : String :=
  "  " ++ forms ++ "".pushn ' ' (25 - forms.length) ++ "  " ++ summary ++ "\n"

/-- The line of an option that names a path. -/
def PathOption.helpLine (env : String → Option String) (p : PathOption) : String :=
  let forms := "-" ++ (p.name.take 1).toString ++ ", --" ++ p.name ++ " <" ++ p.name.toUpper ++ ">"
  KeyBroker.helpLine forms
    (p.summary ++ " [env: " ++ p.variableName ++ "=" ++ (env p.variableName).getD "" ++ "]")

/-- How the program is called. -/
def usageText : String := "Usage: " ++ programName ++ " [OPTIONS]\n"

/-- The help. -/
def helpText (env : String → Option String) : String :=
  "Custody key broker - performs operations with keys it never hands out\n\n" ++ usageText
    ++ "\nOptions:\n"
    ++ String.join (PathOption.all.map (PathOption.helpLine env))
    ++ helpLine "-d, --debug" "Enable debug logging"
    ++ helpLine "    --check" "Validate configuration and key store, then exit"
    ++ helpLine "-h, --help" "Print help"
    ++ helpLine "-V, --version" "Print version"

end KeyBroker
