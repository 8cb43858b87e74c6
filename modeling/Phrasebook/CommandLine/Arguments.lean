import Phrasebook.Emission.Options
import Phrasebook.Path

/-!
# Arguments of the command line

Arguments are read from left to right into a command. Switches have a name, some of them a
letter too; letters may stand together behind one dash, and an operand may follow its
switch directly, behind an equals sign, or as the next argument. A switch is given once at
most, and every command knows its own switches.
-/

namespace Phrasebook.CommandLine

/-- The settings that arguments give in place of those of the manifest. -/
structure Overrides where
  locales : Option Path := none
  output : Option Path := none
  target : Option Target := none
  isLazy : Bool := false
  defaultLanguage : Option String := none
deriving DecidableEq, Repr

inductive Command where
  | generate (config : Path) (overrides : Overrides) (isDryRun : Bool)
  | check (config : Path) (locales : Option Path)
  | inspect (config : Path) (locales : Option Path) (asJson : Bool)
deriving DecidableEq, Repr

/-- Why arguments give nothing to do. -/
inductive Usage where
  | help
  | version
  | wrong
deriving DecidableEq, Repr

/-! ### Switches -/

/-- What follows a switch. -/
inductive Operand where
  | nothing
  | text
  | path
  | target
deriving DecidableEq, Repr

/-- Whether a text may follow a switch. No path is empty. -/
def Operand.accepts (text : String) : Operand → Bool
  | .nothing => true
  | .text => true
  | .path => !text.isEmpty
  | .target => (Target.ofName? text).isSome

structure Switch where
  name : String
  letter : Option Char := none
  operand : Operand := .nothing

def verbose : Switch := { name := "verbose", letter := some 'v' }

def help : Switch := { name := "help", letter := some 'h' }

def version : Switch := { name := "version", letter := some 'V' }

def config : Switch := { name := "config", letter := some 'c', operand := .path }

def locales : Switch := { name := "locales", operand := .path }

inductive Verb where
  | generate
  | check
  | inspect
deriving DecidableEq, Repr

def Verb.name : Verb → String
  | .generate => "generate"
  | .check => "check"
  | .inspect => "inspect"

def Verb.ofName? (name : String) : Option Verb :=
  [.generate, .check, .inspect].find? fun verb => verb.name = name

def Verb.switches : Verb → List Switch
  | .generate =>
      [verbose, help, config, locales,
       { name := "output", letter := some 'o', operand := .path },
       { name := "target", letter := some 't', operand := .target },
       { name := "lazy" },
       { name := "default-language", letter := some 'd', operand := .text },
       { name := "dry-run" }]
  | .check => [verbose, help, config, locales]
  | .inspect => [verbose, help, config, locales, { name := "json" }]

/-! ### Reading -/

abbrev Given := List (String × String)

def note (switch : Switch) (operand : String) (given : Given) : Except Usage Given :=
  if switch.name = help.name then .error .help
  else if switch.name = version.name then .error .version
  else if (given.lookup switch.name).isSome || !switch.operand.accepts operand then .error .wrong
  else .ok (given ++ [(switch.name, operand)])

/-- Reads the letters behind a dash. What follows a letter with an operand is the operand;
when nothing does, the switch still waits for it. -/
def readLetters (switches : List Switch) (given : Given) :
    List Char → Except Usage (Given × Option Switch)
  | [] => .ok (given, none)
  | c :: rest =>
      match switches.find? fun switch => switch.letter = some c with
      | none => .error .wrong
      | some switch =>
          if switch.operand = .nothing then
            match note switch "" given with
            | .error usage => .error usage
            | .ok noted => readLetters switches noted rest
          else match rest with
            | [] => .ok (given, some switch)
            | '=' :: operand => (note switch (String.ofList operand) given).map fun noted => (noted, none)
            | operand => (note switch (String.ofList operand) given).map fun noted => (noted, none)

/-- Reads a name behind two dashes, perhaps with an operand behind an equals sign. -/
def readName (switches : List Switch) (given : Given) (text : List Char) :
    Except Usage (Given × Option Switch) :=
  let (name, rest) := text.span (· ≠ '=')
  match switches.find? fun switch => switch.name = String.ofList name with
  | none => .error .wrong
  | some switch =>
      match rest, switch.operand with
      | [], .nothing => (note switch "" given).map fun noted => (noted, none)
      | [], _ => .ok (given, some switch)
      | _ :: _, .nothing => .error .wrong
      | _ :: operand, _ => (note switch (String.ofList operand) given).map fun noted => (noted, none)

inductive Shape where
  | letters (text : List Char)
  | name (text : List Char)
  | plain

def Shape.of (argument : String) : Shape :=
  match argument.toList with
  | '-' :: '-' :: text => .name text
  | '-' :: c :: text => .letters (c :: text)
  | _ => .plain

/-- Reads the arguments of a command. A switch may still wait for its operand, which does
not look like a switch; two dashes may only stand at the end. -/
def readSwitches (switches : List Switch) : Option Switch → Given → List String → Except Usage Given
  | some _, _, [] => .error .wrong
  | none, given, [] => .ok given
  | some switch, given, argument :: rest =>
      match Shape.of argument with
      | .plain =>
          match note switch argument given with
          | .error usage => .error usage
          | .ok noted => readSwitches switches none noted rest
      | _ => .error .wrong
  | none, given, argument :: rest =>
      let read : Except Usage (Given × Option Switch) := match Shape.of argument with
        | .plain => .error .wrong
        | .name [] => if rest.isEmpty then .ok (given, none) else .error .wrong
        | .name text => readName switches given text
        | .letters text => readLetters switches given text
      match read with
      | .error usage => .error usage
      | .ok (noted, waiting) => readSwitches switches waiting noted rest

/-- Reads the arguments up to the name of a command: that, and the arguments behind it. -/
def readVerb (given : Given) : List String → Except Usage (Verb × List String)
  | [] => .error .wrong
  | argument :: rest =>
      let switches := [verbose, help, version]
      let next := fun (read : Except Usage (Given × Option Switch)) =>
        match read with
        | .error usage => .error usage
        | .ok (noted, _) => readVerb noted rest
      match Shape.of argument with
      | .name text => next (readName switches given text)
      | .letters text => next (readLetters switches given text)
      | .plain =>
          if argument = help.name then .error .help
          else match Verb.ofName? argument with
            | some verb => .ok (verb, rest)
            | none => .error .wrong

def Given.path? (given : Given) (name : String) : Option Path :=
  (given.lookup name).map Path.mk

def Given.has (given : Given) (name : String) : Bool :=
  (given.lookup name).isSome

/-- The path of the manifest, which lies in the working directory by default. -/
def Given.config (given : Given) : Path :=
  (Given.path? given CommandLine.config.name).getD ⟨"glossa.toml"⟩

def Verb.command (given : Given) : Verb → Command
  | .generate =>
      .generate (Given.config given)
        { locales := Given.path? given "locales"
          output := Given.path? given "output"
          target := (given.lookup "target").bind Target.ofName?
          isLazy := Given.has given "lazy"
          defaultLanguage := given.lookup "default-language" }
        (Given.has given "dry-run")
  | .check => .check (Given.config given) (Given.path? given "locales")
  | .inspect =>
      .inspect (Given.config given) (Given.path? given "locales") (Given.has given "json")

def Command.ofArguments (arguments : List String) : Except Usage Command :=
  match readVerb [] arguments with
  | .error usage => .error usage
  | .ok (verb, rest) =>
      (readSwitches verb.switches none [] rest).map fun given => verb.command given

end Phrasebook.CommandLine
