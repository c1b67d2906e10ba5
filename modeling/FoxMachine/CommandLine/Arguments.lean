import FoxMachine.Numeral

namespace FoxMachine

/-!
Arguments. The arguments of a command are switches and names. Switches have a long spelling and may
have a short one; short ones can be run together, and a value may be attached to a switch or follow
it. Behind `--` every argument is a name. Each switch may be given once.
-/

namespace CommandLine

inductive UsageFault where
  | unknownSwitch (argument : String)
  | repeatedSwitch (long : String)
  | missingValue (long : String)
  | unwantedValue (long : String)
  | invalidValue (long value : String)
  | missingName (wanted : String)
  | emptyName
  | surplusName (name : String)
  | unknownCommand (name : String)
deriving DecidableEq, Repr

inductive Verb where
  | assemble
  | check
  | run
  | dump
deriving DecidableEq, Repr

inductive Command where
  | greet
  | help (topic? : Option Verb)
  | version
  /-- Runs a source or an image, by its extension. -/
  | quick (path : String)
  | assemble (source : String) (destination? : Option String) (lenient : Bool)
  | check (source : String)
  | run (image : String) (trace minimal : Bool) (rate? : Option Nat)
  | dump (image : String)
deriving DecidableEq, Repr

def defaultImage : String :=
  "fox16.bin"

structure Switch where
  long : String
  short : Char
  takesValue : Bool
deriving DecidableEq, Repr

namespace Switch

def help : Switch := ⟨"help", 'h', false⟩

def version : Switch := ⟨"version", 'V', false⟩

def lenient : Switch := ⟨"lenient", 'l', false⟩

def trace : Switch := ⟨"trace", 't', false⟩

def minimal : Switch := ⟨"minimal", 'm', false⟩

def clock : Switch := ⟨"clock", 'c', true⟩

end Switch

structure Signature where
  switches : List Switch
  maxNames : Nat

structure Reading where
  given : List (String × Option String)
  names : List String
deriving DecidableEq, Repr

namespace Reading

def none : Reading :=
  ⟨[], []⟩

def has (reading : Reading) (switch : Switch) : Bool :=
  (reading.given.lookup switch.long).isSome

def value? (reading : Reading) (switch : Switch) : Option String :=
  (reading.given.lookup switch.long).join

def rate? (reading : Reading) : Option Nat :=
  (reading.value? .clock).bind fun value =>
    (Numeral.unsigned64.read value.toList).toOption.map Int.toNat

def giveFlag (reading : Reading) (switch : Switch) : Except UsageFault Reading :=
  if reading.has switch then .error (.repeatedSwitch switch.long)
  else .ok { reading with given := (switch.long, Option.none) :: reading.given }

/-- Values are numbers: the only switch that takes one is the clock rate. -/
def giveValue (reading : Reading) (switch : Switch) (value : List Char) :
    Except UsageFault Reading :=
  match Numeral.unsigned64.read value with
  | .error _ => .error (.invalidValue switch.long (String.ofList value))
  | .ok _ =>
      if reading.has switch then .error (.repeatedSwitch switch.long)
      else
        .ok { reading with given := (switch.long, some (String.ofList value)) :: reading.given }

def addName (reading : Reading) (signature : Signature) (name : String) :
    Except UsageFault Reading :=
  if name.isEmpty then .error .emptyName
  else if reading.names.length < signature.maxNames then
    .ok { reading with names := reading.names ++ [name] }
  else .error (.surplusName name)

end Reading

/-- What is answered on the spot, whatever else is asked for. -/
inductive Immediate where
  | help
  | version
deriving DecidableEq, Repr

inductive Progress where
  | next (reading : Reading)
  | valueOf (switch : Switch) (reading : Reading)
  /-- The rest of the arguments does not matter. -/
  | stop (request : Immediate)

def immediate? (switch : Switch) : Option Immediate :=
  if switch = .help then some .help
  else if switch = .version then some .version
  else none

def readLong (signature : Signature) (reading : Reading) (body : List Char) :
    Except UsageFault Progress :=
  let name := String.ofList (body.takeWhile (· != '='))
  match signature.switches.find? (·.long == name), body.dropWhile (· != '=') with
  | none, _ => .error (.unknownSwitch (String.ofList body))
  | some switch, [] =>
      if switch.takesValue then .ok (.valueOf switch reading)
      else match immediate? switch with
        | some request => .ok (.stop request)
        | none => (reading.giveFlag switch).map .next
  | some switch, _ :: value =>
      if switch.takesValue then (reading.giveValue switch value).map .next
      else .error (.unwantedValue switch.long)

def readShort (signature : Signature) (reading : Reading) : List Char → Except UsageFault Progress
  | [] => .ok (.next reading)
  | c :: rest =>
      match signature.switches.find? (·.short == c) with
      | none => .error (.unknownSwitch (String.ofList (c :: rest)))
      | some switch =>
          if switch.takesValue then
            match rest with
            | [] => .ok (.valueOf switch reading)
            | '=' :: value => (reading.giveValue switch value).map .next
            | value => (reading.giveValue switch value).map .next
          else match immediate? switch with
            | some request => .ok (.stop request)
            | none =>
                match reading.giveFlag switch with
                | .error fault => .error fault
                | .ok reading => readShort signature reading rest

/-- Whether an argument has the form of switches. A dash alone is a name. -/
def isSwitches : List Char → Bool
  | '-' :: _ :: _ => true
  | _ => false

def readArgument (signature : Signature) (reading : Reading) (argument : String) :
    Except UsageFault Progress :=
  match argument.toList with
  | '-' :: '-' :: body => readLong signature reading body
  | '-' :: c :: body => readShort signature reading (c :: body)
  | _ => (reading.addName signature argument).map .next

def readNames (signature : Signature) (reading : Reading) (names : List String) :
    Except UsageFault Reading :=
  names.foldlM (fun reading name => reading.addName signature name) reading

/-- Reads the arguments of a command, up to a request that is answered on the spot. -/
def readArguments (signature : Signature) (reading : Reading) :
    List String → Except UsageFault (Sum Immediate Reading)
  | [] => .ok (.inr reading)
  | "--" :: names => (readNames signature reading names).map .inr
  | argument :: arguments =>
      match readArgument signature reading argument, arguments with
      | .error fault, _ => .error fault
      | .ok (.stop request), _ => .ok (.inl request)
      | .ok (.next reading), arguments => readArguments signature reading arguments
      | .ok (.valueOf switch _), [] => .error (.missingValue switch.long)
      | .ok (.valueOf switch reading), value :: arguments =>
          if isSwitches value.toList then .error (.missingValue switch.long)
          else match reading.giveValue switch value.toList with
            | .error fault => .error fault
            | .ok reading => readArguments signature reading arguments

namespace Verb

def ofName? : String → Option Verb
  | "assemble" => some assemble
  | "check" => some check
  | "run" => some run
  | "dump" => some dump
  | _ => none

def signature : Verb → Signature
  | assemble => ⟨[.lenient, .help], 2⟩
  | check => ⟨[.help], 1⟩
  | run => ⟨[.trace, .minimal, .clock, .help], 1⟩
  | dump => ⟨[.help], 1⟩

def command (verb : Verb) (reading : Reading) : Except UsageFault Command :=
  match verb, reading.names with
  | assemble, source :: rest => .ok (.assemble source rest.head? (reading.has .lenient))
  | check, source :: _ => .ok (.check source)
  | assemble, [] | check, [] => .error (.missingName "NAME")
  | run, names =>
      .ok (.run (names.head?.getD defaultImage) (reading.has .trace) (reading.has .minimal)
        reading.rate?)
  | dump, names => .ok (.dump (names.head?.getD defaultImage))

def read (verb : Verb) (arguments : List String) : Except UsageFault Command :=
  match readArguments verb.signature .none arguments with
  | .error fault => .error fault
  | .ok (.inl .help) => .ok (.help (some verb))
  | .ok (.inl .version) => .ok .version
  | .ok (.inr reading) => verb.command reading

end Verb

def rootSignature : Signature :=
  ⟨[.help, .version], 1⟩

def readHelp : List String → Except UsageFault Command
  | [] | ["help"] => .ok (.help none)
  | [topic] =>
      match Verb.ofName? topic with
      | some verb => .ok (.help (some verb))
      | none => .error (.unknownCommand topic)
  | topic :: other :: _ =>
      if (Verb.ofName? topic).isSome || topic == "help" then .error (.unknownCommand other)
      else .error (.unknownCommand topic)

/-- Reads arguments until a verb is met. A verb makes what stands before it void. -/
def readRoot (reading : Reading) : List String → Except UsageFault Command
  | [] => .ok (match reading.names with
      | [] => .greet
      | path :: _ => .quick path)
  | "--" :: names =>
      (readNames rootSignature reading names).map fun reading =>
        match reading.names with
        | [] => .greet
        | path :: _ => .quick path
  | "help" :: arguments => readHelp arguments
  | argument :: arguments =>
      match Verb.ofName? argument with
      | some verb => verb.read arguments
      | none =>
          match readArgument rootSignature reading argument with
          | .error fault => .error fault
          | .ok (.stop .help) => .ok (.help none)
          | .ok (.stop .version) => .ok .version
          | .ok (.next reading) | .ok (.valueOf _ reading) => readRoot reading arguments

def Command.ofArguments (arguments : List String) : Except UsageFault Command :=
  readRoot .none arguments

end CommandLine

end FoxMachine
