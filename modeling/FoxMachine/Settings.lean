import FoxMachine.Numeral
import FoxMachine.Text.Basic

namespace FoxMachine

abbrev Environment := List (String × String)

structure Settings where
  trace : Bool
  /-- The clock rate to run at, where zero asks for no clock. -/
  rate? : Option Nat
  /-- Whether texts are coloured also where no one is looking at a screen. -/
  forcesColor : Bool
  /-- Whether the screen shows colours of 24 bits. -/
  fullColor : Bool
deriving DecidableEq, Repr

namespace Settings

def readRate? (text : String) : Option Nat :=
  (Numeral.unsigned64.read (Text.trim text.toList)).toOption.map Int.toNat

def ofEnvironment (environment : Environment) : Settings where
  trace := environment.lookup "FOX16_TRACE" == some "1"
  rate? := (environment.lookup "FOX16_CLOCK_HZ").bind readRate?
  forcesColor := (environment.lookup "CLICOLOR_FORCE").any (· != "0")
  fullColor :=
    (environment.lookup "COLORTERM").any fun support => support == "truecolor" || support == "24bit"

inductive Misuse where
  | readTwice
  | usedUnread
deriving DecidableEq, Repr

def Misuse.message : Misuse → String
  | readTwice => "tried to initialize environment state multiple times"
  | usedUnread => "tried to access environment state before initialization"

abbrev Cell := Option Settings

namespace Cell

def unread : Cell :=
  none

def init (cell : Cell) (environment : Environment) : Except Misuse Cell :=
  match cell with
  | none => .ok (some (ofEnvironment environment))
  | some _ => .error .readTwice

def get (cell : Cell) : Except Misuse Settings :=
  match cell with
  | none => .error .usedUnread
  | some settings => .ok settings

end Cell

end Settings

end FoxMachine
