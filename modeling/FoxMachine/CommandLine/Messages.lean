import FoxMachine.CommandLine.Arguments
import FoxMachine.CommandLine.FileTree
import FoxMachine.Image
import FoxMachine.Report
import FoxMachine.Text.Styled

namespace FoxMachine

namespace CommandLine

def rootHelp : List String := [
  "Fox16 is an assembler and virtual machine for the Fox16 16-bit machine",
  "",
  "Usage: fox16 [PATH] [COMMAND]",
  "",
  "Commands:",
  "  assemble  Create binary ROM from a `.fox16` source file",
  "  check     Check a `.fox16` file without outputting binary",
  "  run       Run a ROM until the machine halts",
  "  dump      Print a listing of the instructions inside a ROM",
  "  help      Print this message or the help of the given subcommand(s)",
  "",
  "Arguments:",
  "  [PATH]  Quickly provide a `.fox16` or `.bin` file to run",
  "",
  "Options:",
  "  -h, --help     Print help",
  "  -V, --version  Print version"]

def Verb.help : Verb → List String
  | assemble => [
      "Create binary ROM from a `.fox16` source file",
      "",
      "Usage: fox16 assemble [OPTIONS] <NAME> [DEST]",
      "",
      "Arguments:",
      "  <NAME>  `.fox16` file to assemble",
      "  [DEST]  Destination to output the ROM",
      "",
      "Options:",
      "  -l, --lenient  Drop unknown instructions and zero-fill undeclared labels instead of failing",
      "  -h, --help     Print help"]
  | check => [
      "Check a `.fox16` file without outputting binary",
      "",
      "Usage: fox16 check <NAME>",
      "",
      "Arguments:",
      "  <NAME>  File to check",
      "",
      "Options:",
      "  -h, --help  Print help"]
  | run => [
      "Run a ROM until the machine halts",
      "",
      "Usage: fox16 run [OPTIONS] [NAME]",
      "",
      "Arguments:",
      "  [NAME]  ROM to run [default: fox16.bin]",
      "",
      "Options:",
      "  -t, --trace          Print every executed instruction",
      "  -m, --minimal        Produce minimal output, suited for blackbox tests",
      "  -c, --clock <CLOCK>  Instructions per second, 0 to run unthrottled",
      "  -h, --help           Print help"]
  | dump => [
      "Print a listing of the instructions inside a ROM",
      "",
      "Usage: fox16 dump [NAME]",
      "",
      "Arguments:",
      "  [NAME]  ROM to list [default: fox16.bin]",
      "",
      "Options:",
      "  -h, --help  Print help"]

def helpLines : Option Verb → List String
  | some verb => verb.help
  | none => rootHelp

def UsageFault.message : UsageFault → String
  | unknownSwitch argument => "unexpected argument '" ++ argument ++ "' found"
  | repeatedSwitch long => "the argument '--" ++ long ++ "' cannot be used multiple times"
  | missingValue long => "a value is required for '--" ++ long ++ "' but none was supplied"
  | unwantedValue long => "unexpected value for '--" ++ long ++ "' found; no more were expected"
  | invalidValue long value => "invalid value '" ++ value ++ "' for '--" ++ long ++ "'"
  | missingName wanted => "the required argument <" ++ wanted ++ "> was not provided"
  | emptyName => "a value is required but an empty one was supplied"
  | surplusName name => "unexpected argument '" ++ name ++ "' found"
  | unknownCommand name => "unrecognized subcommand '" ++ name ++ "'"

def versionText : String :=
  "0.1.0"

def logo : List String := [
  "",
  "   ___           _  __",
  "  / __\\____ __ _/ |/ /_",
  " / _\\/ _ \\ \\/ / | | '_ \\",
  "/ / | (_) >  <| | | (_) |",
  "\\/   \\___/_/\\_\\_|_|\\___/"]

def welcome : List String := [
  "",
  "Welcome to fox16, an assembler and virtual machine for the Fox16 16-bit machine.",
  "Please use `-h` or `--help` to access the usage instructions and documentation.",
  ""]

/-- The style of the logo. Its orange is shown as yellow where there are only sixteen colours. -/
def logoStyle (fullColor : Bool) : Text.Style :=
  if fullColor then .boldOrange else .boldYellow

def greeting (color fullColor : Bool) : List String :=
  let logo := String.intercalate "\n" logo
  let shown :=
    if color then String.ofList (Text.styled (logoStyle fullColor) logo.toList) else logo
  ["\n~ fox16 v" ++ versionText ++ " ~", shown] ++ welcome

inductive Failure where
  | missing (path : String)
  | notSource (path : String)
  | unknownExtension
  | noExtension
  | notText
  | file (fault : FileFault)
  | source (fault : SourceFault)
  | image (fault : Image.Fault)
deriving DecidableEq, Repr

def Failure.report : Failure → Report
  | missing path => .plain ("File not found: " ++ path)
  | notSource path => .plain ("Invalid file extension: " ++ path)
  | unknownExtension => .plain "File has unknown extension. Exiting..."
  | noExtension => .plain "File has no extension. Exiting..."
  | notText => .plain "stream did not contain valid UTF-8"
  | file fault => .plain fault.message
  | source fault => fault.report
  | image fault => fault.report

end CommandLine

end FoxMachine
