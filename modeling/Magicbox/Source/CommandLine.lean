import Magicbox.Library.Decimal
import Magicbox.Source.Json

/-!
# The command line

main.cpp, with `Options` of appliance.hpp. The arguments are those behind the
name of the program. A path is kept as the text that was given for it.
-/

set_option autoImplicit false

namespace Magicbox.Source.CommandLine
open Library Json

structure Options where
  listen : String := "127.0.0.1"
  port : UInt16 := 8080
  database : String := "magicbox.sqlite"
  tokenFile : String := ""
  webRoot : String := "web"
  captureInterface : String := ""
  allowNetwork : Bool := false
  deriving DecidableEq, Repr

/-- How `main` ends before it runs the appliance, or the options it runs it with. -/
inductive Ending where
  /-- Exit code 0. -/
  | printed (text : String)
  /-- Exit code 1. -/
  | failed (what : String)
  | run (options : Options)
  deriving DecidableEq, Repr

def versionText : String := "magicboxd 0.2.0\n"

def usageText : String :=
  "Usage: magicboxd --token-file PATH [options]\n" ++
  "  --listen ADDRESS       HTTP bind address (default 127.0.0.1)\n" ++
  "  --port PORT            HTTP port (default 8080)\n" ++
  "  --database PATH        SQLite database (default magicbox.sqlite)\n" ++
  "  --web-root PATH        Dashboard directory (default web)\n" ++
  "  --capture INTERFACE    Start passive Ethernet capture\n" ++
  "  --allow-network        Enable confirmed network configuration transactions\n" ++
  "  --token-file PATH      Required bearer token file, mode 0600, 32–256 characters\n" ++
  "  --version              Print version\n" ++
  "Use an SSH tunnel for remote management. Network changes require dedicated unmanaged ports.\n"

/-- `std::from_chars` into an unsigned number of 32 bits: the number and the text behind it. -/
def fromChars (text : List Char) : Option (Nat × List Char) :=
  if text.takeWhile Char.isDigit = [] ∨
      4294967296 ≤ Nat.ofDigitChars 10 (text.takeWhile Char.isDigit) 0 then none
  else some (Nat.ofDigitChars 10 (text.takeWhile Char.isDigit) 0, text.dropWhile Char.isDigit)

def parsePort (value : String) : Except Exn UInt16 :=
  match fromChars value.toList with
  | none => .error (.invalidArgument "Invalid port")
  | some (port, rest) =>
    if rest ≠ [] ∨ port < 1 ∨ port > 65535 then .error (.invalidArgument "Invalid port")
    else .ok (UInt16.ofNat port)

/-- The options that take a value. -/
def assign (options : Options) (arg value : String) : Except Exn Options :=
  if arg = "--listen" then .ok { options with listen := value }
  else if arg = "--database" then .ok { options with database := value }
  else if arg = "--web-root" then .ok { options with webRoot := value }
  else if arg = "--capture" then .ok { options with captureInterface := value }
  else if arg = "--token-file" then .ok { options with tokenFile := value }
  else if arg = "--port" then (parsePort value).map fun port => { options with port }
  else .error (.invalidArgument ("Unknown option: " ++ arg))

/-- The loop over the arguments, and what comes behind it. -/
def parse (options : Options) : List String → Ending
  | [] =>
    if options.tokenFile.isEmpty then .failed "--token-file is required; use --help for usage"
    else .run options
  | arg :: rest =>
    if arg = "--version" then .printed versionText
    else if arg = "--help" ∨ arg = "-h" then .printed usageText
    else if arg = "--allow-network" then parse { options with allowNetwork := true } rest
    else
      match rest with
      | [] => .failed ("Missing value for " ++ arg)
      | value :: rest =>
        match assign options arg value with
        | .ok options => parse options rest
        | .error e => .failed e.what

def main (args : List String) : Ending := parse {} args

end Magicbox.Source.CommandLine
