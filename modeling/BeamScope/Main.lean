import BeamScope.Command

/-!
# The program

Reads the command line and the files it names, and hands them to the command.
-/

namespace BeamScope

/-- The options of a command line, as they were given. -/
structure Arguments where
  input : Option String
  source : Option String
  format : Option String
  function : Option String
  stats : Bool
  literalWidth : Nat
  nearWindow : Option Nat

namespace Arguments

def none : Arguments := ⟨.none, .none, .none, .none, false, defaultLiteralWidth, .none⟩

/-- Options one after another; the one word that belongs to none is the input file. -/
def read (a : Arguments) : List String → Option Arguments
  | [] => some a
  | "--source" :: v :: rest => read { a with source := some v } rest
  | "-s" :: v :: rest => read { a with source := some v } rest
  | "--format" :: v :: rest => read { a with format := some v } rest
  | "-f" :: v :: rest => read { a with format := some v } rest
  | "--function" :: v :: rest => read { a with function := some v } rest
  | "--stats" :: rest => read { a with stats := true } rest
  | "--literal-width" :: v :: rest => do read { a with literalWidth := ← v.toNat? } rest
  | "--near-window" :: v :: rest => do read { a with nearWindow := some (← v.toNat?) } rest
  | v :: rest =>
    if a.input.isNone && v.toList.head? ≠ some '-' then read { a with input := some v } rest
    else .none

end Arguments

/-- The contents of a file, or why it could not be read. -/
def readInput (path : String) : IO (Except Fault Bytes) := do
  try
    return .ok (← IO.FS.readBinFile path).toList
  catch _ =>
    return .error (.unreadable (path ++ ": No such file or directory (os error 2)"))

def readSource : Option String → IO SourceFile
  | none => return .notGiven
  | some path => do
    match ← readInput path with
    | .ok bytes => return .contents bytes
    | .error _ => return .unreadable

/-- What the options of a command ask for. -/
def commandOf (word : String) (a : Arguments) (source : SourceFile) : Option Command :=
  match word with
  | "info" => some .info
  | "disasm" =>
    let request (yaml : Bool) : Command :=
      .disassemble ⟨source, yaml, a.function, a.stats, ⟨a.literalWidth, a.nearWindow⟩⟩
    match a.format.getD "text" with
    | "text" => some (request false)
    | "yaml" => some (request true)
    | _ => none
  | "callgraph" =>
    match a.format.getD "dot" with
    | "dot" => some (.callGraph false)
    | "yaml" => some (.callGraph true)
    | _ => none
  | _ => none

def usage : String := "Usage: beamscope <info|disasm|callgraph> [OPTIONS] <INPUT>"

def runProgram (args : List String) : IO UInt32 := do
  let word := args.headD ""
  match Arguments.none.read (args.drop 1) with
  | some a =>
    match a.input, commandOf word a (← readSource a.source) with
    | some path, some command =>
      let outcome := command.run (← readInput path)
      IO.print outcome.stdout
      IO.eprint outcome.stderr
      return UInt32.ofNat outcome.exit
    | _, _ =>
      IO.eprintln usage
      return 2
  | none =>
    IO.eprintln usage
    return 2

end BeamScope

def main (args : List String) : IO UInt32 := BeamScope.runProgram args
