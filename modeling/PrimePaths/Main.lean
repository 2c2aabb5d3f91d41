import PrimePaths.CommandLine.Account
import PrimePaths.FileTree
import Std.Time.DateTime

namespace PrimePaths

def crashOf : IO.Error → Crash
  | .noFileOrDirectory .. => .noFile
  | .inappropriateType .. => .isDirectory
  | .invalidArgument .. => .nameTooLong
  | .noSuchThing .. => .notADirectory
  | _ => .noFile

/-- The bytes of a file, or why they cannot be read. -/
def readBytes (name : String) : IO (Except Crash ByteArray) := do
  if name.toList.contains '\x00' then return .error .nullInName
  try
    return .ok (← IO.FS.readBinFile name)
  catch e =>
    return .error (crashOf e)

/-- The first word of a file that describes the machine. -/
def firstWord (name : String) : IO String := do
  match ← readBytes name with
  | .ok bytes =>
    let text := (Text.decode bytes).toOption.getD ""
    return String.ofList (text.toList.takeWhile fun c => !c.isWhitespace)
  | .error _ => return ""

def currentTime : IO Timestamp := do
  let now ← Std.Time.Timestamp.now
  let t := Std.Time.PlainDateTime.ofWallTime (now.toWallTime Std.Time.TimeZone.Offset.zero)
  return {
    year := t.date.year.toInt.toNat
    month := t.date.month.val.toNat
    day := t.date.day.val.toNat
    hour := t.time.hour.val.toNat
    minute := t.time.minute.val.toNat
    second := t.time.second.val.toNat
    microsecond := t.time.nanosecond.val.toNat / 1000 }

def systemClocks : Clocks IO where
  seconds := do
    let t ← IO.monoNanosNow
    return .ok (.floating ((Binary64.ofInt t).divNat Elapsed.perSecond))
  nanoseconds := do
    let t ← IO.monoNanosNow
    return .ok t
  today := return .ok (← currentTime)

/-- The file whose first line states the version. -/
def versionFile : String := "VERSION"

/-- The way in which the program reads its command line. -/
def dialect : CommandLine.Dialect := .later

def filesFor (argv : List String) : IO (String → Except Crash ByteArray) := do
  let version ← readBytes versionFile
  match CommandLine.Arguments.ofCommandLine dialect argv with
  | .error _ => return fun _ => version
  | .ok a =>
    let input ← readBytes a.filename
    return fun name => if name = a.filename then input else version

def currentPlace : IO CommandLine.Place := do
  return {
    directory := FileName.absolute [] (← IO.currentDir).toString
    process := ((← firstWord "/proc/self/stat").toNat?).getD 0
    host := ← firstWord "/proc/sys/kernel/hostname"
    platform := ← firstWord "/proc/sys/kernel/osrelease" }

def traceLine (c : Crash) : String :=
  s!"{c.kind}: " ++ c.message?.getD "" ++ "\n"

end PrimePaths

open PrimePaths in
def main (argv : List String) : IO UInt32 := do
  let w : CommandLine.Surroundings IO := {
    clocks := systemClocks
    read := ← filesFor argv
    place := ← currentPlace
    sourceFile := versionFile
    dialect }
  let t ← CommandLine.run w argv
  let streams := t.streams traceLine
  (← IO.getStdout).putStr streams.out
  (← IO.getStderr).putStr streams.err
  match t.ending with
  | .exit code | .stopped code => return code.toNat.toUInt32
  | .interrupted => return 130
  | .crashed c => do
    (← IO.getStderr).putStr (traceLine c)
    return 1
