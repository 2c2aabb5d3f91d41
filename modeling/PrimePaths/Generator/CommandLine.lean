import PrimePaths.Generator.Basic
import PrimePaths.Listing.Line
import PrimePaths.Number.Reading

namespace PrimePaths.Generator

/-- What a command line asks to be written, and where. -/
structure Job where
  shape : Shape
  seed : Int := 0
  file : String
  deriving DecidableEq, Repr

inductive Refusal
  | argumentCount
  | blocksNotWhole
  | noBlocks
  | extraEdges
  | seed
  | deadBlocks
  deriving DecidableEq, Repr

def Refusal.message : Refusal → String
  | argumentCount =>
    "Usage: python generate.py <num_blocks> <file_name> [extra_edges] [seed] [dead_blocks]"
  | blocksNotWhole => "Error: <num_blocks> must be a positive whole number."
  | noBlocks => "Error: Number of blocks must be at least 1."
  | extraEdges => "Error: [extra_edges] must be a non-negative whole number."
  | seed => "Error: [seed] must be a whole number."
  | deadBlocks => "Error: [dead_blocks] must be a non-negative whole number."

namespace Job

/-- A whole number, or the refusal if there is none. -/
def whole (r : Refusal) (text : String) : Except Refusal Int :=
  match readInt? text with
  | some i => .ok i
  | none => .error r

/-- A whole number that is not negative. -/
def natural (r : Refusal) (text : String) : Except Refusal Int := do
  let i ← whole r text
  if i < 0 then .error r else .ok i

def blockCount (text : String) : Except Refusal Int := do
  let n ← whole .blocksNotWhole text
  if n < 1 then .error .noBlocks else .ok n

def optional (text? : Option String) (read : String → Except Refusal Int) (absent : Int) :
    Except Refusal Int :=
  match text? with
  | some text => read text
  | none => .ok absent

/-- Reads the arguments from left to right. As many extra edges as blocks are taken if none are given. -/
def ofArguments : List String → Except Refusal Job
  | blocksText :: file :: rest =>
    if 3 < rest.length then .error .argumentCount
    else do
      let blocks ← blockCount blocksText
      let extraEdges ← optional rest[0]? (natural .extraEdges) blocks
      let seed ← optional rest[1]? (whole .seed) 0
      let deadBlocks ← optional rest[2]? (natural .deadBlocks) 0
      return { shape := { blocks, extraEdges, deadBlocks }, seed, file }
  | _ => .error .argumentCount

end Job

inductive Failure
  | refused (r : Refusal)
  | misshapen (e : ShapeError)
  deriving DecidableEq, Repr

structure Output where
  file : String
  text : String
  deriving DecidableEq, Repr

/-- The listing that the arguments ask for; its one unit is named for how it came about. -/
def output (argv : List String) : Except Failure Output :=
  match Job.ofArguments argv with
  | .error r => .error (.refused r)
  | .ok job =>
    match seeded job.shape job.seed with
    | .error e => .error (.misshapen e)
    | .ok bs => .ok { file := job.file, text := Listing.write [("generated", bs)] }

def program (argv : List String) : IO UInt32 := do
  match output argv with
  | .error (.refused r) => do
    IO.println r.message
    return 1
  | .error (.misshapen e) => do
    IO.eprintln e.message
    return 1
  | .ok o => do
    IO.FS.writeFile o.file o.text
    return 0

end PrimePaths.Generator
