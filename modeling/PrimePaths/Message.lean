import PrimePaths.Crash
import PrimePaths.Json

namespace PrimePaths

inductive Message
  /-- A line for a reader; it goes aside when the standard output is kept for a document. -/
  | line (text : String)
  /-- A line about an error. -/
  | complaint (text : String)
  /-- Text that is always for the standard output. -/
  | help (text : String)
  /-- Text that is always for the error output. -/
  | usage (text : String)
  /-- The trace of a failure that the run goes on from. -/
  | trace (crash : Crash)
  | document (j : Json)
  deriving Repr

structure Streams where
  out : String := ""
  err : String := ""
  deriving DecidableEq, Repr

namespace Streams

/-- Adds a message; `keep` says whether the standard output is kept for documents, and `traceText` how a
failure is traced. -/
def add (keep : Bool) (traceText : Crash → String) (s : Streams) : Message → Streams
  | .line text =>
    if keep then { s with err := s.err ++ text ++ "\n" } else { s with out := s.out ++ text ++ "\n" }
  | .complaint text => { s with err := s.err ++ text ++ "\n" }
  | .help text => { s with out := s.out ++ text }
  | .usage text => { s with err := s.err ++ text }
  | .trace crash => { s with err := s.err ++ traceText crash }
  | .document j => { s with out := s.out ++ j.text ++ "\n" }

def ofMessages (keep : Bool) (traceText : Crash → String) (ms : List Message) : Streams :=
  ms.foldl (add keep traceText) {}

end Streams

end PrimePaths
