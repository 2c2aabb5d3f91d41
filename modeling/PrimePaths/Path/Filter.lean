import PrimePaths.Crash
import PrimePaths.Path.Basic
import PrimePaths.Text.Quoted
import Std.Data.HashSet

namespace PrimePaths

namespace Path

/-- The places where the non-empty slices of a path of `n` nodes start and end. -/
def bounds (n : Nat) : List (Nat × Nat) :=
  (List.range n).flatMap fun i => (List.range' (i + 1) (n - i)).map fun j => (i, j)

def slices (p : Path) : List Path :=
  (bounds p.length).map fun (i, j) => p.slice i j

/-- The slices that are shorter than the path. -/
def properSlices (p : Path) : List Path :=
  ((bounds p.length).filter fun (i, j) => j - i < p.length).map fun (i, j) => p.slice i j

end Path

abbrev SliceIndex := Std.HashSet Path

namespace SliceIndex

def ofPaths (paths : List Path) : SliceIndex :=
  paths.foldl (fun index p => index.insertMany p.slices) ∅

def ofProper (paths : List Path) : SliceIndex :=
  paths.foldl (fun index p => index.insertMany p.properSlices) ∅

end SliceIndex

open PrimePaths.Path

/-- How the prime paths are found: by a scan of all pairs, or by a look-up in an index of slices. -/
inductive Strategy
  | quadratic
  | indexed
  deriving DecidableEq, Repr

namespace Strategy

def name : Strategy → String
  | quadratic => "quadratic"
  | indexed => "indexed"

def ofName (name : String) : Except Crash Strategy :=
  if name = quadratic.name then .ok quadratic
  else if name = indexed.name then .ok indexed
  else .error (.unknownStrategy (Text.quoted name))

theorem ofName_eq_ok_iff {name : String} {s : Strategy} : ofName name = .ok s ↔ s.name = name := by
  constructor
  · intro h
    unfold ofName at h
    split at h
    · rename_i hname
      obtain rfl := Except.ok.inj h
      exact hname.symm
    · split at h
      · rename_i hname
        obtain rfl := Except.ok.inj h
        exact hname.symm
      · cases h
  · intro h
    rw [← h]
    cases s <;> rfl

/-- The strategy that a result is compared with. -/
def other : Strategy → Strategy
  | quadratic => indexed
  | indexed => quadratic

end Strategy

/-- No path of the list is longer than `p` and contains it. -/
def isPrime (p : Path) (paths : List Path) : Bool :=
  paths.all fun q => !(p.length < q.length && isProperSubpath p q)

/-- The prime paths of a list, in the order of the list. -/
def primePaths : Strategy → List Path → List Path
  | .quadratic, paths => paths.filter fun p => isPrime p paths
  | .indexed, paths =>
    let index := SliceIndex.ofProper paths
    paths.filter fun p => !index.contains p

/-- The prime paths of a list by the strategy of a name. -/
def primePathsBy (name : String) (paths : List Path) : Except Crash (List Path) :=
  (Strategy.ofName name).map fun s => primePaths s paths

/-- Only the names of the strategies are known. -/
theorem primePathsBy_eq_ok_iff {name : String} {paths primes : List Path} :
    primePathsBy name paths = .ok primes ↔ ∃ s : Strategy, s.name = name ∧ primePaths s paths = primes := by
  rw [primePathsBy]
  constructor
  · intro h
    cases hname : Strategy.ofName name with
    | error c =>
      rw [hname] at h
      cases h
    | ok s =>
      rw [hname] at h
      exact ⟨s, Strategy.ofName_eq_ok_iff.mp hname, Except.ok.inj h⟩
  · intro ⟨s, hname, hprimes⟩
    rw [Strategy.ofName_eq_ok_iff.mpr hname, ← hprimes]
    rfl

/-- The paths met so far and the first occurrence of each. -/
structure Distinct where
  seen : Std.HashSet Path := ∅
  kept : Array Path := #[]

def Distinct.add (d : Distinct) (p : Path) : Distinct :=
  if d.seen.contains p then d else { seen := d.seen.insert p, kept := d.kept.push p }

/-- The first occurrence of each path, in the order of the list. -/
def distinctPaths (paths : List Path) : List Path :=
  (paths.foldl Distinct.add {}).kept.toList

end PrimePaths

namespace PrimePaths

/-- The paths that speak against a claimed list of prime paths. -/
structure Findings where
  invented : List Path
  notMaximal : List Path
  uncovered : List Path
  deriving DecidableEq, Repr

/-- What a check of prime paths holds against them. -/
inductive Complaint
  | invented
  | notMaximal
  | uncovered
  deriving DecidableEq, Repr

namespace Complaint

def text : Complaint → String
  | invented => "prime path not among enumerated paths"
  | notMaximal => "prime path is a proper subpath of another path"
  | uncovered => "enumerated path not covered by any prime path"

end Complaint

namespace Findings

def complaint? (f : Findings) : Option Complaint :=
  if !f.invented.isEmpty then some .invented
  else if !f.notMaximal.isEmpty then some .notMaximal
  else if !f.uncovered.isEmpty then some .uncovered
  else none

/-- Nothing was found. -/
def pass (f : Findings) : Bool :=
  f.complaint?.isNone

end Findings

/-- Compares claimed prime paths with the paths. -/
def confirmPrimes (paths primes : List Path) : Findings :=
  let listed := Std.HashSet.ofList paths
  let contained := SliceIndex.ofProper paths
  let covered := SliceIndex.ofPaths primes
  { invented := primes.filter fun p => !listed.contains p
    notMaximal := primes.filter fun p => contained.contains p
    uncovered := (distinctPaths paths).filter fun p => !covered.contains p }

end PrimePaths
