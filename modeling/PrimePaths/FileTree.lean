import PrimePaths.Crash

namespace PrimePaths.FileName

/-- The parts between slashes, empty ones included. -/
def parts (name : String) : List String :=
  name.splitOn "/"

/-- The part after the last slash. -/
def base (name : String) : String :=
  (parts name).getLastD ""

/-- The last part without its ending; dots in front start no ending. -/
def stem (name : String) : String :=
  let cs := (base name).toList
  let ending := (cs.reverse.takeWhile (· != '.')).length
  let before := cs.take (cs.length - (ending + 1))
  if ending < cs.length && before.any (· != '.') then String.ofList before else String.ofList cs

/-- Goes on from a place, given by parts, to the next part of a name; above the root there is the root. -/
def goOn (place : List String) (part : String) : List String :=
  if part = "" ∨ part = "." then place
  else if part = ".." then place.dropLast
  else place ++ [part]

/-- The place that a name means in a working directory. -/
def absolute (directory : List String) (name : String) : List String :=
  (parts name).foldl goOn (if name.startsWith "/" then [] else directory)

/-- The way from one place to another: up from what they do not share, then down. -/
def way : List String → List String → List String
  | p :: start, q :: place =>
    if p = q then way start place else (p :: start).map (fun _ => "..") ++ q :: place
  | start, place => start.map (fun _ => "..") ++ place

theorem foldl_goOn_up (base start : List String) :
    (start.map fun _ => "..").foldl goOn (base ++ start) = base := by
  have hup (place : List String) : goOn place ".." = place.dropLast := rfl
  obtain ⟨count, hcount⟩ : ∃ count, start.length = count := ⟨_, rfl⟩
  induction count generalizing start with
  | zero => simp [List.eq_nil_of_length_eq_zero hcount]
  | succ count ih =>
    have hsome : start ≠ [] := by
      rintro rfl
      cases hcount
    have hlast : (start.dropLast).length = count := by simp [hcount]
    rw [List.map_const', hcount, List.replicate_succ, List.foldl_cons, hup,
      List.dropLast_append_of_ne_nil hsome, ← hlast, ← List.map_const']
    exact ih start.dropLast hlast

/-- Parts that name places lead down to them. -/
theorem foldl_goOn_down (base : List String) {place : List String}
    (h : ∀ part ∈ place, part ∉ ["", ".", ".."]) : place.foldl goOn base = base ++ place := by
  induction place generalizing base with
  | nil => simp
  | cons part place ih =>
    have hpart := h part List.mem_cons_self
    simp only [List.mem_cons, List.not_mem_nil, or_false, not_or] at hpart
    rw [List.foldl_cons, ih _ fun q hq => h q (List.mem_cons_of_mem part hq), goOn, if_neg (by simp [hpart]),
      if_neg hpart.2.2, List.append_assoc]
    rfl

/-- Who goes the way from one place to another comes to the other one. -/
theorem foldl_goOn_way (base start : List String) {place : List String}
    (h : ∀ part ∈ place, part ∉ ["", ".", ".."]) :
    (way start place).foldl goOn (base ++ start) = base ++ place := by
  fun_induction way start place generalizing base with
  | case1 start q place ih =>
    have hrest := ih (base ++ [q]) fun r hr => h r (List.mem_cons_of_mem q hr)
    rwa [List.append_assoc, List.append_assoc] at hrest
  | case2 p start q place _ => rw [List.foldl_append, foldl_goOn_up, foldl_goOn_down base h]
  | case3 start place _ => rw [List.foldl_append, foldl_goOn_up, foldl_goOn_down base h]

/-- The name as seen from the working directory, with slashes only; the empty name stays. -/
def relative (directory : List String) (name : String) : String :=
  if name = "" then ""
  else
    let ps := way directory (absolute directory name)
    let shown := if ps.isEmpty then "." else "/".intercalate ps
    String.ofList (shown.toList.map fun c => if c = '\\' then '/' else c)

end PrimePaths.FileName

namespace PrimePaths

inductive FileNode
  | directory
  | file (bytes : ByteArray)

/-- The places below the working directory, each under the parts of its name. -/
structure FileTree where
  places : List (List String × FileNode) := []

namespace FileTree

/-- The place at which the names begin that do not start in the working directory. -/
def root : List String := ["/"]

/-- The working directory and the directories above it, which are there always. -/
def isAbove (place : List String) : Bool :=
  place.all (· == "..") || place == root

def node? (t : FileTree) (place : List String) : Option FileNode :=
  if isAbove place then some .directory else t.places.lookup place

/-- Puts a node at a place in place of what was there. -/
def put (t : FileTree) (place : List String) (node : FileNode) : FileTree :=
  if (t.node? place).isSome then
    { places := t.places.map fun (p, old) => if p = place then (p, node) else (p, old) }
  else { places := t.places ++ [(place, node)] }

/-- Puts a node and the directories above it. -/
def add (t : FileTree) (place : List String) (node : FileNode) : FileTree :=
  let above := (List.range place.length).map place.take
  let t := above.foldl (fun t p => if (t.node? p).isSome then t else t.put p .directory) t
  t.put place node

/-- The most bytes that a part of a name, and a whole name, may have. -/
def maxPart : Nat := 255

def maxName : Nat := 4095

def parent (place : List String) : List String :=
  if place == root then root
  else if isAbove place then place ++ [".."]
  else place.dropLast

/-- Goes from a place to the next part of a name. -/
def enter (t : FileTree) (place : List String) (part : String) : Except Crash (List String) :=
  match t.node? place with
  | none => .error .noFile
  | some (.file _) => .error .notADirectory
  | some .directory =>
    if part = "" ∨ part = "." then .ok place
    else if part = ".." then .ok (parent place)
    else if maxPart < part.utf8ByteSize then .error .nameTooLong
    else .ok (place ++ [part])

/-- Goes along parts of a name from where the name begins. -/
def follow (t : FileTree) (name : String) (parts : List String) : Except Crash (List String) :=
  if name.toList.contains '\x00' then .error .nullInName
  else if name = "" then .error .noFile
  else if maxName < name.utf8ByteSize then .error .nameTooLong
  else parts.foldlM t.enter (if name.startsWith "/" then root else [])

/-- The place of a name; all of its parts but the last one have to be directories. -/
def place (t : FileTree) (name : String) : Except Crash (List String) :=
  t.follow name (FileName.parts name)

def read (t : FileTree) (name : String) : Except Crash ByteArray := do
  let place ← t.place name
  match t.node? place with
  | none => .error .noFile
  | some .directory => .error .isDirectory
  | some (.file bytes) => .ok bytes

/-- Writes a file, new or in place of another one. A name with a slash at its end is one of a directory,
whatever is there, if the directory above it is there. -/
def write (t : FileTree) (name : String) (bytes : ByteArray) : Except Crash FileTree := do
  if name.endsWith "/" then
    let above := ((FileName.parts name).filter (· != "")).dropLast
    let _ ← t.follow name (above ++ ["."])
    .error .isDirectory
  else
    let place ← t.place name
    match t.node? place with
    | some .directory => .error .isDirectory
    | _ => .ok (t.put place (.file bytes))

end FileTree

end PrimePaths
