namespace PrimePaths

/-- The state of the Mersenne Twister with 32-bit words: its words, and which of them comes next. -/
structure Twister where
  words : Array UInt32
  position : Nat
  deriving DecidableEq, Repr

namespace Twister

def size : Nat := 624

/-- How far ahead the word lies that is mixed into a new one. -/
def shift : Nat := 397

def word (words : Array UInt32) (i : Nat) : UInt32 :=
  words.getD i 0

/-- A word whose highest two bits also change its lowest two. -/
def folded (w : UInt32) : UInt32 :=
  w ^^^ (w >>> 30)

def ofWord (seed : UInt32) : Array UInt32 :=
  (List.range (size - 1)).foldl (fun (ws : Array UInt32) i =>
    ws.push (1812433253 * folded (word ws i) + UInt32.ofNat (i + 1))) #[seed]

/-- Goes on to the next place of a state whose first place takes over from the last one. -/
def wrap (words : Array UInt32) (i : Nat) : Array UInt32 × Nat :=
  if size ≤ i + 1 then (words.set! 0 (word words (size - 1)), 1) else (words, i + 1)

/-- Mixes a word with the one before it: multiplies by `factor`, then adds `term`. -/
def mix (factor term : UInt32) (words : Array UInt32) (i : Nat) : Array UInt32 × Nat :=
  let w := (word words i ^^^ (folded (word words (i - 1)) * factor)) + term
  wrap (words.set! i w) i

/-- The state that a key of several words spreads to. -/
def ofKey (key : Array UInt32) : Twister :=
  let keyed := (List.range (max size key.size)).foldl (fun ((ws, i) : Array UInt32 × Nat) k =>
    let j := k % key.size
    mix 1664525 (word key j + UInt32.ofNat j) ws i) (ofWord 19650218, 1)
  let mixed := (List.range (size - 1)).foldl (fun ((ws, i) : Array UInt32 × Nat) _ =>
    mix 1566083941 (0 - UInt32.ofNat i) ws i) keyed
  { words := mixed.1.set! 0 0x80000000, position := size }

/-- The words of a number, the lowest one first. -/
def wordsOf (n : Nat) : List UInt32 :=
  if n < UInt32.size then [UInt32.ofNat n] else UInt32.ofNat n :: wordsOf (n / UInt32.size)
termination_by n
decreasing_by
  simp only [UInt32.size] at *
  omega

/-- The state of a seed; its sign does not count. -/
def ofSeed (seed : Int) : Twister :=
  ofKey (wordsOf seed.natAbs).toArray

/-- The word that follows in place of an old one: one bit of it and the rest of its neighbour, shifted,
mixed with the word further ahead. -/
def twisted (words : Array UInt32) (i : Nat) : UInt32 :=
  let y := (word words i &&& 0x80000000) ||| (word words ((i + 1) % size) &&& 0x7fffffff)
  let mixed := word words ((i + shift) % size) ^^^ (y >>> 1)
  if y &&& 1 = 0 then mixed else mixed ^^^ 0x9908b0df

/-- New words in place of all old ones. -/
def renew (words : Array UInt32) : Array UInt32 :=
  (List.range size).foldl (fun ws i => let w := twisted ws i; ws.set! i w) words

def temper (w : UInt32) : UInt32 :=
  let w := w ^^^ (w >>> 11)
  let w := w ^^^ ((w <<< 7) &&& 0x9d2c5680)
  let w := w ^^^ ((w <<< 15) &&& 0xefc60000)
  w ^^^ (w >>> 18)

def next (t : Twister) : UInt32 × Twister :=
  let t := if size ≤ t.position then { words := renew t.words, position := 0 } else t
  (temper (word t.words t.position), { t with position := t.position + 1 })

/-- A number of `k` bits, from as many words as that takes. -/
def bits (k : Nat) (t : Twister) : Nat × Twister :=
  if k ≤ 32 then
    let (w, t) := t.next
    (w.toNat >>> (32 - k), t)
  else
    let (low, t) := t.next
    let (high, t) := bits (k - 32) t
    (low.toNat + UInt32.size * high, t)
termination_by k

end Twister

structure Chooser (σ : Type) where
  /-- A number below a positive bound. -/
  below : Nat → σ → Nat × σ
  /-- So many different places below a bound. -/
  sample : (bound count : Nat) → σ → List Nat × σ

namespace Twister

/-- How many draws may be refused in a row; each is refused less often than not. -/
def patience : Nat := 10000

/-- Draws numbers of `k` bits until one is accepted; in the end the last one is made to fit by `settle`. -/
def drawUntil (k : Nat) (accept : Nat → Bool) (settle : Nat → Nat) : Nat → Twister → Nat × Twister
  | 0, t =>
    let (x, t) := t.bits k
    (settle x, t)
  | tries + 1, t =>
    let (x, t) := t.bits k
    if accept x then (x, t) else drawUntil k accept settle tries t

/-- A number below a positive bound, drawn with no more bits than the bound has. -/
def below (n : Nat) (t : Twister) : Nat × Twister :=
  drawUntil (n.log2 + 1) (· < n) (· % n) patience t

/-- The next place that is not taken yet, drawn anew while it is. -/
def fresh (n : Nat) (taken : List Nat) : Nat → Twister → Nat × Twister
  | 0, t => (((List.range n).find? fun i => !taken.contains i).getD 0, t)
  | tries + 1, t =>
    let (j, t) := t.below n
    if taken.contains j then fresh n taken tries t else (j, t)

/-- Draws places one after the other that are not taken; the last one drawn comes first. -/
def sampleFresh (n : Nat) : Nat → List Nat → Twister → List Nat × Twister
  | 0, taken, t => (taken, t)
  | k + 1, taken, t =>
    let (j, t) := fresh n taken patience t
    sampleFresh n k (j :: taken) t

/-- Draws from a pool; the last one of the pool fills the gap. -/
def samplePool : Nat → Array Nat → Twister → List Nat × Twister
  | 0, _, t => ([], t)
  | k + 1, pool, t =>
    let (j, t) := t.below pool.size
    let chosen := pool.getD j 0
    let pool := (pool.set! j (pool.getD (pool.size - 1) 0)).pop
    let (rest, t) := samplePool k pool t
    (chosen :: rest, t)

/-- Up to which size a population becomes a pool: 21, and for more than five draws also the least power of
four that is no less than three times their number. -/
def poolLimit (count : Nat) : Nat :=
  if count ≤ 5 then 21 else 21 + Nat.pow 4 (((3 * count - 1).log2 + 2) / 2)

def sample (n count : Nat) (t : Twister) : List Nat × Twister :=
  if n ≤ poolLimit count then samplePool count (Array.range n) t
  else
    let (taken, t) := sampleFresh n count [] t
    (taken.reverse, t)

end Twister

def Chooser.twister : Chooser Twister where
  below := Twister.below
  sample := Twister.sample

end PrimePaths
