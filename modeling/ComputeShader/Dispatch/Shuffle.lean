/-! # Seeded permutations

A permutation drawn from a 64-bit seed. The seed is stretched to a key, the key drives a ChaCha
stream of twelve rounds, and the stream shuffles a list by swapping each position, from the last one
down, with a position drawn uniformly among those up to it.
-/

namespace ComputeShader.Shuffle

/-- Stretch a seed: one step of a linear congruential generator, its upper bits mixed into a word. -/
def keyStep (state : UInt64) : UInt64 × UInt32 :=
  let state := state * 6364136223846793005 + 11634580027462260723
  let mixed := (((state >>> 18) ^^^ state) >>> 27).toUInt32
  let turn := (state >>> 59).toUInt32
  (state, (mixed >>> turn) ||| (mixed <<< ((32 - turn) % 32)))

/-- The first `count` words of the key for a seed. -/
def keyWords : Nat → UInt64 → List UInt32
  | 0, _ => []
  | count + 1, state =>
    let (state, word) := keyStep state
    word :: keyWords count state

/-! ## The stream -/

def rotateLeft (w : UInt32) (n : UInt32) : UInt32 := (w <<< n) ||| (w >>> (32 - n))

/-- One quarter round on four positions of a block. -/
def quarterRound (block : Array UInt32) (a b c d : Nat) : Array UInt32 :=
  let get (block : Array UInt32) (i : Nat) : UInt32 := block.getD i 0
  let mix (block : Array UInt32) (x y z : Nat) (turn : UInt32) : Array UInt32 :=
    let sum := get block x + get block y
    let block := block.setIfInBounds x sum
    block.setIfInBounds z (rotateLeft (get block z ^^^ sum) turn)
  mix (mix (mix (mix block a b d 16) c d b 12) a b d 8) c d b 7

/-- A round on the columns and a round on the diagonals. -/
def doubleRound (block : Array UInt32) : Array UInt32 :=
  [(0, 4, 8, 12), (1, 5, 9, 13), (2, 6, 10, 14), (3, 7, 11, 15),
    (0, 5, 10, 15), (1, 6, 11, 12), (2, 7, 8, 13), (3, 4, 9, 14)].foldl
    (fun block (a, b, c, d) => quarterRound block a b c d) block

/-- The words in front of the key. -/
def constants : List UInt32 := [0x61707865, 0x3320646e, 0x79622d32, 0x6b206574]

/-- The sixteen words of the stream's block with a given number. -/
def block (key : List UInt32) (number : Nat) : List UInt32 :=
  let input := (constants ++ key ++
    [UInt32.ofNat number, UInt32.ofNat (number / 4294967296), 0, 0]).toArray
  let mixed := (List.range 6).foldl (fun b _ => doubleRound b) input
  (input.toList.zip mixed.toList).map fun (a, b) => a + b

/-- A stream: the words still to be handed out, and the number of the next block. -/
structure Stream where
  key : List UInt32
  ready : List UInt32
  next : Nat
  deriving Repr

def Stream.ofSeed (seed : UInt64) : Stream := ⟨keyWords 8 seed, [], 0⟩

/-- The next word of a stream. -/
def Stream.draw (s : Stream) : UInt32 × Stream :=
  match s.ready with
  | w :: rest => (w, { s with ready := rest })
  | [] =>
    let words := block s.key s.next
    (words.headD 0, { s with ready := words.drop 1, next := s.next + 1 })

/-! ## The permutation -/

/-- Draw a number below `range` without bias: words whose product with the range falls past the
last whole multiple are drawn again. Each draw is accepted with probability at least one half. -/
def below (range : UInt32) : Nat → Stream → Nat × Stream
  | 0, s => (0, s)
  | fuel + 1, s =>
    let zone := (range <<< UInt32.ofNat (31 - range.toNat.log2)) - 1
    let (w, s) := s.draw
    let product := w.toNat * range.toNat
    if product % 4294967296 ≤ zone.toNat then (product / 4294967296, s) else below range fuel s

/-- Swap each position from `i` down with one drawn among those up to it. -/
def swapDown {α : Type} : Nat → Stream → Array α → Array α
  | 0, _, items => items
  | i + 1, s, items =>
    let (j, s) := below (UInt32.ofNat (i + 2)) 4096 s
    swapDown i s (items.swapIfInBounds (i + 1) j)

/-- The permutation of a list that a seed gives. -/
def shuffled {α : Type} (seed : UInt64) (items : List α) : List α :=
  (swapDown (items.length - 1) (Stream.ofSeed seed) items.toArray).toList

end ComputeShader.Shuffle
