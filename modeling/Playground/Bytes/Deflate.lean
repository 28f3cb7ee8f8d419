import Playground.Bytes.Octets

/-!
# The deflate format

`store` writes a byte string as stored blocks.  `inflate` reads any deflate stream: stored blocks
and blocks with fixed or dynamic Huffman codes.  A stream is read as a list of bits, the lowest
bit of each octet first; every step takes bits off its front.
-/

namespace Playground.Bytes.Deflate

/-! ### Writing -/

/-- The greatest number of octets of a stored block. -/
def storedLimit : Nat := 65535

/-- One stored block. -/
def storedBlock (last : Bool) (xs : List UInt8) : List UInt8 :=
  (if last then 1 else 0) :: littleEndian 2 xs.length ++ littleEndian 2 (storedLimit - xs.length)
    ++ xs

/-- The stored blocks of some octets, at most `count` of them. -/
def storedBlocks : (count : Nat) → List UInt8 → List UInt8
  | 0, xs => storedBlock true xs
  | count + 1, xs =>
    if xs.length ≤ storedLimit then storedBlock true xs
    else storedBlock false (xs.take storedLimit) ++ storedBlocks count (xs.drop storedLimit)

/-- A byte string as a deflate stream of stored blocks. -/
def store (b : ByteArray) : ByteArray :=
  ofOctets (storedBlocks (b.size / storedLimit) (octets b))

/-! ### Reading -/

def octetBits (x : UInt8) : List Bool := (List.range 8).map fun i => x.toNat.testBit i

def bits (xs : List UInt8) : List Bool := xs.flatMap octetBits

/-- The number in the next `n` bits, the lowest first. -/
def take : (n : Nat) → List Bool → Option (Nat × List Bool)
  | 0, bs => some (0, bs)
  | _ + 1, [] => none
  | n + 1, b :: bs => (take n bs).map fun (high, rest) => (b.toNat + 2 * high, rest)

/-- A canonical Huffman code: how many code words there are of each length from one on, and the
symbols in the order of their code words. -/
structure Code where
  counts : List Nat
  symbols : Array Nat

/-- The code in which symbol `i` has the length `lengths[i]`, zero meaning that it has no word. -/
def Code.ofLengths (lengths : List Nat) : Code :=
  let words := (List.range 15).map fun l =>
    lengths.zipIdx.filterMap fun (length, symbol) => if length = l + 1 then some symbol else none
  ⟨words.map List.length, words.flatten.toArray⟩

/-- The symbol of the code word that the bits start with.  `word` is the word read so far, `first`
the first word of the current length and `index` the place of that word's symbol. -/
def symbolFrom (symbols : Array Nat) :
    (counts : List Nat) → (word first index : Nat) → List Bool → Option (Nat × List Bool)
  | count :: counts, word, first, index, b :: bs =>
    let word := word + b.toNat
    if word < first + count then (symbols[index + (word - first)]?).map (·, bs)
    else symbolFrom symbols counts (2 * word) (2 * (first + count)) (index + count) bs
  | _, _, _, _, _ => none

/-- The next symbol. -/
def Code.next (code : Code) (bs : List Bool) : Option (Nat × List Bool) :=
  symbolFrom code.symbols code.counts 0 0 0 bs

def fixedLiterals : Code :=
  .ofLengths (List.replicate 144 8 ++ List.replicate 112 9 ++ List.replicate 24 7
    ++ List.replicate 8 8)

def fixedDistances : Code := .ofLengths (List.replicate 30 5)

/-- The least length and the number of extra bits of the symbols from 257 on. -/
def lengthRows : Array (Nat × Nat) := #[
  (3, 0), (4, 0), (5, 0), (6, 0), (7, 0), (8, 0), (9, 0), (10, 0), (11, 1), (13, 1), (15, 1),
  (17, 1), (19, 2), (23, 2), (27, 2), (31, 2), (35, 3), (43, 3), (51, 3), (59, 3), (67, 4),
  (83, 4), (99, 4), (115, 4), (131, 5), (163, 5), (195, 5), (227, 5), (258, 0)]

/-- The least distance and the number of extra bits of each distance symbol. -/
def distanceRows : Array (Nat × Nat) := #[
  (1, 0), (2, 0), (3, 0), (4, 0), (5, 1), (7, 1), (9, 2), (13, 2), (17, 3), (25, 3), (33, 4),
  (49, 4), (65, 5), (97, 5), (129, 6), (193, 6), (257, 7), (385, 7), (513, 8), (769, 8),
  (1025, 9), (1537, 9), (2049, 10), (3073, 10), (4097, 11), (6145, 11), (8193, 12), (12289, 12),
  (16385, 13), (24577, 13)]

/-- The number that a row and its extra bits give. -/
def extended (rows : Array (Nat × Nat)) (row : Nat) (bs : List Bool) :
    Option (Nat × List Bool) := do
  let (least, extra) ← rows[row]?
  let (n, bs) ← take extra bs
  return (least + n, bs)

/-- The output with `count` octets repeated from `distance` octets back. -/
def repeated (out : ByteArray) (distance count : Nat) : ByteArray :=
  (List.range count).foldl (fun out _ => out.push (out[out.size - distance]?.getD 0)) out

/-- Where reading stands: the output so far and the bits that are left. -/
abbrev Progress := ByteArray × List Bool

/-- The symbols of a compressed block up to its end, at most `steps` of them.  A failure keeps
the output before it. -/
def symbols (literals distances : Code) :
    (steps : Nat) → ByteArray → List Bool → Except ByteArray Progress
  | 0, out, _ => .error out
  | steps + 1, out, bs =>
    match literals.next bs with
    | none => .error out
    | some (symbol, bs) =>
      if symbol < 256 then symbols literals distances steps (out.push (UInt8.ofNat symbol)) bs
      else if symbol = 256 then .ok (out, bs)
      else
        let copy := do
          let (count, bs) ← extended lengthRows (symbol - 257) bs
          let (row, bs) ← distances.next bs
          let (distance, bs) ← extended distanceRows row bs
          if distance ≤ out.size then some (count, distance, bs) else none
        match copy with
        | none => .error out
        | some (count, distance, bs) =>
          symbols literals distances steps (repeated out distance count) bs

/-- The next `count` code lengths of a dynamic block, those read so far in reverse. -/
def codeLengths (code : Code) : (steps count : Nat) → List Nat → List Bool →
    Option (List Nat × List Bool)
  | 0, _, _, _ => none
  | steps + 1, count, done, bs =>
    if done.length = count then some (done.reverse, bs)
    else do
      let (symbol, bs) ← code.next bs
      if symbol < 16 then codeLengths code steps count (symbol :: done) bs
      else
        let (width, least, length) ←
          if symbol = 16 then done.head?.map fun l => (2, 3, l)
          else if symbol = 17 then some (3, 3, 0) else some (7, 11, 0)
        let (n, bs) ← take width bs
        if done.length + (least + n) ≤ count then
          codeLengths code steps count (List.replicate (least + n) length ++ done) bs
        else none

/-- The order in which the lengths of the code length code are given. -/
def lengthOrder : List Nat := [16, 17, 18, 0, 8, 7, 9, 6, 10, 5, 11, 4, 12, 3, 13, 2, 14, 1, 15]

/-- `count` numbers of three bits. -/
def triples : (count : Nat) → List Bool → Option (List Nat × List Bool)
  | 0, bs => some ([], bs)
  | count + 1, bs => do
    let (n, bs) ← take 3 bs
    let (ns, bs) ← triples count bs
    return (n :: ns, bs)

/-- The two codes at the start of a dynamic block. -/
def dynamicCodes (bs : List Bool) : Option (Code × Code × List Bool) := do
  let (literals, bs) ← take 5 bs
  let (distances, bs) ← take 5 bs
  let (given, bs) ← take 4 bs
  let (lengths, bs) ← triples (given + 4) bs
  let named := lengthOrder.zip lengths
  let code := Code.ofLengths ((List.range 19).map fun s => (named.lookup s).getD 0)
  let count := literals + 257 + (distances + 1)
  let (all, bs) ← codeLengths code (count + 1) count [] bs
  return (.ofLengths (all.take (literals + 257)), .ofLengths (all.drop (literals + 257)), bs)

/-- The octets of a stored block, which starts at the next whole octet. -/
def stored (out : ByteArray) (bs : List Bool) : Except ByteArray Progress :=
  let header := do
    let (length, bs) ← take 16 (bs.drop (bs.length % 8))
    let (check, bs) ← take 16 bs
    if length + check = storedLimit then some (length, bs) else none
  match header with
  | none => .error out
  | some (length, bs) => copy length out bs
where
  /-- Moves `count` octets from the bits to the output. -/
  copy : (count : Nat) → ByteArray → List Bool → Except ByteArray Progress
    | 0, out, bs => .ok (out, bs)
    | count + 1, out, bs =>
      match take 8 bs with
      | none => .error out
      | some (x, bs) => copy count (out.push (UInt8.ofNat x)) bs

/-- All blocks of a stream, at most `steps` of them. -/
def blocks : (steps : Nat) → ByteArray → List Bool → Except ByteArray Progress
  | 0, out, _ => .error out
  | steps + 1, out, bs =>
    let header := do
      let (last, bs) ← take 1 bs
      let (kind, bs) ← take 2 bs
      return (last, kind, bs)
    match header with
    | none => .error out
    | some (last, kind, bs) =>
      let block :=
        if kind = 0 then stored out bs
        else if kind = 1 then symbols fixedLiterals fixedDistances (bs.length + 1) out bs
        else if kind = 2 then
          match dynamicCodes bs with
          | none => .error out
          | some (literals, distances, bs) =>
            symbols literals distances (bs.length + 1) out bs
        else .error out
      match block with
      | .error out => .error out
      | .ok (out, bs) => if last = 1 then .ok (out, bs) else blocks steps out bs

/-- The output of a deflate stream and the octets that follow it; a faulty stream gives the
output before its fault. -/
def inflate (xs : List UInt8) : Except ByteArray (ByteArray × List UInt8) :=
  match blocks (8 * xs.length + 1) ByteArray.empty (bits xs) with
  | .error out => .error out
  | .ok (out, bs) => .ok (out, xs.drop (xs.length - bs.length / 8))

end Playground.Bytes.Deflate
