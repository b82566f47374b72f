import BeamScope.Bytes

/-!
# Compressed streams

Reading of zlib streams: a two-byte header, DEFLATE blocks, and an Adler-32 sum of the result.
Bytes behind the stream are ignored. The reader is one total function; every step takes at least
one bit of the input, which bounds the number of steps.
-/

namespace BeamScope.Zlib

/-- The input as bits: what is left of the current byte, lowest bit first, and the bytes after. -/
structure Bits where
  current : Nat
  count : Nat
  rest : Bytes

def Bits.bit? (s : Bits) : Option (Nat × Bits) :=
  match s.count with
  | count + 1 => some (s.current % 2, ⟨s.current / 2, count, s.rest⟩)
  | 0 =>
    match s.rest with
    | [] => none
    | b :: rest => some (b.toNat % 2, ⟨b.toNat / 2, 7, rest⟩)

/-- The next `n` bits as a number, the first bit lowest. -/
def Bits.number? : Nat → Bits → Option (Nat × Bits)
  | 0, s => some (0, s)
  | n + 1, s => do
    let (b, s) ← s.bit?
    let (high, s) ← number? n s
    return (b + 2 * high, s)

/-- A prefix code by code lengths: how many codes there are of each length from 1 on, and the
symbols in the order of their codes. -/
structure Codebook where
  counts : List Nat
  symbols : Array Nat

/-- How many code points of 15 bits the lengths take up together. -/
def codeSpace (lengths : List Nat) : Nat :=
  lengths.foldl (fun n len => if len = 0 then n else n + 2 ^ (15 - len)) 0

/-- Whether there is no code, or one code of a single bit. -/
def isDegenerate (lengths : List Nat) : Bool :=
  lengths.countP (· ≠ 0) ≤ 1 && lengths.all (· ≤ 1)

/-- The canonical code of a list of code lengths, length 0 meaning no code. The lengths have to
take up the code space exactly; only a degenerate code may leave some of it unused. -/
def Codebook.ofLengths? (lengths : List Nat) : Option Codebook :=
  if codeSpace lengths = 2 ^ 15 || isDegenerate lengths then
    let lens := List.range' 1 15
    let indexed := lengths.zipIdx
    some
      { counts := lens.map fun len => lengths.countP (· == len)
        symbols := (lens.flatMap fun len =>
          indexed.filterMap fun p => if p.1 == len then some p.2 else none).toArray }
  else none

/-- Walk down the code: `code` is what was read, `first` the first code of this length, `index` the
place of its symbol. -/
def Codebook.walk (book : Codebook) :
    List Nat → (code first index : Nat) → Bits → Option (Nat × Bits)
  | [], _, _, _, _ => none
  | count :: counts, code, first, index, s => do
    let (b, s) ← s.bit?
    let code := 2 * code + b
    if code < first + count then
      let sym ← book.symbols[index + (code - first)]?
      return (sym, s)
    else walk book counts code (2 * (first + count)) (index + count) s

def Codebook.symbol? (book : Codebook) (s : Bits) : Option (Nat × Bits) :=
  book.walk book.counts 0 0 0 s

/-- Length codes 257 to 285: the least length and the number of extra bits. -/
def lengthCodes : List (Nat × Nat) := [
    (3, 0), (4, 0), (5, 0), (6, 0), (7, 0), (8, 0), (9, 0), (10, 0), (11, 1), (13, 1), (15, 1),
    (17, 1), (19, 2), (23, 2), (27, 2), (31, 2), (35, 3), (43, 3), (51, 3), (59, 3), (67, 4),
    (83, 4), (99, 4), (115, 4), (131, 5), (163, 5), (195, 5), (227, 5), (258, 0)]

/-- Distance codes 0 to 29: the least distance and the number of extra bits. -/
def distanceCodes : List (Nat × Nat) := [
    (1, 0), (2, 0), (3, 0), (4, 0), (5, 1), (7, 1), (9, 2), (13, 2), (17, 3), (25, 3), (33, 4),
    (49, 4), (65, 5), (97, 5), (129, 6), (193, 6), (257, 7), (385, 7), (513, 8), (769, 8),
    (1025, 9), (1537, 9), (2049, 10), (3073, 10), (4097, 11), (6145, 11), (8193, 12), (12289, 12),
    (16385, 13), (24577, 13)]

/-- The number that code `n` of a table and its extra bits stand for. -/
def extended? (table : List (Nat × Nat)) (n : Nat) (s : Bits) : Option (Nat × Bits) := do
  let (base, extra) ← table[n]?
  let (more, s) ← s.number? extra
  return (base + more, s)

/-- The byte `distance` bytes back. What lies before the first byte counts as zeros. -/
def byteBack (distance : Nat) (out : Array UInt8) : UInt8 :=
  if distance ≤ out.size then out.getD (out.size - distance) 0 else 0

/-- `n` bytes copied one by one from `distance` bytes back. -/
def copyBack (distance : Nat) : Nat → Array UInt8 → Array UInt8
  | 0, out => out
  | n + 1, out => copyBack distance n (out.push (byteBack distance out))

/-- The symbols of one block up to its end mark. -/
def codedBlock (literals distances : Codebook) :
    (fuel : Nat) → Bits → Array UInt8 → Option (Bits × Array UInt8)
  | 0, _, _ => none
  | fuel + 1, s, out => do
    let (sym, s) ← literals.symbol? s
    if sym < 256 then codedBlock literals distances fuel s (out.push (UInt8.ofNat sym))
    else if sym = 256 then return (s, out)
    else
      let (len, s) ← extended? lengthCodes (sym - 257) s
      let (code, s) ← distances.symbol? s
      let (distance, s) ← extended? distanceCodes code s
      codedBlock literals distances fuel s (copyBack distance len out)

/-- The codes of a block that announces none. -/
def fixedLengths : List Nat :=
  List.replicate 144 8 ++ List.replicate 112 9 ++ List.replicate 24 7 ++ List.replicate 8 8

/-- The order in which the lengths of the length code are written. -/
def lengthOrder : List Nat := [16, 17, 18, 0, 8, 7, 9, 6, 10, 5, 11, 4, 12, 3, 13, 2, 14, 1, 15]

def threeBitNumbers : Nat → Bits → Option (List Nat × Bits)
  | 0, s => some ([], s)
  | n + 1, s => do
    let (len, s) ← s.number? 3
    let (lens, s) ← threeBitNumbers n s
    return (len :: lens, s)

/-- Code lengths until there are `total`, the latest first; repeats may not pass `total`. -/
def codeLengths (book : Codebook) (total : Nat) :
    (fuel : Nat) → Bits → List Nat → Option (List Nat × Bits)
  | 0, _, _ => none
  | fuel + 1, s, lens =>
    if lens.length = total then some (lens, s)
    else if lens.length > total then none
    else do
      let (sym, s) ← book.symbol? s
      if sym < 16 then codeLengths book total fuel s (sym :: lens)
      else if sym = 16 then
        let last ← lens.head?
        let (n, s) ← s.number? 2
        codeLengths book total fuel s (List.replicate (n + 3) last ++ lens)
      else if sym = 17 then
        let (n, s) ← s.number? 3
        codeLengths book total fuel s (List.replicate (n + 3) 0 ++ lens)
      else
        let (n, s) ← s.number? 7
        codeLengths book total fuel s (List.replicate (n + 11) 0 ++ lens)

def announcedCodes (s : Bits) : Option (Codebook × Codebook × Bits) := do
  let (hlit, s) ← s.number? 5
  let (hdist, s) ← s.number? 5
  let (hclen, s) ← s.number? 4
  let literalCount := hlit + 257
  let distanceCount := hdist + 1
  if literalCount > 286 ∨ distanceCount > 30 then none
  else
    let (given, s) ← threeBitNumbers (hclen + 4) s
    let pairs := lengthOrder.zip given
    let lengthBook ← Codebook.ofLengths? ((List.range 19).map fun i => (pairs.lookup i).getD 0)
    let (lens, s) ← codeLengths lengthBook (literalCount + distanceCount) 400 s []
    let lens := lens.reverse
    let literals ← Codebook.ofLengths? (lens.take literalCount)
    let distances ← Codebook.ofLengths? (lens.drop literalCount)
    return (literals, distances, s)

/-- A block stored as it is: its length, the complement of it, the bytes. -/
def storedBlock (s : Bits) (out : Array UInt8) : Option (Bits × Array UInt8) :=
  match s.rest with
  | a :: b :: c :: d :: rest =>
    let len := a.toNat + 256 * b.toNat
    if len + (c.toNat + 256 * d.toNat) = 65535 ∧ Bytes.holds len rest then
      some (⟨0, 0, rest.drop len⟩, out.appendList (rest.take len))
    else none
  | _ => none

/-- Blocks up to and including the one marked as last. -/
def blocks (steps : Nat) : (fuel : Nat) → Bits → Array UInt8 → Option (Bits × Array UInt8)
  | 0, _, _ => none
  | fuel + 1, s, out => do
    let (last, s) ← s.bit?
    let (kind, s) ← s.number? 2
    let (s, out) ←
      match kind with
      | 0 => storedBlock s out
      | 1 => do
        let literals ← Codebook.ofLengths? fixedLengths
        let distances ← Codebook.ofLengths? (List.replicate 32 5)
        codedBlock literals distances steps s out
      | 2 => do
        let (literals, distances, s) ← announcedCodes s
        codedBlock literals distances steps s out
      | _ => none
    if last = 1 then return (s, out) else blocks steps fuel s out

def adler32 (out : Array UInt8) : Nat :=
  let (a, b) := out.foldl
    (fun (a, b) x => let a := (a + x.toNat) % 65521; (a, (b + a) % 65521)) (1, 0)
  b * 65536 + a

/-- The bytes that a zlib stream holds; `none` if its header, a block or its sum is wrong, or if it
ends early. -/
def decompress? (data : Bytes) : Option Bytes :=
  match data with
  | cmf :: flg :: rest =>
    let header := cmf.toNat * 256 + flg.toNat
    if header % 31 ≠ 0 ∨ cmf.toNat % 16 ≠ 8 ∨ cmf.toNat / 16 > 7 ∨ flg.toNat / 32 % 2 ≠ 0 then none
    else do
      let steps := 8 * rest.length + 1
      let (s, out) ← blocks steps steps ⟨0, 0, rest⟩ #[]
      if Bytes.holds 4 s.rest ∧ Bytes.toNatBE (s.rest.take 4) = adler32 out then return out.toList
      else none
  | _ => none

/-- The bytes that a zlib stream holds, which have to be `size` many. -/
def inflate (data : Bytes) (size : Nat) : Except Fault Bytes :=
  match decompress? data with
  | none => .error .inflateStream
  | some out => if out.length = size then .ok out else .error (.inflatedSize size out.length)

theorem inflate_eq_ok {data out : Bytes} (h : decompress? data = some out) :
    inflate data out.length = .ok out := by
  simp only [inflate, h, if_true]

end BeamScope.Zlib
