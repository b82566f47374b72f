import BeamScope.Proofs.ContainerLayout
import BeamScope.Proofs.DebugForms
import BeamScope.Proofs.LineIndependence
import BeamScope.Proofs.Positional.Functions
import BeamScope.Proofs.Positional.Term

/-!
# Files by position

A file that keeps the bytes it was read from, the ranges of its chunks and an index of them. A range
is taken from the file each time a chunk is asked for; that it is inside the file was found out when
the chunks were scanned.

The main statement gathers what the modules before it show of each reader: whatever the bytes are,
nothing goes wrong, and what comes out is what the reader of this library finds.
-/

namespace BeamScope.Positional

open Bytes Text
open Container (padding formMark beamMark headerSize declaredEnd)

/-! ### Scanning -/

/-- An identifier with the start and the end of a payload. -/
abbrev Range := Bytes × Nat × Nat

/-- The chunks from a position on, none of which may reach past `limit`. -/
def scan (data : Bytes) (limit : Nat) : (steps pos : Nat) → Checked (List Range)
  | 0, _ => .error .exhausted
  | steps + 1, pos => do
    let body ← add pos 8
    if body ≤ limit then
      let id ← slice data pos (← add pos 4)
      let id ← filled 4 id
      let len ← word data (← add pos 4)
      let start ← add pos 8
      let stop ← orFail (add? start len) (.truncated pos)
      if limit < stop then fail (.truncated pos)
      else
        let next ← add stop (padding stop)
        let ranges ← scan data limit steps next
        return (id, start, stop) :: ranges
    else .ok []

structure File where
  data : Bytes
  /-- In file order. -/
  chunks : List Range
  /-- The number of the chunk with an identifier. -/
  places : List (Bytes × Nat)

/-- The number of each chunk, the first counting among those with one identifier. -/
def placesFrom : Nat → List Range → List (Bytes × Nat) → List (Bytes × Nat)
  | _, [], places => places
  | n, (id, _) :: rest, places =>
    placesFrom (n + 1) rest (if (places.lookup id).isSome then places else (id, n) :: places)

/-- The size that is noted: of what is ignored, or of what should be there. -/
def notedSize (declared limit size : Nat) : Checked Nat :=
  if limit < size then sub size limit else add 8 declared

def parse (data : Bytes) : Checked File :=
  if data.length < headerSize then fail (.fileTooSmall data.length)
  else do
    let form ← slice data 0 4
    if form ≠ formMark then fail .badMagic
    else
      let beam ← slice data 8 12
      if beam ≠ beamMark then fail .badMagic
      else
        let declared ← word data 4
        let limit := min (min (8 + declared) (2 ^ 64 - 1)) data.length
        let _ ← notedSize declared limit data.length
        let chunks ← scan data limit (data.length + 1) headerSize
        return ⟨data, chunks, placesFrom 0 chunks []⟩

/-! ### Chunks -/

def chunk? (f : File) (id : String) : Checked (Option Bytes) :=
  let key := Utf8.encode id
  if key.length ≠ 4 then .ok none
  else
    match f.places.lookup key with
    | none => .ok none
    | some n => do
      let (_, start, stop) ← index f.chunks n
      return slice? f.data start stop

def chunk (f : File) (id : String) : Checked Bytes := do
  orFail (← chunk? f id) (.chunkMissing id)

def atoms (f : File) : Checked AtomTable := do
  match ← chunk? f "AtU8" with
  | some payload => parseAtoms false payload
  | none => parseAtoms true (← chunk f "Atom")

def imports (f : File) : Checked ImportTable := do parseImports (← chunk f "ImpT")

/-- The table of a chunk, or an empty one when the chunk is missing or malformed. -/
def orEmpty {α : Type} (empty : α) (parse : Bytes → Checked α) (payload : Option Bytes) :
    Checked α :=
  match payload with
  | none => .ok empty
  | some payload => do
    match ← attempt (parse payload) with
    | .ok table => return table
    | .error _ => return empty

def lineTable (f : File) : Checked LineTable := do
  orEmpty .empty parseLines (← chunk? f "Line")

def literals (unzip : Bytes → Option Bytes) (f : File) : Checked LiteralTable := do
  orEmpty .empty (parseLiterals unzip) (← chunk? f "LitT")

def functions (unzip : Bytes → Option Bytes) (f : File) : Checked (List RawFunction) := do
  let atoms ← atoms f
  let imports ← imports f
  let literals ← literals unzip f
  let code ← chunk f "Code"
  tokenize ⟨atoms, imports, some literals, true⟩ code

def nonemptyChunk? (f : File) (id : String) : Checked (Option Bytes) := do
  return (← chunk? f id).filter fun payload => !payload.isEmpty

def abstractForms (unzip : Bytes → Option Bytes) (f : File) : Checked (Option (List Term)) := do
  match ← nonemptyChunk? f "Dbgi" with
  | some payload =>
    let decoded ← decodeTerm unzip payload
    return (Container.debugForms? decoded.term).join
  | none =>
    match ← nonemptyChunk? f "Abst" with
    | some payload =>
      let decoded ← decodeTerm unzip payload
      return Container.rawForms? decoded.term
    | none => return none

/-! ### Agreement of scans -/

def rangeOf (c : Chunk) : Range := (c.id, c.start, c.stop)

/-- One step of the scan of this library, by position. -/
theorem scan_ofOffset {front : Bytes} {pos : Nat} (h : pos + 8 ≤ front.length) (fuel len : Nat)
    (hlen : len = toNatBE ((front.drop (pos + 4)).take 4)) :
    Container.scan (fuel + 1) (Cursor.ofOffset front pos) =
      if front.length - (pos + 8) < len then .error (.truncated pos)
      else do
        let more ← Container.scan fuel
          (Cursor.ofOffset front (pos + 8 + len + padding (pos + 8 + len)))
        return ⟨(front.drop pos).take 4, pos + 8, (front.drop (pos + 8)).take len⟩ :: more := by
  have hdigits : ((Cursor.ofOffset front pos).rest.drop 4).take 4 =
      (front.drop (pos + 4)).take 4 := by
    simp only [Cursor.ofOffset, List.drop_drop]
  have hafter (n : Nat) : (Cursor.ofOffset front n).pos = n := rfl
  simp only [Container.scan, holds_ofOffset, decide_eq_false (show ¬front.length - pos < 8 by omega),
    Bool.not_false, if_true, skip_ofOffset, hdigits, ← hlen, hafter]
  by_cases hfit : front.length - (pos + 8) < len
  · simp only [decide_eq_true hfit, Bool.not_true, Bool.false_eq_true, if_false, if_pos hfit]
  · simp only [decide_eq_false hfit, Bool.not_false, if_true, if_neg hfit]
    rfl

-- The padding behind the last chunk can lead past the limit, by less than four bytes.
theorem scan_eq {data : Bytes} (hlen : data.length < 2 ^ 63) {limit : Nat}
    (hlimit : limit ≤ data.length) {steps fuel pos : Nat} (hpos : pos ≤ limit + 4)
    (hsteps : limit - pos < steps) (hfuel : limit - pos ≤ fuel) :
    scan data limit steps pos = returned
      ((Container.scan fuel (Cursor.ofOffset (data.take limit) pos)).map (List.map rangeOf)) := by
  have hfront : (data.take limit).length = limit := by
    rw [List.length_take]
    omega
  induction steps generalizing fuel pos with
  | zero => omega
  | succ steps ih =>
    simp only [scan, add_eq_ok (show pos + 8 < 2 ^ 64 by omega), checked_ok_bind]
    by_cases hfit : pos + 8 ≤ limit
    · obtain ⟨fuel, rfl⟩ : ∃ k, fuel = k + 1 := ⟨fuel - 1, by omega⟩
      have hid : ((data.drop pos).take 4).length = 4 := length_stretch (by omega)
      obtain ⟨len, hw⟩ : ∃ len, len = toNatBE ((data.drop (pos + 4)).take 4) := ⟨_, rfl⟩
      have hlt : len < 2 ^ 32 := hw ▸ toNatBE_take_four_lt _
      have hlib := scan_ofOffset (hfront.symm ▸ hfit) fuel len
        (by rw [hw, Container.take_drop_take (by omega)])
      rw [hfront, Container.take_drop_take (by omega)] at hlib
      simp only [if_pos hfit, add_eq_ok (show pos + 4 < 2 ^ 64 by omega), checked_ok_bind,
        slice_eq_ok (show pos ≤ pos + 4 by omega) (show pos + 4 ≤ data.length by omega),
        Nat.add_sub_cancel_left, filled_eq_ok hid,
        word_eq_ok hlen (show pos + 4 + 4 ≤ data.length by omega), ← hw,
        add?_eq_some (show pos + 8 + len < 2 ^ 64 by omega), orFail_some, hlib]
      by_cases hstop : limit < pos + 8 + len
      · rw [if_pos hstop, if_pos (show limit - (pos + 8) < len by omega)]
        rfl
      · have hpad : padding (pos + 8 + len) ≤ 3 := by
          unfold padding
          omega
        have hpayload : (((data.take limit).drop (pos + 8)).take len).length = len :=
          length_stretch (by omega)
        rw [if_neg hstop, if_neg (show ¬limit - (pos + 8) < len by omega),
          add_eq_ok (by omega), checked_ok_bind,
          ih (show pos + 8 + len + padding (pos + 8 + len) ≤ limit + 4 by omega)
            (show limit - (pos + 8 + len + padding (pos + 8 + len)) < steps by omega)
            (show limit - (pos + 8 + len + padding (pos + 8 + len)) ≤ fuel by omega)]
        cases Container.scan fuel (Cursor.ofOffset (data.take limit)
            (pos + 8 + len + padding (pos + 8 + len))) with
        | error e => rfl
        | ok more =>
          simp only [Except.map, returned_ok, checked_ok_bind, ok_bind]
          simp only [pure, Except.pure, returned_ok, List.map_cons, rangeOf, Chunk.stop, hpayload]
    · rw [if_neg hfit]
      cases fuel with
      | zero => rfl
      | succ fuel =>
        rw [Container.scan, holds_ofOffset, hfront,
          decide_eq_true (show limit - pos < 8 by omega)]
        rfl

/-- The file whose chunks are those of a container. -/
def fileOf (data : Bytes) (g : Container) : File :=
  ⟨data, g.chunks.map rangeOf, placesFrom 0 (g.chunks.map rangeOf) []⟩

theorem parse_eq {data : Bytes} (hlen : data.length < 2 ^ 63) :
    parse data = returned ((Container.parse data).value.map (fileOf data)) := by
  have hheader : headerSize = 12 := rfl
  by_cases hsize : data.length < headerSize
  · simp only [parse, Container.parse, if_pos hsize]
    rfl
  · have hform : slice data 0 4 = .ok (data.take 4) :=
      slice_eq_ok (Nat.zero_le _) (by omega)
    have hbeam : slice data 8 12 = .ok ((data.drop 8).take 4) :=
      slice_eq_ok (by omega) (by omega)
    simp only [parse, Container.parse, if_neg hsize, hform, checked_ok_bind]
    by_cases hf : data.take 4 ≠ formMark
    · rw [if_pos hf, if_pos (Or.inl hf)]
      rfl
    · rw [if_neg hf, hbeam, checked_ok_bind]
      by_cases hb : (data.drop 8).take 4 ≠ beamMark
      · rw [if_pos hb, if_pos (Or.inr hb)]
        rfl
      · rw [if_neg hb, if_neg (not_or.mpr ⟨hf, hb⟩), word_eq_ok hlen (by omega), checked_ok_bind]
        generalize hd : toNatBE ((data.drop 4).take 4) = declared
        have hlt : declared < 2 ^ 32 := hd ▸ toNatBE_take_four_lt _
        have hlimit : min (min (8 + declared) (2 ^ 64 - 1)) data.length =
            min (8 + declared) data.length := by omega
        have hfront : data.take (8 + declared) = data.take (min (8 + declared) data.length) :=
          List.take_eq_take_min
        rw [hlimit, hfront]
        generalize hl : min (8 + declared) data.length = limit
        obtain ⟨size, hnoted⟩ : ∃ size, notedSize declared limit data.length = .ok size := by
          rw [notedSize]
          split
          · exact ⟨_, sub_eq_ok (by omega)⟩
          · exact ⟨_, add_eq_ok (by omega)⟩
        rw [hnoted, checked_ok_bind, scan_eq hlen (by omega) (by omega) (by omega)
          (show limit - headerSize ≤ data.length by omega)]
        cases Container.scan data.length (Cursor.ofOffset (data.take limit) headerSize) <;> rfl

/-! ### Agreement of chunks -/

theorem lookup_placesFrom (key : Bytes) (ranges : List Range) (n : Nat)
    (places : List (Bytes × Nat)) :
    (placesFrom n ranges places).lookup key =
      (places.lookup key).or ((ranges.findIdx? fun r => r.1 == key).map (· + n)) := by
  induction ranges generalizing n places with
  | nil => simp [placesFrom]
  | cons r ranges ih =>
    obtain ⟨id, range⟩ := r
    rw [placesFrom, ih, List.findIdx?_cons]
    by_cases hid : id = key
    · subst hid
      cases hl : places.lookup id with
      | some m => simp only [Option.isSome_some, if_true, hl, Option.some_or]
      | none => simp
    · have hne : (id == key) = false := by simpa using hid
      have hlookup : (if (places.lookup id).isSome then places else (id, n) :: places).lookup key =
          places.lookup key := by
        split
        · rfl
        · rw [List.lookup_cons, beq_false_of_ne (Ne.symm hid)]
      rw [hlookup]
      simp only [hne, Bool.false_eq_true, if_false, Option.map_map]
      congr 2
      funext m
      simp only [Function.comp_apply]
      omega

theorem bind_findIdx? (chunks : List Chunk) (key : Bytes) :
    (chunks.findIdx? fun c => c.id == key).bind (fun n => chunks[n]?) =
      chunks.find? fun c => c.id == key := by
  induction chunks with
  | nil => rfl
  | cons c chunks ih =>
    rw [List.findIdx?_cons, List.find?_cons]
    cases c.id == key with
    | true => rfl
    | false => simpa [Option.bind_map, Function.comp_def] using ih

theorem chunk?_fileOf {data : Bytes} {g : Container} (h : (Container.parse data).value = .ok g)
    (id : String) : chunk? (fileOf data g) id = .ok (g.chunk? id) := by
  have hlayout := Container.layout_of_parse h
  have hfind := bind_findIdx? g.chunks (Utf8.encode id)
  have hlookup : (fileOf data g).places.lookup (Utf8.encode id) =
      g.chunks.findIdx? fun c => c.id == Utf8.encode id := by
    rw [fileOf, lookup_placesFrom, List.findIdx?_map]
    simp [Function.comp_def, rangeOf]
  simp only [chunk?, hlookup, Container.chunk?, ← hfind]
  cases hn : g.chunks.findIdx? fun c => c.id == Utf8.encode id with
  | none => simp
  | some n =>
    obtain ⟨hlt, hkey, -⟩ := List.findIdx?_eq_some_iff_getElem.mp hn
    have hkey : g.chunks[n].id = Utf8.encode id := by simpa using hkey
    have hmem : g.chunks[n] ∈ g.chunks := List.getElem_mem hlt
    have hstands := hlayout.stands _ hmem
    have hinside := hlayout.inside _ hmem
    have hfour : (Utf8.encode id).length = 4 := by
      have hheader := hstands.header
      rw [← hkey, hstands.id]
      refine length_stretch ?_
      rw [Chunk.stop] at hinside
      omega
    have hrange : (g.chunks.map rangeOf)[n]? = some (rangeOf g.chunks[n]) := by
      simp [List.getElem?_eq_getElem hlt]
    have hpayload : slice? data g.chunks[n].start g.chunks[n].stop = some g.chunks[n].payload := by
      have hstop : g.chunks[n].stop ≤ data.length := by omega
      rw [Chunk.stop] at hstop ⊢
      rw [slice?_eq_some (Nat.le_add_right _ _) hstop, Nat.add_sub_cancel_left, ← hstands.payload]
    simp only [hfour, ne_eq, not_true, if_false, fileOf, index_eq_ok hrange, checked_ok_bind,
      rangeOf, hpayload, Option.bind_some, List.getElem?_eq_getElem hlt, Option.map_some]
    rfl

theorem length_of_chunk? {data : Bytes} {g : Container} (h : (Container.parse data).value = .ok g)
    {id : String} {payload : Bytes} (hp : g.chunk? id = some payload) :
    payload.length ≤ data.length := by
  have hlayout := Container.layout_of_parse h
  obtain ⟨c, hmem, -, rfl⟩ := hlayout.whole id payload hp
  have hinside := hlayout.inside c hmem
  rw [Chunk.stop] at hinside
  omega

/-! ### Agreement of files -/

/-- The functions of a container whose literals are read with a decoder of choice. -/
def functionsBy (d : Term.Decoder) (g : Container) : Except Fault (List RawFunction) := do
  let atoms ← g.atoms
  let imports ← g.imports
  let code ← g.chunk "Code"
  (Code.tokenize ⟨atoms, imports, some (LiteralTable.ofChunk d (g.chunk? "LitT")).value, true⟩
    code).value

/-- The abstract code of a container whose debug chunks are read with a decoder of choice. -/
def formsBy (d : Term.Decoder) (g : Container) : Except Fault (Option (List Term)) :=
  match g.nonemptyChunk? "Dbgi" with
  | some payload => do
    let decoded ← Term.decode d payload
    return (Container.debugForms? decoded.term).join
  | none =>
    match g.nonemptyChunk? "Abst" with
    | some payload => do
      let decoded ← Term.decode d payload
      return Container.rawForms? decoded.term
    | none => .ok none

theorem functionsBy_standard (g : Container) : functionsBy .standard g = g.functions.value :=
  (Analysis.value_functions g).symm

theorem formsBy_eq (d : Term.Decoder) (g : Container) :
    formsBy d g = (g.abstractFormsBy d).value := by
  rw [formsBy, Container.value_abstractFormsBy]
  cases g.nonemptyChunk? "Dbgi" with
  | some payload =>
    dsimp only [Container.formsIn]
    cases Term.decode d payload <;> rfl
  | none =>
    cases g.nonemptyChunk? "Abst" with
    | some payload =>
      dsimp only [Container.formsIn]
      cases Term.decode d payload <;> rfl
    | none => rfl

theorem orEmpty_some {α : Type} (empty : α) {parse : Bytes → Checked α} {payload : Bytes}
    {r : Except Fault α} (h : parse payload = returned r) :
    orEmpty empty parse (some payload) = .ok (r.toOption.getD empty) := by
  simp only [orEmpty, h, attempt_returned, checked_ok_bind]
  cases r <;> rfl

theorem decodeTerm_bind {α : Type} (unzip : Bytes → Option Bytes) {payload : Bytes}
    (hp : payload.length < 2 ^ 63) (f : Term.Decoded → α) :
    (do
      let decoded ← decodeTerm unzip payload
      return f decoded) =
      returned (do
        let decoded ← Term.decode (decoder unzip) payload
        return f decoded) := by
  rw [decodeTerm_eq unzip hp, returned_bind]
  rfl

section Files

variable {data : Bytes} (hlen : data.length < 2 ^ 63) {g : Container}
  (h : (Container.parse data).value = .ok g)
include hlen h

theorem lt_of_chunk? {id : String} {payload : Bytes} (hp : g.chunk? id = some payload) :
    payload.length < 2 ^ 63 := by
  have hle := length_of_chunk? h hp
  omega

/-- A chunk that has to be there, and then a result that agrees. -/
theorem chunk_bind {α : Type} (id : String) {p : Bytes → Checked α} {r : Bytes → Except Fault α}
    (hp : ∀ payload, payload.length < 2 ^ 63 → p payload = returned (r payload)) :
    (chunk (fileOf data g) id >>= p) = returned (g.chunk id >>= r) := by
  simp only [chunk, chunk?_fileOf h, checked_ok_bind, Container.chunk]
  cases hc : g.chunk? id with
  | none => rfl
  | some payload => exact hp payload (lt_of_chunk? hlen h hc)

theorem atoms_eq : atoms (fileOf data g) = returned g.atoms := by
  simp only [atoms, chunk?_fileOf h, checked_ok_bind, Container.atoms]
  cases hc : g.chunk? "AtU8" with
  | some payload => exact parseAtoms_eq false (lt_of_chunk? hlen h hc)
  | none => exact chunk_bind hlen h "Atom" fun _ hl => parseAtoms_eq true hl

theorem imports_eq : imports (fileOf data g) = returned g.imports :=
  chunk_bind hlen h "ImpT" fun _ hl => parseImports_eq hl

theorem lineTable_eq : lineTable (fileOf data g) = .ok g.lineTable.value := by
  simp only [lineTable, chunk?_fileOf h, checked_ok_bind, Container.lineTable]
  cases hc : g.chunk? "Line" with
  | none => rfl
  | some payload =>
    rw [LineTable.value_ofChunk_some]
    exact orEmpty_some _ (parseLines_eq (lt_of_chunk? hlen h hc))

theorem literals_eq (unzip : Bytes → Option Bytes) :
    literals unzip (fileOf data g) =
      .ok (LiteralTable.ofChunk (decoder unzip) (g.chunk? "LitT")).value := by
  simp only [literals, chunk?_fileOf h, checked_ok_bind]
  cases hc : g.chunk? "LitT" with
  | none => rfl
  | some payload =>
    rw [LiteralTable.value_ofChunk_some]
    exact orEmpty_some _ (parseLiterals_eq unzip (lt_of_chunk? hlen h hc))

theorem functions_eq (unzip : Bytes → Option Bytes) :
    functions unzip (fileOf data g) = returned (functionsBy (decoder unzip) g) := by
  rw [functions, functionsBy, atoms_eq hlen h, imports_eq hlen h, literals_eq hlen h unzip]
  cases g.atoms with
  | error e => rfl
  | ok atoms =>
    cases g.imports with
    | error e => rfl
    | ok imports => exact chunk_bind hlen h "Code" fun _ hl => tokenize_eq _ rfl hl

theorem abstractForms_eq (unzip : Bytes → Option Bytes) :
    abstractForms unzip (fileOf data g) = returned (formsBy (decoder unzip) g) := by
  have hchunk (id : String) : nonemptyChunk? (fileOf data g) id = .ok (g.nonemptyChunk? id) := by
    simp only [nonemptyChunk?, chunk?_fileOf h]
    rfl
  have hshort {id : String} {payload : Bytes} (hp : g.nonemptyChunk? id = some payload) :
      payload.length < 2 ^ 63 :=
    lt_of_chunk? hlen h (Option.filter_eq_some_iff.mp hp).1
  simp only [abstractForms, hchunk, checked_ok_bind, formsBy]
  cases hd : g.nonemptyChunk? "Dbgi" with
  | some payload => exact decodeTerm_bind unzip (hshort hd) _
  | none =>
    cases ha : g.nonemptyChunk? "Abst" with
    | some payload => exact decodeTerm_bind unzip (hshort ha) _
    | none => rfl

end Files

/-! ### Nothing goes wrong -/

/-- A program finds what a reader finds, a value or a fault of the input, and nothing was out of
range on the way. -/
def Finds {α : Type} (x : Checked α) (r : Except Fault α) : Prop :=
  x = returned r ∧ x ≠ .error .panic

theorem finds_of_eq {α : Type} {x : Checked α} {r : Except Fault α} (h : x = returned r) :
    Finds x r :=
  ⟨h, h ▸ returned_ne_panic r⟩

/-- What is read from an open file, beside what the same container gives. -/
structure FileReadsSafely (unzip : Bytes → Option Bytes) (f : File) (g : Container) : Prop where
  functions : Finds (functions unzip f) (functionsBy (decoder unzip) g)
  lineTable : Finds (lineTable f) (.ok g.lineTable.value)
  literals : Finds (literals unzip f)
    (.ok (LiteralTable.ofChunk (decoder unzip) (g.chunk? "LitT")).value)
  abstractForms : Finds (abstractForms unzip f) (formsBy (decoder unzip) g)
  -- With the decompression of this library, these are its own results.
  ownFunctions : functionsBy (decoder Zlib.decompress?) g = g.functions.value
  ownForms : formsBy (decoder Zlib.decompress?) g = g.abstractForms.value

/-- What every reader makes of the same bytes, at whatever offset it starts. -/
structure ReadsSafely (unzip : Bytes → Option Bytes) (data : Bytes) : Prop where
  compact : ∀ offset, Finds (decode data (data.length + 1) offset) (Compact.decode data offset)
  term : Finds (decodeTerm unzip data) (Term.decode (decoder unzip) data)
  codeHeader : Finds (parseCodeHeader data) (CodeHeader.parse data)
  atoms : ∀ latin1, Finds (parseAtoms latin1 data) (AtomTable.parse latin1 data)
  imports : Finds (parseImports data) (ImportTable.parse data)
  functions : Finds (parseFunctions data) (FunctionTable.parse data)
  lines : Finds (parseLines data) (LineTable.parse data).value
  literals : Finds (parseLiterals unzip data) (LiteralTable.parse (decoder unzip) data).value
  instructions : ∀ atoms imports literals offset,
    Finds (instructions ⟨atoms, imports, literals, true⟩ data offset)
      (Code.instructions ⟨atoms, imports, literals, true⟩ data offset).value
  file : Finds (parse data) ((Container.parse data).value.map (fileOf data))
  opened : ∀ f, parse data = .ok f →
    ∃ g, (Container.parse data).value = .ok g ∧ FileReadsSafely unzip f g

theorem fileReadsSafely {data : Bytes} (hlen : data.length < 2 ^ 63) {g : Container}
    (h : (Container.parse data).value = .ok g) (unzip : Bytes → Option Bytes) :
    FileReadsSafely unzip (fileOf data g) g :=
  { functions := finds_of_eq (functions_eq hlen h unzip)
    lineTable := finds_of_eq (lineTable_eq hlen h)
    literals := finds_of_eq (literals_eq hlen h unzip)
    abstractForms := finds_of_eq (abstractForms_eq hlen h unzip)
    ownFunctions := by rw [decoder_decompress, functionsBy_standard]
    ownForms := formsBy_eq _ g }

/-- Whatever the bytes and the offset, no reader that works by position goes out of range: each
finds what its counterpart in this library finds, and so do the readers of the tables, the functions
and the abstract code of a file that could be opened. -/
theorem reads_safely (unzip : Bytes → Option Bytes) (data : Bytes) (hlen : data.length < 2 ^ 63) :
    ReadsSafely unzip data := by
  refine
    { compact := fun offset => finds_of_eq (decode_eq hlen (by omega))
      term := finds_of_eq (decodeTerm_eq unzip hlen)
      codeHeader := finds_of_eq (parseCodeHeader_eq hlen)
      atoms := fun latin1 => finds_of_eq (parseAtoms_eq latin1 hlen)
      imports := finds_of_eq (parseImports_eq hlen)
      functions := finds_of_eq (parseFunctions_eq hlen)
      lines := finds_of_eq (parseLines_eq hlen)
      literals := finds_of_eq (parseLiterals_eq unzip hlen)
      instructions := fun _ _ _ offset => finds_of_eq (instructions_eq _ rfl hlen offset)
      file := finds_of_eq (parse_eq hlen)
      opened := ?_ }
  intro f hf
  rw [parse_eq hlen] at hf
  cases hg : (Container.parse data).value with
  | error e =>
    rw [hg] at hf
    cases hf
  | ok g =>
    rw [hg] at hf
    cases hf
    exact ⟨g, rfl, fileReadsSafely hlen hg unzip⟩

-- Both sizes, that of the file and that of its only chunk, are the largest that can be written.
theorem reads_safely_huge_sizes :
    let data := formMark ++ [255, 255, 255, 255] ++ beamMark ++ [67, 111, 100, 101] ++
      [255, 255, 255, 255]
    data.length < 2 ^ 63 ∧ parse data = fail (.truncated 12) := by
  intro data
  have hlen : data.length < 2 ^ 63 := by decide +zetaReduce
  exact ⟨hlen, (reads_safely Zlib.decompress? data hlen).file.1.trans rfl⟩

end BeamScope.Positional
