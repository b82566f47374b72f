import BeamScope.Code.Functions
import BeamScope.Table.Lines

/-!
# Module files

A module file is a container of chunks: a mark, a size, a second mark, then chunks with a
four-byte identifier, a length and a payload, each starting at a multiple of four. The functions of
this module find a chunk and read it as the table that it holds. Of two chunks with one identifier
the first counts.
-/

namespace BeamScope

/-- A chunk and where its payload starts in the file. -/
structure Chunk where
  id : Bytes
  start : Nat
  payload : Bytes
  deriving Repr, DecidableEq

def Chunk.idText (c : Chunk) : String := Text.Utf8.decodeLossy c.id

structure Container where
  /-- Bytes of the whole file. -/
  size : Nat
  /-- In file order. -/
  chunks : List Chunk
  deriving Repr, DecidableEq

namespace Container

/-- `FOR1`. -/
def formMark : Bytes := [0x46, 0x4f, 0x52, 0x31]

/-- `BEAM`. -/
def beamMark : Bytes := [0x42, 0x45, 0x41, 0x4d]

/-- Bytes before the first chunk. -/
def headerSize : Nat := 12

/-- Bytes from `pos` to the next multiple of four. -/
def padding (pos : Nat) : Nat := (4 - pos % 4) % 4

/-- The chunks from a cursor on. Bytes at the end that are too few for a chunk header are ignored.
Every chunk takes at least its header, so as much fuel as there are bytes is enough. -/
def scan : (fuel : Nat) → Cursor → Except Fault (List Chunk)
  | 0, _ => .ok []
  | fuel + 1, c =>
    if Bytes.holds 8 c.rest then
      let id := c.rest.take 4
      let len := Bytes.toNatBE ((c.rest.drop 4).take 4)
      let body := c.skip 8
      if Bytes.holds len body.rest then do
        let chunk : Chunk := ⟨id, body.pos, body.rest.take len⟩
        let after := body.skip len
        return chunk :: (← scan fuel (after.skip (padding after.pos)))
      else .error (.truncated c.pos)
    else .ok []

/-- What is noted when the size in the header is not that of the file. -/
def sizeNotes (declared actual : Nat) : List Note :=
  if declared < actual then [.debug s!"ignoring {actual - declared} trailing bytes"]
  else if actual < declared then
    [.warn s!"container declares {declared} bytes, file has {actual}"]
  else []

/-- A module file. Bytes behind the size in its header are ignored. -/
def parse (data : Bytes) : Noted (Except Fault Container) :=
  let size := data.length
  if size < headerSize then ⟨.error (.fileTooSmall size), []⟩
  else if data.take 4 ≠ formMark ∨ (data.drop 8).take 4 ≠ beamMark then ⟨.error .badMagic, []⟩
  else
    let declared := 8 + Bytes.toNatBE ((data.drop 4).take 4)
    let body := Cursor.ofOffset (data.take declared) headerSize
    ⟨(scan size body).map fun chunks => ⟨size, chunks⟩, sizeNotes declared size⟩

def chunk? (f : Container) (id : String) : Option Bytes :=
  (f.chunks.find? fun c => c.id == Text.Utf8.encode id).map Chunk.payload

/-- The payload of a chunk that has to be there. -/
def chunk (f : Container) (id : String) : Except Fault Bytes :=
  match f.chunk? id with
  | some payload => .ok payload
  | none => .error (.chunkMissing id)

/-- The atom table: in UTF-8, or else in Latin-1. -/
def atoms (f : Container) : Except Fault AtomTable :=
  match f.chunk? "AtU8" with
  | some payload => AtomTable.parse false payload
  | none => do AtomTable.parse true (← f.chunk "Atom")

def imports (f : Container) : Except Fault ImportTable := do ImportTable.parse (← f.chunk "ImpT")

def exports (f : Container) : Except Fault FunctionTable := do
  FunctionTable.parse (← f.chunk "ExpT")

/-- The local functions; none when the chunk was stripped. -/
def locals (f : Container) : Except Fault FunctionTable :=
  match f.chunk? "LocT" with
  | some payload => FunctionTable.parse payload
  | none => .ok FunctionTable.empty

def lineTable (f : Container) : Noted LineTable := LineTable.ofChunk (f.chunk? "Line")

def literals (f : Container) : Noted LiteralTable :=
  LiteralTable.ofChunk Term.Decoder.standard (f.chunk? "LitT")

def functions (f : Container) : Noted (Except Fault (List RawFunction)) :=
  match f.atoms with
  | .error e => ⟨.error e, []⟩
  | .ok atoms =>
    match f.imports with
    | .error e => ⟨.error e, []⟩
    | .ok imports => do
      let literals ← f.literals
      match f.chunk "Code" with
      | .error e => return .error e
      | .ok code => Code.tokenize ⟨atoms, imports, some literals, true⟩ code

def moduleName (f : Container) : Except Fault String := do
  match (← f.atoms).moduleName? with
  | some name => return name
  | none => .error (.indexOutOfRange "atom" 1)

/-- A chunk that is there and not empty. -/
def nonemptyChunk? (f : Container) (id : String) : Option Bytes :=
  (f.chunk? id).filter fun payload => !payload.isEmpty

/-- The forms in a debug information term: `none` for a term of another shape, which is noted;
`some none` for one whose forms are no list. -/
def debugForms? : Term → Option (Option (List Term))
  | .tuple [tag, backend, data] =>
    if tag.isAtom "debug_info_v1" && backend.isAtom "erl_abstract_code" then
      match data with
      | .tuple [forms, _] => some forms.asList?
      | _ => some none
    else none
  | _ => none

/-- The forms in an abstract code term of the older kind. -/
def rawForms? : Term → Option (List Term)
  | .tuple [tag, forms] => if tag.isAtom "raw_abstract_v1" then forms.asList? else none
  | _ => none

/-- The abstract code of the module, if its debug chunks carry it, read with a decoder of choice.
The newer chunk is asked first; if it is there and not empty, the older one is not. -/
def abstractFormsBy (d : Term.Decoder) (f : Container) :
    Noted (Except Fault (Option (List Term))) :=
  match f.nonemptyChunk? "Dbgi" with
  | some payload =>
    match Term.decode d payload with
    | .error e => ⟨.error e, []⟩
    | .ok decoded =>
      match debugForms? decoded.term with
      | some forms => ⟨.ok forms, decoded.notes⟩
      | none => ⟨.ok none, decoded.notes ++ [.debug "Dbgi chunk has no Erlang abstract code"]⟩
  | none =>
    match f.nonemptyChunk? "Abst" with
    | some payload =>
      match Term.decode d payload with
      | .error e => ⟨.error e, []⟩
      | .ok decoded => ⟨.ok (rawForms? decoded.term), decoded.notes⟩
    | none => ⟨.ok none, []⟩

def abstractForms (f : Container) : Noted (Except Fault (Option (List Term))) :=
  f.abstractFormsBy .standard

end Container

end BeamScope
