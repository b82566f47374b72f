import BeamScope.Text.Escaped

/-!
# Faults

Every way in which reading a module can fail, with the place where it failed, and the one function
that words it. Offsets count bytes from the start of the chunk, term or file being read.
-/

namespace BeamScope

/-- Why a module, a chunk or a term could not be read. -/
inductive Fault where
  /-- Fewer bytes than a container header. -/
  | fileTooSmall (size : Nat)
  /-- The file does not carry the two container marks. -/
  | badMagic
  /-- No chunk has this identifier. -/
  | chunkMissing (id : String)
  /-- The data ends before the item that starts at or holds `offset`. -/
  | truncated (offset : Nat)
  /-- A compact item of the wrong kind. -/
  | badTag (byte : UInt8) (offset : Nat)
  /-- A number outside the range of its field. -/
  | overflow (offset : Nat)
  /-- An extended operand, or an allocation entry, of unknown kind. -/
  | unsupportedOperand (kind : Nat) (offset : Nat)
  /-- A byte in opcode position that names no instruction. -/
  | unknownOpcode (opcode : UInt8) (offset : Nat)
  /-- A reference past the end of a table. -/
  | indexOutOfRange (table : String) (index : Nat)
  /-- Text that is not UTF-8. -/
  | badUtf8 (offset : Nat)
  /-- A term tag that is unknown, or whose body makes no sense. -/
  | badTerm (tag : UInt8) (offset : Nat)
  /-- A term below the nesting limit. -/
  | termTooDeep (offset : Nat)
  /-- A compressed stream of another length than announced. -/
  | inflatedSize (expected actual : Nat)
  /-- A compressed stream that is damaged or cut short. -/
  | inflateStream
  /-- A file that could not be opened. -/
  | unreadable (reason : String)
  deriving Repr, DecidableEq, Inhabited

namespace Fault

open Text

def message : Fault → String
  | fileTooSmall size => s!"File too small: {size} bytes"
  | badMagic => "Invalid magic: expected FOR1....BEAM"
  | chunkMissing id => "Chunk " ++ Text.quoted id ++ " not found"
  | truncated offset => "Truncated data at offset " ++ hex offset
  | badTag byte offset => "Invalid tag byte " ++ hexByte byte ++ " at offset " ++ hex offset
  | overflow offset => "Value does not fit in 64 bits at offset " ++ hex offset
  | unsupportedOperand kind offset =>
    s!"Unsupported extended operand kind {kind} at offset " ++ hex offset
  | unknownOpcode opcode offset => s!"Unknown opcode {opcode.toNat} at offset " ++ hex offset
  | indexOutOfRange table index => s!"{table} index {index} out of range"
  | badUtf8 offset => "Invalid UTF-8 at offset " ++ hex offset
  | badTerm tag offset => s!"Invalid term tag {tag.toNat} at offset " ++ hex offset
  | termTooDeep offset => "Term nested too deeply at offset " ++ hex offset
  | inflatedSize expected actual =>
    s!"Decompression failed: expected {expected} bytes, got {actual}"
  | inflateStream => "Decompression failed: corrupt deflate stream"
  | unreadable reason => "I/O error: " ++ reason

end Fault

end BeamScope
