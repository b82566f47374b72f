import BeamScope.InstructionSet.Classification
import BeamScope.Text.Escaped

/-!
# The generated table

The program text of an opcode table: two constants and an array with one entry for each number,
written from a definition file and a classification. A fault is worded with the file it is in.
-/

namespace BeamScope.InstructionSet

inductive GenerateFault where
  | definitions (line : Nat) (fault : LineFault)
  | classification (fault : ClassFault)

def GenerateFault.message : GenerateFault → String
  | definitions line fault => s!"genop.tab:{line}: " ++ fault.message
  | classification fault => "categories.yaml: " ++ fault.message

/-- A property as the name of a constant. -/
def flagConstant : Flag → String
  | .deprecated => "DEPRECATED"
  | .localCall => "LOCAL_CALL"
  | .externalCall => "EXTERNAL_CALL"
  | .bifCall => "BIF_CALL"
  | .dynamicCall => "DYNAMIC_CALL"
  | .tailCall => "TAIL_CALL"
  | .lineMarker => "LINE_MARKER"

def optionText : Option String → String
  | none => "None"
  | some s => s!"Some({s})"

def slotLines : Option Slot → List String
  | none => ["    None,"]
  | some s =>
    let d := s.definition
    let flags := String.join (s.flags.map fun f => ".union(OpcodeFlags::" ++ flagConstant f ++ ")")
    let names := ", ".intercalate (d.operandNames.map Text.quoted)
    ["    Some(OpcodeInfo \x7b",
      s!"        id: {d.id},",
      "        mnemonic: " ++ Text.quoted d.name ++ ",",
      s!"        arity: {d.arity},",
      "        category: Category::" ++ categoryConstructor s.category ++ ",",
      s!"        flags: OpcodeFlags::empty(){flags},",
      "        import_operand: " ++ optionText (s.importOperand.map toString) ++ ",",
      "        doc: " ++ optionText (d.doc.map Text.quoted) ++ ",",
      s!"        operand_names: &[{names}],",
      "    \x7d),"]

def tableLines (ds : Definitions) (slots : List (Option Slot)) : List String :=
  ["// @generated by build.rs from isa/genop.tab and isa/categories.yaml",
    "",
    "/// `BEAM_FORMAT_NUMBER` declared by the instruction set.",
    s!"pub const FORMAT_NUMBER: u32 = {ds.formatNumber};",
    "",
    "/// Highest opcode id known to this build.",
    s!"pub const MAX_OPCODE: u8 = {ds.maxId};",
    "",
    s!"static OPCODES: [Option<OpcodeInfo>; {ds.maxId + 1}] = ["] ++
  slots.flatMap slotLines ++ ["];"]

/-- The program text for a definition file and a classification. -/
def generate (source : String) (cl : Classification) : Except GenerateFault String := do
  let ds ← (parse source).mapError fun (line, e) => .definitions line e
  let slots ← (table ds cl).mapError .classification
  return String.join ((tableLines ds slots).map (· ++ "\n"))

end BeamScope.InstructionSet
