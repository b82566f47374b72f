import BeamScope.Code.Tokens

/-!
# Splitting code into functions

Each function has one head instruction. The labels and line markers directly before the head belong
to it, and so does everything up to where the next function starts. What stands before the first
function belongs to none, and the end mark ends the last one.
-/

namespace BeamScope.Code

/-- A stream cut at the starts of its functions. -/
structure Cut where
  /-- Instructions before the first function. -/
  front : List RawInstruction
  /-- The stretch of each function. -/
  segments : List (List RawInstruction)
  /-- Whether the first function starts right here, so that one more label or line marker before it
  would still belong to it. -/
  attached : Bool

/-- The cut of a stream that has one more instruction in front. -/
def Cut.push (i : RawInstruction) (cut : Cut) : Cut :=
  if i.isFuncInfo then ⟨[], (i :: cut.front) :: cut.segments, true⟩
  else
    match cut.segments, cut.attached && i.isLead with
    | s :: rest, true => ⟨[], (i :: s) :: rest, true⟩
    | segments, _ => ⟨i :: cut.front, segments, false⟩

/-- Cut a stream at the starts of its functions. -/
def cut (is : List RawInstruction) : Cut := is.foldr Cut.push ⟨[], [], false⟩

/-- A stretch up to and including the head. -/
def upToHead (segment : List RawInstruction) : List RawInstruction :=
  segment.takeWhile (fun i => !i.isFuncInfo) ++
    (segment.dropWhile fun i => !i.isFuncInfo).take 1

/-- The last stretch ends before the first end mark of the stream, yet keeps its head; `ended` says
whether an end mark came before. -/
def closeLast (ended : Bool) : List (List RawInstruction) → List (List RawInstruction)
  | [] => []
  | [s] => [if ended then upToHead s else s.takeWhile fun i => !i.isCodeEnd]
  | s :: rest => s :: closeLast (ended || s.any RawInstruction.isCodeEnd) rest

/-- The function of a stretch: its name and arity stand in the head, its entry is the first label
behind it. -/
def functionOf (code : List RawInstruction) : RawFunction :=
  let fromHead := code.dropWhile fun i => !i.isFuncInfo
  let operands : List Operand := (fromHead.head?.map RawInstruction.operands).getD []
  let name :=
    match operands[1]? with
    | some (Operand.atom name) => name
    | _ => "?"
  let arity := (operands[2]?.bind Operand.asUInt32?).getD 0
  let entry := ((fromHead.find? RawInstruction.isLabel).bind fun i =>
    i.operands.head?.bind Operand.asUInt32?).getD 0
  ⟨name, arity, entry, code⟩

def splitFunctions (is : List RawInstruction) : List RawFunction :=
  let c := cut is
  (closeLast (c.front.any RawInstruction.isCodeEnd) c.segments).map functionOf

def tokenize (t : Tables) (chunk : Bytes) : Noted (Except Fault (List RawFunction)) :=
  match CodeHeader.parse chunk with
  | .error e => ⟨.error e, []⟩
  | .ok header => do
    if header.maxOpcode > Opcode.maxId then
      Noted.say [.warn (s!"code chunk uses opcodes up to {header.maxOpcode}, " ++
        s!"this build knows up to {Opcode.maxId}")]
    match ← instructions t chunk header.codeOffset with
    | .error e => return .error e
    | .ok is =>
      let functions := splitFunctions is
      if functions.length ≠ header.functionCount then
        Noted.say [.warn (s!"code header declares {header.functionCount} functions, " ++
          s!"found {functions.length}")]
      return .ok functions

end BeamScope.Code
