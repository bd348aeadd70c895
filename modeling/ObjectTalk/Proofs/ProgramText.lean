import ObjectTalk.Node.Text
import ObjectTalk.Proofs.Grammar
import ObjectTalk.Proofs.JsonText
/-!
# `Proofs.ProgramText` — the text of a program reads back

The written form of a program is in the grammar, so it is read as the program; and all that the grammar admits is
made of what JSON text gives back. So the compact text of a written program holds this program, unless it is
nested deeper than a text may be.
-/

namespace ObjectTalk

/-! ## Written forms as text -/

theorem Json.Exact.tagged (tag : String) {parts : List Json} (hparts : ∀ part ∈ parts, part.Exact) :
    Exact (.array (.string tag :: parts)) :=
  .array (List.forall_mem_cons.mpr ⟨.string tag, hparts⟩)

theorem Json.Exact.int64 (value : Int64) : Exact (.integer value.toInt) :=
  .integer value.minValue_le_toInt (Int.le_trans value.toInt_le (by decide))

theorem Signature.exact_of_encodes {json : Json} {signature : Signature} (h : signature.Encodes json) :
    json.Exact := by
  rw [encodes_iff_eq_wire.mp h]
  refine .tagged "params" fun part hpart => ?_
  obtain ⟨param, _, rfl⟩ := List.mem_map.mp hpart
  cases param <;> exact .tagged _ (by simp [Json.Exact.string])

namespace Node

mutual

/-- What `Encodes` a node is `Exact`: its text gives it back. -/
theorem exact_of_encodes {json : Json} {node : Node} : Encodes json node → json.Exact
  | .sequence hparts => .tagged _ (exact_of_encodesAll hparts)
  | .classDef htarget hbody => .tagged _ (by simp [exact_of_encodes htarget, exact_of_encodes hbody])
  | .classDefFrom htarget hparent hbody =>
      .tagged _ (by simp [exact_of_encodes htarget, exact_of_encodesOptional hparent, exact_of_encodes hbody])
  | .methodDef hparams hbody =>
      .tagged _ (by simp [Json.Exact.string, Signature.exact_of_encodes hparams, exact_of_encodes hbody])
  | .localAssign hvalue => .tagged _ (by simp [Json.Exact.string, exact_of_encodes hvalue])
  | .ivarAssign hvalue => .tagged _ (by simp [Json.Exact.string, exact_of_encodes hvalue])
  | .localRead _ => .tagged _ (by simp [Json.Exact.string])
  | .ivarRead _ => .tagged _ (by simp [Json.Exact.string])
  | .send hreceiver hargs => .tagged _ (List.forall_mem_cons.mpr ⟨exact_of_encodesOptional hreceiver,
      List.forall_mem_cons.mpr ⟨.string _, exact_of_encodesAll hargs⟩⟩)
  | .constRef hscope => .tagged _ (by simp [Json.Exact.string, exact_of_encodesOptional hscope])
  | .stringLit _ => .tagged _ (by simp [Json.Exact.string])
  | .integerLit _ => .tagged _ (by simp [Json.Exact.int64])
  | .interpolated hparts => .tagged _ (exact_of_encodesAll hparts)
  | .rawString text => .string text
  | .rawInteger value => .int64 value

theorem exact_of_encodesAll {jsons : List Json} {nodes : List Node} :
    EncodesAll jsons nodes → ∀ json ∈ jsons, json.Exact
  | .nil => fun _ hjson => absurd hjson List.not_mem_nil
  | .cons h hmore => List.forall_mem_cons.mpr ⟨exact_of_encodes h, exact_of_encodesAll hmore⟩

theorem exact_of_encodesOptional {json : Json} {node : Option Node} : EncodesOptional json node → json.Exact
  | .absent => .null
  | .present h => exact_of_encodes h

end

/-- Whatever JSON `Encodes` a program, `ofText` reads the program from its text, unless it is too deep. -/
theorem ofText_compact_of_encodes {json : Json} {node : Node} (h : Encodes json node) :
    ofText json.compact = if json.nesting ≤ nestingLimit then .ok node else .error (.text .tooDeep) := by
  rw [ofText, (exact_of_encodes h).read_compact]
  by_cases hdeep : json.nesting ≤ nestingLimit
  · simp only [if_pos hdeep, ofTree, ofJson_of_encodes h]
    rfl
  · simp only [if_neg hdeep]

/-! ## The written form of a program -/

mutual

/-- `Node.wire` is in the grammar: it `Encodes` the node. -/
theorem encodes_wire : (node : Node) → Encodes node.wire node
  | sequence statements => .sequence (encodesAll_wireAll statements)
  | classDef scope _ superclass body =>
      .classDefFrom (.constRef (encodesOptional_wireOptional scope)) (encodesOptional_wireOptional superclass)
        (encodes_wire body)
  | methodDef _ _ body => .methodDef (Signature.encodes_iff_eq_wire.mpr rfl) (encodes_wire body)
  | localAssign _ value => .localAssign (encodes_wire value)
  | ivarAssign _ value => .ivarAssign (encodes_wire value)
  | localRead name => .localRead name
  | ivarRead name => .ivarRead name
  | send receiver _ args => .send (encodesOptional_wireOptional receiver) (encodesAll_wireAll args)
  | constRef scope _ => .constRef (encodesOptional_wireOptional scope)
  | stringLit text => .stringLit text
  | integerLit value => .integerLit value
  | interpolated parts => .interpolated (encodesAll_wireAll parts)

theorem encodesAll_wireAll : (nodes : List Node) → EncodesAll (wireAll nodes) nodes
  | [] => .nil
  | node :: nodes => .cons (encodes_wire node) (encodesAll_wireAll nodes)

theorem encodesOptional_wireOptional : (node : Option Node) → EncodesOptional (wireOptional node) node
  | none => .absent
  | some node => .present (encodes_wire node)

end

/-- **Written programs read back.** `ofText` reads from the compact text of `Node.wire` the program itself, whatever
    its names, strings and numbers are, if at most 127 arrays stand inside one another; if more do, the text is
    refused. -/
theorem written_program_reads_back (node : Node) :
    ofText node.wire.compact = if node.wire.nesting ≤ 127 then .ok node else .error (.text .tooDeep) :=
  ofText_compact_of_encodes (encodes_wire node)

/-- A sequence in a sequence, and so on, `depth` sequences around a string. -/
def sequences : Nat → Node
  | 0 => .stringLit "\"\u0007\\"
  | depth + 1 => .sequence [sequences depth]

theorem nesting_wire_sequences (depth : Nat) : (sequences depth).wire.nesting = depth + 1 := by
  induction depth with
  | zero => rfl
  | succ depth ih =>
      rw [sequences, wire, wireAll, wireAll, Json.nesting, Json.nestingAll, Json.nestingAll, Json.nestingAll, ih]
      simp [Json.nesting]

/-- The limit on the depth is exact. -/
theorem written_program_reads_back_at_limit :
    ofText (sequences 126).wire.compact = .ok (sequences 126)
      ∧ ofText (sequences 127).wire.compact = .error (.text .tooDeep) := by
  have hlimit := written_program_reads_back (sequences 126)
  have hbeyond := written_program_reads_back (sequences 127)
  rw [nesting_wire_sequences] at hlimit hbeyond
  exact ⟨hlimit, hbeyond⟩

end Node

end ObjectTalk
